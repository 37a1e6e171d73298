import NameResolution.Name

/-!
# Local binders

Every binder opens a scope: its namespace is the scope it stands in with one more segment `#k`,
where `k` counts the binders of the module in the order they are met.  So resolving a module again
gives the same scopes again.

The count has 32 bits and starts again from zero after 2 ^ 32 binders.  No two binders of a module
share a scope as long as there are no more of them; after that a binder can get the scope of an
earlier one.

A binder is never forgotten.  Whether it can be seen from a place is read off the scopes alone: it
can if its scope encloses the place.
-/

namespace NameResolution

/-- The binders met so far, the last one first, and the number of the next scope. -/
structure Binders where
  names : List Name
  count : UInt32
deriving DecidableEq

namespace Binders

/-- No binder met yet. -/
def empty : Binders := ⟨[], 0⟩

/-- Binds `ident` in a new scope inside `lexical`. -/
def bind (binders : Binders) (lexical : Namespace) (ident : String) : Name × Binders :=
  let name := (lexical.child ("#" ++ toString binders.count)).name ident
  (name, ⟨name :: binders.names, binders.count + 1⟩)

/-- The innermost binder of `ident` that can be seen from `lexical`.  The search goes outward and
stops before the module `owner` itself. -/
def lookup (binders : Binders) (lexical owner : Namespace) (ident : String) : Option Name :=
  ((lexical.outward.takeWhile (· != owner)).map (·.name ident)).find? binders.names.contains

/-- Whether `name` is a binder whose scope encloses `lexical`. -/
def isVisible (binders : Binders) (name : Name) (lexical : Namespace) : Bool :=
  binders.names.contains name && name.qualifier.encloses lexical

end Binders

end NameResolution
