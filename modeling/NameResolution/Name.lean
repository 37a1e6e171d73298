/-!
# Identifiers, namespaces and qualified names

A `NodeId` names one occurrence in the syntax.  A `Namespace` is a path of segments: it names a
module, or the scope that a local binder opens.  A `Name` is an identifier together with the
namespace that qualifies it; an occurrence that is not qualified carries the empty namespace.

Namespaces are written with `::` between the segments.  `Namespace.parse` splits at the leftmost
separator first, so that every text is the written form of what it is parsed to.
-/

namespace NameResolution

/-! ### Node ids -/

/-- The handle of one node of the syntax, and the only key to its position. -/
structure NodeId where
  val : UInt32
deriving DecidableEq, Inhabited

namespace NodeId

/-- Node ids are shown behind a `#`. -/
protected def toString (id : NodeId) : String := "#" ++ toString id.val.toNat

instance : ToString NodeId := ⟨NodeId.toString⟩

end NodeId

/-- Hands out node ids in increasing order; `next` is also the number handed out so far. -/
structure IdSupply where
  next : UInt32
deriving DecidableEq

namespace IdSupply

/-- The supply that has handed out nothing. -/
def empty : IdSupply := ⟨0⟩

/-- The next id, and the supply without it. -/
def fresh (supply : IdSupply) : NodeId × IdSupply := (⟨supply.next⟩, ⟨supply.next + 1⟩)

end IdSupply

/-! ### Namespaces -/

/-- A path of segments. -/
structure Namespace where
  segments : List String
deriving DecidableEq, Inhabited

namespace Namespace

/-- The namespace of occurrences that are not qualified. -/
def empty : Namespace := ⟨[]⟩

/-- Whether this is the empty namespace. -/
def isEmpty (ns : Namespace) : Bool := ns.segments.isEmpty

/-- The number of segments. -/
def length (ns : Namespace) : Nat := ns.segments.length

/-- `ns` with one more segment at the end. -/
def child (ns : Namespace) (segment : String) : Namespace := ⟨ns.segments ++ [segment]⟩

/-- The enclosing namespace; the empty namespace has none. -/
def parent? (ns : Namespace) : Option Namespace :=
  if ns.segments.isEmpty then none else some ⟨ns.segments.dropLast⟩

/-- `outer.encloses inner` holds if the two are equal or `inner` is nested inside `outer`. -/
def encloses (outer inner : Namespace) : Bool := outer.segments.isPrefixOf inner.segments

/-- The initial parts of a list, the longest first; the last one is empty. -/
def initialParts {α : Type} : List α → List (List α)
  | [] => [[]]
  | x :: xs => (initialParts xs).map (x :: ·) ++ [[]]

/-- `ns` and every namespace that encloses it, innermost first. -/
def outward (ns : Namespace) : List Namespace := (initialParts ns.segments).map Namespace.mk

/-- The written form: the segments with `::` between them. -/
protected def toString (ns : Namespace) : String := "::".intercalate ns.segments

instance : ToString Namespace := ⟨Namespace.toString⟩

/-- Cuts a text at every `::`, from left to right.  There is one part more than there are cuts. -/
def splitPath : List Char → List (List Char)
  | [] => [[]]
  | ':' :: ':' :: rest => [] :: splitPath rest
  | c :: rest =>
    match splitPath rest with
    | [] => [[c]]
    | part :: parts => (c :: part) :: parts

/-- Reads a written namespace.  The empty text is the empty namespace, not one empty segment. -/
def parse (path : String) : Namespace :=
  if path.isEmpty then empty else ⟨(splitPath path.toList).map String.ofList⟩

/-- Segment by segment; segments are compared by code points, which is also the order of their
encoded bytes. -/
instance : Ord Namespace := ⟨fun a b => compare a.segments b.segments⟩

end Namespace

/-! ### Names -/

/-- An identifier and the namespace that qualifies it. -/
structure Name where
  qualifier : Namespace
  ident : String
deriving DecidableEq, Inhabited

namespace Name

/-- The name of an occurrence that carries no namespace. -/
def unqualified (ident : String) : Name := ⟨.empty, ident⟩

/-- Whether the name carries a namespace. -/
def isQualified (name : Name) : Bool := !name.qualifier.isEmpty

/-- The written form: the namespace, if there is one, and `::` before the identifier. -/
protected def toString (name : Name) : String :=
  if name.qualifier.isEmpty then name.ident else toString name.qualifier ++ "::" ++ name.ident

instance : ToString Name := ⟨Name.toString⟩

/-- By namespace first, then by identifier. -/
instance : Ord Name := ⟨compareLex (compareOn Name.qualifier) (compareOn Name.ident)⟩

end Name

/-- The name that `ident` has in the namespace `ns`. -/
def Namespace.name (ns : Namespace) (ident : String) : Name := ⟨ns, ident⟩

end NameResolution
