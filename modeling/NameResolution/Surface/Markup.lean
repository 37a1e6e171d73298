import NameResolution.Name

/-!
# Text with marked nodes

A `Markup` is a text in which the parts that belong to nodes are marked.  Printers build one, and
both the text and the place of every node are read off it: `Markup.extents` walks over the parts
from left to right and lists a node after all nodes inside it.
-/

namespace NameResolution.Surface

/-- A text with marked nodes. -/
inductive Markup where
  | text (s : String)
  /-- The text of the node `id`. -/
  | node (id : NodeId) (body : Markup)
  | append (first second : Markup)

/-- The place of a node: byte offsets of its first character and of what follows it. -/
structure Extent where
  id : NodeId
  start : Nat
  stop : Nat
deriving DecidableEq

namespace Markup

instance : Append Markup := ⟨append⟩

instance : Coe String Markup := ⟨text⟩

/-- No text. -/
def empty : Markup := text ""

/-- The marked texts one after the other. -/
def concat : List Markup → Markup
  | [] => empty
  | m :: rest => m ++ concat rest

/-- The text without its marks. -/
def toText : Markup → String
  | text s => s
  | node _ body => body.toText
  | append first second => first.toText ++ second.toText

/-- The number of bytes of the text, without building it. -/
def size : Markup → Nat
  | text s => s.utf8ByteSize
  | node _ body => body.size
  | append first second => first.size + second.size

/-- The places of all nodes, if the text starts at `offset`. -/
def extents (offset : Nat) : Markup → List Extent
  | text _ => []
  | node id body => body.extents offset ++ [⟨id, offset, offset + body.size⟩]
  | append first second => first.extents offset ++ second.extents (offset + first.size)

/-- `size` is the number of bytes of the text. -/
theorem size_eq (m : Markup) : m.size = m.toText.utf8ByteSize := by
  induction m with
  | text s => rfl
  | node id body ih => exact ih
  | append first second ihf ihs => simp [size, toText, ihf, ihs]

end Markup

end NameResolution.Surface
