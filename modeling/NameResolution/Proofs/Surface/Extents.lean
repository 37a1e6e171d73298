import NameResolution.Surface.Markup
import Mathlib.Data.List.Forall2

/-!
# The places of nodes in a text

The places that are read off a marked text cut it at the text of each node
(`Markup.forall₂_extents`): in front of a node and behind it there is some text, and the offsets
count the bytes of what comes before.  So both ends lie on character boundaries, the end not in
front of the start and not behind the end of the text (`Extent.Cuts.bounds`).
-/

namespace NameResolution.Surface

/-! ### Cutting a text -/

/-- The place is that of `part` inside `text`, if the text starts at `offset`. -/
def Extent.Cuts (x : Extent) (offset : Nat) (text part : String) : Prop :=
  ∃ before after, text = before ++ part ++ after ∧ x.start = offset + before.utf8ByteSize ∧
    x.stop = x.start + part.utf8ByteSize

namespace Extent.Cuts

variable {x : Extent} {offset : Nat} {first second part : String}

theorem append_right (h : x.Cuts offset first part) (second : String) :
    x.Cuts offset (first ++ second) part := by
  obtain ⟨before, after, rfl, hstart, hstop⟩ := h
  refine ⟨before, after ++ second, ?_, hstart, hstop⟩
  rw [String.append_assoc, String.append_assoc]

theorem append_left (h : x.Cuts (offset + first.utf8ByteSize) second part) :
    x.Cuts offset (first ++ second) part := by
  obtain ⟨before, after, rfl, hstart, hstop⟩ := h
  refine ⟨first ++ before, after, ?_, ?_, hstop⟩
  · rw [String.append_assoc, String.append_assoc, String.append_assoc]
  · rw [hstart, String.utf8ByteSize_append, Nat.add_assoc]

/-- **What is cut out lies inside the text and between characters.** -/
theorem bounds {text : String} (h : x.Cuts 0 text part) :
    x.start ≤ x.stop ∧ x.stop ≤ text.utf8ByteSize ∧
      (⟨x.start⟩ : String.Pos.Raw).IsValid text ∧ (⟨x.stop⟩ : String.Pos.Raw).IsValid text := by
  obtain ⟨before, after, rfl, hstart, hstop⟩ := h
  rw [Nat.zero_add] at hstart
  have hcut : x.stop = (before ++ part).utf8ByteSize := by
    rw [hstop, hstart, String.utf8ByteSize_append]
  refine ⟨?_, ?_, ?_, ?_⟩
  · omega
  · have hsize := @String.utf8ByteSize_append (before ++ part) after
    omega
  · refine String.Pos.Raw.isValid_iff_exists_append.mpr ⟨before, part ++ after, ?_, ?_⟩
    · rw [String.append_assoc]
    · rw [hstart]
      rfl
  · refine String.Pos.Raw.isValid_iff_exists_append.mpr ⟨before ++ part, after, rfl, ?_⟩
    rw [hcut]
    rfl

end Extent.Cuts

/-! ### Marked nodes -/

namespace Markup

/-- The nodes of a marked text with their own texts, a node after all nodes inside it. -/
def marked : Markup → List (NodeId × String)
  | text _ => []
  | node id body => body.marked ++ [(id, body.toText)]
  | append first second => first.marked ++ second.marked

/-- The nodes of a marked text. -/
def nodes (m : Markup) : List NodeId := m.marked.map Prod.fst

@[simp] theorem nodes_text (s : String) : (text s).nodes = [] := rfl

@[simp] theorem nodes_empty : empty.nodes = [] := rfl

@[simp] theorem nodes_node (id : NodeId) (body : Markup) :
    (node id body).nodes = body.nodes ++ [id] := by
  rw [nodes, marked, List.map_append]
  rfl

@[simp] theorem nodes_append (first second : Markup) :
    (first ++ second).nodes = first.nodes ++ second.nodes :=
  List.map_append

@[simp] theorem nodes_concat (ms : List Markup) : (concat ms).nodes = ms.flatMap nodes := by
  induction ms with
  | nil => rfl
  | cons m rest ih => rw [concat, nodes_append, ih, List.flatMap_cons]

/-- **Each place cuts out the text of its node.** -/
theorem forall₂_extents (m : Markup) (offset : Nat) :
    List.Forall₂ (fun x mark => x.id = mark.1 ∧ x.Cuts offset m.toText mark.2)
      (m.extents offset) m.marked := by
  induction m generalizing offset with
  | text s => exact .nil
  | node id body ih =>
    refine List.rel_append (ih offset) (.cons ⟨rfl, "", "", ?_, ?_, ?_⟩ .nil)
    · rw [String.empty_append, String.append_empty]
    · exact (Nat.add_zero offset).symm
    · show offset + body.size = offset + body.toText.utf8ByteSize
      rw [body.size_eq]
  | append first second ihFirst ihSecond =>
    have hfirst := (ihFirst offset).imp fun _ _ h => And.imp_right (·.append_right second.toText) h
    have hsecond := ihSecond (offset + first.size)
    rw [first.size_eq] at hsecond
    have hsecond := hsecond.imp fun _ _ h => And.imp_right (·.append_left) h
    unfold extents
    rw [first.size_eq]
    exact List.rel_append hfirst hsecond

/-- The places are those of the nodes. -/
theorem map_id_extents (m : Markup) (offset : Nat) :
    (m.extents offset).map Extent.id = m.nodes := by
  have hids := (m.forall₂_extents offset).imp fun _ _ h => h.1
  rw [nodes, ← List.forall₂_eq_eq_eq, List.forall₂_map_left_iff, List.forall₂_map_right_iff]
  exact hids

end Markup

end NameResolution.Surface
