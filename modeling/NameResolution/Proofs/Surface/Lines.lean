import NameResolution.Proofs.Position
import NameResolution.Proofs.Surface.Chars
import NameResolution.Proofs.Surface.Spans
import Mathlib

/-!
# Lines of printed modules

If no word of a program has a line break in it, then nothing that the printer writes for a node has
one, whatever stands in string literals, since line breaks are escaped in these
(`Surface.newline_not_mem_quote`).  So each declaration is one line, and a module is its lines, each
with its line break (`Module.toList_print`).
-/

namespace NameResolution

open Surface (Markup Mark)

/-! ### Nodes on one line -/

/-- No word at the node has a line break in it. -/
def Node.OneLine (n : Node) : Prop := ∀ w ∈ n.words, '\n' ∉ w.toList

instance (n : Node) : Decidable n.OneLine :=
  inferInstanceAs (Decidable (∀ w ∈ n.words, '\n' ∉ w.toList))

theorem newline_not_mem_intercalate {sep : String} {items : List String} (hsep : '\n' ∉ sep.toList)
    (hitems : ∀ item ∈ items, '\n' ∉ item.toList) : '\n' ∉ (sep.intercalate items).toList := by
  rw [String.toList_intercalate]
  have hother := forall_mem_intercalate (P := (· ≠ '\n')) (fun c hc heq => hsep (heq ▸ hc))
    (List.forall_mem_map.mpr fun item hitem c hc heq => hitems item hitem (heq ▸ hc))
  exact fun hmem => hother _ hmem rfl

/-- **A quoted text stays on one line.** -/
theorem Surface.newline_not_mem_quote (text : String) : '\n' ∉ (quote text).toList := by
  have hescape : ∀ c, '\n' ∉ escape c := by
    intro c
    unfold escape
    split
    · decide
    · decide
    · decide
    · decide
    · decide
    · decide
    · rename_i hnewline _ _
      split_ifs
      · rw [List.mem_append, List.mem_append]
        rintro ((h | h) | h)
        · revert h
          decide
        · obtain ⟨d, -, hd⟩ := exists_digitChar_of_mem_toDigits h
          exact Nat.digitChar_ne '\n' (by decide) hd.symm
        · revert h
          decide
      · exact fun h => hnewline (List.mem_singleton.mp h).symm
  rw [toList_quote, List.mem_cons, List.mem_append, List.mem_flatMap]
  rintro (h | ⟨c, -, h⟩ | h)
  · exact absurd h (by decide)
  · exact hescape c h
  · exact absurd (List.mem_singleton.mp h) (by decide)

theorem Namespace.newline_not_mem_toString {ns : Namespace}
    (h : ∀ w ∈ ns.segments, '\n' ∉ w.toList) : '\n' ∉ (toString ns).toList :=
  newline_not_mem_intercalate (by decide) h

theorem Name.newline_not_mem_toString {name : Name} (h : ∀ w ∈ name.words, '\n' ∉ w.toList) :
    '\n' ∉ (toString name).toList := by
  obtain ⟨hqualifier, hident⟩ := List.forall_mem_append.mp h
  have hident := hident name.ident List.mem_cons_self
  show '\n' ∉ (if name.qualifier.isEmpty then name.ident
    else toString name.qualifier ++ "::" ++ name.ident).toList
  split_ifs
  · exact hident
  · rw [String.toList_append, String.toList_append, List.mem_append, List.mem_append]
    rintro ((h | h) | h)
    · exact Namespace.newline_not_mem_toString hqualifier h
    · revert h
      decide
    · exact hident h

theorem Literal.newline_not_mem_toText (value : Literal) : '\n' ∉ value.toText.toList := by
  cases value with
  | int value =>
    intro h
    rcases Surface.isDigit_or_eq_of_mem_toString h with h | h
    · revert h
      decide
    · revert h
      decide
  | bool value => cases value <;> decide
  | str value => exact Surface.newline_not_mem_quote value
  | unit => decide

mutual

theorem Ty.newline_not_mem_chars : (t : Ty) → (∀ n ∈ t.inside, n.OneLine) →
    (Node.type t).OneLine → '\n' ∉ t.markup.chars
  | .var id ident, _, ht => by
    simpa [Ty.markup] using ht ident List.mem_cons_self
  | .con id name args, h, ht => by
    have hname := Name.newline_not_mem_toString ht
    have hargs := Ty.newline_not_mem_listChars args h
    cases args with
    | nil => exact hname
    | cons arg rest => simpa [Ty.markup, Name.markup] using ⟨hname, hargs⟩
  | .arrow id param result, h, _ => by
    simp only [Ty.inside, List.forall_mem_append, List.forall_mem_cons] at h
    obtain ⟨hparam, hparamSelf, hresult, hresultSelf, -⟩ := h
    have hparam := param.newline_not_mem_chars hparam hparamSelf
    have hresult := result.newline_not_mem_chars hresult hresultSelf
    simpa [Ty.markup] using ⟨hparam, hresult⟩

theorem Ty.newline_not_mem_listChars : (types : List Ty) →
    (∀ n ∈ Ty.listInside types, n.OneLine) → '\n' ∉ (Ty.listMarkup types).chars
  | [], _ => List.not_mem_nil
  | type :: rest, h => by
    simp only [Ty.listInside, List.forall_mem_append, List.forall_mem_cons] at h
    obtain ⟨htype, hself, hrest⟩ := h
    have htype := type.newline_not_mem_chars htype hself
    have hrest := Ty.newline_not_mem_listChars rest hrest
    simpa [Ty.listMarkup] using ⟨htype, hrest⟩

end

theorem Pattern.newline_not_mem_chars {p : Pattern} (h : (Node.pattern p).OneLine) :
    '\n' ∉ p.markup.chars := by
  cases p with
  | lit id value => exact value.newline_not_mem_toText
  | bind id name => exact Name.newline_not_mem_toString h
  | wildcard id => exact (by decide : '\n' ∉ ['_'])
  | variant id type ctor fields =>
    obtain ⟨htype, h⟩ := List.forall_mem_append.mp h
    obtain ⟨hctor, hfields⟩ := List.forall_mem_cons.mp h
    have htype := Name.newline_not_mem_toString htype
    have hfields : '\n' ∉ (", ".intercalate (fields.map toString)).toList := by
      refine newline_not_mem_intercalate (by decide) fun item hitem => ?_
      obtain ⟨name, hname, rfl⟩ := List.mem_map.mp hitem
      exact Name.newline_not_mem_toString fun w hw =>
        hfields w (List.mem_flatMap.mpr ⟨name, hname, hw⟩)
    have hmarkup : '\n' ∉ (Pattern.fieldsMarkup fields).chars := by
      unfold Pattern.fieldsMarkup
      split_ifs
      · exact List.not_mem_nil
      · simpa using hfields
    simpa [Pattern.markup, Name.markup] using ⟨htype, hctor, hmarkup⟩

mutual

theorem Expr.newline_not_mem_chars : (e : Expr) → (∀ n ∈ e.inside, n.OneLine) →
    (Node.expr e).OneLine → '\n' ∉ e.markup.chars
  | .lit id value, _, _ => value.newline_not_mem_toText
  | .var id name, _, he => Name.newline_not_mem_toString he
  | .app id func arg, h, _ => by
    simp only [Expr.inside, List.forall_mem_append, List.forall_mem_cons] at h
    obtain ⟨hfunc, hfuncSelf, harg, hargSelf, -⟩ := h
    have hfunc := func.newline_not_mem_chars hfunc hfuncSelf
    have harg := arg.newline_not_mem_chars harg hargSelf
    simpa [Expr.markup] using ⟨hfunc, harg⟩
  | .lambda id param body, h, he => by
    simp only [Expr.inside, List.forall_mem_append, List.forall_mem_cons] at h
    obtain ⟨hbody, hbodySelf, -⟩ := h
    have hparam := Name.newline_not_mem_toString he
    have hbody := body.newline_not_mem_chars hbody hbodySelf
    simpa [Expr.markup, Name.markup] using ⟨hparam, hbody⟩
  | .annot id expr type, h, _ => by
    simp only [Expr.inside, List.forall_mem_append, List.forall_mem_cons] at h
    obtain ⟨hexpr, hexprSelf, htype, htypeSelf, -⟩ := h
    have hexpr := expr.newline_not_mem_chars hexpr hexprSelf
    have htype := type.newline_not_mem_chars htype htypeSelf
    simpa [Expr.markup] using ⟨hexpr, htype⟩
  | .letIn id binder bound body, h, he => by
    simp only [Expr.inside, List.forall_mem_append, List.forall_mem_cons] at h
    obtain ⟨hbound, hboundSelf, hbody, hbodySelf, -⟩ := h
    have hbinder := Name.newline_not_mem_toString he
    have hbound := bound.newline_not_mem_chars hbound hboundSelf
    have hbody := body.newline_not_mem_chars hbody hbodySelf
    simpa [Expr.markup, Name.markup] using ⟨hbinder, hbound, hbody⟩
  | .ifThenElse id cond thenBranch elseBranch, h, _ => by
    simp only [Expr.inside, List.forall_mem_append, List.forall_mem_cons] at h
    obtain ⟨hcond, hcondSelf, hthen, hthenSelf, helse, helseSelf, -⟩ := h
    have hcond := cond.newline_not_mem_chars hcond hcondSelf
    have hthen := thenBranch.newline_not_mem_chars hthen hthenSelf
    have helse := elseBranch.newline_not_mem_chars helse helseSelf
    simpa [Expr.markup] using ⟨hcond, hthen, helse⟩
  | .matchWith id scrutinee arms, h, _ => by
    simp only [Expr.inside, List.forall_mem_append, List.forall_mem_cons] at h
    obtain ⟨hscrutinee, hself, harms⟩ := h
    have hscrutinee := scrutinee.newline_not_mem_chars hscrutinee hself
    have harms := Arm.newline_not_mem_listChars arms harms
    simpa [Expr.markup] using ⟨hscrutinee, harms⟩

theorem Arm.newline_not_mem_chars : (arm : Arm) → (∀ n ∈ arm.inside, n.OneLine) →
    '\n' ∉ arm.markup.chars
  | ⟨pattern, body⟩, h => by
    simp only [Arm.inside, List.forall_mem_append, List.forall_mem_cons] at h
    obtain ⟨hpattern, hbody, hbodySelf, -⟩ := h
    have hpattern := Pattern.newline_not_mem_chars hpattern
    have hbody := body.newline_not_mem_chars hbody hbodySelf
    simpa [Arm.markup] using ⟨hpattern, hbody⟩

theorem Arm.newline_not_mem_listChars : (arms : List Arm) →
    (∀ n ∈ Arm.listInside arms, n.OneLine) → '\n' ∉ (Arm.listMarkup arms).chars
  | [], _ => List.not_mem_nil
  | arm :: rest, h => by
    obtain ⟨harm, hrest⟩ := List.forall_mem_append.mp h
    have harm := arm.newline_not_mem_chars harm
    have hrest := Arm.newline_not_mem_listChars rest hrest
    simpa [Arm.listMarkup] using ⟨harm, hrest⟩

end

/-! ### Lines -/

theorem Constructor.newline_not_mem_chars {c : Constructor} (hinside : ∀ n ∈ c.inside, n.OneLine)
    (h : (Node.ctor c).OneLine) : '\n' ∉ c.markup.chars := by
  have hlabel := h c.label List.mem_cons_self
  have hfields := Ty.newline_not_mem_listChars c.fields hinside
  simpa [Constructor.markup] using ⟨hlabel, hfields⟩

theorem Constructor.newline_not_mem_listChars {cs : List Constructor}
    (h : ∀ c ∈ cs, '\n' ∉ c.markup.chars) : '\n' ∉ (Constructor.listMarkup cs).chars := by
  cases cs with
  | nil => exact List.not_mem_nil
  | cons first rest =>
    obtain ⟨hfirst, hrest⟩ := List.forall_mem_cons.mp h
    simpa [Constructor.listMarkup] using ⟨hfirst, hrest⟩

/-- **A declaration stays on one line.** -/
theorem Decl.newline_not_mem_chars {d : Decl} (h : ∀ n ∈ d.subnodes, n.OneLine) :
    '\n' ∉ d.markup.chars := by
  obtain ⟨hself, hinside⟩ := List.forall_mem_cons.mp h
  cases d with
  | value id ident signature body =>
    have hident := hself ident List.mem_cons_self
    simp only [Decl.inside, List.forall_mem_append, List.forall_mem_cons] at hinside
    obtain ⟨⟨hsignature, hbody⟩, hbodySelf, -⟩ := hinside
    have hbody := body.newline_not_mem_chars hbody hbodySelf
    cases signature with
    | none => simpa [Decl.markup] using ⟨hident, hbody⟩
    | some type =>
      obtain ⟨htype, htypeSelf⟩ := List.forall_mem_append.mp hsignature
      have htype := type.newline_not_mem_chars htype (htypeSelf _ List.mem_cons_self)
      simpa [Decl.markup] using ⟨hident, htype, hbody⟩
  | data id ident params ctors =>
    obtain ⟨hident, hparams⟩ := List.forall_mem_cons.mp hself
    have hctors : '\n' ∉ (Constructor.listMarkup ctors).chars := by
      refine Constructor.newline_not_mem_listChars fun c hc => ?_
      have hc := List.forall_mem_append.mp fun n hn =>
        hinside n (List.mem_flatMap.mpr ⟨c, hc, hn⟩)
      exact c.newline_not_mem_chars hc.1 (hc.2 _ List.mem_cons_self)
    simpa [Decl.markup] using ⟨hident, hparams, hctors⟩

theorem Import.newline_not_mem_chars {i : Import} (h : (Node.imported i).OneLine) :
    '\n' ∉ i.markup.chars := by
  have htarget := Namespace.newline_not_mem_toString h
  simpa [Import.markup, Namespace.markup] using htarget

theorem Export.newline_not_mem_chars {e : Export} (h : (Node.exported e).OneLine) :
    '\n' ∉ e.markup.chars := by
  cases e with
  | decl id ident =>
    have hident := h ident List.mem_cons_self
    simpa [Export.markup] using hident
  | reexport id target =>
    have htarget := Namespace.newline_not_mem_toString h
    simpa [Export.markup, Namespace.markup] using htarget

/-- **What stands on a line of a module stays on the line.** -/
theorem Module.newline_not_mem_lines {m : Module} (h : ∀ n ∈ m.subnodes, n.OneLine) :
    ∀ line ∈ m.lines, '\n' ∉ line.chars := by
  obtain ⟨hheader, hinside⟩ := List.forall_mem_cons.mp h
  simp only [Module.inside, List.forall_mem_append, List.forall_mem_map] at hinside
  obtain ⟨⟨himports, hexports⟩, hdecls⟩ := hinside
  simp only [Module.lines, List.forall_mem_cons, List.forall_mem_append, List.forall_mem_map]
  refine ⟨?_, ⟨?_, ?_⟩, ?_⟩
  · have hns := Namespace.newline_not_mem_toString hheader
    simpa [Module.header, Namespace.markup] using hns
  · exact fun i hi => Import.newline_not_mem_chars (himports i hi)
  · exact fun e he => Export.newline_not_mem_chars (hexports e he)
  · exact fun d hd => Decl.newline_not_mem_chars fun n hn =>
      hdecls n (List.mem_flatMap.mpr ⟨d, hd, hn⟩)

/-! ### Lines one after the other -/

namespace Surface.Markup

variable {lines : List Markup}

/-- Lines one after the other, each with its line break. -/
def unlines (lines : List Markup) : Markup := .concat (lines.map (· ++ .text "\n"))

theorem chars_unlines (lines : List Markup) :
    (unlines lines).chars = lines.flatMap fun line => line.chars ++ ['\n'] := by
  rw [unlines, chars_concat, List.flatMap_map]
  rfl

/-- There are as many line breaks as lines. -/
theorem count_newline_unlines (h : ∀ line ∈ lines, '\n' ∉ line.chars) :
    (unlines lines).chars.count '\n' = lines.length := by
  rw [chars_unlines]
  induction lines with
  | nil => rfl
  | cons line rest ih =>
    obtain ⟨hline, hrest⟩ := List.forall_mem_cons.mp h
    rw [List.flatMap_cons, List.count_append, List.count_append, List.count_eq_zero.mpr hline,
      List.count_singleton_self, ih hrest, List.length_cons, Nat.zero_add, Nat.add_comm]

theorem getLast?_unlines (h : lines ≠ []) : (unlines lines).chars.getLast? = some '\n' := by
  obtain ⟨earlier, last, rfl⟩ := (List.eq_nil_or_concat lines).resolve_left h
  rw [chars_unlines, List.concat_eq_append, List.flatMap_append, List.flatMap_singleton,
    ← List.append_assoc, List.getLast?_concat]

end Surface.Markup

/-- A printed module is its lines, each with its line break. -/
theorem Module.toList_print (m : Module) :
    m.print.toList = m.lines.flatMap fun line => line.chars ++ ['\n'] :=
  (Markup.toList_toText _).trans (Markup.chars_unlines m.lines)

end NameResolution
