import NameResolution.Proofs.Pointwise
import NameResolution.Proofs.Surface.Lines
import NameResolution.Proofs.Surface.Readable.Expr

/-!
# Printed programs can be read in one way only

A printed program is known up to ids by its text (`Program.eraseIds_eq_of_dump_eq`), as long as all
names are spelled right.  The text is cut into lines, as no line has a line break in it, and at the
empty lines into modules.  The first character of a line tells what it declares, so the lines of two
modules are compared one by one (`Decl.eraseIds_eq`, `Module.eraseIds_eq`).
-/

namespace NameResolution

open Surface

variable {upper : Char → Bool} {rest rest' : List Char}

/-! ### Declarations -/

theorem Surface.endsTypes_nil : EndsTypes [] := ⟨ends_nil, nofun⟩

theorem Surface.endsTypes_bar (rest : List Char) : EndsTypes (' ' :: '|' :: rest) := by
  refine ⟨ends_cons rfl, fun c cs h => ?_⟩
  obtain rfl := (List.cons.inj (List.cons.inj h).2).1
  exact ⟨rfl, by decide⟩

namespace Constructor

variable {c c' : Constructor}

theorem eraseIds_eq (h : (Node.ctor c).WellSpelled upper) (h' : (Node.ctor c').WellSpelled upper)
    (hrest : EndsTypes rest) (hrest' : EndsTypes rest')
    (hsame : c.markup.chars ++ rest = c'.markup.chars ++ rest') :
    c.eraseIds = c'.eraseIds ∧ rest = rest' := by
  have hchars (c : Constructor) (rest : List Char) : c.markup.chars ++ rest =
      c.label.toList ++ ((Ty.listMarkup c.fields).chars ++ rest) := List.append_assoc ..
  rw [hchars, hchars] at hsame
  obtain ⟨hlabel, hbehind⟩ := (h.self.isWord _ List.mem_cons_self).append_inj
    (h'.self.isWord _ List.mem_cons_self) (Ty.ends_listMarkup _ hrest.ends)
    (Ty.ends_listMarkup _ hrest'.ends) hsame
  obtain ⟨hfields, hrest⟩ := Ty.listEraseIds_eq c.fields c'.fields h.inside h'.inside hrest hrest'
    hbehind
  refine ⟨?_, hrest⟩
  rw [eraseIds, eraseIds, hlabel, hfields]

theorem chars_listMarkup (first : Constructor) (others : List Constructor) :
    (listMarkup (first :: others)).chars = ' ' :: '=' :: ' ' :: (first.markup.chars ++
      others.flatMap fun c => ' ' :: '|' :: ' ' :: c.markup.chars) := by
  simp [listMarkup, List.flatMap_map]

theorem endsTypes_others (others : List Constructor) :
    EndsTypes (others.flatMap fun c => ' ' :: '|' :: ' ' :: c.markup.chars) := by
  cases others with
  | nil => exact endsTypes_nil
  | cons c others => exact endsTypes_bar _

/-- The constructors of a data type are known by the end of its line. -/
theorem listEraseIds_eq {cs cs' : List Constructor}
    (h : ∀ c ∈ cs, (Node.ctor c).WellSpelled upper)
    (h' : ∀ c ∈ cs', (Node.ctor c).WellSpelled upper)
    (hsame : (listMarkup cs).chars = (listMarkup cs').chars) :
    cs.map eraseIds = cs'.map eraseIds := by
  cases cs with
  | nil =>
    cases cs' with
    | nil => rfl
    | cons first' others' =>
      rw [chars_listMarkup] at hsame
      cases hsame
  | cons first others =>
    cases cs' with
    | nil =>
      rw [chars_listMarkup] at hsame
      cases hsame
    | cons first' others' =>
      obtain ⟨hfirst, hothers⟩ := List.forall_mem_cons.mp h
      obtain ⟨hfirst', hothers'⟩ := List.forall_mem_cons.mp h'
      rw [chars_listMarkup, chars_listMarkup] at hsame
      simp only [List.cons.injEq, true_and] at hsame
      obtain ⟨hfirst, hbehind⟩ := eraseIds_eq hfirst hfirst' (endsTypes_others others)
        (endsTypes_others others') hsame
      rw [← List.append_nil (others.flatMap _), ← List.append_nil (others'.flatMap _)] at hbehind
      obtain ⟨hothers, -⟩ := flatMap_append_inj (g := eraseIds) (P := EndsTypes)
        (fun c hc c' hc' _ _ hrest hrest' hsame => eraseIds_eq (hothers c hc) (hothers' c' hc')
          hrest hrest' (List.cons.inj (List.cons.inj (List.cons.inj hsame).2).2).2)
        (fun _ _ => endsTypes_bar _) endsTypes_nil endsTypes_nil
        (fun _ _ _ h => List.cons_ne_nil _ _ h.symm) (fun _ _ _ h => List.cons_ne_nil _ _ h.symm)
        hbehind
      rw [List.map_cons, List.map_cons, hfirst, hothers]

theorem ends_listMarkup (cs : List Constructor) :
    Ends isTokenChar (listMarkup cs).chars := by
  cases cs with
  | nil => exact ends_nil
  | cons first others =>
    rw [chars_listMarkup]
    exact ends_cons rfl

/-- Constructors do not start like one more parameter. -/
theorem ne_param (cs : List Constructor) {w : String} (hw : IsWord w) (other : List Char) :
    (listMarkup cs).chars ≠ ' ' :: w.toList ++ other := by
  obtain ⟨c, rest, hcons, hc, -⟩ := hw.exists_cons
  rw [hcons]
  cases cs with
  | nil => exact fun h => List.cons_ne_nil _ _ h.symm
  | cons first others =>
    rw [chars_listMarkup]
    exact fun h => ne_of_isWordChar hc rfl (List.cons.inj (List.cons.inj h).2).1.symm

end Constructor

namespace Decl

/-- What is written between the identifier of a value and the body. -/
def signatureChars : Option Ty → List Char
  | none => []
  | some type => ' ' :: ':' :: ' ' :: type.markup.chars

theorem ends_signatureChars (signature : Option Ty) (rest : List Char) :
    Ends isTokenChar (signatureChars signature ++ ' ' :: rest) := by
  cases signature <;> exact ends_cons rfl

theorem chars_value (id : NodeId) (ident : String) (signature : Option Ty) (body : Expr) :
    (value id ident signature body).markup.chars =
      'l' :: 'e' :: 't' :: ' ' :: (ident.toList ++ (signatureChars signature ++
        ' ' :: '=' :: ' ' :: body.markup.chars)) := by
  cases signature <;> simp [markup, signatureChars]

theorem chars_data (id : NodeId) (ident : String) (params : List String)
    (constructors : List Constructor) :
    (data id ident params constructors).markup.chars =
      'd' :: 'a' :: 't' :: 'a' :: ' ' :: (ident.toList ++
        (params.flatMap (fun param => ' ' :: param.toList) ++
          (Constructor.listMarkup constructors).chars)) := by
  simp [markup, List.flatMap_map]

theorem value_eq {id id' : NodeId} {ident ident' : String} {signature signature' : Option Ty}
    {body body' : Expr} (h : (Node.decl (value id ident signature body)).WellSpelled upper)
    (h' : (Node.decl (value id' ident' signature' body')).WellSpelled upper)
    (hsame : ident.toList ++ (signatureChars signature ++ ' ' :: '=' :: ' ' :: body.markup.chars) =
      ident'.toList ++ (signatureChars signature' ++ ' ' :: '=' :: ' ' :: body'.markup.chars)) :
    ident = ident' ∧ signature.map Ty.eraseIds = signature'.map Ty.eraseIds ∧
      body.eraseIds = body'.eraseIds := by
  have hbody : (Node.expr body).WellSpelled upper := h.of_mem (by simp [Node.inside, inside])
  have hbody' : (Node.expr body').WellSpelled upper := h'.of_mem (by simp [Node.inside, inside])
  have hbodies (hsame : body.markup.chars = body'.markup.chars) : body.eraseIds = body'.eraseIds :=
    (body.eraseIds_eq body' hbody hbody' ends_nil ends_nil (congrArg (· ++ []) hsame)).1
  have hcolon {cs cs' : List Char} : ' ' :: '=' :: cs ≠ ' ' :: ':' :: cs' :=
    fun h => absurd (List.cons.inj (List.cons.inj h).2).1 (by decide)
  obtain ⟨hident, hbehind⟩ := (h.self.isWord ident List.mem_cons_self).append_inj
    (h'.self.isWord ident' List.mem_cons_self) (ends_signatureChars _ _) (ends_signatureChars _ _)
    hsame
  -- What follows the identifier tells whether there is a signature.
  cases signature with
  | none =>
    cases signature' with
    | none =>
      simp only [signatureChars, List.nil_append, List.cons.injEq, true_and] at hbehind
      exact ⟨hident, rfl, hbodies hbehind⟩
    | some type' => exact absurd hbehind hcolon
  | some type =>
    cases signature' with
    | none => exact absurd hbehind.symm hcolon
    | some type' =>
      have htype : (Node.type type).WellSpelled upper := h.of_mem (by simp [Node.inside, inside])
      have htype' : (Node.type type').WellSpelled upper :=
        h'.of_mem (by simp [Node.inside, inside])
      simp only [signatureChars, List.cons_append, List.cons.injEq, true_and] at hbehind
      obtain ⟨htypes, hend⟩ := type.eraseIds_eq type' htype htype' (ends_cons rfl) (ends_cons rfl)
        hbehind
      simp only [List.cons.injEq, true_and] at hend
      exact ⟨hident, congrArg some htypes, hbodies hend⟩

theorem data_eq {id id' : NodeId} {ident ident' : String} {params params' : List String}
    {ctors ctors' : List Constructor}
    (h : (Node.decl (data id ident params ctors)).WellSpelled upper)
    (h' : (Node.decl (data id' ident' params' ctors')).WellSpelled upper)
    (hsame : ident.toList ++ (params.flatMap (fun param => ' ' :: param.toList) ++
        (Constructor.listMarkup ctors).chars) =
      ident'.toList ++ (params'.flatMap (fun param => ' ' :: param.toList) ++
        (Constructor.listMarkup ctors').chars)) :
    ident = ident' ∧ params = params' ∧
      ctors.map Constructor.eraseIds = ctors'.map Constructor.eraseIds := by
  obtain ⟨hident, hparams⟩ := List.forall_mem_cons.mp h.self.isWord
  obtain ⟨hident', hparams'⟩ := List.forall_mem_cons.mp h'.self.isWord
  have hctors : ∀ c ∈ ctors, (Node.ctor c).WellSpelled upper := fun c hc =>
    h.of_mem (List.mem_flatMap.mpr ⟨c, hc, List.mem_append_right _ List.mem_cons_self⟩)
  have hctors' : ∀ c ∈ ctors', (Node.ctor c).WellSpelled upper := fun c hc =>
    h'.of_mem (List.mem_flatMap.mpr ⟨c, hc, List.mem_append_right _ List.mem_cons_self⟩)
  obtain ⟨hidents, hbehind⟩ := hident.append_inj hident'
    (before_flatMap params (fun _ _ => ends_cons rfl) (Constructor.ends_listMarkup ctors))
    (before_flatMap params' (fun _ _ => ends_cons rfl) (Constructor.ends_listMarkup ctors')) hsame
  obtain ⟨hwords, hend⟩ := flatMap_append_inj (g := fun w : String => w) (P := Ends isTokenChar)
    (fun w hw w' hw' _ _ hrest hrest' hsame =>
      (hparams w hw).append_inj (hparams' w' hw') hrest hrest' (List.cons.inj hsame).2)
    (fun _ _ => ends_cons rfl) (Constructor.ends_listMarkup ctors)
    (Constructor.ends_listMarkup ctors') (fun w hw => Constructor.ne_param ctors (hparams' w hw))
    (fun w hw => Constructor.ne_param ctors' (hparams w hw)) hbehind
  rw [List.map_id', List.map_id'] at hwords
  exact ⟨hidents, hwords, Constructor.listEraseIds_eq hctors hctors' hend⟩

/-- **A declaration is known up to ids by its line.** -/
theorem eraseIds_eq {d d' : Decl} (h : (Node.decl d).WellSpelled upper)
    (h' : (Node.decl d').WellSpelled upper) (hsame : d.markup.chars = d'.markup.chars) :
    d.eraseIds = d'.eraseIds := by
  cases d with
  | value id ident signature body =>
    cases d' with
    | data id' ident' params' ctors' =>
      rw [chars_value, chars_data] at hsame
      cases hsame
    | value id' ident' signature' body' =>
      rw [chars_value, chars_value] at hsame
      simp only [List.cons.injEq, true_and] at hsame
      obtain ⟨hident, hsignature, hbody⟩ := value_eq h h' hsame
      rw [eraseIds, eraseIds, hident, hsignature, hbody]
  | data id ident params ctors =>
    cases d' with
    | value id' ident' signature' body' =>
      rw [chars_value, chars_data] at hsame
      cases hsame
    | data id' ident' params' ctors' =>
      rw [chars_data, chars_data] at hsame
      simp only [List.cons.injEq, true_and] at hsame
      obtain ⟨hident, hparams, hctors⟩ := data_eq h h' hsame
      rw [eraseIds, eraseIds, hident, hparams, hctors]

end Decl

/-! ### Lines of modules -/

theorem Import.eraseIds_eq {i i' : Import} (h : (Node.imported i).Spelled upper)
    (h' : (Node.imported i').Spelled upper) (hsame : i.markup.chars = i'.markup.chars) :
    i.eraseIds = i'.eraseIds := by
  have htarget : toString i.target = toString i'.target :=
    String.toList_inj.mp (List.append_cancel_left hsame)
  rw [eraseIds, eraseIds, Namespace.eq_of_toString_eq_of_isWord h.isWord h'.isWord htarget]

theorem Export.eraseIds_eq {e e' : Export} (h : (Node.exported e).Spelled upper)
    (h' : (Node.exported e').Spelled upper) (hsame : e.markup.chars = e'.markup.chars) :
    e.eraseIds = e'.eraseIds := by
  -- The word behind `export` is no identifier, as a blank follows it.
  have hmodule {ident : String} (hident : IsWord ident) {cs : List Char} :
      "export ".toList ++ ident.toList ≠ "export ".toList ++ ("module ".toList ++ cs) := by
    intro hsame
    have hblank : ' ' ∈ ident.toList := by
      rw [List.append_cancel_left hsame]
      exact List.mem_append_left _ (by decide)
    exact ne_of_isWordChar (hident.isWordChar ' ' hblank) rfl rfl
  cases e with
  | decl id ident =>
    cases e' with
    | decl id' ident' =>
      have hident : ident = ident' := String.toList_inj.mp (List.append_cancel_left hsame)
      rw [eraseIds, eraseIds, hident]
    | reexport id' target' => exact absurd hsame (hmodule (h.isWord ident List.mem_cons_self))
  | reexport id target =>
    cases e' with
    | decl id' ident' =>
      exact absurd hsame.symm (hmodule (h'.isWord ident' List.mem_cons_self))
    | reexport id' target' =>
      have htarget : toString target = toString target' :=
        String.toList_inj.mp (List.append_cancel_left hsame)
      rw [eraseIds, eraseIds, Namespace.eq_of_toString_eq_of_isWord h.isWord h'.isWord htarget]

namespace Module

variable {m m' : Module}

theorem chars_lines (m : Module) : m.lines.map Markup.chars =
    m.header.chars :: (m.imports.map (fun i => i.markup.chars) ++
      (m.exports.map (fun e => e.markup.chars) ++ m.decls.map fun d => d.markup.chars)) := by
  simp [lines, Function.comp_def]

/-- Whether a line starts with a character. -/
def startsWith (c : Char) (line : List Char) : Bool := line.head? == some c

theorem startsWith_decl (d : Decl) :
    startsWith 'i' d.markup.chars = false ∧ startsWith 'e' d.markup.chars = false := by
  cases d with
  | value id ident signature body =>
    rw [Decl.chars_value]
    exact ⟨rfl, rfl⟩
  | data id ident params ctors =>
    rw [Decl.chars_data]
    exact ⟨rfl, rfl⟩

theorem startsWith_export (e : Export) :
    startsWith 'i' e.markup.chars = false ∧ startsWith 'e' e.markup.chars = true := by
  cases e <;> exact ⟨rfl, rfl⟩

theorem wellSpelled_decl (h : ∀ n ∈ m.subnodes, n.Spelled upper) {d : Decl} (hd : d ∈ m.decls) :
    (Node.decl d).WellSpelled upper := by
  have hmem : Node.decl d ∈ m.subnodes :=
    List.mem_cons_of_mem _ (List.mem_append_right _
      (List.mem_flatMap.mpr ⟨d, hd, List.mem_cons_self⟩))
  exact ⟨h _ hmem, fun n hn => h n (m.closed_subnodes _ hmem hn)⟩

/-- The lines of one kind end where those of the next kind start. -/
theorem sections_eq (hsame : m.lines.map Markup.chars = m'.lines.map Markup.chars) :
    m.header.chars = m'.header.chars ∧
      m.imports.map (fun i => i.markup.chars) = m'.imports.map (fun i => i.markup.chars) ∧
      m.exports.map (fun e => e.markup.chars) = m'.exports.map (fun e => e.markup.chars) ∧
      m.decls.map (fun d => d.markup.chars) = m'.decls.map (fun d => d.markup.chars) := by
  -- Imports start with `i` and exports with `e`, and no declaration starts with one of these.
  have himports (m : Module) :
      ∀ line ∈ m.imports.map fun i => i.markup.chars, startsWith 'i' line :=
    List.forall_mem_map.mpr fun i _ => rfl
  have hbehindImports (m : Module) : Ends (startsWith 'i')
      (m.exports.map (fun e => e.markup.chars) ++ m.decls.map fun d => d.markup.chars) :=
    ends_of_forall (List.forall_mem_append.mpr
      ⟨List.forall_mem_map.mpr fun e _ => (startsWith_export e).1,
        List.forall_mem_map.mpr fun d _ => (startsWith_decl d).1⟩)
  have hexports (m : Module) :
      ∀ line ∈ m.exports.map fun e => e.markup.chars, startsWith 'e' line :=
    List.forall_mem_map.mpr fun e _ => (startsWith_export e).2
  have hbehindExports (m : Module) : Ends (startsWith 'e')
      (m.decls.map fun d => d.markup.chars) :=
    ends_of_forall (List.forall_mem_map.mpr fun d _ => (startsWith_decl d).2)
  rw [chars_lines, chars_lines] at hsame
  obtain ⟨hheader, hlines⟩ := List.cons.inj hsame
  obtain ⟨hi, hlines⟩ := append_inj_of_ends (himports m) (himports m') (hbehindImports m)
    (hbehindImports m') hlines
  obtain ⟨he, hd⟩ := append_inj_of_ends (hexports m) (hexports m') (hbehindExports m)
    (hbehindExports m') hlines
  exact ⟨hheader, hi, he, hd⟩

/-- **A module is known up to ids by its lines.** -/
theorem eraseIds_eq (h : ∀ n ∈ m.subnodes, n.Spelled upper)
    (h' : ∀ n ∈ m'.subnodes, n.Spelled upper)
    (hsame : m.lines.map Markup.chars = m'.lines.map Markup.chars) : m.eraseIds = m'.eraseIds := by
  have himport {m : Module} (h : ∀ n ∈ m.subnodes, n.Spelled upper) {i : Import}
      (hi : i ∈ m.imports) : (Node.imported i).Spelled upper :=
    h _ (List.mem_cons_of_mem _ (List.mem_append_left _ (List.mem_append_left _
      (List.mem_map_of_mem hi))))
  have hexport {m : Module} (h : ∀ n ∈ m.subnodes, n.Spelled upper) {e : Export}
      (he : e ∈ m.exports) : (Node.exported e).Spelled upper :=
    h _ (List.mem_cons_of_mem _ (List.mem_append_left _ (List.mem_append_right _
      (List.mem_map_of_mem he))))
  obtain ⟨hheader, himports, hexports, hdecls⟩ := sections_eq hsame
  have hns : m.ns = m'.ns :=
    Namespace.eq_of_toString_eq_of_isWord (h _ List.mem_cons_self).isWord
      (h' _ List.mem_cons_self).isWord (String.toList_inj.mp (List.append_cancel_left hheader))
  have himports : m.imports.map Import.eraseIds = m'.imports.map Import.eraseIds :=
    map_eq_of_map_eq (fun i hi i' hi' => Import.eraseIds_eq (himport h hi) (himport h' hi'))
      himports
  have hexports : m.exports.map Export.eraseIds = m'.exports.map Export.eraseIds :=
    map_eq_of_map_eq (fun e he e' he' => Export.eraseIds_eq (hexport h he) (hexport h' he'))
      hexports
  have hdecls : m.decls.map Decl.eraseIds = m'.decls.map Decl.eraseIds :=
    map_eq_of_map_eq
      (fun d hd d' hd' => Decl.eraseIds_eq (wellSpelled_decl h hd) (wellSpelled_decl h' hd')) hdecls
  rw [eraseIds, eraseIds, hns, himports, hexports, hdecls]

theorem oneLine_of_spelled (h : ∀ n ∈ m.subnodes, n.Spelled upper) :
    ∀ n ∈ m.subnodes, n.OneLine :=
  fun n hn w hw => ((h n hn).isWord w hw).newline_not_mem

/-- No line is empty. -/
theorem nil_not_mem_lines (m : Module) : [] ∉ m.lines.map Markup.chars := by
  have hdecl (d : Decl) : d.markup.chars ≠ [] := by
    cases d with
    | value id ident signature body =>
      rw [Decl.chars_value]
      exact List.cons_ne_nil _ _
    | data id ident params ctors =>
      rw [Decl.chars_data]
      exact List.cons_ne_nil _ _
  have hexport (e : Export) : e.markup.chars ≠ [] := by
    cases e <;> exact List.cons_ne_nil _ _
  rw [chars_lines]
  simp only [List.mem_cons, List.mem_append, List.mem_map, not_or, not_exists, not_and]
  exact ⟨(List.cons_ne_nil _ _).symm, fun i _ => List.cons_ne_nil _ _, fun e _ => hexport e,
    fun d _ => hdecl d⟩

end Module

/-! ### Programs -/

/-- Lines without line breaks are known by the text. -/
theorem lines_eq_of_flatMap_eq {lines lines' : List (List Char)} (h : ∀ line ∈ lines, '\n' ∉ line)
    (h' : ∀ line ∈ lines', '\n' ∉ line)
    (hsame : lines.flatMap (· ++ ['\n']) = lines'.flatMap (· ++ ['\n'])) : lines = lines' := by
  have hinside {line : List Char} (hline : '\n' ∉ line) : ∀ c ∈ line, (c != '\n') = true :=
    fun c hc => bne_iff_ne.mpr fun heq => hline (heq ▸ hc)
  have hnonempty (line other : List Char) : [] ≠ line ++ ['\n'] ++ other := by simp
  rw [← List.append_nil (lines.flatMap _), ← List.append_nil (lines'.flatMap _)] at hsame
  obtain ⟨hlines, -⟩ := flatMap_append_inj (g := fun line : List Char => line) (P := fun _ => True)
    (fun line hline line' hline' rest rest' _ _ hsame => by
      rw [List.append_assoc, List.append_assoc] at hsame
      obtain ⟨hline, hbehind⟩ := append_inj_of_ends (hinside (h line hline))
        (hinside (h' line' hline')) (ends_cons rfl) (ends_cons rfl) hsame
      exact ⟨hline, (List.cons.inj hbehind).2⟩)
    (fun _ _ => trivial) trivial trivial (fun line _ => hnonempty line)
    (fun line _ => hnonempty line) hsame
  rwa [List.map_id', List.map_id'] at hlines

/-- Items that are not empty and do not have the separator are known by the joined list. -/
theorem eq_of_intercalate_eq {α : Type} [DecidableEq α] {a : α} {items items' : List (List α)}
    (h : ∀ item ∈ items, item ≠ [] ∧ a ∉ item) (h' : ∀ item ∈ items', item ≠ [] ∧ a ∉ item)
    (hsame : [a].intercalate items = [a].intercalate items') : items = items' := by
  have hnil {items : List (List α)} (h : ∀ item ∈ items, item ≠ [] ∧ a ∉ item)
      (hempty : [a].intercalate items = []) : items = [] := by
    cases items with
    | nil => rfl
    | cons item rest =>
      rw [intercalate_cons] at hempty
      exact absurd (List.append_eq_nil_iff.mp hempty).1 (h item List.mem_cons_self).1
  -- An empty list is joined like one empty item, so it cannot be read back by `splitOn`.
  by_cases hempty : items = []
  · subst hempty
    exact (hnil h' hsame.symm).symm
  · have hne' : items' ≠ [] := by
      rintro rfl
      exact hempty (hnil h hsame)
    rw [← List.splitOn_intercalate a (fun item hitem => (h item hitem).2) hempty, hsame,
      List.splitOn_intercalate a (fun item hitem => (h' item hitem).2) hne']

/-- A dump has the lines of all modules, with an empty line between modules. -/
theorem Program.toList_dump (p : Program) : p.dump.toList =
    ([[]].intercalate (p.modules.map fun m => m.lines.map Markup.chars)).flatMap (· ++ ['\n']) := by
  rw [dump, String.toList_intercalate, List.map_map]
  cases p.modules with
  | nil => rfl
  | cons m rest =>
    rw [List.map_cons, List.map_cons, intercalate_cons, intercalate_cons, List.flatMap_append,
      List.flatMap_assoc]
    simp [List.flatMap_map, Module.toList_print, Function.comp_def]

/-- **Printed programs can be read in one way only.**  Programs in which all names are spelled right
are equal up to their ids if they have the same dump. -/
theorem Program.eraseIds_eq_of_dump_eq {upper : Char → Bool} {p p' : Program}
    (h : ∀ m ∈ p.modules, ∀ n ∈ m.subnodes, n.Spelled upper)
    (h' : ∀ m ∈ p'.modules, ∀ n ∈ m.subnodes, n.Spelled upper) (hsame : p.dump = p'.dump) :
    p.eraseIds = p'.eraseIds := by
  have hlines {p : Program} (h : ∀ m ∈ p.modules, ∀ n ∈ m.subnodes, n.Spelled upper) :
      ∀ line ∈ [[]].intercalate (p.modules.map fun m => m.lines.map Markup.chars),
        '\n' ∉ line := by
    refine forall_mem_intercalate (List.forall_mem_singleton.mpr List.not_mem_nil)
      (List.forall_mem_map.mpr fun m hm => List.forall_mem_map.mpr fun line hline => ?_)
    exact Module.newline_not_mem_lines (Module.oneLine_of_spelled (h m hm)) line hline
  have hgroups (p : Program) : ∀ group ∈ p.modules.map fun m => m.lines.map Markup.chars,
      group ≠ [] ∧ [] ∉ group :=
    List.forall_mem_map.mpr fun m _ => ⟨nofun, m.nil_not_mem_lines⟩
  -- The texts are cut into lines first: modules end at empty lines.
  have htext := congrArg String.toList hsame
  rw [toList_dump, toList_dump] at htext
  have hmodules := eq_of_intercalate_eq (hgroups p) (hgroups p')
    (lines_eq_of_flatMap_eq (hlines h) (hlines h') htext)
  rw [eraseIds, eraseIds, map_eq_of_map_eq
    (fun m hm m' hm' => Module.eraseIds_eq (h m hm) (h' m' hm')) hmodules]

/-- Other ids, and the same text. -/
theorem Program.eraseIds_eq_of_dump_eq_other_ids :
    let program (k : UInt32) : Program := ⟨[⟨⟨k⟩, ⟨["Main"]⟩, [⟨⟨k + 1⟩, ⟨["Data", "List"]⟩⟩], [],
        [.value ⟨k + 2⟩ "quote" none (.lit ⟨k + 3⟩ (.str "\") | é\n"))]⟩,
      ⟨⟨k + 4⟩, ⟨["Data", "List"]⟩, [], [.decl ⟨k + 5⟩ "List", .reexport ⟨k + 6⟩ ⟨["Main"]⟩],
        [.data ⟨k + 7⟩ "List" ["a"] [⟨⟨k + 8⟩, "Nil", []⟩,
            ⟨⟨k + 9⟩, "Cons", [.var ⟨k + 10⟩ "a",
              .con ⟨k + 11⟩ (.unqualified "List") [.var ⟨k + 12⟩ "a"]]⟩],
          .value ⟨k + 13⟩ "head" (some (.arrow ⟨k + 14⟩
              (.con ⟨k + 15⟩ (.unqualified "List") [.var ⟨k + 16⟩ "a"]) (.var ⟨k + 17⟩ "a")))
            (.lambda ⟨k + 18⟩ (.unqualified "xs") (.matchWith ⟨k + 19⟩
              (.var ⟨k + 20⟩ ⟨⟨["Data", "List", "#0"]⟩, "xs"⟩)
              [⟨.variant ⟨k + 21⟩ (.unqualified "List") "Cons"
                    [.unqualified "x", .unqualified "rest"],
                  .var ⟨k + 22⟩ (.unqualified "x")⟩,
                ⟨.wildcard ⟨k + 23⟩, .app ⟨k + 24⟩ (.var ⟨k + 25⟩ (.unqualified "fail"))
                  (.lit ⟨k + 26⟩ (.int (-1)))⟩]))]⟩]⟩
    (∀ m ∈ (program 0).modules, ∀ n ∈ m.subnodes, n.Spelled Char.isUpper) ∧
      (∀ m ∈ (program 100).modules, ∀ n ∈ m.subnodes, n.Spelled Char.isUpper) ∧
      (program 0).dump = (program 100).dump ∧
      (program 0).eraseIds = (program 100).eraseIds := by
  intro program
  have hspelled : ∀ m ∈ (program 0).modules, ∀ n ∈ m.subnodes, n.Spelled Char.isUpper := by
    decide +kernel
  have hspelled' : ∀ m ∈ (program 100).modules, ∀ n ∈ m.subnodes, n.Spelled Char.isUpper := by
    decide +kernel
  have hsame : (program 0).dump = (program 100).dump := rfl
  exact ⟨hspelled, hspelled', hsame, Program.eraseIds_eq_of_dump_eq hspelled hspelled' hsame⟩

end NameResolution
