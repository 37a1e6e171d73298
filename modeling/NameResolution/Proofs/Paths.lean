import NameResolution.Name
import Mathlib

/-!
# Written namespaces and names

A path is written with `::` between its segments.  If no segment has a colon in it, then the
segments are read off the written path (`Namespace.splitPath_intercalate`), so a namespace is known
by its written form (`Namespace.eq_of_toString_eq`), and so is a name (`Name.eq_of_toString_eq`).

The other way round nothing is asked of a text: wherever it is cut, its parts are joined to the same
text again (`Namespace.intercalate_splitPath`).  Main statement: `path_readsBack`.
-/

namespace NameResolution

/-! ### Joined lists -/

/-- A list is joined by writing the separator before each item but the first. -/
theorem intercalate_cons {α : Type} (sep item : List α) (rest : List (List α)) :
    sep.intercalate (item :: rest) = item ++ rest.flatMap (sep ++ ·) := by
  induction rest generalizing item with
  | nil => rw [List.intercalate_singleton, List.flatMap_nil, List.append_nil]
  | cons next rest ih =>
    rw [List.intercalate_cons_cons, ih, List.flatMap_cons, List.append_assoc, List.append_assoc]

/-- What holds in the separator and in all items holds in the joined list. -/
theorem forall_mem_intercalate {α : Type} {P : α → Prop} {sep : List α} {items : List (List α)}
    (hsep : ∀ a ∈ sep, P a) (hitems : ∀ item ∈ items, ∀ a ∈ item, P a) :
    ∀ a ∈ sep.intercalate items, P a := by
  cases items with
  | nil => exact nofun
  | cons item rest =>
    obtain ⟨hitem, hrest⟩ := List.forall_mem_cons.mp hitems
    rw [intercalate_cons]
    refine List.forall_mem_append.mpr ⟨hitem, fun a ha => ?_⟩
    obtain ⟨other, hother, ha⟩ := List.mem_flatMap.mp ha
    exact List.forall_mem_append.mpr ⟨hsep, hrest other hother⟩ a ha

/-! ### Cutting a path -/

namespace Namespace

theorem splitPath_cons {c : Char} (hc : c ≠ ':') (path : List Char) :
    splitPath (c :: path) =
      match splitPath path with
      | [] => [[c]]
      | part :: parts => (c :: part) :: parts := by
  have hfirst : ∀ rest, c = ':' → path = ':' :: rest → False := fun _ h => absurd h hc
  refine (splitPath.eq_3 c path hfirst).trans ?_
  cases splitPath path <;> rfl

/-- A path without a separator is one segment. -/
theorem splitPath_of_not_mem {part : List Char} (h : ':' ∉ part) : splitPath part = [part] := by
  induction part with
  | nil => rfl
  | cons c rest ih =>
    obtain ⟨hc, hrest⟩ := not_or.mp (mt List.mem_cons.mpr h)
    rw [splitPath_cons (Ne.symm hc), ih hrest]

/-- The first separator ends the first segment. -/
theorem splitPath_append {part : List Char} (h : ':' ∉ part) (path : List Char) :
    splitPath (part ++ ':' :: ':' :: path) = part :: splitPath path := by
  induction part with
  | nil => rfl
  | cons c rest ih =>
    obtain ⟨hc, hrest⟩ := not_or.mp (mt List.mem_cons.mpr h)
    rw [List.cons_append, splitPath_cons (Ne.symm hc), ih hrest]

/-- **The segments are read off a written path.** -/
theorem splitPath_intercalate {parts : List (List Char)} (hne : parts ≠ [])
    (h : ∀ part ∈ parts, ':' ∉ part) : splitPath ([':', ':'].intercalate parts) = parts := by
  induction parts with
  | nil => exact absurd rfl hne
  | cons part rest ih =>
    obtain ⟨hpart, hrest⟩ := List.forall_mem_cons.mp h
    cases rest with
    | nil => rw [List.intercalate_singleton, splitPath_of_not_mem hpart]
    | cons next rest =>
      rw [List.intercalate_cons_cons, List.append_assoc]
      show splitPath (part ++ ':' :: ':' :: [':', ':'].intercalate (next :: rest)) = _
      rw [splitPath_append hpart, ih nofun hrest]

theorem splitPath_ne_nil (path : List Char) : splitPath path ≠ [] := by
  fun_cases splitPath path with
  | case1 => exact List.cons_ne_nil _ _
  | case2 rest => exact List.cons_ne_nil _ _
  | case3 c rest _ hnil => exact List.cons_ne_nil _ _
  | case4 c rest _ part parts hrest => exact List.cons_ne_nil _ _

/-- **The parts of a path are joined to the path again**, however many colons stand together. -/
theorem intercalate_splitPath (path : List Char) :
    [':', ':'].intercalate (splitPath path) = path := by
  fun_induction splitPath path with
  | case1 => rfl
  | case2 rest ih =>
    -- The cut leaves an empty part, and behind it there is at least one more.
    obtain ⟨part, parts, hparts⟩ := List.exists_cons_of_ne_nil (splitPath_ne_nil rest)
    rw [hparts] at ih ⊢
    rw [List.intercalate_cons_cons, ih]
    rfl
  | case3 c rest _ hnil => exact absurd hnil (splitPath_ne_nil rest)
  | case4 c rest _ part parts hrest ih =>
    rw [hrest, intercalate_cons] at ih
    rw [intercalate_cons, List.cons_append, ih]

theorem toList_toString (ns : Namespace) :
    (toString ns).toList = [':', ':'].intercalate (ns.segments.map String.toList) :=
  String.toList_intercalate

/-- The segments are known by the written form, unless there are none. -/
theorem segments_eq_of_toString_eq {ns ns' : Namespace} (h : ∀ w ∈ ns.segments, ':' ∉ w.toList)
    (h' : ∀ w ∈ ns'.segments, ':' ∉ w.toList) (hne : ns.segments ≠ []) (hne' : ns'.segments ≠ [])
    (hsame : toString ns = toString ns') : ns.segments = ns'.segments := by
  have hsame : splitPath (toString ns).toList = splitPath (toString ns').toList := by rw [hsame]
  rw [toList_toString, toList_toString, splitPath_intercalate, splitPath_intercalate,
    List.map_inj_right fun _ _ => String.toList_inj.mp] at hsame
  · exact hsame
  · exact mt List.map_eq_nil_iff.mp hne'
  · exact List.forall_mem_map.mpr h'
  · exact mt List.map_eq_nil_iff.mp hne
  · exact List.forall_mem_map.mpr h

/-- Only the empty namespace is not written, if no segment is empty. -/
theorem segments_eq_nil_of_toString_eq {ns : Namespace} (h : "" ∉ ns.segments)
    (hempty : toString ns = "") : ns.segments = [] := by
  have hpath : [':', ':'].intercalate (ns.segments.map String.toList) = [] := by
    rw [← toList_toString, hempty]
    rfl
  cases hsegments : ns.segments with
  | nil => rfl
  | cons w rest =>
    rw [hsegments, List.map_cons, intercalate_cons] at hpath
    have hw : w = "" := String.toList_eq_nil_iff.mp (List.append_eq_nil_iff.mp hpath).1
    exact absurd (hsegments ▸ hw ▸ List.mem_cons_self) h

/-! ### Reading a path -/

/-- No segment is empty or has a colon in it. -/
def Legible (ns : Namespace) : Prop := ∀ w ∈ ns.segments, w ≠ "" ∧ ':' ∉ w.toList

instance (ns : Namespace) : Decidable ns.Legible :=
  inferInstanceAs (Decidable (∀ w ∈ ns.segments, w ≠ "" ∧ ':' ∉ w.toList))

/-- **Every text is the written form of what it is read as.** -/
theorem toString_parse (path : String) : toString (parse path) = path := by
  unfold parse
  split_ifs with hempty
  · exact (String.isEmpty_iff.mp hempty).symm
  · have hparts : ((splitPath path.toList).map String.ofList).map String.toList =
        splitPath path.toList := by
      rw [List.map_map, show String.toList ∘ String.ofList = id from
        funext fun _ => String.toList_ofList, List.map_id]
    rw [← String.toList_inj, toList_toString, hparts, intercalate_splitPath]

/-- **A legible namespace is read back from its written form.** -/
theorem parse_toString {ns : Namespace} (h : ns.Legible) : parse (toString ns) = ns := by
  obtain ⟨segments⟩ := ns
  cases segments with
  | nil => rfl
  | cons w rest =>
    have hne : (toString (mk (w :: rest))).isEmpty = false := by
      rw [Bool.eq_false_iff, Ne, String.isEmpty_iff]
      intro hempty
      have hnil := segments_eq_nil_of_toString_eq (fun hmem => (h "" hmem).1 rfl) hempty
      exact List.cons_ne_nil w rest hnil
    have hcolon : ∀ part ∈ (w :: rest).map String.toList, ':' ∉ part :=
      List.forall_mem_map.mpr fun w hw => (h w hw).2
    have hsplit : splitPath (toString (mk (w :: rest))).toList = (w :: rest).map String.toList := by
      rw [toList_toString]
      exact splitPath_intercalate (List.cons_ne_nil _ _) hcolon
    have hwords : ((w :: rest).map String.toList).map String.ofList = w :: rest := by
      rw [List.map_map, show String.ofList ∘ String.toList = id from
        funext fun _ => String.ofList_toList, List.map_id]
    rw [parse, hne, hsplit, hwords]
    rfl

/-- **A legible namespace is known by its written form.** -/
theorem eq_of_toString_eq {ns ns' : Namespace} (h : ns.Legible) (h' : ns'.Legible)
    (hsame : toString ns = toString ns') : ns = ns' := by
  have hread : parse (toString ns) = parse (toString ns') := by rw [hsame]
  rwa [parse_toString h, parse_toString h'] at hread

end Namespace

/-! ### Names -/

/-- The segments of a name and its identifier. -/
def Name.words (name : Name) : List String := name.qualifier.segments ++ [name.ident]

namespace Name

theorem words_inj {name name' : Name} (h : name.words = name'.words) : name = name' := by
  obtain ⟨⟨segments⟩, ident⟩ := name
  obtain ⟨⟨segments'⟩, ident'⟩ := name'
  obtain ⟨rfl, hident⟩ : segments = segments' ∧ [ident] = [ident'] := List.append_inj' h rfl
  rw [List.singleton_inj.mp hident]

/-- A name is written as the path of its words. -/
theorem toString_eq (name : Name) : toString name = toString (Namespace.mk name.words) := by
  obtain ⟨⟨segments⟩, ident⟩ := name
  cases segments with
  | nil => rfl
  | cons w rest =>
    show "::".intercalate (w :: rest) ++ "::" ++ ident = "::".intercalate (w :: rest ++ [ident])
    rw [← String.toList_inj, String.toList_append, String.toList_append,
      String.toList_intercalate, String.toList_intercalate, List.map_append, List.map_cons,
      List.cons_append, intercalate_cons, intercalate_cons, List.flatMap_append]
    simp

/-- **A name is known by its written form**, if no word has a colon in it. -/
theorem eq_of_toString_eq {name name' : Name} (h : ∀ w ∈ name.words, ':' ∉ w.toList)
    (h' : ∀ w ∈ name'.words, ':' ∉ w.toList) (hsame : toString name = toString name') :
    name = name' := by
  rw [toString_eq, toString_eq] at hsame
  exact words_inj (Namespace.segments_eq_of_toString_eq h h' (List.concat_ne_nil _ _)
    (List.concat_ne_nil _ _) hsame)

/-- No word of the name is empty or has a colon in it. -/
def Legible (name : Name) : Prop :=
  name.qualifier.Legible ∧ name.ident ≠ "" ∧ ':' ∉ name.ident.toList

instance (name : Name) : Decidable name.Legible :=
  inferInstanceAs (Decidable (_ ∧ _ ∧ _))

theorem Legible.colon_not_mem {name : Name} (h : name.Legible) :
    ∀ w ∈ name.words, ':' ∉ w.toList := by
  obtain ⟨hqualifier, -, hident⟩ := h
  refine List.forall_mem_append.mpr ⟨fun w hw => (hqualifier w hw).2, ?_⟩
  exact List.forall_mem_singleton.mpr hident

end Name

/-- **Reading a path and writing it undo each other.**  Every text is written as it was read.  A
namespace is read as it was written, if no segment is empty or has a colon in it, and so different
namespaces or names of this kind have different written forms. -/
theorem path_readsBack :
    (∀ path : String, toString (Namespace.parse path) = path) ∧
    (∀ ns : Namespace, ns.Legible → Namespace.parse (toString ns) = ns) ∧
    Set.InjOn (toString : Namespace → String) {ns | ns.Legible} ∧
    Set.InjOn (toString : Name → String) {name | name.Legible} := by
  refine ⟨Namespace.toString_parse, fun ns => Namespace.parse_toString, ?_, ?_⟩
  · intro ns h ns' h' hsame
    exact Namespace.eq_of_toString_eq h h' hsame
  · intro name h name' h' hsame
    exact Name.eq_of_toString_eq (Name.Legible.colon_not_mem h) (Name.Legible.colon_not_mem h')
      hsame

/-- Three colons are cut behind the second one, and a separator at the end leaves an empty part. -/
theorem path_readsBack_three_colons :
    let ns : Namespace := ⟨["Data", "List"]⟩
    let name : Name := ⟨ns, "map"⟩
    let name' : Name := ⟨⟨["Data"]⟩, "Listmap"⟩
    Namespace.parse "a:::b::" = ⟨["a", ":b", ""]⟩ ∧
      toString (Namespace.parse "a:::b::") = "a:::b::" ∧
      (ns.Legible ∧ Namespace.parse (toString ns) = ns) ∧
      name.Legible ∧ name'.Legible ∧ toString name ≠ toString name' := by
  intro ns name name'
  obtain ⟨hwritten, hread, -, hnames⟩ := path_readsBack
  have hns : ns.Legible := by decide
  have hname : name.Legible := by decide
  have hname' : name'.Legible := by decide
  refine ⟨by cbv, hwritten _, ⟨hns, hread ns hns⟩, hname, hname', ?_⟩
  exact hnames.ne hname hname' (by decide)

end NameResolution
