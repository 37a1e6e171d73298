import NameResolution.Proofs.Import.DepthFirst
import NameResolution.Proofs.Import.Verdict
import NameResolution.Proofs.Outcome

/-!
# The course of the search for a cycle

`Search.visitAllHistory` lists all states in which an iteration of the search begins, from whichever
root, whether the search succeeds or finds a cycle.  In each of them the stack, the imports beside
it and the places of the modules fit together (`Search.Aligned`).

The log of a history has an entry for each module that is put on the path, and one for each
iteration: in it the innermost module is asked for its next import, of which its frame has what is
left.  Nothing is logged twice.  For what has been entered stays met, and what has been asked for is
behind the search: the module is done, or its frame has less left by now (`Search.Past`).  All that
can be logged is known from the modules, so the search takes no more iterations than there are
modules and imports.  Main statement: `Search.visitAll_course`.
-/

namespace NameResolution

/-! ### Histories -/

/-- A moment in the course of the search. -/
inductive Moment where
  /-- The search goes to a root. -/
  | root (ns : Namespace)
  /-- An iteration begins. -/
  | head (search : Search)

/-- What the search does. -/
inductive Event where
  /-- It puts a module at the end of the path. -/
  | enter (ns : Namespace)
  /-- It asks the innermost module for its next import.  The frame has the imports that are left, of
  which it takes the first one; if none is left, then the module leaves the path. -/
  | ask (frame : Frame)

namespace Search

/-- The moments of a run: its iterations, and the state in which it ends. -/
def runHistory (modules : List Module) (search : Search) : List Moment :=
  match _h : search.step modules with
  | .error _ => [.head search]
  | .ok none => [.head search]
  | .ok (some next) => .head search :: runHistory modules next
termination_by (search.unmet modules, search.work)
decreasing_by exact lex_of_step _h

/-- The moments of a visit; there are none if the root is done. -/
def visitHistory (modules : List Module) (ns : Namespace) (search : Search) : List Moment :=
  if search.done.contains ns then []
  else
    match search.enter modules ns with
    | .error _ => []
    | .ok entered => .root ns :: entered.runHistory modules

/-- The moments of the search from each of the namespaces, up to the first visit that fails. -/
def visitAllHistory (modules : List Module) (search : Search) : List Namespace → List Moment
  | [] => []
  | ns :: rest =>
    search.visitHistory modules ns ++
      match search.visit modules ns with
      | .error _ => []
      | .ok next => next.visitAllHistory modules rest

/-- The modules by which the path has become longer. -/
def growth (search next : Search) : List Event :=
  (next.stack.take (next.stack.length - search.stack.length)).map fun frame => .enter frame.ns

/-- What the search does in the iteration that begins in this state, if the path is not empty. -/
def events (modules : List Module) (search : Search) : List Event :=
  match search.stack with
  | [] => []
  | frame :: _ =>
    .ask frame ::
      match search.step modules with
      | .ok (some next) => search.growth next
      | _ => []

end Search

/-- What the search does from a moment on to the next one. -/
def Moment.events (modules : List Module) : Moment → List Event
  | root ns => [.enter ns]
  | head search => search.events modules

/-- What the search has done in its course. -/
def logOf (modules : List Module) (history : List Moment) : List Event :=
  history.flatMap (Moment.events modules)

/-- Whatever can be done with the modules: each can be entered, and asked whenever it has some of
its last imports left. -/
def possibleEvents (modules : List Module) : List Event :=
  modules.flatMap fun m =>
    .enter m.ns :: m.imports.tails.map fun remaining => .ask ⟨m.ns, remaining⟩

variable {modules : List Module}

theorem enter_mem_possibleEvents {m : Module} (hm : m ∈ modules) :
    .enter m.ns ∈ possibleEvents modules :=
  List.mem_flatMap.mpr ⟨m, hm, List.mem_cons_self⟩

theorem ask_mem_possibleEvents {m : Module} {frame : Frame} (hm : m ∈ modules)
    (hns : m.ns = frame.ns) (hremaining : frame.remaining <:+ m.imports) :
    .ask frame ∈ possibleEvents modules := by
  refine List.mem_flatMap.mpr ⟨m, hm, List.mem_cons_of_mem _ (List.mem_map.mpr ?_)⟩
  exact ⟨frame.remaining, (List.mem_tails _ _).mpr hremaining, by rw [hns]⟩

theorem length_possibleEvents (modules : List Module) :
    (possibleEvents modules).length = (modules.map fun m => m.imports.length + 2).sum := by
  rw [possibleEvents, List.length_flatMap]
  simp only [List.length_cons, List.length_map, List.length_tails]

namespace Search

variable {search next : Search} {log : List Event} {frame : Frame} {rest : List Frame}

/-! ### States in which an iteration begins -/

/-- What is left of the imports of a module on the path is the end of its imports. -/
theorem Reached.remaining_suffix (h : Reached modules search) {frame : Frame}
    (hframe : frame ∈ search.stack) :
    ∃ m ∈ modules, m.ns = frame.ns ∧ frame.remaining <:+ m.imports := by
  induction h generalizing frame with
  | start => exact absurd hframe List.not_mem_nil
  | @root search ns m _ hstack _ hm _ =>
    obtain ⟨hmem, hns⟩ := moduleNamed?_eq_some hm
    rw [entered, hstack] at hframe
    obtain rfl := List.mem_singleton.mp hframe
    exact ⟨m, hmem, hns, List.suffix_rfl⟩
  | step _ hstep ih =>
    cases hstep with
    | leave hstack => exact ih (hstack ▸ List.mem_cons_of_mem _ hframe)
    | skip hstack _ =>
      rcases List.mem_cons.mp hframe with rfl | hframe
      · obtain ⟨m, hm, hns, hremaining⟩ := ih (hstack ▸ List.mem_cons_self)
        exact ⟨m, hm, hns, (List.suffix_cons ..).trans hremaining⟩
      · exact ih (hstack ▸ List.mem_cons_of_mem _ hframe)
    | @enter _ i _ _ m hstack _ _ hm =>
      rcases List.mem_cons.mp hframe with rfl | hframe
      · obtain ⟨hmem, hns⟩ := moduleNamed?_eq_some hm
        exact ⟨m, hmem, hns, List.suffix_rfl⟩
      · rcases List.mem_cons.mp hframe with rfl | hframe
        · obtain ⟨m, hm, hns, hremaining⟩ := ih (hstack ▸ List.mem_cons_self)
          exact ⟨m, hm, hns, (List.suffix_cons ..).trans hremaining⟩
        · exact ih (hstack ▸ List.mem_cons_of_mem _ hframe)

/-- The collections of the search fit together.  Counted from its start, the path goes on from its
k-th module by the k-th import, each module of it has its place, and the imports that are left of a
module are the last ones that it has. -/
structure Aligned (modules : List Module) (search : Search) : Prop where
  length_stack : search.stack ≠ [] → search.stack.length = search.edges.length + 1
  edge : ∀ (k : Nat) (i : Import), search.edges.reverse[k]? = some i →
    ∃ m ∈ modules, (trail search.stack)[k]? = some m.ns ∧ i ∈ m.imports ∧
      (trail search.stack)[k + 1]? = some i.target
  lookup_onPath : ∀ (ns : Namespace) (place : Nat),
    search.onPath.lookup ns = some place ↔ (trail search.stack)[place]? = some ns
  remaining : ∀ frame ∈ search.stack,
    ∃ m ∈ modules, m.ns = frame.ns ∧ frame.remaining <:+ m.imports

/-- In a path without repetitions each module has the place at which it stands, and no other. -/
theorem lookup_places_eq_some_iff {stack : List Frame} (hnodup : (trail stack).Nodup)
    {ns : Namespace} {place : Nat} :
    (places stack).lookup ns = some place ↔ (trail stack)[place]? = some ns := by
  constructor
  · exact getElem?_trail_of_lookup_places
  · intro h
    obtain ⟨hlt, hplace⟩ := List.getElem?_eq_some_iff.mp h
    have hmem : ns ∈ trail stack := List.mem_of_getElem? h
    rw [lookup_places_of_mem_trail hnodup hmem, ← hplace, hnodup.idxOf_getElem place hlt]

/-- **Every reached state is aligned.** -/
theorem Reached.aligned (hrepeated : repeatedModule? modules = none) (h : Reached modules search) :
    Aligned modules search := by
  obtain ⟨hplaces, hlinked, -, -, -, hnodup⟩ := h.orderly hrepeated
  have hnodup : (trail search.stack).Nodup := List.nodup_reverse.mpr hnodup.of_append_left
  refine ⟨fun hne => ?_, fun k i hk => hlinked.edge hk, fun ns place => ?_,
    fun frame hframe => h.remaining_suffix hframe⟩
  · obtain ⟨frame, rest, hstack⟩ := List.exists_cons_of_ne_nil hne
    rw [hstack] at hlinked ⊢
    exact hlinked.length_stack
  · rw [hplaces]
    exact lookup_places_eq_some_iff hnodup

/-! ### What is behind the search -/

theorem Step.stack_ne_nil (h : Step modules search next) : search.stack ≠ [] := by
  cases h with
  | leave hstack => exact hstack ▸ List.cons_ne_nil _ _
  | skip hstack _ => exact hstack ▸ List.cons_ne_nil _ _
  | enter hstack _ _ _ => exact hstack ▸ List.cons_ne_nil _ _

/-- The search is past a frame: the module is done, or it has less left. -/
def Past (search : Search) (frame : Frame) : Prop :=
  frame.ns ∈ search.done ∨ ∃ current ∈ search.stack,
    current.ns = frame.ns ∧ current.remaining.length < frame.remaining.length

/-- A step takes the search past the innermost frame. -/
theorem Step.past_innermost (h : Step modules search next) (hstack : search.stack = frame :: rest) :
    next.Past frame := by
  cases h with
  | leave hleave =>
    obtain ⟨rfl, rfl⟩ := List.cons.inj (hstack.symm.trans hleave)
    exact Or.inl List.mem_cons_self
  | skip hskip _ =>
    obtain ⟨rfl, rfl⟩ := List.cons.inj (hstack.symm.trans hskip)
    exact Or.inr ⟨_, List.mem_cons_self, rfl, Nat.lt_succ_self _⟩
  | enter henter _ _ _ =>
    obtain ⟨rfl, rfl⟩ := List.cons.inj (hstack.symm.trans henter)
    exact Or.inr ⟨_, List.mem_cons_of_mem _ List.mem_cons_self, rfl, Nat.lt_succ_self _⟩

/-- What is behind the search stays behind it. -/
theorem Step.past (h : Step modules search next) (hpast : search.Past frame) : next.Past frame := by
  rcases hpast with hdone | ⟨current, hcurrent, hns, hless⟩
  · cases h with
    | leave _ => exact Or.inl (List.mem_cons_of_mem _ hdone)
    | skip _ _ => exact Or.inl hdone
    | enter _ _ _ _ => exact Or.inl hdone
  · cases h with
    | leave hstack =>
      -- The frame that leaves the path is that of a module that is done now.
      rw [hstack] at hcurrent
      rcases List.mem_cons.mp hcurrent with rfl | hcurrent
      · exact Or.inl (hns ▸ List.mem_cons_self)
      · exact Or.inr ⟨current, hcurrent, hns, hless⟩
    | skip hstack _ =>
      rw [hstack] at hcurrent
      rcases List.mem_cons.mp hcurrent with rfl | hcurrent
      · exact Or.inr ⟨_, List.mem_cons_self, hns, Nat.lt_of_succ_lt hless⟩
      · exact Or.inr ⟨current, List.mem_cons_of_mem _ hcurrent, hns, hless⟩
    | enter hstack _ _ _ =>
      rw [hstack] at hcurrent
      rcases List.mem_cons.mp hcurrent with rfl | hcurrent
      · exact Or.inr ⟨_, List.mem_cons_of_mem _ List.mem_cons_self, hns, Nat.lt_of_succ_lt hless⟩
      · exact Or.inr
          ⟨current, List.mem_cons_of_mem _ (List.mem_cons_of_mem _ hcurrent), hns, hless⟩

/-- The search is not past a frame that it has. -/
theorem not_past_of_mem (hnodup : search.met.Nodup) (hframe : frame ∈ search.stack) :
    ¬search.Past frame := by
  obtain ⟨hstack, -, hdisjoint⟩ := List.nodup_append.mp hnodup
  rintro (hdone | ⟨current, hcurrent, hns, hless⟩)
  · exact hdisjoint _ (List.mem_map_of_mem hframe) _ hdone rfl
  · -- No module is on the path twice, so it would have less left than it has.
    obtain rfl := List.inj_on_of_nodup_map hstack hcurrent hframe hns
    exact Nat.lt_irrefl _ hless

/-! ### Logs -/

/-- The log has no repetitions, and nothing that is not possible. -/
structure Logged (modules : List Module) (log : List Event) : Prop where
  nodup : log.Nodup
  subset : log ⊆ possibleEvents modules

/-- A possible event that is new can be logged. -/
theorem Logged.append {event : Event} (h : Logged modules log) (hnew : event ∉ log)
    (hpossible : event ∈ possibleEvents modules) : Logged modules (log ++ [event]) where
  nodup := by simpa using h.nodup.concat hnew
  subset := by
    refine List.append_subset.mpr ⟨h.subset, ?_⟩
    exact List.cons_subset.mpr ⟨hpossible, List.nil_subset _⟩

/-- The log of a search that has come to a state: whatever has been entered is met, and whatever has
been asked for is behind the search. -/
structure Recorded (modules : List Module) (log : List Event) (search : Search) : Prop
    extends Logged modules log where
  entered : ∀ ns, .enter ns ∈ log → ns ∈ search.met
  asked : ∀ frame, .ask frame ∈ log → search.Past frame

namespace Recorded

theorem start : Recorded modules [] .start where
  nodup := List.nodup_nil
  subset := List.nil_subset _
  entered _ h := absurd h List.not_mem_nil
  asked _ h := absurd h List.not_mem_nil

/-- A module that has not been met can be entered. -/
theorem enter {m : Module} (h : Recorded modules log search) (hm : m ∈ modules)
    (hnew : .enter m.ns ∉ log) (hmet : m.ns ∈ search.met) :
    Recorded modules (log ++ [.enter m.ns]) search where
  toLogged := h.toLogged.append hnew (enter_mem_possibleEvents hm)
  entered ns hns := by
    rcases List.mem_append.mp hns with hns | hns
    · exact h.entered ns hns
    · cases List.mem_singleton.mp hns
      exact hmet
  asked frame hframe := by
    rcases List.mem_append.mp hframe with hframe | hframe
    · exact h.asked frame hframe
    · cases List.mem_singleton.mp hframe

/-- The innermost frame has not been asked for. -/
theorem logged_ask (h : Recorded modules log search) (hrepeated : repeatedModule? modules = none)
    (hreached : Reached modules search) (hstack : search.stack = frame :: rest) :
    Logged modules (log ++ [.ask frame]) := by
  have hframe : frame ∈ search.stack := hstack ▸ List.mem_cons_self
  have hnodup := (hreached.orderly hrepeated).nodup
  obtain ⟨m, hm, hns, hremaining⟩ := hreached.remaining_suffix hframe
  exact h.toLogged.append (fun hasked => not_past_of_mem hnodup hframe (h.asked frame hasked))
    (ask_mem_possibleEvents hm hns hremaining)

/-- A step asks for the innermost frame. -/
theorem ask (h : Recorded modules log search) (hrepeated : repeatedModule? modules = none)
    (hreached : Reached modules search) (hstack : search.stack = frame :: rest)
    (hstep : Step modules search next) : Recorded modules (log ++ [.ask frame]) next where
  toLogged := h.logged_ask hrepeated hreached hstack
  entered ns hns := by
    rcases List.mem_append.mp hns with hns | hns
    · exact hstep.met_subset (h.entered ns hns)
    · cases List.mem_singleton.mp hns
  asked asked hasked := by
    rcases List.mem_append.mp hasked with hasked | hasked
    · exact hstep.past (h.asked asked hasked)
    · cases List.mem_singleton.mp hasked
      exact hstep.past_innermost hstack

end Recorded

/-- A step that makes the path longer enters a module that has not been met. -/
theorem Step.growth_eq (h : Step modules search next) (horderly : Orderly modules search) :
    search.growth next = [] ∨
      ∃ m ∈ modules, search.growth next = [.enter m.ns] ∧ m.ns ∉ search.met ∧ m.ns ∈ next.met := by
  cases h with
  | leave hstack => exact Or.inl (by simp [growth, Search.leave, hstack])
  | skip hstack _ => exact Or.inl (by simp [growth, hstack])
  | @enter _ i _ _ m hstack hdone hpath hm =>
    obtain ⟨hmem, hns⟩ := moduleNamed?_eq_some hm
    refine Or.inr ⟨m, hmem, ?_, ?_, ?_⟩
    · simp [growth, entered, hstack, hns]
    · rw [hns]
      exact horderly.not_mem_met hpath hdone
    · rw [hns]
      exact List.mem_cons_self

/-- **A step keeps the record.** -/
theorem Recorded.step (h : Recorded modules log search)
    (hrepeated : repeatedModule? modules = none) (hreached : Reached modules search)
    (hstep : search.step modules = .ok (some next)) :
    Recorded modules (log ++ search.events modules) next := by
  have hspec := step_spec modules search
  rw [hstep] at hspec
  change Step modules search next at hspec
  obtain ⟨frame, rest, hstack⟩ := List.exists_cons_of_ne_nil hspec.stack_ne_nil
  have hasked := h.ask hrepeated hreached hstack hspec
  have hevents : search.events modules = .ask frame :: search.growth next := by
    simp only [events, hstack, hstep]
  rw [hevents]
  rcases hspec.growth_eq (hreached.orderly hrepeated) with hgrowth | ⟨m, hm, hgrowth, hnew, hmet⟩
  · rw [hgrowth]
    exact hasked
  · -- What has been entered was met before this step, but the new module was not.
    rw [hgrowth, ← List.singleton_append, ← List.append_assoc]
    refine hasked.enter hm (fun hlogged => ?_) hmet
    rcases List.mem_append.mp hlogged with hlogged | hlogged
    · exact hnew (h.entered m.ns hlogged)
    · cases List.mem_singleton.mp hlogged

/-- The search can go to a root that has not been met. -/
theorem Recorded.root {m : Module} (h : Recorded modules log search) (hm : m ∈ modules)
    (hstack : search.stack = []) (hdone : m.ns ∉ search.done) :
    Recorded modules (log ++ [.enter m.ns]) (search.entered m m.ns) := by
  have hmet : search.met = search.done := by rw [met, hstack, List.map_nil, List.nil_append]
  have hentered : Recorded modules log (search.entered m m.ns) := by
    refine ⟨h.toLogged, fun ns hns => List.mem_cons_of_mem _ (h.entered ns hns), ?_⟩
    intro frame hframe
    rcases h.asked frame hframe with hpast | ⟨current, hcurrent, -⟩
    · exact Or.inl hpast
    · -- Nothing is on the path.
      rw [hstack] at hcurrent
      exact absurd hcurrent List.not_mem_nil
  refine hentered.enter hm (fun hlogged => hdone ?_) List.mem_cons_self
  rw [← hmet]
  exact h.entered m.ns hlogged

/-! ### The course of the search -/

/-- What the course of the search adds to a log and makes of a state with an empty path. -/
structure Course (modules : List Module) (log : List Event) (history : List Moment)
    (result : Except Failure Search) : Prop where
  logged : Logged modules (log ++ logOf modules history)
  reached : ∀ head, .head head ∈ history → Reached modules head
  ends : ∀ last, result = .ok last → Reached modules last ∧ last.stack = [] ∧
    Recorded modules (log ++ logOf modules history) last

theorem Course.nil {result : Except Failure Search} (hlogged : Logged modules log)
    (hends : ∀ last, result = .ok last →
      Reached modules last ∧ last.stack = [] ∧ Recorded modules log last) :
    Course modules log [] result := by
  have hlog : log ++ logOf modules [] = log := List.append_nil log
  refine ⟨hlog.symm ▸ hlogged, fun head hhead => absurd hhead List.not_mem_nil, ?_⟩
  exact hlog.symm ▸ hends

/-- The course goes on after its first part. -/
theorem Course.append {history history' : List Moment} {result : Except Failure Search}
    (hreached : ∀ head, .head head ∈ history → Reached modules head)
    (h : Course modules (log ++ logOf modules history) history' result) :
    Course modules log (history ++ history') result := by
  have hlog : log ++ logOf modules (history ++ history') =
      log ++ logOf modules history ++ logOf modules history' := by
    rw [logOf, List.flatMap_append, ← List.append_assoc]
    rfl
  refine ⟨hlog ▸ h.logged, fun head hhead => ?_, hlog ▸ h.ends⟩
  rcases List.mem_append.mp hhead with hhead | hhead
  · exact hreached head hhead
  · exact h.reached head hhead

/-- The course goes on after its first moment. -/
theorem Course.cons {moment : Moment} {history : List Moment} {result : Except Failure Search}
    (hmoment : ∀ head, moment = .head head → Reached modules head)
    (h : Course modules (log ++ moment.events modules) history result) :
    Course modules log (moment :: history) result := by
  have hevents : logOf modules [moment] = moment.events modules := List.flatMap_singleton ..
  rw [← List.singleton_append]
  refine .append (fun head hhead => hmoment head (List.mem_singleton.mp hhead).symm) ?_
  rwa [hevents]

/-- An iteration that begins in a reached state. -/
theorem Course.head {history : List Moment} {result : Except Failure Search}
    (hreached : Reached modules search)
    (h : Course modules (log ++ search.events modules) history result) :
    Course modules log (.head search :: history) result := by
  refine .cons ?_ h
  rintro head ⟨⟩
  exact hreached

theorem runHistory_of_step_none (h : search.step modules = .ok none) :
    search.runHistory modules = [.head search] := by
  rw [runHistory]
  split <;> simp_all

theorem runHistory_of_step_some (h : search.step modules = .ok (some next)) :
    search.runHistory modules = .head search :: next.runHistory modules := by
  rw [runHistory]
  split <;> simp_all

theorem runHistory_of_step_error {failure : Failure} (h : search.step modules = .error failure) :
    search.runHistory modules = [.head search] := by
  rw [runHistory]
  split <;> simp_all

theorem Stop.stack_ne_nil {failure : Failure} (h : Stop modules search failure) :
    search.stack ≠ [] := by
  cases h with
  | cycle hstack _ _ => exact hstack ▸ List.cons_ne_nil _ _
  | unknown hstack _ => exact hstack ▸ List.cons_ne_nil _ _

/-- **The course of a run.** -/
theorem course_run (hrepeated : repeatedModule? modules = none) (hreached : Reached modules search)
    (h : Recorded modules log search) :
    Course modules log (search.runHistory modules) (search.run modules) := by
  fun_induction run modules search generalizing log with
  | case1 search failure hstep =>
    have hspec := step_spec modules search
    rw [hstep] at hspec
    -- The import that is taken last is logged, although following it fails.
    obtain ⟨frame, rest, hstack⟩ := List.exists_cons_of_ne_nil (Stop.stack_ne_nil hspec)
    have hevents : search.events modules = [.ask frame] := by
      simp only [events, hstack, hstep]
    rw [runHistory_of_step_error hstep]
    refine .head hreached (.nil ?_ (by rintro last ⟨⟩))
    rw [hevents]
    exact h.logged_ask hrepeated hreached hstack
  | case2 search hstep =>
    have hstack := step_spec modules search
    rw [hstep] at hstack
    change search.stack = [] at hstack
    have hevents : search.events modules = [] := by
      simp only [events, hstack]
    rw [runHistory_of_step_none hstep]
    refine .head hreached ?_
    rw [hevents, List.append_nil]
    refine .nil h.toLogged ?_
    rintro last ⟨⟩
    exact ⟨hreached, hstack, h⟩
  | case3 search next hstep ih =>
    have hspec := step_spec modules search
    rw [hstep] at hspec
    rw [runHistory_of_step_some hstep]
    exact .head hreached (ih (hreached.step hspec) (h.step hrepeated hreached hstep))

/-- **The course of a visit.** -/
theorem course_visit (hrepeated : repeatedModule? modules = none)
    (hreached : Reached modules search) (hstack : search.stack = [])
    (h : Recorded modules log search) (ns : Namespace) :
    Course modules log (search.visitHistory modules ns) (search.visit modules ns) := by
  unfold visitHistory visit
  cases hdone : search.done.contains ns with
  | true =>
    refine .nil h.toLogged ?_
    rintro last ⟨⟩
    exact ⟨hreached, hstack, h⟩
  | false =>
    cases hm : moduleNamed? modules ns with
    | none =>
      simp only [enter_eq_error hm]
      exact .nil h.toLogged (by rintro last ⟨⟩)
    | some m =>
      obtain ⟨hmem, rfl⟩ := moduleNamed?_eq_some hm
      have hnew : m.ns ∉ search.done := by simpa using hdone
      have hrecorded := h.root hmem hstack hnew
      simp only [enter_eq_ok hm]
      refine .cons (by rintro head ⟨⟩) ?_
      exact course_run hrepeated (hreached.root hstack hdone hm) hrecorded

/-- **The course of the search from all roots.** -/
theorem course_visitAll (hrepeated : repeatedModule? modules = none)
    (hreached : Reached modules search) (hstack : search.stack = [])
    (h : Recorded modules log search) (roots : List Namespace) :
    Course modules log (search.visitAllHistory modules roots) (search.visitAll modules roots) := by
  induction roots generalizing search log with
  | nil =>
    refine .nil h.toLogged ?_
    rintro last ⟨⟩
    exact ⟨hreached, hstack, h⟩
  | cons ns rest ih =>
    have hvisit := course_visit hrepeated hreached hstack h ns
    rw [visitAllHistory, visitAll]
    cases hresult : search.visit modules ns with
    | error failure =>
      rw [hresult] at hvisit
      exact .append hvisit.reached (.nil hvisit.logged (by rintro last ⟨⟩))
    | ok next =>
      rw [hresult] at hvisit
      obtain ⟨hnext, hnextstack, hrecorded⟩ := hvisit.ends next rfl
      exact .append hvisit.reached (ih hnext hnextstack hrecorded)

/-- The course of the search over all modules. -/
def history (modules : List Module) : List Moment :=
  start.visitAllHistory modules (modules.map Module.ns)

/-- Whatever roots have been visited, a further visit that succeeds leaves nothing on the path. -/
theorem empty_of_visit {before : List Namespace} {ns : Namespace} {last : Search}
    (hbefore : start.visitAll modules before = .ok search)
    (hvisit : search.visit modules ns = .ok last) :
    last.stack = [] ∧ last.edges = [] ∧ last.onPath = [] := by
  have hresting := (visitAll_resting before []).symm.trans hbefore
  obtain ⟨done, -, rfl⟩ := map_eq_ok_iff.mp hresting
  rw [visit_resting] at hvisit
  obtain ⟨done', -, rfl⟩ := map_eq_ok_iff.mp hvisit
  exact ⟨rfl, rfl, rfl⟩

/-- The recursive search over modules that can be searched finds what is done, or a cycle. -/
theorem depthFirstAll_ok_or_cycle (hrepeated : repeatedModule? modules = none)
    (hundefined : undefinedImports modules = []) :
    (∃ done, depthFirstAll modules (modules.map Module.ns) [] = .ok done) ∨
      ∃ path imports, depthFirstAll modules (modules.map Module.ns) [] =
        .error (.error (.importCycle path imports)) := by
  have hdecides := decides_visitAll hrepeated hundefined
  have hresting : start.visitAll modules (modules.map Module.ns) = _ := visitAll_resting _ []
  rw [hresting] at hdecides
  cases hresult : depthFirstAll modules (modules.map Module.ns) [] with
  | ok done => exact Or.inl ⟨done, rfl⟩
  | error failure =>
    rw [hresult] at hdecides
    obtain ⟨-, path, imports, rfl⟩ := hdecides
    exact Or.inr ⟨path, imports, rfl⟩

/-- **The search with a stack of its own is the recursive one, and it ends.**  If namespaces are
distinct and every import has a target, then the search over all modules gives the result of the
recursive depth-first search: the modules that are done, or the same cycle with the same imports.

In its course no module is entered twice, and no module is asked twice for what is left of its
imports after the same ones, so that none of these is taken twice; altogether there are no more of
these events than modules and imports allow.  Wherever an iteration begins, the path, the imports
beside it and the places of the modules fit together, and every visit that succeeds leaves them
empty. -/
theorem visitAll_course (hdistinct : (modules.map Module.ns).Nodup)
    (hdefined : ImportsDefined modules) :
    start.visitAll modules (modules.map Module.ns) =
        (depthFirstAll modules (modules.map Module.ns) []).map resting ∧
      ((∃ done, depthFirstAll modules (modules.map Module.ns) [] = .ok done) ∨
        ∃ path imports, depthFirstAll modules (modules.map Module.ns) [] =
          .error (.error (.importCycle path imports))) ∧
      (logOf modules (history modules)).Nodup ∧
      logOf modules (history modules) ⊆ possibleEvents modules ∧
      (logOf modules (history modules)).length ≤
        (modules.map fun m => m.imports.length + 2).sum ∧
      (∀ search, .head search ∈ history modules → Aligned modules search) ∧
      ∀ (before : List Namespace) (ns : Namespace) (search last : Search),
        start.visitAll modules before = .ok search → search.visit modules ns = .ok last →
          last.stack = [] ∧ last.edges = [] ∧ last.onPath = [] := by
  have hrepeated := repeatedModule?_eq_none_iff.mpr hdistinct
  have hundefined := undefinedImports_eq_nil_iff_importsDefined.mpr hdefined
  have hcourse := course_visitAll hrepeated .start rfl .start (modules.map Module.ns)
  obtain ⟨⟨hnodup, hsubset⟩, hreached, -⟩ := hcourse
  rw [List.nil_append] at hnodup hsubset
  refine ⟨visitAll_resting _ [], depthFirstAll_ok_or_cycle hrepeated hundefined, hnodup, hsubset,
    ?_, ?_, ?_⟩
  · rw [← length_possibleEvents]
    exact hnodup.length_le_of_subset hsubset
  · exact fun search hhead => (hreached search hhead).aligned hrepeated
  · exact fun before ns search last => empty_of_visit

/-- A cycle of two modules, behind a module outside of it and behind one that is done: four modules
are entered, and it takes six iterations. -/
theorem visitAll_course_behind_root :
    let lib : Module := ⟨⟨0⟩, ⟨["Lib"]⟩, [], [], []⟩
    let main : Module := ⟨⟨1⟩, ⟨["Main"]⟩, [⟨⟨2⟩, ⟨["Lib"]⟩⟩, ⟨⟨3⟩, ⟨["A"]⟩⟩], [], []⟩
    let a : Module := ⟨⟨4⟩, ⟨["A"]⟩, [⟨⟨5⟩, ⟨["Lib"]⟩⟩, ⟨⟨6⟩, ⟨["B"]⟩⟩], [], []⟩
    let b : Module := ⟨⟨7⟩, ⟨["B"]⟩, [⟨⟨8⟩, ⟨["A"]⟩⟩], [], []⟩
    let modules := [main, lib, a, b]
    let cycle : Failure := .error (.importCycle [⟨["A"]⟩, ⟨["B"]⟩, ⟨["A"]⟩]
      [⟨⟨6⟩, ⟨["B"]⟩⟩, ⟨⟨8⟩, ⟨["A"]⟩⟩])
    (modules.map Module.ns).Nodup ∧ ImportsDefined modules ∧
      start.visitAll modules (modules.map Module.ns) = .error cycle ∧
      depthFirstAll modules (modules.map Module.ns) [] = .error cycle ∧
      (logOf modules (history modules)).Nodup ∧
      (logOf modules (history modules)).length = 10 ∧
      ∀ search, .head search ∈ history modules → Aligned modules search := by
  intro lib main a b modules cycle
  have hdistinct : (modules.map Module.ns).Nodup := by decide
  have hdefined : ImportsDefined modules := by
    unfold ImportsDefined
    decide
  have hcycle : start.visitAll modules (modules.map Module.ns) = .error cycle := by cbv
  have hlength : (logOf modules (history modules)).length = 10 := by cbv
  obtain ⟨hresult, -, hnodup, -, -, haligned, -⟩ := visitAll_course hdistinct hdefined
  have hrecursive : depthFirstAll modules (modules.map Module.ns) [] = .error cycle := by
    rw [hcycle] at hresult
    cases hexplored : depthFirstAll modules (modules.map Module.ns) [] with
    | ok done =>
      rw [hexplored] at hresult
      cases hresult
    | error failure =>
      rw [hexplored] at hresult
      cases hresult
      rfl
  exact ⟨hdistinct, hdefined, hcycle, hrecursive, hnodup, hlength, haligned⟩

end Search

end NameResolution
