import NameResolution.Proofs.Import.Reach
import NameResolution.Scope.Lookup

/-!
# Lookups without faults

A lookup faults if it comes upon a module without an interface, or if the place that it is made from
is not inside the module.  Neither can happen while a module is resolved: the search for the imports
in reach has found the interfaces of all that can be asked for (`Context.grounded_of_reach`).

So the lookups are given here a second time, without faults: a module that has no interface gives
nothing.  They are the lookups of the resolver, as the last section shows (`Context.typeMeaning_eq`,
`Context.variableMeaning_eq`), and all that is shown about meanings is shown about these.
-/

namespace NameResolution

/-! ### What the interfaces say -/

namespace Interfaces

/-- Whether there is a module `ns` that declares `ident`. -/
def hasDecl (interfaces : Interfaces) (ns : Namespace) (ident : String) : Bool :=
  (interfaces.get? ns).any (·.declares ident)

/-- Whether there is a module `ns` that exports its declaration `ident`. -/
def hasExport (interfaces : Interfaces) (ns : Namespace) (ident : String) : Bool :=
  (interfaces.get? ns).any (·.exposes ident)

end Interfaces

/-! ### The meaning of a name -/

namespace Context

variable (ctx : Context)

/-- The imports in reach whose modules export `ident`. -/
def exporters (ident : String) : List Import :=
  ctx.reach.filter fun i => ctx.interfaces.hasExport i.target ident

/-- An occurrence without a meaning. -/
def refused (node : NodeId) (name : Name) (sort : NameSort) (reason : Unresolved) :
    Except Error Name :=
  .error (.undefinedName node name sort ctx.owner reason)

/-- The meaning of an identifier that neither the module nor a binder has. -/
def imported (node : NodeId) (ident : String) (sort : NameSort) : Except Error Name :=
  match ctx.exporters ident with
  | [] => ctx.refused node (.unqualified ident) sort .unbound
  | [i] => .ok (i.target.name ident)
  | several => .error (.ambiguousName node ident several)

/-- The meaning of a qualified name that is no binder. -/
def qualified (node : NodeId) (name : Name) (sort : NameSort) : Except Error Name :=
  if name.qualifier = ctx.owner then
    if ctx.interfaces.hasDecl ctx.owner name.ident then .ok name
    else ctx.refused node name sort .notDeclared
  else if name.qualifier ∈ ctx.reach.map Import.target then
    if ctx.interfaces.hasExport name.qualifier name.ident then .ok name
    else ctx.refused node name sort .notExported
  else ctx.refused node name sort .moduleNotImported

/-- The meaning of a variable in the scope `lexical`, with the binders that have been met. -/
def variableAt (binders : Binders) (lexical : Namespace) (node : NodeId) (name : Name) :
    Except Error Name :=
  if name.isQualified then
    if binders.isVisible name lexical then .ok name else ctx.qualified node name .value
  else if ctx.interfaces.hasDecl ctx.owner name.ident then .ok (ctx.owner.name name.ident)
  else
    match binders.lookup lexical ctx.owner name.ident with
    | some binder => .ok binder
    | none => ctx.imported node name.ident .value

/-- The meaning of the name of a type. -/
def typeName (node : NodeId) (name : Name) : Except Error Name :=
  if name.isQualified then ctx.qualified node name .type
  else if name.ident ∈ primitiveTypes then .ok name
  else if ctx.interfaces.hasDecl ctx.owner name.ident then .ok (ctx.owner.name name.ident)
  else ctx.imported node name.ident .type

end Context

/-! ### Lookups of the resolver -/

namespace Context

variable (ctx : Context)

/-- The module itself and all modules in reach have interfaces. -/
structure Grounded : Prop where
  owner : (ctx.interfaces.get? ctx.owner).isSome
  reach : ∀ i ∈ ctx.reach, (ctx.interfaces.get? i.target).isSome

end Context

namespace Interfaces

variable {interfaces : Interfaces} {ns : Namespace}

theorem declares_eq_ok (h : (interfaces.get? ns).isSome) (ident : String) :
    interfaces.declares ns ident = .ok (interfaces.hasDecl ns ident) := by
  obtain ⟨interface, hget⟩ := Option.isSome_iff_exists.mp h
  rw [declares, get, hasDecl, hget]
  rfl

theorem exposes_eq_ok (h : (interfaces.get? ns).isSome) (ident : String) :
    interfaces.exposes ns ident = .ok (interfaces.hasExport ns ident) := by
  obtain ⟨interface, hget⟩ := Option.isSome_iff_exists.mp h
  rw [exposes, get, hasExport, hget]
  rfl

end Interfaces

namespace Context

variable {ctx : Context}

theorem exposing_eq_ok (ident : String) {reach : List Import}
    (h : ∀ i ∈ reach, (ctx.interfaces.get? i.target).isSome) :
    ctx.exposing ident reach =
      .ok (reach.filter fun i => ctx.interfaces.hasExport i.target ident) := by
  induction reach with
  | nil => rfl
  | cons i rest ih =>
    have hrest := ih fun j hj => h j (List.mem_cons_of_mem _ hj)
    rw [exposing, Interfaces.exposes_eq_ok (h i List.mem_cons_self), hrest, List.filter_cons]
    cases ctx.interfaces.hasExport i.target ident <;> rfl

theorem fromImports_eq (h : ctx.Grounded) (node : NodeId) (ident : String) (sort : NameSort) :
    ctx.fromImports node ident sort = (ctx.imported node ident sort).mapError .error := by
  rw [fromImports, exposing_eq_ok ident h.reach, imported, exporters]
  cases ctx.reach.filter fun i => ctx.interfaces.hasExport i.target ident with
  | nil => rfl
  | cons i rest => cases rest <;> rfl

theorem fromModule_eq (h : ctx.Grounded) (node : NodeId) (name : Name) (sort : NameSort) :
    ctx.fromModule node name sort = (ctx.qualified node name sort).mapError .error := by
  rw [fromModule, qualified]
  by_cases howner : name.qualifier = ctx.owner
  · rw [if_pos howner, if_pos howner, howner, Interfaces.declares_eq_ok h.owner]
    cases ctx.interfaces.hasDecl ctx.owner name.ident <;> rfl
  · rw [if_neg howner, if_neg howner]
    by_cases hreach : name.qualifier ∈ ctx.reach.map Import.target
    · have hany : ctx.reach.any (·.target == name.qualifier) = true := by
        obtain ⟨i, hi, htarget⟩ := List.mem_map.mp hreach
        exact List.any_eq_true.mpr ⟨i, hi, beq_iff_eq.mpr htarget⟩
      have hget : (ctx.interfaces.get? name.qualifier).isSome := by
        obtain ⟨i, hi, htarget⟩ := List.mem_map.mp hreach
        exact htarget ▸ h.reach i hi
      rw [if_pos hany, if_pos hreach, Interfaces.exposes_eq_ok hget]
      cases ctx.interfaces.hasExport name.qualifier name.ident <;> rfl
    · have hany : ¬ctx.reach.any (·.target == name.qualifier) = true := by
        intro hany
        obtain ⟨i, hi, htarget⟩ := List.any_eq_true.mp hany
        exact hreach (List.mem_map.mpr ⟨i, hi, beq_iff_eq.mp htarget⟩)
      rw [if_neg hany, if_neg hreach]
      rfl

theorem typeMeaning_eq (h : ctx.Grounded) (node : NodeId) (name : Name) :
    ctx.typeMeaning node name = (ctx.typeName node name).mapError .error := by
  rw [typeMeaning, typeName, fromModule_eq h, fromImports_eq h,
    Interfaces.declares_eq_ok h.owner]
  by_cases hqualified : name.isQualified
  · rw [if_pos hqualified, if_pos hqualified]
  · rw [if_neg hqualified, if_neg hqualified]
    by_cases hprimitive : name.ident ∈ primitiveTypes
    · rw [if_pos (List.contains_iff_mem.mpr hprimitive), if_pos hprimitive]
      rfl
    · rw [if_neg (fun hmem => hprimitive (List.contains_iff_mem.mp hmem)), if_neg hprimitive]
      cases ctx.interfaces.hasDecl ctx.owner name.ident <;> rfl

/-- Inside the module a variable means what it is looked up to. -/
theorem variableMeaning_eq (h : ctx.Grounded) (binders : Binders) {lexical : Namespace}
    (hlexical : ctx.owner.encloses lexical = true) (node : NodeId) (name : Name) :
    ctx.variableMeaning binders lexical node name =
      (ctx.variableAt binders lexical node name).mapError .error := by
  rw [variableMeaning, variableAt, fromModule_eq h, fromImports_eq h,
    Interfaces.declares_eq_ok h.owner, if_pos hlexical]
  by_cases hqualified : name.isQualified
  · rw [if_pos hqualified, if_pos hqualified]
    cases binders.isVisible name lexical <;> rfl
  · rw [if_neg hqualified, if_neg hqualified]
    cases ctx.interfaces.hasDecl ctx.owner name.ident with
    | true => rfl
    | false => cases binders.lookup lexical ctx.owner name.ident <;> rfl

/-- A place that is not inside the module is a fault. -/
theorem variableMeaning_outside (binders : Binders) {lexical : Namespace}
    (hlexical : ¬ctx.owner.encloses lexical = true) (node : NodeId) (name : Name) :
    ctx.variableMeaning binders lexical node name =
      .error (.fault (.scopeEscaped lexical ctx.owner)) := by
  rw [variableMeaning, if_neg hlexical]
  rfl

/-- The search for the imports in reach has looked up all that resolving asks for. -/
theorem grounded_of_reach {interfaces : Interfaces} {ns : Namespace} {reach : List Import}
    (h : interfaces.reach ns = .ok reach) (limit : UInt32) :
    (Context.mk interfaces ns reach limit).Grounded where
  owner := (Interfaces.get?_isSome_of_reach h).1
  reach := (Interfaces.get?_isSome_of_reach h).2

end Context

end NameResolution
