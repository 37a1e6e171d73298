import NameResolution.Error
import Mathlib.Data.List.Basic

/-!
# The nodes of syntax and of errors

`Module.nodes` lists the ids of all nodes of a module in the order in which it is written, a node
after all nodes inside it; but the name of a declaration is written before what it declares.
`Error.nodes` lists the ids that an error carries.  An error that `Blames` nodes carries at least
one id and none but theirs.
-/

namespace NameResolution

/-! ### Nodes of syntax -/

mutual

/-- The nodes of a type. -/
def Ty.nodes : Ty → List NodeId
  | .var id _ => [id]
  | .con id _ args => Ty.listNodes args ++ [id]
  | .arrow id param result => param.nodes ++ result.nodes ++ [id]

/-- The nodes of a list of types. -/
def Ty.listNodes : List Ty → List NodeId
  | [] => []
  | type :: rest => type.nodes ++ Ty.listNodes rest

end

mutual

/-- The nodes of an expression, those of its patterns and types included. -/
def Expr.nodes : Expr → List NodeId
  | .lit id _ | .var id _ => [id]
  | .app id func arg => func.nodes ++ arg.nodes ++ [id]
  | .lambda id _ body => body.nodes ++ [id]
  | .annot id expr type => expr.nodes ++ type.nodes ++ [id]
  | .letIn id _ bound body => bound.nodes ++ body.nodes ++ [id]
  | .ifThenElse id cond thenBranch elseBranch =>
    cond.nodes ++ thenBranch.nodes ++ elseBranch.nodes ++ [id]
  | .matchWith id scrutinee arms => scrutinee.nodes ++ Arm.listNodes arms ++ [id]

/-- The nodes of an arm. -/
def Arm.nodes : Arm → List NodeId
  | ⟨pattern, body⟩ => pattern.id :: body.nodes

/-- The nodes of a list of arms. -/
def Arm.listNodes : List Arm → List NodeId
  | [] => []
  | arm :: rest => arm.nodes ++ Arm.listNodes rest

end

/-- The nodes of a constructor. -/
def Constructor.nodes (ctor : Constructor) : List NodeId := Ty.listNodes ctor.fields ++ [ctor.id]

/-- The nodes of a declaration. -/
def Decl.nodes : Decl → List NodeId
  | .value id _ signature body => id :: (signature.elim [] Ty.nodes ++ body.nodes)
  | .data id _ _ constructors => id :: constructors.flatMap Constructor.nodes

/-- The nodes of a module. -/
def Module.nodes (m : Module) : List NodeId :=
  m.id :: (m.imports.map Import.id ++ m.exports.map Export.id ++ m.decls.flatMap Decl.nodes)

/-- The nodes of a program. -/
def Program.nodes (p : Program) : List NodeId := p.modules.flatMap Module.nodes

theorem Decl.id_mem_nodes (decl : Decl) : decl.id ∈ decl.nodes := by
  cases decl with
  | value id ident signature body => exact List.mem_cons_self
  | data id ident params ctors => exact List.mem_cons_self

namespace Module

variable {m : Module}

theorem import_mem_nodes {i : Import} (hi : i ∈ m.imports) : i.id ∈ m.nodes := by
  have hmem := List.mem_map_of_mem (f := Import.id) hi
  exact List.mem_cons_of_mem _ (List.mem_append_left _ (List.mem_append_left _ hmem))

theorem export_mem_nodes {e : Export} (he : e ∈ m.exports) : e.id ∈ m.nodes := by
  have hmem := List.mem_map_of_mem (f := Export.id) he
  exact List.mem_cons_of_mem _ (List.mem_append_left _ (List.mem_append_right _ hmem))

theorem decls_subset_nodes (m : Module) : m.decls.flatMap Decl.nodes ⊆ m.nodes :=
  fun _ hid => List.mem_cons_of_mem _ (List.mem_append_right _ hid)

theorem decl_subset_nodes {decl : Decl} (hdecl : decl ∈ m.decls) : decl.nodes ⊆ m.nodes :=
  fun _ hid => m.decls_subset_nodes (List.mem_flatMap.mpr ⟨decl, hdecl, hid⟩)

end Module

theorem Program.module_subset_nodes {p : Program} {m : Module} (hm : m ∈ p.modules) :
    m.nodes ⊆ p.nodes :=
  fun _ hid => List.mem_flatMap.mpr ⟨m, hm, hid⟩

/-! ### Nodes of errors -/

/-- The ids that an error carries. -/
def Error.nodes : Error → List NodeId
  | .repeatedModule _ modules => modules
  | .undefinedImports imports => imports.map Import.id
  | .importCycle _ imports => imports.map Import.id
  | .undefinedName node _ _ _ _ => [node]
  | .ambiguousName node _ imports => node :: imports.map Import.id
  | .unimportedReexports _ exports => exports.map Prod.fst
  | .undeclaredExports _ exports => exports.map Prod.fst
  | .repeatedDeclaration _ _ decls => decls
  | .nestedTooDeeply node => [node]

/-- The error is about some of the nodes, and about no others. -/
structure Error.Blames (e : Error) (nodes : List NodeId) : Prop where
  ne_nil : e.nodes ≠ []
  subset : e.nodes ⊆ nodes

theorem Error.Blames.mono {e : Error} {nodes nodes' : List NodeId} (h : e.Blames nodes)
    (hsubset : nodes ⊆ nodes') : e.Blames nodes' :=
  ⟨h.ne_nil, List.Subset.trans h.subset hsubset⟩

end NameResolution
