import NameResolution.Proofs.Paths
import NameResolution.Surface.Printer

/-!
# The tree of nodes

A `Node` is a part of a program that has an id of its own.  `Node.inside` lists the nodes that a
node contains, and `Node.text` is what a printed module shows of the node: the whole of it for
types, patterns, expressions and constructors, and for all other nodes the name that stands for
them.

`Node.words` lists the identifiers and segments that are written at a node itself, so that the words
of a module are those of its nodes.
-/

namespace NameResolution

/-- A part of a program that has an id. -/
inductive Node where
  /-- The header of a module, which stands for the module. -/
  | header (m : Module)
  | imported (i : Import)
  | exported (e : Export)
  | decl (d : Decl)
  | ctor (c : Constructor)
  | expr (e : Expr)
  | pattern (p : Pattern)
  | type (t : Ty)

/-! ### Containment -/

mutual

/-- The nodes inside a type, a node after all nodes inside it. -/
def Ty.inside : Ty → List Node
  | .var _ _ => []
  | .con _ _ args => Ty.listInside args
  | .arrow _ param result => param.inside ++ .type param :: (result.inside ++ [.type result])

/-- Types, each after all nodes inside it. -/
def Ty.listInside : List Ty → List Node
  | [] => []
  | type :: rest => type.inside ++ .type type :: Ty.listInside rest

end

mutual

/-- The nodes inside an expression, a node after all nodes inside it. -/
def Expr.inside : Expr → List Node
  | .lit _ _ | .var _ _ => []
  | .app _ func arg => func.inside ++ .expr func :: (arg.inside ++ [.expr arg])
  | .lambda _ _ body => body.inside ++ [.expr body]
  | .annot _ expr type => expr.inside ++ .expr expr :: (type.inside ++ [.type type])
  | .letIn _ _ bound body => bound.inside ++ .expr bound :: (body.inside ++ [.expr body])
  | .ifThenElse _ cond thenBranch elseBranch =>
    cond.inside ++ .expr cond :: (thenBranch.inside ++ .expr thenBranch ::
      (elseBranch.inside ++ [.expr elseBranch]))
  | .matchWith _ scrutinee arms => scrutinee.inside ++ .expr scrutinee :: Arm.listInside arms

/-- The nodes inside an arm. -/
def Arm.inside : Arm → List Node
  | ⟨pattern, body⟩ => .pattern pattern :: (body.inside ++ [.expr body])

/-- The nodes inside arms. -/
def Arm.listInside : List Arm → List Node
  | [] => []
  | arm :: rest => arm.inside ++ Arm.listInside rest

end

/-- The nodes inside a constructor. -/
def Constructor.inside (c : Constructor) : List Node := Ty.listInside c.fields

/-- The nodes inside a declaration. -/
def Decl.inside : Decl → List Node
  | .value _ _ signature body =>
    (match signature with
      | none => []
      | some type => type.inside ++ [.type type])
      ++ body.inside ++ [.expr body]
  | .data _ _ _ constructors => constructors.flatMap fun c => c.inside ++ [.ctor c]

/-- A declaration, whose name is written first, and the nodes inside it. -/
def Decl.subnodes (d : Decl) : List Node := .decl d :: d.inside

/-- The nodes inside a module. -/
def Module.inside (m : Module) : List Node :=
  m.imports.map .imported ++ m.exports.map .exported ++ m.decls.flatMap Decl.subnodes

/-- All nodes of a module. -/
def Module.subnodes (m : Module) : List Node := .header m :: m.inside

namespace Node

/-- The id of a node. -/
def id : Node → NodeId
  | header m => m.id
  | imported i => i.id
  | exported e => e.id
  | decl d => d.id
  | ctor c => c.id
  | expr e => e.id
  | pattern p => p.id
  | type t => t.id

/-- The nodes inside a node. -/
def inside : Node → List Node
  | header m => m.inside
  | imported _ | exported _ | pattern _ => []
  | decl d => d.inside
  | ctor c => c.inside
  | expr e => e.inside
  | type t => t.inside

/-- Whether all that the node consists of belongs to its text. -/
def IsTerm : Node → Prop
  | ctor _ | expr _ | pattern _ | type _ => True
  | header _ | imported _ | exported _ | decl _ => False

end Node

/-! ### Containment is transitive -/

/-- With a node the list has all nodes inside it. -/
def Node.Closed (ns : List Node) : Prop := ∀ n ∈ ns, n.inside ⊆ ns

namespace Node.Closed

variable {ns ns' : List Node}

theorem nil : Closed [] := fun _ hn => absurd hn List.not_mem_nil

theorem append (h : Closed ns) (h' : Closed ns') : Closed (ns ++ ns') := by
  intro n hn
  rcases List.mem_append.mp hn with hn | hn
  · exact List.subset_append_of_subset_left _ (h n hn)
  · exact List.subset_append_of_subset_right _ (h' n hn)

/-- A node may stand behind the nodes inside it. -/
theorem node {n : Node} (h : Closed n.inside) (h' : Closed ns) : Closed (n.inside ++ n :: ns) := by
  rw [List.append_cons]
  refine append (fun other hother => ?_) h'
  rcases List.mem_append.mp hother with hother | hother
  · exact List.subset_append_of_subset_left _ (h other hother)
  · rw [List.mem_singleton.mp hother]
    exact List.subset_append_left ..

/-- A node may stand before the nodes inside it. -/
theorem cons {n : Node} (h : Closed n.inside) : Closed (n :: n.inside) := by
  intro other hother
  rcases List.mem_cons.mp hother with rfl | hother
  · exact List.subset_cons_self ..
  · exact List.subset_cons_of_subset _ (h other hother)

/-- A node without nodes inside it may stand anywhere. -/
theorem leaf {n : Node} (hn : n.inside = []) (h : Closed ns) : Closed (n :: ns) := by
  have hleaf := node (n := n) (hn ▸ nil) h
  rwa [hn] at hleaf

theorem flatMap {α : Type} {as : List α} {f : α → List Node} (h : ∀ a ∈ as, Closed (f a)) :
    Closed (as.flatMap f) := by
  intro n hn
  obtain ⟨a, ha, hn⟩ := List.mem_flatMap.mp hn
  exact fun other hother => List.mem_flatMap.mpr ⟨a, ha, h a ha n hn hother⟩

end Node.Closed

mutual

theorem Ty.closed_inside : (t : Ty) → Node.Closed t.inside
  | .var _ _ => .nil
  | .con _ _ args => Ty.closed_listInside args
  | .arrow _ param result =>
    .node (n := .type param) param.closed_inside
      (.node (n := .type result) result.closed_inside .nil)

theorem Ty.closed_listInside : (types : List Ty) → Node.Closed (Ty.listInside types)
  | [] => .nil
  | type :: rest => .node (n := .type type) type.closed_inside (Ty.closed_listInside rest)

end

mutual

theorem Expr.closed_inside : (e : Expr) → Node.Closed e.inside
  | .lit _ _ | .var _ _ => .nil
  | .app _ func arg =>
    .node (n := .expr func) func.closed_inside (.node (n := .expr arg) arg.closed_inside .nil)
  | .lambda _ _ body => .node (n := .expr body) body.closed_inside .nil
  | .annot _ expr type =>
    .node (n := .expr expr) expr.closed_inside (.node (n := .type type) type.closed_inside .nil)
  | .letIn _ _ bound body =>
    .node (n := .expr bound) bound.closed_inside (.node (n := .expr body) body.closed_inside .nil)
  | .ifThenElse _ cond thenBranch elseBranch =>
    .node (n := .expr cond) cond.closed_inside
      (.node (n := .expr thenBranch) thenBranch.closed_inside
        (.node (n := .expr elseBranch) elseBranch.closed_inside .nil))
  | .matchWith _ scrutinee arms =>
    .node (n := .expr scrutinee) scrutinee.closed_inside (Arm.closed_listInside arms)

theorem Arm.closed_inside : (arm : Arm) → Node.Closed arm.inside
  | ⟨pattern, body⟩ =>
    .leaf (n := .pattern pattern) rfl (.node (n := .expr body) body.closed_inside .nil)

theorem Arm.closed_listInside : (arms : List Arm) → Node.Closed (Arm.listInside arms)
  | [] => .nil
  | arm :: rest => .append arm.closed_inside (Arm.closed_listInside rest)

end

theorem Decl.closed_inside (d : Decl) : Node.Closed d.inside := by
  cases d with
  | value id ident signature body =>
    have hbody : Node.Closed (body.inside ++ [.expr body]) :=
      .node (n := .expr body) body.closed_inside .nil
    cases signature with
    | none => exact hbody
    | some type =>
      rw [inside, List.append_assoc]
      exact .append (.node (n := .type type) type.closed_inside .nil) hbody
  | data id ident params constructors =>
    exact .flatMap fun c _ => .node (n := .ctor c) (Ty.closed_listInside c.fields) .nil

theorem Module.closed_inside (m : Module) : Node.Closed m.inside := by
  have hleaves {α : Type} (f : α → Node) (hf : ∀ a, (f a).inside = []) (as : List α) :
      Node.Closed (as.map f) := by
    rw [List.map_eq_flatMap]
    exact .flatMap fun a _ => .leaf (hf a) .nil
  refine .append (.append ?_ ?_) (.flatMap fun d _ => ?_)
  · exact hleaves .imported (fun _ => rfl) m.imports
  · exact hleaves .exported (fun _ => rfl) m.exports
  · exact .cons (n := .decl d) d.closed_inside

/-- **With a node a module has all nodes inside it.** -/
theorem Module.closed_subnodes (m : Module) : Node.Closed m.subnodes :=
  .cons (n := .header m) m.closed_inside

/-- What is inside a node inside a node is inside the outer node. -/
theorem Node.closed_inside (n : Node) : Closed n.inside := by
  cases n with
  | header m => exact m.closed_inside
  | imported i => exact .nil
  | exported e => exact .nil
  | decl d => exact d.closed_inside
  | ctor c => exact Ty.closed_listInside c.fields
  | expr e => exact e.closed_inside
  | pattern p => exact .nil
  | type t => exact t.closed_inside

/-! ### What is shown of a node -/

namespace Node

/-- What a printed module shows of a node. -/
def text : Node → String
  | header m => toString m.ns
  | imported i => toString i.target
  | exported (.decl _ ident) => ident
  | exported (.reexport _ target) => toString target
  | decl d => d.ident
  | ctor c => c.label ++ String.join (c.fields.map fun field => " " ++ field.markup.toText)
  | expr e => e.markup.toText
  | pattern p => p.markup.toText
  | type t => t.markup.toText

end Node

/-- The identifiers, labels, type parameters and segments that are written at a node itself. -/
def Node.words : Node → List String
  | header m => m.ns.segments
  | imported i => i.target.segments
  | exported (.decl _ ident) => [ident]
  | exported (.reexport _ target) => target.segments
  | decl (.value _ ident _ _) => [ident]
  | decl (.data _ ident params _) => ident :: params
  | ctor c => [c.label]
  | expr (.var _ name) => name.words
  | expr (.lambda _ param _) => param.words
  | expr (.letIn _ binder _ _) => binder.words
  | expr _ => []
  | pattern (.bind _ name) => name.words
  | pattern (.variant _ head label fields) => head.words ++ label :: fields.flatMap Name.words
  | pattern _ => []
  | type (.var _ ident) => [ident]
  | type (.con _ name _) => name.words
  | type (.arrow ..) => []

end NameResolution
