import NameResolution.Proofs.Surface.Index
import NameResolution.Proofs.Surface.Marks
import NameResolution.Proofs.Tree

/-!
# The parts that the printer marks

The printer marks all nodes of a module, each at its own text, and nothing else
(`Module.parts_markup`).  Inside the text of a term all nodes inside it are marked
(`Node.parts_body`); the names that stand for other nodes hold no marks.
-/

namespace NameResolution

open Surface (Markup)

/-! ### Parts of texts -/

namespace Surface.Markup

/-- What is marked, if all of a text is. -/
def body : Markup → Markup
  | node _ body => body
  | text s => text s
  | append first second => append first second

@[simp] theorem parts_text (s : String) : (text s).parts = [] := rfl

@[simp] theorem parts_empty : empty.parts = [] := rfl

@[simp] theorem parts_node (id : NodeId) (body : Markup) :
    (node id body).parts = body.parts ++ [(id, body)] := rfl

@[simp] theorem parts_append (first second : Markup) :
    (first ++ second).parts = first.parts ++ second.parts := rfl

@[simp] theorem parts_concat (ms : List Markup) : (concat ms).parts = ms.flatMap parts := by
  induction ms with
  | nil => rfl
  | cons m rest ih => rw [concat, parts_append, ih, List.flatMap_cons]

end Surface.Markup

/-! ### Nodes as parts -/

/-- The marked text of a node without the mark. -/
def Node.body : Node → Markup
  | header m => m.ns.markup
  | imported i => i.target.markup
  | exported (.decl _ ident) => ident
  | exported (.reexport _ target) => target.markup
  | decl d => d.ident
  | ctor c => c.label ++ Ty.listMarkup c.fields
  | expr e => e.markup.body
  | pattern p => p.markup.body
  | type t => t.markup.body

/-- A node as a marked part. -/
def Node.part (n : Node) : NodeId × Markup := (n.id, n.body)

@[simp] theorem Name.parts_markup (name : Name) : name.markup.parts = [] := rfl

@[simp] theorem Namespace.parts_markup (ns : Namespace) : ns.markup.parts = [] := rfl

@[simp] theorem Literal.parts_markup (value : Literal) : value.markup.parts = [] := rfl

@[simp] theorem Pattern.parts_fieldsMarkup (fields : List Name) :
    (Pattern.fieldsMarkup fields).parts = [] := by
  rw [fieldsMarkup]
  split_ifs <;> rfl

mutual

@[simp] theorem Ty.parts_markup : (t : Ty) →
    t.markup.parts = t.inside.map Node.part ++ [(Node.type t).part]
  | .var id ident => rfl
  | .con id name args => by
    cases args with
    | nil => rfl
    | cons arg rest =>
      have hargs := Ty.parts_listMarkup (arg :: rest)
      simp [Ty.markup, Ty.inside, hargs, Node.part, Node.body, Node.id, Ty.id, Markup.body]
  | .arrow id param result => by
    simp [Ty.markup, Ty.inside, param.parts_markup, result.parts_markup, Node.part, Node.body,
      Node.id, Ty.id, Markup.body]

@[simp] theorem Ty.parts_listMarkup : (types : List Ty) →
    (Ty.listMarkup types).parts = (Ty.listInside types).map Node.part
  | [] => rfl
  | type :: rest => by
    simp [Ty.listMarkup, Ty.listInside, type.parts_markup, Ty.parts_listMarkup rest]

end

@[simp] theorem Pattern.parts_markup (p : Pattern) : p.markup.parts = [(Node.pattern p).part] := by
  cases p with
  | lit id value => rfl
  | bind id name => rfl
  | wildcard id => rfl
  | variant id type ctor fields =>
    simp [Pattern.markup, Node.part, Node.body, Node.id, Pattern.id, Markup.body]

mutual

@[simp] theorem Expr.parts_markup : (e : Expr) →
    e.markup.parts = e.inside.map Node.part ++ [(Node.expr e).part]
  | .lit id value => rfl
  | .var id name => rfl
  | .app id func arg => by
    simp [Expr.markup, Expr.inside, func.parts_markup, arg.parts_markup, Node.part, Node.body,
      Node.id, Expr.id, Markup.body]
  | .lambda id param body => by
    simp [Expr.markup, Expr.inside, body.parts_markup, Node.part, Node.body, Node.id, Expr.id,
      Markup.body]
  | .annot id expr type => by
    simp [Expr.markup, Expr.inside, expr.parts_markup, Node.part, Node.body, Node.id, Expr.id,
      Markup.body]
  | .letIn id binder bound body => by
    simp [Expr.markup, Expr.inside, bound.parts_markup, body.parts_markup, Node.part, Node.body,
      Node.id, Expr.id, Markup.body]
  | .ifThenElse id cond thenBranch elseBranch => by
    simp [Expr.markup, Expr.inside, cond.parts_markup, thenBranch.parts_markup,
      elseBranch.parts_markup, Node.part, Node.body, Node.id, Expr.id, Markup.body]
  | .matchWith id scrutinee arms => by
    simp [Expr.markup, Expr.inside, scrutinee.parts_markup, Arm.parts_listMarkup arms, Node.part,
      Node.body, Node.id, Expr.id, Markup.body]

@[simp] theorem Arm.parts_markup : (arm : Arm) → arm.markup.parts = arm.inside.map Node.part
  | ⟨pattern, body⟩ => by
    simp [Arm.markup, Arm.inside, body.parts_markup]

@[simp] theorem Arm.parts_listMarkup : (arms : List Arm) →
    (Arm.listMarkup arms).parts = (Arm.listInside arms).map Node.part
  | [] => rfl
  | arm :: rest => by
    simp [Arm.listMarkup, Arm.listInside, arm.parts_markup, Arm.parts_listMarkup rest]

end

@[simp] theorem Constructor.parts_markup (c : Constructor) :
    c.markup.parts = c.inside.map Node.part ++ [(Node.ctor c).part] := by
  simp [Constructor.markup, Constructor.inside, Node.part, Node.body, Node.id]

@[simp] theorem Constructor.parts_listMarkup (cs : List Constructor) :
    (Constructor.listMarkup cs).parts =
      (cs.flatMap fun c => c.inside ++ [.ctor c]).map Node.part := by
  cases cs with
  | nil => rfl
  | cons first rest => simp [Constructor.listMarkup, List.flatMap_map, List.map_flatMap]

@[simp] theorem Decl.parts_markup (d : Decl) : d.markup.parts = d.subnodes.map Node.part := by
  cases d with
  | value id ident signature body =>
    cases signature with
    | none =>
      simp [Decl.markup, Decl.subnodes, Decl.inside, Node.part, Node.id, Node.body, Decl.id,
        Decl.ident]
    | some type =>
      simp [Decl.markup, Decl.subnodes, Decl.inside, Node.part, Node.id, Node.body, Decl.id,
        Decl.ident]
  | data id ident params ctors =>
    simp [Decl.markup, Decl.subnodes, Decl.inside, Node.part, Node.id, Node.body, Decl.id,
      Decl.ident, List.flatMap_map]

@[simp] theorem Import.parts_markup (i : Import) : i.markup.parts = [(Node.imported i).part] := by
  simp [Import.markup, Node.part, Node.id, Node.body]

@[simp] theorem Export.parts_markup (e : Export) : e.markup.parts = [(Node.exported e).part] := by
  cases e with
  | decl id ident => simp [Export.markup, Node.part, Node.id, Node.body, Export.id]
  | reexport id target => simp [Export.markup, Node.part, Node.id, Node.body, Export.id]

/-- **The printer marks all nodes of a module, with their texts, and nothing else.** -/
theorem Module.parts_markup (m : Module) : m.markup.parts = m.subnodes.map Node.part := by
  have himports : m.imports.flatMap (fun i => [(Node.imported i).part]) =
      (m.imports.map Node.imported).map Node.part := by
    rw [List.map_map, List.map_eq_flatMap]
    rfl
  have hexports : m.exports.flatMap (fun e => [(Node.exported e).part]) =
      (m.exports.map Node.exported).map Node.part := by
    rw [List.map_map, List.map_eq_flatMap]
    rfl
  simp only [Module.markup, Module.lines, Module.header, Markup.parts_concat, List.flatMap_map,
    List.flatMap_cons, List.flatMap_append, Markup.parts_append, Markup.parts_text,
    Markup.parts_node, Namespace.parts_markup, Import.parts_markup, Export.parts_markup,
    Decl.parts_markup, List.append_nil, himports, hexports, subnodes, inside, List.map_cons,
    List.map_append, List.map_flatMap, List.nil_append]
  rfl

/-- The ids of the nodes are those that the module lists. -/
theorem Module.map_id_subnodes (m : Module) : m.subnodes.map Node.id = m.nodes := by
  have hparts := congrArg (List.map Prod.fst) m.parts_markup
  rw [List.map_map] at hparts
  rw [← m.nodes_markup, Markup.nodes, Markup.marked_eq_map_parts, List.map_map]
  exact hparts.symm

theorem Ty.toText_listMarkup (types : List Ty) :
    (Ty.listMarkup types).toText =
      String.join (types.map fun type => " " ++ type.markup.toText) := by
  induction types with
  | nil => rfl
  | cons type rest ih =>
    rw [List.map_cons, String.join_cons, ← ih]
    rfl

/-- Without its mark a node shows its text. -/
theorem Node.toText_body (n : Node) : n.body.toText = n.text := by
  cases n with
  | header m => rfl
  | imported i => rfl
  | exported e => cases e <;> rfl
  | decl d => rfl
  | ctor c =>
    show c.label ++ (Ty.listMarkup c.fields).toText = _
    rw [Ty.toText_listMarkup, text]
  | expr e => cases e <;> rfl
  | pattern p => cases p <;> rfl
  | type t => cases t <;> rfl

/-- **Inside the text of a term the nodes inside it are marked**, and nothing else. -/
theorem Node.parts_body {n : Node} (h : n.IsTerm) : n.body.parts = n.inside.map Node.part := by
  cases n with
  | header m => cases h
  | imported i => cases h
  | exported e => cases h
  | decl d => cases h
  | ctor c => exact Ty.parts_listMarkup c.fields
  | expr e =>
    have hmarkup : e.markup = .node e.id e.markup.body := by cases e <;> rfl
    have hparts := e.parts_markup
    rw [hmarkup, Markup.parts_node] at hparts
    exact List.append_cancel_right hparts
  | pattern p =>
    have hmarkup : p.markup = .node p.id p.markup.body := by cases p <;> rfl
    have hparts := p.parts_markup
    rw [hmarkup, Markup.parts_node] at hparts
    exact List.append_cancel_right (hparts.trans (List.nil_append _).symm)
  | type t =>
    have hmarkup : t.markup = .node t.id t.markup.body := by cases t <;> rfl
    have hparts := t.parts_markup
    rw [hmarkup, Markup.parts_node] at hparts
    exact List.append_cancel_right hparts

end NameResolution
