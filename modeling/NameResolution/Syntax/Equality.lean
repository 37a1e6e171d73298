import NameResolution.Syntax

/-!
# Deciding equality of syntax

Types and expressions hold lists of their own kind, so their comparison is written out: node ids,
identifiers and parts must agree, one by one.  `Ty.beq_iff` and `Expr.beq_iff` say that two values
compare as equal exactly if they are the same.
-/

namespace NameResolution

/-! ### Types -/

mutual

/-- Whether two types are the same. -/
def Ty.beq : Ty → Ty → Bool
  | .var i x, .var j y => i == j && x == y
  | .con i x as, .con j y bs => i == j && x == y && Ty.listBeq as bs
  | .arrow i p r, .arrow j q s => i == j && p.beq q && r.beq s
  | _, _ => false

/-- Whether two lists of types are the same. -/
def Ty.listBeq : List Ty → List Ty → Bool
  | [], [] => true
  | a :: as, b :: bs => a.beq b && Ty.listBeq as bs
  | _, _ => false

end

mutual

theorem Ty.beq_iff : (a b : Ty) → (a.beq b = true ↔ a = b)
  | .var _ _, b => by cases b <;> simp [Ty.beq]
  | .con _ _ as, b => by cases b <;> simp [Ty.beq, Ty.listBeq_iff as, and_assoc]
  | .arrow _ p r, b => by cases b <;> simp [Ty.beq, Ty.beq_iff p, Ty.beq_iff r, and_assoc]

theorem Ty.listBeq_iff : (as bs : List Ty) → (Ty.listBeq as bs = true ↔ as = bs)
  | [], bs => by cases bs <;> simp [Ty.listBeq]
  | a :: as, bs => by cases bs <;> simp [Ty.listBeq, Ty.beq_iff a, Ty.listBeq_iff as]

end

instance : DecidableEq Ty := fun a b => decidable_of_iff _ (Ty.beq_iff a b)

/-! ### Expressions -/

mutual

/-- Whether two expressions are the same. -/
def Expr.beq : Expr → Expr → Bool
  | .lit i v, .lit j w => i == j && v == w
  | .var i x, .var j y => i == j && x == y
  | .app i f a, .app j g b => i == j && f.beq g && a.beq b
  | .lambda i x e, .lambda j y f => i == j && x == y && e.beq f
  | .annot i e t, .annot j f u => i == j && e.beq f && t == u
  | .letIn i x e b, .letIn j y f c => i == j && x == y && e.beq f && b.beq c
  | .ifThenElse i c t e, .ifThenElse j d u f => i == j && c.beq d && t.beq u && e.beq f
  | .matchWith i s as, .matchWith j t bs => i == j && s.beq t && Arm.listBeq as bs
  | _, _ => false

/-- Whether two arms are the same. -/
def Arm.beq : Arm → Arm → Bool
  | ⟨p, e⟩, ⟨q, f⟩ => p == q && e.beq f

/-- Whether two lists of arms are the same. -/
def Arm.listBeq : List Arm → List Arm → Bool
  | [], [] => true
  | a :: as, b :: bs => a.beq b && Arm.listBeq as bs
  | _, _ => false

end

mutual

theorem Expr.beq_iff : (a b : Expr) → (a.beq b = true ↔ a = b)
  | .lit _ _, b => by cases b <;> simp [Expr.beq]
  | .var _ _, b => by cases b <;> simp [Expr.beq]
  | .app _ f a, b => by cases b <;> simp [Expr.beq, Expr.beq_iff f, Expr.beq_iff a, and_assoc]
  | .lambda _ _ e, b => by cases b <;> simp [Expr.beq, Expr.beq_iff e, and_assoc]
  | .annot _ e _, b => by cases b <;> simp [Expr.beq, Expr.beq_iff e, and_assoc]
  | .letIn _ _ e c, b => by cases b <;> simp [Expr.beq, Expr.beq_iff e, Expr.beq_iff c, and_assoc]
  | .ifThenElse _ c t e, b => by
    cases b <;> simp [Expr.beq, Expr.beq_iff c, Expr.beq_iff t, Expr.beq_iff e, and_assoc]
  | .matchWith _ s as, b => by
    cases b <;> simp [Expr.beq, Expr.beq_iff s, Arm.listBeq_iff as, and_assoc]

theorem Arm.beq_iff : (a b : Arm) → (a.beq b = true ↔ a = b)
  | ⟨_, e⟩, ⟨_, f⟩ => by simp [Arm.beq, Expr.beq_iff e f]

theorem Arm.listBeq_iff : (as bs : List Arm) → (Arm.listBeq as bs = true ↔ as = bs)
  | [], bs => by cases bs <;> simp [Arm.listBeq]
  | a :: as, bs => by cases bs <;> simp [Arm.listBeq, Arm.beq_iff a, Arm.listBeq_iff as]

end

instance : DecidableEq Expr := fun a b => decidable_of_iff _ (Expr.beq_iff a b)

instance : DecidableEq Arm := fun a b => decidable_of_iff _ (Arm.beq_iff a b)

/-! ### Modules -/

deriving instance DecidableEq for Constructor, Decl, Module, Program

end NameResolution
