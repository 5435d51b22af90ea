import PhpLint.Constant.Evaluate

/-! Values ordered by what is known of them: `unknown` lies below every value and the known values
are apart. Every operator is monotone in this order, also the logical ones, which may decide their
result from one operand; so the value of an expression is monotone in the values of its
constants. -/
namespace PhpLint
namespace Value

def Below (x y : Value) : Prop := x = unknown ∨ x = y

theorem unknownBelow (x : Value) : Below unknown x := .inl rfl

theorem Below.refl (x : Value) : Below x x := .inr rfl

theorem Below.trans {x y z : Value} (first : Below x y) (second : Below y z) : Below x z := by
  rcases first with rfl | rfl
  · exact unknownBelow z
  · exact second

theorem Below.antisymm {x y : Value} (there : Below x y) (back : Below y x) : x = y := by
  rcases there with rfl | same
  · rcases back with rfl | same
    · rfl
    · exact same.symm
  · exact same

theorem Below.eqOfKnown {x y : Value} (below : Below x y) (known : x ≠ unknown) : x = y :=
  below.resolve_left known

theorem Below.unknownOf {x : Value} (below : Below x unknown) : x = unknown := below.elim id id

theorem orComm (x y : Value) : or x y = or y x := by
  unfold or
  rcases x.toBool? with _ | _ | _ <;> rcases y.toBool? with _ | _ | _ <;> rfl

theorem andComm (x y : Value) : and x y = and y x := by
  unfold and
  rcases x.toBool? with _ | _ | _ <;> rcases y.toBool? with _ | _ | _ <;> rfl

theorem bitwiseUnknown (op : Int64 → Int64 → Int64) (x : Value) :
    bitwise op x unknown = unknown := by
  unfold bitwise
  rcases x.toInt? with _ | _ <;> rfl

theorem orUnknown (y : Value) : or unknown y = unknown ∨ ∀ x, or x y = or unknown y := by
  unfold or
  rcases y.toBool? with _ | _ | _
  · exact .inl rfl
  · exact .inl rfl
  · right
    intro x
    rcases x.toBool? with _ | _ | _ <;> rfl

theorem andUnknown (y : Value) : and unknown y = unknown ∨ ∀ x, and x y = and unknown y := by
  unfold and
  rcases y.toBool? with _ | _ | _
  · exact .inl rfl
  · right
    intro x
    rcases x.toBool? with _ | _ | _ <;> rfl
  · exact .inl rfl

end Value

open Value (Below unknownBelow)

theorem UnaryOp.applyUnknown (op : UnaryOp) : op.apply .unknown = .unknown := by
  cases op <;> rfl

theorem BinaryOp.leftUnknown (op : BinaryOp) (y : Value) :
    op.apply .unknown y = .unknown ∨ ∀ x, op.apply x y = op.apply .unknown y := by
  cases op
  case boolOr => exact Value.orUnknown y
  case wordOr => exact Value.orUnknown y
  case boolAnd => exact Value.andUnknown y
  case wordAnd => exact Value.andUnknown y
  all_goals left; cases y <;> rfl

theorem BinaryOp.rightUnknown (op : BinaryOp) (x : Value) :
    op.apply x .unknown = .unknown ∨ ∀ y, op.apply x y = op.apply x .unknown := by
  cases op
  case boolOr => simpa only [apply, Value.orComm x] using Value.orUnknown x
  case wordOr => simpa only [apply, Value.orComm x] using Value.orUnknown x
  case boolAnd => simpa only [apply, Value.andComm x] using Value.andUnknown x
  case bitOr => exact .inl (Value.bitwiseUnknown _ x)
  case bitAnd => exact .inl (Value.bitwiseUnknown _ x)
  case wordAnd => simpa only [apply, Value.andComm x] using Value.andUnknown x
  all_goals left; cases x <;> rfl

theorem UnaryOp.applyMono (op : UnaryOp) {x y : Value} (below : Below x y) :
    Below (op.apply x) (op.apply y) := by
  rcases below with rfl | rfl
  · rw [applyUnknown]
    exact unknownBelow _
  · exact .refl _

theorem BinaryOp.applyMono (op : BinaryOp) {x₁ y₁ x₂ y₂ : Value} (left : Below x₁ y₁)
    (right : Below x₂ y₂) : Below (op.apply x₁ x₂) (op.apply y₁ y₂) := by
  have first : Below (op.apply x₁ x₂) (op.apply y₁ x₂) := by
    rcases left with rfl | rfl
    · rcases op.leftUnknown x₂ with none | decided
      · rw [none]
        exact unknownBelow _
      · exact .inr (decided y₁).symm
    · exact .refl _
  have second : Below (op.apply y₁ x₂) (op.apply y₁ y₂) := by
    rcases right with rfl | rfl
    · rcases op.rightUnknown y₁ with none | decided
      · rw [none]
        exact unknownBelow _
      · exact .inr (decided y₂).symm
    · exact .refl _
  exact first.trans second

namespace Expr

def valueWith (values : Name → Value) (e : Expr) : Value := Id.run (e.evaluate values)

/- Evaluation looks below argument wrappers and operators only and asks for constants; every other
expression has a value of its own, whatever the constants are. -/
@[elab_as_elim]
theorem evaluationInduction {motive : Expr → Prop}
    (argument : ∀ r e spread byRef, motive e → motive (.argument r e spread byRef))
    (unary : ∀ r op e, motive e → motive (.unary r op e))
    (binary : ∀ r op lhs rhs, motive lhs → motive rhs → motive (.binary r op lhs rhs))
    (constant : ∀ r n, motive (.constant r n))
    (fixed : ∀ e v, (∀ {m : Type → Type} [Monad m] (read : Name → m Value),
      e.evaluate read = pure v) → motive e) (e : Expr) : motive e := by
  induction e using Expr.evaluate.induct with
  | case1 r e spread byRef ih => exact argument r e spread byRef ih
  | case5 r op e ih => exact unary r op e ih
  | case6 r op lhs rhs left right => exact binary r op lhs rhs left right
  | case7 r n => exact constant r n
  | _ => exact fixed _ _ fun _ => rfl

theorem valueWithMono {lower upper : Name → Value} (below : ∀ n, Below (lower n) (upper n))
    (e : Expr) : Below (e.valueWith lower) (e.valueWith upper) := by
  induction e using evaluationInduction with
  | argument r e spread byRef ih => exact ih
  | unary r op e ih => exact op.applyMono ih
  | binary r op lhs rhs left right => exact op.applyMono left right
  | constant r n => exact below n
  | fixed e v same =>
    simp only [valueWith, same]
    exact .refl _

end Expr
end PhpLint
