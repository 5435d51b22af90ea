import PhpLint.Proofs.Constant.Operands
import PhpLint.Proofs.Value.Order
import PhpLint.Rule.Check

/-! Reports about two tests of one operand. Where a logical expression does not fold, it is reported when
the bounds of its tests cannot both be met, or cannot both be missed. The report is right for every operand
that stands in both tests: no operand makes the whole fold to the other boolean. The bounds are folded one
by one for the report and within a single evaluation for the whole, where a chain may be cut, but a bound
that is known on its own has no other known value there. -/
namespace PhpLint
open Value (Below)

namespace Value

theorem andTrue {x y : Value} (holds : and x y = bool true) :
    x.toBool? = some true ∧ y.toBool? = some true := by
  unfold and at holds
  split at holds
  · cases holds
  · cases holds
  · rename_i first second
    exact ⟨first, second⟩
  · contradiction

theorem orFalse {x y : Value} (fails : or x y = bool false) :
    x.toBool? = some false ∧ y.toBool? = some false := by
  unfold or at fails
  split at fails
  · cases fails
  · cases fails
  · rename_i first second
    exact ⟨first, second⟩
  · contradiction

theorem notFalse {x : Value} (fails : (not x).toBool? = some false) : x.toBool? = some true := by
  unfold not at fails
  split at fails
  · rename_i b known
    have holds : b = true := by simpa [toBool?] using fails
    rw [known, holds]
  · contradiction

end Value

theorem BinaryOp.conjunctionTrue {op : BinaryOp} (both : op.isConjunction = true) {x y : Value}
    (holds : op.apply x y = .bool true) : x.toBool? = some true ∧ y.toBool? = some true := by
  cases op <;> first | exact Value.andTrue holds | contradiction

theorem BinaryOp.disjunctionFalse {op : BinaryOp} (either : op.isDisjunction = true) {x y : Value}
    (fails : op.apply x y = .bool false) : x.toBool? = some false ∧ y.toBool? = some false := by
  cases op <;> first | exact Value.orFalse fails | contradiction

namespace Rule.Condition

structure Test where
  range : Range
  op : BinaryOp
  bound : Expr

def Test.of (t : Test) (operand : Expr) : Expr := .binary t.range t.op operand t.bound

/- Two tests joined by a logical operator that cannot give the other value: no operand lies below the
first bound and above the second, none is equal to both, and every one differs from one of them. -/
inductive Clash (ctx : Context) : BinaryOp → Test → Test → Bool → Prop where
  | apart {op r s a b} (both : op.isConjunction = true)
      (below : Value.less (ctx.fold a) (ctx.fold b) = .bool true) :
      Clash ctx op ⟨r, .smaller, a⟩ ⟨s, .greater, b⟩ false
  | different {op r s a b} (both : op.isConjunction = true)
      (unequal : Value.identical (ctx.fold a) (ctx.fold b) = .bool false) :
      Clash ctx op ⟨r, .equal, a⟩ ⟨s, .equal, b⟩ false
  | spread {op r s a b} (either : op.isDisjunction = true)
      (unequal : Value.identical (ctx.fold a) (ctx.fold b) = .bool false) :
      Clash ctx op ⟨r, .notEqual, a⟩ ⟨s, .notEqual, b⟩ true

structure Pair (ctx : Context) (cond : Expr) where
  range : Range
  op : BinaryOp
  left : Test
  right : Test
  first : Expr
  second : Expr
  value : Bool
  text : cond = .binary range op (left.of first) (right.of second)
  same : first.sameSimple second = true
  clash : Clash ctx op left right value

def Pair.testing {ctx : Context} {cond : Expr} (p : Pair ctx cond) (operand : Expr) : Expr :=
  .binary p.range p.op (p.left.of operand) (p.right.of operand)

theorem conflictIff {ctx : Context} {lop rop : BinaryOp} {compare : Value → Value → Value}
    {expected : Bool} {lhs rhs : Expr} : conflict ctx lop rop compare expected lhs rhs = true ↔
      ∃ r x a s y b, lhs = .binary r lop x a ∧ rhs = .binary s rop y b ∧ x.sameSimple y = true ∧
        compare (ctx.fold a) (ctx.fold b) = .bool expected := by
  constructor
  · intro found
    unfold conflict at found
    split at found
    · rename_i a b tests
      unfold bounds? at tests
      split at tests
      · split at tests
        · rename_i same
          obtain ⟨rfl, rfl, simple⟩ := same
          cases Option.some.inj tests
          exact ⟨_, _, _, _, _, _, rfl, rfl, simple, Constant.eqOfSameBool found⟩
        · contradiction
      · contradiction
    · contradiction
  · rintro ⟨r, x, a, s, y, b, rfl, rfl, simple, compared⟩
    simp only [conflict, bounds?, simple, compared, and_self, if_true]
    cases expected <;> rfl

theorem conjunctionSource {ctx : Context} {range : Range} {op : BinaryOp} {lhs rhs : Expr}
    (both : op.isConjunction = true) {d : Diagnostic}
    (reported : d ∈ conjunction ctx (.binary range op lhs rhs) lhs rhs) :
    ∃ p : Pair ctx (.binary range op lhs rhs), d = always ctx (.binary range op lhs rhs) p.value := by
  unfold conjunction at reported
  rcases List.mem_append.mp reported with apart | different
  · split at apart
    · rename_i found
      obtain ⟨r, x, a, s, y, b, rfl, rfl, same, below⟩ := conflictIff.mp found
      exact ⟨⟨range, op, ⟨r, .smaller, a⟩, ⟨s, .greater, b⟩, x, y, false, rfl, same,
        .apart both below⟩, List.mem_singleton.mp apart⟩
    · contradiction
  · split at different
    · rename_i found
      obtain ⟨r, x, a, s, y, b, rfl, rfl, same, unequal⟩ := conflictIff.mp found
      exact ⟨⟨range, op, ⟨r, .equal, a⟩, ⟨s, .equal, b⟩, x, y, false, rfl, same,
        .different both unequal⟩, List.mem_singleton.mp different⟩
    · contradiction

theorem disjunctionSource {ctx : Context} {range : Range} {op : BinaryOp} {lhs rhs : Expr}
    (either : op.isDisjunction = true) {d : Diagnostic}
    (reported : d ∈ disjunction ctx (.binary range op lhs rhs) lhs rhs) :
    ∃ p : Pair ctx (.binary range op lhs rhs), d = always ctx (.binary range op lhs rhs) p.value := by
  unfold disjunction at reported
  dsimp only at reported
  split at reported
  · rename_i found
    obtain ⟨r, x, a, s, y, b, rfl, rfl, same, unequal⟩ := conflictIff.mp found
    exact ⟨⟨range, op, ⟨r, .notEqual, a⟩, ⟨s, .notEqual, b⟩, x, y, true, rfl, same,
      .spread either unequal⟩, List.mem_singleton.mp reported⟩
  · contradiction

theorem reportSource {ctx : Context} {cond : Expr} (unfolded : known? ctx cond = none) {d : Diagnostic}
    (reported : d ∈ checkExpr ctx cond) : ∃ p : Pair ctx cond, d = always ctx cond p.value := by
  unfold checkExpr at reported
  split at reported
  · rename_i range op lhs rhs
    simp only [folded, unfolded] at reported
    split at reported
    · contradiction
    · split at reported
      · rename_i both
        exact conjunctionSource both reported
      · split at reported
        · rename_i either
          exact disjunctionSource either reported
        · contradiction
  · contradiction

theorem conjunctionChecked {ctx : Context} {range : Range} {op : BinaryOp} {lhs rhs : Expr}
    (both : op.isConjunction = true) (unfolded : known? ctx (.binary range op lhs rhs) = none) :
    checkExpr ctx (.binary range op lhs rhs) =
      conjunction ctx (.binary range op lhs rhs) lhs rhs := by
  have other : op.isComparison = false := by cases op <;> first | rfl | contradiction
  simp [checkExpr, other, both, unfolded]

theorem disjunctionChecked {ctx : Context} {range : Range} {op : BinaryOp} {lhs rhs : Expr}
    (either : op.isDisjunction = true) (unfolded : known? ctx (.binary range op lhs rhs) = none) :
    checkExpr ctx (.binary range op lhs rhs) =
      disjunction ctx (.binary range op lhs rhs) lhs rhs := by
  have other : op.isComparison = false ∧ op.isConjunction = false := by
    cases op <;> first | exact ⟨rfl, rfl⟩ | contradiction
  simp [checkExpr, other, either, unfolded]

theorem pairReported {ctx : Context} {cond : Expr} (unfolded : known? ctx cond = none)
    (p : Pair ctx cond) : always ctx cond p.value ∈ checkExpr ctx cond := by
  obtain ⟨range, op, left, right, x, y, value, rfl, same, clash⟩ := p
  have found {compare : Value → Value → Value} {expected : Bool}
      (compared : compare (ctx.fold left.bound) (ctx.fold right.bound) = .bool expected) :
      conflict ctx left.op right.op compare expected (left.of x) (right.of y) = true :=
    conflictIff.mpr ⟨left.range, x, left.bound, right.range, y, right.bound, rfl, rfl, same, compared⟩
  cases clash with
  | apart both below => simp [conjunctionChecked both unfolded, conjunction, found below]
  | different both unequal => simp [conjunctionChecked both unfolded, conjunction, found unequal]
  | spread either unequal => simp [disjunctionChecked either unfolded, disjunction, found unequal]

theorem Clash.known {ctx : Context} {op : BinaryOp} {left right : Test} {value : Bool}
    (clash : Clash ctx op left right value) :
    ctx.fold left.bound ≠ .unknown ∧ ctx.fold right.bound ≠ .unknown := by
  cases clash with
  | apart both below => exact Value.relationKnown below
  | different both unequal =>
    rw [Value.identicalRelation] at unequal
    exact Value.relationKnown unequal
  | spread either unequal =>
    rw [Value.identicalRelation] at unequal
    exact Value.relationKnown unequal

theorem Clash.decided {ctx : Context} {op : BinaryOp} {left right : Test} {value : Bool}
    (clash : Clash ctx op left right value) (x : Value) :
    op.apply (left.op.apply x (ctx.fold left.bound)) (right.op.apply x (ctx.fold right.bound)) ≠
      .bool (!value) := by
  intro opposite
  have same {b : Bool} {y : Value} (known : (Value.identical x y).toBool? = some b) :
      Value.identical x y = .bool b := by
    rw [Value.identicalRelation] at known ⊢
    exact Value.relationBool known
  cases clash with
  | apart both below =>
    obtain ⟨first, second⟩ := BinaryOp.conjunctionTrue both opposite
    exact Value.noneBetween (Value.relationBool first) (Value.relationBool second) below
  | different both unequal =>
    obtain ⟨first, second⟩ := BinaryOp.conjunctionTrue both opposite
    have equal := Value.identicalTrans (same first) (same second)
    cases equal.symm.trans unequal
  | spread either unequal =>
    obtain ⟨first, second⟩ := BinaryOp.disjunctionFalse either opposite
    have equal := Value.identicalTrans (same (Value.notFalse first)) (same (Value.notFalse second))
    cases equal.symm.trans unequal

theorem Clash.holds {ctx : Context} {op : BinaryOp} {left right : Test} {value : Bool}
    (clash : Clash ctx op left right value) (range : Range) (operand : Expr) :
    ctx.fold (.binary range op (left.of operand) (right.of operand)) ≠ .bool (!value) := by
  -- What is known by folding is known by expansion too, and that has no state: the bounds have the
  -- values with which the report was made, and the operand has one value in both tests.
  have expanded {e : Expr} (known : ctx.fold e ≠ .unknown) :
      Constant.expanded ctx.table ctx.scope e = ctx.fold e :=
    ((Constant.foldBelowExpanded ctx.table ctx.scope e).eqOfKnown known).symm
  intro opposite
  have whole := expanded (by rw [opposite]; simp : ctx.fold (.binary range op (left.of operand)
    (right.of operand)) ≠ .unknown)
  rw [opposite, Test.of, Test.of, Constant.expandedBinary, Constant.expandedBinary,
    Constant.expandedBinary, expanded clash.known.1, expanded clash.known.2] at whole
  exact clash.decided _ whole

theorem contradictionsHold (ctx : Context) (cond : Expr) (unfolded : known? ctx cond = none) :
    (∀ d, d ∈ checkExpr ctx cond ↔ ∃ p : Pair ctx cond, d = always ctx cond p.value) ∧
    ∀ p : Pair ctx cond,
      (p.op.isConjunction = true ∧ p.value = false ∨ p.op.isDisjunction = true ∧ p.value = true) ∧
      ∀ operand, ctx.fold (p.testing operand) ≠ .bool (!p.value) := by
  refine ⟨fun d => ⟨reportSource unfolded, ?_⟩, fun p => ⟨?_, p.clash.holds p.range⟩⟩
  · rintro ⟨p, rfl⟩
    exact pairReported unfolded p
  · obtain ⟨range, op, left, right, x, y, value, text, same, clash⟩ := p
    cases clash with
    | apart both below => exact .inl ⟨both, rfl⟩
    | different both unequal => exact .inl ⟨both, rfl⟩
    | spread either unequal => exact .inr ⟨either, rfl⟩

def low : Expr := .constant .synthetic ⟨["LOW"], false⟩

def high : Expr := .constant .synthetic ⟨["HIGH"], false⟩

def limits : Context where
  file := "a.php"
  table := (Constant.Table.empty.define "LOW" (.integer .synthetic "100") "").define "HIGH"
    (.binary .synthetic .plus low (.integer .synthetic "100")) ""
  scope := "N"

def outside (operand : Expr) : Expr :=
  .binary .synthetic .boolAnd (.binary .synthetic .smaller operand low)
    (.binary .synthetic .greater operand high)

theorem outsideNeverHolds :
    known? limits (outside (.var .synthetic "x")) = none ∧
    always limits (outside (.var .synthetic "x")) false ∈
      checkExpr limits (outside (.var .synthetic "x")) ∧
    ∀ operand, limits.fold (outside operand) ≠ .bool true := by
  have unfolded : known? limits (outside (.var .synthetic "x")) = none := by decide +kernel
  have below : Value.less (limits.fold low) (limits.fold high) = .bool true :=
    Constant.eqOfSameBool (by decide +kernel)
  let tests : Pair limits (outside (.var .synthetic "x")) :=
    ⟨.synthetic, .boolAnd, ⟨.synthetic, .smaller, low⟩, ⟨.synthetic, .greater, high⟩,
      .var .synthetic "x", .var .synthetic "x", false, rfl, by decide, .apart rfl below⟩
  obtain ⟨reports, holds⟩ := contradictionsHold limits _ unfolded
  exact ⟨unfolded, (reports _).mpr ⟨tests, rfl⟩, (holds tests).2⟩

end Rule.Condition
end PhpLint
