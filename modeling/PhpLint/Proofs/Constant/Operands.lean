import PhpLint.Proofs.Constant.Depth
import PhpLint.Proofs.Constant.Frame
import PhpLint.Proofs.Value.Commutation

/-! Operators are evaluated operand by operand, but both operands share one state: what is remembered from
the left one shortens the chains of the right one, and a chain that is cut on the left keeps the right one
from entering any constant. While nothing is cut this makes no difference, since every evaluation finds the
expansion then, which has no state. A cut can lose a known result, but not change it. -/
namespace PhpLint
open Value (Below)

theorem Expr.evaluatePure {m : Type → Type} [Monad m] [LawfulMonad m] (values : Name → Value)
    (e : Expr) : e.evaluate (fun n => (pure (values n) : m Value)) = pure (e.valueWith values) := by
  induction e using evaluationInduction with
  | argument r e spread byRef ih => exact ih
  | unary r op e ih =>
    simp only [evaluate, ih, pure_bind]
    rfl
  | binary r op lhs rhs left right =>
    simp only [evaluate, left, right, pure_bind]
    rfl
  | constant r n => rfl
  | fixed e v same =>
    rw [valueWith, same, same]
    rfl

namespace Constant

def Table.Lacks (t : Table) (scope : String) (e : Expr) : Prop :=
  ∀ n ∈ e.references, t.resolve? scope n = none

theorem evaluateLacking {t : Table} {scope : String} {e : Expr} (lacks : t.Lacks scope e) (room : Nat)
    (path : List Frame) (s : Resolution) :
    e.evaluate (resolveAt t room path scope) s = (e.valueWith Name.builtin, s) := by
  have reads : ∀ n ∈ e.references, resolveAt t room path scope n = pure n.builtin := by
    intro n asked
    funext s
    rw [resolveAt]
    simp only [lacks n asked]
    rfl
  rw [Expr.evaluateCongr reads, Expr.evaluatePure]
  rfl

/- Two ways of finding a value. A way that is not cut finds whatever the other one finds, and no two ways
find different known values. -/
structure Consistent (uncut uncut' : Prop) (x y : Value) : Prop where
  fromFirst : uncut → Below y x
  fromSecond : uncut' → Below x y
  known : x ≠ .unknown → y ≠ .unknown → x = y

theorem Consistent.ofBelow {uncut uncut' : Prop} {x y z : Value} (first : Below x z)
    (second : Below y z) (all : uncut → Below z x) (all' : uncut' → Below z y) :
    Consistent uncut uncut' x y := by
  refine ⟨fun ok => second.trans (all ok), fun ok => first.trans (all' ok), ?_⟩
  intro here there
  rw [first.eqOfKnown here, second.eqOfKnown there]

theorem Consistent.equal {uncut uncut' : Prop} {x y : Value} (both : Consistent uncut uncut' x y)
    (ok : uncut) (ok' : uncut') : x = y := (both.fromSecond ok').antisymm (both.fromFirst ok)

section
variable (t : Table) (scope : String) (range : Range) (op : BinaryOp) (lhs rhs : Expr)

theorem runBinary : (run t scope (.binary range op lhs rhs)).2 =
    (rhs.evaluate (resolveAt t maxDepth [] scope) (run t scope lhs).2).2 := rfl

theorem foldBinary : fold t scope (.binary range op lhs rhs) = op.apply (fold t scope lhs)
    (rhs.evaluate (resolveAt t maxDepth [] scope) (run t scope lhs).2).1 := rfl

theorem expandedBinary : expanded t scope (.binary range op lhs rhs) =
    op.apply (expanded t scope lhs) (expanded t scope rhs) := rfl

theorem uncutLeft (uncut : Uncut t scope (.binary range op lhs rhs)) : Uncut t scope lhs := by
  have stacked : Stacked [] := fun f member => by contradiction
  have right := evaluateBounded (resolveBounded t maxDepth [] scope stacked) rhs _
    (runBounded t scope lhs).sound
  rw [Uncut, runBinary] at uncut
  rw [Uncut, ← Bool.not_eq_true]
  intro cut
  rw [right.later.exhausted cut] at uncut
  contradiction

theorem foldApart : Consistent (Uncut t scope (.binary range op lhs rhs))
    (Uncut t scope lhs ∧ Uncut t scope rhs) (fold t scope (.binary range op lhs rhs))
    (op.apply (fold t scope lhs) (fold t scope rhs)) := by
  refine .ofBelow (foldBelowExpanded t scope _) ?_ (fun ok => expandedBelowFold ok) ?_
  · rw [expandedBinary]
    exact op.applyMono (foldBelowExpanded t scope lhs) (foldBelowExpanded t scope rhs)
  · intro both
    rw [expandedBinary]
    exact op.applyMono (expandedBelowFold both.1) (expandedBelowFold both.2)

theorem foldSwapped (commutes : op ∈ BinaryOp.commuting) :
    Consistent (Uncut t scope (.binary range op lhs rhs)) (Uncut t scope (.binary range op rhs lhs))
      (fold t scope (.binary range op lhs rhs)) (fold t scope (.binary range op rhs lhs)) := by
  have same : expanded t scope (.binary range op rhs lhs) = expanded t scope (.binary range op lhs rhs) := by
    rw [expandedBinary, expandedBinary, BinaryOp.applyComm commutes]
  refine .ofBelow (foldBelowExpanded t scope _) ?_ (fun ok => expandedBelowFold ok) ?_
  · rw [← same]
    exact foldBelowExpanded t scope _
  · intro ok
    rw [← same]
    exact expandedBelowFold ok

theorem foldLacking (lacks : t.Lacks scope lhs ∨ t.Lacks scope rhs) :
    fold t scope (.binary range op lhs rhs) = op.apply (fold t scope lhs) (fold t scope rhs) := by
  rw [foldBinary]
  rcases lacks with left | right
  · have unchanged : (run t scope lhs).2 = .start := by rw [run, evaluateLacking left]
    rw [unchanged]
    rfl
  · have value : fold t scope rhs = rhs.valueWith Name.builtin := by
      rw [fold, run, evaluateLacking right]
    rw [evaluateLacking right, value]

end

theorem foldComposes (t : Table) (scope : String) (range : Range) (op : BinaryOp) (lhs rhs : Expr) :
    let whole := Expr.binary range op lhs rhs
    let swapped := Expr.binary range op rhs lhs
    let apart := op.apply (fold t scope lhs) (fold t scope rhs)
    ((Uncut t scope whole ∧ Uncut t scope rhs) ∨ t.Lacks scope lhs ∨ t.Lacks scope rhs →
      fold t scope whole = apart) ∧
    Consistent (Uncut t scope whole) (Uncut t scope lhs ∧ Uncut t scope rhs) (fold t scope whole) apart ∧
    (op ∈ BinaryOp.commuting →
      ((Uncut t scope whole ∧ Uncut t scope swapped) ∨ t.Lacks scope lhs ∨ t.Lacks scope rhs →
        fold t scope whole = fold t scope swapped) ∧
      Consistent (Uncut t scope whole) (Uncut t scope swapped) (fold t scope whole)
        (fold t scope swapped)) ∧
    (t.size ≤ maxDepth → ∀ e, Uncut t scope e) := by
  have apart := foldApart t scope range op lhs rhs
  refine ⟨?_, apart, ?_, fun small e => uncutSmall small scope e⟩
  · rintro (⟨whole, right⟩ | lacks)
    · exact apart.equal whole ⟨uncutLeft t scope range op lhs rhs whole, right⟩
    · exact foldLacking t scope range op lhs rhs lacks
  · intro commutes
    have swapped := foldSwapped t scope range op lhs rhs commutes
    refine ⟨?_, swapped⟩
    rintro (⟨whole, other⟩ | lacks)
    · exact swapped.equal whole other
    · rw [foldLacking t scope range op lhs rhs lacks, foldLacking t scope range op rhs lhs lacks.symm,
        BinaryOp.applyComm commutes]

theorem crossedComposes :
    let x : Expr := .constant .synthetic ⟨["X"], false⟩
    let y : Expr := .constant .synthetic ⟨["Y"], false⟩
    let literal : Expr := .constant .synthetic ⟨["true"], false⟩
    Uncut crossed "" (.binary .synthetic .boolAnd y x) ∧
    fold crossed "" (.binary .synthetic .boolAnd x y) = Value.and (fold crossed "" x) (fold crossed "" y) ∧
    fold crossed "" (.binary .synthetic .boolAnd x y) = fold crossed "" (.binary .synthetic .boolAnd y x) ∧
    crossed.Lacks "" literal ∧
    fold crossed "" (.binary .synthetic .boolOr x literal) =
      Value.or (fold crossed "" x) (fold crossed "" literal) := by
  intro x y literal
  obtain ⟨composes, -, swaps, uncut⟩ := foldComposes crossed "" .synthetic .boolAnd x y
  have small : crossed.size ≤ maxDepth := by decide +kernel
  have lacks : crossed.Lacks "" literal := by
    intro n asked
    cases List.mem_singleton.mp asked
    rfl
  refine ⟨uncut small _, composes (.inl ⟨uncut small _, uncut small _⟩), ?_, lacks, ?_⟩
  · exact (swaps (by decide)).1 (.inl ⟨uncut small _, uncut small _⟩)
  · exact (foldComposes crossed "" .synthetic .boolOr x literal).1 (.inr (.inr lacks))

theorem orTrue {x : Value} (holds : x.toBool? = some true) (y : Value) :
    BinaryOp.boolOr.apply x y = .bool true := by
  rw [BinaryOp.apply, Value.or, holds]

theorem foldAfterCut {t : Table} {scope key : String} {lhs : Expr} {n : Name} {d : Definition}
    (cut : Resolution.start.Cut (run t scope lhs)) (found : t.resolve? scope n = some (key, d))
    (range r : Range) (op : BinaryOp) :
    fold t scope (.binary range op lhs (.constant r n)) = op.apply .unknown .unknown := by
  have missing : (run t scope lhs).2.memo[key]? = none := by
    rw [cut.memo]
    simp [Resolution.start]
  have left : fold t scope lhs = .unknown := cut.value
  have right : ((Expr.constant r n).evaluate (resolveAt t maxDepth [] scope) (run t scope lhs).2).1 =
      .unknown := resolveRefused found missing cut.exhausted
  rw [foldBinary, left, right]

theorem chainOr {i n : Nat} (inside : i < n) (long : maxDepth ≤ i) :
    fold (chain n) "" (.binary .synthetic .boolOr (linkRead i) (linkRead 0)) = .unknown ∧
    fold (chain n) "" (.binary .synthetic .boolOr (linkRead 0) (linkRead i)) = .bool true ∧
    BinaryOp.boolOr.apply (fold (chain n) "" (linkRead i)) (fold (chain n) "" (linkRead 0)) =
      .bool true := by
  have first : 0 < n := Nat.zero_lt_of_lt inside
  have value : fold (chain n) "" (linkRead 0) = .int 1 := chainFold first
  have holds : (Value.int 1).toBool? = some true := rfl
  refine ⟨?_, ?_, ?_⟩
  · exact foldAfterCut (chainRunCut inside long) (chainResolves first) .synthetic .synthetic .boolOr
  · rw [foldBinary, value, orTrue holds]
  · rw [BinaryOp.applyComm (by decide), value, orTrue holds]

theorem chainOrderMatters :
    fold (chain 257) "" (.binary .synthetic .boolOr (linkRead 256) (linkRead 0)) ≠
      BinaryOp.boolOr.apply (fold (chain 257) "" (linkRead 256)) (fold (chain 257) "" (linkRead 0)) ∧
    fold (chain 257) "" (.binary .synthetic .boolOr (linkRead 256) (linkRead 0)) ≠
      fold (chain 257) "" (.binary .synthetic .boolOr (linkRead 0) (linkRead 256)) := by
  have inside : 256 < 257 := by decide
  have long : maxDepth ≤ 256 := Nat.le_refl 256
  obtain ⟨first, second, apart⟩ := chainOr inside long
  constructor
  · rw [first, apart]
    simp
  · rw [first, second]
    simp

end Constant
end PhpLint
