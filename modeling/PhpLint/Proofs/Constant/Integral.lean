import PhpLint.Proofs.Constant.Operands

/-! Integer arithmetic without wrapping. `Integral` expressions are made of integer literals, signs,
complements, sums and differences; `Exact` gives them the value that they have among all integers. Folding
finds that value exactly when it and those of all parts fit a word. A part that does not fit becomes a float,
and no operator of the fragment leads from a float back to an integer. -/
namespace PhpLint
open Number (inWord word?)

def UnaryOp.exact? : UnaryOp → Option (Int → Int)
  | .minus => some fun x => -x
  | .plus => some fun x => x
  | .complement => some fun x => -x - 1
  | .not => none

def BinaryOp.exact? : BinaryOp → Option (Int → Int → Int)
  | .plus => some fun x y => x + y
  | .minus => some fun x y => x - y
  | _ => none

namespace Expr

inductive Integral : Expr → Prop where
  | literal (r : Range) (raw : String) : Integral (.integer r raw)
  | argument {r e spread byRef} (inner : Integral e) : Integral (.argument r e spread byRef)
  | unary {r op f e} (rule : UnaryOp.exact? op = some f) (inner : Integral e) : Integral (.unary r op e)
  | binary {r op f lhs rhs} (rule : BinaryOp.exact? op = some f) (left : Integral lhs)
      (right : Integral rhs) : Integral (.binary r op lhs rhs)

inductive Exact : Expr → Int → Prop where
  | literal {r raw w} (read : Literal.integer? raw = some w) : Exact (.integer r raw) w.toInt
  | argument {r e spread byRef x} (inner : Exact e x) : Exact (.argument r e spread byRef) x
  | unary {r op f e x} (rule : UnaryOp.exact? op = some f) (inner : Exact e x) :
      Exact (.unary r op e) (f x)
  | binary {r op f lhs rhs x y} (rule : BinaryOp.exact? op = some f) (left : Exact lhs x)
      (right : Exact rhs y) : Exact (.binary r op lhs rhs) (f x y)

inductive Occurs : Expr → Expr → Prop where
  | self (e : Expr) : Occurs e e
  | argument {s r e spread byRef} (inner : Occurs s e) : Occurs s (.argument r e spread byRef)
  | unary {s r op e} (inner : Occurs s e) : Occurs s (.unary r op e)
  | left {s r op lhs rhs} (inner : Occurs s lhs) : Occurs s (.binary r op lhs rhs)
  | right {s r op lhs rhs} (inner : Occurs s rhs) : Occurs s (.binary r op lhs rhs)

def Readable (e : Expr) : Prop :=
  ∀ r raw, Occurs (.integer r raw) e → ∃ w, Literal.integer? raw = some w

structure Within (e : Expr) : Prop where
  readable : Readable e
  fits : ∀ s x, Occurs s e → Exact s x → inWord x

theorem Occurs.trans {s e whole : Expr} (first : Occurs s e) (second : Occurs e whole) : Occurs s whole := by
  induction second with
  | self => exact first
  | argument _ ih => exact .argument ih
  | unary _ ih => exact .unary ih
  | left _ ih => exact .left ih
  | right _ ih => exact .right ih

theorem Within.part {s e : Expr} (within : Within e) (part : Occurs s e) : Within s :=
  ⟨fun r raw inner => within.readable r raw (inner.trans part),
    fun u x inner => within.fits u x (inner.trans part)⟩

theorem Exact.unique {e : Expr} {x y : Int} (first : Exact e x) (second : Exact e y) : x = y := by
  induction first generalizing y with
  | literal read =>
    cases second with
    | literal again => rw [Option.some.inj (read.symm.trans again)]
  | argument inner ih =>
    cases second with
    | argument other => exact ih other
  | unary rule inner ih =>
    cases second with
    | unary again other =>
      cases Option.some.inj (rule.symm.trans again)
      rw [ih other]
  | binary rule left right ihLeft ihRight =>
    cases second with
    | binary again one two =>
      cases Option.some.inj (rule.symm.trans again)
      rw [ihLeft one, ihRight two]

theorem Integral.hasValue {e : Expr} (integral : Integral e) (readable : Readable e) : ∃ x, Exact e x := by
  induction integral with
  | literal r raw =>
    obtain ⟨w, read⟩ := readable r raw (.self _)
    exact ⟨w.toInt, .literal read⟩
  | argument inner ih =>
    obtain ⟨x, exact⟩ := ih fun r raw part => readable r raw (.argument part)
    exact ⟨x, .argument exact⟩
  | unary rule inner ih =>
    obtain ⟨x, exact⟩ := ih fun r raw part => readable r raw (.unary part)
    exact ⟨_, .unary rule exact⟩
  | binary rule left right ihLeft ihRight =>
    obtain ⟨x, first⟩ := ihLeft fun r raw part => readable r raw (.left part)
    obtain ⟨y, second⟩ := ihRight fun r raw part => readable r raw (.right part)
    exact ⟨_, .binary rule first second⟩

theorem Within.ofParts {e : Expr} {x : Int} (exact : Exact e x) (fits : inWord x)
    (parts : ∀ s, Occurs s e → s = e ∨ ∃ inner, Occurs s inner ∧ Within inner) : Within e := by
  constructor
  · intro r raw part
    rcases parts _ part with rfl | ⟨inner, inside, within⟩
    · cases exact with
      | literal read => exact ⟨_, read⟩
    · exact within.readable r raw inside
  · intro s y part other
    rcases parts s part with rfl | ⟨inner, inside, within⟩
    · rw [other.unique exact]
      exact fits
    · exact within.fits s y inside other

end Expr

namespace Value

/- No integer, and nothing that the operators of the fragment turn into one. -/
inductive Inexact : Value → Prop where
  | float (x : Float) : Inexact (float x)
  | unknown : Inexact unknown

inductive Holds (exact : Int) : Value → Prop where
  | word {n} (same : n.toInt = exact) : Holds exact (int n)
  | beyond {v} (inexact : Inexact v) (large : ¬ inWord exact) : Holds exact v

theorem ofExactHolds (exact : Int) (rounded : Float) : Holds exact (ofExact exact rounded) := by
  unfold ofExact
  split
  · exact .word (Number.wordToInt ‹_›)
  · exact .beyond (.float rounded) (Number.wordNone.mp ‹_›)

end Value

open Value (Inexact Holds)

theorem UnaryOp.applyHolds {op : UnaryOp} {f : Int → Int} (rule : op.exact? = some f) (n : Int64) :
    Holds (f n.toInt) (op.apply (.int n)) := by
  cases op with
  | not => contradiction
  | minus =>
    cases rule
    exact Value.ofExactHolds _ _
  | plus =>
    cases rule
    exact .word rfl
  | complement =>
    cases rule
    have least := n.le_toInt
    have most := n.toInt_lt
    exact .word ((Int64.toInt_not n).trans (Int.bmod_eq_of_le (by omega) (by omega)))

theorem BinaryOp.applyHolds {op : BinaryOp} {f : Int → Int → Int} (rule : op.exact? = some f)
    (m n : Int64) : Holds (f m.toInt n.toInt) (op.apply (.int m) (.int n)) := by
  cases op with
  | plus | minus =>
    cases rule
    exact Value.ofExactHolds _ _
  | _ => contradiction

theorem UnaryOp.applyInexact {op : UnaryOp} {f : Int → Int} (rule : op.exact? = some f) {v : Value}
    (inexact : Inexact v) : Inexact (op.apply v) := by
  cases inexact with
  | unknown =>
    rw [UnaryOp.applyUnknown]
    exact .unknown
  | float x =>
    cases op with
    | not => contradiction
    | minus => exact .float _
    | plus => exact .float x
    | complement => exact .unknown

theorem BinaryOp.applyInexact {op : BinaryOp} {f : Int → Int → Int} (rule : op.exact? = some f)
    {u v : Value} (inexact : Inexact u ∨ Inexact v) : Inexact (op.apply u v) := by
  cases op with
  | plus | minus =>
    -- Two floats give a float; a float with anything else has no value here.
    rcases inexact with left | right
    · cases left <;> cases v <;> constructor
    · cases right <;> cases u <;> constructor
  | _ => contradiction

namespace Expr

inductive Outcome (e : Expr) : Value → Prop where
  | exact {n : Int64} (value : Exact e n.toInt) (within : Within e) : Outcome e (.int n)
  | lost {v} (inexact : Inexact v) (beyond : ¬ Within e) : Outcome e v

theorem Outcome.ofHolds {e : Expr} {x : Int} {v : Value} (exact : Exact e x) (holds : Holds x v)
    (parts : ∀ s, Occurs s e → s = e ∨ ∃ inner, Occurs s inner ∧ Within inner) : Outcome e v := by
  cases holds with
  | @word n same =>
    subst same
    exact .exact exact (.ofParts exact ⟨n.le_toInt, n.toInt_lt⟩ parts)
  | beyond inexact large => exact .lost inexact fun within => large (within.fits e x (.self e) exact)

theorem Outcome.unary {r : Range} {op : UnaryOp} {f : Int → Int} (rule : op.exact? = some f) {e : Expr}
    {v : Value} (outcome : Outcome e v) : Outcome (.unary r op e) (op.apply v) := by
  cases outcome with
  | exact value within =>
    refine .ofHolds (.unary rule value) (op.applyHolds rule _) ?_
    intro s part
    cases part with
    | self => exact .inl rfl
    | unary inner => exact .inr ⟨e, inner, within⟩
  | lost inexact beyond =>
    exact .lost (op.applyInexact rule inexact) fun within => beyond (within.part (.unary (.self e)))

theorem Outcome.binary {r : Range} {op : BinaryOp} {f : Int → Int → Int} (rule : op.exact? = some f)
    {lhs rhs : Expr} {u v : Value} (left : Outcome lhs u) (right : Outcome rhs v) :
    Outcome (.binary r op lhs rhs) (op.apply u v) := by
  cases left with
  | lost inexact beyond =>
    exact .lost (op.applyInexact rule (.inl inexact)) fun within => beyond (within.part (.left (.self _)))
  | exact value within =>
    cases right with
    | lost inexact beyond =>
      exact .lost (op.applyInexact rule (.inr inexact)) fun within => beyond (within.part (.right (.self _)))
    | exact value' within' =>
      refine .ofHolds (.binary rule value value') (op.applyHolds rule _ _) ?_
      intro s part
      cases part with
      | self => exact .inl rfl
      | left inner => exact .inr ⟨lhs, inner, within⟩
      | right inner => exact .inr ⟨rhs, inner, within'⟩

theorem Outcome.argument {r : Range} {spread byRef : Bool} {e : Expr} {v : Value} (outcome : Outcome e v) :
    Outcome (.argument r e spread byRef) v := by
  cases outcome with
  | @exact n value within =>
    refine .ofHolds (.argument value) (.word rfl) ?_
    intro s part
    cases part with
    | self => exact .inl rfl
    | argument inner => exact .inr ⟨e, inner, within⟩
  | lost inexact beyond => exact .lost inexact fun within => beyond (within.part (.argument (.self e)))

theorem Outcome.literal (r : Range) (raw : String) :
    Outcome (.integer r raw) ((Literal.integer? raw).elim .unknown .int) := by
  cases read : Literal.integer? raw with
  | none =>
    refine .lost .unknown fun within => ?_
    obtain ⟨w, other⟩ := within.readable r raw (.self _)
    rw [read] at other
    contradiction
  | some w =>
    refine .ofHolds (.literal read) (.word rfl) ?_
    intro s part
    cases part with
    | self => exact .inl rfl

theorem Integral.outcome {e : Expr} (integral : Integral e) (values : Name → Value) :
    Outcome e (e.valueWith values) := by
  induction integral with
  | literal r raw => exact .literal r raw
  | argument inner ih => exact .argument ih
  | unary rule inner ih => exact .unary rule ih
  | binary rule left right ihLeft ihRight => exact .binary rule ihLeft ihRight

theorem Integral.asksNothing {e : Expr} (integral : Integral e) : e.references = [] := by
  induction integral with
  | literal r raw => rfl
  | argument inner ih => exact ih
  | unary rule inner ih => exact ih
  | binary rule left right ihLeft ihRight => rw [references, ihLeft, ihRight, List.nil_append]

end Expr

namespace Constant
open PhpLint.Expr (Integral Exact Occurs Readable Within Outcome)

theorem foldIntegral {e : Expr} (integral : Integral e) (t : Table) (scope : String) :
    Outcome e (fold t scope e) := by
  have lacks : t.Lacks scope e := by
    intro n asked
    rw [integral.asksNothing] at asked
    contradiction
  rw [fold, run, evaluateLacking lacks]
  exact integral.outcome Name.builtin

theorem foldIntegerIff {e : Expr} (integral : Integral e) (t : Table) (scope : String) (n : Int64) :
    fold t scope e = .int n ↔ Within e ∧ Exact e n.toInt := by
  have outcome := foldIntegral integral t scope
  generalize fold t scope e = v at outcome
  cases outcome with
  | @exact m value within =>
    constructor
    · intro same
      cases same
      exact ⟨within, value⟩
    · rintro ⟨-, other⟩
      rw [Int64.toInt_inj.mp (value.unique other)]
  | lost inexact beyond =>
    constructor
    · rintro rfl
      cases inexact
    · rintro ⟨within, -⟩
      exact absurd within beyond

theorem integersFoldExactly {e : Expr} (integral : Integral e) (t : Table) (scope : String) :
    (Readable e → ∃! x, Exact e x) ∧
    (∀ n, fold t scope e = .int n ↔ Within e ∧ Exact e n.toInt) ∧
    ∀ s x, Occurs s e → Exact s x → ¬ inWord x → ∀ n, fold t scope e ≠ .int n := by
  refine ⟨?_, foldIntegerIff integral t scope, ?_⟩
  · intro readable
    obtain ⟨x, exact⟩ := integral.hasValue readable
    exact ⟨x, exact, fun y other => other.unique exact⟩
  · intro s x part exact large n same
    obtain ⟨within, -⟩ := (foldIntegerIff integral t scope n).mp same
    exact large (within.fits s x part exact)

def least : Expr :=
  .binary .synthetic .minus (.unary .synthetic .minus (.integer .synthetic "9223372036854775807"))
    (.unary .synthetic .plus (.integer .synthetic "1"))

def beyondLeast : Expr := .unary .synthetic .complement (.unary .synthetic .minus least)

theorem leastFoldsExactly :
    fold .empty "" least = .int (-0x8000000000000000) ∧ Within least ∧ Exact least (-0x8000000000000000) ∧
    ∀ n, fold .empty "" beyondLeast ≠ .int n := by
  have integral : Integral least :=
    .binary rfl (.unary rfl (.literal _ _)) (.unary rfl (.literal _ _))
  have folded : fold .empty "" least = .int (-0x8000000000000000) := by rfl
  obtain ⟨within, exact⟩ := ((integersFoldExactly integral .empty "").2.1 _).mp folded
  have longer : Integral beyondLeast := .unary rfl (.unary rfl integral)
  obtain ⟨-, -, beyond⟩ := integersFoldExactly longer .empty ""
  refine ⟨folded, within, exact, beyond _ _ (.unary (.self _)) (.unary rfl exact) ?_⟩
  decide

end Constant
end PhpLint
