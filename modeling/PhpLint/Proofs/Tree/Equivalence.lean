import PhpLint.Proofs.Constant.Frame
import Mathlib.Logic.Basic
import Mathlib.Logic.Relation

/-! What the two comparisons of trees mean. `sameSimple` accepts the pairs of equal trees whose shape is
`Simple`, and no other pair; `equivalent` accepts exactly the pairs of equal trees, since a simple pair is
one of them. Equal trees fold to the same value in every table and namespace. -/
namespace PhpLint

namespace Expr

inductive Simple : Expr → Prop where
  | var (r : Range) (name : String) : Simple (.var r name)
  | identifier (r : Range) (text : String) : Simple (.identifier r text)
  | integer (r : Range) (raw : String) : Simple (.integer r raw)
  | dynamicVar {r name} (inner : Simple name) : Simple (.dynamicVar r name)
  | index {r base dim} (first : Simple base) (second : Simple dim) :
      Simple (.index r base (some dim))
  | argument {r value spread byRef} (inner : Simple value) :
      Simple (.argument r value spread byRef)
  | notEqual {r lhs rhs} (left : Simple lhs) (right : Simple rhs) :
      Simple (.binary r .notEqual lhs rhs)

theorem sameOfSimple {a b : Expr} (pair : a.sameSimple b = true) :
    a.same b = true ∧ a.Simple ∧ b.Simple := by
  fun_induction sameSimple a b with
  | case1 r x s b r' y t c ih =>
    simp only [Bool.and_eq_true] at pair
    obtain ⟨same, left, right⟩ := ih pair.2
    exact ⟨by simp [Expr.same, same, pair.1], .argument left, .argument right⟩
  | case2 r x₁ x₂ r' y₁ y₂ base dim =>
    simp only [Bool.and_eq_true] at pair
    obtain ⟨same₁, left₁, right₁⟩ := base pair.1
    obtain ⟨same₂, left₂, right₂⟩ := dim pair.2
    exact ⟨by simp [Expr.same, sameOption, same₁, same₂], .index left₁ left₂, .index right₁ right₂⟩
  | case3 r x r' y => exact ⟨pair, .var r x, .var r' y⟩
  | case4 r x r' y ih =>
    obtain ⟨same, left, right⟩ := ih pair
    exact ⟨same, .dynamicVar left, .dynamicVar right⟩
  | case5 r x r' y => exact ⟨pair, .identifier r x, .identifier r' y⟩
  | case6 r x r' y => exact ⟨pair, .integer r x, .integer r' y⟩
  | case7 r x₁ x₂ r' y₁ y₂ lhs rhs =>
    simp only [Bool.and_eq_true] at pair
    obtain ⟨same₁, left₁, right₁⟩ := lhs pair.1
    obtain ⟨same₂, left₂, right₂⟩ := rhs pair.2
    exact ⟨by simp [Expr.same, same₁, same₂], .notEqual left₁ left₂, .notEqual right₁ right₂⟩
  | case8 => contradiction

theorem simpleOfSame {a b : Expr} (simple : a.Simple) (same : a.same b = true) :
    a.sameSimple b = true := by
  induction simple generalizing b with
  | var r name => cases b <;> exact same
  | identifier r text => cases b <;> exact same
  | integer r raw => cases b <;> exact same
  | dynamicVar inner ih =>
    cases b with
    | dynamicVar r y => exact ih same
    | _ => contradiction
  | index first second base dim =>
    cases b with
    | index r y d =>
      cases d with
      | none => simp [Expr.same, sameOption] at same
      | some y' =>
        simp only [Expr.same, sameOption, Bool.and_eq_true] at same
        simp [sameSimple, base same.1, dim same.2]
    | _ => contradiction
  | argument inner ih =>
    cases b with
    | argument r y s c =>
      simp only [Expr.same, Bool.and_eq_true] at same
      simp [sameSimple, same.1.2, same.2, ih same.1.1]
    | _ => contradiction
  | notEqual left right first second =>
    cases b with
    | binary r op y y' =>
      simp only [Expr.same, Bool.and_eq_true, beq_iff_eq] at same
      obtain ⟨⟨rfl, same⟩, same'⟩ := same
      simp [sameSimple, first same, second same']
    | _ => contradiction

theorem sameSimpleIff (a b : Expr) : a.sameSimple b = true ↔ a.same b = true ∧ a.Simple := by
  constructor
  · intro pair
    obtain ⟨same, simple, -⟩ := sameOfSimple pair
    exact ⟨same, simple⟩
  · rintro ⟨same, simple⟩
    exact simpleOfSame simple same

theorem sameSimpleSymm {a b : Expr} (pair : a.sameSimple b = true) : b.sameSimple a = true := by
  obtain ⟨same, -, simple⟩ := sameOfSimple pair
  exact simpleOfSame simple ((sameErased b a).mpr ((sameErased a b).mp same).symm)

theorem sameSimpleTrans {a b c : Expr} (first : a.sameSimple b = true)
    (second : b.sameSimple c = true) : a.sameSimple c = true := by
  obtain ⟨same, simple, -⟩ := sameOfSimple first
  have next := (sameErased b c).mp (sameOfSimple second).1
  exact simpleOfSame simple ((sameErased a c).mpr (((sameErased a b).mp same).trans next))

theorem equivalentIff (a b : Expr) : a.equivalent b = true ↔ a.same b = true := by
  simp only [equivalent, Bool.or_eq_true]
  constructor
  · rintro (simple | same)
    · exact (sameOfSimple simple).1
    · exact same
  · exact .inr

theorem equivalentEquivalence : Equivalence fun a b : Expr => a.equivalent b = true := by
  simp only [equivalentIff, sameErased]
  exact eq_equivalence.comap erased

end Expr

namespace Stmt

theorem equivalentIff (a b : Stmt) : a.equivalent b = true ↔ a.same b = true := by
  simp only [equivalent, Bool.or_eq_true]
  constructor
  · rintro (simple | same)
    · split at simple
      · rw [same]
        exact (Expr.sameOfSimple simple).1
      · contradiction
    · exact same
  · exact .inr

theorem equivalentEquivalence : Equivalence fun a b : Stmt => a.equivalent b = true := by
  simp only [equivalentIff, sameErased]
  exact eq_equivalence.comap erased

end Stmt

theorem Constant.foldSame {a b : Expr} (same : a.same b = true) (t : Table) (scope : String) :
    fold t scope a = fold t scope b := by
  simp only [fold, run, Expr.evaluateSame _ same]

theorem comparisonsExact :
    (∀ a b : Expr, a.same b = true ↔ a.erased = b.erased) ∧
    (∀ a b : Stmt, a.same b = true ↔ a.erased = b.erased) ∧
    (∀ a b : Expr, a.sameSimple b = true ↔ a.same b = true ∧ a.Simple) ∧
    (∀ a b : Expr, a.sameSimple b = true → b.sameSimple a = true) ∧
    (∀ a b c : Expr, a.sameSimple b = true → b.sameSimple c = true → a.sameSimple c = true) ∧
    (∀ a b : Expr, a.sameSimple b = true →
      ∀ t scope, Constant.fold t scope a = Constant.fold t scope b) ∧
    (∀ a b : Expr, a.equivalent b = true ↔ a.same b = true) ∧
    (∀ a b : Stmt, a.equivalent b = true ↔ a.same b = true) ∧
    (Equivalence fun a b : Expr => a.equivalent b = true) ∧
    Equivalence fun a b : Stmt => a.equivalent b = true := by
  refine ⟨Expr.sameErased, Stmt.sameErased, Expr.sameSimpleIff, ?_, ?_, ?_, Expr.equivalentIff,
    Stmt.equivalentIff, Expr.equivalentEquivalence, Stmt.equivalentEquivalence⟩
  · intro a b pair
    exact Expr.sameSimpleSymm pair
  · intro a b c first second
    exact Expr.sameSimpleTrans first second
  · intro a b pair t scope
    exact Constant.foldSame (Expr.sameOfSimple pair).1 t scope

def unequal (r : Range) : Expr :=
  .binary r .notEqual (.index r (.dynamicVar r (.var r "x")) (some (.integer r "1"))) (.integer r "2")

theorem unequalCompared :
    (unequal (.point ⟨1, 4⟩)).sameSimple (unequal (.point ⟨9, 2⟩)) = true ∧
    (unequal (.point ⟨9, 2⟩)).sameSimple (unequal (.point ⟨1, 4⟩)) = true ∧
    (unequal (.point ⟨1, 4⟩)).sameSimple (unequal .synthetic) = true ∧
    Constant.fold .empty "" (unequal (.point ⟨1, 4⟩)) =
      Constant.fold .empty "" (unequal (.point ⟨9, 2⟩)) := by
  obtain ⟨-, -, -, symmetric, transitive, folds, -⟩ := comparisonsExact
  have first : (unequal (.point ⟨1, 4⟩)).sameSimple (unequal (.point ⟨9, 2⟩)) = true := by decide
  have second : (unequal (.point ⟨9, 2⟩)).sameSimple (unequal .synthetic) = true := by decide
  exact ⟨first, symmetric _ _ first, transitive _ _ _ first second, folds _ _ first .empty ""⟩

end PhpLint
