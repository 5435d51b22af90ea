import PhpLint.Proofs.Constant.Agreement
import Mathlib.Logic.Relation

/-! A reference may be replaced by its definition, read in the namespace of the definition. The two
evaluations start with different constants in progress, so on a cycle they cut off different references
and expand the constant a different number of times; they agree because the expansion is a fixed point of
the definitions. Along a chain of references only its two ends have to stay within the depth bound. -/
namespace PhpLint.Constant

inductive Unfolds (t : Table) : String × Expr → String × Expr → Prop where
  | reference {scope n key d} (r : Range) (found : t.resolve? scope n = some (key, d)) :
      Unfolds t (scope, .constant r n) (d.scope, d.expr)

theorem expandedReference {t : Table} {scope key : String} {n : Name} {d : Definition} (r : Range)
    (found : t.resolve? scope n = some (key, d)) :
    expanded t scope (.constant r n) = expanded t d.scope d.expr := by
  have read : expanded t scope (.constant r n) = expand t [] key := by
    simp only [expanded, Expr.valueWith, Expr.evaluate, Table.read, found]
    rfl
  rw [read, expandFixed List.not_mem_nil (Table.resolvedAt found), expanded]

theorem expandedChain {t : Table} {start finish : String × Expr}
    (chain : Relation.TransGen (Unfolds t) start finish) :
    expanded t start.1 start.2 = expanded t finish.1 finish.2 := by
  induction chain with
  | single step =>
    cases step with
    | reference r found => exact expandedReference r found
  | tail _ step ih =>
    cases step with
    | reference r found => exact ih.trans (expandedReference r found)

theorem foldExpanded {t : Table} {scope : String} {e : Expr}
    (running : (run t scope e).2.exhausted = false) : fold t scope e = expanded t scope e :=
  (foldBelowExpanded t scope e).antisymm (expandedBelowFold running)

theorem referenceUnfolds (t : Table) :
    (∀ scope n key d r, t.resolve? scope n = some (key, d) →
      (run t scope (.constant r n)).2.exhausted = false →
      (run t d.scope d.expr).2.exhausted = false →
      fold t scope (.constant r n) = fold t d.scope d.expr) ∧
    ∀ start finish, Relation.TransGen (Unfolds t) start finish →
      (run t start.1 start.2).2.exhausted = false → (run t finish.1 finish.2).2.exhausted = false →
      fold t start.1 start.2 = fold t finish.1 finish.2 := by
  constructor
  · intro scope n key d r found reference definition
    rw [foldExpanded reference, foldExpanded definition, expandedReference r found]
  · intro start finish chain first last
    rw [foldExpanded first, foldExpanded last, expandedChain chain]

def linkedBody : Expr :=
  .binary .synthetic .boolOr (.constant .synthetic ⟨["N", "P"], true⟩)
    (.constant .synthetic ⟨["true"], false⟩)

def linked : Table :=
  (Table.empty.define "\\N\\P" (.constant .synthetic ⟨["Q"], false⟩) "N").define "Q" linkedBody ""

theorem linkedUnfolds :
    linked.resolve? "N" ⟨["P"], false⟩ =
      some ("\\N\\P", ⟨.constant .synthetic ⟨["Q"], false⟩, "N"⟩) ∧
    linked.resolve? "N" ⟨["Q"], false⟩ = some ("\\Q", ⟨linkedBody, ""⟩) ∧
    fold linked "N" (.constant .synthetic ⟨["Q"], false⟩) = fold linked "" linkedBody ∧
    fold linked "N" (.constant .synthetic ⟨["P"], false⟩) = fold linked "" linkedBody := by
  have first : linked.resolve? "N" ⟨["P"], false⟩ =
      some ("\\N\\P", ⟨.constant .synthetic ⟨["Q"], false⟩, "N"⟩) := by rfl
  have second : linked.resolve? "N" ⟨["Q"], false⟩ = some ("\\Q", ⟨linkedBody, ""⟩) := by rfl
  have chain : Relation.TransGen (Unfolds linked) ("N", .constant .synthetic ⟨["P"], false⟩)
      ("", linkedBody) := .tail (.single (.reference .synthetic first)) (.reference .synthetic second)
  have body : (run linked "" linkedBody).2.exhausted = false := by decide +kernel
  refine ⟨first, second, ?_, ?_⟩
  · exact (referenceUnfolds linked).1 _ _ _ _ .synthetic second (by decide +kernel) body
  · exact (referenceUnfolds linked).2 _ _ chain (by decide +kernel) body

end PhpLint.Constant
