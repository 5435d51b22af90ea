import PhpLint.Proofs.Constant.Lookup
import PhpLint.Proofs.Tree.Same

/-! Evaluation reads the reachable part of a table only. `Table.Tries` says which keys that part has: the
keys tried for the references of an expression and, in their own namespaces, for those of the
definitions that are reached. Two tables that agree there, up to ranges, evaluate the expression in lock
step: every reference leaves the same memo, floor and mark of exhaustion behind, so this also holds where
constants are cyclic or a chain is cut. -/
namespace PhpLint
namespace Expr

def references : Expr → List Name
  | .argument _ e _ _ => e.references
  | .unary _ _ e => e.references
  | .binary _ _ lhs rhs => lhs.references ++ rhs.references
  | .constant _ n => [n]
  | _ => []

theorem evaluateCongr {m : Type → Type} [Monad m] {read other : Name → m Value} {e : Expr}
    (same : ∀ n ∈ e.references, read n = other n) : e.evaluate read = e.evaluate other := by
  induction e using evaluationInduction with
  | argument r e spread byRef ih => exact ih same
  | unary r op e ih => simp only [evaluate, ih same]
  | binary r op lhs rhs left right =>
    have first := left fun n asked => same n (List.mem_append_left _ asked)
    have second := right fun n asked => same n (List.mem_append_right _ asked)
    simp only [evaluate, first, second]
  | constant r n => exact same n (List.mem_singleton.mpr rfl)
  | fixed e v value => rw [value, value]

theorem evaluateErased {m : Type → Type} [Monad m] (read : Name → m Value) (e : Expr) :
    e.erased.evaluate read = e.evaluate read := by
  induction e using Expr.evaluate.induct with
  | case1 r e spread byRef ih => exact ih
  | case5 r op e ih => simp only [erased, evaluate, ih]
  | case6 r op lhs rhs left right => simp only [erased, evaluate, left, right]
  -- All other shapes have a value of their own, which no range enters.
  | _ => rfl

theorem evaluateSame {m : Type → Type} [Monad m] (read : Name → m Value) {e other : Expr}
    (same : e.same other = true) : e.evaluate read = other.evaluate read := by
  rw [← evaluateErased read e, (sameErased e other).mp same, evaluateErased]

end Expr

namespace Constant

structure Definition.Same (d other : Definition) : Prop where
  expr : d.expr.same other.expr = true
  scope : d.scope = other.scope

theorem Definition.sameOption (d : Option Definition) : Option.Rel Definition.Same d d := by
  cases d with
  | none => exact .none
  | some d => exact .some ⟨d.expr.sameRefl, rfl⟩

namespace Table

inductive Tries (t : Table) : String → Expr → String → Prop where
  | asked {scope e n key} (reference : n ∈ e.references) (tried : key ∈ t.tried scope n) :
      Tries t scope e key
  | reached {scope e n found d key} (reference : n ∈ e.references)
      (resolved : t.resolve? scope n = some (found, d)) (inside : Tries t d.scope d.expr key) :
      Tries t scope e key

def Agrees (t other : Table) (scope : String) (e : Expr) : Prop :=
  ∀ key, t.Tries scope e key → Option.Rel Definition.Same (t.at? key) (other.at? key)

theorem Agrees.resolves {t other : Table} {scope : String} {e : Expr} {n : Name}
    (agrees : t.Agrees other scope e) (reference : n ∈ e.references) :
    (t.resolve? scope n = none ∧ other.resolve? scope n = none) ∨
    ∃ key d d', t.resolve? scope n = some (key, d) ∧ other.resolve? scope n = some (key, d') ∧
      d.Same d' :=
  resolveRelated fun key tried => agrees key (.asked reference tried)

theorem Agrees.inside {t other : Table} {scope found : String} {e : Expr} {n : Name} {d : Definition}
    (agrees : t.Agrees other scope e) (reference : n ∈ e.references)
    (resolved : t.resolve? scope n = some (found, d)) : t.Agrees other d.scope d.expr :=
  fun key tries => agrees key (.reached reference resolved tries)

end Table

theorem resolveFrame {t other : Table} {scope : String} {e : Expr} {n : Name}
    (agrees : t.Agrees other scope e) (reference : n ∈ e.references) (room : Nat) (path : List Frame) :
    resolveAt t room path scope n = resolveAt other room path scope n := by
  induction room generalizing scope e n path with
  | zero =>
    funext s
    rcases agrees.resolves reference with ⟨here, there⟩ | ⟨key, d, d', here, there, same⟩
    · simp only [resolveAt, here, there]
    · simp only [resolveAt, here, there]
  | succ room ih =>
    funext s
    rcases agrees.resolves reference with ⟨here, there⟩ | ⟨key, d, d', here, there, same⟩
    · simp only [resolveAt, here, there]
    · have body (path : List Frame) : d.expr.evaluate (resolveAt t room path d.scope) =
          d'.expr.evaluate (resolveAt other room path d'.scope) := by
        rw [← same.scope, ← Expr.evaluateSame _ same.expr]
        exact Expr.evaluateCongr fun n asked => ih (agrees.inside reference here) asked path
      -- All that follows, the memo and the floor included, is computed from this result.
      simp only [resolveAt, here, there, body]

theorem runFrame {t other : Table} {scope : String} {e : Expr} (agrees : t.Agrees other scope e) :
    run t scope e = run other scope e :=
  congrFun (Expr.evaluateCongr fun _ reference => resolveFrame agrees reference maxDepth []) .start

theorem foldReadsReachable {t other : Table} {scope : String} {e : Expr}
    (agree : ∀ key, t.Tries scope e key → Option.Rel Definition.Same (t.at? key) (other.at? key)) :
    fold t scope e = fold other scope e := congrArg Prod.fst (runFrame agree)

def looped : Expr :=
  .binary .synthetic .boolOr (.constant .synthetic ⟨["A"], false⟩)
    (.constant .synthetic ⟨["true"], false⟩)

def loop : Table := Table.empty.define "A" looped ""

theorem loopTries {scope key : String} {e : Expr} (tries : loop.Tries scope e key)
    (inside : scope ∈ ["N", ""])
    (names : ∀ n ∈ e.references, n ∈ [(⟨["A"], false⟩ : Name), ⟨["true"], false⟩]) :
    key ≠ "\\M\\A" := by
  induction tries with
  | asked reference tried =>
    have others : ∀ scope ∈ ["N", ""], ∀ n ∈ [(⟨["A"], false⟩ : Name), ⟨["true"], false⟩],
        ∀ key ∈ candidates scope n, key ≠ "\\M\\A" := by decide +kernel
    exact others _ inside _ (names _ reference) _ (List.mem_of_mem_take tried)
  | reached reference resolved tries ih =>
    have defined := Table.resolvedAt resolved
    rw [loop, Table.atDefine, emptyAt] at defined
    split at defined
    · cases defined
      exact ih (by decide +kernel) (by decide +kernel)
    · cases defined

theorem loopReadsReachable :
    (∀ key, loop.Tries "N" (.constant .synthetic ⟨["A"], false⟩) key →
      Option.Rel Definition.Same (loop.at? key)
        ((loop.define "\\M\\A" (.integer .synthetic "0") "M").at? key)) ∧
    fold loop "N" (.constant .synthetic ⟨["A"], false⟩) =
      fold (loop.define "\\M\\A" (.integer .synthetic "0") "M") "N"
        (.constant .synthetic ⟨["A"], false⟩) := by
  have agree : ∀ key, loop.Tries "N" (.constant .synthetic ⟨["A"], false⟩) key →
      Option.Rel Definition.Same (loop.at? key)
        ((loop.define "\\M\\A" (.integer .synthetic "0") "M").at? key) := by
    intro key tries
    have other : key ≠ qualify "" "\\M\\A" := loopTries tries (by decide +kernel) (by decide +kernel)
    rw [Table.atDefine _ "\\M\\A", if_neg other]
    exact Definition.sameOption _
  exact ⟨agree, foldReadsReachable agree⟩

end Constant
end PhpLint
