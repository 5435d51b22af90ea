import PhpLint.Proofs.Constant.Agreement
import PhpLint.Proofs.Constant.Lookup
import Mathlib.Data.List.Forall2

/-! A known result does not depend on the unknown parts. `Filled` puts arbitrary expressions in the place
of variables, at any depth, in an expression and in the definitions of a table. A new part may bring in
constants and close cycles that were not there before; but the expansion is monotone in what the parts
are known to be, so a value that was found without them stays. -/
namespace PhpLint
open Value (Below unknownBelow)

namespace Expr

inductive Filled : Expr → Expr → Prop where
  | static (r : Range) (name : String) (e : Expr) : Filled (.var r name) e
  | dynamic (r : Range) (name e : Expr) : Filled (.dynamicVar r name) e
  | kept (e : Expr) : Filled e e
  | classConstant {r owner owner' member} (inner : Filled owner owner') :
      Filled (.classConstant r owner member) (.classConstant r owner' member)
  | unary {r op e e'} (inner : Filled e e') : Filled (.unary r op e) (.unary r op e')
  | binary {r op lhs lhs' rhs rhs'} (left : Filled lhs lhs') (right : Filled rhs rhs') :
      Filled (.binary r op lhs rhs) (.binary r op lhs' rhs')
  | ternary {r c c' t t' e e'} (cond : Filled c c') (whenTrue : Option.Rel Filled t t')
      (whenFalse : Filled e e') : Filled (.ternary r c t e) (.ternary r c' t' e')
  | assign {r t t' v v'} (target : Filled t t') (value : Filled v v') :
      Filled (.assign r t v) (.assign r t' v')
  | index {r b b' d d'} (base : Filled b b') (dim : Option.Rel Filled d d') :
      Filled (.index r b d) (.index r b' d')
  | property {r o o' m m'} (object : Filled o o') (member : Filled m m') :
      Filled (.property r o m) (.property r o' m')
  | array {r es es'} (items : List.Forall₂ Filled es es') : Filled (.array r es) (.array r es')
  | call {r f f' es es'} (callee : Filled f f') (args : List.Forall₂ Filled es es') :
      Filled (.call r f es) (.call r f' es')
  | argument {r e e' spread byRef} (inner : Filled e e') :
      Filled (.argument r e spread byRef) (.argument r e' spread byRef)

theorem Filled.valueMono {lower upper : Name → Value} (below : ∀ n, Below (lower n) (upper n))
    {e e' : Expr} (filled : e.Filled e') : Below (e.valueWith lower) (e'.valueWith upper) := by
  cases filled with
  | kept => exact valueWithMono below e
  | unary inner => exact UnaryOp.applyMono _ (inner.valueMono below)
  | binary left right => exact BinaryOp.applyMono _ (left.valueMono below) (right.valueMono below)
  | argument inner => exact inner.valueMono below
  -- No other shape has a value, so what is filled in there is not looked at.
  | _ => exact unknownBelow _

end Expr

namespace Constant

structure Definition.Filled (d d' : Definition) : Prop where
  expr : d.expr.Filled d'.expr
  scope : d.scope = d'.scope

def Table.Filled (t t' : Table) : Prop :=
  ∀ key, Option.Rel Definition.Filled (t.at? key) (t'.at? key)

theorem readFilled {t t' : Table} (tables : t.Filled t') {lower upper : String → Value}
    (below : ∀ key, Below (lower key) (upper key)) (scope : String) (n : Name) :
    Below (t.read lower scope n) (t'.read upper scope n) := by
  rcases Table.resolveRelated fun key (_ : key ∈ t.tried scope n) => tables key with
    ⟨here, there⟩ | ⟨key, d, d', here, there, _⟩
  · simp only [Table.read, here, there]
    exact .refl _
  · simp only [Table.read, here, there]
    exact below key

theorem expandFilled {t t' : Table} (tables : t.Filled t') (active : List String) (key : String) :
    Below (expand t active key) (expand t' active key) := by
  induction active, key using expand.induct t with
  | case1 active key member =>
    rw [expandActive member]
    exact unknownBelow _
  | case2 active key fresh absent =>
    rw [expandUndefined absent]
    exact unknownBelow _
  | case3 active key fresh d found smaller ih =>
    have filled := tables key
    rw [found] at filled
    generalize there : t'.at? key = definition at filled
    cases filled with
    | some both =>
      rw [expandDefined fresh found, expandDefined fresh there, ← both.scope]
      exact both.expr.valueMono (readFilled tables ih d.scope)

theorem expandedFilled {t t' : Table} (tables : t.Filled t') {e e' : Expr} (filled : e.Filled e')
    (scope : String) : Below (expanded t scope e) (expanded t' scope e') :=
  filled.valueMono (readFilled tables (expandFilled tables []) scope)

theorem knownFoldStays {t t' : Table} (tables : t.Filled t') {e e' : Expr} (filled : e.Filled e')
    {scope : String} {v : Value} (folded : fold t scope e = v) (known : v ≠ .unknown)
    (running : (run t' scope e').2.exhausted = false) : fold t' scope e' = v := by
  have below : Below (fold t scope e) (fold t' scope e') :=
    ((foldBelowExpanded t scope e).trans (expandedFilled tables filled scope)).trans
      (expandedBelowFold running)
  rw [folded] at below
  exact (below.eqOfKnown known).symm

def guarded (part : Expr) : Table :=
  Table.empty.define "A" (.binary .synthetic .boolOr part (.constant .synthetic ⟨["true"], false⟩)) ""

def guardedOr (part : Expr) : Expr :=
  .binary .synthetic .boolOr (.unary .synthetic .not part) (.constant .synthetic ⟨["A"], false⟩)

theorem guardedFilled {part part' : Expr} (filled : part.Filled part') :
    (guarded part).Filled (guarded part') := by
  intro key
  rw [guarded, guarded, Table.atDefine, Table.atDefine]
  split
  · exact .some ⟨.binary filled (.kept _), rfl⟩
  · rw [emptyAt]
    exact .none

theorem guardedStays :
    (guarded (.var .synthetic "x")).Filled (guarded (.constant .synthetic ⟨["A"], false⟩)) ∧
    (guardedOr (.var .synthetic "y")).Filled (guardedOr (.constant .synthetic ⟨["A"], false⟩)) ∧
    fold (guarded (.var .synthetic "x")) "" (guardedOr (.var .synthetic "y")) = .bool true ∧
    fold (guarded (.constant .synthetic ⟨["A"], false⟩)) ""
      (guardedOr (.constant .synthetic ⟨["A"], false⟩)) = .bool true := by
  have tables := guardedFilled (.static .synthetic "x" (.constant .synthetic ⟨["A"], false⟩))
  have filled : (guardedOr (.var .synthetic "y")).Filled
      (guardedOr (.constant .synthetic ⟨["A"], false⟩)) :=
    .binary (.unary (.static .synthetic "y" _)) (.kept _)
  have folded : fold (guarded (.var .synthetic "x")) "" (guardedOr (.var .synthetic "y")) =
      .bool true := eqOfSameBool (by decide +kernel)
  exact ⟨tables, filled, folded,
    knownFoldStays tables filled folded (by simp) (by decide +kernel)⟩

end Constant
end PhpLint
