import PhpLint.Engine
import PhpLint.Proofs.Constant.Erasure

/-! No rule decides by ranges. At a node without ranges, in a context without ranges, a rule finds what it
finds at the node itself, and only the places of its findings differ. So the ranges of a unit have no
influence on what is found in it, on the severities, or on the order of the findings. -/
namespace PhpLint

def Diagnostic.erased (d : Diagnostic) : Diagnostic := { d with range := .synthetic }

def Context.erased (ctx : Context) : Context := { ctx with table := ctx.table.erased }

theorem Context.foldErased (ctx : Context) (e : Expr) : ctx.erased.fold e.erased = ctx.fold e :=
  Constant.foldErases (Constant.erasedErases ctx.table) ctx.scope e

namespace Rule

theorem ifErased {ds bare : List Diagnostic} (condition : Prop) [Decidable condition]
    (same : bare = ds.map Diagnostic.erased) :
    (if condition then bare else []) = (if condition then ds else []).map Diagnostic.erased := by
  split
  · exact same
  · rfl

namespace Condition

theorem knownErased (ctx : Context) (cond : Expr) :
    known? ctx.erased cond.erased = known? ctx cond := by
  simp only [known?, ctx.foldErased]

theorem alwaysErased (ctx : Context) (cond : Expr) (value : Bool) :
    always ctx.erased cond.erased value = (always ctx cond value).erased := by
  rw [always, cond.rangeErased]
  rfl

theorem foldedErased (ctx : Context) (cond : Expr) :
    folded ctx.erased cond.erased = (folded ctx cond).map Diagnostic.erased := by
  simp only [folded, knownErased]
  cases known? ctx cond with
  | none => rfl
  | some value => simp [alwaysErased]

theorem boundsErased (lop rop : BinaryOp) (lhs rhs : Expr) :
    bounds? lop rop lhs.erased rhs.erased =
      (bounds? lop rop lhs rhs).map fun (a, b) => (a.erased, b.erased) := by
  cases lhs with
  | binary r p x a =>
    cases rhs with
    | binary r' q y b =>
      simp only [Expr.erased, bounds?, Expr.sameSimpleErased]
      split <;> rfl
    | _ => rfl
  | _ => rfl

theorem conflictErased (ctx : Context) (lop rop : BinaryOp) (compare : Value → Value → Value)
    (expected : Bool) (lhs rhs : Expr) :
    conflict ctx.erased lop rop compare expected lhs.erased rhs.erased =
      conflict ctx lop rop compare expected lhs rhs := by
  simp only [conflict, boundsErased]
  cases bounds? lop rop lhs rhs with
  | none => rfl
  | some pair => simp only [Option.map_some, ctx.foldErased]

theorem conjunctionErased (ctx : Context) (cond lhs rhs : Expr) :
    conjunction ctx.erased cond.erased lhs.erased rhs.erased =
      (conjunction ctx cond lhs rhs).map Diagnostic.erased := by
  simp only [conjunction, conflictErased, alwaysErased, List.map_append]
  exact congrArg₂ (· ++ ·) (ifErased _ rfl) (ifErased _ rfl)

theorem disjunctionErased (ctx : Context) (cond lhs rhs : Expr) :
    disjunction ctx.erased cond.erased lhs.erased rhs.erased =
      (disjunction ctx cond lhs rhs).map Diagnostic.erased := by
  simp only [disjunction, conflictErased, alwaysErased]
  exact ifErased _ rfl

theorem exprErased (ctx : Context) (e : Expr) :
    checkExpr ctx.erased e.erased = (checkExpr ctx e).map Diagnostic.erased := by
  cases e with
  | binary r op lhs rhs =>
    have folds := foldedErased ctx (.binary r op lhs rhs)
    have knows := knownErased ctx (.binary r op lhs rhs)
    have reports := alwaysErased ctx (.binary r op lhs rhs)
    have both := conjunctionErased ctx (.binary r op lhs rhs) lhs rhs
    have either := disjunctionErased ctx (.binary r op lhs rhs) lhs rhs
    simp only [Expr.erased] at folds knows reports both either
    simp only [Expr.erased, checkExpr, folds, knows, reports, both, either]
    split
    · rfl
    · split
      · split <;> rfl
      · split
        · split <;> rfl
        · rfl
  | _ => rfl

theorem labelsErased (cs : List SwitchCase) :
    (Stmt.erasedCases cs).filterMap SwitchCase.cond? =
      (cs.filterMap SwitchCase.cond?).map Expr.erased := by
  induction cs with
  | nil => rfl
  | cons c cs ih =>
    obtain ⟨cond, body⟩ := c
    cases cond with
    | none => exact ih
    | some e => exact congrArg (e.erased :: ·) ih

theorem stmtErased (ctx : Context) (s : Stmt) :
    checkStmt ctx.erased s.erased = (checkStmt ctx s).map Diagnostic.erased := by
  cases s with
  | doLoop r b c => exact foldedErased ctx c
  | switch r subject cs =>
    simp only [Stmt.erased, checkStmt, knownErased, labelsErased]
    split
    · rfl
    · rw [List.flatMap_map, List.map_flatMap]
      simp only [foldedErased]
  | _ => rfl

end Condition

namespace Duplicate

theorem operandsErased (ctx : Context) (e : Expr) :
    checkOperands ctx.erased e.erased = (checkOperands ctx e).map Diagnostic.erased := by
  cases e with
  | binary r op lhs rhs =>
    simp only [Expr.erased, checkOperands, Expr.sameSimpleErased]
    exact ifErased _ rfl
  | _ => rfl

theorem argumentsErased (ctx : Context) (e : Expr) :
    checkArguments ctx.erased e.erased = (checkArguments ctx e).map Diagnostic.erased := by
  have called : functions.findSome? e.erased.callTo? =
      (functions.findSome? e.callTo?).map (List.map Expr.erased) := by
    rw [List.map_findSome?]
    congr 1
    funext function
    exact e.callToErased function
  simp only [checkArguments, called]
  cases functions.findSome? e.callTo? with
  | none => rfl
  | some args =>
    rcases args with _ | ⟨first, _ | ⟨second, more⟩⟩
    · rfl
    · rfl
    · simp only [Option.map_some, List.map_cons, Expr.sameSimpleErased, Expr.rangeErased]
      exact ifErased _ rfl

theorem bodiesErased (body : Stmt) (arms : List ElseIf) (otherwise : Option Stmt) :
    bodies body.erased (Stmt.erasedArms arms) (Stmt.erasedOption otherwise) =
      (bodies body arms otherwise).map Stmt.erased := by
  have inner : (Stmt.erasedArms arms).map ElseIf.body = (arms.map ElseIf.body).map Stmt.erased := by
    induction arms with
    | nil => rfl
    | cons arm arms ih =>
      obtain ⟨c, b⟩ := arm
      simp [Stmt.erasedArms, ElseIf.body, ih]
  cases otherwise <;> simp [bodies, inner, Stmt.erasedOption]

theorem pairsErased (bodies : List Stmt) : pairs (bodies.map Stmt.erased) = pairs bodies := by
  simp only [pairs, List.zipIdx_map, List.flatMap_map, ← List.map_drop, List.filterMap_map]
  simp [Stmt.equivalentErased]

theorem checkBodiesErased (ctx : Context) (s : Stmt) :
    checkBodies ctx.erased s.erased = (checkBodies ctx s).map Diagnostic.erased := by
  cases s with
  | branch r c body arms otherwise =>
    simp only [Stmt.erased, checkBodies, bodiesErased, pairsErased, List.map_map]
    rfl
  | _ => rfl

end Duplicate

namespace Call

theorem simplifyErased (ctx : Context) (e : Expr) :
    checkSimplify ctx.erased e.erased = (checkSimplify ctx e).map Diagnostic.erased := by
  cases e with
  | binary r op lhs rhs =>
    simp only [Expr.erased, checkSimplify, ctx.foldErased, Expr.callToErased, Option.isSome_map]
    exact ifErased _ rfl
  | _ => rfl

theorem knownLengthErased (ctx : Context) (e : Expr) :
    knownLength? ctx.erased e.erased = knownLength? ctx e := by
  simp only [knownLength?, ctx.foldErased]

theorem lengthErased (ctx : Context) (e : Expr) :
    checkLength ctx.erased e.erased = (checkLength ctx e).map Diagnostic.erased := by
  simp only [checkLength, Expr.callToErased]
  cases e.callTo? "strncmp" with
  | none => rfl
  | some args =>
    rcases args with _ | ⟨first, _ | ⟨second, _ | ⟨length, _ | ⟨more, rest⟩⟩⟩⟩
    · rfl
    · rfl
    · rfl
    · simp only [Option.map_some, List.map_cons, List.map_nil, knownLengthErased, ctx.foldErased,
        Expr.rangeErased]
      split
      · split <;> rfl
      · rfl
    · rfl

theorem flagErased (ctx : Context) (e : Expr) :
    checkFlag ctx.erased e.erased = (checkFlag ctx e).map Diagnostic.erased := by
  simp only [checkFlag, Expr.callToErased]
  cases e.callTo? "define" with
  | none => rfl
  | some args =>
    rcases args with _ | ⟨first, _ | ⟨second, _ | ⟨flag, more⟩⟩⟩
    · rfl
    · rfl
    · rfl
    · simp only [Option.map_some, List.map_cons, Expr.rangeErased]
      rfl

theorem orderErased (ctx : Context) (e : Expr) :
    checkOrder ctx.erased e.erased = (checkOrder ctx e).map Diagnostic.erased := by
  simp only [checkOrder, Expr.callToErased, Expr.rangeErased]
  cases e.callTo? "strpos" with
  | none => rfl
  | some args =>
    rcases args with _ | ⟨haystack, _ | ⟨needle, _ | ⟨more, rest⟩⟩⟩
    · rfl
    · rfl
    · simp only [Option.map_some, List.map_cons, List.map_nil, Expr.argumentErased]
      cases haystack.argumentValue? with
      | none => rfl
      | some haystack =>
        cases needle.argumentValue? with
        | none => rfl
        | some needle =>
          simp only [Option.map_some, Expr.isStringErased]
          exact ifErased _ rfl
    · rfl

end Call

theorem checkErased (ctx : Context) (r : Rule) (n : Node) :
    r.check ctx.erased n.erased = (r.check ctx n).map Diagnostic.erased := by
  cases n with
  | expr e =>
    cases r with
    | badCondition => exact Condition.exprErased ctx e
    | duplicateOperand => exact Duplicate.operandsErased ctx e
    | duplicateArgument => exact Duplicate.argumentsErased ctx e
    | duplicateBody => rfl
    | simplify => exact Call.simplifyErased ctx e
    | badCall => exact Call.lengthErased ctx e
    | sloppyArgument => exact Call.flagErased ctx e
    | argumentOrder => exact Call.orderErased ctx e
  | stmt s =>
    cases r with
    | badCondition => exact Condition.stmtErased ctx s
    | duplicateBody => exact Duplicate.checkBodiesErased ctx s
    | _ => rfl

end Rule

theorem SourceUnit.findingsErased (u : SourceUnit) (t : Constant.Table) (rules : List Rule) :
    u.erased.findings t.erased rules = (u.findings t rules).map Diagnostic.erased := by
  simp only [findings, visitsErased, List.flatMap_map, List.map_flatMap]
  congr 1
  funext v
  congr 1
  funext r
  exact Rule.checkErased ⟨u.path, t, v.scope⟩ r v.node

theorem Settings.checkUnitErased (s : Settings) (t : Constant.Table) (u : SourceUnit) :
    s.checkUnit t.erased u.erased = (s.checkUnit t u).map Diagnostic.erased := by
  simp only [checkUnit, SourceUnit.findingsErased, List.map_map]
  rfl

theorem rangesHaveNoInfluence :
    (∀ units, (Constant.collect (units.map SourceUnit.erased)).entries.toList =
      (Constant.collect units).entries.toList.map fun entry => (entry.1, entry.2.erased)) ∧
    (∀ (t : Constant.Table) scope (e : Expr),
      Constant.fold t.erased scope e.erased = Constant.fold t scope e) ∧
    ∀ (s : Settings) (t : Constant.Table) (u : SourceUnit),
      s.checkUnit t.erased u.erased = (s.checkUnit t u).map Diagnostic.erased := by
  refine ⟨fun units => ?_, fun t scope e => ?_, Settings.checkUnitErased⟩
  · exact Constant.erasesEntries (Constant.collectErases units)
  · exact Constant.foldErases (Constant.erasedErases t) scope e

end PhpLint
