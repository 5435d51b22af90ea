import PhpLint.Rule.Check

/-! What holds of every rule's findings: they carry the rule's own code and the file of the unit, and
they depend on the table of constants only through the values of expressions. -/
namespace PhpLint
namespace Rule

def Reports (ctx : Context) (r : Rule) (ds : List Diagnostic) : Prop :=
  ∀ d ∈ ds, d.rule = r ∧ d.file = ctx.file

theorem reportsNil (ctx : Context) (r : Rule) : Reports ctx r [] := by
  intro d member
  cases member

theorem reportsOne (ctx : Context) (r : Rule) (range : Range) (message : String) :
    Reports ctx r [ctx.report r range message] := by
  intro d member
  rw [List.mem_singleton.mp member]
  exact ⟨rfl, rfl⟩

theorem reportsAppend {ctx : Context} {r : Rule} {first second : List Diagnostic}
    (left : Reports ctx r first) (right : Reports ctx r second) : Reports ctx r (first ++ second) := by
  intro d member
  rcases List.mem_append.mp member with inFirst | inSecond
  · exact left d inFirst
  · exact right d inSecond

theorem reportsIf {ctx : Context} {r : Rule} {ds : List Diagnostic} (condition : Prop)
    [Decidable condition] (each : Reports ctx r ds) :
    Reports ctx r (if condition then ds else []) := by
  split
  · exact each
  · exact reportsNil ctx r

theorem reportsMap {α : Type} {ctx : Context} {r : Rule} {f : α → Diagnostic} (l : List α)
    (each : ∀ a, ∃ range message, f a = ctx.report r range message) : Reports ctx r (l.map f) := by
  intro d member
  obtain ⟨a, _, rfl⟩ := List.mem_map.mp member
  obtain ⟨range, message, same⟩ := each a
  rw [same]
  exact ⟨rfl, rfl⟩

theorem reportsFlatMap {α : Type} {ctx : Context} {r : Rule} {f : α → List Diagnostic} (l : List α)
    (each : ∀ a, Reports ctx r (f a)) : Reports ctx r (l.flatMap f) := by
  intro d member
  obtain ⟨a, _, found⟩ := List.mem_flatMap.mp member
  exact each a d found

namespace Condition

theorem foldedReports (ctx : Context) (cond : Expr) :
    Reports ctx .badCondition (folded ctx cond) := by
  unfold folded
  cases known? ctx cond with
  | none => exact reportsNil ctx _
  | some b => exact reportsOne ctx _ _ _

theorem exprReports (ctx : Context) (e : Expr) : Reports ctx .badCondition (checkExpr ctx e) := by
  unfold checkExpr
  split
  · dsimp only
    split
    · exact foldedReports ctx _
    · split
      · split
        · exact reportsOne ctx _ _ _
        · exact reportsAppend (reportsIf _ (reportsOne ctx _ _ _)) (reportsIf _ (reportsOne ctx _ _ _))
      · split
        · split
          · exact reportsOne ctx _ _ _
          · exact reportsIf _ (reportsOne ctx _ _ _)
        · exact reportsNil ctx _
  · exact reportsNil ctx _

theorem stmtReports (ctx : Context) (s : Stmt) : Reports ctx .badCondition (checkStmt ctx s) := by
  unfold checkStmt
  split
  · exact foldedReports ctx _
  · split
    · exact reportsNil ctx _
    · exact reportsFlatMap _ (foldedReports ctx)
  · exact reportsNil ctx _

end Condition

namespace Duplicate

theorem operandsReports (ctx : Context) (e : Expr) :
    Reports ctx .duplicateOperand (checkOperands ctx e) := by
  unfold checkOperands
  split
  · exact reportsIf _ (reportsOne ctx _ _ _)
  · exact reportsNil ctx _

theorem argumentsReports (ctx : Context) (e : Expr) :
    Reports ctx .duplicateArgument (checkArguments ctx e) := by
  unfold checkArguments
  split
  · exact reportsIf _ (reportsOne ctx _ _ _)
  · exact reportsNil ctx _

theorem bodiesReports (ctx : Context) (s : Stmt) :
    Reports ctx .duplicateBody (checkBodies ctx s) := by
  unfold checkBodies
  split
  · exact reportsMap _ fun _ => ⟨_, _, rfl⟩
  · exact reportsNil ctx _

end Duplicate

namespace Call

theorem simplifyReports (ctx : Context) (e : Expr) :
    Reports ctx .simplify (checkSimplify ctx e) := by
  unfold checkSimplify
  split
  · exact reportsIf _ (reportsOne ctx _ _ _)
  · exact reportsNil ctx _

theorem lengthReports (ctx : Context) (e : Expr) : Reports ctx .badCall (checkLength ctx e) := by
  unfold checkLength
  split
  · split
    · split
      · exact reportsNil ctx _
      · exact reportsOne ctx _ _ _
    · exact reportsNil ctx _
  · exact reportsNil ctx _

theorem flagReports (ctx : Context) (e : Expr) : Reports ctx .sloppyArgument (checkFlag ctx e) := by
  unfold checkFlag
  split
  · exact reportsOne ctx _ _ _
  · exact reportsNil ctx _

theorem orderReports (ctx : Context) (e : Expr) :
    Reports ctx .argumentOrder (checkOrder ctx e) := by
  unfold checkOrder
  split
  · split
    · exact reportsIf _ (reportsOne ctx _ _ _)
    · exact reportsNil ctx _
  · exact reportsNil ctx _

end Call

theorem checkReports (ctx : Context) (r : Rule) (node : Node) :
    Reports ctx r (r.check ctx node) := by
  cases node with
  | expr e =>
    cases r with
    | badCondition => exact Condition.exprReports ctx e
    | duplicateOperand => exact Duplicate.operandsReports ctx e
    | duplicateArgument => exact Duplicate.argumentsReports ctx e
    | duplicateBody => exact reportsNil ctx _
    | simplify => exact Call.simplifyReports ctx e
    | badCall => exact Call.lengthReports ctx e
    | sloppyArgument => exact Call.flagReports ctx e
    | argumentOrder => exact Call.orderReports ctx e
  | stmt s =>
    cases r with
    | badCondition => exact Condition.stmtReports ctx s
    | duplicateBody => exact Duplicate.bodiesReports ctx s
    | _ => exact reportsNil ctx _

/- Contexts in which a rule cannot tell which table stands behind the values. -/
structure Alike (a b : Context) : Prop where
  file : a.file = b.file
  fold : a.fold = b.fold

theorem Alike.report {a b : Context} (alike : Alike a b) : a.report = b.report := by
  funext rule range message
  simp only [Context.report, alike.file]

theorem Alike.condition {a b : Context} (alike : Alike a b) :
    Condition.checkExpr a = Condition.checkExpr b ∧ Condition.checkStmt a = Condition.checkStmt b := by
  have known : Condition.known? a = Condition.known? b := by
    funext cond
    simp only [Condition.known?, alike.fold]
  have always : Condition.always a = Condition.always b := by
    funext cond value
    simp only [Condition.always, alike.report]
  have folded : Condition.folded a = Condition.folded b := by
    funext cond
    simp only [Condition.folded, known, always]
  have conflict : Condition.conflict a = Condition.conflict b := by
    funext lop rop compare expected lhs rhs
    simp only [Condition.conflict, alike.fold]
  constructor
  · funext e
    simp only [Condition.checkExpr, Condition.conjunction, Condition.disjunction, known, always,
      folded, conflict]
  · funext s
    simp only [Condition.checkStmt, known, folded]

theorem Alike.check {a b : Context} (alike : Alike a b) (r : Rule) (node : Node) :
    r.check a node = r.check b node := by
  have conditions := alike.condition
  cases node <;> cases r <;>
    simp only [Rule.check, conditions, Duplicate.checkOperands, Duplicate.checkArguments,
      Duplicate.checkBodies, Call.checkSimplify, Call.checkLength, Call.knownLength?, Call.checkFlag,
      Call.checkOrder, alike.fold, alike.report]

end Rule
end PhpLint
