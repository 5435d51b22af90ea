import PhpLint.Constant.Evaluate
import PhpLint.Rule.Basic
import PhpLint.Walk

/-! The checks of the rules at a node, given the file, the constants and the namespace around it. Conditions are
reported whose value is known before the program runs: those that fold to a boolean, and logical expressions
that combine two tests of one operand which cannot hold together or cannot both fail. Then come repeated
operands, arguments and branch bodies, and misuse of built-in functions. -/
namespace PhpLint

structure Context where
  file : String
  table : Constant.Table
  scope : String

namespace Context

def fold (ctx : Context) (e : Expr) : Value := Constant.fold ctx.table ctx.scope e

def report (ctx : Context) (rule : Rule) (range : Range) (message : String) : Diagnostic :=
  .ofRule rule ctx.file range message

end Context

namespace Rule.Condition

def message (value : Bool) : String :=
  if value then "always true condition" else "always false condition"

def always (ctx : Context) (cond : Expr) (value : Bool) : Diagnostic :=
  ctx.report .badCondition cond.range (message value)

def known? (ctx : Context) (cond : Expr) : Option Bool :=
  match ctx.fold cond with
  | .bool b => some b
  | _ => none

def folded (ctx : Context) (cond : Expr) : List Diagnostic :=
  ((known? ctx cond).map (always ctx cond)).toList

def bounds? (lop rop : BinaryOp) : Expr → Expr → Option (Expr × Expr)
  | .binary _ p x a, .binary _ q y b =>
    if p = lop ∧ q = rop ∧ x.sameSimple y then some (a, b) else none
  | _, _ => none

def conflict (ctx : Context) (lop rop : BinaryOp) (compare : Value → Value → Value)
    (expected : Bool) (lhs rhs : Expr) : Bool :=
  match bounds? lop rop lhs rhs with
  | some (a, b) => compare (ctx.fold a) (ctx.fold b) == .bool expected
  | none => false

def conjunction (ctx : Context) (cond lhs rhs : Expr) : List Diagnostic :=
  let apart := conflict ctx .smaller .greater Value.less true lhs rhs
  let different := conflict ctx .equal .equal Value.identical false lhs rhs
  (if apart then [always ctx cond false] else []) ++
    (if different then [always ctx cond false] else [])

def disjunction (ctx : Context) (cond lhs rhs : Expr) : List Diagnostic :=
  let different := conflict ctx .notEqual .notEqual Value.identical false lhs rhs
  if different then [always ctx cond true] else []

def checkExpr (ctx : Context) : Expr → List Diagnostic
  | .binary r op lhs rhs =>
    let cond := Expr.binary r op lhs rhs
    if op.isComparison then folded ctx cond
    else if op.isConjunction then
      match known? ctx cond with
      | some b => [always ctx cond b]
      | none => conjunction ctx cond lhs rhs
    else if op.isDisjunction then
      match known? ctx cond with
      | some b => [always ctx cond b]
      | none => disjunction ctx cond lhs rhs
    else []
  | _ => []

/-- Conditions of `do` loops and case labels. A switch over a known boolean is an idiom and
passes. -/
def checkStmt (ctx : Context) : Stmt → List Diagnostic
  | .doLoop _ _ cond => folded ctx cond
  | .switch _ subject cases =>
    match known? ctx subject with
    | some _ => []
    | none => (cases.filterMap SwitchCase.cond?).flatMap (folded ctx)
  | _ => []

end Rule.Condition

namespace Rule.Duplicate

def operators : List BinaryOp :=
  [.div, .mod, .minus, .notIdentical, .notEqual, .identical, .equal, .smaller, .smallerOrEqual,
   .greaterOrEqual, .greater]

def checkOperands (ctx : Context) : Expr → List Diagnostic
  | .binary r op lhs rhs =>
    if op ∈ operators ∧ lhs.sameSimple rhs then
      [ctx.report .duplicateOperand r
        ("suspiciously duplicated LHS and RHS of '" ++ op.symbol ++ "'")]
    else []
  | _ => []

def functions : List String := ["strpos", "strncmp", "strcmp", "min", "max", "str_replace"]

def checkArguments (ctx : Context) (e : Expr) : List Diagnostic :=
  match functions.findSome? e.callTo? with
  | some (first :: second :: _) =>
    if first.sameSimple second then
      [ctx.report .duplicateArgument first.range "suspiciously duplicated argument"]
    else []
  | _ => []

def bodies (body : Stmt) (arms : List ElseIf) (otherwise : Option Stmt) : List Stmt :=
  body :: arms.map ElseIf.body ++ otherwise.toList

def pairs (bodies : List Stmt) : List (Nat × Nat) :=
  bodies.zipIdx.flatMap fun (first, i) =>
    (bodies.zipIdx.drop (i + 1)).filterMap fun (second, j) =>
      if first.equivalent second then some (i, j) else none

def checkBodies (ctx : Context) : Stmt → List Diagnostic
  | .branch r _ body arms otherwise =>
    (pairs (bodies body arms otherwise)).map fun (i, j) =>
      ctx.report .duplicateBody r
        ("duplicated <" ++ toString i ++ "> and <" ++ toString j ++ "> bodies")
  | _ => []

end Rule.Duplicate

namespace Rule.Call

def checkSimplify (ctx : Context) : Expr → List Diagnostic
  | .binary r op lhs rhs =>
    if (op = .greater ∨ op = .smaller ∨ op = .identical) ∧ ctx.fold rhs == .int 0 ∧
        (lhs.callTo? "strcmp").isSome then
      [ctx.report .simplify r
        ("can replace 'strcmp(s1, s2) " ++ op.symbol ++ " 0' with 's1 " ++ op.symbol ++ " s2'")]
    else []
  | _ => []

def knownLength? (ctx : Context) (e : Expr) : Option Nat :=
  match ctx.fold e with
  | .string bytes => some bytes.length
  | _ => none

def expectedLength? : Option Nat → Option Nat → Option Nat
  | some a, some b => some (min a b)
  | a, b => a.or b

def checkLength (ctx : Context) (e : Expr) : List Diagnostic :=
  match e.callTo? "strncmp" with
  | some [s₁, s₂, length] =>
    match expectedLength? (knownLength? ctx s₁) (knownLength? ctx s₂), ctx.fold length with
    | some expected, .int actual =>
      if actual.toInt = expected then []
      else
        [ctx.report .badCall length.range
          ("expected length arg to be " ++ toString expected ++ ", got " ++ toString actual.toInt)]
    | _, _ => []
  | _ => []

def checkFlag (ctx : Context) (e : Expr) : List Diagnostic :=
  match e.callTo? "define" with
  | some (_ :: _ :: flag :: _) =>
    [ctx.report .sloppyArgument flag.range "don't use case_insensitive argument"]
  | _ => []

def checkOrder (ctx : Context) (e : Expr) : List Diagnostic :=
  match e.callTo? "strpos" with
  | some [haystack, needle] =>
    match haystack.argumentValue?, needle.argumentValue? with
    | some haystack, some needle =>
      if haystack.isString && !needle.isString then
        [ctx.report .argumentOrder e.range "suspicious args order"]
      else []
    | _, _ => []
  | _ => []

end Rule.Call

def Rule.check (ctx : Context) : Rule → Node → List Diagnostic
  | .badCondition, .expr e => Rule.Condition.checkExpr ctx e
  | .badCondition, .stmt s => Rule.Condition.checkStmt ctx s
  | .duplicateOperand, .expr e => Rule.Duplicate.checkOperands ctx e
  | .duplicateArgument, .expr e => Rule.Duplicate.checkArguments ctx e
  | .duplicateBody, .stmt s => Rule.Duplicate.checkBodies ctx s
  | .simplify, .expr e => Rule.Call.checkSimplify ctx e
  | .badCall, .expr e => Rule.Call.checkLength ctx e
  | .sloppyArgument, .expr e => Rule.Call.checkFlag ctx e
  | .argumentOrder, .expr e => Rule.Call.checkOrder ctx e
  | _, _ => []

def SourceUnit.findings (u : SourceUnit) (t : Constant.Table) (rules : List Rule) :
    List Diagnostic :=
  u.visits.flatMap fun v => rules.flatMap fun r => r.check ⟨u.path, t, v.scope⟩ v.node

end PhpLint
