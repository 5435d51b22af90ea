import PhpLint.Constant.Table
import PhpLint.Literal
import PhpLint.Value

/-! Folding expressions to values against a table of constants. `evaluate` walks an expression and
leaves constants to its caller; `resolveAt` follows constants into their definitions, remembering
results that do not depend on the path by which they were reached. -/
namespace PhpLint

/-- The value of an expression whose constants are read by `onConstant`. Both operands of every
operator are evaluated; shapes without a rule are `unknown`. -/
def Expr.evaluate {m : Type → Type} [Monad m] (onConstant : Name → m Value) : Expr → m Value
  | .argument _ e _ _ => e.evaluate onConstant
  | .integer _ raw => pure ((Literal.integer? raw).elim .unknown .int)
  | .float _ raw => pure ((Literal.float? raw).elim .unknown .float)
  | .string _ raw => pure ((Literal.string? raw).elim .unknown .string)
  | .unary _ op e => do
    let x ← e.evaluate onConstant
    pure (op.apply x)
  | .binary _ op l r => do
    let x ← l.evaluate onConstant
    let y ← r.evaluate onConstant
    pure (op.apply x y)
  | .constant _ n => onConstant n
  | .var .. | .dynamicVar .. | .identifier .. | .name .. | .classConstant .. | .ternary ..
  | .assign .. | .index .. | .property .. | .array .. | .call .. => pure .unknown

def Name.builtin (n : Name) : Value :=
  if n.isFunction "true" then .bool true
  else if n.isFunction "false" then .bool false
  else .unknown

namespace Constant

def maxDepth : Nat := 256

structure Frame where
  key : String
  depth : Nat
  deriving DecidableEq, Repr

structure Resolution where
  memo : Std.TreeMap String Value
  -- the least depth to which a cycle led back
  floor : Option Nat
  exhausted : Bool
  -- the keys whose definitions were evaluated, the latest first
  entered : List String

def Resolution.start : Resolution := ⟨∅, none, false, []⟩

def lower : Option Nat → Option Nat → Option Nat
  | none, b => b
  | a, none => a
  | some a, some b => some (min a b)

/-- May the result of a constant at the given depth be remembered? Not when a cycle led to a
constant above it, and not when a chain was cut. -/
def Resolution.settled (s : Resolution) (depth : Nat) : Bool :=
  s.floor.all (depth ≤ ·) && !s.exhausted

/-- The value of a reference in a namespace, below the constants on `path` (the innermost first),
with `room` for that many more of them. A constant on the path is a cycle and `unknown`. -/
def resolveAt (t : Table) :
    (room : Nat) → (path : List Frame) → (scope : String) → Name → StateM Resolution Value
  | room, path, scope, n => fun s =>
    match t.resolve? scope n with
    | none => (n.builtin, s)
    | some (key, d) =>
      match s.memo[key]? with
      | some v => (v, s)
      | none =>
        match path.find? (·.key = key) with
        | some f => (.unknown, { s with floor := lower s.floor (some f.depth) })
        | none =>
          if s.exhausted then (.unknown, s)
          else match room with
            | 0 => (.unknown, { s with exhausted := true })
            | room + 1 =>
              let depth := path.length
              let (v, s') := d.expr.evaluate (resolveAt t room (⟨key, depth⟩ :: path) d.scope)
                { s with floor := none, entered := key :: s.entered }
              let memo := if s'.settled depth then s'.memo.insert key v else s'.memo
              (v, { s' with memo := memo, floor := lower s'.floor s.floor })

def run (t : Table) (scope : String) (e : Expr) : Value × Resolution :=
  e.evaluate (resolveAt t maxDepth [] scope) .start

def fold (t : Table) (scope : String) (e : Expr) : Value := (run t scope e).1

end Constant
end PhpLint
