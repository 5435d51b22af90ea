import PhpLint.Number
import PhpLint.Text.Quoted
import PhpLint.Text.Utf8
import PhpLint.Tree.Basic

/-! Statically known values, their conversions and the operators on them. `unknown` stands for everything that
the evaluator cannot prove; there is no separate error. Operands of different kinds are not coerced: wherever
the runtime would have to convert, the result is `unknown`. -/
namespace PhpLint

inductive Value where
  | unknown
  | int (n : Int64)
  | float (x : Float)
  | string (bytes : Bytes)
  | bool (b : Bool)
  deriving Inhabited

namespace Value

protected def beq : Value → Value → Bool
  | unknown, unknown => true
  | int a, int b => a == b
  | float a, float b => a == b
  | string a, string b => a == b
  | bool a, bool b => a == b
  | _, _ => false

instance : BEq Value := ⟨Value.beq⟩

def toBool? : Value → Option Bool
  | bool b => some b
  | int n => some (n != 0)
  | float x => some (x != 0)
  | string s => some !(s == [] || s == [0x30])
  | unknown => none

def toInt? : Value → Option Int64
  | bool b => some (if b then 1 else 0)
  | int n => some n
  | float x => Number.truncate? x
  | string _ | unknown => none

/-- The string cast of concatenation. The text of a float depends on the runtime's settings, so
floats have none. -/
def toBytes? : Value → Option Bytes
  | string s => some s
  | int n => some (Utf8.ofString (toString n.toInt))
  | bool b => some (if b then [0x31] else [])
  | float _ | unknown => none

def text : Value → String
  | unknown => "unknown"
  | int n => toString n.toInt
  | float x => Number.FloatStyle.standard.text x
  | string s => Text.quote (Utf8.decodeLenient s)
  | bool b => if b then "true" else "false"

def or (x y : Value) : Value :=
  match x.toBool?, y.toBool? with
  | some true, _ | _, some true => bool true
  | some false, some false => bool false
  | _, _ => unknown

def and (x y : Value) : Value :=
  match x.toBool?, y.toBool? with
  | some false, _ | _, some false => bool false
  | some true, some true => bool true
  | _, _ => unknown

def ofExact (exact : Int) (rounded : Float) : Value :=
  match Number.word? exact with
  | some n => int n
  | none => float rounded

def add : Value → Value → Value
  | int a, int b => ofExact (a.toInt + b.toInt) (Float.ofInt a.toInt + Float.ofInt b.toInt)
  | float a, float b => float (a + b)
  | _, _ => unknown

def sub : Value → Value → Value
  | int a, int b => ofExact (a.toInt - b.toInt) (Float.ofInt a.toInt - Float.ofInt b.toInt)
  | float a, float b => float (a - b)
  | _, _ => unknown

def concat (x y : Value) : Value :=
  match x.toBytes?, y.toBytes? with
  | some a, some b => string (a ++ b)
  | _, _ => unknown

def bitwise (op : Int64 → Int64 → Int64) (x y : Value) : Value :=
  match x.toInt?, y.toInt? with
  | some a, some b => int (op a b)
  | _, _ => unknown

def identical : Value → Value → Value
  | int a, int b => bool (a == b)
  | float a, float b => bool (a == b)
  | string a, string b => bool (a == b)
  | _, _ => unknown

def orderFloats (a b : Float) : Option Ordering :=
  if a < b then some .lt else if b < a then some .gt else if a == b then some .eq else none

def order? : Value → Value → Option (Option Ordering)
  | int a, int b => some (some (compareOfLessAndEq a b))
  | float a, float b => some (orderFloats a b)
  | string a, string b => some (some (compareOfLessAndEq a b))
  | _, _ => none

def relation (holds : Ordering → Bool) (x y : Value) : Value :=
  match order? x y with
  | some o => bool (o.any holds)
  | none => unknown

def less (x y : Value) : Value := relation Ordering.isLT x y

def not (x : Value) : Value :=
  match x.toBool? with
  | some b => bool !b
  | none => unknown

def neg : Value → Value
  | int n => ofExact (-n.toInt) (-(Float.ofInt n.toInt))
  | float x => float (-x)
  | bool b => int (if b then -1 else 0)
  | string _ | unknown => unknown

end Value

def UnaryOp.apply : UnaryOp → Value → Value
  | .not, x => x.not
  | .minus, x => x.neg
  | .plus, .int n => .int n
  | .plus, .float x => .float x
  | .plus, _ => .unknown
  | .complement, .int n => .int (~~~n)
  | .complement, _ => .unknown

def BinaryOp.apply : BinaryOp → Value → Value → Value
  | .plus, x, y => x.add y
  | .minus, x, y => x.sub y
  | .concat, x, y => x.concat y
  | .bitOr, x, y => Value.bitwise (· ||| ·) x y
  | .bitAnd, x, y => Value.bitwise (· &&& ·) x y
  | .boolAnd, x, y | .wordAnd, x, y => x.and y
  | .boolOr, x, y | .wordOr, x, y => x.or y
  | .identical, x, y | .equal, x, y => x.identical y
  | .notIdentical, x, y | .notEqual, x, y => (x.identical y).not
  | .greater, x, y => Value.relation Ordering.isGT x y
  | .smaller, x, y => x.less y
  | .greaterOrEqual, x, y => Value.relation Ordering.isGE x y
  | .smallerOrEqual, x, y => Value.relation Ordering.isLE x y
  | .mul, _, _ | .div, _, _ | .mod, _, _ | .pow, _, _ | .bitXor, _, _ | .shiftLeft, _, _
  | .shiftRight, _, _ | .wordXor, _, _ | .spaceship, _, _ | .coalesce, _, _ => .unknown

end PhpLint
