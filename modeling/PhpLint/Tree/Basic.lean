import PhpLint.Text.Basic

/-! What the nodes of a tree carry: source positions, where line zero marks a node that no source text stands
behind; names of functions and constants, which are segments between backslashes; and operators, with their
symbols and the classes that the checks ask about. -/
namespace PhpLint

structure Pos where
  line : UInt32
  col : UInt32
  deriving DecidableEq, Repr

namespace Pos

def synthetic : Pos := ⟨0, 0⟩

def isSynthetic (p : Pos) : Bool := p.line = 0

def text (p : Pos) : String :=
  if p.isSynthetic then "<synthetic>"
  else toString p.line.toNat ++ ":" ++ toString p.col.toNat

end Pos

structure Range where
  start : Pos
  stop : Pos
  deriving DecidableEq, Repr

namespace Range

def point (p : Pos) : Range := ⟨p, p⟩

def synthetic : Range := point .synthetic

def isSynthetic (r : Range) : Bool := r.start.isSynthetic

def text (r : Range) : String :=
  if r.isSynthetic ∨ r.start = r.stop then r.start.text
  else r.start.text ++ "-" ++ r.stop.text

end Range

structure Name where
  parts : List String
  rooted : Bool
  deriving DecidableEq, Repr

namespace Name

def parse (text : String) : Name where
  parts := ((Text.cut '\\' text.toList).filter (· ≠ [])).map String.ofList
  rooted := text.toList.head? = some '\\'

def joined (n : Name) : String := String.intercalate "\\" n.parts

def text (n : Name) : String := if n.rooted then "\\" ++ n.joined else n.joined

def isFunction (n : Name) (function : String) : Bool :=
  match n.parts with
  | [only] => Text.sameWord only function
  | _ => false

end Name

inductive UnaryOp where
  | not
  | minus
  | plus
  | complement
  deriving DecidableEq, Repr

inductive BinaryOp where
  | plus
  | minus
  | mul
  | div
  | mod
  | pow
  | concat
  | bitAnd
  | bitOr
  | bitXor
  | shiftLeft
  | shiftRight
  | boolAnd
  | boolOr
  | wordAnd
  | wordOr
  | wordXor
  | equal
  | notEqual
  | identical
  | notIdentical
  | smaller
  | smallerOrEqual
  | greater
  | greaterOrEqual
  | spaceship
  | coalesce
  deriving DecidableEq, Repr

namespace UnaryOp

def all : List UnaryOp := [not, minus, plus, complement]

def symbol : UnaryOp → String
  | not => "!"
  | minus => "-"
  | plus => "+"
  | complement => "~"

def ofSymbol? (s : String) : Option UnaryOp := all.find? fun op => op.symbol = s

theorem symbolRead (op : UnaryOp) : ofSymbol? op.symbol = some op := by
  cases op <;> decide

end UnaryOp

namespace BinaryOp

def all : List BinaryOp :=
  [plus, minus, mul, div, mod, pow, concat, bitAnd, bitOr, bitXor, shiftLeft, shiftRight, boolAnd,
   boolOr, wordAnd, wordOr, wordXor, equal, notEqual, identical, notIdentical, smaller,
   smallerOrEqual, greater, greaterOrEqual, spaceship, coalesce]

def symbol : BinaryOp → String
  | plus => "+"
  | minus => "-"
  | mul => "*"
  | div => "/"
  | mod => "%"
  | pow => "**"
  | concat => "."
  | bitAnd => "&"
  | bitOr => "|"
  | bitXor => "^"
  | shiftLeft => "<<"
  | shiftRight => ">>"
  | boolAnd => "&&"
  | boolOr => "||"
  | wordAnd => "and"
  | wordOr => "or"
  | wordXor => "xor"
  | equal => "=="
  | notEqual => "!="
  | identical => "==="
  | notIdentical => "!=="
  | smaller => "<"
  | smallerOrEqual => "<="
  | greater => ">"
  | greaterOrEqual => ">="
  | spaceship => "<=>"
  | coalesce => "??"

def ofSymbol? (s : String) : Option BinaryOp :=
  if s = "<>" then some notEqual else all.find? fun op => op.symbol = s

theorem symbolRead (op : BinaryOp) : ofSymbol? op.symbol = some op := by
  cases op <;> decide

def isComparison : BinaryOp → Bool
  | equal | notEqual | identical | notIdentical | smaller | smallerOrEqual | greater
  | greaterOrEqual => true
  | _ => false

def isConjunction : BinaryOp → Bool
  | boolAnd | wordAnd => true
  | _ => false

def isDisjunction : BinaryOp → Bool
  | boolOr | wordOr => true
  | _ => false

def isLogical (op : BinaryOp) : Bool := op.isConjunction || op.isDisjunction

end BinaryOp

end PhpLint
