import PhpLint.Number
import PhpLint.Text.Utf8

/-! Literals, which are kept as written. Integers are decimal, hexadecimal, binary or octal, floats have an
optional point and exponent, and underscores may stand between digits. A string literal has its quotes;
decoding it gives the bytes it denotes, or nothing when it is malformed, interpolates a variable, or has an
escape without a fixed meaning. -/
namespace PhpLint.Literal
open Number (Decimal numeral?)

def withoutSeparators (raw : String) : List Char := raw.toList.filter (· ≠ '_')

def radixOf : List Char → Nat × List Char
  | '0' :: 'x' :: digits | '0' :: 'X' :: digits => (16, digits)
  | '0' :: 'b' :: digits | '0' :: 'B' :: digits => (2, digits)
  | '0' :: 'o' :: digits | '0' :: 'O' :: digits => (8, digits)
  -- a zero in front of anything else selects octal
  | '0' :: c :: digits => (8, c :: digits)
  | digits => (10, digits)

def integer? (raw : String) : Option Int64 :=
  let (radix, digits) := radixOf (withoutSeparators raw)
  (Number.numeral? radix digits).bind fun n => Number.word? n

def exponent? : List Char → Option Int
  | [] => some 0
  | c :: cs =>
    if c = 'e' ∨ c = 'E' then
      match cs with
      | '-' :: digits => (numeral? 10 digits).map fun n => -(n : Int)
      | '+' :: digits => (numeral? 10 digits).map fun n => (n : Int)
      | digits => (numeral? 10 digits).map fun n => (n : Int)
    else none

def decimal? (cs : List Char) : Option Decimal :=
  let whole := cs.takeWhile Char.isDigit
  let rest := cs.dropWhile Char.isDigit
  let (fraction, tail) := match rest with
    | '.' :: rest => (rest.takeWhile Char.isDigit, rest.dropWhile Char.isDigit)
    | rest => ([], rest)
  (numeral? 10 (whole ++ fraction)).bind fun n =>
    (exponent? tail).map fun e => ⟨n, e - fraction.length⟩

/-- The float nearest to a decimal. Numbers far outside the range of floats are settled by their
magnitude alone, so that no large power is computed for them. -/
def nearestFloat (d : Decimal) : Float :=
  let top := d.power + (Nat.toDigits 10 d.coefficient).length
  if d.coefficient = 0 ∨ top < -400 then 0
  else if 400 < top then Float.ofBits 0x7FF0000000000000
  else Float.ofScientific d.coefficient (d.power < 0) d.power.natAbs

def float? (raw : String) : Option Float := (decimal? (withoutSeparators raw)).map nearestFloat

inductive Quote where
  | single
  | double
  deriving DecidableEq, Repr

namespace Quote

def char : Quote → Char
  | single => '\''
  | double => '"'

def interpolates : Quote → Bool
  | single => false
  | double => true

def ofChar? : Char → Option Quote
  | '\'' => some single
  | '"' => some double
  | _ => none

end Quote

def unmarked : List Char → List Char
  | c :: q :: rest =>
    if (c = 'b' ∨ c = 'B') ∧ (Quote.ofChar? q).isSome then q :: rest else c :: q :: rest
  | cs => cs

def parts? (raw : List Char) : Option (Quote × List Char) :=
  match unmarked raw with
  | [] => none
  | c :: rest =>
    (Quote.ofChar? c).bind fun q =>
      if rest.getLast? = some c then some (q, rest.dropLast) else none

def quote? (raw : String) : Option Quote := (parts? raw.toList).map (·.1)

def body? (raw : String) : Option (List Char) := (parts? raw.toList).map (·.2)

def hexByte? (hi lo : Char) : Option UInt8 := do
  let hi ← Number.digit? hi
  let lo ← Number.digit? lo
  some (UInt8.ofNat (hi * 16 + lo))

def decodeSingle : List Char → Bytes
  | [] => []
  | '\\' :: '\\' :: rest => 0x5C :: decodeSingle rest
  | '\\' :: '\'' :: rest => 0x27 :: decodeSingle rest
  | '\\' :: c :: rest => 0x5C :: String.utf8EncodeChar c ++ decodeSingle rest
  | c :: rest => String.utf8EncodeChar c ++ decodeSingle rest

/-- Decodes a double-quoted body. An escaped single quote keeps its backslash, a backslash at the
very end stands for itself, and any other unknown escape makes the body undecodable. -/
def decodeDouble? : List Char → Option Bytes
  | [] => some []
  | ['\\'] => some [0x5C]
  | '\\' :: '\\' :: rest => (decodeDouble? rest).map (0x5C :: ·)
  | '\\' :: '"' :: rest => (decodeDouble? rest).map (0x22 :: ·)
  | '\\' :: '$' :: rest => (decodeDouble? rest).map (0x24 :: ·)
  | '\\' :: 'n' :: rest => (decodeDouble? rest).map (0x0A :: ·)
  | '\\' :: 'r' :: rest => (decodeDouble? rest).map (0x0D :: ·)
  | '\\' :: 't' :: rest => (decodeDouble? rest).map (0x09 :: ·)
  | '\\' :: '\'' :: rest => (decodeDouble? rest).map ([0x5C, 0x27] ++ ·)
  | '\\' :: 'x' :: hi :: lo :: rest => do
    let b ← hexByte? hi lo
    let bytes ← decodeDouble? rest
    some (b :: bytes)
  | '\\' :: _ :: _ => none
  | c :: rest => (decodeDouble? rest).map (String.utf8EncodeChar c ++ ·)

def decodeBody? : Quote → List Char → Option Bytes
  | .single, body => some (decodeSingle body)
  | .double, body => decodeDouble? body

def hasVariable (escaped : Bool) : List Char → Bool
  | [] => false
  | c :: rest =>
    if c = '\\' then hasVariable (!escaped) rest
    else if c = '$' ∧ !escaped then true
    else hasVariable false rest

def isDynamic (body : List Char) : Bool := hasVariable false body

def string? (raw : String) : Option Bytes := do
  let (q, body) ← parts? raw.toList
  if q.interpolates && isDynamic body then none else decodeBody? q body

end PhpLint.Literal
