import PhpLint.Json.Basic
import PhpLint.Number

/-! Reading JSON text. The grammar is the strict one: no comments, no trailing commas, no leading
zeros, no raw control characters, and nothing but blanks after the value. -/
namespace PhpLint.Json.Reader

def isSpace (c : Char) : Bool := c = ' ' || c = '\n' || c = '\t' || c = '\r'

def skip (cs : List Char) : List Char := cs.dropWhile isSpace

def escape? : Char → Option Char
  | '"' => some '"'
  | '\\' => some '\\'
  | '/' => some '/'
  | 'b' => some '\x08'
  | 'f' => some '\x0c'
  | 'n' => some '\n'
  | 'r' => some '\r'
  | 't' => some '\t'
  | _ => none

def codes? : List Char → Option (List Nat × List Char)
  | [] => none
  | '"' :: rest => some ([], rest)
  | '\\' :: 'u' :: a :: b :: c :: d :: rest => do
    let n ← Number.numeral? 16 [a, b, c, d]
    let (codes, rest) ← codes? rest
    some (n :: codes, rest)
  | '\\' :: c :: rest => do
    let e ← escape? c
    let (codes, rest) ← codes? rest
    some (e.toNat :: codes, rest)
  | c :: rest =>
    if c.toNat < 0x20 then none else do
      let (codes, rest) ← codes? rest
      some (c.toNat :: codes, rest)

def text? : List Nat → Option (List Char)
  | [] => some []
  | hi :: lo :: rest =>
    if 0xD800 ≤ hi ∧ hi < 0xDC00 then
      if 0xDC00 ≤ lo ∧ lo < 0xE000 then
        (text? rest).map (Char.ofNat (0x10000 + (hi - 0xD800) * 0x400 + (lo - 0xDC00)) :: ·)
      else none
    else if 0xDC00 ≤ hi ∧ hi < 0xE000 then none
    else (text? (lo :: rest)).map (Char.ofNat hi :: ·)
  | [n] => if 0xD800 ≤ n ∧ n < 0xE000 then none else some [Char.ofNat n]

def string? (cs : List Char) : Option (Option String × List Char) :=
  (codes? cs).map fun (codes, rest) => ((text? codes).map String.ofList, rest)

def digits? (cs : List Char) : Option (List Char × List Char) :=
  match cs.takeWhile Char.isDigit with
  | [] => none
  | ds => some (ds, cs.dropWhile Char.isDigit)

def whole? : List Char → Option (List Char × List Char)
  | '0' :: c :: rest => if c.isDigit then none else some (['0'], c :: rest)
  | cs => digits? cs

def fraction? : List Char → Option (List Char × List Char)
  | '.' :: cs => (digits? cs).map fun (ds, rest) => ('.' :: ds, rest)
  | cs => some ([], cs)

def power? : List Char → Option (List Char × List Char)
  | [] => some ([], [])
  | c :: cs =>
    if c = 'e' ∨ c = 'E' then
      match cs with
      | '+' :: cs => (digits? cs).map fun (ds, rest) => (c :: '+' :: ds, rest)
      | '-' :: cs => (digits? cs).map fun (ds, rest) => (c :: '-' :: ds, rest)
      | cs => (digits? cs).map fun (ds, rest) => (c :: ds, rest)
    else some ([], c :: cs)

def number? (cs : List Char) : Option (Json × List Char) := do
  let (sign, cs) := match cs with
    | '-' :: cs => (['-'], cs)
    | cs => ([], cs)
  let (whole, cs) ← whole? cs
  let (fraction, cs) ← fraction? cs
  let (power, cs) ← power? cs
  let literal := String.ofList (sign ++ whole ++ fraction ++ power)
  if fraction = [] ∧ power = [] then
    let n ← Number.numeral? 10 whole
    if sign = [] then some (.int n, cs)
    -- minus zero is no integer
    else if n = 0 then some (.real literal, cs)
    else some (.int (-n), cs)
  else some (.real literal, cs)

def object (members : List (Option String × Json)) : Json :=
  match members.mapM fun m => m.1.map (·, m.2) with
  | some members => .obj members
  | none => .broken

def nested (room : Nat) (j : Json) : Json := if room = 0 then .broken else j

mutual

/-- One value. `fuel` bounds the steps and is at least the length of the text; `room` is the number
of arrays and objects that may still be opened inside one another. -/
def value? : (fuel room : Nat) → List Char → Option (Json × List Char)
  | 0, _, _ => none
  | fuel + 1, room, cs =>
    match skip cs with
    | '"' :: cs => (string? cs).map fun (s, rest) => ((s.map Json.str).getD .broken, rest)
    | '[' :: cs =>
      match skip cs with
      | ']' :: rest => some (nested room (.arr []), rest)
      | cs => (elements? fuel (room - 1) cs).map fun (js, rest) => (nested room (.arr js), rest)
    | '\x7b' :: cs =>
      match skip cs with
      | '\x7d' :: rest => some (nested room (.obj []), rest)
      | cs => (members? fuel (room - 1) cs).map fun (ms, rest) => (nested room (object ms), rest)
    | 't' :: 'r' :: 'u' :: 'e' :: rest => some (.bool true, rest)
    | 'f' :: 'a' :: 'l' :: 's' :: 'e' :: rest => some (.bool false, rest)
    | 'n' :: 'u' :: 'l' :: 'l' :: rest => some (.null, rest)
    | cs => number? cs

def elements? : (fuel room : Nat) → List Char → Option (List Json × List Char)
  | 0, _, _ => none
  | fuel + 1, room, cs => do
    let (j, cs) ← value? fuel room cs
    match skip cs with
    | ',' :: cs => do
      let (js, rest) ← elements? fuel room cs
      some (j :: js, rest)
    | ']' :: rest => some ([j], rest)
    | _ => none

def members? : (fuel room : Nat) → List Char → Option (List (Option String × Json) × List Char)
  | 0, _, _ => none
  | fuel + 1, room, cs =>
    match skip cs with
    | '"' :: cs => do
      let (key, cs) ← string? cs
      match skip cs with
      | ':' :: cs => do
        let (j, cs) ← value? fuel room cs
        match skip cs with
        | ',' :: cs => do
          let (ms, rest) ← members? fuel room cs
          some ((key, j) :: ms, rest)
        | '\x7d' :: rest => some ([(key, j)], rest)
        | _ => none
      | _ => none
    | _ => none

end

end PhpLint.Json.Reader

namespace PhpLint

def Json.parse? (room : Nat) (text : String) : Option Json :=
  let cs := text.toList
  match Json.Reader.value? (2 * cs.length + 1) room cs with
  | some (j, rest) => if Json.Reader.skip rest = [] then some j else none
  | none => none

end PhpLint
