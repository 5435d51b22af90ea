import PhpLint.Literal
import PhpLint.Number
import PhpLint.Toml.Basic

/-! TOML's single values: strings, numbers, booleans and dates. Every reader takes the text and
gives the value with the rest of the text. -/
namespace PhpLint.Toml

abbrev Reader (α : Type) := List Char → Option (α × List Char)

def isSpace (c : Char) : Bool := c = ' ' || c = '\t'

def skipSpace (cs : List Char) : List Char := cs.dropWhile isSpace

def isPlain (c : Char) : Bool := c = '\t' || (0x20 ≤ c.toNat && c.toNat ≠ 0x7F)

def isBasic (c : Char) : Bool := isPlain c && c ≠ '"' && c ≠ '\\'

def isLiteral (c : Char) : Bool := isPlain c && c ≠ '\''

def newline? : List Char → Option (List Char)
  | '\n' :: rest => some rest
  | '\r' :: '\n' :: rest => some rest
  | _ => none

def skipNewline (cs : List Char) : List Char := (newline? cs).getD cs

def skipBlank : List Char → List Char
  | ' ' :: rest | '\t' :: rest | '\n' :: rest | '\r' :: '\n' :: rest => skipBlank rest
  | cs => cs

def skipComment : List Char → List Char
  | '#' :: rest => rest.dropWhile isPlain
  | cs => cs

def scalar? (n : Nat) : Option Char := if n.isValidChar then some (Char.ofNat n) else none

def escape? : Reader Char
  | 'b' :: rest => some ('\x08', rest)
  | 't' :: rest => some ('\t', rest)
  | 'n' :: rest => some ('\n', rest)
  | 'f' :: rest => some ('\x0c', rest)
  | 'r' :: rest => some ('\r', rest)
  | '"' :: rest => some ('"', rest)
  | '\\' :: rest => some ('\\', rest)
  | 'u' :: a :: b :: c :: d :: rest => do
    let n ← Number.numeral? 16 [a, b, c, d]
    some (← scalar? n, rest)
  | 'U' :: a :: b :: c :: d :: e :: f :: g :: h :: rest => do
    let n ← Number.numeral? 16 [a, b, c, d, e, f, g, h]
    some (← scalar? n, rest)
  | _ => none

def basic? : (fuel : Nat) → Reader (List Char)
  | 0, _ => none
  | _ + 1, [] => none
  | _ + 1, '"' :: rest => some ([], rest)
  | fuel + 1, '\\' :: rest => do
    let (c, rest) ← escape? rest
    let (cs, rest) ← basic? fuel rest
    some (c :: cs, rest)
  | fuel + 1, c :: rest =>
    if isBasic c then do
      let (cs, rest) ← basic? fuel rest
      some (c :: cs, rest)
    else none

def literal? : Reader (List Char)
  | [] => none
  | '\'' :: rest => some ([], rest)
  | c :: rest =>
    if isLiteral c then do
      let (cs, rest) ← literal? rest
      some (c :: cs, rest)
    else none

def closing? (quote : Char) (cs : List Char) : Option (List Char × List Char) :=
  -- of the quotes at the front up to two belong to the string and three close it
  let n := min 5 (cs.takeWhile (· = quote)).length
  if n < 3 then none else some (List.replicate (n - 3) quote, cs.drop n)

def joinedLine? (cs : List Char) : Option (List Char) := (newline? (skipSpace cs)).map skipBlank

def longBasic? : (fuel : Nat) → Reader (List Char)
  | 0, _ => none
  | _ + 1, [] => none
  | fuel + 1, '"' :: rest =>
    match closing? '"' ('"' :: rest) with
    | some found => some found
    | none => do
      let (cs, rest) ← longBasic? fuel rest
      some ('"' :: cs, rest)
  | fuel + 1, '\\' :: rest =>
    match joinedLine? rest with
    | some rest => longBasic? fuel rest
    | none => do
      let (c, rest) ← escape? rest
      let (cs, rest) ← longBasic? fuel rest
      some (c :: cs, rest)
  | fuel + 1, c :: rest =>
    match newline? (c :: rest) with
    | some rest => do
      let (cs, rest) ← longBasic? fuel rest
      some ('\n' :: cs, rest)
    | none =>
      if isBasic c then do
        let (cs, rest) ← longBasic? fuel rest
        some (c :: cs, rest)
      else none

def longLiteral? : (fuel : Nat) → Reader (List Char)
  | 0, _ => none
  | _ + 1, [] => none
  | fuel + 1, '\'' :: rest =>
    match closing? '\'' ('\'' :: rest) with
    | some found => some found
    | none => do
      let (cs, rest) ← longLiteral? fuel rest
      some ('\'' :: cs, rest)
  | fuel + 1, c :: rest =>
    match newline? (c :: rest) with
    | some rest => do
      let (cs, rest) ← longLiteral? fuel rest
      some ('\n' :: cs, rest)
    | none =>
      if isLiteral c then do
        let (cs, rest) ← longLiteral? fuel rest
        some (c :: cs, rest)
      else none

def string? (cs : List Char) : Option (String × List Char) :=
  let fuel := cs.length + 1
  let chars := match cs with
    | '"' :: '"' :: '"' :: rest => longBasic? fuel (skipNewline rest)
    | '\'' :: '\'' :: '\'' :: rest => longLiteral? fuel (skipNewline rest)
    | '"' :: rest => basic? fuel rest
    | '\'' :: rest => literal? rest
    | _ => none
  chars.map fun (cs, rest) => (String.ofList cs, rest)

def digits? (isDigit : Char → Bool) : Reader (List Char)
  | [] => none
  | c :: rest =>
    if isDigit c then
      match rest with
      | '_' :: rest => do
        let (ds, rest) ← digits? isDigit rest
        some (c :: ds, rest)
      | d :: rest =>
        if isDigit d then do
          let (ds, rest) ← digits? isDigit (d :: rest)
          some (c :: ds, rest)
        else some ([c], d :: rest)
      | [] => some ([c], [])
    else none

def sign : List Char → Bool × List Char
  | '-' :: rest => (true, rest)
  | '+' :: rest => (false, rest)
  | cs => (false, cs)

def whole? : Reader (List Char)
  | '0' :: rest => some (['0'], rest)
  | cs => digits? Char.isDigit cs

def fraction? : Reader (List Char)
  | '.' :: rest => (digits? Char.isDigit rest).map fun (ds, rest) => ('.' :: ds, rest)
  | cs => some ([], cs)

def power? : Reader (List Char)
  | [] => some ([], [])
  | c :: rest =>
    if c = 'e' ∨ c = 'E' then
      let (negative, rest) := sign rest
      (digits? Char.isDigit rest).map fun (ds, rest) =>
        (if negative then 'e' :: '-' :: ds else 'e' :: ds, rest)
    else some ([], c :: rest)

def ofInteger? (n : Int) : Option Toml :=
  if Number.inWord n then some (integer n) else none

def marked? (radix : Nat) (cs : List Char) : Option (Toml × List Char) := do
  let (ds, rest) ← digits? (fun c => (Number.digitIn? radix c).isSome) cs
  let n ← Number.numeral? radix ds
  some (← ofInteger? n, rest)

def ofDecimal? (negative : Bool) (cs : List Char) : Option Toml := do
  let d ← Literal.decimal? cs
  let x := Literal.nearestFloat d
  if negative then some (float (-x))
  else if x == Float.ofBits 0x7FF0000000000000 then none
  else some (float x)

def number? (cs : List Char) : Option (Toml × List Char) := do
  let (negative, cs) := sign cs
  match cs with
  | 'i' :: 'n' :: 'f' :: rest =>
    let x := Float.ofBits 0x7FF0000000000000
    some (float (if negative then -x else x), rest)
  | 'n' :: 'a' :: 'n' :: rest => some (float (Float.ofBits 0x7FF8000000000000), rest)
  | cs => do
    let (whole, cs) ← whole? cs
    let (fraction, cs) ← fraction? cs
    let (power, cs) ← power? cs
    if fraction = [] ∧ power = [] then do
      let n ← Number.numeral? 10 whole
      some (← ofInteger? (if negative then -n else n), cs)
    else do
      let x ← ofDecimal? negative (whole ++ fraction ++ power)
      some (x, cs)

def fixed? (count : Nat) (cs : List Char) : Option (Nat × List Char) := do
  let ds := cs.take count
  if ds.length = count then some (← Number.numeral? 10 ds, cs.drop count) else none

def expect? (c : Char) : List Char → Option (List Char)
  | d :: rest => if d = c then some rest else none
  | [] => none

def bounded? (count low high : Nat) (cs : List Char) : Option (Nat × List Char) := do
  let (n, rest) ← fixed? count cs
  if low ≤ n ∧ n ≤ high then some (n, rest) else none

def daysIn (year month : Nat) : Nat :=
  if month = 2 then
    if year % 4 = 0 ∧ (year % 100 ≠ 0 ∨ year % 400 = 0) then 29 else 28
  else if month ∈ [4, 6, 9, 11] then 30
  else 31

def padded (width n : Nat) : List Char :=
  let ds := Nat.toDigits 10 n
  List.replicate (width - ds.length) '0' ++ ds

def date? (cs : List Char) : Option (List Char × List Char) := do
  let (year, cs) ← fixed? 4 cs
  let cs ← expect? '-' cs
  let (month, cs) ← bounded? 2 1 12 cs
  let cs ← expect? '-' cs
  let (day, cs) ← bounded? 2 1 (daysIn year month) cs
  some (padded 4 year ++ '-' :: padded 2 month ++ '-' :: padded 2 day, cs)

def subseconds (ds : List Char) : List Char :=
  match ((ds.take 9).reverse.dropWhile (· = '0')).reverse with
  | [] => []
  | ds => '.' :: ds

def time? (cs : List Char) : Option (List Char × List Char) := do
  let (hour, cs) ← bounded? 2 0 23 cs
  let cs ← expect? ':' cs
  let (minute, cs) ← bounded? 2 0 59 cs
  let cs ← expect? ':' cs
  let (second, cs) ← bounded? 2 0 60 cs
  let clock := padded 2 hour ++ ':' :: padded 2 minute ++ ':' :: padded 2 second
  match cs with
  | '.' :: cs =>
    match cs.takeWhile Char.isDigit with
    | [] => none
    | ds => some (clock ++ subseconds ds, cs.dropWhile Char.isDigit)
  | cs => some (clock, cs)

def offset? : Reader (List Char)
  | 'Z' :: rest | 'z' :: rest => some (['Z'], rest)
  | '+' :: cs => distance? '+' cs
  | '-' :: cs => distance? '-' cs
  | cs => some ([], cs)
where
  distance? (sign : Char) (cs : List Char) : Option (List Char × List Char) := do
    let (hour, cs) ← bounded? 2 0 23 cs
    let cs ← expect? ':' cs
    let (minute, cs) ← bounded? 2 0 59 cs
    let sign := if hour = 0 ∧ minute = 0 then '+' else sign
    some (sign :: padded 2 hour ++ ':' :: padded 2 minute, cs)

def dateTail? : List Char → Option (List Char × List Char)
  | c :: cs =>
    if c = 'T' ∨ c = 't' ∨ c = ' ' then
      match time? cs with
      | some (t, cs) => (offset? cs).map fun (z, cs) => ('T' :: t ++ z, cs)
      | none => if c = ' ' then some ([], c :: cs) else none
    else some ([], c :: cs)
  | [] => some ([], [])

def datetime? (cs : List Char) : Option (Toml × List Char) :=
  match date? cs with
  | some (d, cs) => (dateTail? cs).map fun (t, cs) => (datetime (String.ofList (d ++ t)), cs)
  | none => (time? cs).map fun (t, cs) => (datetime (String.ofList t), cs)

def scalarValue? (cs : List Char) : Option (Toml × List Char) :=
  match cs with
  | '"' :: _ | '\'' :: _ => (string? cs).map fun (s, rest) => (string s, rest)
  | 't' :: 'r' :: 'u' :: 'e' :: rest => some (boolean true, rest)
  | 'f' :: 'a' :: 'l' :: 's' :: 'e' :: rest => some (boolean false, rest)
  | '0' :: 'x' :: rest => marked? 16 rest
  | '0' :: 'o' :: rest => marked? 8 rest
  | '0' :: 'b' :: rest => marked? 2 rest
  | cs => (datetime? cs).or (number? cs)

end PhpLint.Toml
