/-! Positional numerals in a radix up to sixteen, finite floats as exact numbers with a sign, a mantissa and a
power of two, signed words of 64 bits, and the shortest decimal text of a float. Of all decimals that round
to the float, its digits are those of one with the fewest digits, and among these of the one nearest to it. -/
namespace PhpLint.Number

def digit? (c : Char) : Option Nat :=
  if '0' ≤ c ∧ c ≤ '9' then some (c.toNat - '0'.toNat)
  else if 'a' ≤ c ∧ c ≤ 'f' then some (c.toNat - 'a'.toNat + 10)
  else if 'A' ≤ c ∧ c ≤ 'F' then some (c.toNat - 'A'.toNat + 10)
  else none

def digitIn? (radix : Nat) (c : Char) : Option Nat := (digit? c).filter (· < radix)

def positional (radix : Nat) (digits : List Nat) : Nat :=
  digits.foldl (fun n d => n * radix + d) 0

def numeral? (radix : Nat) : List Char → Option Nat
  | [] => none
  | cs => (cs.mapM (digitIn? radix)).map (positional radix)

structure Dyadic where
  negative : Bool
  mantissa : Nat
  exponent : Int
  deriving DecidableEq, Repr

def hiddenBit : Nat := 0x10000000000000

def Dyadic.ofFloat? (x : Float) : Option Dyadic :=
  let bits : Nat := x.toBits.toNat
  let negative := decide (0x8000000000000000 ≤ bits)
  let biased : Nat := bits / hiddenBit % 2048
  let fraction : Nat := bits % hiddenBit
  if biased = 2047 then none
  else if biased = 0 then some ⟨negative, fraction, -1074⟩
  else some ⟨negative, fraction + hiddenBit, (biased : Int) - 1075⟩

def Dyadic.truncate (d : Dyadic) : Int :=
  let magnitude : Nat :=
    if 0 ≤ d.exponent then d.mantissa * Nat.pow 2 d.exponent.toNat
    else d.mantissa / Nat.pow 2 (-d.exponent).toNat
  if d.negative then -(magnitude : Int) else magnitude

def inWord (n : Int) : Prop := -0x8000000000000000 ≤ n ∧ n < 0x8000000000000000

instance (n : Int) : Decidable (inWord n) := inferInstanceAs (Decidable (_ ∧ _))

def word? (n : Int) : Option Int64 := if inWord n then some (Int64.ofInt n) else none

theorem wordToInt {n : Int} {w : Int64} (h : word? n = some w) : w.toInt = n := by
  unfold word? at h
  split at h
  · rename_i bound
    cases Option.some.inj h
    exact Int64.toInt_ofInt_of_le bound.1 bound.2
  · contradiction

theorem wordNone {n : Int} : word? n = none ↔ ¬ inWord n := by
  simp [word?]

def truncate? (x : Float) : Option Int64 := (Dyadic.ofFloat? x).bind fun d => word? d.truncate

structure Decimal where
  coefficient : Nat
  power : Int
  deriving DecidableEq, Repr

structure Interval where
  value : Nat
  low : Nat
  high : Nat
  denominator : Nat
  closed : Bool
  deriving DecidableEq, Repr

/-- The rounding interval of the positive number `mantissa * 2 ^ exponent`. The gap below a power
of two is half as wide as the gap above it, except at the bottom of the range. -/
def Interval.around (mantissa : Nat) (exponent : Int) : Interval :=
  let below := if mantissa = hiddenBit ∧ exponent ≠ -1074 then 1 else 2
  let scale := Nat.pow 2 (exponent - 2).toNat
  { value := 4 * mantissa * scale
    low := (4 * mantissa - below) * scale
    high := (4 * mantissa + 2) * scale
    denominator := Nat.pow 2 (2 - exponent).toNat
    closed := mantissa % 2 = 0 }

def Interval.contains (i : Interval) (d : Decimal) : Bool :=
  let up := Nat.pow 10 (-d.power).toNat
  let x := d.coefficient * (i.denominator * Nat.pow 10 d.power.toNat)
  if i.closed then i.low * up ≤ x && x ≤ i.high * up else i.low * up < x && x < i.high * up

def Interval.magnitude (i : Interval) : Int :=
  let whole := i.value / i.denominator
  if whole = 0 then
    match (List.range 400).find? fun j => i.denominator ≤ i.value * Nat.pow 10 j with
    | some j => -(j : Int)
    | none => 0
  else (Nat.toDigits 10 whole).length - 1

def Interval.nearest? (i : Interval) (power : Int) : Option Decimal :=
  let n := i.value * Nat.pow 10 (-power).toNat
  let d := i.denominator * Nat.pow 10 power.toNat
  let below : Decimal := ⟨n / d, power⟩
  let above : Decimal := ⟨n / d + 1, power⟩
  if i.contains below then
    -- of two that are equally near, the greater
    if i.contains above ∧ d ≤ 2 * (n % d) then some above else some below
  else if i.contains above then some above
  else none

/-- The shortest decimal in the interval, by trying one digit, two digits and so on. Seventeen
digits always suffice. -/
def Interval.shortest (i : Interval) : Decimal :=
  let top := i.magnitude
  ((List.range 17).findSome? fun n : Nat => i.nearest? (top - n)).getD ⟨0, 0⟩

structure FloatStyle where
  least : Int
  greatest : Int
  deriving DecidableEq, Repr

def FloatStyle.standard : FloatStyle := ⟨-4, 15⟩

def FloatStyle.write (style : FloatStyle) (digits : List Char) (exponent : Int) : String :=
  if style.least ≤ exponent ∧ exponent ≤ style.greatest then
    if exponent < 0 then
      "0." ++ String.ofList (List.replicate (-exponent - 1).toNat '0' ++ digits)
    else
      let n := exponent.toNat + 1
      let whole := digits.take n ++ List.replicate (n - digits.length) '0'
      let fraction := if digits.length ≤ n then ['0'] else digits.drop n
      String.ofList (whole ++ '.' :: fraction)
  else
    let fraction := digits.drop 1
    let point := if fraction.isEmpty then [] else '.' :: fraction
    String.ofList (digits.take 1 ++ point) ++ "e" ++ toString exponent

def FloatStyle.text (style : FloatStyle) (x : Float) : String :=
  match Dyadic.ofFloat? x with
  | none => if x < 0 then "-inf" else if 0 < x then "inf" else "NaN"
  | some d =>
    let sign := if d.negative then "-" else ""
    if d.mantissa = 0 then sign ++ style.write ['0'] 0
    else
      let short := (Interval.around d.mantissa d.exponent).shortest
      let digits := Nat.toDigits 10 short.coefficient
      let significant := (digits.reverse.dropWhile (· = '0')).reverse
      sign ++ style.write significant (short.power + digits.length - 1)

end PhpLint.Number
