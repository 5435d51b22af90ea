import PhpLint.Literal
import PhpLint.Proofs.Literal.Token
import Mathlib.Data.List.Basic
import Mathlib.Data.Nat.Digits.Defs

/-! Integer literals as positional numerals. `Form` lists the spellings: a start that selects the radix, and
the digits after it. Each numeral has one form only, so the reader, which tries the starts one after another,
reads exactly the numerals whose value fits a word. What is written for a number, in any radix and with any
separators, is one of them. -/
namespace PhpLint.Literal
open Number (digitIn? positional numeral? inWord word?)

def IsDigit (radix : Nat) (c : Char) : Prop := IsHex c ∧ hexValue c < radix

instance (radix : Nat) (c : Char) : Decidable (IsDigit radix c) :=
  inferInstanceAs (Decidable (IsHex c ∧ hexValue c < radix))

def valueIn (radix : Nat) (digits : List Char) : Nat :=
  Nat.ofDigits radix (digits.map hexValue).reverse

inductive Form : List Char → Nat → List Char → Prop where
  | hexadecimal {mark digits} (known : mark = 'x' ∨ mark = 'X') : Form ('0' :: mark :: digits) 16 digits
  | binary {mark digits} (known : mark = 'b' ∨ mark = 'B') : Form ('0' :: mark :: digits) 2 digits
  | octal {mark digits} (known : mark = 'o' ∨ mark = 'O') : Form ('0' :: mark :: digits) 8 digits
  | leadingZero (digits : List Char) : Form ('0' :: digits) 8 digits
  | zero : Form ['0'] 10 ['0']
  | decimal {first rest} (nonzero : first ≠ '0') : Form (first :: rest) 10 (first :: rest)

inductive Numeral : List Char → Nat → Prop where
  | mk {text radix digits} (form : Form text radix digits) (nonempty : digits ≠ [])
      (all : ∀ c ∈ digits, IsDigit radix c) : Numeral text (valueIn radix digits)

theorem digitInIff (radix : Nat) (c : Char) (d : Nat) :
    digitIn? radix c = some d ↔ IsDigit radix c ∧ hexValue c = d := by
  simp only [digitIn?, Option.filter_eq_some_iff, digitIff, IsDigit, decide_eq_true_eq]
  constructor
  · rintro ⟨⟨hex, rfl⟩, small⟩
    exact ⟨⟨hex, small⟩, rfl⟩
  · rintro ⟨⟨hex, small⟩, rfl⟩
    exact ⟨⟨hex, rfl⟩, small⟩

theorem digitsIff (radix : Nat) (cs : List Char) (ds : List Nat) :
    cs.mapM (digitIn? radix) = some ds ↔ (∀ c ∈ cs, IsDigit radix c) ∧ cs.map hexValue = ds := by
  induction cs generalizing ds with
  | nil => simp [eq_comm]
  | cons c cs ih =>
    simp only [List.mapM_cons, bind, Option.bind_eq_some_iff, digitInIff, ih, pure]
    constructor
    · rintro ⟨d, ⟨first, rfl⟩, rest, ⟨others, rfl⟩, last⟩
      exact ⟨List.forall_mem_cons.mpr ⟨first, others⟩, Option.some.inj last⟩
    · rintro ⟨all, rfl⟩
      obtain ⟨first, others⟩ := List.forall_mem_cons.mp all
      exact ⟨_, ⟨first, rfl⟩, _, ⟨others, rfl⟩, rfl⟩

theorem positionalDigits (radix : Nat) (digits : List Nat) :
    positional radix digits = Nat.ofDigits radix digits.reverse := by
  simp only [positional, Nat.ofDigits_eq_foldr, List.foldr_reverse, Nat.mul_comm _ radix,
    Nat.add_comm (radix * _), Nat.cast_id]

theorem numeralIff (radix : Nat) (cs : List Char) (n : Nat) :
    numeral? radix cs = some n ↔
      cs ≠ [] ∧ (∀ c ∈ cs, IsDigit radix c) ∧ valueIn radix cs = n := by
  cases cs with
  | nil => simp [numeral?]
  | cons c cs =>
    simp only [numeral?, Option.map_eq_some_iff, digitsIff, positionalDigits, valueIn]
    constructor
    · rintro ⟨ds, ⟨all, rfl⟩, value⟩
      exact ⟨List.cons_ne_nil c cs, all, value⟩
    · rintro ⟨-, all, value⟩
      exact ⟨_, ⟨all, rfl⟩, value⟩

theorem octalUnmarked {c : Char} (digit : IsDigit 8 c) : c ∉ ['x', 'X', 'b', 'B', 'o', 'O'] := by
  intro mark
  have large : ['x', 'X', 'b', 'B', 'o', 'O'].all (¬ IsDigit 8 ·) = true := by decide +kernel
  exact of_decide_eq_true (List.all_eq_true.mp large c mark) digit

theorem formSelects {text digits : List Char} {radix : Nat} (form : Form text radix digits)
    (nonempty : digits ≠ []) (all : ∀ c ∈ digits, IsDigit radix c) : radixOf text = (radix, digits) := by
  cases form with
  | hexadecimal known => rcases known with rfl | rfl <;> rfl
  | binary known => rcases known with rfl | rfl <;> rfl
  | octal known => rcases known with rfl | rfl <;> rfl
  | leadingZero =>
    cases digits with
    | nil => contradiction
    | cons c rest =>
      have unmarked := octalUnmarked (all c List.mem_cons_self)
      simp only [List.mem_cons, not_or] at unmarked
      unfold radixOf
      split <;> simp_all
  | zero => rfl
  | decimal nonzero =>
    unfold radixOf
    split <;> simp_all

theorem selectsForm {text : List Char} (nonempty : (radixOf text).2 ≠ []) :
    Form text (radixOf text).1 (radixOf text).2 := by
  fun_cases radixOf text with
  | case1 digits => exact .hexadecimal (.inl rfl)
  | case2 digits => exact .hexadecimal (.inr rfl)
  | case3 digits => exact .binary (.inl rfl)
  | case4 digits => exact .binary (.inr rfl)
  | case5 digits => exact .octal (.inl rfl)
  | case6 digits => exact .octal (.inr rfl)
  | case7 c digits => exact .leadingZero (c :: digits)
  | case8 _ _ _ _ _ _ _ short =>
    cases text with
    | nil => contradiction
    | cons first rest =>
      by_cases zero : first = '0'
      · subst zero
        cases rest with
        | nil => exact .zero
        | cons c digits => exact (short c digits rfl).elim
      · exact .decimal zero

theorem readIff (text : List Char) (n : Nat) :
    numeral? (radixOf text).1 (radixOf text).2 = some n ↔ Numeral text n := by
  constructor
  · intro read
    obtain ⟨nonempty, all, rfl⟩ := (numeralIff _ _ _).mp read
    exact .mk (selectsForm nonempty) nonempty all
  · rintro ⟨form, nonempty, all⟩
    rw [formSelects form nonempty all]
    exact (numeralIff _ _ _).mpr ⟨nonempty, all, rfl⟩

theorem integerIff (raw : String) (w : Int64) :
    integer? raw = some w ↔
      ∃ n : Nat, Numeral (withoutSeparators raw) n ∧ word? n = some w := by
  simp only [integer?, Option.bind_eq_some_iff, readIff]

theorem integerSource {raw : String} {w : Int64} (read : integer? raw = some w) :
    ∃ n : Nat, Numeral (withoutSeparators raw) n ∧ n < 2 ^ 63 ∧ w.toInt = n := by
  obtain ⟨n, numeral, word⟩ := (integerIff raw w).mp read
  have value := Number.wordToInt word
  have most := w.toInt_lt
  exact ⟨n, numeral, by omega, value⟩

theorem integerRead {raw : String} {n : Nat} (numeral : Numeral (withoutSeparators raw) n)
    (small : n < 2 ^ 63) : integer? raw = some (Int64.ofNat n) := by
  have fits : inWord n := by
    unfold inWord
    omega
  refine (integerIff raw _).mpr ⟨n, numeral, ?_⟩
  rw [word?, if_pos fits, Int64.ofInt_eq_ofNat]

theorem digitCharRead : ∀ d < 16,
    Nat.digitChar d ∈ hexDigits ∧ hexDigits.idxOf (Nat.digitChar d) = d := by decide +kernel

section
variable {radix : Nat} (legal : 1 < radix ∧ radix ≤ 16)
include legal

theorem toDigitsRead (n : Nat) :
    (∀ c ∈ Nat.toDigits radix n, c ∈ hexDigits ∧ hexDigits.idxOf c < radix) ∧
    Nat.ofDigits radix ((Nat.toDigits radix n).map hexDigits.idxOf).reverse = n := by
  induction n using Nat.strongRecOn with
  | ind n ih =>
    by_cases small : n < radix
    · obtain ⟨member, index⟩ := digitCharRead n (by omega)
      simp [Nat.toDigits_of_lt_base small, member, index, small]
    · have below : n % radix < radix := Nat.mod_lt n (by omega)
      obtain ⟨member, index⟩ := digitCharRead (n % radix) (by omega)
      obtain ⟨others, value⟩ := ih (n / radix) (Nat.div_lt_self (by omega) legal.1)
      rw [Nat.toDigits_of_base_le legal.1 (by omega)]
      constructor
      · intro c written
        rcases List.mem_append.mp written with front | last
        · exact others c front
        · rw [List.mem_singleton.mp last]
          exact ⟨member, by omega⟩
      · rw [List.map_append, List.reverse_append, List.map_singleton, List.reverse_singleton,
          List.singleton_append, Nat.ofDigits_cons, value, index]
        exact Nat.mod_add_div n radix

theorem Numeral.ofText {text digits : List Char} {n : Nat} (form : Form text radix digits)
    (written : digits.map Char.toLower = Nat.toDigits radix n) : Numeral text n := by
  obtain ⟨all, value⟩ := toDigitsRead legal n
  rw [← written] at all value
  have nonempty : digits ≠ [] := by
    rintro rfl
    exact Nat.toDigits_ne_nil written.symm
  have digit : ∀ c ∈ digits, IsDigit radix c := fun c member => all c.toLower (List.mem_map_of_mem member)
  rw [List.map_map] at value
  rw [← value]
  exact .mk form nonempty digit

theorem Numeral.ofNumber {text : List Char} {n : Nat} (form : Form text radix (Nat.toDigits radix n)) :
    Numeral text n := by
  have lower : hexDigits.all (fun c => c.toLower = id c) = true := by decide +kernel
  refine .ofText legal form ((List.map_congr_left ?_).trans (List.map_id _))
  intro c written
  exact of_decide_eq_true (List.all_eq_true.mp lower c ((toDigitsRead legal n).1 c written).1)

end

theorem toDigitsFirst {n : Nat} (positive : 0 < n) : (Nat.toDigits 10 n).head? ≠ some '0' := by
  induction n using Nat.strongRecOn with
  | ind n ih =>
    by_cases small : n < 10
    · simp only [Nat.toDigits_of_lt_base small, List.head?_cons, ne_eq, Option.some.injEq,
        Nat.digitChar_eq_zero]
      omega
    · have front := ih (n / 10) (by omega) (by omega)
      rw [Nat.toDigits_of_base_le (by decide) (by omega),
        List.head?_append_of_ne_nil _ Nat.toDigits_ne_nil]
      exact front

theorem decimalForm (n : Nat) : Form (Nat.toDigits 10 n) 10 (Nat.toDigits 10 n) := by
  rcases Nat.eq_zero_or_pos n with rfl | positive
  · exact .zero
  · have first := toDigitsFirst positive
    cases digits : Nat.toDigits 10 n with
    | nil => exact (Nat.toDigits_ne_nil digits).elim
    | cons c rest =>
      rw [digits] at first
      exact .decimal fun zero => first (congrArg some zero)

inductive Writes (n : Nat) : List Char → Prop where
  | decimal : Writes n (Nat.toDigits 10 n)
  | hexadecimal {mark digits} (known : mark = 'x' ∨ mark = 'X')
      (same : digits.map Char.toLower = Nat.toDigits 16 n) : Writes n ('0' :: mark :: digits)
  | binary {mark} (known : mark = 'b' ∨ mark = 'B') : Writes n ('0' :: mark :: Nat.toDigits 2 n)
  | octal {mark} (known : mark = 'o' ∨ mark = 'O') : Writes n ('0' :: mark :: Nat.toDigits 8 n)
  | leadingZero : Writes n ('0' :: Nat.toDigits 8 n)

theorem Writes.numeral {text : List Char} {n : Nat} (writes : Writes n text) : Numeral text n := by
  cases writes with
  | decimal => exact .ofNumber (by decide) (decimalForm n)
  | hexadecimal known same => exact .ofText (by decide) (.hexadecimal known) same
  | binary known => exact .ofNumber (by decide) (.binary known)
  | octal known => exact .ofNumber (by decide) (.octal known)
  | leadingZero => exact .ofNumber (by decide) (.leadingZero _)

theorem integersPositional (raw : String) :
    (∀ w : Int64, integer? raw = some w ↔
      ∃ n : Nat, Numeral (withoutSeparators raw) n ∧ n < 2 ^ 63 ∧ w.toInt = n) ∧
    (integer? raw = none ↔ ¬ ∃ n, Numeral (withoutSeparators raw) n ∧ n < 2 ^ 63) ∧
    ∀ n < 2 ^ 63, Writes n (withoutSeparators raw) → integer? raw = some (Int64.ofNat n) := by
  refine ⟨?_, ?_, fun n small writes => integerRead writes.numeral small⟩
  · intro w
    refine ⟨integerSource, ?_⟩
    rintro ⟨n, numeral, small, value⟩
    have same : w.toInt = (Int64.ofNat n).toInt := value.trans (Int64.toInt_ofNat_of_lt small).symm
    rw [integerRead numeral small, Int64.toInt_inj.mp same]
  · constructor
    · rintro none ⟨n, numeral, small⟩
      rw [integerRead numeral small] at none
      contradiction
    · intro absent
      cases read : integer? raw with
      | none => rfl
      | some w =>
        obtain ⟨n, numeral, small, -⟩ := integerSource read
        exact (absent ⟨n, numeral, small⟩).elim

theorem largestRead :
    Writes (2 ^ 63 - 1) (withoutSeparators "0_X7fFF_ffff__ffFF_Ffff_") ∧
    integer? "0_X7fFF_ffff__ffFF_Ffff_" = some 0x7fffffffffffffff := by
  have writes : Writes (2 ^ 63 - 1) (withoutSeparators "0_X7fFF_ffff__ffFF_Ffff_") :=
    .hexadecimal (.inr rfl) (by decide +kernel)
  exact ⟨writes, (integersPositional _).2.2 (2 ^ 63 - 1) (by decide) writes⟩

end PhpLint.Literal
