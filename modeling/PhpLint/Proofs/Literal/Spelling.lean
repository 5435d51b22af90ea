import PhpLint.Proofs.Literal.Token

/-! A literal for every text. Bytes can be written one by one as hexadecimal escapes, and a text between
either quotes with a backslash before each character that has a meaning of its own there; with or without
a binary mark in front, the literal denotes the bytes or the text again. -/
namespace PhpLint.Literal

def quoted (q : Quote) (body : List Char) : String := String.ofList (q.char :: (body ++ [q.char]))

def marks : List String := ["", "b", "B"]

def Denotes (raw : String) (bytes : Bytes) : Prop :=
  ∀ mark ∈ marks, string? (mark ++ raw) = some bytes

theorem quoteRead (q : Quote) : Quote.ofChar? q.char = some q := by
  cases q <;> rfl

theorem partsQuoted (q : Quote) (body : List Char) {mark : String} (known : mark ∈ marks) :
    parts? (mark ++ quoted q body).toList = some (q, body) := by
  have unmarkedQuote : unmarked (mark ++ quoted q body).toList = q.char :: (body ++ [q.char]) := by
    rw [String.toList_append, quoted, String.toList_ofList]
    simp only [marks, List.mem_cons, List.not_mem_nil, or_false] at known
    rcases known with rfl | rfl | rfl
    · -- a quote in front is never taken for a mark
      cases q <;> cases body <;> rfl
    · cases q <;> rfl
    · cases q <;> rfl
  rw [parts?, unmarkedQuote]
  simp [quoteRead]

theorem bodyDenotes {q : Quote} (b : Body q) (static : q = .double → ¬ b.HasVariable) :
    Denotes (quoted q b.text) b.bytes := by
  intro mark known
  rw [string?, partsQuoted q b.text known]
  cases q with
  | single => exact b.decodes
  | double =>
    have fixed : isDynamic b.text = false := b.staticIff.mpr (static rfl)
    simp only [bind, Option.bind_some, Quote.interpolates, fixed, Bool.and_false]
    exact b.decodes

theorem tokensDenote {q : Quote} {α : Type} (token : α → Token q) (items : List α)
    (static : q = .double → ∀ item, (token item).text ≠ ['$']) :
    Denotes (quoted q (items.flatMap fun item => (token item).text))
      (items.flatMap fun item => (token item).bytes) := by
  let b : Body q := ⟨items.map token, false⟩
  have text : b.text = items.flatMap fun item => (token item).text := by
    simp [b, Body.text, Body.ending, List.flatMap_map]
  have bytes : b.bytes = items.flatMap fun item => (token item).bytes := by
    simp [b, Body.bytes, Body.ending, List.flatMap_map, Utf8.encode]
  rw [← text, ← bytes]
  refine bodyDenotes b ?_
  rintro double ⟨t, member, dollar⟩
  obtain ⟨item, -, rfl⟩ := List.mem_map.mp member
  exact static double item dollar

def specials : Quote → List Char
  | .single => ['\\', '\'']
  | .double => ['\\', '"', '$']

def escaped (q : Quote) (cs : List Char) : List Char :=
  cs.flatMap fun c => if c ∈ specials q then ['\\', c] else [c]

theorem escapeSpecial {q : Quote} {c : Char} (special : c ∈ specials q) :
    escape? q c = some (String.utf8EncodeChar c) := by
  cases q with
  | single =>
    have either : c = '\\' ∨ c = '\'' := by simpa [specials] using special
    simp [escape?, either]
  | double =>
    have either : c = '\\' ∨ c = '"' ∨ c = '$' := by simpa [specials] using special
    rcases either with rfl | rfl | rfl <;> rfl

theorem backslashSpecial {q : Quote} {c : Char} (ordinary : c ∉ specials q) : c ≠ '\\' := by
  rintro rfl
  cases q <;> simp [specials] at ordinary

def charToken (q : Quote) (c : Char) : Token q :=
  if special : c ∈ specials q then .escape c _ (escapeSpecial special)
  else .plain c (backslashSpecial special)

theorem charTokenText (q : Quote) (c : Char) :
    (charToken q c).text = if c ∈ specials q then ['\\', c] else [c] := by
  unfold charToken
  split <;> rfl

theorem charTokenBytes (q : Quote) (c : Char) : (charToken q c).bytes = String.utf8EncodeChar c := by
  unfold charToken
  split <;> rfl

theorem charTokenStatic (c : Char) : (charToken .double c).text ≠ ['$'] := by
  rw [charTokenText]
  split
  · simp
  · rename_i ordinary
    intro dollar
    cases List.head_eq_of_cons_eq dollar
    exact ordinary (by decide)

theorem textDenotes (q : Quote) (s : String) :
    Denotes (quoted q (escaped q s.toList)) (Utf8.ofString s) := by
  have written := tokensDenote (charToken q) s.toList (by rintro rfl; exact charTokenStatic)
  simp only [charTokenText, charTokenBytes] at written
  exact written

def hexDigit (capital : Bool) (n : Nat) : Char :=
  if capital then (hexDigits.getD n '0').toUpper else hexDigits.getD n '0'

def hexEscape (written : UInt8 × Bool × Bool) : List Char :=
  ['\\', 'x', hexDigit written.2.1 (written.1.toNat / 16), hexDigit written.2.2 (written.1.toNat % 16)]

theorem hexDigitRead (capital : Bool) (n : Nat) (small : n < 16) :
    IsHex (hexDigit capital n) ∧ hexValue (hexDigit capital n) = n := by
  revert n
  cases capital <;> decide +kernel

theorem highDigit (b : UInt8) : b.toNat / 16 < 16 := by
  have bound := b.toNat_lt
  omega

theorem lowDigit (b : UInt8) : b.toNat % 16 < 16 := Nat.mod_lt _ (by decide)

def hexToken (written : UInt8 × Bool × Bool) : Token .double :=
  .hex _ _ rfl (hexDigitRead written.2.1 _ (highDigit written.1)).1
    (hexDigitRead written.2.2 _ (lowDigit written.1)).1

theorem hexTokenBytes (written : UInt8 × Bool × Bool) : (hexToken written).bytes = [written.1] := by
  have high := (hexDigitRead written.2.1 _ (highDigit written.1)).2
  have low := (hexDigitRead written.2.2 _ (lowDigit written.1)).2
  rw [hexToken, Token.bytes, high, low, Nat.div_add_mod, UInt8.ofNat_toNat]

theorem bytesDenoted (written : List (UInt8 × Bool × Bool)) :
    Denotes (quoted .double (written.flatMap hexEscape)) (written.map Prod.fst) := by
  have denoted := tokensDenote hexToken written fun _ item => by simp [hexToken, Token.text]
  simp only [hexTokenBytes, ← List.map_eq_flatMap] at denoted
  exact denoted

theorem literalsDenote :
    (∀ written : List (UInt8 × Bool × Bool),
      Denotes (quoted .double (written.flatMap hexEscape)) (written.map Prod.fst)) ∧
    (∀ s : String, Denotes (quoted .single (escaped .single s.toList)) (Utf8.ofString s)) ∧
    (∀ s : String, Denotes (quoted .double (escaped .double s.toList)) (Utf8.ofString s)) :=
  ⟨bytesDenoted, textDenotes .single, textDenotes .double⟩

end PhpLint.Literal
