import PhpLint.Literal

/-! Quoted bodies, token by token. A token is an ordinary character, a backslash with one character that
it gives a meaning, or the byte of two hexadecimal digits; only the end of a body may hold a backslash
with nothing after it. No token begins another one, so a body has at most one tokenisation. Decoding
writes the bytes of the tokens one after another, and a body is dynamic when an unescaped `$` is among
its tokens. -/
namespace PhpLint.Literal

def hexDigits : List Char := "0123456789abcdef".toList

def IsHex (c : Char) : Prop := c.toLower ∈ hexDigits

instance (c : Char) : Decidable (IsHex c) := inferInstanceAs (Decidable (c.toLower ∈ hexDigits))

def hexValue (c : Char) : Nat := hexDigits.idxOf c.toLower

theorem digitAscii (n : Nat) (small : n < 128) :
    Number.digit? (Char.ofNat n) =
      if IsHex (Char.ofNat n) then some (hexValue (Char.ofNat n)) else none := by
  revert n
  decide +kernel

theorem digitIff (c : Char) (n : Nat) : Number.digit? c = some n ↔ IsHex c ∧ hexValue c = n := by
  by_cases ascii : c.toNat < 128
  · have value := digitAscii c.toNat ascii
    rw [Char.ofNat_toNat] at value
    rw [value]
    split
    · rename_i digit
      simp [digit]
    · rename_i other
      simp [other]
  · have beyond (d : Char) (low : d.toNat < 128) : ¬ c ≤ d := by
      rw [Char.le_def, UInt32.le_iff_toNat_le]
      intro below
      exact ascii (Nat.lt_of_le_of_lt below low)
    have none : Number.digit? c = none := by
      simp [Number.digit?, beyond '9' (by decide), beyond 'f' (by decide), beyond 'F' (by decide)]
    have other : ¬ IsHex c := by
      have same : c.toLower = c := by
        unfold Char.toLower
        exact dif_neg fun upper => beyond 'Z' (by decide) upper.2
      intro member
      unfold IsHex at member
      rw [same] at member
      have small : hexDigits.all (·.toNat < 128) = true := by decide +kernel
      exact ascii (of_decide_eq_true (List.all_eq_true.mp small c member))
    simp [none, other]

/- What a backslash before a character stands for. Between single quotes it escapes another backslash or
a single quote and is kept before anything else; between double quotes these escapes have a meaning. -/
def escape? : Quote → Char → Option Bytes
  | .single, c =>
    some (if c = '\\' ∨ c = '\'' then String.utf8EncodeChar c
      else 0x5C :: String.utf8EncodeChar c)
  | .double, c =>
    [('\\', [0x5C]), ('"', [0x22]), ('$', [0x24]), ('n', [0x0A]), ('r', [0x0D]), ('t', [0x09]),
      ('\'', [0x5C, 0x27])].lookup c

theorem doubleEscape {c : Char} {bytes : Bytes} (known : escape? .double c = some bytes) :
    c = '\\' ∧ bytes = [0x5C] ∨ c = '"' ∧ bytes = [0x22] ∨ c = '$' ∧ bytes = [0x24] ∨
    c = 'n' ∧ bytes = [0x0A] ∨ c = 'r' ∧ bytes = [0x0D] ∨ c = 't' ∧ bytes = [0x09] ∨
    c = '\'' ∧ bytes = [0x5C, 0x27] := by
  obtain ⟨before, after, entries, -⟩ := List.lookup_eq_some_iff.mp known
  have member : (c, bytes) ∈ before ++ (c, bytes) :: after := by simp
  rw [← entries] at member
  simpa using member

inductive Token (q : Quote) where
  | plain (c : Char) (ordinary : c ≠ '\\')
  | escape (c : Char) (bytes : Bytes) (known : escape? q c = some bytes)
  | hex (hi lo : Char) (double : q = .double) (high : IsHex hi) (low : IsHex lo)

namespace Token

variable {q : Quote}

def text : Token q → List Char
  | plain c _ => [c]
  | escape c _ _ => ['\\', c]
  | hex hi lo _ _ _ => ['\\', 'x', hi, lo]

def bytes : Token q → Bytes
  | plain c _ => String.utf8EncodeChar c
  | escape _ bytes _ => bytes
  | hex hi lo _ _ _ => [UInt8.ofNat (16 * hexValue hi + hexValue lo)]

theorem hexUnescaped (double : q = .double) : escape? q 'x' = none := by
  rw [double]
  decide

theorem textFirst {t u : Token q} {rest more : List Char} (same : t.text ++ rest = u.text ++ more) :
    t = u ∧ rest = more := by
  cases t with
  | plain c ordinary =>
    cases u with
    | plain d _ =>
      obtain ⟨rfl, rfl⟩ : c = d ∧ rest = more := by simpa [text] using same
      exact ⟨rfl, rfl⟩
    | escape d bytes known => exact absurd (List.head_eq_of_cons_eq same) ordinary
    | hex hi lo double high low => exact absurd (List.head_eq_of_cons_eq same) ordinary
  | escape c bytes known =>
    cases u with
    | plain d ordinary => exact absurd (List.head_eq_of_cons_eq same).symm ordinary
    | escape d more known' =>
      obtain ⟨rfl, rfl⟩ : c = d ∧ rest = _ := by simpa [text] using same
      cases Option.some.inj (known.symm.trans known')
      exact ⟨rfl, rfl⟩
    | hex hi lo double high low =>
      obtain ⟨rfl, -⟩ : c = 'x' ∧ rest = _ := by simpa [text] using same
      rw [hexUnescaped double] at known
      contradiction
  | hex hi lo double high low =>
    cases u with
    | plain d ordinary => exact absurd (List.head_eq_of_cons_eq same).symm ordinary
    | escape d bytes known =>
      obtain ⟨rfl, -⟩ : 'x' = d ∧ _ = more := by simpa [text] using same
      rw [hexUnescaped double] at known
      contradiction
    | hex hi' lo' _ _ _ =>
      obtain ⟨rfl, rfl, rfl⟩ : hi = hi' ∧ lo = lo' ∧ rest = more := by simpa [text] using same
      exact ⟨rfl, rfl⟩

theorem hexByteIff (hi lo : Char) (b : UInt8) : hexByte? hi lo = some b ↔
    IsHex hi ∧ IsHex lo ∧ UInt8.ofNat (16 * hexValue hi + hexValue lo) = b := by
  unfold hexByte?
  simp only [bind, Option.bind_eq_some_iff, digitIff, Option.some.injEq]
  constructor
  · rintro ⟨_, ⟨high, rfl⟩, _, ⟨low, rfl⟩, byte⟩
    exact ⟨high, low, by rw [Nat.mul_comm, byte]⟩
  · rintro ⟨high, low, byte⟩
    exact ⟨_, ⟨high, rfl⟩, _, ⟨low, rfl⟩, by rw [Nat.mul_comm, byte]⟩

theorem decodeFirst (t : Token q) (rest : List Char) :
    decodeBody? q (t.text ++ rest) = (decodeBody? q rest).map (t.bytes ++ ·) := by
  cases t with
  | plain c ordinary =>
    cases q with
    | single => simp [text, bytes, decodeBody?, decodeSingle, ordinary]
    | double => simp [text, bytes, decodeBody?, decodeDouble?, ordinary]
  | escape c bytes known =>
    cases q with
    | single =>
      cases Option.some.inj known
      by_cases special : c = '\\' ∨ c = '\''
      · rcases special with rfl | rfl <;> rfl
      · have other := not_or.mp special
        simp [text, Token.bytes, decodeBody?, decodeSingle, other]
    | double =>
      rcases doubleEscape known with ⟨rfl, rfl⟩ | ⟨rfl, rfl⟩ | ⟨rfl, rfl⟩ | ⟨rfl, rfl⟩ | ⟨rfl, rfl⟩ |
        ⟨rfl, rfl⟩ | ⟨rfl, rfl⟩ <;> rfl
  | hex hi lo double high low =>
    cases double
    have byte := (hexByteIff hi lo _).mpr ⟨high, low, rfl⟩
    simp only [text, bytes, List.cons_append, List.nil_append, decodeBody?, decodeDouble?, byte, bind,
      Option.bind_some, Option.map_eq_bind]
    rfl

theorem escapeFirst {c : Char} {rest : List Char} {bytes : Bytes}
    (decoded : decodeBody? q ('\\' :: c :: rest) = some bytes) :
    ∃ (t : Token q) (more : List Char), '\\' :: c :: rest = t.text ++ more := by
  cases known : escape? q c with
  | some own => exact ⟨.escape c own known, rest, rfl⟩
  | none =>
    cases q with
    | single => contradiction
    | double =>
      have apart : c ≠ '\\' ∧ c ≠ '"' ∧ c ≠ '$' ∧ c ≠ 'n' ∧ c ≠ 'r' ∧ c ≠ 't' ∧ c ≠ '\'' := by
        simpa [escape?] using known
      by_cases digits : ∃ hi lo more, c = 'x' ∧ rest = hi :: lo :: more
      · obtain ⟨hi, lo, more, rfl, rfl⟩ := digits
        simp only [decodeBody?, decodeDouble?, bind, Option.bind_eq_some_iff] at decoded
        obtain ⟨b, byte, -⟩ := decoded
        obtain ⟨high, low, -⟩ := (hexByteIff hi lo b).mp byte
        exact ⟨.hex hi lo rfl high low, more, rfl⟩
      · simp only [not_exists, not_and] at digits
        have undecodable : decodeDouble? ('\\' :: c :: rest) = none := by
          simp [decodeDouble?, apart]
        rw [decodeBody?, undecodable] at decoded
        contradiction

theorem variableFirst (t : Token q) (rest : List Char) :
    hasVariable false (t.text ++ rest) = (decide (t.text = ['$']) || hasVariable false rest) := by
  cases t with
  | plain c ordinary => simp [text, hasVariable, ordinary]
  | escape c bytes known => by_cases again : c = '\\' <;> simp [text, hasVariable, again]
  | hex hi lo double high low =>
    have digit {c : Char} (isHex : IsHex c) : c ≠ '\\' ∧ c ≠ '$' := by
      constructor <;> rintro rfl <;> revert isHex <;> decide +kernel
    simp [text, hasVariable, digit high, digit low]

end Token

structure Body (q : Quote) where
  tokens : List (Token q)
  lone : Bool

namespace Body

variable {q : Quote}

def ending (lone : Bool) : List Char := if lone then ['\\'] else []

def text (b : Body q) : List Char := b.tokens.flatMap Token.text ++ ending b.lone

def bytes (b : Body q) : Bytes := b.tokens.flatMap Token.bytes ++ Utf8.encode (ending b.lone)

def HasVariable (b : Body q) : Prop := ∃ t ∈ b.tokens, t.text = ['$']

theorem consText (t : Token q) (tokens : List (Token q)) (lone : Bool) :
    text ⟨t :: tokens, lone⟩ = t.text ++ text ⟨tokens, lone⟩ := by
  simp [text]

theorem consBytes (t : Token q) (tokens : List (Token q)) (lone : Bool) :
    bytes ⟨t :: tokens, lone⟩ = t.bytes ++ bytes ⟨tokens, lone⟩ := by
  simp [bytes]

theorem decodes (b : Body q) : decodeBody? q b.text = some b.bytes := by
  obtain ⟨tokens, lone⟩ := b
  induction tokens with
  | nil => cases q <;> cases lone <;> rfl
  | cons t tokens ih =>
    rw [consText, consBytes, Token.decodeFirst, ih]
    rfl

theorem dynamicIff (b : Body q) : isDynamic b.text = true ↔ b.HasVariable := by
  obtain ⟨tokens, lone⟩ := b
  unfold HasVariable isDynamic
  induction tokens with
  | nil => cases lone <;> simp [text, ending, hasVariable]
  | cons t tokens ih =>
    rw [consText, Token.variableFirst, Bool.or_eq_true, ih]
    simp

theorem staticIff (b : Body q) : isDynamic b.text = false ↔ ¬ b.HasVariable := by
  rw [← b.dynamicIff, Bool.not_eq_true]

theorem endingApart (lone : Bool) (t : Token q) (rest : List Char) : ending lone ≠ t.text ++ rest := by
  intro same
  cases lone with
  | false => cases t <;> simp [ending, Token.text] at same
  | true =>
    cases t with
    | plain c ordinary => exact ordinary (List.head_eq_of_cons_eq same).symm
    | escape c bytes known => simp [ending, Token.text] at same
    | hex hi lo double high low => simp [ending, Token.text] at same

theorem textInjective {b c : Body q} (same : b.text = c.text) : b = c := by
  obtain ⟨ts, lone⟩ := b
  obtain ⟨us, lone'⟩ := c
  induction ts generalizing us with
  | nil =>
    cases us with
    | nil => cases lone <;> cases lone' <;> first | rfl | contradiction
    | cons u us =>
      rw [consText] at same
      exact absurd same (endingApart lone u _)
  | cons t ts ih =>
    cases us with
    | nil =>
      rw [consText] at same
      exact absurd same.symm (endingApart lone' t _)
    | cons u us =>
      rw [consText, consText] at same
      obtain ⟨rfl, rest⟩ := Token.textFirst same
      cases ih us rest
      rfl

/- By recursion on the length: a first token is split off, and what follows it decodes again. -/
theorem tokenised (body : List Char) {bytes : Bytes} (decoded : decodeBody? q body = some bytes) :
    ∃ b : Body q, b.text = body := by
  have after (t : Token q) (more : List Char) (split : body = t.text ++ more) :
      ∃ b : Body q, b.text = body := by
    rw [split, Token.decodeFirst] at decoded
    obtain ⟨rest, later, -⟩ := Option.map_eq_some_iff.mp decoded
    have shorter : more.length < body.length := by
      rw [split, List.length_append]
      cases t <;> simp only [Token.text, List.length_cons, List.length_nil] <;> omega
    obtain ⟨⟨tokens, lone⟩, text⟩ := tokenised more later
    exact ⟨⟨t :: tokens, lone⟩, by rw [consText, text, split]⟩
  cases body with
  | nil => exact ⟨⟨[], false⟩, rfl⟩
  | cons c rest =>
    by_cases backslash : c = '\\'
    · subst backslash
      cases rest with
      | nil => exact ⟨⟨[], true⟩, rfl⟩
      | cons d rest =>
        obtain ⟨t, more, split⟩ := Token.escapeFirst decoded
        exact after t more split
    · exact after (.plain c backslash) rest rfl
termination_by body.length

theorem decodedIff (body : List Char) (bytes : Bytes) :
    decodeBody? q body = some bytes ↔ ∃ b : Body q, b.text = body ∧ b.bytes = bytes := by
  constructor
  · intro decoded
    obtain ⟨b, rfl⟩ := tokenised body decoded
    exact ⟨b, rfl, Option.some.inj (b.decodes.symm.trans decoded)⟩
  · rintro ⟨b, rfl, rfl⟩
    exact b.decodes

end Body

theorem plainDecoded (q : Quote) {body : List Char} (plain : '\\' ∉ body) :
    decodeBody? q body = some (Utf8.encode body) := by
  induction body with
  | nil => cases q <;> rfl
  | cons c rest ih =>
    obtain ⟨ordinary, later⟩ := not_or.mp (mt List.mem_cons.mpr plain)
    have first := Token.decodeFirst (.plain c (Ne.symm ordinary) : Token q) rest
    rw [ih later] at first
    exact first

def variableIn (run : Nat) : Bytes → Bool
  | [] => false
  | b :: rest =>
    if b = 0x5C then variableIn (run + 1) rest
    else if b = 0x24 ∧ run % 2 = 0 then true
    else variableIn 0 rest

theorem highBytes {c : Char} (high : 128 ≤ c.toNat) (b : UInt8) (member : b ∈ String.utf8EncodeChar c) :
    b ≠ 0x5C ∧ b ≠ 0x24 := by
  have large : 128 ≤ b.toNat := by
    have bound : 127 < c.val.toNat := high
    simp only [String.utf8EncodeChar, Nat.not_le.mpr bound, if_false] at member
    split at member
    · simp only [List.mem_cons, List.not_mem_nil, or_false] at member
      rcases member with rfl | rfl <;> simp only [UInt8.toNat_ofNat'] <;> omega
    · split at member
      · simp only [List.mem_cons, List.not_mem_nil, or_false] at member
        rcases member with rfl | rfl | rfl <;> simp only [UInt8.toNat_ofNat'] <;> omega
      · simp only [List.mem_cons, List.not_mem_nil, or_false] at member
        rcases member with rfl | rfl | rfl | rfl <;> simp only [UInt8.toNat_ofNat'] <;> omega
  constructor <;> rintro rfl <;> exact absurd large (by decide)

theorem variableSkips {bs : Bytes} (other : ∀ b ∈ bs, b ≠ 0x5C ∧ b ≠ 0x24) (nonempty : bs ≠ [])
    (run : Nat) (rest : Bytes) : variableIn run (bs ++ rest) = variableIn 0 rest := by
  induction bs generalizing run with
  | nil => exact absurd rfl nonempty
  | cons b bs ih =>
    obtain ⟨backslash, dollar⟩ := other b List.mem_cons_self
    simp only [List.cons_append, variableIn, backslash, dollar, if_false, false_and]
    cases bs with
    | nil => rfl
    | cons d ds => exact ih (fun e member => other e (List.mem_cons_of_mem b member)) (by simp) 0

theorem asciiByte {c : Char} (ascii : c.toNat < 128) :
    String.utf8EncodeChar c = [UInt8.ofNat c.toNat] := by
  have small : c.val.toNat ≤ 127 := Nat.le_of_lt_succ ascii
  simp only [String.utf8EncodeChar, small, if_true]
  rfl

theorem asciiByteIff {c : Char} (ascii : c.toNat < 128) (d : Char) (known : d.toNat < 128) :
    UInt8.ofNat c.toNat = UInt8.ofNat d.toNat ↔ c = d := by
  constructor
  · intro same
    have values := congrArg UInt8.toNat same
    simp only [UInt8.toNat_ofNat'] at values
    rw [Nat.mod_eq_of_lt (by omega), Nat.mod_eq_of_lt (by omega)] at values
    exact Char.toNat_inj.mp values
  · rintro rfl
    rfl

theorem variableOfBytes (run : Nat) (cs : List Char) :
    variableIn run (Utf8.encode cs) = hasVariable (decide (run % 2 = 1)) cs := by
  induction cs generalizing run with
  | nil => rfl
  | cons c rest ih =>
    rw [Utf8.encode, List.flatMap_cons, ← Utf8.encode]
    by_cases ascii : c.toNat < 128
    · rw [asciiByte ascii, hasVariable, List.cons_append, List.nil_append, variableIn]
      have backslash : UInt8.ofNat c.toNat = 0x5C ↔ c = '\\' := asciiByteIff ascii '\\' (by decide)
      have dollar : UInt8.ofNat c.toNat = 0x24 ↔ c = '$' := asciiByteIff ascii '$' (by decide)
      have next : decide ((run + 1) % 2 = 1) = !decide (run % 2 = 1) := by
        rw [← decide_not, decide_eq_decide]
        omega
      have even : run % 2 = 0 ↔ (!decide (run % 2 = 1)) = true := by
        rw [← decide_not, decide_eq_true_iff]
        omega
      simp only [backslash, dollar, ih, next, even]
      rfl
    · have high := variableSkips (highBytes (Nat.not_lt.mp ascii)) String.utf8EncodeChar_ne_nil run
      have other (d : Char) (low : d.toNat < 128) : c ≠ d := by
        rintro rfl
        exact ascii low
      have plain : hasVariable (decide (run % 2 = 1)) (c :: rest) = hasVariable false rest := by
        simp [hasVariable, other '\\' (by decide), other '$' (by decide)]
      rw [high, ih, plain]
      rfl

theorem decodingFollowsTokens (body : List Char) :
    (∀ bytes, decodeBody? .double body = some bytes ∧ isDynamic body = false ↔
      ∃ b : Body .double, b.text = body ∧ ¬ b.HasVariable ∧ b.bytes = bytes) ∧
    (∀ bytes, decodeBody? .double body = some bytes → ∃ b : Body .double, b.text = body ∧
      (∀ c : Body .double, c.text = body → c = b) ∧ b.bytes = bytes ∧
      (isDynamic body = true ↔ b.HasVariable)) ∧
    (∃ b : Body .single, b.text = body ∧ (∀ c : Body .single, c.text = body → c = b) ∧
      decodeBody? .single body = some b.bytes) ∧
    (∀ q, '\\' ∉ body → decodeBody? q body = some (Utf8.encode body)) ∧
    isDynamic body = variableIn 0 (Utf8.encode body) := by
  have only {q : Quote} {b : Body q} (text : b.text = body) (c : Body q) (other : c.text = body) :
      c = b := Body.textInjective (other.trans text.symm)
  refine ⟨fun bytes => ?_, fun bytes decoded => ?_, ?_, fun q => plainDecoded q, ?_⟩
  · rw [Body.decodedIff]
    constructor
    · rintro ⟨⟨b, rfl, decoded⟩, static⟩
      exact ⟨b, rfl, b.staticIff.mp static, decoded⟩
    · rintro ⟨b, rfl, static, decoded⟩
      exact ⟨⟨b, rfl, decoded⟩, b.staticIff.mpr static⟩
  · obtain ⟨b, rfl, result⟩ := (Body.decodedIff body bytes).mp decoded
    exact ⟨b, rfl, only rfl, result, b.dynamicIff⟩
  · obtain ⟨b, rfl⟩ : ∃ b : Body .single, b.text = body := Body.tokenised body rfl
    exact ⟨b, rfl, only rfl, b.decodes⟩
  · exact (variableOfBytes 0 body).symm

def mixed : List Char := ['é', '\\', '\\', '$', '\\', 'x', '4', 'a', '\\']

theorem mixedFollowsTokens :
    decodeBody? .double mixed = some [0xC3, 0xA9, 0x5C, 0x24, 0x4A, 0x5C] ∧
    ∃ b : Body .double, b.text = mixed ∧ b.HasVariable := by
  have decoded : decodeBody? .double mixed = some [0xC3, 0xA9, 0x5C, 0x24, 0x4A, 0x5C] := by decide
  obtain ⟨-, follows, -⟩ := decodingFollowsTokens mixed
  obtain ⟨b, text, -, -, dynamic⟩ := follows _ decoded
  exact ⟨decoded, b, text, dynamic.mp (by decide)⟩

end PhpLint.Literal
