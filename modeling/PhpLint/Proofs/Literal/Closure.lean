import PhpLint.Proofs.Literal.Spelling

/-! Decoded literals and well-formed literals. Decoding asks for the same quote at both ends and for static
tokens between them, and looks at nothing else: a quote may stand among the tokens without a backslash, or
a lone backslash before the last quote, and the literal is decoded all the same. These are the only two
ways in which a decoded literal can be malformed. -/
namespace PhpLint.Literal

/- A body read from left to right, each backslash with the character after it. The quote occurs only
behind a backslash, and no backslash is left over. -/
inductive Closed (q : Quote) : List Char → Prop where
  | nil : Closed q []
  | plain {c rest} (ordinary : c ≠ '\\') (inner : c ≠ q.char) (tail : Closed q rest) :
      Closed q (c :: rest)
  | taken {c rest} (tail : Closed q rest) : Closed q ('\\' :: c :: rest)

def WellFormed (raw : String) : Prop :=
  ∃ mark ∈ marks, ∃ q body, raw = mark ++ quoted q body ∧ Closed q body

theorem unmarkedSource (cs : List Char) : ∃ mark ∈ marks, cs = mark.toList ++ unmarked cs := by
  unfold unmarked
  split
  · rename_i c q rest
    split
    · rename_i marked
      rcases marked.1 with rfl | rfl
      · exact ⟨"b", by decide, rfl⟩
      · exact ⟨"B", by decide, rfl⟩
    · exact ⟨"", by decide, rfl⟩
  · exact ⟨"", by decide, rfl⟩

theorem quoteChar {c : Char} {q : Quote} (read : Quote.ofChar? c = some q) : c = q.char := by
  unfold Quote.ofChar? at read
  split at read
  · cases read
    rfl
  · cases read
    rfl
  · contradiction

theorem partsIff {raw : String} {q : Quote} {body : List Char} :
    parts? raw.toList = some (q, body) ↔ ∃ mark ∈ marks, raw = mark ++ quoted q body := by
  constructor
  · intro found
    obtain ⟨mark, known, source⟩ := unmarkedSource raw.toList
    unfold parts? at found
    split at found
    · contradiction
    · rename_i c rest text
      obtain ⟨own, read, closed⟩ := Option.bind_eq_some_iff.mp found
      split at closed
      · rename_i last
        cases Option.some.inj closed
        obtain ⟨body, rfl⟩ := List.getLast?_eq_some_iff.mp last
        refine ⟨mark, known, String.toList_inj.mp ?_⟩
        rw [source, text, quoteChar read, List.dropLast_concat, String.toList_append, quoted,
          String.toList_ofList]
      · contradiction
  · rintro ⟨mark, known, rfl⟩
    exact partsQuoted q body known

theorem wellFormedIff {mark : String} (known : mark ∈ marks) (q : Quote) (body : List Char) :
    WellFormed (mark ++ quoted q body) ↔ Closed q body := by
  constructor
  · rintro ⟨mark', known', q', body', same, closed⟩
    have parts := partsIff.mpr ⟨mark', known', same⟩
    rw [partsQuoted q body known] at parts
    cases Option.some.inj parts
    exact closed
  · intro closed
    exact ⟨mark, known, q, body, rfl, closed⟩

theorem closedPlain {q : Quote} {c : Char} {rest : List Char} (ordinary : c ≠ '\\') :
    Closed q (c :: rest) ↔ c ≠ q.char ∧ Closed q rest := by
  constructor
  · intro closed
    cases closed with
    | plain _ inner tail => exact ⟨inner, tail⟩
    | taken tail => contradiction
  · rintro ⟨inner, tail⟩
    exact .plain ordinary inner tail

theorem closedTaken {q : Quote} {c : Char} {rest : List Char} :
    Closed q ('\\' :: c :: rest) ↔ Closed q rest := by
  constructor
  · intro closed
    cases closed with
    | plain ordinary inner tail => contradiction
    | taken tail => exact tail
  · exact .taken

theorem Token.closedFirst {q : Quote} (t : Token q) (rest : List Char) :
    Closed q (t.text ++ rest) ↔ t.text ≠ [q.char] ∧ Closed q rest := by
  cases t with
  | plain c ordinary => simp [text, closedPlain ordinary]
  | escape c bytes known => simp [text, closedTaken]
  | hex hi lo double high low =>
    have digit {c : Char} (isHex : IsHex c) : c ≠ '\\' ∧ c ≠ Quote.double.char := by
      constructor <;> rintro rfl <;> revert isHex <;> decide +kernel
    cases double
    simp [text, closedTaken, closedPlain (digit high).1, closedPlain (digit low).1, (digit high).2,
      (digit low).2]

namespace Body

variable {q : Quote}

def HasQuote (b : Body q) : Prop := ∃ t ∈ b.tokens, t.text = [q.char]

theorem closedIff (b : Body q) : Closed q b.text ↔ b.lone = false ∧ ¬ b.HasQuote := by
  obtain ⟨tokens, lone⟩ := b
  unfold HasQuote
  induction tokens with
  | nil =>
    cases lone with
    | false => simp [text, ending, Closed.nil]
    | true =>
      have leftOver : ¬ Closed q ['\\'] := by
        intro closed
        cases closed with
        | plain ordinary inner tail => contradiction
      simp [text, ending, leftOver]
  | cons t tokens ih =>
    rw [consText, t.closedFirst, ih]
    simp only [List.mem_cons, exists_eq_or_imp, not_or]
    exact and_left_comm

end Body

structure Enclosed (raw : String) where
  mark : String
  known : mark ∈ marks
  quote : Quote
  body : Body quote
  text : raw = mark ++ quoted quote body.text

namespace Enclosed

variable {raw : String}

def Static (e : Enclosed raw) : Prop := e.quote = .double → ¬ e.body.HasVariable

theorem wellFormed (e : Enclosed raw) :
    WellFormed raw ↔ e.body.lone = false ∧ ¬ e.body.HasQuote := by
  obtain ⟨mark, known, q, body, rfl⟩ := e
  rw [wellFormedIff known, body.closedIff]

theorem decoded (e : Enclosed raw) (static : e.Static) : string? raw = some e.body.bytes := by
  obtain ⟨mark, known, q, body, rfl⟩ := e
  exact bodyDenotes body static mark known

end Enclosed

theorem decodedSource {raw : String} {bytes : Bytes} (decoded : string? raw = some bytes) :
    ∃ e : Enclosed raw, e.Static ∧ e.body.bytes = bytes := by
  obtain ⟨⟨q, text⟩, found, result⟩ := Option.bind_eq_some_iff.mp decoded
  obtain ⟨mark, known, same⟩ := partsIff.mp found
  simp only at result
  split at result
  · contradiction
  · rename_i fixed
    obtain ⟨body, rfl, own⟩ := (Body.decodedIff text bytes).mp result
    refine ⟨⟨mark, known, q, body, same⟩, ?_, own⟩
    rintro rfl
    exact body.staticIff.mp (by simpa [Quote.interpolates] using fixed)

theorem decodingAsksForQuotes (raw : String) :
    (∀ bytes, string? raw = some bytes ↔ ∃ e : Enclosed raw, e.Static ∧ e.body.bytes = bytes) ∧
    ∀ e : Enclosed raw, WellFormed raw ↔ e.body.lone = false ∧ ¬ e.body.HasQuote := by
  refine ⟨fun bytes => ⟨decodedSource, ?_⟩, Enclosed.wellFormed⟩
  rintro ⟨e, static, rfl⟩
  exact e.decoded static

theorem malformedDecoded :
    string? "'a'b'" = some [0x61, 0x27, 0x62] ∧ ¬ WellFormed "'a'b'" ∧
    string? "'a\\'" = some [0x61, 0x5C] ∧ ¬ WellFormed "'a\\'" := by
  have bare : Closed .single ['a', '\'', 'b'] → False := by
    intro closed
    cases closed with
    | plain _ _ tail =>
      cases tail with
      | plain _ inner _ => exact inner rfl
  have alone : Closed .single ['a', '\\'] → False := by
    intro closed
    cases closed with
    | plain _ _ tail =>
      cases tail with
      | plain ordinary _ _ => exact ordinary rfl
  have unmarked : "" ∈ marks := by decide
  refine ⟨by decide +kernel, ?_, by decide +kernel, ?_⟩
  · intro wellFormed
    exact bare ((wellFormedIff unmarked .single ['a', '\'', 'b']).mp wellFormed)
  · intro wellFormed
    exact alone ((wellFormedIff unmarked .single ['a', '\\']).mp wellFormed)

end PhpLint.Literal
