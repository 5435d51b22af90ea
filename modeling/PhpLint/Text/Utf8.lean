/-! UTF-8 over byte lists: writing, strict reading and lenient reading. Both readers go
through one step, so they agree on every well-formed sequence. -/
namespace PhpLint

abbrev Bytes := List UInt8

namespace Utf8

def encode (cs : List Char) : Bytes := cs.flatMap String.utf8EncodeChar

def ofString (s : String) : Bytes := encode s.toList

def isTail (b : UInt8) : Bool := 0x80 ≤ b && b ≤ 0xBF

def tail (b : UInt8) : Nat := b.toNat - 0x80

def isSecond (lead b : UInt8) : Bool :=
  -- the narrower ranges keep out overlong forms, surrogates and values beyond the last code point
  if lead = 0xE0 then 0xA0 ≤ b && b ≤ 0xBF
  else if lead = 0xED then 0x80 ≤ b && b ≤ 0x9F
  else if lead = 0xF0 then 0x90 ≤ b && b ≤ 0xBF
  else if lead = 0xF4 then 0x80 ≤ b && b ≤ 0x8F
  else isTail b

/-- One character or one ill-formed piece at the front of `lead :: rest`, and how many bytes of
`rest` belong to it. An ill-formed piece is the longest start of a sequence that could still
have been completed, or the lead byte alone. -/
def step (lead : UInt8) (rest : Bytes) : Option Char × Nat :=
  if lead < 0x80 then (some (Char.ofNat lead.toNat), 0)
  else if 0xC2 ≤ lead && lead ≤ 0xDF then
    match rest with
    | b :: _ =>
      if isTail b then (some (Char.ofNat ((lead.toNat - 0xC0) * 64 + tail b)), 1) else (none, 0)
    | [] => (none, 0)
  else if 0xE0 ≤ lead && lead ≤ 0xEF then
    match rest with
    | b :: rest =>
      if isSecond lead b then
        match rest with
        | c :: _ =>
          if isTail c then
            (some (Char.ofNat (((lead.toNat - 0xE0) * 64 + tail b) * 64 + tail c)), 2)
          else (none, 1)
        | [] => (none, 1)
      else (none, 0)
    | [] => (none, 0)
  else if 0xF0 ≤ lead && lead ≤ 0xF4 then
    match rest with
    | b :: rest =>
      if isSecond lead b then
        match rest with
        | c :: rest =>
          if isTail c then
            match rest with
            | d :: _ =>
              if isTail d then
                let high := ((lead.toNat - 0xF0) * 64 + tail b) * 64 + tail c
                (some (Char.ofNat (high * 64 + tail d)), 3)
              else (none, 2)
            | [] => (none, 2)
          else (none, 1)
        | [] => (none, 1)
      else (none, 0)
    | [] => (none, 0)
  else (none, 0)

def decode? : Bytes → Option (List Char)
  | [] => some []
  | b :: rest =>
    match step b rest with
    | (some c, n) => (decode? (rest.drop n)).map (c :: ·)
    | (none, _) => none
termination_by bytes => bytes.length
decreasing_by simp only [List.length_drop, List.length_cons]; omega

def decodeLenient : Bytes → List Char
  | [] => []
  | b :: rest =>
    let (c, n) := step b rest
    c.getD '\uFFFD' :: decodeLenient (rest.drop n)
termination_by bytes => bytes.length
decreasing_by simp only [List.length_drop, List.length_cons]; omega

theorem lenientDecoded {bytes : Bytes} {cs : List Char} (h : decode? bytes = some cs) :
    decodeLenient bytes = cs := by
  fun_induction decode? bytes generalizing cs with
  | case1 => simpa [decodeLenient] using h
  | case2 b rest c n hs ih =>
    obtain ⟨tail, ht, rfl⟩ := Option.map_eq_some_iff.1 h
    simp [decodeLenient, hs, ih ht]
  | case3 => simp at h

end Utf8
end PhpLint
