import PhpLint.Proofs.Constant.Symbol
import Mathlib.Data.List.Destutter

/-! Names and their texts. A name with proper segments is what its text is read as, and every text is read
as such a name; written out again the text is `tidy`, with one separator where it had a run of them and none
at its end. This covers names without a segment, whose text is empty or a single separator. -/
namespace PhpLint.Name
open Constant (Plain isSeparator joinedHead)

abbrev Apart (c next : Char) : Prop := ¬ (c = '\\' ∧ next = '\\')

/- A text with one separator for each run of separators and none at the end; if there is nothing else in
the text, one separator stays. -/
def tidy (text : String) : String :=
  if text ≠ "" ∧ text.toList.all isSeparator then "\\"
  else String.ofList ((text.toList.destutter Apart).rdropWhile isSeparator)

def segments (cs : List Char) : List (List Char) := (Text.cut '\\' cs).filter (· ≠ [])

def rejoined (cs : List Char) : List Char := ['\\'].intercalate (segments cs)

def continued (cs : List Char) : List Char := (segments cs).flatMap ('\\' :: ·)

theorem joinedCons (segment : List Char) (more : List (List Char)) :
    ['\\'].intercalate (segment :: more) = segment ++ more.flatMap ('\\' :: ·) := by
  induction more generalizing segment with
  | nil => simp
  | cons next more ih => simp [List.intercalate_cons_cons, ih]

theorem segmentsSeparator (cs : List Char) : segments ('\\' :: cs) = segments cs := by
  simp [segments, Text.cut]

theorem segmentsFirst {c : Char} (other : c ≠ '\\') (cs : List Char) :
    ∃ piece rest, Text.cut '\\' cs = piece :: rest ∧
      segments (c :: cs) = (c :: piece) :: rest.filter (· ≠ []) := by
  cases pieces : Text.cut '\\' cs with
  | nil => exact absurd pieces (Text.cutNonempty '\\' cs)
  | cons piece rest => exact ⟨piece, rest, rfl, by simp [segments, Text.cut, other, pieces]⟩

theorem segmentsEnd {c : Char} (other : c ≠ '\\') (cs : List Char) :
    segments (c :: '\\' :: cs) = [c] :: segments cs := by
  simp [segments, Text.cut, other]

theorem segmentsInside {c next : Char} (other : c ≠ '\\') (inside : next ≠ '\\') (cs : List Char) :
    ∃ segment more, segments (next :: cs) = segment :: more ∧
      segments (c :: next :: cs) = (c :: segment) :: more := by
  obtain ⟨piece, rest, pieces, first⟩ := segmentsFirst inside cs
  exact ⟨next :: piece, _, first, by simp [segments, Text.cut, inside, other, pieces]⟩

theorem segmentsEmpty (cs : List Char) : segments cs = [] ↔ ∀ c ∈ cs, c = '\\' := by
  induction cs with
  | nil => simp [segments, Text.cut]
  | cons c cs ih =>
    by_cases separator : c = '\\'
    · rw [separator, segmentsSeparator, ih]
      simp
    · obtain ⟨piece, rest, -, first⟩ := segmentsFirst separator cs
      simp [first, separator]

theorem continuedRejoined {cs : List Char} (written : segments cs ≠ []) :
    continued cs = '\\' :: rejoined cs := by
  obtain ⟨segment, more, found⟩ := List.exists_cons_of_ne_nil written
  rw [continued, rejoined, found, joinedCons, List.flatMap_cons]
  rfl

theorem keepFirst {c : Char} {cs : List Char}
    (kept : c ≠ '\\' ∨ cs.rdropWhile isSeparator ≠ []) :
    (c :: cs).rdropWhile isSeparator = c :: cs.rdropWhile isSeparator := by
  rw [List.rdropWhile, List.reverse_cons, List.dropWhile_append]
  split
  · rename_i dropped
    have empty : cs.rdropWhile isSeparator = [] := by
      simpa [List.rdropWhile] using dropped
    have other : isSeparator c = false := by
      simpa [isSeparator, empty] using kept
    rw [empty]
    simp [other]
  · simp [List.rdropWhile]

theorem squeezed (cs : List Char) :
    (∀ c, c ≠ '\\' → (cs.destutter' Apart c).rdropWhile isSeparator = rejoined (c :: cs)) ∧
    (cs.destutter' Apart '\\').rdropWhile isSeparator = continued cs := by
  -- Both kinds of first character go together: either may follow the other.
  induction cs with
  | nil =>
    refine ⟨?_, by decide +kernel⟩
    intro c other
    simp [rejoined, segments, Text.cut, other, isSeparator]
  | cons next cs ih =>
    obtain ⟨inside, after⟩ := ih
    by_cases separator : next = '\\'
    · subst separator
      refine ⟨?_, ?_⟩
      · intro c other
        rw [List.destutter'_cons_pos _ (by simp [other]), keepFirst (.inl other), after, rejoined,
          segmentsEnd other, joinedCons]
        rfl
      · rw [List.destutter'_cons_neg _ (by simp), after, continued, continued, segmentsSeparator]
    · refine ⟨?_, ?_⟩
      · intro c other
        obtain ⟨segment, more, found, longer⟩ := segmentsInside other separator cs
        rw [List.destutter'_cons_pos _ (by simp [other]), keepFirst (.inl other), inside next separator,
          rejoined, rejoined, found, longer, joinedCons, joinedCons]
        rfl
      · obtain ⟨piece, rest, -, first⟩ := segmentsFirst separator cs
        have written : rejoined (next :: cs) ≠ [] := by simp [rejoined, first, joinedCons]
        rw [← inside next separator] at written
        rw [List.destutter'_cons_pos _ (by simp [separator]), keepFirst (.inr written),
          inside next separator, continuedRejoined (by simp [first])]

theorem parseParts (text : String) : (parse text).parts.map String.toList = segments text.toList := by
  simp [parse, segments, Function.comp_def]

theorem joinedText (n : Name) : n.joined.toList = ['\\'].intercalate (n.parts.map String.toList) := by
  simp [joined]

theorem textChars (n : Name) :
    n.text.toList = if n.rooted then '\\' :: n.joined.toList else n.joined.toList := by
  rw [text]
  split <;> simp

theorem parseRooted (text : String) : (parse text).rooted = true ↔ text.toList.head? = some '\\' := by
  simp [parse]

theorem tidyFirst {text : String} {c : Char} {cs : List Char} (chars : text.toList = c :: cs) :
    (tidy text).toList = if (c :: cs).all isSeparator then ['\\']
      else (cs.destutter' Apart c).rdropWhile isSeparator := by
  have written : text ≠ "" := by
    rintro rfl
    contradiction
  rw [tidy, chars]
  split
  · rename_i blank
    rw [if_pos blank.2]
    rfl
  · rename_i other
    rw [if_neg (fun blank => other ⟨written, blank⟩), String.toList_ofList, List.destutter_cons']

theorem tidyChars (text : String) : (tidy text).toList =
    if text.toList.head? = some '\\' then '\\' :: rejoined text.toList else rejoined text.toList := by
  cases chars : text.toList with
  | nil =>
    have empty : text = "" := String.toList_eq_nil_iff.mp chars
    simp [tidy, empty, rejoined, segments, Text.cut]
  | cons c cs =>
    obtain ⟨inside, after⟩ := squeezed cs
    rw [tidyFirst chars]
    by_cases separator : c = '\\'
    · subst separator
      have same : rejoined ('\\' :: cs) = rejoined cs := by rw [rejoined, segmentsSeparator, rejoined]
      have blank : ('\\' :: cs).all isSeparator = true ↔ segments cs = [] := by
        simp [segmentsEmpty, isSeparator]
      rw [after, same, List.head?_cons, if_pos rfl]
      split
      · rename_i nothing
        rw [rejoined, blank.mp nothing]
        rfl
      · rename_i other
        exact continuedRejoined fun nothing => other (blank.mpr nothing)
    · have other : ¬ (c :: cs).all isSeparator = true := by simp [isSeparator, separator]
      rw [if_neg other, inside c separator, List.head?_cons, if_neg (by simpa using separator)]

theorem textTidy (text : String) : (parse text).text = tidy text := by
  have inner : (parse text).joined.toList = rejoined text.toList := by
    rw [joinedText, parseParts, rejoined]
  rw [← String.toList_inj, textChars, tidyChars, inner]
  simp only [parseRooted]

theorem parsePlain (text : String) : ∀ s ∈ (parse text).parts, Plain s := by
  intro s member
  have piece : s.toList ∈ segments text.toList := parseParts text ▸ List.mem_map_of_mem member
  obtain ⟨inside, written⟩ := List.mem_filter.mp piece
  refine ⟨?_, Text.cutWhole inside⟩
  rintro rfl
  simp at written

theorem segmentsJoined {n : Name} (plain : ∀ s ∈ n.parts, Plain s) :
    segments n.joined.toList = n.parts.map String.toList := by
  have whole : ∀ piece ∈ n.parts.map String.toList, '\\' ∉ piece := by
    intro piece member
    obtain ⟨s, inside, rfl⟩ := List.mem_map.mp member
    exact (plain s inside).whole
  rw [joinedText]
  by_cases empty : n.parts = []
  · simp [empty, segments, Text.cut]
  · rw [segments, Text.cutJoin whole (by simpa using empty), List.filter_eq_self]
    intro piece member
    obtain ⟨s, inside, rfl⟩ := List.mem_map.mp member
    simpa using (plain s inside).written

theorem parseText {n : Name} (plain : ∀ s ∈ n.parts, Plain s) : parse n.text = n := by
  have chars := n.textChars
  have segmented : segments n.text.toList = n.parts.map String.toList := by
    rw [chars, ← segmentsJoined plain]
    split
    · exact segmentsSeparator _
    · rfl
  have parts : (parse n.text).parts = n.parts := by
    have same := (parseParts n.text).trans segmented
    exact List.map_injective_iff.mpr (fun _ _ => String.toList_inj.mp) same
  have rooted : (parse n.text).rooted = n.rooted := by
    rw [Bool.eq_iff_iff, parseRooted, chars]
    split
    · simp_all
    · rename_i relative
      have first : n.joined.toList.head? ≠ some '\\' := joinedHead plain
      simp [first, relative]
  calc parse n.text = ⟨(parse n.text).parts, (parse n.text).rooted⟩ := rfl
    _ = n := by rw [parts, rooted]

theorem textsRoundTrip :
    (∀ n : Name, (∀ s ∈ n.parts, Plain s) → parse n.text = n) ∧
    ∀ text, (∀ s ∈ (parse text).parts, Plain s) ∧ parse (parse text).text = parse text ∧
      (parse text).text = tidy text :=
  ⟨fun _ => parseText, fun text => ⟨parsePlain text, parseText (parsePlain text), textTidy text⟩⟩

theorem rootedRoundTrips :
    (∀ s ∈ ["Foo", "BAR"], Plain s) ∧ parse (Name.text ⟨["Foo", "BAR"], true⟩) = ⟨["Foo", "BAR"], true⟩ ∧
    (parse "\\\\Foo\\\\\\BAR\\\\").text = "\\Foo\\BAR" ∧ (parse "\\\\").text = "\\" := by
  have plain : ∀ s ∈ ["Foo", "BAR"], Plain s := by decide +kernel
  have tidied (text : String) : (parse text).text = tidy text := (textsRoundTrip.2 text).2.2
  refine ⟨plain, textsRoundTrip.1 ⟨["Foo", "BAR"], true⟩ plain, ?_, ?_⟩
  · rw [tidied]
    decide +kernel
  · rw [tidied]
    decide +kernel

end PhpLint.Name
