/-! Texts as lists of characters: cutting them at a separator, stripping characters from their ends, the blank
characters, which are those with the Unicode property White_Space, and words that are read without regard to
ASCII case. -/
namespace PhpLint.Text

def cut (sep : Char) : List Char → List (List Char)
  | [] => [[]]
  | c :: cs =>
    if c = sep then [] :: cut sep cs
    else match cut sep cs with
      | [] => [[c]]
      | piece :: pieces => (c :: piece) :: pieces

theorem cutNonempty (sep : Char) (cs : List Char) : cut sep cs ≠ [] := by
  cases cs with
  | nil => simp [cut]
  | cons c cs =>
    rw [cut]
    split
    · simp
    · split <;> simp

theorem joinCut (sep : Char) (cs : List Char) : [sep].intercalate (cut sep cs) = cs := by
  induction cs with
  | nil => simp [cut]
  | cons c cs ih =>
    rw [cut]
    split
    · rename_i same
      cases pieces : cut sep cs with
      | nil => exact absurd pieces (cutNonempty sep cs)
      | cons piece rest => rw [pieces] at ih; simp [ih, same]
    · split
      · rename_i empty
        exact absurd empty (cutNonempty sep cs)
      · rename_i piece rest found
        rw [found] at ih
        cases rest <;> simp_all

theorem cutWhole {sep : Char} {cs piece : List Char} (h : piece ∈ cut sep cs) :
    sep ∉ piece := by
  induction cs generalizing piece with
  | nil => simp_all [cut]
  | cons c cs ih =>
    rw [cut] at h
    split at h
    · rcases List.mem_cons.1 h with rfl | h
      · simp
      · exact ih h
    · rename_i other
      split at h
      · simp_all [Ne.symm other]
      · rename_i first pieces found
        rcases List.mem_cons.1 h with rfl | h
        · have absent : sep ∉ first := ih (by simp [found])
          simp_all [Ne.symm other]
        · exact ih (by simp [found, h])

theorem cutSplitOn (sep : Char) (cs : List Char) : cut sep cs = cs.splitOn sep := by
  have split : ([sep].intercalate (cut sep cs)).splitOn sep = cut sep cs :=
    List.splitOn_intercalate sep (fun _ member => cutWhole member) (cutNonempty sep cs)
  rw [← split, joinCut]

theorem cutJoin {sep : Char} {pieces : List (List Char)}
    (whole : ∀ piece ∈ pieces, sep ∉ piece) (written : pieces ≠ []) :
    cut sep ([sep].intercalate pieces) = pieces := by
  rw [cutSplitOn]
  exact List.splitOn_intercalate sep whole written

def strip (drop : Char → Bool) (cs : List Char) : List Char :=
  ((cs.dropWhile drop).reverse.dropWhile drop).reverse

def blankRanges : List (Nat × Nat) :=
  [(0x09, 0x0D), (0x20, 0x20), (0x85, 0x85), (0xA0, 0xA0), (0x1680, 0x1680), (0x2000, 0x200A),
   (0x2028, 0x2029), (0x202F, 0x202F), (0x205F, 0x205F), (0x3000, 0x3000)]

def isBlank (c : Char) : Bool :=
  blankRanges.any fun r => r.1 ≤ c.toNat && c.toNat ≤ r.2

theorem whitespaceBlank {c : Char} (h : c.isWhitespace) : isBlank c := by
  simp only [Char.isWhitespace, Bool.or_eq_true, decide_eq_true_eq] at h
  rcases h with ((rfl | rfl) | rfl) | rfl <;> decide

def trim (cs : List Char) : List Char := strip isBlank cs

def sameWord (a b : String) : Bool :=
  a.toList.map Char.toLower == b.toList.map Char.toLower

end PhpLint.Text
