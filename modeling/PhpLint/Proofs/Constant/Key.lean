import PhpLint.Constant.Table
import Mathlib.Data.List.DropRight

/-! Keys and namespaces in their plain form. Every key, and every candidate for a reference, has one
separator in front and not two, so qualifying it again changes nothing; a namespace without separators at
its ends is plain already, and names mean the same in a namespace and in its plain form. -/
namespace PhpLint
namespace Text

theorem dropStripped {drop : Char → Bool} {cs : List Char} (left : strip drop cs ≠ [])
    (rest : List Char) : (strip drop cs ++ rest).dropWhile drop = strip drop cs ++ rest := by
  obtain ⟨tail, whole⟩ : strip drop cs <+: cs.dropWhile drop := List.rdropWhile_prefix drop _
  cases stripped : strip drop cs with
  | nil => exact absurd stripped left
  | cons c more =>
    have kept : drop c = false := by
      have first := List.head?_dropWhile_not drop cs
      rw [← whole, stripped] at first
      exact first
    rw [List.cons_append, List.dropWhile_cons, kept]
    rfl

theorem stripAgain (drop : Char → Bool) (cs : List Char) :
    strip drop (strip drop cs) = strip drop cs := by
  have front : (strip drop cs).dropWhile drop = strip drop cs := by
    by_cases empty : strip drop cs = []
    · rw [empty]
      rfl
    · simpa using dropStripped empty []
  rw [strip, front, strip, List.reverse_reverse, List.dropWhile_idempotent]

end Text

namespace Constant

theorem keepStart {cs : List Char} (first : cs.head? ≠ some '\\') : cs.dropWhile isSeparator = cs := by
  cases cs with
  | nil => rfl
  | cons c rest =>
    have other : isSeparator c = false := by
      simpa [isSeparator] using first
    rw [List.dropWhile_cons, other]
    rfl

theorem keptStart {cs : List Char} (kept : cs.dropWhile isSeparator = cs) : cs.head? ≠ some '\\' := by
  have first := List.head?_dropWhile_not isSeparator cs
  rw [kept] at first
  intro separator
  rw [separator] at first
  contradiction

def Canonical (key : String) : Prop :=
  ∃ rest, key.toList = '\\' :: rest ∧ rest.head? ≠ some '\\'

theorem qualifyCanonical (scope name : String) : Canonical (qualify scope name) := by
  refine ⟨_, String.toList_ofList, keptStart ?_⟩
  split
  · exact List.dropWhile_idempotent isSeparator _
  · rename_i inside
    exact Text.dropStripped inside _

theorem qualifyTop (name : String) :
    qualify "" name = String.ofList ('\\' :: name.toList.dropWhile isSeparator) := by
  have top : Text.strip isSeparator "".toList = [] := by decide +kernel
  rw [qualify, top, if_pos rfl]

theorem canonicalFixed {key : String} (canonical : Canonical key) : qualify "" key = key := by
  obtain ⟨rest, text, first⟩ := canonical
  have dropped : key.toList.dropWhile isSeparator = rest := by
    rw [text]
    exact keepStart first
  rw [qualifyTop, dropped, ← text, String.ofList_toList]

theorem qualifyAgain (scope name : String) : qualify "" (qualify scope name) = qualify scope name :=
  canonicalFixed (qualifyCanonical scope name)

theorem candidateCanonical {scope key : String} {n : Name} (member : key ∈ candidates scope n) :
    Canonical key := by
  unfold candidates at member
  split at member
  · rw [List.mem_singleton.mp member]
    exact qualifyCanonical _ _
  · split at member
    · rcases List.mem_cons.mp member with rfl | rest
      · exact qualifyCanonical _ _
      · rw [List.mem_singleton.mp rest]
        exact qualifyCanonical _ _
    · rw [List.mem_singleton.mp member]
      exact qualifyCanonical _ _

theorem candidatesBare (scope : String) : candidates (bareScope scope) = candidates scope := by
  have again : Text.strip isSeparator (bareScope scope).toList =
      Text.strip isSeparator scope.toList := by
    rw [bareScope, String.toList_ofList, Text.stripAgain]
  funext n
  have qualified : qualify (bareScope scope) n.joined = qualify scope n.joined := by
    rw [qualify, qualify, again]
  have bare : bareScope (bareScope scope) = bareScope scope := congrArg String.ofList again
  rw [candidates, candidates, qualified, bare]

theorem qualifyScope {a b name : String} : qualify a name = qualify b name ↔ bareScope a = bareScope b := by
  have longer (cs ds : List Char) : cs ≠ ds ++ '\\' :: cs := by
    intro same
    have lengths := congrArg List.length same
    simp only [List.length_append, List.length_cons] at lengths
    omega
  simp only [qualify, bareScope, String.ofList_inj, List.cons_inj_right]
  generalize Text.strip isSeparator a.toList = first
  generalize Text.strip isSeparator b.toList = second
  generalize name.toList.dropWhile isSeparator = rest
  constructor
  · intro same
    split at same
    · rename_i top
      split at same
      · rename_i top'
        rw [top, top']
      · exact absurd same (longer rest second)
    · split at same
      · exact absurd same.symm (longer rest first)
      · exact List.append_cancel_right same
  · rintro rfl
    rfl

theorem bareScopeFixed {scope : String} (first : scope.toList.head? ≠ some '\\')
    (last : scope.toList.getLast? ≠ some '\\') : bareScope scope = scope := by
  rw [← List.head?_reverse] at last
  rw [bareScope, Text.strip, keepStart first, keepStart last, List.reverse_reverse, String.ofList_toList]

end Constant
end PhpLint
