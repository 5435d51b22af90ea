import PhpLint.Disk
import Mathlib.Data.List.Induction

/-! Directories above a path. `climb` gives the texts of a path that end with one of its components, the
nearest first, and the top at last; the directories above a path are those behind the first of them. So a
path goes up one component at a time: what lies above it is its parent and what lies above its parent, and
the parent of an entry of a directory is that directory, apart from slashes and dots at its end. An entry is
found on a disk whichever way its directory is spelled. -/
namespace PhpLint
namespace Path

def spell (pieces : List (List Char)) : String := String.intercalate "/" (pieces.map String.ofList)

def top (path : String) : String := if isAbsolute path then "/" else ""

def stops (pieces : List (List Char)) : List Nat :=
  pieces.zipIdx.filterMap fun (piece, i) => (component? piece i).map fun _ => i + 1

def parts (pieces : List (List Char)) : List Component :=
  pieces.zipIdx.filterMap fun (piece, i) => component? piece i

def climb (root : String) (pieces : List (List Char)) : List String :=
  (stops pieces).reverse.map (fun n => spell (pieces.take n)) ++ [root]

theorem parentsClimb (path : String) : parents path = (climb (top path) (pieces path)).tail := by
  unfold parents climb
  rcases List.eq_nil_or_concat (stops (pieces path)) with none | ⟨front, last, found⟩
  · rw [none]
    unfold stops at none
    simp only [none]
    rfl
  · rw [List.concat_eq_append] at found
    rw [found]
    unfold stops at found
    simp only [found]
    split
    · rename_i empty
      simp at empty
    · simp only [List.dropLast_concat, List.reverse_append, List.reverse_singleton, List.map_cons,
        List.cons_append, List.tail_cons]
      rfl

theorem stopsConcat (pieces : List (List Char)) (piece : List Char) : stops (pieces ++ [piece]) =
    stops pieces ++ if (component? piece pieces.length).isSome then [pieces.length + 1] else [] := by
  unfold stops
  rw [List.zipIdx_append, List.filterMap_append]
  cases found : component? piece pieces.length <;> simp [found]

theorem partsConcat (pieces : List (List Char)) (piece : List Char) :
    parts (pieces ++ [piece]) = parts pieces ++ (component? piece pieces.length).toList := by
  unfold parts
  rw [List.zipIdx_append, List.filterMap_append]
  cases found : component? piece pieces.length <;> simp [found]

theorem stopsBound {pieces : List (List Char)} {n : Nat} (stop : n ∈ stops pieces) :
    n ≤ pieces.length := by
  induction pieces using List.reverseRecOn with
  | nil => contradiction
  | append_singleton pieces piece ih =>
    rw [List.length_append, List.length_singleton]
    rw [stopsConcat] at stop
    rcases List.mem_append.mp stop with before | last
    · exact Nat.le_succ_of_le (ih before)
    · split at last
      · exact Nat.le_of_eq (List.mem_singleton.mp last)
      · contradiction

theorem climbConcat (root : String) (pieces : List (List Char)) (piece : List Char) :
    climb root (pieces ++ [piece]) = if (component? piece pieces.length).isSome then
      spell (pieces ++ [piece]) :: climb root pieces else climb root pieces := by
  have same : (stops pieces).reverse.map (fun n => spell ((pieces ++ [piece]).take n)) =
      (stops pieces).reverse.map (fun n => spell (pieces.take n)) := by
    refine List.map_congr_left fun n stop => ?_
    rw [List.take_append_of_le_length (stopsBound (List.mem_reverse.mp stop))]
  rw [climb, stopsConcat]
  split
  · have all : (pieces ++ [piece]).take (pieces.length + 1) = pieces ++ [piece] :=
      List.take_of_length_le (by simp)
    rw [List.reverse_append, List.map_append, same]
    simp [climb, all]
  · rw [List.append_nil, same, climb]

theorem climbCases (root : String) (pieces : List (List Char)) :
    (climb root pieces = [root] ∧ parts pieces = []) ∨
    ∃ front last, front ++ [last] <+: pieces ∧ (component? last front.length).isSome = true ∧
      climb root pieces = spell (front ++ [last]) :: climb root front ∧
      parts pieces = parts (front ++ [last]) := by
  induction pieces using List.reverseRecOn with
  | nil => exact .inl ⟨rfl, rfl⟩
  | append_singleton pieces piece ih =>
    cases found : component? piece pieces.length with
    | some c =>
      refine .inr ⟨pieces, piece, List.prefix_rfl, by simp [found], ?_, rfl⟩
      rw [climbConcat, found]
      rfl
    | none =>
      rw [climbConcat, partsConcat, found]
      simp only [Option.isSome_none, Bool.false_eq_true, if_false, Option.toList_none, List.append_nil]
      rcases ih with nothing | ⟨front, last, inside, stop, start, same⟩
      · exact .inl nothing
      · exact .inr ⟨front, last, inside.trans (List.prefix_append _ _), stop, start, same⟩

theorem piecesWhole {path : String} {piece : List Char} (member : piece ∈ pieces path) : '/' ∉ piece :=
  Text.cutWhole member

theorem piecesSpell {some : List (List Char)} (whole : ∀ piece ∈ some, '/' ∉ piece)
    (written : some ≠ []) : pieces (spell some) = some := by
  have chars : (spell some).toList = ['/'].intercalate some := by
    simp [spell, Function.comp_def]
  rw [pieces, chars, Text.cutJoin whole written]

theorem absolutePieces (path : String) :
    isAbsolute path = true ↔ ∃ next more, pieces path = [] :: next :: more := by
  unfold isAbsolute pieces
  cases path.toList with
  | nil => simp [Text.cut]
  | cons c cs =>
    by_cases slash : c = '/'
    · cases rest : Text.cut '/' cs with
      | nil => exact absurd rest (Text.cutNonempty '/' cs)
      | cons next more => simp [Text.cut, slash, rest]
    · cases rest : Text.cut '/' cs with
      | nil => exact absurd rest (Text.cutNonempty '/' cs)
      | cons next more => simp [Text.cut, slash, rest]

theorem absoluteSpell {path : String} {front : List (List Char)} {last : List Char}
    (inside : front ++ [last] <+: pieces path) (found : (component? last front.length).isSome = true) :
    isAbsolute (spell (front ++ [last])) = isAbsolute path := by
  have whole : ∀ piece ∈ front ++ [last], '/' ∉ piece := fun piece member =>
    piecesWhole (inside.subset member)
  have written : last ≠ [] := by
    rintro rfl
    contradiction
  rw [Bool.eq_iff_iff, absolutePieces, absolutePieces, piecesSpell whole (by simp)]
  obtain ⟨rest, all⟩ := inside
  rw [← all]
  cases front with
  | nil => simp [written]
  | cons first front => cases front <;> simp

theorem componentsParts (path : String) :
    components path = (if isAbsolute path then [.root] else []) ++ parts (pieces path) := rfl

theorem climbStart {path : String} {front : List (List Char)} (inside : front <+: pieces path) :
    ∃ nearest, climb (top path) front = nearest :: parents nearest ∧
      components nearest = (if isAbsolute path then [.root] else []) ++ parts front := by
  rcases climbCases (top path) front with ⟨start, nothing⟩ | ⟨before, here, within, found, start, same⟩
  · refine ⟨top path, ?_, ?_⟩
    · rw [start, top]
      split <;> decide +kernel
    · rw [nothing, top]
      split <;> decide +kernel
  · have prefixed := within.trans inside
    have whole : ∀ piece ∈ before ++ [here], '/' ∉ piece := fun piece member =>
      piecesWhole (prefixed.subset member)
    have spelled := piecesSpell whole (by simp)
    have absolute := absoluteSpell prefixed found
    refine ⟨spell (before ++ [here]), ?_, ?_⟩
    · have root : top (spell (before ++ [here])) = top path := by rw [top, absolute, top]
      rw [start, parentsClimb, root, spelled, climbConcat, if_pos found, List.tail_cons]
    · rw [componentsParts, absolute, spelled, same]

def trimmed (path : String) : String := (climb (top path) (pieces path)).headD ""

theorem climbTrimmed (path : String) : climb (top path) (pieces path) = trimmed path :: parents path := by
  obtain ⟨nearest, start, -⟩ := climbStart (List.prefix_refl (pieces path))
  rw [trimmed, parentsClimb, start]
  rfl

theorem componentsTrimmed (path : String) : components (trimmed path) = components path := by
  obtain ⟨nearest, start, same⟩ := climbStart (List.prefix_refl (pieces path))
  rw [trimmed, start, List.headD_cons, same, ← componentsParts]

def parent? (path : String) : Option String := (parents path).head?

theorem parentUp {path above : String} (parent : parent? path = some above) :
    parents path = ancestors above ∧ ∃ last, components path = components above ++ [last] := by
  rcases climbCases (top path) (pieces path) with ⟨start, -⟩ | ⟨front, last, inside, found, start, same⟩
  · rw [parent?, parentsClimb, start] at parent
    contradiction
  · obtain ⟨nearest, rest, known⟩ := climbStart ((List.prefix_append front [last]).trans inside)
    have up : parents path = ancestors nearest := by
      rw [parentsClimb, start, List.tail_cons, rest, ancestors]
    rw [parent?, up] at parent
    cases parent
    obtain ⟨c, component⟩ := Option.isSome_iff_exists.mp found
    refine ⟨up, c, ?_⟩
    rw [componentsParts, same, partsConcat, component, known, List.append_assoc]
    rfl

theorem ancestorsShrink (path : String) : (ancestors path).Pairwise fun lower upper =>
    (components upper).length < (components lower).length := by
  -- By the number of components: the parent is a text of its own, which no recursion on the path gives.
  induction size : (components path).length using Nat.strongRecOn generalizing path with
  | ind n ih =>
    cases parent : parent? path with
    | none =>
      rw [ancestors, List.head?_eq_none_iff.mp parent]
      exact List.pairwise_singleton _ _
    | some above =>
      obtain ⟨up, last, more⟩ := parentUp parent
      have shorter : (components above).length < (components path).length := by simp [more]
      have rest := ih _ (size ▸ shorter) above rfl
      rw [ancestors, up]
      refine List.pairwise_cons.mpr ⟨?_, rest⟩
      intro upper member
      rcases List.mem_cons.mp member with rfl | higher
      · exact shorter
      · exact Nat.lt_trans (List.rel_of_pairwise_cons rest higher) shorter

structure Entry (name : String) : Prop where
  written : name ≠ ""
  whole : '/' ∉ name.toList
  proper : name ≠ "." ∧ name ≠ ".."

instance (name : String) : Decidable (Entry name) :=
  decidable_of_iff (name ≠ "" ∧ '/' ∉ name.toList ∧ name ≠ "." ∧ name ≠ "..")
    ⟨fun all => ⟨all.1, all.2.1, all.2.2⟩, fun entry => ⟨entry.written, entry.whole, entry.proper⟩⟩

theorem Entry.component {name : String} (entry : Entry name) (i : Nat) :
    component? name.toList i = some (.name name) := by
  have other {text : String} (different : name ≠ text) : name.toList ≠ text.toList :=
    fun same => different (String.toList_inj.mp same)
  have written : name.toList ≠ [] := other entry.written
  have here : name.toList ≠ ['.'] := other entry.proper.1
  have up : name.toList ≠ ['.', '.'] := other entry.proper.2
  rw [component?, if_neg written, if_neg here, if_neg up, String.ofList_toList]

theorem absoluteJoin {name : String} (entry : Entry name) (dir : String) :
    isAbsolute (join dir name) = isAbsolute dir := by
  unfold join isAbsolute
  split
  · rename_i empty
    have relative : name.toList.head? ≠ some '/' := fun slash => entry.whole (List.mem_of_head? slash)
    simp [empty, relative]
  · rename_i written
    obtain ⟨c, cs, chars⟩ := List.exists_cons_of_ne_nil
      fun empty => written (String.toList_eq_nil_iff.mp empty)
    split <;> simp [chars]

/- Putting an entry into a directory puts its name behind the pieces of the directory; an empty piece at the
end, after a slash or in the empty path, makes room for it. -/
theorem joinPieces {name : String} (entry : Entry name) (dir : String) :
    ∃ base, pieces (join dir name) = base ++ [name.toList] ∧
      (pieces dir = base ∨ pieces dir = base ++ [[]]) := by
  have single : Text.cut '/' name.toList = [name.toList] := by
    rw [Text.cutSplitOn, List.splitOn_eq_singleton entry.whole]
  have split (front : List Char) : Text.cut '/' (front ++ '/' :: name.toList) =
      Text.cut '/' front ++ [name.toList] := by
    rw [← single]
    simp only [Text.cutSplitOn, List.splitOn_append_cons_self]
  unfold join pieces
  split
  · rename_i empty
    exact ⟨[], single, .inr (by simp [empty, Text.cut])⟩
  · split
    · rename_i slash
      obtain ⟨front, chars⟩ := List.getLast?_eq_some_iff.mp slash
      refine ⟨Text.cut '/' front, ?_, .inr ?_⟩
      · rw [String.toList_append, chars, List.append_assoc]
        exact split front
      · rw [chars, Text.cutSplitOn, List.splitOn_append_cons_self, Text.cutSplitOn]
        rfl
    · refine ⟨Text.cut '/' dir.toList, ?_, .inl rfl⟩
      rw [String.toList_append, String.toList_append, List.append_assoc]
      exact split dir.toList

theorem componentNothing (i : Nat) : component? [] i = none := rfl

theorem parentsJoin {name : String} (entry : Entry name) (dir : String) :
    parents (join dir name) = trimmed dir :: parents dir := by
  obtain ⟨base, joined, room⟩ := joinPieces entry dir
  have same : climb (top dir) base = climb (top dir) (pieces dir) := by
    rcases room with all | spare
    · rw [all]
    · rw [spare, climbConcat, componentNothing]
      rfl
  have root : top (join dir name) = top dir := by rw [top, absoluteJoin entry, top]
  rw [parentsClimb, root, joined, climbConcat, entry.component, ← climbTrimmed, ← same]
  rfl

theorem componentsJoin {name : String} (entry : Entry name) (dir : String) :
    components (join dir name) = components dir ++ [.name name] := by
  obtain ⟨base, joined, room⟩ := joinPieces entry dir
  have same : parts (pieces dir) = parts base := by
    rcases room with all | spare
    · rw [all]
    · rw [spare, partsConcat, componentNothing]
      exact List.append_nil _
  rw [componentsParts, componentsParts, absoluteJoin entry, joined, partsConcat, entry.component, same,
    List.append_assoc]
  rfl

/- A property of entries for which it does not matter how their directory is spelled. -/
def Plainly (holds : String → Bool) : Prop :=
  ∀ (dir other : String) {name : String}, Entry name → components dir = components other →
    holds (join dir name) = holds (join other name)

def Component.step? : Component → Option String
  | .root | .here => none
  | .up => some ".."
  | .name s => some s

def asksStep (piece : List Char) : Bool := piece ≠ [] ∧ piece ≠ ['.']

theorem componentStep (piece : List Char) (i : Nat) : (component? piece i).toList.filterMap Component.step? =
    ([piece].filter asksStep).map String.ofList := by
  unfold component?
  split
  · simp_all [asksStep]
  · split
    · split <;> simp_all [Component.step?, asksStep]
    · split <;> simp_all [Component.step?, asksStep]

theorem componentsSteps (path : String) : (components path).filterMap Component.step? =
    ((pieces path).filter asksStep).map String.ofList := by
  have inner (pieces : List (List Char)) : (parts pieces).filterMap Component.step? =
      (pieces.filter asksStep).map String.ofList := by
    induction pieces using List.reverseRecOn with
    | nil => rfl
    | append_singleton pieces piece ih =>
      rw [partsConcat, List.filterMap_append, ih, componentStep, List.filter_append, List.map_append]
  rw [componentsParts, List.filterMap_append, inner]
  split <;> rfl

theorem absoluteComponents (path : String) : isAbsolute path = true ↔ .root ∈ components path := by
  have below : .root ∉ parts (pieces path) := by
    intro member
    obtain ⟨⟨piece, i⟩, -, found⟩ := List.mem_filterMap.mp member
    simp only [component?] at found
    grind
  simp [componentsParts, below]

end Path

namespace Disk
open PhpLint.Path (Entry components join)

theorem followDot (d : Disk) (place : Option (List String)) (s : String) (steps : List String) :
    d.follow place ("." :: s :: steps) = d.follow place (s :: steps) := by
  cases place with
  | none => rw [follow, if_pos (.inl rfl)]
  | some names =>
    rw [follow, if_pos rfl]
    cases held : d.at? names with
    | none => simp [follow, held]
    | some entry =>
      cases entry with
      | file content => simp [follow, held]
      | directory => rfl

theorem followDots (d : Disk) (place : Option (List String)) (front : List String) (name : String) :
    d.follow place (front ++ [name]) = d.follow place (front.filter (· ≠ ".") ++ [name]) := by
  induction front generalizing place with
  | nil => rfl
  | cons s front ih =>
    by_cases dot : s = "."
    · rw [dot, List.filter_cons_of_neg (by simp), ← ih]
      cases front with
      | nil => exact d.followDot place name []
      | cons next front => exact d.followDot place next (front ++ [name])
    · rw [List.filter_cons_of_pos (by simpa using dot), List.cons_append, List.cons_append]
      cases place with
      | none => simp only [follow, ih]
      | some names => simp only [follow, ih]

theorem stepsJoin {name : String} (entry : Entry name) (dir : String) :
    ∃ front, steps (join dir name) = front ++ [name] ∧
      front.filter (· ≠ ".") = (components dir).filterMap Path.Component.step? := by
  obtain ⟨base, joined, room⟩ := Path.joinPieces entry dir
  have same : (Path.pieces dir).filter Path.asksStep = base.filter Path.asksStep := by
    rcases room with all | spare
    · rw [all]
    · rw [spare, List.filter_append]
      exact List.append_nil _
  refine ⟨(base.map String.ofList).filter (· ≠ ""), ?_, ?_⟩
  · simp [steps, joined, entry.written]
  · rw [Path.componentsSteps, same, List.filter_filter, List.filter_map]
    refine congrArg (List.map String.ofList) (List.filter_congr fun piece _ => ?_)
    have dot : String.ofList piece = "." ↔ piece = ['.'] := @String.ofList_inj piece ['.']
    simp [Path.asksStep, dot, Bool.and_comm]

theorem findSpelled (d : Disk) {dir other name : String} (entry : Entry name)
    (same : components dir = components other) : d.find (join dir name) = d.find (join other name) := by
  obtain ⟨front, walked, asked⟩ := stepsJoin entry dir
  obtain ⟨front', walked', asked'⟩ := stepsJoin entry other
  have written (dir : String) : join dir name ≠ "" := by
    intro empty
    have nothing : components (join dir name) = [] := by rw [empty]; rfl
    rw [Path.componentsJoin entry] at nothing
    simp at nothing
  have absolute : Path.isAbsolute dir = Path.isAbsolute other := by
    rw [Bool.eq_iff_iff, Path.absoluteComponents, Path.absoluteComponents, same]
  rw [find, find, if_neg (written dir), if_neg (written other), Path.absoluteJoin entry,
    Path.absoluteJoin entry, absolute, walked, walked', followDots, asked, same, ← asked', ← followDots]

theorem filesPlainly (d : Disk) : Path.Plainly d.isFile := by
  intro dir other name entry same
  rw [isFile, isFile, d.findSpelled entry same]

theorem entriesPlainly (d : Disk) : Path.Plainly d.contains := by
  intro dir other name entry same
  rw [contains, contains, d.findSpelled entry same]

end Disk
end PhpLint
