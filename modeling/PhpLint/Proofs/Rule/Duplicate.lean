import PhpLint.Proofs.Tree.Equivalence
import PhpLint.Rule.Check
import Mathlib.Data.Finset.Prod
import Mathlib.Data.Nat.Choose.Basic

/-! Repeated branch bodies. The bodies of a branch are numbered in source order; a pair is reported exactly
when its bodies are equal as trees, once and in the order of the numbers. Equality of trees is an equivalence,
so the reported pairs make up whole groups of bodies, and every group yields all of its pairs. -/
namespace PhpLint.Rule.Duplicate

def SameAt (bodies : List Stmt) (i j : Nat) : Prop :=
  ∃ a b, bodies[i]? = some a ∧ bodies[j]? = some b ∧ a.erased = b.erased

def finding (ctx : Context) (r : Range) (p : Nat × Nat) : Diagnostic :=
  ctx.report .duplicateBody r
    ("duplicated <" ++ toString p.1 ++ "> and <" ++ toString p.2 ++ "> bodies")

theorem SameAt.trans {bodies : List Stmt} {i j k : Nat} (left : SameAt bodies i j)
    (right : SameAt bodies j k) : SameAt bodies i k := by
  obtain ⟨a, b, first, second, equal⟩ := left
  obtain ⟨b', c, again, third, equal'⟩ := right
  cases Option.some.inj (second.symm.trans again)
  exact ⟨a, c, first, third, equal.trans equal'⟩

theorem memDropped {bodies : List Stmt} {b : Stmt} {j k : Nat} :
    (b, j) ∈ bodies.zipIdx.drop k ↔ k ≤ j ∧ bodies[j]? = some b := by
  simp only [List.mem_iff_getElem?, List.getElem?_drop, List.getElem?_zipIdx, Option.map_eq_some_iff,
    Prod.mk.injEq, Nat.zero_add]
  constructor
  · rintro ⟨m, b, found, rfl, rfl⟩
    exact ⟨Nat.le_add_right k m, found⟩
  · rintro ⟨later, found⟩
    exact ⟨j - k, b, by rwa [Nat.add_sub_cancel' later], rfl, Nat.add_sub_cancel' later⟩

theorem memPairs {bodies : List Stmt} {i j : Nat} :
    (i, j) ∈ pairs bodies ↔ i < j ∧ SameAt bodies i j := by
  simp only [pairs, List.mem_flatMap, List.mem_filterMap, Prod.exists, List.mem_zipIdx_iff_getElem?]
  constructor
  · rintro ⟨a, i', first, b, j', inside, pair⟩
    split at pair
    · rename_i equivalent
      cases Option.some.inj pair
      obtain ⟨later, second⟩ := memDropped.mp inside
      exact ⟨later, a, b, first, second, (a.sameErased b).mp ((a.equivalentIff b).mp equivalent)⟩
    · contradiction
  · rintro ⟨later, a, b, first, second, equal⟩
    have equivalent : a.equivalent b = true := (a.equivalentIff b).mpr ((a.sameErased b).mpr equal)
    exact ⟨a, i, first, b, j, memDropped.mpr ⟨later, second⟩, if_pos equivalent⟩

theorem indicesIncrease (bodies : List Stmt) : bodies.zipIdx.Pairwise fun x y => x.2 < y.2 := by
  refine List.pairwise_map.mp ?_
  rw [List.zipIdx_map_snd]
  exact List.pairwise_lt_range'

theorem pairsOrdered (bodies : List Stmt) : (pairs bodies).Pairwise (Prod.Lex (· < ·) (· < ·)) := by
  have increase := indicesIncrease bodies
  have numbers {a b : Stmt} {i j : Nat} {p : Nat × Nat}
      (pair : (if a.equivalent b then some (i, j) else none) = some p) : p = (i, j) := by
    split at pair
    · exact (Option.some.inj pair).symm
    · contradiction
  refine List.pairwise_flatMap.mpr ⟨?_, ?_⟩
  · rintro ⟨a, i⟩ -
    refine List.pairwise_filterMap.mpr ((increase.sublist (List.drop_sublist _ _)).imp ?_)
    intro x y less p first q second
    rw [numbers first, numbers second]
    exact .right i less
  · refine increase.imp ?_
    rintro ⟨a, i⟩ ⟨b, j⟩ less p first q second
    obtain ⟨x, -, first⟩ := List.mem_filterMap.mp first
    obtain ⟨y, -, second⟩ := List.mem_filterMap.mp second
    rw [numbers first, numbers second]
    exact .left _ _ less

theorem numberEnds {m n : Nat} {rest more : List Char}
    (same : Nat.toDigits 10 m ++ '>' :: rest = Nat.toDigits 10 n ++ '>' :: more) :
    m = n ∧ rest = more := by
  have digits (k : Nat) (tail : List Char) :
      (Nat.toDigits 10 k ++ '>' :: tail).takeWhile Char.isDigit = Nat.toDigits 10 k := by
    have all : ∀ c ∈ Nat.toDigits 10 k, c.isDigit = true := fun c member =>
      Nat.isDigit_of_mem_toDigits (by decide) (by decide) member
    rw [List.takeWhile_append_of_pos all, List.takeWhile_cons_of_neg (by decide), List.append_nil]
  have equal : Nat.toDigits 10 m = Nat.toDigits 10 n := by rw [← digits m rest, same, digits n more]
  constructor
  · have numbers := congrArg (Nat.ofDigitChars 10 · 0) equal
    simpa only [Nat.ofDigitChars_ten_toDigits] using numbers
  · rw [equal] at same
    exact List.tail_eq_of_cons_eq (List.append_cancel_left same)

theorem findingText (ctx : Context) (r : Range) (i j : Nat) :
    (finding ctx r (i, j)).message.toList = "duplicated <".toList ++
      (Nat.toDigits 10 i ++ '>' :: (" and <".toList ++ (Nat.toDigits 10 j ++ '>' :: " bodies".toList))) := by
  simp [finding, Context.report, Diagnostic.ofRule]

theorem findingInjective (ctx : Context) (r : Range) : Function.Injective (finding ctx r) := by
  rintro ⟨i, j⟩ ⟨i', j'⟩ same
  have text := congrArg (fun d => d.message.toList) same
  simp only [findingText] at text
  obtain ⟨rfl, rest⟩ := numberEnds (List.append_cancel_left text)
  obtain ⟨rfl, -⟩ := numberEnds (List.append_cancel_left rest)
  rfl

theorem groupCount {bodies : List Stmt} {group : Finset Nat}
    (alike : ∀ i ∈ group, ∀ j ∈ group, SameAt bodies i j) :
    ((pairs bodies).filter fun p => p ∈ group ×ˢ group).length = group.card * (group.card - 1) / 2 := by
  have distinct : ((pairs bodies).filter fun p => p ∈ group ×ˢ group).Nodup :=
    (pairsOrdered bodies).nodup.filter _
  have members : ((pairs bodies).filter fun p => p ∈ group ×ˢ group).toFinset =
      (group ×ˢ group).filter fun p => p.1 < p.2 := by
    ext ⟨i, j⟩
    simp only [List.mem_toFinset, List.mem_filter, decide_eq_true_eq, Finset.mem_filter, memPairs,
      Finset.mem_product]
    constructor
    · rintro ⟨⟨less, -⟩, inside⟩
      exact ⟨inside, less⟩
    · rintro ⟨inside, less⟩
      exact ⟨⟨less, alike i inside.1 j inside.2⟩, inside⟩
  rw [← List.toFinset_card_of_nodup distinct, members, Finset.card_product_filter_lt,
    Nat.choose_two_right]

theorem bodiesReportedExactly (ctx : Context) (r : Range) (cond : Expr) (body : Stmt)
    (arms : List ElseIf) (otherwise : Option Stmt) :
    let bodies := body :: arms.map ElseIf.body ++ otherwise.toList
    let found := checkBodies ctx (.branch r cond body arms otherwise)
    ∃ reported : List (Nat × Nat),
      found = reported.map (finding ctx r) ∧
      reported.Pairwise (Prod.Lex (· < ·) (· < ·)) ∧
      (∀ i j, (i, j) ∈ reported ↔ i < j ∧ SameAt bodies i j) ∧
      (∀ i j k, (i, j) ∈ reported → (j, k) ∈ reported → (i, k) ∈ reported) ∧
      ∀ group : Finset Nat, (∀ i ∈ group, ∀ j ∈ group, SameAt bodies i j) →
        (found.filter (· ∈ (group ×ˢ group).image (finding ctx r))).length =
          group.card * (group.card - 1) / 2 := by
  intro bodies found
  refine ⟨pairs bodies, rfl, pairsOrdered bodies, fun i j => memPairs, ?_, ?_⟩
  · intro i j k first second
    obtain ⟨less, left⟩ := memPairs.mp first
    obtain ⟨more, right⟩ := memPairs.mp second
    exact memPairs.mpr ⟨less.trans more, left.trans right⟩
  · intro group alike
    have found : found = (pairs bodies).map (finding ctx r) := rfl
    simp only [found, List.filter_map, List.length_map, Function.comp_def,
      (findingInjective ctx r).mem_finset_image]
    exact groupCount alike

def printed (line : UInt32) (raw : String) : Stmt :=
  .echo (.point ⟨line, 2⟩) [.integer (.point ⟨line, 7⟩) raw]

def printedArms : List ElseIf :=
  [.mk (.var .synthetic "b") (printed 3 "2"), .mk (.var .synthetic "c") (printed 5 "1")]

def printedBodies : List Stmt :=
  printed 1 "1" :: printedArms.map ElseIf.body ++ (some (printed 7 "1")).toList

theorem printedAlike : ∀ i ∈ ({0, 2, 3} : Finset Nat), ∀ j ∈ ({0, 2, 3} : Finset Nat),
    SameAt printedBodies i j := by
  have same : ∀ i ∈ ({0, 2, 3} : Finset Nat), ∃ line, printedBodies[i]? = some (printed line "1") := by
    intro i member
    simp only [Finset.mem_insert, Finset.mem_singleton] at member
    rcases member with rfl | rfl | rfl
    · exact ⟨1, rfl⟩
    · exact ⟨5, rfl⟩
    · exact ⟨7, rfl⟩
  intro i first j second
  obtain ⟨line, here⟩ := same i first
  obtain ⟨other, there⟩ := same j second
  exact ⟨_, _, here, there, rfl⟩

theorem printedReported :
    let ctx : Context := ⟨"a.php", .empty, ""⟩
    let group : Finset Nat := {0, 2, 3}
    let found := checkBodies ctx
      (.branch .synthetic (.var .synthetic "a") (printed 1 "1") printedArms (some (printed 7 "1")))
    (found.filter (· ∈ (group ×ˢ group).image (finding ctx .synthetic))).length = 3 := by
  intro ctx group found
  obtain ⟨reported, -, -, -, -, groups⟩ := bodiesReportedExactly ctx .synthetic (.var .synthetic "a")
    (printed 1 "1") printedArms (some (printed 7 "1"))
  exact (groups group printedAlike).trans (by decide)

end PhpLint.Rule.Duplicate
