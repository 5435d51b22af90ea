import PhpLint.Engine

/-! Stable sorting by a comparison in which different elements may tie. The result is fixed by the
subsequences of tied elements, which a stable sort keeps as they are: this is the only fact about
sorting that statements on reports need. The comparison of findings ties exactly those of one rule
that start at one position of one file, files being compared as paths. -/
namespace PhpLint
namespace Sorting
open Std (TransCmp OrientedCmp ReflCmp)

def sorted {α : Type} (cmp : α → α → Ordering) (l : List α) : List α :=
  l.mergeSort fun a b => (cmp a b).isLE

def ties {α : Type} (cmp : α → α → Ordering) (x : α) (l : List α) : List α :=
  l.filter fun y => cmp x y == .eq

theorem memTies {α : Type} {cmp : α → α → Ordering} {x y : α} {l : List α} :
    y ∈ ties cmp x l ↔ y ∈ l ∧ cmp x y = .eq := by
  simp [ties]

theorem comparable {α : Type} (cmp : α → α → Ordering) [OrientedCmp cmp] (a b : α) :
    ((cmp a b).isLE || (cmp b a).isLE) = true := by
  have swap : cmp b a = (cmp a b).swap := OrientedCmp.eq_swap
  rw [swap]
  cases cmp a b <;> rfl

theorem tiesFlatten {α : Type} (cmp : α → α → Ordering) (x : α) (blocks : List (List α)) :
    ties cmp x blocks.flatten = blocks.flatMap (ties cmp x) := by
  rw [ties, List.filter_flatten, List.flatMap_def]
  rfl

theorem transBy {α β : Type} (f : α → β) (cmp : β → β → Ordering) [TransCmp cmp] :
    TransCmp fun a b => cmp (f a) (f b) where
  eq_swap := OrientedCmp.eq_swap
  isLE_trans := TransCmp.isLE_trans

theorem sortedPairwise {α : Type} (cmp : α → α → Ordering) [TransCmp cmp] (l : List α) :
    (sorted cmp l).Pairwise fun a b => (cmp a b).isLE = true :=
  List.pairwise_mergeSort (fun _ _ _ => TransCmp.isLE_trans) (comparable cmp) l

theorem tiesPairwise {α : Type} (cmp : α → α → Ordering) [TransCmp cmp] (x : α) (l : List α) :
    (ties cmp x l).Pairwise fun a b => (cmp a b).isLE = true := by
  refine List.pairwise_of_forall_mem_list ?_
  intro a first b second
  have back : cmp a x = .eq := OrientedCmp.eq_symm (memTies.mp first).2
  have same : cmp a b = .eq := TransCmp.eq_trans back (memTies.mp second).2
  rw [same]
  rfl

theorem sortedNil {α : Type} (cmp : α → α → Ordering) : sorted cmp [] = [] := by
  simp [sorted]

theorem sortedTies {α : Type} (cmp : α → α → Ordering) [TransCmp cmp] (x : α) (l : List α) :
    ties cmp x (sorted cmp l) = ties cmp x l := by
  have kept : (ties cmp x l).Sublist (sorted cmp l) :=
    List.sublist_mergeSort (fun _ _ _ => TransCmp.isLE_trans) (comparable cmp) (tiesPairwise cmp x l)
      List.filter_sublist
  have inside : (ties cmp x l).Sublist (ties cmp x (sorted cmp l)) := by
    have both := kept.filter fun y => cmp x y == .eq
    simpa only [ties, List.filter_filter, Bool.and_self] using both
  have count : (ties cmp x (sorted cmp l)).length = (ties cmp x l).length :=
    ((List.mergeSort_perm l _).filter _).length_eq
  exact (inside.eq_of_length count.symm).symm

theorem sortedRefines {α : Type} (cmp : α → α → Ordering) [TransCmp cmp] {before : α → α → Prop}
    {l : List α} (ordered : l.Pairwise before) :
    (sorted cmp l).Pairwise fun a b => cmp a b = .lt ∨ cmp a b = .eq ∧ before a b := by
  refine List.pairwise_iff_forall_sublist.mpr fun {a b} pair => ?_
  have below := List.pairwise_iff_forall_sublist.mp (sortedPairwise cmp l) pair
  cases relation : cmp a b with
  | lt => exact .inl rfl
  | gt => simp [relation] at below
  | eq =>
    have tied : [a, b].Sublist (ties cmp a l) := by
      rw [← sortedTies]
      simpa [ties, ReflCmp.compare_self, relation] using pair.filter fun y => cmp a y == .eq
    exact .inr ⟨rfl, List.pairwise_iff_forall_sublist.mp ordered (tied.trans List.filter_sublist)⟩

theorem headBelow {α : Type} (cmp : α → α → Ordering) [TransCmp cmp] {a b : α} {as bs : List α}
    (left : (a :: as).Pairwise fun a b => (cmp a b).isLE = true)
    (same : ties cmp b (a :: as) = ties cmp b (b :: bs)) : (cmp a b).isLE = true := by
  have listed : b ∈ ties cmp b (a :: as) := by
    rw [same]
    exact memTies.mpr ⟨List.mem_cons_self, ReflCmp.compare_self⟩
  rcases List.mem_cons.mp (memTies.mp listed).1 with rfl | later
  · simp [ReflCmp.compare_self]
  · exact List.rel_of_pairwise_cons left later

/- Both heads tie, so they head the same subsequence of tied elements and are equal; the tails then
have the same subsequences again. -/
theorem eqOfTies {α : Type} (cmp : α → α → Ordering) [TransCmp cmp] {first second : List α}
    (left : first.Pairwise fun a b => (cmp a b).isLE = true)
    (right : second.Pairwise fun a b => (cmp a b).isLE = true)
    (same : ∀ x, ties cmp x first = ties cmp x second) : first = second := by
  induction first generalizing second with
  | nil =>
    cases second with
    | nil => rfl
    | cons b bs =>
      have impossible := same b
      simp [ties, ReflCmp.compare_self] at impossible
  | cons a as ih =>
    cases second with
    | nil =>
      have impossible := same a
      simp [ties, ReflCmp.compare_self] at impossible
    | cons b bs =>
      have below := headBelow cmp left (same b)
      have above := headBelow cmp right (same a).symm
      have tie : cmp a b = .eq := OrientedCmp.isLE_antisymm below above
      have heads := same a
      simp only [ties, List.filter_cons, ReflCmp.compare_self, tie, beq_self_eq_true, if_true] at heads
      obtain ⟨rfl, -⟩ := List.cons.inj heads
      refine congrArg (a :: ·) (ih left.of_cons right.of_cons ?_)
      intro x
      have whole := same x
      by_cases tied : cmp x a = .eq
      · simpa [ties, tied] using whole
      · simpa [ties, tied] using whole

theorem sortedFilter {α : Type} (cmp : α → α → Ordering) [TransCmp cmp] (p : α → Bool)
    (l : List α) : (sorted cmp l).filter p = sorted cmp (l.filter p) := by
  refine eqOfTies cmp ((sortedPairwise cmp l).filter p) (sortedPairwise cmp _) ?_
  intro x
  have swap (k : List α) : ties cmp x (k.filter p) = (ties cmp x k).filter p := by
    simp only [ties, List.filter_filter, Bool.and_comm]
  rw [sortedTies, swap, swap, sortedTies]

theorem sortedCongr {α : Type} (cmp : α → α → Ordering) [TransCmp cmp] {first second : List α}
    (same : ∀ x, ties cmp x first = ties cmp x second) : sorted cmp first = sorted cmp second := by
  refine eqOfTies cmp (sortedPairwise cmp _) (sortedPairwise cmp _) ?_
  intro x
  rw [sortedTies, sortedTies, same]

theorem flatMapPerm {α β : Type} {g : α → List β} {first second : List α} (perm : first.Perm second)
    (apart : ∀ a ∈ first, ∀ b ∈ first, a ≠ b → g a = [] ∨ g b = []) :
    first.flatMap g = second.flatMap g := by
  induction perm with
  | nil => rfl
  | cons a rest ih =>
    have tail := ih fun b inB c inC => apart b (List.mem_cons_of_mem a inB) c (List.mem_cons_of_mem a inC)
    rw [List.flatMap_cons, List.flatMap_cons, tail]
  | swap a b rest =>
    simp only [List.flatMap_cons, ← List.append_assoc]
    by_cases same : b = a
    · rw [same]
    · rcases apart b (by simp) a (by simp) same with empty | empty <;> simp [empty]
  | trans one two left right =>
    refine (left apart).trans (right fun a inA b inB => ?_)
    exact apart a (one.mem_iff.mpr inA) b (one.mem_iff.mpr inB)

end Sorting

namespace Path
open Std (TransCmp LawfulEqCmp)

def Component.kind : Component → Nat
  | .root => 0
  | .here => 1
  | .up => 2
  | .name _ => 3

def Component.label : Component → String
  | .name s => s
  | _ => ""

theorem Component.orderByKind :
    Component.order = compareLex (compareOn Component.kind) (compareOn Component.label) := by
  funext a b
  cases a <;> cases b <;> rfl

instance : TransCmp Component.order := by
  rw [Component.orderByKind]
  infer_instance

instance : LawfulEqCmp Component.order where
  compare_self {a} := by simp [Component.orderByKind, compareLex, compareOn]
  eq_of_compare {a b} tie := by
    rw [Component.orderByKind, compareLex_eq_eq] at tie
    have kinds : a.kind = b.kind := LawfulEqCmp.eq_of_compare tie.1
    have labels : a.label = b.label := LawfulEqCmp.eq_of_compare tie.2
    cases a <;> cases b <;> simp_all [Component.kind, Component.label]

theorem orderListsLex : orderLists = List.compareLex Component.order := by
  funext a b
  induction a generalizing b with
  | nil => cases b <;> simp [orderLists, List.compareLex_nil_nil, List.compareLex_nil_cons]
  | cons x xs ih =>
    cases b with
    | nil => simp [orderLists, List.compareLex_cons_nil]
    | cons y ys => simp [orderLists, List.compareLex_cons_cons, ih]

theorem orderEq {a b : String} : order a b = .eq ↔ components a = components b := by
  rw [order, orderListsLex]
  exact LawfulEqCmp.compare_eq_iff_eq

instance : TransCmp order := by
  have path : order = fun a b => List.compareLex Component.order (components a) (components b) := by
    funext a b
    rw [order, orderListsLex]
  rw [path]
  exact Sorting.transBy components (List.compareLex Component.order)

end Path

namespace Rule

theorem numberInjective {a b : Rule} (same : a.number = b.number) : a = b := by
  cases a <;> cases b <;> first | rfl | contradiction

end Rule

namespace Diagnostic
open Std (TransCmp LawfulEqCmp)

theorem orderByFile : order = compareLex (fun a b => Path.order a.file b.file)
    (compareLex (compareOn (·.range.start.line))
      (compareLex (compareOn (·.range.start.col)) (compareOn (·.rule.number)))) := rfl

instance : TransCmp order := by
  have files := Sorting.transBy file Path.order
  rw [orderByFile]
  infer_instance

theorem orderEq {a b : Diagnostic} : a.order b = .eq ↔
    Path.components a.file = Path.components b.file ∧ a.range.start = b.range.start ∧
      a.rule = b.rule := by
  rw [orderByFile, compareLex_eq_eq, compareLex_eq_eq, compareLex_eq_eq]
  constructor
  · rintro ⟨files, lines, columns, rules⟩
    have line : a.range.start.line = b.range.start.line := LawfulEqCmp.eq_of_compare lines
    have column : a.range.start.col = b.range.start.col := LawfulEqCmp.eq_of_compare columns
    have start : a.range.start = b.range.start := by
      cases first : a.range.start
      cases second : b.range.start
      simp_all
    exact ⟨Path.orderEq.mp files, start, Rule.numberInjective (LawfulEqCmp.eq_of_compare rules)⟩
  · rintro ⟨files, start, rules⟩
    exact ⟨Path.orderEq.mpr files, by simp [compareOn, start], by simp [compareOn, start],
      by simp [compareOn, rules]⟩

end Diagnostic
end PhpLint
