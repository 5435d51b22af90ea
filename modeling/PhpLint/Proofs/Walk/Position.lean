import PhpLint.Proofs.Walk.Preorder
import Mathlib.Data.List.Basic
import Mathlib.Data.List.Nodup

/-! Every node of a tree has a position: the number of its tree, then the number of a part of that tree,
and so on downwards, counted from zero in source order. A pre-order listing goes through the positions of
a tree in the order `Before` and leaves none out, so the walk meets each node once: after the nodes around
it, and before everything in a later part of them. -/
namespace PhpLint

def nodeAt? (trees : List Node) : List Nat → Option Node
  | [] => none
  | [i] => trees[i]?
  | i :: j :: rest => trees[i]?.bind fun n => nodeAt? n.parts (j :: rest)

def SourceUnit.nodeAt? (u : SourceUnit) (p : List Nat) : Option Node :=
  PhpLint.nodeAt? (u.stmts.map .stmt) p

inductive Before : List Nat → List Nat → Prop where
  | inside (p : List Nat) (i : Nat) (rest : List Nat) : Before p (p ++ i :: rest)
  | earlier {i j : Nat} (p rest rest' : List Nat) (first : i < j) :
      Before (p ++ i :: rest) (p ++ j :: rest')

theorem beforeLex {p q : List Nat} (before : Before p q) : p < q := by
  cases before with
  | inside p i rest =>
    induction p with
    | nil => exact .nil
    | cons k p ih => exact .cons ih
  | earlier p rest rest' first =>
    induction p with
    | nil => exact .rel first
    | cons k p ih => exact .cons ih

theorem nodeAtFirst (n : Node) (rest : List Node) (p : List Nat) :
    nodeAt? (n :: rest) (0 :: p) = if p = [] then some n else nodeAt? n.parts p := by
  cases p with
  | nil => rfl
  | cons i p => rfl

theorem nodeAtLater (n : Node) (rest : List Node) (i : Nat) (p : List Nat) :
    nodeAt? (n :: rest) ((i + 1) :: p) = nodeAt? rest (i :: p) := by
  cases p with
  | nil => simp [nodeAt?]
  | cons j p => simp [nodeAt?]

structure Numbered (trees listed : List Node) (ps : List (List Nat)) : Prop where
  ordered : ps.Pairwise (· < ·)
  complete : ∀ p, p ∈ ps ↔ ∃ n, nodeAt? trees p = some n
  nodes : ps.map (nodeAt? trees) = listed.map some

namespace Numbered

theorem nonempty {trees listed : List Node} {ps : List (List Nat)} (numbered : Numbered trees listed ps)
    {p : List Nat} (member : p ∈ ps) : ∃ i rest, p = i :: rest := by
  obtain ⟨n, found⟩ := (numbered.complete p).mp member
  cases p with
  | nil => cases found
  | cons i rest => exact ⟨i, rest, rfl⟩

def next (p : List Nat) : List Nat := p.modifyHead (· + 1)

def positions (inner later : List (List Nat)) : List (List Nat) :=
  [0] :: (inner.map (0 :: ·) ++ later.map next)

variable {n : Node} {rest inside after : List Node} {inner later : List (List Nat)}

theorem memNext (others : Numbered rest after later) {p : List Nat} :
    p ∈ later.map next ↔ ∃ i q, p = (i + 1) :: q ∧ i :: q ∈ later := by
  constructor
  · intro member
    obtain ⟨q, inLater, rfl⟩ := List.mem_map.mp member
    obtain ⟨i, q, rfl⟩ := others.nonempty inLater
    exact ⟨i, q, rfl, inLater⟩
  · rintro ⟨i, q, rfl, inLater⟩
    exact List.mem_map.mpr ⟨i :: q, inLater, rfl⟩

theorem consOrdered (parts : Numbered n.parts inside inner) (others : Numbered rest after later) :
    (positions inner later).Pairwise (· < ·) := by
  refine List.pairwise_cons.mpr ⟨?_, List.pairwise_append.mpr ⟨?_, ?_, ?_⟩⟩
  · intro q member
    rcases List.mem_append.mp member with below | beside
    · obtain ⟨p, inInner, rfl⟩ := List.mem_map.mp below
      obtain ⟨i, p, rfl⟩ := parts.nonempty inInner
      exact .cons .nil
    · obtain ⟨i, q, rfl, -⟩ := others.memNext.mp beside
      exact .rel (Nat.succ_pos i)
  · exact List.pairwise_map.mpr (parts.ordered.imp fun less => .cons less)
  · refine List.pairwise_map.mpr (others.ordered.imp_of_mem fun first second less => ?_)
    obtain ⟨i, p, rfl⟩ := others.nonempty first
    obtain ⟨j, q, rfl⟩ := others.nonempty second
    cases less with
    | rel less => exact .rel (Nat.succ_lt_succ less)
    | cons less => exact .cons less
  · intro p below q beside
    obtain ⟨p, -, rfl⟩ := List.mem_map.mp below
    obtain ⟨i, q, rfl, -⟩ := others.memNext.mp beside
    exact .rel (Nat.succ_pos i)

theorem consComplete (parts : Numbered n.parts inside inner) (others : Numbered rest after later)
    (p : List Nat) : p ∈ positions inner later ↔ ∃ m, nodeAt? (n :: rest) p = some m := by
  rw [positions, List.mem_cons, List.mem_append, others.memNext, List.mem_map]
  rcases p with _ | ⟨_ | i, p⟩
  · simp [nodeAt?]
  · rw [nodeAtFirst]
    by_cases top : p = []
    · simp [top]
    · simp [top, parts.complete p]
  · rw [nodeAtLater, ← others.complete]
    simp

theorem consNodes (parts : Numbered n.parts inside inner) (others : Numbered rest after later) :
    (positions inner later).map (nodeAt? (n :: rest)) = (n :: (inside ++ after)).map some := by
  have below : (inner.map (0 :: ·)).map (nodeAt? (n :: rest)) = inside.map some := by
    rw [← parts.nodes, List.map_map]
    refine List.map_congr_left fun p member => ?_
    obtain ⟨i, p, rfl⟩ := parts.nonempty member
    rw [Function.comp_apply, nodeAtFirst, if_neg (List.cons_ne_nil i p)]
  have beside : (later.map next).map (nodeAt? (n :: rest)) = after.map some := by
    rw [← others.nodes, List.map_map]
    refine List.map_congr_left fun p member => ?_
    obtain ⟨i, p, rfl⟩ := others.nonempty member
    exact nodeAtLater n rest i p
  rw [positions, List.map_cons, List.map_append, below, beside, List.map_cons, List.map_append]
  rfl

end Numbered

theorem InPreorder.numbered {trees listed : List Node} (preorder : InPreorder trees listed) :
    ∃ ps, Numbered trees listed ps := by
  induction preorder with
  | nil =>
    refine ⟨[], .nil, fun p => ?_, rfl⟩
    rcases p with _ | ⟨i, _ | ⟨j, p⟩⟩ <;> simp [nodeAt?]
  | cons _ _ first second =>
    obtain ⟨inner, parts⟩ := first
    obtain ⟨later, others⟩ := second
    exact ⟨_, parts.consOrdered others, parts.consComplete others, parts.consNodes others⟩

theorem orderedIndex {ps : List (List Nat)} (ordered : ps.Pairwise (· < ·)) {p q : List Nat}
    (inP : p ∈ ps) (inQ : q ∈ ps) (less : p < q) : ps.idxOf p < ps.idxOf q := by
  have apart : p ≠ q := by
    rintro rfl
    exact List.lt_irrefl p less
  induction ordered with
  | nil => cases inP
  | @cons first ps below _ ih =>
    by_cases headP : p = first
    · subst headP
      rw [List.idxOf_cons_self, List.idxOf_cons_ne ps apart]
      exact Nat.succ_pos _
    · have tailP : p ∈ ps := (List.mem_cons.mp inP).resolve_left headP
      by_cases headQ : q = first
      · subst headQ
        exact absurd (below p tailP) (List.lt_asymm less)
      · have tailQ : q ∈ ps := (List.mem_cons.mp inQ).resolve_left headQ
        rw [List.idxOf_cons_ne ps (Ne.symm headP), List.idxOf_cons_ne ps (Ne.symm headQ)]
        exact Nat.succ_lt_succ (ih tailP tailQ)

theorem walkVisitsEveryPosition (u : SourceUnit) : ∃ ps : List (List Nat),
    ps.Nodup ∧ (∀ p, p ∈ ps ↔ ∃ n, u.nodeAt? p = some n) ∧
    u.visits.map (fun v => some v.node) = ps.map u.nodeAt? ∧
    ∀ p ∈ ps, ∀ q ∈ ps, Before p q → ps.idxOf p < ps.idxOf q := by
  obtain ⟨ps, numbered⟩ := (Walk.stmtsPreorder "" u.stmts).numbered
  refine ⟨ps, ?_, numbered.complete, ?_, fun p inP q inQ before => ?_⟩
  · refine numbered.ordered.imp ?_
    rintro p _ less rfl
    exact List.lt_irrefl p less
  · have nodes := numbered.nodes
    rw [List.map_map] at nodes
    exact nodes.symm
  · exact orderedIndex numbered.ordered inP inQ (beforeLex before)

end PhpLint
