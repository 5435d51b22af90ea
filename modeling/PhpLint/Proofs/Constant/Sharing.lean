import PhpLint.Proofs.Constant.Depth
import Mathlib.Logic.Relation

/-! Shared definitions are evaluated once. A result may be kept out of the memo for two reasons only: a cycle
led back above the constant, and then the constant lies on that cycle; or a chain was cut, and then nothing is
entered any more. So a constant that lies on no cycle of references is remembered when it is left, whatever
cycles there are around it, and never entered again. -/
namespace PhpLint.Constant
open Relation (TransGen)

namespace Table

inductive Refers (t : Table) : String → String → Prop where
  | reference {key found d d' n} (defined : t.at? key = some d) (asked : n ∈ d.expr.references)
      (resolved : t.resolve? d.scope n = some (found, d')) : Refers t key found

def Cyclic (t : Table) (key : String) : Prop := TransGen t.Refers key key

end Table

def Trail (t : Table) (path : List Frame) : Prop :=
  path.Pairwise fun inner outer => outer.depth < inner.depth ∧ TransGen t.Refers outer.key inner.key

theorem Trail.enter {t : Table} {path : List Frame} {key next : String}
    (trail : Trail t (⟨key, path.length⟩ :: path)) (refers : t.Refers key next) :
    Trail t (⟨next, path.length + 1⟩ :: ⟨key, path.length⟩ :: path) := by
  refine List.pairwise_cons.mpr ⟨?_, trail⟩
  intro f member
  rcases List.mem_cons.mp member with rfl | above
  · exact ⟨Nat.lt_succ_self _, .single refers⟩
  · obtain ⟨lower, leads⟩ := List.rel_of_pairwise_cons trail above
    exact ⟨Nat.lt_succ_of_lt lower, leads.tail refers⟩

theorem Trail.leads {t : Table} {path : List Frame} (trail : Trail t path) {f g : Frame}
    (outer : f ∈ path) (inner : g ∈ path) (below : f.depth ≤ g.depth) :
    f = g ∨ TransGen t.Refers f.key g.key := by
  induction path with
  | nil => contradiction
  | cons head path ih =>
    obtain ⟨first, rest⟩ := List.pairwise_cons.mp trail
    rcases List.mem_cons.mp outer with rfl | outerLater
    · rcases List.mem_cons.mp inner with rfl | innerLater
      · exact .inl rfl
      · have less := (first g innerLater).1
        omega
    · rcases List.mem_cons.mp inner with rfl | innerLater
      · exact .inr (first f outerLater).2
      · exact ih rest outerLater innerLater

theorem Trail.closes {t : Table} {path : List Frame} {f g : Frame} {depth : Nat}
    (trail : Trail t (⟨f.key, depth⟩ :: path)) (outer : f ∈ path) (inner : g ∈ path)
    (below : f.depth ≤ g.depth) : t.Cyclic g.key := by
  obtain ⟨first, rest⟩ := List.pairwise_cons.mp trail
  have back : TransGen t.Refers g.key f.key := (first g inner).2
  rcases Trail.leads rest outer inner below with rfl | down
  · exact back
  · exact back.trans down

namespace Resolution

/- A floor is never at or above a constant without a cycle. Such a constant was entered at most once; if it
was, it is still being evaluated, or remembered, or nothing will be entered any more. -/
structure Shared (t : Table) (path : List Frame) (s : Resolution) : Prop where
  floor : ∀ f ∈ path, s.floor.any (· ≤ f.depth) = true → t.Cyclic f.key
  once : ∀ key, ¬ t.Cyclic key → s.entered.count key ≤ 1
  kept : ∀ key ∈ s.entered, ¬ t.Cyclic key →
    key ∈ path.map Frame.key ∨ s.memo[key]? ≠ none ∨ s.exhausted = true

theorem Shared.fresh {t : Table} {path : List Frame} {s : Resolution} (shared : s.Shared t path)
    {key : String} (missing : s.memo[key]? = none) (fresh : path.find? (·.key = key) = none)
    (running : s.exhausted = false) (acyclic : ¬ t.Cyclic key) : key ∉ s.entered := by
  intro before
  rcases shared.kept key before acyclic with onPath | remembered | cut
  · have outside : key ∉ path.map Frame.key := by simpa using fresh
    exact outside onPath
  · exact remembered missing
  · rw [running] at cut
    contradiction

theorem Shared.enter {t : Table} {path : List Frame} {s : Resolution} (shared : s.Shared t path)
    {key : String} (missing : s.memo[key]? = none) (fresh : path.find? (·.key = key) = none)
    (running : s.exhausted = false) : (s.enter key).Shared t (⟨key, path.length⟩ :: path) := by
  refine ⟨?_, ?_, ?_⟩
  · intro f member reached
    contradiction
  · intro other acyclic
    by_cases same : other = key
    · have unseen := shared.fresh missing fresh running (same ▸ acyclic)
      simp [Resolution.enter, same, List.count_eq_zero_of_not_mem unseen]
    · have before := shared.once other acyclic
      simpa [Resolution.enter, List.count_cons_of_ne (Ne.symm same)] using before
  · intro other member acyclic
    rcases List.mem_cons.mp member with rfl | before
    · exact .inl List.mem_cons_self
    · rcases shared.kept other before acyclic with onPath | rest
      · exact .inl (List.mem_cons_of_mem _ onPath)
      · exact .inr rest

theorem leaveKeeps {s : Resolution} {key other : String} {depth : Nat} {r : Value × Resolution}
    (known : r.2.memo[other]? ≠ none) : (s.leave key depth r).2.memo[other]? ≠ none := by
  simp only [leave]
  split
  · rw [Std.TreeMap.getElem?_insert]
    split
    · exact Option.some_ne_none r.1
    · exact known
  · exact known

theorem leaveRemembers {s : Resolution} {key : String} {depth : Nat} {r : Value × Resolution}
    (settled : r.2.settled depth = true) : (s.leave key depth r).2.memo[key]? ≠ none := by
  simp [leave, settled]

theorem Shared.settled {t : Table} {path : List Frame} {s : Resolution} {key : String} {depth : Nat}
    (shared : s.Shared t (⟨key, depth⟩ :: path)) (acyclic : ¬ t.Cyclic key)
    (running : s.exhausted = false) : s.settled depth = true := by
  have above : ¬ s.floor.any (· ≤ depth) = true := fun reached =>
    acyclic (shared.floor ⟨key, depth⟩ List.mem_cons_self reached)
  cases floor : s.floor with
  | none => simp [Resolution.settled, floor, running]
  | some low =>
    rw [floor] at above
    simp only [Option.any_some, decide_eq_true_eq] at above
    simp only [Resolution.settled, floor, running, Option.all_some, Bool.not_false, Bool.and_true,
      decide_eq_true_eq]
    omega

theorem Shared.leave {t : Table} {path : List Frame} {s : Resolution} (shared : s.Shared t path)
    {key : String} {r : Value × Resolution} (inner : r.2.Shared t (⟨key, path.length⟩ :: path)) :
    (s.leave key path.length r).2.Shared t path := by
  refine ⟨?_, inner.once, ?_⟩
  · intro f member reached
    rcases lowerReaches.mp reached with inside | before
    · exact inner.floor f (List.mem_cons_of_mem _ member) inside
    · exact shared.floor f member before
  · intro other member acyclic
    cases running : r.2.exhausted with
    | true => exact .inr (.inr running)
    | false =>
      rcases inner.kept other member acyclic with onPath | remembered | cut
      · rcases List.mem_cons.mp onPath with rfl | above
        · exact .inr (.inl (leaveRemembers (inner.settled acyclic running)))
        · exact .inl above
      · exact .inr (.inl (leaveKeeps remembered))
      · rw [running] at cut
        contradiction

end Resolution

def Trail.Reaches (t : Table) (path : List Frame) (scope : String) (n : Name) : Prop :=
  ∀ key d, t.resolve? scope n = some (key, d) → Trail t (⟨key, path.length⟩ :: path)

theorem callShared {t : Table} {room : Nat} {path : List Frame} {scope : String} {n : Name}
    {s : Resolution} {r : Value × Resolution} (call : Call t path scope n s room r)
    (trail : Trail.Reaches t path scope n) (shared : s.Shared t path)
    (inner : ∀ less, room = less + 1 → ∀ path scope n s, Trail.Reaches t path scope n →
      s.Shared t path → (resolveAt t less path scope n s).2.Shared t path) : r.2.Shared t path := by
  cases call with
  | undefined absent => exact shared
  | remembered found kept => exact shared
  | refused found missing fresh cut => exact shared
  | tooDeep found missing fresh running =>
    exact ⟨shared.floor, shared.once, fun _ _ _ => .inr (.inr rfl)⟩
  | @cycle _ key d f found missing above =>
    have same : f.key = key := by simpa using List.find?_some above
    subst same
    refine ⟨?_, shared.once, shared.kept⟩
    intro g member reached
    rcases lowerReaches.mp reached with before | back
    · exact shared.floor g member before
    · have below : f.depth ≤ g.depth := by simpa using back
      exact (trail _ d found).closes (List.mem_of_find?_eq_some above) member below
  | @entered room key d found missing fresh running =>
    refine shared.leave (evaluateKeeps ?_ (s.enter key) (shared.enter missing fresh running))
    intro n asked s before
    refine inner room rfl _ d.scope n s ?_ before
    intro next d' resolved
    exact (trail key d found).enter (.reference (Table.resolvedAt found) asked resolved)

theorem resolveShared (t : Table) (room : Nat) (path : List Frame) (scope : String) (n : Name)
    (s : Resolution) (trail : Trail.Reaches t path scope n) (shared : s.Shared t path) :
    (resolveAt t room path scope n s).2.Shared t path := by
  induction room, path, scope, n, s using resolveInduction (t := t) with
  | step room path scope n s r call inner => exact callShared call trail shared inner

theorem runShared (t : Table) (scope : String) (e : Expr) : (run t scope e).2.Shared t [] := by
  have start : Resolution.start.Shared t [] := by
    refine ⟨?_, ?_, ?_⟩
    · intro f member
      contradiction
    · intro key _
      simp [Resolution.start]
    · intro key member
      contradiction
  refine evaluateKeeps ?_ .start start
  intro n _ s before
  refine resolveShared t maxDepth [] scope n s ?_ before
  intro key d _
  exact List.pairwise_singleton _ _

theorem acyclicEnteredOnce (t : Table) (scope : String) (e : Expr) (key : String)
    (acyclic : ¬ t.Cyclic key) : (run t scope e).2.entered.count key ≤ 1 :=
  (runShared t scope e).once key acyclic

def plainRead (name : String) : Expr := .constant .synthetic ⟨[name], false⟩

def tangled : Table :=
  ((Table.empty.define "X" (.binary .synthetic .boolAnd (plainRead "Y") (plainRead "Y")) "").define "Y"
    (.binary .synthetic .boolOr (plainRead "X") (plainRead "S")) "").define "S"
    (.integer .synthetic "1") ""

theorem tangledEntersOnce :
    ¬ tangled.Cyclic "\\S" ∧ (run tangled "" (plainRead "X")).2.entered.count "\\S" = 1 ∧
    (run tangled "" (plainRead "X")).2.entered.count "\\Y" = 2 := by
  have acyclic : ¬ tangled.Cyclic "\\S" := by
    intro cycle
    obtain ⟨next, refers, -⟩ := TransGen.head'_iff.mp cycle
    cases refers with
    | reference defined asked resolved =>
      have leaf : tangled.at? "\\S" = some ⟨.integer .synthetic "1", ""⟩ := by rfl
      cases Option.some.inj (leaf.symm.trans defined)
      contradiction
  have atMost := acyclicEnteredOnce tangled "" (plainRead "X") "\\S" acyclic
  have atLeast : 1 ≤ (run tangled "" (plainRead "X")).2.entered.count "\\S" := by decide +kernel
  exact ⟨acyclic, Nat.le_antisymm atMost atLeast, by decide +kernel⟩

end PhpLint.Constant
