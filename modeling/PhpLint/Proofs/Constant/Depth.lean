import PhpLint.Proofs.Constant.Agreement
import PhpLint.Proofs.Constant.Frame
import PhpLint.Proofs.Constant.Symbol
import Std.Data.String.ToNat

/-! The bound on chains of constants. No constant is entered twice on one path, so a path is never longer
than the table is large, and a table of at most `maxDepth` constants is never cut. The bound is exact: in
`chain`, where every constant refers to the one before it, the first `maxDepth` constants have a value and
the later ones do not. Once a chain was cut, the evaluation enters no further constant. -/
namespace PhpLint.Constant

def Uncut (t : Table) (scope : String) (e : Expr) : Prop := (run t scope e).2.exhausted = false

theorem evaluateKeeps {kept : Resolution → Prop} {read : Name → StateM Resolution Value} {e : Expr}
    (calls : ∀ n ∈ e.references, ∀ s, kept s → kept (read n s).2) (s : Resolution) (before : kept s) :
    kept (e.evaluate read s).2 := by
  induction e using Expr.evaluationInduction generalizing s with
  | argument r e spread byRef ih => exact ih calls s before
  | unary r op e ih => exact ih calls s before
  | binary r op lhs rhs left right =>
    have first := left (fun n asked => calls n (List.mem_append_left _ asked)) s before
    exact right (fun n asked => calls n (List.mem_append_right _ asked)) _ first
  | constant r n => exact calls n (List.mem_singleton.mpr rfl) s before
  | fixed e v same =>
    rw [same]
    exact before

theorem unexpandedPath {t : Table} {path : List Frame} {scope key : String} {n : Name} {d : Definition}
    (found : t.resolve? scope n = some (key, d)) (fresh : path.find? (·.key = key) = none) :
    (t.unexpanded (key :: path.map Frame.key)).length < (t.unexpanded (path.map Frame.key)).length := by
  have outside : key ∉ path.map Frame.key := by simpa using fresh
  exact Table.unexpandedDecreases outside (Table.resolvedAt found)

theorem callRoomy {t : Table} {room : Nat} {path : List Frame} {scope : String} {n : Name}
    {s : Resolution} {r : Value × Resolution} (call : Call t path scope n s room r)
    (enough : (t.unexpanded (path.map Frame.key)).length ≤ room) (running : s.exhausted = false)
    (inner : ∀ less, room = less + 1 → ∀ path : List Frame,
      (t.unexpanded (path.map Frame.key)).length ≤ less → ∀ scope n s, s.exhausted = false →
        (resolveAt t less path scope n s).2.exhausted = false) : r.2.exhausted = false := by
  cases call with
  | undefined absent => exact running
  | remembered found kept => exact running
  | cycle found missing above => exact running
  | refused found missing fresh cut => exact running
  | tooDeep found missing fresh =>
    have smaller := unexpandedPath found fresh
    omega
  | @entered room key d found missing fresh =>
    have rest := Nat.le_of_lt_succ ((unexpandedPath found fresh).trans_le enough)
    have calls := inner room rfl (⟨key, path.length⟩ :: path) rest d.scope
    exact evaluateKeeps (fun n _ => calls n) (s.enter key) running

theorem resolveRoomy {t : Table} {room : Nat} {path : List Frame}
    (enough : (t.unexpanded (path.map Frame.key)).length ≤ room) (scope : String) (n : Name)
    (s : Resolution) (running : s.exhausted = false) :
    (resolveAt t room path scope n s).2.exhausted = false := by
  induction room, path, scope, n, s using resolveInduction (t := t) with
  | step room path scope n s r call inner =>
    refine callRoomy call enough running ?_
    intro less same path enough scope n s running
    exact inner less same path scope n s enough running

theorem uncutSmall {t : Table} (small : t.size ≤ maxDepth) (scope : String) (e : Expr) :
    Uncut t scope e := by
  have enough : (t.unexpanded (([] : List Frame).map Frame.key)).length ≤ maxDepth := by
    simpa [Table.unexpanded, Table.size, Std.TreeMap.length_keys] using small
  exact evaluateKeeps (fun n _ => resolveRoomy enough scope n) .start rfl

theorem Resolution.leaveValue (s : Resolution) (key : String) (depth : Nat) (r : Value × Resolution) :
    (s.leave key depth r).1 = r.1 := rfl

theorem resolveEntered {t : Table} {room : Nat} {path : List Frame} {scope key : String} {n : Name}
    {d : Definition} {s : Resolution} (found : t.resolve? scope n = some (key, d))
    (missing : s.memo[key]? = none) (fresh : path.find? (·.key = key) = none)
    (running : s.exhausted = false) :
    resolveAt t (room + 1) path scope n s = s.leave key path.length
      (d.expr.evaluate (resolveAt t room (⟨key, path.length⟩ :: path) d.scope) (s.enter key)) := by
  have free : ¬s.exhausted = true := by simp [running]
  rw [resolveAt]
  simp only [found, missing, fresh, if_neg free]
  rfl

def link (i : Nat) : Symbol where
  segments := []
  name := "C" ++ i.repr
  plain := by
    intro s member
    cases List.mem_singleton.mp member
    refine ⟨by simp, ?_⟩
    intro separator
    have digit : '\\' ∈ Nat.toDigits 10 i := by
      simpa [Nat.repr_eq_ofList_toDigits] using separator
    have wrong := Nat.isDigit_of_mem_toDigits (by decide) (by decide) digit
    contradiction

theorem linkInjective {i j : Nat} (same : link i = link j) : i = j := by
  have names : "C" ++ i.repr = "C" ++ j.repr := congrArg Symbol.name same
  exact Nat.repr_inj.mp ((String.append_right_inj "C").mp names)

def linkBody : Nat → Expr
  | 0 => .integer .synthetic "1"
  | i + 1 => .constant .synthetic (link i).short

theorem linkEvaluate (i : Nat) (read : Name → StateM Resolution Value) :
    (linkBody (i + 1)).evaluate read = read (link i).short := rfl

def chain : Nat → Table
  | 0 => Table.empty
  | n + 1 => (chain n).define (link n).key (linkBody n) ""

theorem chainAt {i n : Nat} (inside : i < n) :
    (chain n).at? (link i).key = some ⟨linkBody i, ""⟩ := by
  induction n with
  | zero => contradiction
  | succ n ih =>
    rw [chain]
    by_cases last : i = n
    · rw [last, Table.atDefine, Symbol.keyAgain, if_pos rfl]
      rfl
    · rw [defineOther fun same => last (linkInjective same).symm]
      exact ih (by omega)

theorem chainResolves {i n : Nat} (inside : i < n) :
    (chain n).resolve? "" (link i).short = some ((link i).key, ⟨linkBody i, ""⟩) := by
  have resolved := (link i).resolveName (chain n)
  rw [chainAt inside] at resolved
  exact resolved

structure Clear (path : List Frame) (s : Resolution) (i : Nat) : Prop where
  fresh : ∀ j ≤ i, path.find? (·.key = (link j).key) = none
  missing : ∀ j ≤ i, s.memo[(link j).key]? = none
  running : s.exhausted = false

theorem clearStart (i : Nat) : Clear [] .start i :=
  ⟨fun _ _ => rfl, fun _ _ => by simp [Resolution.start], rfl⟩

theorem Clear.enter {path : List Frame} {s : Resolution} {i : Nat} (clear : Clear path s (i + 1)) :
    Clear (⟨(link (i + 1)).key, path.length⟩ :: path) (s.enter (link (i + 1)).key) i := by
  refine ⟨?_, ?_, clear.running⟩
  · intro j below
    have other : (link (i + 1)).key ≠ (link j).key := by
      intro same
      have index := linkInjective (Symbol.keyInjective same)
      omega
    rw [List.find?_cons_of_neg (by simpa using other)]
    exact clear.fresh j (by omega)
  · intro j below
    exact clear.missing j (by omega)

theorem chainStep {i n room : Nat} {path : List Frame} {s : Resolution} (inside : i + 1 < n)
    (clear : Clear path s (i + 1)) :
    resolveAt (chain n) (room + 1) path "" (link (i + 1)).short s =
      s.leave (link (i + 1)).key path.length
        (resolveAt (chain n) room (⟨(link (i + 1)).key, path.length⟩ :: path) "" (link i).short
          (s.enter (link (i + 1)).key)) := by
  have last := Nat.le_refl (i + 1)
  rw [resolveEntered (chainResolves inside) (clear.missing _ last) (clear.fresh _ last) clear.running,
    linkEvaluate]

theorem chainReaches {i n room : Nat} {path : List Frame} {s : Resolution} (inside : i < n)
    (enough : i < room) (clear : Clear path s i) :
    (resolveAt (chain n) room path "" (link i).short s).1 = .int 1 := by
  obtain ⟨room, rfl⟩ : ∃ less, room = less + 1 := ⟨room - 1, by omega⟩
  induction i generalizing room path s with
  | zero =>
    have first := Nat.le_refl 0
    rw [resolveEntered (chainResolves inside) (clear.missing 0 first) (clear.fresh 0 first)
      clear.running]
    rfl
  | succ i ih =>
    obtain ⟨room, rfl⟩ : ∃ less, room = less + 1 := ⟨room - 1, by omega⟩
    rw [chainStep inside clear, Resolution.leaveValue]
    exact ih (by omega) clear.enter room (by omega)

structure Resolution.Cut (s : Resolution) (r : Value × Resolution) : Prop where
  value : r.1 = .unknown
  exhausted : r.2.exhausted = true
  memo : r.2.memo = s.memo

theorem Resolution.leaveCut {s : Resolution} {key : String} {r : Value × Resolution}
    (inner : (s.enter key).Cut r) (depth : Nat) : s.Cut (s.leave key depth r) := by
  have unsettled : r.2.settled depth = false := by simp [settled, inner.exhausted]
  refine ⟨inner.value, inner.exhausted, ?_⟩
  rw [leave, unsettled]
  exact inner.memo

theorem chainCut {i n room : Nat} {path : List Frame} {s : Resolution} (inside : i < n)
    (long : room ≤ i) (clear : Clear path s i) :
    s.Cut (resolveAt (chain n) room path "" (link i).short s) := by
  induction room generalizing i path s with
  | zero =>
    have last := Nat.le_refl i
    simp only [resolveAt, chainResolves inside, clear.missing i last, clear.fresh i last, clear.running]
    exact ⟨rfl, rfl, rfl⟩
  | succ room ih =>
    obtain ⟨i, rfl⟩ : ∃ less, i = less + 1 := ⟨i - 1, by omega⟩
    rw [chainStep inside clear]
    exact Resolution.leaveCut (ih (by omega) (by omega) clear.enter) path.length

theorem runReference (t : Table) (scope : String) (r : Range) (n : Name) :
    run t scope (.constant r n) = resolveAt t maxDepth [] scope n .start := rfl

def linkRead (i : Nat) : Expr := .constant .synthetic (link i).short

theorem chainRunCut {i n : Nat} (inside : i < n) (long : maxDepth ≤ i) :
    Resolution.start.Cut (run (chain n) "" (linkRead i)) := by
  rw [linkRead, runReference]
  exact chainCut inside long (clearStart i)

theorem chainFold {i n : Nat} (inside : i < n) :
    fold (chain n) "" (linkRead i) = if i < maxDepth then .int 1 else .unknown := by
  by_cases enough : i < maxDepth
  · rw [if_pos enough, fold, linkRead, runReference]
    exact chainReaches inside enough (clearStart i)
  · rw [if_neg enough]
    exact (chainRunCut inside (by omega)).value

theorem resolveRefused {t : Table} {room : Nat} {path : List Frame} {scope key : String} {n : Name}
    {d : Definition} {s : Resolution} (found : t.resolve? scope n = some (key, d))
    (missing : s.memo[key]? = none) (cut : s.exhausted = true) :
    (resolveAt t room path scope n s).1 = .unknown := by
  rw [resolveAt]
  simp only [found, missing, if_pos cut]
  split <;> rfl

end PhpLint.Constant
