import PhpLint.Proofs.Constant.Depth

/-! What an evaluation remembers. A constant on the path is remembered only when it is left, so it is not
remembered before, and nothing that is remembered is ever replaced. -/
namespace PhpLint.Constant

namespace Resolution

def Apart (path : List Frame) (s : Resolution) : Prop := ∀ f ∈ path, s.memo[f.key]? = none

structure Extends (s after : Resolution) : Prop extends s.Later after where
  memo : ∀ (key : String) (v : Value), s.memo[key]? = some v → after.memo[key]? = some v

theorem Extends.refl (s : Resolution) : s.Extends s := ⟨.refl s, fun _ _ => id⟩

theorem Extends.trans {s middle after : Resolution} (first : s.Extends middle)
    (second : middle.Extends after) : s.Extends after :=
  ⟨first.toLater.trans second.toLater, fun key v known => second.memo key v (first.memo key v known)⟩

theorem leaveOther {s : Resolution} {key other : String} {depth : Nat} {r : Value × Resolution}
    (different : key ≠ other) : (s.leave key depth r).2.memo[other]? = r.2.memo[other]? := by
  simp only [leave]
  split
  · simp [Std.TreeMap.getElem?_insert, different]
  · rfl

theorem leaveApart {path : List Frame} {s : Resolution} {key : String} {depth : Nat} {r : Value × Resolution}
    (fresh : path.find? (·.key = key) = none) (inner : r.2.Apart (⟨key, depth⟩ :: path)) :
    (s.leave key depth r).2.Apart path := by
  intro f member
  have other : key ≠ f.key := by
    rintro rfl
    simpa using List.find?_eq_none.mp fresh f member
  rw [leaveOther other]
  exact inner f (List.mem_cons_of_mem _ member)

theorem leaveExtends {path : List Frame} {s : Resolution} {key : String} {depth : Nat}
    {r : Value × Resolution} (inner : r.2.Apart (⟨key, depth⟩ :: path)) (later : (s.enter key).Extends r.2) :
    s.Extends (s.leave key depth r).2 := by
  refine ⟨⟨later.exhausted, ?_⟩, ?_⟩
  · intro depth reached
    exact lowerReaches.mpr (.inr reached)
  · intro other v known
    have kept : r.2.memo[other]? = some v := later.memo other v known
    have missing : r.2.memo[key]? = none := inner ⟨key, depth⟩ List.mem_cons_self
    have different : key ≠ other := by
      rintro rfl
      rw [missing] at kept
      contradiction
    rw [leaveOther different, kept]

end Resolution

theorem evaluateExtends {path : List Frame} {read : Name → StateM Resolution Value}
    (calls : ∀ n s, s.Apart path → (read n s).2.Apart path ∧ s.Extends (read n s).2) (e : Expr)
    (s : Resolution) (apart : s.Apart path) :
    (e.evaluate read s).2.Apart path ∧ s.Extends (e.evaluate read s).2 := by
  refine @evaluateKeeps (fun after => after.Apart path ∧ s.Extends after) read e ?_ s ⟨apart, .refl s⟩
  rintro n - middle ⟨free, before⟩
  obtain ⟨still, later⟩ := calls n middle free
  exact ⟨still, before.trans later⟩

theorem callExtends {t : Table} {room : Nat} {path : List Frame} {scope : String} {n : Name}
    {s : Resolution} {r : Value × Resolution} (call : Call t path scope n s room r) (apart : s.Apart path)
    (inner : ∀ less, room = less + 1 → ∀ path scope n s, s.Apart path →
      (resolveAt t less path scope n s).2.Apart path ∧ s.Extends (resolveAt t less path scope n s).2) :
    r.2.Apart path ∧ s.Extends r.2 := by
  cases call with
  | undefined absent => exact ⟨apart, .refl s⟩
  | remembered found kept => exact ⟨apart, .refl s⟩
  | refused found missing fresh cut => exact ⟨apart, .refl s⟩
  | cycle found missing above =>
    refine ⟨apart, ⟨id, ?_⟩, fun _ _ => id⟩
    intro depth reached
    exact lowerReaches.mpr (.inl reached)
  | tooDeep found missing fresh running => exact ⟨apart, ⟨fun _ => rfl, fun _ => id⟩, fun _ _ => id⟩
  | @entered room key d found missing fresh running =>
    have start : (s.enter key).Apart (⟨key, path.length⟩ :: path) := by
      intro f member
      rcases List.mem_cons.mp member with rfl | above
      · exact missing
      · exact apart f above
    have calls := inner room rfl (⟨key, path.length⟩ :: path) d.scope
    obtain ⟨free, later⟩ := evaluateExtends calls d.expr (s.enter key) start
    exact ⟨Resolution.leaveApart fresh free, Resolution.leaveExtends free later⟩

theorem resolveExtends (t : Table) (room : Nat) (path : List Frame) (scope : String) (n : Name)
    (s : Resolution) (apart : s.Apart path) :
    (resolveAt t room path scope n s).2.Apart path ∧ s.Extends (resolveAt t room path scope n s).2 := by
  induction room, path, scope, n, s using resolveInduction (t := t) with
  | step room path scope n s r call inner =>
    exact callExtends call apart fun less same path scope n s => inner less same path scope n s

end PhpLint.Constant
