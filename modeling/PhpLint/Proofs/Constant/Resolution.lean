import PhpLint.Constant.Evaluate

/-! What one reference to a constant can do to the state of an evaluation: `Call` has a case for each
way in which it ends, and `resolveCall` says that there is no other. What holds of one reference if it
holds of those inside the definition that it enters holds of all of them (`resolveInduction`). -/
namespace PhpLint.Constant

namespace Resolution

def enter (s : Resolution) (key : String) : Resolution :=
  { s with floor := none, entered := key :: s.entered }

def leave (s : Resolution) (key : String) (depth : Nat) (r : Value × Resolution) :
    Value × Resolution :=
  (r.1, { r.2 with
    memo := if r.2.settled depth then r.2.memo.insert key r.1 else r.2.memo
    floor := lower r.2.floor s.floor })

end Resolution

inductive Call (t : Table) (path : List Frame) (scope : String) (n : Name) (s : Resolution) :
    Nat → Value × Resolution → Prop where
  | undefined {room} (absent : t.resolve? scope n = none) : Call t path scope n s room (n.builtin, s)
  | remembered {room key d v} (found : t.resolve? scope n = some (key, d))
      (kept : s.memo[key]? = some v) : Call t path scope n s room (v, s)
  | cycle {room key d f} (found : t.resolve? scope n = some (key, d))
      (missing : s.memo[key]? = none) (above : path.find? (·.key = key) = some f) :
      Call t path scope n s room (.unknown, { s with floor := lower s.floor (some f.depth) })
  | refused {room key d} (found : t.resolve? scope n = some (key, d))
      (missing : s.memo[key]? = none) (fresh : path.find? (·.key = key) = none)
      (cut : s.exhausted = true) : Call t path scope n s room (.unknown, s)
  | tooDeep {key d} (found : t.resolve? scope n = some (key, d))
      (missing : s.memo[key]? = none) (fresh : path.find? (·.key = key) = none)
      (running : s.exhausted = false) :
      Call t path scope n s 0 (.unknown, { s with exhausted := true })
  | entered {room key d} (found : t.resolve? scope n = some (key, d))
      (missing : s.memo[key]? = none) (fresh : path.find? (·.key = key) = none)
      (running : s.exhausted = false) :
      Call t path scope n s (room + 1) (s.leave key path.length
        (d.expr.evaluate (resolveAt t room (⟨key, path.length⟩ :: path) d.scope) (s.enter key)))

theorem resolveCall (t : Table) (room : Nat) (path : List Frame) (scope : String) (n : Name)
    (s : Resolution) : Call t path scope n s room (resolveAt t room path scope n s) := by
  unfold resolveAt
  split
  · exact .undefined ‹_›
  · rename_i key d found
    split
    · exact .remembered found ‹_›
    · rename_i missing
      split
      · exact .cycle found missing ‹_›
      · rename_i fresh
        split
        · exact .refused found missing fresh ‹_›
        · rename_i running
          split
          · exact .tooDeep found missing fresh (by simpa using running)
          · exact .entered found missing fresh (by simpa using running)

@[elab_as_elim]
theorem resolveInduction {t : Table}
    {motive : Nat → List Frame → String → Name → Resolution → Value × Resolution → Prop}
    (step : ∀ room path scope n s r, Call t path scope n s room r →
      (∀ less, room = less + 1 → ∀ path scope n s,
        motive less path scope n s (resolveAt t less path scope n s)) → motive room path scope n s r)
    (room : Nat) (path : List Frame) (scope : String) (n : Name) (s : Resolution) :
    motive room path scope n s (resolveAt t room path scope n s) := by
  induction room generalizing path scope n s with
  | zero =>
    refine step 0 path scope n s _ (resolveCall t 0 path scope n s) ?_
    intro less impossible
    cases impossible
  | succ room ih =>
    refine step (room + 1) path scope n s _ (resolveCall t (room + 1) path scope n s) ?_
    intro less same path scope n s
    cases same
    exact ih path scope n s

end PhpLint.Constant
