import PhpLint.Proofs.Constant.Expansion

/-! Which keys a reference looks at: its candidates, up to the first one that is defined. Tables whose
definitions under these keys are related give the reference related definitions, under the same key;
so the definitions that a table holds under any other key do not matter to it. -/
namespace PhpLint.Constant

theorem emptyAt (key : String) : Table.empty.at? key = none := by
  simp [Table.empty, Table.at?]

namespace Table

def tried (t : Table) (scope : String) (n : Name) : List String :=
  let keys := candidates scope n
  keys.take (keys.findIdx (fun key => (t.get? key).isSome) + 1)

theorem getKey {t : Table} {key : String} (head : key.toList.head? = some '\\') :
    t.get? key = t.at? key := if_pos head

theorem getCanonical {t : Table} {key : String} (canonical : Canonical key) :
    t.get? key = t.at? key := by
  obtain ⟨rest, text, -⟩ := canonical
  exact getKey (by rw [text]; rfl)

theorem getTried {t : Table} {scope key : String} {n : Name} (member : key ∈ t.tried scope n)
    (other : Table) : other.get? key = other.at? key :=
  getCanonical (candidateCanonical (List.mem_of_mem_take member))

theorem firstRelated {related : Definition → Definition → Prop}
    {here there : String → Option Definition} (keys : List String)
    (agree : ∀ key ∈ keys.take (keys.findIdx (fun key => (here key).isSome) + 1),
      Option.Rel related (here key) (there key)) :
    ((keys.findSome? fun key => (here key).map (key, ·)) = none ∧
      (keys.findSome? fun key => (there key).map (key, ·)) = none) ∨
    ∃ key d d', (keys.findSome? fun key => (here key).map (key, ·)) = some (key, d) ∧
      (keys.findSome? fun key => (there key).map (key, ·)) = some (key, d') ∧ related d d' := by
  induction keys with
  | nil => exact .inl ⟨rfl, rfl⟩
  | cons key rest ih =>
    have first := agree key (by simp)
    rw [List.findSome?_cons, List.findSome?_cons]
    generalize found : here key = one at first ⊢
    generalize there key = two at first ⊢
    cases first with
    | some both => exact .inr ⟨key, _, _, rfl, rfl, both⟩
    | none =>
      refine ih fun k member => agree k ?_
      simp only [List.findIdx_cons, found]
      exact List.mem_cons_of_mem key member

theorem resolveRelated {related : Definition → Definition → Prop} {t other : Table} {scope : String}
    {n : Name} (agree : ∀ key ∈ t.tried scope n, Option.Rel related (t.at? key) (other.at? key)) :
    (t.resolve? scope n = none ∧ other.resolve? scope n = none) ∨
    ∃ key d d', t.resolve? scope n = some (key, d) ∧ other.resolve? scope n = some (key, d') ∧
      related d d' := by
  refine firstRelated (candidates scope n) fun key member => ?_
  rw [getTried member t, getTried member other]
  exact agree key member

end Table
end PhpLint.Constant
