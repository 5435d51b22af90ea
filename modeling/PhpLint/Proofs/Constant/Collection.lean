import PhpLint.Constant.Table
import PhpLint.Proofs.Constant.Frame

/-! Tables are compared by the definitions that they hold. A later recording wins, so the table of
several units holds for each key what the last unit that defines it defines; where no key is defined
by two units the order of the units does not matter. Evaluation reads a table through its definitions
only. -/
namespace PhpLint.Constant

theorem recordAt (t : Table) (e : Event) (key : String) :
    (t.record e).at? key =
      if key = qualify "" e.key then some ⟨e.expr, bareScope e.scope⟩ else t.at? key :=
  Table.atDefine t e.key e.expr e.scope key

theorem recordsAt (es : List Event) (t : Table) (key : String) :
    (es.foldl Table.record t).at? key =
      ((es.foldl Table.record Table.empty).at? key).or (t.at? key) := by
  induction es generalizing t with
  | nil => simp [emptyAt]
  | cons e rest ih =>
    have once : (t.record e).at? key = ((Table.empty.record e).at? key).or (t.at? key) := by
      rw [recordAt, recordAt]
      split <;> simp [emptyAt]
    rw [List.foldl_cons, List.foldl_cons, ih, ih (Table.empty.record e), once, Option.or_assoc]

theorem recordsAbsent {es : List Event} {key : String} (none : ∀ e ∈ es, qualify "" e.key ≠ key) :
    (es.foldl Table.record Table.empty).at? key = .none := by
  induction es with
  | nil => exact emptyAt key
  | cons e rest ih =>
    have other := none e List.mem_cons_self
    have later := ih fun f member => none f (List.mem_cons_of_mem e member)
    rw [List.foldl_cons, recordsAt, later, recordAt, emptyAt, if_neg other.symm]
    rfl

theorem collectAt (t : Table) (u : SourceUnit) (key : String) :
    (t.collect u).at? key = ((collect [u]).at? key).or (t.at? key) := recordsAt (events u) t key

theorem collectAllAt (units : List SourceUnit) (key : String) :
    (collect units).at? key =
      units.foldl (fun known u => ((collect [u]).at? key).or known) none := by
  have run (t : Table) : (units.foldl Table.collect t).at? key =
      units.foldl (fun known u => ((collect [u]).at? key).or known) (t.at? key) := by
    induction units generalizing t with
    | nil => rfl
    | cons u rest ih => rw [List.foldl_cons, List.foldl_cons, ih, collectAt]
  rw [collect, run, emptyAt]

def Apart (u v : SourceUnit) : Prop :=
  ∀ key, (collect [u]).at? key = none ∨ (collect [v]).at? key = none

instance : Std.Symm Apart := ⟨fun _ _ none key => (none key).symm⟩

theorem collectPerm {units other : List SourceUnit} (perm : units.Perm other)
    (apart : ∀ u ∈ units, ∀ v ∈ units, u ≠ v → Apart u v) (key : String) :
    (collect units).at? key = (collect other).at? key := by
  rw [collectAllAt, collectAllAt]
  refine perm.foldl_eq' (fun u inU v inV known => ?_) none
  by_cases same : u = v
  · rw [same]
  · rcases apart u inU v inV same key with empty | empty <;> simp [empty]

theorem foldCongr {t other : Table} (same : ∀ key, t.at? key = other.at? key) :
    fold t = fold other := by
  funext scope e
  refine congrArg Prod.fst (runFrame fun key _ => ?_)
  rw [same key]
  exact Definition.sameOption _

end PhpLint.Constant
