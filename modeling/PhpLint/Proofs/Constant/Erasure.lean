import PhpLint.Proofs.Constant.LastWriter
import PhpLint.Proofs.Walk.Erasure

/-! Constants without ranges. Units without their ranges declare the same constants in the same order, so
they fill a table with the same keys and namespaces and with the same expressions, less their ranges;
against such a table an expression without its ranges has the value that it had. -/
namespace PhpLint

namespace Constant

def Definition.erased (d : Definition) : Definition := ⟨d.expr.erased, d.scope⟩

def Event.erased (e : Event) : Event := ⟨e.key, e.expr.erased, e.scope⟩

def Table.erased (t : Table) : Table := ⟨t.entries.map fun _ d => d.erased⟩

theorem definedKeyErased (scope : String) (e : Expr) :
    definedKey? scope e.erased = definedKey? scope e := by
  cases e <;> rfl

theorem ofCallErased (scope : String) (e : Expr) :
    ofCall? scope e.erased = (ofCall? scope e).map Event.erased := by
  simp only [ofCall?, Expr.callToErased]
  cases e.callTo? "define" with
  | none => rfl
  | some args =>
    rcases args with _ | ⟨name, _ | ⟨value, more⟩⟩
    · rfl
    · rfl
    · simp only [Option.map_some, List.map_cons, Expr.argumentErased]
      cases name.argumentValue? with
      | none => rfl
      | some name =>
        cases value.argumentValue? with
        | none => rfl
        | some value =>
          simp only [Option.map_some, Option.bind_eq_bind, Option.bind_some, definedKeyErased]
          cases definedKey? scope name <;> rfl

theorem eventsErased (v : Visit) : eventsAt v.erased = (eventsAt v).map Event.erased := by
  obtain ⟨scope, node⟩ := v
  cases node with
  | stmt s =>
    cases s with
    | const r decls =>
      simp only [Visit.erasedStmt, Stmt.erased, eventsAt, List.map_map]
      rfl
    | _ => rfl
  | expr e =>
    simp only [Visit.erasedExpr, eventsAt, ofCallErased]
    cases ofCall? scope e <;> rfl

def Table.Erases (bare t : Table) : Prop :=
  ∀ key, bare.at? key = (t.at? key).map Definition.erased

theorem erasedErases (t : Table) : t.erased.Erases t := by
  intro key
  exact Std.TreeMap.getElem?_map

theorem recordErases {bare t : Table} (erases : bare.Erases t) (e : Event) :
    (bare.record e.erased).Erases (t.record e) := by
  intro key
  rw [recordAt, recordAt]
  by_cases own : key = qualify "" e.key
  · rw [if_pos own, if_pos (by exact own)]
    rfl
  · rw [if_neg own, if_neg (by exact own), erases key]

theorem recordsErase {bare t : Table} (erases : bare.Erases t) (es : List Event) :
    ((es.map Event.erased).foldl Table.record bare).Erases (es.foldl Table.record t) := by
  induction es generalizing bare t with
  | nil => exact erases
  | cons e es ih => exact ih (recordErases erases e)

theorem collectErases (units : List SourceUnit) :
    (collect (units.map SourceUnit.erased)).Erases (collect units) := by
  have events : ((units.map SourceUnit.erased).flatMap SourceUnit.visits).flatMap eventsAt =
      ((units.flatMap SourceUnit.visits).flatMap eventsAt).map Event.erased := by
    simp only [List.flatMap_map, List.map_flatMap, List.flatMap_assoc, SourceUnit.visitsErased,
      eventsErased]
  have start : Table.empty.Erases Table.empty := fun key => by rw [emptyAt]; rfl
  rw [collectRecords, collectRecords, events]
  exact recordsErase start _

theorem erasesEntries {bare t : Table} (erases : bare.Erases t) :
    bare.entries.toList = t.entries.toList.map fun entry => (entry.1, entry.2.erased) := by
  have same : bare.entries.Equiv t.erased.entries := by
    refine Std.TreeMap.Equiv.of_forall_constGet?_eq fun key => ?_
    exact (erases key).trans (erasedErases t key).symm
  rw [Std.TreeMap.equiv_iff_toList_eq.mp same, Table.erased, Std.TreeMap.toList_map]

theorem foldErases {bare t : Table} (erases : bare.Erases t) (scope : String) (e : Expr) :
    fold bare scope e.erased = fold t scope e := by
  have agrees : t.Agrees bare scope e := by
    intro key _
    rw [erases key]
    cases t.at? key with
    | none => exact .none
    | some d => exact .some ⟨d.expr.sameAsErased, rfl⟩
  rw [fold, fold, runFrame agrees, run, Expr.evaluateErased]
  rfl

end Constant
end PhpLint
