import PhpLint.Proofs.Report.Sorting
import PhpLint.Proofs.Rule.Finding

/-! Selecting rules, setting severities and limiting the report are projections of the full run: they
can be done on the report of the default settings, after sorting. Neither the order in which rules run
nor the other rules that run with them can be seen in a report. -/
namespace PhpLint
open Sorting

namespace SourceUnit

theorem findingsFilter (u : SourceUnit) (t : Constant.Table) (rules : List Rule) (p : Rule → Bool) :
    (u.findings t rules).filter (fun d => p d.rule) = u.findings t (rules.filter p) := by
  simp only [findings, List.filter_flatMap]
  refine congrArg u.visits.flatMap (funext fun v => ?_)
  induction rules with
  | nil => rfl
  | cons r rest ih =>
    have own := Rule.checkReports ⟨u.path, t, v.scope⟩ r v.node
    rw [List.flatMap_cons, ih, List.filter_cons]
    split
    · rename_i selected
      have kept : (r.check ⟨u.path, t, v.scope⟩ v.node).filter (fun d => p d.rule) =
          r.check ⟨u.path, t, v.scope⟩ v.node := by
        refine List.filter_eq_self.mpr fun d member => ?_
        rw [(own d member).1, selected]
      rw [kept, List.flatMap_cons]
    · rename_i dropped
      have none : (r.check ⟨u.path, t, v.scope⟩ v.node).filter (fun d => p d.rule) = [] := by
        refine List.filter_eq_nil_iff.mpr fun d member => ?_
        rw [(own d member).1]
        exact dropped
      rw [none, List.nil_append]

theorem findingsTies (u : SourceUnit) (t : Constant.Table) {rules other : List Rule}
    (perm : rules.Perm other) (x : Diagnostic) :
    ties Diagnostic.order x (u.findings t rules) = ties Diagnostic.order x (u.findings t other) := by
  simp only [ties, findings, List.filter_flatMap]
  refine congrArg u.visits.flatMap (funext fun v => flatMapPerm perm fun a _ b _ different => ?_)
  have foreign {r : Rule} (apart : x.rule ≠ r) :
      ties Diagnostic.order x (r.check ⟨u.path, t, v.scope⟩ v.node) = [] := by
    refine List.eq_nil_iff_forall_not_mem.mpr fun d member => ?_
    obtain ⟨found, tied⟩ := memTies.mp member
    have own := (Rule.checkReports ⟨u.path, t, v.scope⟩ r v.node d found).1
    exact apart ((Diagnostic.orderEq.mp tied).2.2.trans own)
  by_cases first : x.rule = a
  · exact .inr (foreign fun second => different (first.symm.trans second))
  · exact .inl (foreign first)

end SourceUnit

namespace Settings

def fullRun (s : Settings) : Settings := default.withSharedConstants s.sharedConstants

def withSeverities (s : Settings) (ds : List Diagnostic) : List Diagnostic :=
  ds.map fun d => { d with severity := s.severityOf d.rule }

def limited (s : Settings) (ds : List Diagnostic) : List Diagnostic :=
  s.maxDiagnostics.elim ds ds.take

def tableFor (s : Settings) (units : List SourceUnit) (u : SourceUnit) : Constant.Table :=
  if s.sharedConstants then Constant.collect units else Constant.collect [u]

def findingsBy (s : Settings) (rules : List Rule) (units : List SourceUnit) : List Diagnostic :=
  s.withSeverities (units.flatMap fun u => u.findings (s.tableFor units u) rules)

def checkBy (s : Settings) (rules : List Rule) (units : List SourceUnit) : List Diagnostic :=
  s.limited (sorted Diagnostic.order (s.findingsBy rules units))

theorem findingsByUnit (s : Settings) (units : List SourceUnit) :
    s.findings units = (units.map fun u => s.checkUnit (s.tableFor units u) u).flatten := by
  unfold findings tableFor
  split <;> simp only [List.flatMap_def]

theorem findingsInOrder (s : Settings) (units : List SourceUnit) :
    s.findings units = s.findingsBy s.rules units := by
  rw [findingsByUnit, findingsBy, withSeverities, List.map_flatMap, List.flatMap_def]
  rfl

theorem emptyEnables {s : Settings} (empty : s.selectsNothing = true) (r : Rule) :
    s.enables r = false := by
  have none : s.select = some [] := by simpa [selectsNothing] using empty
  simp [enables, none]

theorem rulesSorted (s : Settings) :
    s.rules = sorted (compareOn Rule.cost) (Rule.all.filter s.enables) := by
  have same : (fun a b : Rule => decide (a.cost ≤ b.cost)) =
      fun a b => (compareOn Rule.cost a b).isLE := by
    funext a b
    rw [compareOn, Bool.eq_iff_iff, decide_eq_true_iff, Nat.isLE_compare]
  rw [rules, same]
  rfl

theorem checkSorted (s : Settings) (units : List SourceUnit) :
    s.check units = s.limited (sorted Diagnostic.order (s.findings units)) := by
  unfold check
  split
  · rename_i empty
    have unselected : Rule.all.filter s.enables = [] :=
      List.filter_eq_nil_iff.mpr fun r _ => by simp [emptyEnables empty]
    have nothing : s.findings units = [] := by
      rw [findingsInOrder, rulesSorted, unselected, sortedNil]
      simp [findingsBy, withSeverities, SourceUnit.findings]
    rw [nothing, sortedNil, limited]
    cases s.maxDiagnostics <;> simp
  · rfl

theorem checkInOrder (s : Settings) (units : List SourceUnit) :
    s.check units = s.checkBy s.rules units := by
  rw [checkSorted, findingsInOrder]
  rfl

theorem fullRules (s : Settings) : s.fullRun.rules.filter s.enables = s.rules := by
  have all : Rule.all.filter s.fullRun.enables = Rule.all :=
    List.filter_eq_self.mpr fun r _ => rfl
  rw [rulesSorted, rulesSorted, all, sortedFilter]

theorem sortedWithSeverities (s : Settings) (ds : List Diagnostic) :
    s.withSeverities (sorted Diagnostic.order ds) = sorted Diagnostic.order (s.withSeverities ds) :=
  List.map_mergeSort fun _ _ _ _ => rfl

theorem tiesWithSeverities (s : Settings) (x : Diagnostic) (ds : List Diagnostic) :
    ties Diagnostic.order x (s.withSeverities ds) =
      s.withSeverities (ties Diagnostic.order x ds) := by
  simp only [ties, withSeverities, List.filter_map]
  rfl

theorem findingsByFilter (s : Settings) (rules : List Rule) (units : List SourceUnit) :
    s.withSeverities ((s.fullRun.findingsBy rules units).filter fun d => s.enables d.rule) =
      s.findingsBy (rules.filter s.enables) units := by
  simp only [findingsBy, withSeverities, List.filter_map, List.map_map]
  have filtered : (units.flatMap fun u => u.findings (s.tableFor units u) rules).filter
      (fun d => s.enables d.rule) =
        units.flatMap fun u => u.findings (s.tableFor units u) (rules.filter s.enables) := by
    simp only [List.filter_flatMap, SourceUnit.findingsFilter]
  exact congrArg (List.map _) filtered

theorem checkByPerm (s : Settings) {rules other : List Rule} (perm : rules.Perm other)
    (units : List SourceUnit) : s.checkBy rules units = s.checkBy other units := by
  unfold checkBy findingsBy
  refine congrArg s.limited (sortedCongr Diagnostic.order fun x => ?_)
  rw [tiesWithSeverities, tiesWithSeverities]
  refine congrArg s.withSeverities ?_
  simp only [ties, List.filter_flatMap]
  exact congrArg units.flatMap (funext fun u => u.findingsTies _ perm x)

theorem reportProjectsFullRun (s : Settings) (units : List SourceUnit) :
    s.check units = s.limited (s.withSeverities
      ((s.fullRun.check units).filter fun d => s.enables d.rule)) ∧
    (∀ rules, rules.Perm s.rules → s.checkBy rules units = s.check units) ∧
    { s with select := some [] }.check units = [] := by
  refine ⟨?_, ?_, rfl⟩
  · have full : s.fullRun.check units =
        sorted Diagnostic.order (s.fullRun.findingsBy s.fullRun.rules units) := by
      rw [checkInOrder]
      rfl
    rw [full, sortedFilter, sortedWithSeverities, findingsByFilter, fullRules, checkInOrder, checkBy]
  · intro rules perm
    rw [checkInOrder]
    exact s.checkByPerm perm units

def sample (path name : String) : SourceUnit :=
  let one : Expr := .integer .synthetic "1"
  ⟨path, [.const .synthetic [⟨name, .synthetic, one⟩],
    .expr .synthetic (.binary .synthetic .equal one one)]⟩

theorem sampleInCodeOrder : Rule.all.Perm default.rules ∧
    default.checkBy Rule.all [sample "a.php" "A"] = default.check [sample "a.php" "A"] := by
  have perm : Rule.all.Perm default.rules := (List.mergeSort_perm Rule.all _).symm
  exact ⟨perm, (reportProjectsFullRun default [sample "a.php" "A"]).2.1 Rule.all perm⟩

end Settings
end PhpLint
