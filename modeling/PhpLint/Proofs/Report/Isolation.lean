import PhpLint.Proofs.Report.UnitOrder

/-! Where constants are not shared, each unit is reported as if it were checked alone: its findings are
made from its own table, and sorting them among those of other files keeps their order. A limit on the
number of findings is the only thing that lets one unit hide what is found in another. -/
namespace PhpLint
open Sorting

namespace Settings

theorem findingsSeparate {s : Settings} (separate : s.sharedConstants = false)
    (units : List SourceUnit) :
    s.findings units = units.flatMap fun u => s.checkUnit (Constant.collect [u]) u := by
  simp [findings, separate]

theorem checkUnitOfFile (s : Settings) (t : Constant.Table) (u : SourceUnit) (p : String → Bool) :
    ((s.checkUnit t u).filter fun d => p d.file) = if p u.path then s.checkUnit t u else [] := by
  have file := s.checkUnitFile t u
  split
  · rename_i kept
    refine List.filter_eq_self.mpr fun d member => ?_
    rw [file d member, kept]
  · rename_i dropped
    refine List.filter_eq_nil_iff.mpr fun d member => ?_
    rw [file d member]
    exact dropped

theorem findingsOfFile {s : Settings} (separate : s.sharedConstants = false)
    {before after : List SourceUnit} {u : SourceUnit} {p : String → Bool} (own : p u.path = true)
    (others : ∀ v ∈ before ++ after, p v.path = false) :
    ((s.findings (before ++ u :: after)).filter fun d => p d.file) = s.findings [u] := by
  have silent {units : List SourceUnit} (inside : units ⊆ before ++ after) :
      (units.flatMap fun v => (s.checkUnit (Constant.collect [v]) v).filter fun d => p d.file) = [] := by
    refine List.flatMap_eq_nil_iff.mpr fun v member => ?_
    rw [checkUnitOfFile, others v (inside member)]
    rfl
  rw [findingsSeparate separate, findingsSeparate separate, List.filter_flatMap, List.flatMap_append,
    List.flatMap_cons, silent (List.subset_append_left _ _), silent (List.subset_append_right _ _),
    checkUnitOfFile, own]
  simp

theorem checkOfFile {s : Settings} (separate : s.sharedConstants = false)
    (unlimited : s.maxDiagnostics = none) {before after : List SourceUnit} {u : SourceUnit}
    {p : String → Bool} (own : p u.path = true) (others : ∀ v ∈ before ++ after, p v.path = false) :
    ((s.check (before ++ u :: after)).filter fun d => p d.file) = s.check [u] := by
  have whole (units : List SourceUnit) : s.check units = sorted Diagnostic.order (s.findings units) := by
    rw [checkSorted, limited, unlimited]
    rfl
  rw [whole, whole, sortedFilter, findingsOfFile separate own others]

theorem reportIsolatesUnit {s : Settings} (separate : s.sharedConstants = false)
    (unlimited : s.maxDiagnostics = none) (before after : List SourceUnit) (u : SourceUnit)
    (paths : ∀ v ∈ before ++ after, Path.components v.path ≠ Path.components u.path) :
    (s.check (before ++ u :: after)).filter
      (fun d => Path.components d.file = Path.components u.path) = s.check [u] ∧
    (s.check (before ++ u :: after)).filter (fun d => d.file = u.path) = s.check [u] := by
  constructor
  · refine checkOfFile separate unlimited
      (p := fun file => Path.components file = Path.components u.path) (by simp) fun v member => ?_
    simpa using paths v member
  · refine checkOfFile separate unlimited (p := fun file => file = u.path) (by simp) fun v member => ?_
    have different : v.path ≠ u.path := fun same => paths v member (by rw [same])
    simpa using different

theorem samplesIsolated :
    (∀ v ∈ [sample "a.php" "A"] ++ [], Path.components v.path ≠ Path.components "b/./c.php") ∧
    ((default.withSharedConstants false).check [sample "a.php" "A", sample "b/./c.php" "A"]).filter
      (fun d => Path.components d.file = Path.components "b/./c.php") =
        (default.withSharedConstants false).check [sample "b/./c.php" "A"] := by
  have paths : ∀ v ∈ [sample "a.php" "A"] ++ [],
      Path.components v.path ≠ Path.components "b/./c.php" := by decide +kernel
  have separate : (default.withSharedConstants false).sharedConstants = false := rfl
  have isolated := reportIsolatesUnit separate rfl [sample "a.php" "A"] []
    (sample "b/./c.php" "A") paths
  exact ⟨paths, isolated.1⟩

end Settings
end PhpLint
