import PhpLint.Proofs.Constant.Collection
import PhpLint.Proofs.Report.Selection
import Mathlib.Data.List.Nodup
import Mathlib.Data.List.Pairwise

/-! The order of units cannot be seen in a report. Findings of different files never tie, so each tie
lies within the findings of one unit; and the shared table is the same for every order of units that
define no key in common. The findings of the units may therefore also be gathered in any order. -/
namespace PhpLint
open Sorting

namespace SourceUnit

theorem findingsAlike (u : SourceUnit) {t other : Constant.Table}
    (same : ∀ key, t.at? key = other.at? key) (rules : List Rule) :
    u.findings t rules = u.findings other rules := by
  have fold := Constant.foldCongr same
  have alike (scope : String) : Rule.Alike ⟨u.path, t, scope⟩ ⟨u.path, other, scope⟩ :=
    ⟨rfl, by unfold Context.fold; simp only [fold]⟩
  simp only [findings, (alike _).check]

end SourceUnit

namespace Settings

theorem checkUnitFile (s : Settings) (t : Constant.Table) (u : SourceUnit) :
    ∀ d ∈ s.checkUnit t u, d.file = u.path := by
  intro d member
  obtain ⟨found, inside, rfl⟩ := List.mem_map.mp member
  obtain ⟨v, _, atNode⟩ := List.mem_flatMap.mp inside
  obtain ⟨r, _, reported⟩ := List.mem_flatMap.mp atNode
  exact (Rule.checkReports ⟨u.path, t, v.scope⟩ r v.node found reported).2

theorem checkUnitTies (s : Settings) (t : Constant.Table) {u : SourceUnit} {x : Diagnostic}
    (other : Path.components x.file ≠ Path.components u.path) :
    ties Diagnostic.order x (s.checkUnit t u) = [] := by
  refine List.eq_nil_iff_forall_not_mem.mpr fun d member => ?_
  obtain ⟨found, tied⟩ := memTies.mp member
  have files := (Diagnostic.orderEq.mp tied).1
  rw [s.checkUnitFile t u d found] at files
  exact other files

theorem gatheredInAnyOrder (s : Settings) {units : List SourceUnit}
    (paths : (units.map fun u => Path.components u.path).Nodup) {gathered : List (List Diagnostic)}
    (perm : gathered.Perm (units.map fun u => s.checkUnit (s.tableFor units u) u)) :
    s.limited (sorted Diagnostic.order gathered.flatten) = s.check units := by
  rw [checkSorted, findingsByUnit]
  refine congrArg s.limited (sortedCongr Diagnostic.order fun x => ?_)
  rw [tiesFlatten, tiesFlatten]
  refine flatMapPerm perm fun a inA b inB different => ?_
  obtain ⟨u, inU, rfl⟩ := List.mem_map.mp (perm.mem_iff.mp inA)
  obtain ⟨v, inV, rfl⟩ := List.mem_map.mp (perm.mem_iff.mp inB)
  by_cases first : Path.components x.file = Path.components u.path
  · right
    refine s.checkUnitTies _ fun second => different ?_
    have same : u = v := List.inj_on_of_nodup_map paths inU inV (first.symm.trans second)
    rw [same]
  · exact .inl (s.checkUnitTies _ first)

theorem tableForPerm (s : Settings) {units other : List SourceUnit} (perm : units.Perm other)
    (apart : s.sharedConstants = true → ∀ u ∈ units, ∀ v ∈ units, u ≠ v → Constant.Apart u v)
    (u : SourceUnit) (key : String) :
    (s.tableFor units u).at? key = (s.tableFor other u).at? key := by
  unfold tableFor
  split
  · rename_i shared
    exact Constant.collectPerm perm (apart shared) key
  · rfl

theorem reportIgnoresUnitOrder (s : Settings) {units : List SourceUnit}
    (paths : (units.map fun u => Path.components u.path).Nodup)
    (keys : s.sharedConstants = true → units.Pairwise Constant.Apart) :
    (∀ other, other.Perm units → s.check other = s.check units) ∧
    ∀ gathered : List (List Diagnostic),
      gathered.Perm (units.map fun u => s.checkUnit (s.tableFor units u) u) →
        s.limited (sorted Diagnostic.order gathered.flatten) = s.check units := by
  refine ⟨?_, fun gathered perm => s.gatheredInAnyOrder paths perm⟩
  intro other perm
  have tables := s.tableForPerm perm.symm fun shared u inU v inV different =>
    (keys shared).forall inU inV different
  have blocks : (other.map fun u => s.checkUnit (s.tableFor other u) u) =
      other.map fun u => s.checkUnit (s.tableFor units u) u := by
    refine List.map_congr_left fun u _ => ?_
    simp only [checkUnit, u.findingsAlike (tables u)]
  rw [checkSorted, findingsByUnit, blocks]
  exact s.gatheredInAnyOrder paths (perm.map _)

theorem sampleAt (path name key : String) : (Constant.collect [sample path name]).at? key =
    if key = Constant.qualify "" (Constant.qualify "" name) then
      some ⟨.integer .synthetic "1", Constant.bareScope ""⟩ else none := by
  have record : Constant.collect [sample path name] = Constant.Table.empty.record
      ⟨Constant.qualify "" name, .integer .synthetic "1", ""⟩ := rfl
  rw [record, Constant.recordAt, Constant.emptyAt]

theorem samplesInAnyOrder :
    ([sample "a.php" "A", sample "b/./c.php" "B"].map fun u => Path.components u.path).Nodup ∧
    [sample "a.php" "A", sample "b/./c.php" "B"].Pairwise Constant.Apart ∧
    default.check [sample "b/./c.php" "B", sample "a.php" "A"] =
      default.check [sample "a.php" "A", sample "b/./c.php" "B"] := by
  have paths : ([sample "a.php" "A", sample "b/./c.php" "B"].map fun u =>
      Path.components u.path).Nodup := by decide +kernel
  have keys : [sample "a.php" "A", sample "b/./c.php" "B"].Pairwise Constant.Apart := by
    refine List.pairwise_pair.mpr fun key => ?_
    rw [sampleAt, sampleAt]
    by_cases first : key = Constant.qualify "" (Constant.qualify "" "A")
    · right
      rw [first]
      decide +kernel
    · exact .inl (if_neg first)
  exact ⟨paths, keys, (reportIgnoresUnitOrder default paths fun _ => keys).1 _ (.swap _ _ _)⟩

end Settings
end PhpLint
