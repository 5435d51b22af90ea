import PhpLint.Config.Discovery
import PhpLint.Proofs.Disk.Ancestors

/-! The configuration file that is found for a place. It lies in the nearest directory that has one, unless
the root of a project comes before it; a root that has one itself still counts. A directory with neither a
configuration file nor a mark of a root is passed over, so starting in it or in the directory above it makes
no difference. Files and entries are known through two predicates, and nothing is assumed of these but where
one directory is spelled in two ways. -/
namespace PhpLint.Discovery
open PhpLint.Path (Entry ancestors components join parent?)

structure Clear (isFile exists? : String → Bool) (dir : String) : Prop where
  config : isFile (join dir ".critic.toml") = false
  repository : exists? (join dir ".git") = false
  package : exists? (join dir "composer.json") = false

instance (isFile exists? : String → Bool) (dir : String) : Decidable (Clear isFile exists? dir) :=
  decidable_of_iff (isFile (join dir ".critic.toml") = false ∧ exists? (join dir ".git") = false ∧
      exists? (join dir "composer.json") = false)
    ⟨fun all => ⟨all.1, all.2.1, all.2.2⟩, fun clear => ⟨clear.config, clear.repository, clear.package⟩⟩

/- The directories at and above a place, the nearest first. A file has no directory but the one it is in. -/
def around (isFile : String → Bool) (start : String) : List String :=
  if isFile start then (parent? start).elim [] ancestors else ancestors start

structure Nearest (isFile exists? : String → Bool) (dirs : List String) (k : Nat) (dir : String) : Prop where
  position : dirs[k]? = some dir
  config : isFile (join dir ".critic.toml") = true
  passed : ∀ i < k, ∀ nearer, dirs[i]? = some nearer → Clear isFile exists? nearer

variable {isFile exists? : String → Bool}

theorem directoriesAround (isFile : String → Bool) (start : String) :
    directories isFile start = around isFile start := by
  unfold directories around
  split
  · cases parent : parent? start with
    | none => exact List.head?_eq_none_iff.mp parent
    | some above => exact (Path.parentUp parent).1
  · rfl

theorem searchFirst (dir : String) (dirs : List String) : search isFile exists? (dir :: dirs) =
    if isFile (join dir ".critic.toml") then some (join dir ".critic.toml")
    else if exists? (join dir ".git") || exists? (join dir "composer.json") then none
    else search isFile exists? dirs := by
  simp [search, fileName, rootMarkers]

theorem searchClear {dir : String} (clear : Clear isFile exists? dir) (dirs : List String) :
    search isFile exists? (dir :: dirs) = search isFile exists? dirs := by
  simp [searchFirst, clear.config, clear.repository, clear.package]

theorem searchCons (dir : String) (dirs : List String) (path : String) :
    search isFile exists? (dir :: dirs) = some path ↔
      (path = join dir ".critic.toml" ∧ isFile path = true) ∨
      (Clear isFile exists? dir ∧ search isFile exists? dirs = some path) := by
  rw [searchFirst]
  cases held : isFile (join dir ".critic.toml") with
  | true =>
    have blocked : ¬ Clear isFile exists? dir := by
      intro clear
      rw [clear.config] at held
      contradiction
    constructor
    · intro found
      cases found
      exact .inl ⟨rfl, held⟩
    · rintro (⟨rfl, -⟩ | ⟨clear, -⟩)
      · rfl
      · exact absurd clear blocked
  | false =>
    have elsewhere : ¬ (path = join dir ".critic.toml" ∧ isFile path = true) := by
      rintro ⟨rfl, file⟩
      rw [held] at file
      contradiction
    have clear : Clear isFile exists? dir ↔
        (exists? (join dir ".git") || exists? (join dir "composer.json")) = false := by
      rw [Bool.or_eq_false_iff]
      exact ⟨fun clear => ⟨clear.repository, clear.package⟩, fun none => ⟨held, none.1, none.2⟩⟩
    cases marked : exists? (join dir ".git") || exists? (join dir "composer.json") with
    | true => simp [elsewhere, clear, marked]
    | false => simp [elsewhere, clear, marked]

theorem nearestCons (dir : String) (dirs : List String) (path : String) :
    (∃ k found, Nearest isFile exists? (dir :: dirs) k found ∧ path = join found ".critic.toml") ↔
      (path = join dir ".critic.toml" ∧ isFile path = true) ∨ (Clear isFile exists? dir ∧
        ∃ k found, Nearest isFile exists? dirs k found ∧ path = join found ".critic.toml") := by
  constructor
  · rintro ⟨k, found, nearest, rfl⟩
    cases k with
    | zero =>
      cases nearest.position
      exact .inl ⟨rfl, nearest.config⟩
    | succ k =>
      have clear := nearest.passed 0 (Nat.succ_pos k) dir rfl
      refine .inr ⟨clear, k, found, ⟨nearest.position, nearest.config, ?_⟩, rfl⟩
      intro i before nearer
      exact nearest.passed (i + 1) (Nat.succ_lt_succ before) nearer
  · rintro (⟨rfl, held⟩ | ⟨clear, k, found, nearest, rfl⟩)
    · exact ⟨0, dir, ⟨rfl, held, fun i before => absurd before (Nat.not_lt_zero i)⟩, rfl⟩
    · refine ⟨k + 1, found, ⟨nearest.position, nearest.config, ?_⟩, rfl⟩
      intro i before nearer position
      cases i with
      | zero =>
        cases position
        exact clear
      | succ i => exact nearest.passed i (Nat.lt_of_succ_lt_succ before) nearer position

theorem searchNearest (dirs : List String) (path : String) : search isFile exists? dirs = some path ↔
    ∃ k dir, Nearest isFile exists? dirs k dir ∧ path = join dir ".critic.toml" := by
  induction dirs with
  | nil =>
    constructor
    · intro found
      contradiction
    · rintro ⟨k, dir, nearest, -⟩
      cases nearest.position
  | cons dir dirs ih => rw [searchCons, nearestCons, ih]

theorem findNearest (start path : String) : find? isFile exists? start = some path ↔
    ∃ k dir, Nearest isFile exists? (around isFile start) k dir ∧ path = join dir ".critic.toml" := by
  rw [find?, directoriesAround, searchNearest]

theorem configEntry : Entry ".critic.toml" := by decide +kernel

theorem aroundUnique {start : String} {i j : Nat} {dir other : String}
    (here : (around isFile start)[i]? = some dir) (there : (around isFile start)[j]? = some other)
    (same : join dir ".critic.toml" = join other ".critic.toml") : i = j := by
  have shrink : (around isFile start).Pairwise fun lower upper =>
      (components upper).length < (components lower).length := by
    unfold around
    split
    · cases parent? start with
      | none => exact List.Pairwise.nil
      | some above => exact Path.ancestorsShrink above
    · exact Path.ancestorsShrink start
  have level : (components dir).length = (components other).length := by
    have paths := congrArg (fun path => (components path).length) same
    simpa [Path.componentsJoin configEntry] using paths
  obtain ⟨first, rfl⟩ := List.getElem?_eq_some_iff.mp here
  obtain ⟨second, rfl⟩ := List.getElem?_eq_some_iff.mp there
  rw [List.pairwise_iff_getElem] at shrink
  rcases Nat.lt_trichotomy i j with before | equal | after
  · exact absurd level (Nat.ne_of_gt (shrink i j first second before))
  · exact equal
  · exact absurd level (Nat.ne_of_lt (shrink j i second first after))

theorem findAt {start : String} {k : Nat} {dir : String} (position : (around isFile start)[k]? = some dir) :
    find? isFile exists? start = some (join dir ".critic.toml") ↔
      Nearest isFile exists? (around isFile start) k dir := by
  rw [findNearest]
  constructor
  · rintro ⟨j, other, nearest, same⟩
    cases aroundUnique position nearest.position same
    cases Option.some.inj (position.symm.trans nearest.position)
    exact nearest
  · intro nearest
    exact ⟨k, dir, nearest, rfl⟩

theorem findAround {start : String} (directory : isFile start = false) :
    find? isFile exists? start = search isFile exists? (ancestors start) := by
  simp [find?, directories, directory]

theorem findAbove {dir sub : String} (parent : parent? sub = some dir) (directory : isFile dir = false)
    (below : isFile sub = false) (clear : Clear isFile exists? sub) :
    find? isFile exists? sub = find? isFile exists? dir := by
  rw [findAround below, findAround directory, ancestors, searchClear clear, (Path.parentUp parent).1]

theorem searchSpelled {dir other : String} (files : Path.Plainly isFile) (entries : Path.Plainly exists?)
    (same : components dir = components other) (dirs : List String) :
    (search isFile exists? (dir :: dirs)).map components =
      (search isFile exists? (other :: dirs)).map components := by
  have repository : Entry ".git" := by decide +kernel
  have package : Entry "composer.json" := by decide +kernel
  rw [searchFirst, searchFirst, files dir other configEntry same, entries dir other repository same,
    entries dir other package same]
  split
  · rw [Option.map_some, Option.map_some, Path.componentsJoin configEntry, Path.componentsJoin configEntry, same]
  · rfl

theorem findBelow {dir name : String} (files : Path.Plainly isFile) (entries : Path.Plainly exists?)
    (entry : Entry name) (directory : isFile dir = false) (below : isFile (join dir name) = false)
    (clear : Clear isFile exists? (join dir name)) :
    (find? isFile exists? (join dir name)).map components =
      (find? isFile exists? dir).map components := by
  rw [findAround below, findAround directory, ancestors, searchClear clear, Path.parentsJoin entry, ancestors]
  exact searchSpelled files entries (Path.componentsTrimmed dir) (Path.parents dir)

theorem nearestConfigFound (isFile exists? : String → Bool) :
    (∀ start k dir, (around isFile start)[k]? = some dir →
      (find? isFile exists? start = some (join dir ".critic.toml") ↔
        Nearest isFile exists? (around isFile start) k dir)) ∧
    (∀ start, find? isFile exists? start = none ↔
      ∀ k dir, ¬ Nearest isFile exists? (around isFile start) k dir) ∧
    (∀ dir sub, parent? sub = some dir → isFile dir = false → isFile sub = false →
      Clear isFile exists? sub → find? isFile exists? sub = find? isFile exists? dir) ∧
    (Path.Plainly isFile → Path.Plainly exists? → ∀ dir name, Entry name → isFile dir = false →
      isFile (join dir name) = false → Clear isFile exists? (join dir name) →
      (find? isFile exists? (join dir name)).map components =
        (find? isFile exists? dir).map components) := by
  refine ⟨fun _ _ _ => findAt, ?_, fun _ _ => findAbove, fun files entries _ _ => findBelow files entries⟩
  intro start
  rw [Option.eq_none_iff_forall_ne_some]
  constructor
  · intro nothing k dir nearest
    exact nothing _ ((findAt nearest.position).mpr nearest)
  · intro nowhere path found
    obtain ⟨k, dir, nearest, -⟩ := (findNearest start path).mp found
    exact nowhere k dir nearest

def layered : Disk where
  entries := [([".critic.toml"], .file []), (["app"], .directory), (["app", ".critic.toml"], .file []),
    (["app", "composer.json"], .file []), (["app", "src"], .directory),
    (["app", "src", "unit.json"], .file [])]

theorem layeredFound :
    (parent? "app/src" = some "app" ∧ Entry "src" ∧ Clear layered.isFile layered.contains "app//src") ∧
    Nearest layered.isFile layered.contains (around layered.isFile "app/src/unit.json") 1 "app" ∧
    find? layered.isFile layered.contains "app/src" = find? layered.isFile layered.contains "app" ∧
    (find? layered.isFile layered.contains "app//src").map components =
      (find? layered.isFile layered.contains "app//").map components := by
  obtain ⟨found, -, above, below⟩ := nearestConfigFound layered.isFile layered.contains
  have parent : parent? "app/src" = some "app" := by decide +kernel
  have entry : Entry "src" := by decide +kernel
  have clear : Clear layered.isFile layered.contains "app/src" := by decide +kernel
  have spelled : Clear layered.isFile layered.contains "app//src" := by decide +kernel
  refine ⟨⟨parent, entry, spelled⟩, ?_, ?_, ?_⟩
  · exact (found "app/src/unit.json" 1 "app" (by decide +kernel)).mp (by decide +kernel)
  · exact above "app" "app/src" parent (by decide +kernel) (by decide +kernel) clear
  · exact below layered.filesPlainly layered.entriesPlainly "app//" "src" entry (by decide +kernel)
      (by decide +kernel) spelled

end PhpLint.Discovery
