import PhpLint.Proofs.Config.SeverityOrder
import PhpLint.Proofs.Report.Selection

/-! The rules that run under a configuration file. An entry of the file names a rule by its code or its
name, in any case, and may repeat another entry; an entry that names no rule selects and excludes nothing.
So what runs is said by the entries that do name rules, whether or not the file is valid, and the rules
come in one order without repetition. Only a valid file, though, has no entry that is dropped in silence:
an invalid one can select nothing at all, and validation stops at its first unknown entry. -/
namespace PhpLint
namespace ConfigFile

def Names (entries : List String) (r : Rule) : Prop := ∃ e ∈ entries, Rule.parse? e = some r

instance (entries : List String) (r : Rule) : Decidable (Names entries r) :=
  inferInstanceAs (Decidable (∃ e ∈ entries, Rule.parse? e = some r))

def FirstUnknown (entries : List String) (e : String) : Prop :=
  Rule.parse? e = none ∧
    ∃ before after, entries = before ++ e :: after ∧ ∀ b ∈ before, (Rule.parse? b).isSome

theorem firstUnknownIff {entries : List String} {e : String} :
    firstUnknown? entries = some e ↔ FirstUnknown entries e := by
  simp [firstUnknown?, List.find?_eq_some_iff_append, FirstUnknown]

theorem firstUnknownExists {entries : List String} (unknown : ∃ e ∈ entries, Rule.parse? e = none) :
    ∃ e, FirstUnknown entries e := by
  cases first : firstUnknown? entries with
  | some e => exact ⟨e, firstUnknownIff.mp first⟩
  | none =>
    obtain ⟨e, listed, unread⟩ := unknown
    have read := List.find?_eq_none.mp first e listed
    simp [unread] at read

theorem firstUnknownRejected {f : ConfigFile} {e : String}
    (first : FirstUnknown (f.select ++ f.exclude) e) : f.validate = .error (.unknownRule e) := by
  rw [validate, firstUnknownIff.mpr first]

theorem selectedEmpty {f : ConfigFile} :
    f.selected? = some [] ↔ f.select ≠ [] ∧ ∀ e ∈ f.select, Rule.parse? e = none := by
  unfold selected?
  split
  · rename_i absent
    simp [absent]
  · rename_i given
    simp [given, List.filterMap_eq_nil_iff]

end ConfigFile

namespace Settings
open ConfigFile Sorting

def Selected (s : Settings) (f : ConfigFile) (r : Rule) : Prop :=
  (∃ rules, s.select = some rules ∧ r ∈ rules) ∨
    (s.select = none ∧ f.select = []) ∨ (s.select = none ∧ Names f.select r)

structure Runs (s : Settings) (f : ConfigFile) (r : Rule) : Prop where
  notIgnored : r ∉ s.ignore
  notExcluded : ¬ Names f.exclude r
  selected : s.Selected f r

theorem memRules {s : Settings} {r : Rule} : r ∈ s.rules ↔ s.enables r = true := by
  rw [rules, List.mem_mergeSort, List.mem_filter]
  exact and_iff_right r.memAll

theorem enablesIff {s : Settings} {r : Rule} :
    s.enables r = true ↔ r ∉ s.ignore ∧ ∀ rules, s.select = some rules → r ∈ rules := by
  simp [enables, Option.all_eq_true]

theorem selectedIff {s : Settings} {f : ConfigFile} {r : Rule} :
    (∀ rules, (s.merge f).select = some rules → r ∈ rules) ↔ s.Selected f r := by
  unfold merge selected? Selected
  cases s.select with
  | some rules => simp
  | none =>
    by_cases absent : f.select = []
    · simp [absent]
    · simp [absent, Names]

theorem runsIff (s : Settings) (f : ConfigFile) (r : Rule) : r ∈ (s.merge f).rules ↔ s.Runs f r := by
  have ignored : r ∉ (s.merge f).ignore ↔ r ∉ s.ignore ∧ ¬ Names f.exclude r := by
    rw [merge, List.mem_append, excluded, List.mem_filterMap, not_or]
    rfl
  rw [memRules, enablesIff, ignored, selectedIff]
  constructor
  · rintro ⟨⟨notIgnored, notExcluded⟩, selected⟩
    exact ⟨notIgnored, notExcluded, selected⟩
  · intro runs
    exact ⟨⟨runs.notIgnored, runs.notExcluded⟩, runs.selected⟩

theorem rulesIncrease (s : Settings) :
    s.rules.Pairwise fun a b => a.cost < b.cost ∨ a.cost = b.cost ∧ a.number < b.number := by
  have numbered : Rule.all.Pairwise fun a b => a.number < b.number := by decide
  rw [rulesSorted]
  refine (sortedRefines (compareOn Rule.cost) (numbered.filter s.enables)).imp ?_
  rintro a b (cheaper | ⟨same, before⟩)
  · exact .inl (Nat.compare_eq_lt.mp cheaper)
  · exact .inr ⟨Nat.compare_eq_eq.mp same, before⟩

theorem rulesDistinct (s : Settings) : s.rules.Nodup := by
  refine s.rulesIncrease.imp ?_
  rintro a b order rfl
  omega

theorem ofFileSelects {f : ConfigFile} (valid : f.validate = .ok ()) :
    (ofFile f).selectsNothing = false := by
  have known := (f.validIff.mp valid).1
  rw [selectsNothing, beq_eq_false_iff_ne]
  intro nothing
  obtain ⟨given, unknown⟩ := selectedEmpty.mp nothing
  obtain ⟨e, listed⟩ := List.exists_mem_of_ne_nil _ given
  have read := known e (List.mem_append_left _ listed)
  simp [unknown e listed] at read

theorem fileSelectsWhatItSays (f : ConfigFile) :
    (∀ (s : Settings) (r : Rule), r ∈ (s.merge f).rules ↔ s.Runs f r) ∧
    (∀ s : Settings, (s.merge f).rules.Nodup ∧ (s.merge f).rules.Pairwise fun a b =>
      a.cost < b.cost ∨ a.cost = b.cost ∧ a.number < b.number) ∧
    (f.validate = .ok () → (ofFile f).selectsNothing = false ∧
      ∀ e ∈ f.select ++ f.exclude, ∃ r, Rule.parse? e = some r) ∧
    ((∃ e ∈ f.select ++ f.exclude, Rule.parse? e = none) →
      (∃ e, FirstUnknown (f.select ++ f.exclude) e) ∧
      ∀ e, f.validate = .error (.unknownRule e) ↔ FirstUnknown (f.select ++ f.exclude) e) := by
  refine ⟨fun s r => runsIff s f r, fun s => ⟨rulesDistinct _, rulesIncrease _⟩, ?_, ?_⟩
  · intro valid
    have known := (f.validIff.mp valid).1
    exact ⟨ofFileSelects valid, fun e listed => Option.isSome_iff_exists.mp (known e listed)⟩
  · intro unknown
    obtain ⟨e, first⟩ := firstUnknownExists unknown
    refine ⟨⟨e, first⟩, fun other => ⟨fun failed => ?_, firstUnknownRejected⟩⟩
    -- There is one outcome, so an entry that is reported is the first unknown one.
    have same : e = other := by simpa [firstUnknownRejected first] using failed
    exact same ▸ first

def spelledFreely (exclusions : List String) : ConfigFile :=
  { ConfigFile.empty with
    select := ["crt002", "Dup-Sub-Expr", "BAD-COND", "CRT001"], exclude := "bad-cond" :: exclusions }

theorem freeSpellingsSelect :
    (spelledFreely ["Crt003"]).validate = .ok () ∧
    .duplicateOperand ∈ (default.merge (spelledFreely ["Crt003"])).rules ∧
    .badCondition ∉ (default.merge (spelledFreely ["Crt003"])).rules ∧
    (ofFile (spelledFreely ["Crt003"])).selectsNothing = false ∧
    (spelledFreely ["CRT003", "CRT009", "", "crt001"]).validate = .error (.unknownRule "CRT009") := by
  have valid : (spelledFreely ["Crt003"]).validate = .ok () := rfl
  obtain ⟨runs, -, nonempty, -⟩ := fileSelectsWhatItSays (spelledFreely ["Crt003"])
  obtain ⟨-, -, -, rejected⟩ := fileSelectsWhatItSays (spelledFreely ["CRT003", "CRT009", "", "crt001"])
  refine ⟨valid, (runs _ _).mpr ?_, fun listed => ?_, (nonempty valid).1, ?_⟩
  · exact ⟨List.not_mem_nil, by decide +kernel, .inr (.inr ⟨rfl, by decide +kernel⟩)⟩
  · exact ((runs _ _).mp listed).notExcluded (by decide +kernel)
  · have unread : Rule.parse? "CRT009" = none := by decide +kernel
    refine ((rejected ⟨"CRT009", by decide, unread⟩).2 "CRT009").mpr ⟨unread, ?_⟩
    exact ⟨["crt002", "Dup-Sub-Expr", "BAD-COND", "CRT001", "bad-cond", "CRT003"], ["", "crt001"], rfl,
      by decide +kernel⟩

end Settings
end PhpLint
