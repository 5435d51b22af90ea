import PhpLint.Config.Settings

/-! Severities from a file, by the order of its entries. Keys are texts, and several of them can name one
rule: by its code or its name, in any case. A valid file may hold such keys with different severities;
then the first one counts, and each of them comes first in some order. So a severity is the same for every
order exactly when the caller set it or all entries for the rule agree. -/
namespace PhpLint
namespace ConfigFile

def withEntries (f : ConfigFile) (entries : List (String × String)) : ConfigFile :=
  { f with severity := entries }

def sets? (r : Rule) (e : String × String) : Option Severity :=
  if Rule.parse? e.1 = some r then Severity.parse? e.2 else none

theorem setsIff {r : Rule} {e : String × String} {v : Severity} :
    sets? r e = some v ↔ Rule.parse? e.1 = some r ∧ Severity.parse? e.2 = some v := by
  unfold sets?
  split
  · rename_i named
    simp [named]
  · rename_i other
    simp [other]

theorem overridesFirst (f : ConfigFile) (r : Rule) :
    f.overrides.lookup r = f.severity.findSome? (sets? r) := by
  unfold overrides
  induction f.severity with
  | nil => rfl
  | cons e rest ih =>
    rw [List.filterMap_cons, List.findSome?_cons, sets?]
    cases rule : Rule.parse? e.1 with
    | none => simpa using ih
    | some own =>
      cases severity : Severity.parse? e.2 with
      | none => simpa using ih
      | some v =>
        by_cases same : own = r
        · simp [same]
        · have other : (r == own) = false := beq_false_of_ne (Ne.symm same)
          simpa [same, List.lookup_cons, other] using ih

theorem validIff (f : ConfigFile) : f.validate = .ok () ↔
    (∀ r ∈ f.select ++ f.exclude, (Rule.parse? r).isSome) ∧
    (∀ e ∈ f.severity, (Rule.parse? e.1).isSome ∧ (Severity.parse? e.2).isSome) ∧
    (∀ w ∈ f.format, (ReportFormat.parse? w).isSome) ∧ f.maxDiagnostics ≠ some 0 := by
  have rules : firstUnknown? (f.select ++ f.exclude) = none ↔
      ∀ r ∈ f.select ++ f.exclude, (Rule.parse? r).isSome := by
    simp only [firstUnknown?, List.find?_eq_none, Bool.not_eq_true, Option.isNone_eq_false_iff]
  have entry (e : String × String) : entryError? e = none ↔
      (Rule.parse? e.1).isSome ∧ (Severity.parse? e.2).isSome := by
    unfold entryError?
    cases Rule.parse? e.1 <;> cases Severity.parse? e.2 <;> simp
  have format : f.format.filter (fun s => (ReportFormat.parse? s).isNone) = none ↔
      ∀ w ∈ f.format, (ReportFormat.parse? w).isSome := by
    simp only [Option.filter_eq_none_iff, Bool.not_eq_true, Option.isNone_eq_false_iff, Option.mem_def]
  simp only [← rules, ← entry, ← List.findSome?_eq_none_iff, ← format]
  unfold validate
  split
  · rename_i r unknown
    simp [unknown]
  · rename_i known
    split
    · rename_i e fault
      simp [fault]
    · rename_i read
      split
      · rename_i w unknown
        simp [unknown]
      · rename_i written
        split
        · rename_i zero
          simp [zero]
        · rename_i positive
          exact ⟨fun _ => ⟨known, read, written, positive⟩, fun _ => rfl⟩

theorem validReordered {f : ConfigFile} {entries : List (String × String)}
    (order : entries.Perm f.severity) (valid : f.validate = .ok ()) :
    (f.withEntries entries).validate = .ok () := by
  obtain ⟨rules, read, rest⟩ := f.validIff.mp valid
  exact (validIff _).mpr ⟨rules, fun e member => read e (order.mem_iff.mp member), rest⟩

theorem setsInFront {f : ConfigFile} {e : String × String} {r : Rule} {v : Severity}
    (listed : e ∈ f.severity) (set : sets? r e = some v) :
    ∃ entries, entries.Perm f.severity ∧ (f.withEntries entries).overrides.lookup r = some v := by
  refine ⟨e :: f.severity.erase e, (List.perm_cons_erase listed).symm, ?_⟩
  rw [overridesFirst, withEntries, List.findSome?_cons, set]

theorem setsAgree {f : ConfigFile} {r : Rule} {entries : List (String × String)}
    (agree : ∀ a ∈ f.severity, ∀ b ∈ f.severity, ∀ v w, sets? r a = some v → sets? r b = some w → v = w)
    (order : entries.Perm f.severity) :
    (f.withEntries entries).overrides.lookup r = f.overrides.lookup r := by
  rw [overridesFirst, overridesFirst]
  show entries.findSome? (sets? r) = _
  cases here : entries.findSome? (sets? r) with
  | none =>
    have silent := List.findSome?_eq_none_iff.mp here
    exact (List.findSome?_eq_none_iff.mpr fun e member => silent e (order.mem_iff.mpr member)).symm
  | some v =>
    obtain ⟨a, member, set⟩ := List.exists_of_findSome?_eq_some here
    have listed := order.mem_iff.mp member
    cases there : f.severity.findSome? (sets? r) with
    | none => rw [List.findSome?_eq_none_iff.mp there a listed] at set; contradiction
    | some w =>
      obtain ⟨b, listed', set'⟩ := List.exists_of_findSome?_eq_some there
      rw [agree a listed b listed' v w set set']

end ConfigFile

namespace Settings

theorem mergedSeverityOf (s : Settings) (f : ConfigFile) (r : Rule) : (s.merge f).severityOf r =
    ((s.severity.lookup r).or (f.overrides.lookup r)).getD r.defaultSeverity := by
  rw [severityOf, merge, List.lookup_append]

theorem severityOfOverride {s : Settings} {f : ConfigFile} {r : Rule} {v : Severity}
    (unset : s.severity.lookup r = none) (found : f.overrides.lookup r = some v) :
    (s.merge f).severityOf r = v := by
  rw [mergedSeverityOf, unset, found]
  rfl

theorem severityOutcomes {s : Settings} {f : ConfigFile} {r : Rule} (valid : f.validate = .ok ())
    (unset : s.severity.lookup r = none) (named : ∃ e ∈ f.severity, Rule.parse? e.1 = some r)
    (v : Severity) :
    (∃ entries, entries.Perm f.severity ∧ (s.merge (f.withEntries entries)).severityOf r = v) ↔
      ∃ e ∈ f.severity, Rule.parse? e.1 = some r ∧ Severity.parse? e.2 = some v := by
  constructor
  · rintro ⟨entries, order, outcome⟩
    cases found : (f.withEntries entries).overrides.lookup r with
    | none =>
      obtain ⟨e, listed, rule⟩ := named
      obtain ⟨w, read⟩ := Option.isSome_iff_exists.mp ((f.validIff.mp valid).2.1 e listed).2
      rw [ConfigFile.overridesFirst, List.findSome?_eq_none_iff] at found
      have silent := found e (order.mem_iff.mpr listed)
      rw [ConfigFile.setsIff.mpr ⟨rule, read⟩] at silent
      contradiction
    | some w =>
      rw [severityOfOverride unset found] at outcome
      rw [ConfigFile.overridesFirst] at found
      obtain ⟨e, member, set⟩ := List.exists_of_findSome?_eq_some found
      rw [outcome] at set
      exact ⟨e, order.mem_iff.mp member, ConfigFile.setsIff.mp set⟩
  · rintro ⟨e, listed, set⟩
    obtain ⟨entries, order, found⟩ := ConfigFile.setsInFront listed (ConfigFile.setsIff.mpr set)
    exact ⟨entries, order, severityOfOverride unset found⟩

theorem severityIgnoresOrder {s : Settings} {f : ConfigFile} {r : Rule} (valid : f.validate = .ok ()) :
    (∀ entries, entries.Perm f.severity →
      (s.merge (f.withEntries entries)).severityOf r = (s.merge f).severityOf r) ↔
    (s.severity.lookup r).isSome ∨ ∀ a ∈ f.severity, ∀ b ∈ f.severity,
      Rule.parse? a.1 = some r → Rule.parse? b.1 = some r →
      Severity.parse? a.2 = Severity.parse? b.2 := by
  have readable := (f.validIff.mp valid).2.1
  constructor
  · intro same
    cases unset : s.severity.lookup r with
    | some v => exact .inl rfl
    | none =>
      have outcome {e : String × String} (listed : e ∈ f.severity) (rule : Rule.parse? e.1 = some r) :
          Severity.parse? e.2 = some ((s.merge f).severityOf r) := by
        obtain ⟨v, read⟩ := Option.isSome_iff_exists.mp (readable e listed).2
        obtain ⟨entries, order, own⟩ :=
          (severityOutcomes valid unset ⟨e, listed, rule⟩ v).mpr ⟨e, listed, rule, read⟩
        rw [read, ← same entries order, own]
      refine .inr fun a listed b listed' rule rule' => ?_
      rw [outcome listed rule, outcome listed' rule']
  · rintro (given | agree) entries order
    · obtain ⟨v, set⟩ := Option.isSome_iff_exists.mp given
      rw [mergedSeverityOf, mergedSeverityOf, set]
      rfl
    · rw [mergedSeverityOf, mergedSeverityOf, ConfigFile.setsAgree _ order]
      intro a listed b listed' v w set set'
      obtain ⟨rule, read⟩ := ConfigFile.setsIff.mp set
      obtain ⟨rule', read'⟩ := ConfigFile.setsIff.mp set'
      exact Option.some.inj (read.symm.trans ((agree a listed b listed' rule rule').trans read'))

theorem severityByOrder (s : Settings) (f : ConfigFile) (valid : f.validate = .ok ()) (r : Rule) :
    (∀ entries, entries.Perm f.severity → (f.withEntries entries).validate = .ok ()) ∧
    ((∀ entries, entries.Perm f.severity →
        (s.merge (f.withEntries entries)).severityOf r = (s.merge f).severityOf r) ↔
      (s.severity.lookup r).isSome ∨ ∀ a ∈ f.severity, ∀ b ∈ f.severity,
        Rule.parse? a.1 = some r → Rule.parse? b.1 = some r →
        Severity.parse? a.2 = Severity.parse? b.2) ∧
    (s.severity.lookup r = none → (∃ e ∈ f.severity, Rule.parse? e.1 = some r) → ∀ v,
      (∃ entries, entries.Perm f.severity ∧ (s.merge (f.withEntries entries)).severityOf r = v) ↔
        ∃ e ∈ f.severity, Rule.parse? e.1 = some r ∧ Severity.parse? e.2 = some v) :=
  ⟨fun _ order => ConfigFile.validReordered order valid, severityIgnoresOrder valid,
    severityOutcomes valid⟩

def spelledTwice (first second : String) : ConfigFile :=
  { ConfigFile.empty with severity := [("CRT001", first), ("bad-cond", second)] }

theorem agreedInAnyOrder :
    (spelledTwice "error" "Error").validate = .ok () ∧
    ∀ entries, entries.Perm (spelledTwice "error" "Error").severity →
      (default.merge ((spelledTwice "error" "Error").withEntries entries)).severityOf .badCondition =
        (default.merge (spelledTwice "error" "Error")).severityOf .badCondition := by
  have valid : (spelledTwice "error" "Error").validate = .ok () := rfl
  obtain ⟨-, same, -⟩ := severityByOrder default _ valid .badCondition
  exact ⟨valid, same.mpr (.inr (by decide +kernel))⟩

theorem conflictByOrder :
    (spelledTwice "error" "hint").validate = .ok () ∧
    ((spelledTwice "error" "hint").severity.map Prod.fst).Nodup ∧
    (spelledTwice "error" "hint").severity.reverse.Perm (spelledTwice "error" "hint").severity ∧
    (default.merge (spelledTwice "error" "hint")).severityOf .badCondition = .error ∧
    (default.merge ((spelledTwice "error" "hint").withEntries
      (spelledTwice "error" "hint").severity.reverse)).severityOf .badCondition = .hint :=
  ⟨rfl, by decide +kernel, List.reverse_perm _, by decide +kernel, by decide +kernel⟩

end Settings
end PhpLint
