import PhpLint.Config.Settings

/-! A caller's settings against a configuration file. Merging keeps the rule lists, severities, limit and
format that the caller gave, and takes from the file only what they leave open, besides its exclusions.
Shared constants are the exception: the file decides about them even against the caller. -/
namespace PhpLint

inductive Request where
  | limit (max : Option Nat)
  | share (shared : Bool)
  | write (format : ReportFormat)
  | grade (rule : Rule) (severity : Severity)
  deriving DecidableEq, Repr

namespace Request

def apply (s : Settings) : Request → Settings
  | limit max => s.withMaxDiagnostics max
  | share shared => s.withSharedConstants shared
  | write format => s.withFormat format
  | grade rule severity => s.withSeverity rule severity

def limit? : Request → Option (Option Nat)
  | limit max => some max
  | _ => none

def shared? : Request → Option Bool
  | share shared => some shared
  | _ => none

def format? : Request → Option ReportFormat
  | write format => some format
  | _ => none

def severity? (r : Rule) : Request → Option Severity
  | grade rule severity => if r = rule then some severity else none
  | _ => none

def last? (view : Request → Option α) (requests : List Request) : Option α :=
  requests.reverse.findSome? view

theorem lastCons (view : Request → Option α) (q : Request) (requests : List Request) :
    last? view (q :: requests) = (last? view requests).or (view q) := by
  rw [last?, List.reverse_cons, List.findSome?_append, List.findSome?_singleton]
  rfl

theorem appliedLast (field : Settings → β) {view : Request → Option α} {set : α → β}
    (step : ∀ s q, field (apply s q) = (view q).elim (field s) set) (s : Settings)
    (requests : List Request) :
    field (requests.foldl apply s) = (last? view requests).elim (field s) set := by
  induction requests generalizing s with
  | nil => rfl
  | cons q requests ih =>
    rw [List.foldl_cons, ih, step, lastCons]
    cases last? view requests <;> rfl

end Request

structure Caller where
  select : Option String
  ignore : Option String
  requests : List Request
  deriving DecidableEq, Repr

namespace Caller
open Request

def settings (c : Caller) : Settings :=
  c.requests.foldl Request.apply (Settings.ofLists c.select c.ignore)

theorem listsKept (s : Settings) (requests : List Request) :
    (requests.foldl Request.apply s).select = s.select ∧
    (requests.foldl Request.apply s).ignore = s.ignore := by
  induction requests generalizing s with
  | nil => exact ⟨rfl, rfl⟩
  | cons q requests ih =>
    obtain ⟨select, ignore⟩ := ih (Request.apply s q)
    rw [List.foldl_cons, select, ignore]
    cases q <;> exact ⟨rfl, rfl⟩

theorem settingsSeverity (c : Caller) (r : Rule) :
    c.settings.severity.lookup r = last? (severity? r) c.requests := by
  have step (s : Settings) (q : Request) :
      (apply s q).severity.lookup r = (severity? r q).elim (s.severity.lookup r) some := by
    cases q with
    | grade rule severity =>
      by_cases same : r = rule
      · simp [apply, Settings.withSeverity, severity?, same]
      · have other : (r == rule) = false := beq_false_of_ne same
        simp [apply, Settings.withSeverity, severity?, same, List.lookup_cons, other]
    | _ => rfl
  have held := appliedLast (fun s => s.severity.lookup r) step (.ofLists c.select c.ignore) c.requests
  refine held.trans ?_
  cases last? (severity? r) c.requests <;> rfl

theorem settingsLimit (c : Caller) :
    c.settings.maxDiagnostics = (last? limit? c.requests).join := by
  have step (s : Settings) (q : Request) :
      (apply s q).maxDiagnostics = (limit? q).elim s.maxDiagnostics id := by
    cases q <;> rfl
  rw [settings, appliedLast Settings.maxDiagnostics step]
  cases last? limit? c.requests <;> rfl

theorem settingsFormat (c : Caller) : c.settings.format = last? format? c.requests := by
  have step (s : Settings) (q : Request) :
      (apply s q).format = (format? q).elim s.format some := by
    cases q <;> rfl
  rw [settings, appliedLast Settings.format step]
  cases last? format? c.requests <;> rfl

theorem settingsShared (c : Caller) :
    c.settings.sharedConstants = (last? shared? c.requests).getD true := by
  have step (s : Settings) (q : Request) :
      (apply s q).sharedConstants = (shared? q).elim s.sharedConstants id := by
    cases q <;> rfl
  rw [settings, appliedLast Settings.sharedConstants step]
  cases last? shared? c.requests <;> rfl

structure Respected (c : Caller) (s : Settings) : Prop where
  select : ∀ list ∈ c.select, s.select = some (Settings.ruleList list)
  ignore : ∀ list ∈ c.ignore, ∀ r ∈ Settings.ruleList list, r ∈ s.ignore
  severity : ∀ r, ∀ v ∈ last? (severity? r) c.requests, s.severity.lookup r = some v
  limit : ∀ n, last? limit? c.requests = some (some n) → s.maxDiagnostics = some n
  format : ∀ w ∈ last? format? c.requests, s.format = some w

def SharingRespected (c : Caller) (s : Settings) : Prop :=
  ∀ shared ∈ last? shared? c.requests, s.sharedConstants = shared

structure Completed (c : Caller) (f : ConfigFile) (s : Settings) : Prop where
  select : c.select = none → s.select = f.selected?
  ignore : ∀ r, r ∈ s.ignore ↔ r ∈ c.ignore.elim [] Settings.ruleList ∨ r ∈ f.excluded
  severity : ∀ r, last? (severity? r) c.requests = none →
    s.severity.lookup r = f.overrides.lookup r
  limit : (last? limit? c.requests).join = none → s.maxDiagnostics = f.maxDiagnostics
  format : last? format? c.requests = none → s.format = f.format?
  shared : last? shared? c.requests = none → s.sharedConstants = f.sharedConstants.getD true

theorem mergedSelect (c : Caller) (f : ConfigFile) :
    (c.settings.merge f).select = (c.select.map Settings.ruleList).or f.selected? := by
  rw [Settings.merge, settings, (listsKept _ c.requests).1]
  rfl

theorem mergedIgnore (c : Caller) (f : ConfigFile) :
    (c.settings.merge f).ignore = c.ignore.elim [] Settings.ruleList ++ f.excluded := by
  rw [Settings.merge, settings, (listsKept _ c.requests).2]
  rfl

theorem mergedSeverity (c : Caller) (f : ConfigFile) (r : Rule) :
    (c.settings.merge f).severity.lookup r =
      (last? (severity? r) c.requests).or (f.overrides.lookup r) := by
  rw [Settings.merge, List.lookup_append, settingsSeverity]

theorem mergedLimit (c : Caller) (f : ConfigFile) :
    (c.settings.merge f).maxDiagnostics = (last? limit? c.requests).join.or f.maxDiagnostics := by
  rw [Settings.merge, settingsLimit]

theorem mergedFormat (c : Caller) (f : ConfigFile) :
    (c.settings.merge f).format = (last? format? c.requests).or f.format? := by
  rw [Settings.merge, settingsFormat]

theorem mergedShared (c : Caller) (f : ConfigFile) : (c.settings.merge f).sharedConstants =
    f.sharedConstants.getD ((last? shared? c.requests).getD true) := by
  rw [Settings.merge, settingsShared]

theorem mergeRespects (c : Caller) (f : ConfigFile) : c.Respected (c.settings.merge f) where
  select list given := by
    rw [mergedSelect, Option.mem_def.mp given]
    rfl
  ignore list given r member := by
    rw [mergedIgnore, Option.mem_def.mp given]
    exact List.mem_append_left _ member
  severity r v given := by
    rw [mergedSeverity, Option.mem_def.mp given]
    rfl
  limit n given := by
    rw [mergedLimit, given]
    rfl
  format w given := by
    rw [mergedFormat, Option.mem_def.mp given]
    rfl

theorem mergeCompletes (c : Caller) (f : ConfigFile) : c.Completed f (c.settings.merge f) where
  select unset := by
    rw [mergedSelect, unset]
    rfl
  ignore r := by
    rw [mergedIgnore, List.mem_append]
  severity r unset := by
    rw [mergedSeverity, unset]
    rfl
  limit unset := by
    rw [mergedLimit, unset]
    rfl
  format unset := by
    rw [mergedFormat, unset]
    rfl
  shared unset := by
    rw [mergedShared, unset]
    rfl

theorem fileCompletesCaller (c : Caller) (f : ConfigFile) :
    c.Respected (c.settings.merge f) ∧ c.Completed f (c.settings.merge f) ∧
    (∀ own ∈ f.sharedConstants, (c.settings.merge f).sharedConstants = own) ∧
    (c.SharingRespected (c.settings.merge f) ↔
      ∀ shared ∈ last? shared? c.requests, ∀ own ∈ f.sharedConstants, own = shared) := by
  have decided (own : Bool) (given : own ∈ f.sharedConstants) :
      (c.settings.merge f).sharedConstants = own := by
    rw [mergedShared, Option.mem_def.mp given]
    rfl
  refine ⟨c.mergeRespects f, c.mergeCompletes f, decided, ?_⟩
  constructor
  · intro respected shared asked own given
    rw [← decided own given, respected shared asked]
  · intro agree shared asked
    rw [mergedShared, Option.mem_def.mp asked]
    cases given : f.sharedConstants with
    | none => rfl
    | some own => exact agree shared asked own given

def strict : Caller :=
  ⟨some "CRT001", none, [.limit (some 50), .grade .badCondition .error, .share true]⟩

def contrary (shared : Option Bool) : ConfigFile where
  select := ["CRT002"]
  exclude := ["dup-arg"]
  severity := [("CRT001", "hint"), ("CRT005", "error")]
  sharedConstants := shared
  format := some "json"
  maxDiagnostics := some 5

theorem strictAgainstContrary :
    last? shared? strict.requests = some true ∧
    (strict.settings.merge (contrary none)).severity.lookup .badCondition = some .error ∧
    (strict.settings.merge (contrary none)).severity.lookup .simplify = some .error ∧
    (strict.settings.merge (contrary none)).maxDiagnostics = some 50 ∧
    (strict.settings.merge (contrary none)).format = some .json ∧
    (strict.settings.merge (contrary none)).sharedConstants = true := by
  obtain ⟨kept, completed, -, sharing⟩ := fileCompletesCaller strict (contrary none)
  have silent : ∀ shared ∈ last? shared? strict.requests, ∀ own ∈ (contrary none).sharedConstants,
      own = shared := by
    intro shared asked own given
    contradiction
  have graded : (contrary none).overrides.lookup .simplify = some .error := by decide +kernel
  have json : (contrary none).format? = some .json := by decide +kernel
  exact ⟨rfl, kept.severity .badCondition .error rfl, (completed.severity .simplify rfl).trans graded,
    kept.limit 50 rfl, (completed.format rfl).trans json, sharing.mpr silent true rfl⟩

theorem fileOverridesSharing :
    last? shared? strict.requests = some true ∧
    (strict.settings.merge (contrary (some false))).sharedConstants = false ∧
    ¬ strict.SharingRespected (strict.settings.merge (contrary (some false))) := by
  refine ⟨rfl, rfl, fun respected => ?_⟩
  have kept := respected true rfl
  contradiction

end Caller
end PhpLint
