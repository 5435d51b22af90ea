import PhpLint.Config.File
import PhpLint.Text.Basic

/-! The settings of a run: what the caller asked for, completed by a configuration file. -/
namespace PhpLint

structure Settings where
  select : Option (List Rule)
  ignore : List Rule
  severity : List (Rule × Severity)
  maxDiagnostics : Option Nat
  sharedConstants : Bool
  format : Option ReportFormat
  deriving DecidableEq, Repr

namespace Settings

def default : Settings := ⟨none, [], [], none, true, none⟩

def ruleList (list : String) : List Rule :=
  (Text.cut ',' list.toList).filterMap fun entry => Rule.parse? (String.ofList (Text.trim entry))

def ofLists (select ignore : Option String) : Settings :=
  { default with select := select.map ruleList, ignore := ignore.elim [] ruleList }

def withSeverity (s : Settings) (r : Rule) (v : Severity) : Settings :=
  { s with severity := (r, v) :: s.severity }

def withMaxDiagnostics (s : Settings) (max : Option Nat) : Settings :=
  { s with maxDiagnostics := max }

def withSharedConstants (s : Settings) (shared : Bool) : Settings :=
  { s with sharedConstants := shared }

def withFormat (s : Settings) (format : ReportFormat) : Settings :=
  { s with format := some format }

/-- Completes the settings from a configuration file. What is set already stays, except that the
file decides about shared constants when it mentions them; exclusions add up. -/
def merge (s : Settings) (f : ConfigFile) : Settings where
  select := s.select.or f.selected?
  ignore := s.ignore ++ f.excluded
  severity := s.severity ++ f.overrides
  maxDiagnostics := s.maxDiagnostics.or f.maxDiagnostics
  sharedConstants := f.sharedConstants.getD s.sharedConstants
  format := s.format.or f.format?

def ofFile (f : ConfigFile) : Settings := default.merge f

def selectsNothing (s : Settings) : Bool := s.select == some []

def enables (s : Settings) (r : Rule) : Bool :=
  !s.ignore.contains r && s.select.all (·.contains r)

def severityOf (s : Settings) (r : Rule) : Severity :=
  (s.severity.lookup r).getD r.defaultSeverity

def rules (s : Settings) : List Rule :=
  (Rule.all.filter s.enables).mergeSort fun a b => a.cost ≤ b.cost

end Settings
end PhpLint
