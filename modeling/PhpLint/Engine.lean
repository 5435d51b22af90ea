import PhpLint.Config.Settings
import PhpLint.Constant.Table
import PhpLint.Rule.Check
import PhpLint.TreeJson.Decode
import PhpLint.Json.Reader

/-! A run over several units: collecting constants, checking each unit, and putting the findings in
order. -/
namespace PhpLint

def Diagnostic.order (a b : Diagnostic) : Ordering :=
  (Path.order a.file b.file).then
    ((compareOfLessAndEq a.range.start.line b.range.start.line).then
      ((compareOfLessAndEq a.range.start.col b.range.start.col).then
        (compareOfLessAndEq a.rule.number b.rule.number)))

namespace Settings

def checkUnit (s : Settings) (t : Constant.Table) (u : SourceUnit) : List Diagnostic :=
  (u.findings t s.rules).map fun d => { d with severity := s.severityOf d.rule }

def findings (s : Settings) (units : List SourceUnit) : List Diagnostic :=
  if s.sharedConstants then units.flatMap (s.checkUnit (Constant.collect units))
  else units.flatMap fun u => s.checkUnit (Constant.collect [u]) u

def check (s : Settings) (units : List SourceUnit) : List Diagnostic :=
  if s.selectsNothing then []
  else
    let sorted := (s.findings units).mergeSort fun a b => (a.order b).isLE
    s.maxDiagnostics.elim sorted sorted.take

def report (s : Settings) (ds : List Diagnostic) : String := Report.write ds (s.format.getD .text)

end Settings

inductive LoadError where
  | unreadable (path : String) (cause : ReadError)
  | malformed (path : String)
  deriving DecidableEq, Repr

def LoadError.message : LoadError → String
  | unreadable path cause => "I/O error reading " ++ path ++ ": " ++ cause.message
  | malformed path => "malformed syntax tree in " ++ path

namespace SourceUnit

def maxNesting : Nat := 127

def load (d : Disk) (path : String) : Except LoadError SourceUnit :=
  match d.read path with
  | .error e => .error (.unreadable path e)
  | .ok text =>
    match (Json.parse? maxNesting text).bind ofJson? with
    | some u => .ok u
    | none => .error (.malformed path)

def loadAll (d : Disk) (paths : List String) : Except LoadError (List SourceUnit) :=
  paths.mapM (load d)

end SourceUnit

def Settings.checkPaths (s : Settings) (d : Disk) (paths : List String) :
    Except LoadError (List Diagnostic) := do
  let units ← SourceUnit.loadAll d paths
  return s.check units

end PhpLint
