import PhpLint.Disk
import PhpLint.Json.Basic
import PhpLint.Report
import PhpLint.Toml.Document

/-! The configuration file: which rules run, how severe their findings are, and how they are
reported. Unknown keys are errors. -/
namespace PhpLint

structure ConfigFile where
  select : List String
  exclude : List String
  severity : List (String × String)
  sharedConstants : Option Bool
  format : Option String
  maxDiagnostics : Option Nat
  deriving DecidableEq, Repr

inductive ConfigError where
  | unreadable (path : String) (cause : ReadError)
  | malformed
  | unknownRule (rule : String)
  | unknownSeverity (rule severity : String)
  | unknownFormat (format : String)
  | zeroLimit
  deriving DecidableEq, Repr

def ConfigError.message : ConfigError → String
  | unreadable path cause => "failed to read " ++ path ++ ": " ++ cause.message
  | malformed => "malformed configuration file"
  | unknownRule rule =>
    "unknown rule code '" ++ rule ++ "' in config (valid: CRT001..CRT008 or a rule name)"
  | unknownSeverity rule severity =>
    "invalid severity '" ++ severity ++ "' for rule " ++ rule ++
      " (valid: error, warning, info, hint)"
  | unknownFormat format => "invalid output format '" ++ format ++ "' (valid: text, json)"
  | zeroLimit => "max_diagnostics must be >= 1"

namespace ConfigFile

def empty : ConfigFile := ⟨[], [], [], none, none, none⟩

def toString? : Toml → Option String
  | .string s => some s
  | _ => none

def toBool? : Toml → Option Bool
  | .boolean b => some b
  | _ => none

def toNat? : Toml → Option Nat
  | .integer n => if 0 ≤ n then some n.toNat else none
  | _ => none

def toStrings? : Toml → Option (List String)
  | .array items => items.mapM toString?
  | _ => none

def toTexts? : Toml → Option (List (String × String))
  | .table _ entries => entries.mapM fun e => (toString? e.2).map (e.1, ·)
  | .datetime text => some [("$__toml_private_datetime", text)]
  | _ => none

/-- The fields of a section by name. A section may also be an array that gives its fields in their
order, with missing ones at the end and superfluous ones ignored; in a table every key has to be
the name of a field. -/
def fields? (names : List String) : Toml → Option Toml.Entries
  | .table _ entries => if entries.all (·.1 ∈ names) then some entries else none
  | .array items => some (names.zip items)
  | _ => none

def field? (read : Toml → Option α) (default : α) (name : String) (entries : Toml.Entries) :
    Option α :=
  match entries.lookup name with
  | none => some default
  | some v => read v

def section? (names : List String) (name : String) (entries : Toml.Entries) :
    Option Toml.Entries :=
  field? (fields? names) [] name entries

def ofEntries? (entries : Toml.Entries) : Option ConfigFile := do
  let entries ← fields? ["rules", "analysis", "output"] (.table .header entries)
  let rules ← section? ["select", "exclude", "severity"] "rules" entries
  let analysis ← section? ["shared_constants"] "analysis" entries
  let output ← section? ["format", "max_diagnostics"] "output" entries
  some {
    select := ← field? toStrings? [] "select" rules
    exclude := ← field? toStrings? [] "exclude" rules
    severity := ← field? toTexts? [] "severity" rules
    sharedConstants := ← field? (fun v => (toBool? v).map some) none "shared_constants" analysis
    format := ← field? (fun v => (toString? v).map some) none "format" output
    maxDiagnostics := ← field? (fun v => (toNat? v).map some) none "max_diagnostics" output }

def parse (text : String) : Except ConfigError ConfigFile :=
  match (Toml.parse? text).bind ofEntries? with
  | some f => .ok f
  | none => .error .malformed

def firstUnknown? (rules : List String) : Option String :=
  rules.find? fun r => (Rule.parse? r).isNone

def entryError? (e : String × String) : Option ConfigError :=
  if (Rule.parse? e.1).isNone then some (.unknownRule e.1)
  else if (Severity.parse? e.2).isNone then some (.unknownSeverity e.1 e.2)
  else none

def validate (f : ConfigFile) : Except ConfigError Unit :=
  match firstUnknown? (f.select ++ f.exclude) with
  | some r => .error (.unknownRule r)
  | none =>
    match f.severity.findSome? entryError? with
    | some e => .error e
    | none =>
      match f.format.filter fun s => (ReportFormat.parse? s).isNone with
      | some s => .error (.unknownFormat s)
      | none => if f.maxDiagnostics = some 0 then .error .zeroLimit else .ok ()

def check (text : String) : Except ConfigError ConfigFile := do
  let f ← parse text
  f.validate
  return f

def load (d : Disk) (path : String) : Except ConfigError ConfigFile :=
  match d.read path with
  | .error e => .error (.unreadable path e)
  | .ok text => check text

def selected? (f : ConfigFile) : Option (List Rule) :=
  if f.select = [] then none else some (f.select.filterMap Rule.parse?)

def excluded (f : ConfigFile) : List Rule := f.exclude.filterMap Rule.parse?

def overrides (f : ConfigFile) : List (Rule × Severity) :=
  f.severity.filterMap fun e => do
    let r ← Rule.parse? e.1
    let s ← Severity.parse? e.2
    some (r, s)

def format? (f : ConfigFile) : Option ReportFormat := f.format.bind ReportFormat.parse?

def toJson (f : ConfigFile) : Json :=
  .obj [
    ("rules", .obj [
      ("select", .ofStrings f.select),
      ("exclude", .ofStrings f.exclude),
      ("severity", .obj (f.severity.map fun e => (e.1, .str e.2)))]),
    ("analysis", .obj [("shared_constants", .ofOption .bool f.sharedConstants)]),
    ("output", .obj [
      ("format", .ofOption .str f.format),
      ("max_diagnostics", .ofOption .ofNat f.maxDiagnostics)])]

end ConfigFile
end PhpLint
