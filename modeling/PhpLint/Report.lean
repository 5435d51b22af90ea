import PhpLint.Json.Basic
import PhpLint.Rule.Basic

/-! Reports: one line for each finding, or a JSON document with a summary. -/
namespace PhpLint

inductive ReportFormat where
  | text
  | json
  deriving DecidableEq, Repr

def ReportFormat.parse? (s : String) : Option ReportFormat :=
  if Text.sameWord "text" s then some .text
  else if Text.sameWord "json" s then some .json
  else none

namespace Report

def countSeverity (ds : List Diagnostic) (s : Severity) : Nat := ds.countP (·.severity = s)

def byRule (ds : List Diagnostic) : List (Rule × Nat) :=
  (Rule.all.map fun r => (r, ds.countP (·.rule = r))).filter fun e => e.2 ≠ 0

def summary (ds : List Diagnostic) : Json :=
  .obj [
    ("total", .ofNat ds.length),
    ("errors", .ofNat (countSeverity ds .error)),
    ("warnings", .ofNat (countSeverity ds .warning)),
    ("infos", .ofNat (countSeverity ds .info)),
    ("hints", .ofNat (countSeverity ds .hint)),
    ("by_rule", .obj ((byRule ds).map fun e => (e.1.code, .ofNat e.2)))]

def line (d : Diagnostic) : String :=
  d.file ++ ":" ++ toString d.range.start.line.toNat ++ ":" ++ toString d.range.start.col.toNat ++
    ": " ++ d.severity.text ++ "[" ++ d.rule.code ++ "] " ++ d.message ++ "\n"

def finding (d : Diagnostic) : Json :=
  .obj [
    ("code", .str d.rule.code),
    ("code_name", .str d.rule.name),
    ("message", .str d.message),
    ("severity", .str d.severity.text),
    ("file", .str d.file),
    ("location", .obj [
      ("start_line", .ofNat d.range.start.line.toNat),
      ("start_column", .ofNat d.range.start.col.toNat),
      ("end_line", .ofNat d.range.stop.line.toNat),
      ("end_column", .ofNat d.range.stop.col.toNat)])]

def document (ds : List Diagnostic) : Json :=
  .obj [
    ("version", .str "1"),
    ("diagnostics", .arr (ds.map finding)),
    ("summary", summary ds)]

def write (ds : List Diagnostic) : ReportFormat → String
  | .text => String.join (ds.map line)
  | .json => (document ds).pretty 0 ++ "\n"

end Report
end PhpLint
