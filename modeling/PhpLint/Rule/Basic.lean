import PhpLint.Text.Basic
import PhpLint.Tree.Basic

/-! The rules: their codes, names, descriptions and default severities, and the findings that they
produce. -/
namespace PhpLint

inductive Severity where
  | error
  | warning
  | info
  | hint
  deriving DecidableEq, Repr

namespace Severity

def all : List Severity := [error, warning, info, hint]

def text : Severity → String
  | error => "error"
  | warning => "warning"
  | info => "info"
  | hint => "hint"

def parse? (s : String) : Option Severity := all.find? fun v => Text.sameWord v.text s

end Severity

inductive Rule where
  | badCondition
  | duplicateOperand
  | duplicateArgument
  | duplicateBody
  | simplify
  | badCall
  | sloppyArgument
  | argumentOrder
  deriving DecidableEq, Repr

namespace Rule

def all : List Rule :=
  [badCondition, duplicateOperand, duplicateArgument, duplicateBody, simplify, badCall,
   sloppyArgument, argumentOrder]

def number : Rule → Nat
  | badCondition => 1
  | duplicateOperand => 2
  | duplicateArgument => 3
  | duplicateBody => 4
  | simplify => 5
  | badCall => 6
  | sloppyArgument => 7
  | argumentOrder => 8

def code : Rule → String
  | badCondition => "CRT001"
  | duplicateOperand => "CRT002"
  | duplicateArgument => "CRT003"
  | duplicateBody => "CRT004"
  | simplify => "CRT005"
  | badCall => "CRT006"
  | sloppyArgument => "CRT007"
  | argumentOrder => "CRT008"

def name : Rule → String
  | badCondition => "bad-cond"
  | duplicateOperand => "dup-sub-expr"
  | duplicateArgument => "dup-arg"
  | duplicateBody => "dup-branch-body"
  | simplify => "simplify"
  | badCall => "bad-call"
  | sloppyArgument => "sloppy-arg"
  | argumentOrder => "arg-order"

def description : Rule → String
  | badCondition =>
    "Reports conditions whose value is known statically: comparisons, logical operators, " ++
    "do-while conditions and switch case labels that fold to a constant boolean, plus " ++
    "contradictory range and equality tests on the same operand."
  | duplicateOperand =>
    "Reports binary operators such as `-`, `/`, `==` and `<` whose two operands are provably " ++
    "the same expression. The result is constant and usually points at a copy-paste mistake."
  | duplicateArgument =>
    "Reports calls to strpos, strncmp, strcmp, min, max and str_replace that pass the same " ++
    "expression as the first and second argument."
  | duplicateBody =>
    "Reports if/elseif/else chains in which two branches have structurally identical bodies."
  | simplify =>
    "Suggests comparing strings directly instead of comparing the result of strcmp with zero."
  | badCall =>
    "Reports strncmp calls whose length argument differs from the length of the literal string " ++
    "being compared."
  | sloppyArgument =>
    "Reports define calls that pass the case_insensitive argument, which is deprecated and " ++
    "ignored by current runtimes."
  | argumentOrder =>
    "Reports strpos calls whose first argument is a string literal and whose second is not: the " ++
    "haystack and needle are likely swapped."

def defaultSeverity : Rule → Severity
  | simplify => .info
  | _ => .warning

def cost : Rule → Nat
  | duplicateOperand | duplicateArgument | sloppyArgument | argumentOrder => 0
  | badCondition | simplify | badCall => 1
  | duplicateBody => 2

def ofCode? (s : String) : Option Rule := all.find? fun r => Text.sameWord r.code s

def ofName? (s : String) : Option Rule := all.find? fun r => Text.sameWord r.name s

def parse? (s : String) : Option Rule := (ofCode? s).or (ofName? s)

theorem memAll (r : Rule) : r ∈ all := by cases r <;> decide

end Rule

structure Diagnostic where
  rule : Rule
  severity : Severity
  file : String
  range : Range
  message : String
  deriving DecidableEq, Repr

def Diagnostic.ofRule (rule : Rule) (file : String) (range : Range) (message : String) :
    Diagnostic :=
  ⟨rule, rule.defaultSeverity, file, range, message⟩

end PhpLint
