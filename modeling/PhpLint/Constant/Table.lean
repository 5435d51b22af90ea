import PhpLint.Literal
import PhpLint.Walk
import Std.Data.TreeMap

/-! The table of constant definitions. Its keys are canonical: one leading backslash, the namespace, and the
name. It holds defining expressions, never values, so a constant may be used before the statement that
defines it. It is filled from `const` statements and calls of `define`, in visiting order. -/
namespace PhpLint.Constant

def isSeparator (c : Char) : Bool := c == '\\'

def bareScope (scope : String) : String := String.ofList (Text.strip isSeparator scope.toList)

def qualify (scope name : String) : String :=
  let scope := Text.strip isSeparator scope.toList
  let name := name.toList.dropWhile isSeparator
  String.ofList ('\\' :: if scope = [] then name else scope ++ '\\' :: name)

def candidates (scope : String) (n : Name) : List String :=
  if n.rooted then [qualify "" n.joined]
  else if n.parts.length = 1 ∧ bareScope scope ≠ "" then
    [qualify scope n.joined, qualify "" n.joined]
  else [qualify scope n.joined]

structure Definition where
  expr : Expr
  scope : String
  deriving Repr

structure Table where
  entries : Std.TreeMap String Definition

namespace Table

def empty : Table := ⟨∅⟩

def size (t : Table) : Nat := t.entries.size

def define (t : Table) (name : String) (expr : Expr) (scope : String) : Table :=
  ⟨t.entries.insert (qualify "" name) ⟨expr, bareScope scope⟩⟩

def at? (t : Table) (key : String) : Option Definition := t.entries[key]?

def recorded? (t : Table) (name : String) : Option Definition := t.at? (qualify "" name)

/-- The definition of a name in a finished table: a name with a leading backslash is taken to be a
key already. -/
def get? (t : Table) (name : String) : Option Definition :=
  if name.toList.head? = some '\\' then t.at? name else t.recorded? name

theorem atDefine (t : Table) (name : String) (expr : Expr) (scope key : String) :
    (t.define name expr scope).at? key =
      if key = qualify "" name then some ⟨expr, bareScope scope⟩ else t.at? key := by
  simp only [define, at?, Std.TreeMap.getElem?_insert]
  by_cases h : key = qualify "" name
  · simp [h]
  · simp [h, Ne.symm h]

def resolve? (t : Table) (scope : String) (n : Name) : Option (String × Definition) :=
  (candidates scope n).findSome? fun key => (t.get? key).map (key, ·)

end Table

structure Event where
  key : String
  expr : Expr
  scope : String
  deriving Repr

def definedKey? (scope : String) : Expr → Option String
  -- a string names a global constant wherever the call stands
  | .string _ raw => do
    let bytes ← Literal.string? raw
    let text ← Utf8.decode? bytes
    some (qualify "" (String.ofList text))
  | .identifier _ text => some (qualify scope text)
  | .name _ n | .constant _ n => some (qualify (if n.rooted then "" else scope) n.joined)
  | _ => none

def ofCall? (scope : String) (e : Expr) : Option Event :=
  match e.callTo? "define" with
  | some (name :: value :: _) => do
    let name ← name.argumentValue?
    let value ← value.argumentValue?
    let key ← definedKey? scope name
    some ⟨key, value, scope⟩
  | _ => none

def eventsAt (v : Visit) : List Event :=
  match v.node with
  | .stmt (.const _ decls) => decls.map fun d => ⟨qualify v.scope d.name, d.value, v.scope⟩
  | .stmt _ => []
  | .expr e => (ofCall? v.scope e).toList

def events (u : SourceUnit) : List Event := u.visits.flatMap eventsAt

def Table.record (t : Table) (e : Event) : Table := t.define e.key e.expr e.scope

def Table.collect (t : Table) (u : SourceUnit) : Table := (events u).foldl Table.record t

def collect (units : List SourceUnit) : Table := units.foldl Table.collect Table.empty

end PhpLint.Constant
