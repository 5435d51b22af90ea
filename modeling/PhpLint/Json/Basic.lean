/-! JSON values, the access paths that decoders use, and JSON text on one line or indented by two spaces. Objects
keep every member in the order of the text, so a decoder can tell a repeated key from a single one. -/
namespace PhpLint

inductive Json where
  | null
  | bool (b : Bool)
  | int (n : Int)
  | real (literal : String)
  | str (s : String)
  | arr (items : List Json)
  | obj (members : List (String × Json))
  /-- A value that is well-formed as text but cannot be used: it is nested too deeply, or an
  escape in it names half of a surrogate pair. It does no harm in a place that nobody reads. -/
  | broken
  deriving Inhabited, Repr

namespace Json

def ofNat (n : Nat) : Json := int n

def ofStrings (ss : List String) : Json := arr (ss.map str)

def ofOption (f : α → Json) : Option α → Json
  | none => null
  | some a => f a

def str? : Json → Option String
  | str s => some s
  | _ => none

def bool? : Json → Option Bool
  | bool b => some b
  | _ => none

def word? : Json → Option UInt32
  | int n => if 0 ≤ n ∧ n < 0x100000000 then some (UInt32.ofNat n.toNat) else none
  | _ => none

def Part (whole : Json) : Type := { part : Json // sizeOf part < sizeOf whole }

def Part.value {whole : Json} (part : Part whole) : Json := part.1

def items? : (j : Json) → Option { items : List Json // sizeOf items < sizeOf j }
  | arr items => some ⟨items, by simp⟩
  | _ => none

def pair? : (j : Json) → Option (Part j × Part j)
  | arr [a, b] => some (⟨a, by simp; omega⟩, ⟨b, by simp; omega⟩)
  | _ => none

def triple? : (j : Json) → Option (Part j × Part j × Part j)
  | arr [a, b, c] => some (⟨a, by simp; omega⟩, ⟨b, by simp; omega⟩, ⟨c, by simp; omega⟩)
  | _ => none

structure Record (whole : Json) where
  fields : List (String × Part whole)

namespace Record

variable {whole : Json}

def ofValues (values : List (String × Json)) (inside : ∀ field ∈ values, sizeOf field.2 < sizeOf whole) :
    Record whole :=
  ⟨values.attach.map fun field => (field.1.1, ⟨field.1.2, inside field.1 field.2⟩)⟩

def values (record : Record whole) : List (String × Json) :=
  record.fields.map fun field => (field.1, field.2.value)

theorem valuesOfValues {fields : List (String × Json)}
    (inside : ∀ field ∈ fields, sizeOf field.2 < sizeOf whole) : (ofValues fields inside).values = fields := by
  rw [values, ofValues, List.map_map]
  exact List.attach_map_subtype_val fields

def member? (key : String) (record : Record whole) : Option (Option (Part whole)) :=
  match record.fields.filter (·.1 = key) with
  | [] => some none
  | [field] => some (some field.2)
  | _ => none

def required? (key : String) (record : Record whole) : Option (Part whole) := (record.member? key).bind id

def optional? (key : String) (record : Record whole) : Option (Option (Part whole)) :=
  (record.member? key).map fun m => m.filter fun v => !(v.1 matches null)

end Record

theorem membersInside {members : List (String × Json)} :
    ∀ field ∈ members, sizeOf field.2 < sizeOf (obj members) := by
  rintro ⟨key, v⟩ member
  have inside := List.sizeOf_lt_of_mem member
  simp only [Prod.mk.sizeOf_spec] at inside
  simp only [obj.sizeOf_spec]
  omega

theorem itemsInside {names : List String} {items : List Json} :
    ∀ field ∈ names.zip items, sizeOf field.2 < sizeOf (arr items) := by
  rintro ⟨key, v⟩ member
  have inside := List.sizeOf_lt_of_mem (List.of_mem_zip member).2
  simp only [arr.sizeOf_spec]
  omega

def ofMembers (members : List (String × Json)) : Record (obj members) := .ofValues members membersInside

/-- The fields of a record by name. As an array, a record gives its fields in their order, each of them but
for some with a default at its end. -/
def record? (fields defaulted : List String) : (j : Json) → Option (Record j)
  | obj members => some (ofMembers members)
  | arr items =>
    if fields.length ≤ items.length ∧ items.length ≤ (fields ++ defaulted).length then
      some (.ofValues ((fields ++ defaulted).zip items) itemsInside)
    else none
  | _ => none

@[simp] theorem recordObject (fields defaulted : List String) (members : List (String × Json)) :
    record? fields defaulted (obj members) = some (ofMembers members) := rfl

def case? : (j : Json) → Option (String × Option (Part j))
  | str name => some (name, none)
  | obj [(name, v)] => some (name, some ⟨v, by simp; omega⟩)
  | _ => none

def bareCase? (j : Json) : Option String :=
  (case? j).bind fun c =>
    match c.2 with
    | none => some c.1
    | some v => if v.1 matches null then some c.1 else none

def escapeChar (c : Char) : List Char :=
  match c with
  | '"' => ['\\', '"']
  | '\\' => ['\\', '\\']
  | '\x08' => ['\\', 'b']
  | '\t' => ['\\', 't']
  | '\n' => ['\\', 'n']
  | '\x0c' => ['\\', 'f']
  | '\r' => ['\\', 'r']
  | c =>
    if c.toNat < 0x20 then
      ['\\', 'u', '0', '0', Nat.digitChar (c.toNat / 16), Nat.digitChar (c.toNat % 16)]
    else [c]

def quoted (s : String) : String :=
  String.ofList ('"' :: s.toList.flatMap escapeChar ++ ['"'])

mutual

def compact : Json → String
  | null | broken => "null"
  | bool b => if b then "true" else "false"
  | int n => toString n
  | real literal => literal
  | str s => quoted s
  | arr items => "[" ++ String.intercalate "," (compactItems items) ++ "]"
  | obj members => "\x7b" ++ String.intercalate "," (compactMembers members) ++ "\x7d"

def compactItems : List Json → List String
  | [] => []
  | j :: js => j.compact :: compactItems js

def compactMembers : List (String × Json) → List String
  | [] => []
  | (key, j) :: ms => (quoted key ++ ":" ++ j.compact) :: compactMembers ms

end

def newline (depth : Nat) : String := String.ofList ('\n' :: List.replicate (2 * depth) ' ')

def bracketed (opening closing : String) (depth : Nat) (entries : List String) : String :=
  if entries.isEmpty then opening ++ closing
  else opening ++ newline (depth + 1) ++ String.intercalate ("," ++ newline (depth + 1)) entries
    ++ newline depth ++ closing

mutual

def pretty (depth : Nat) : Json → String
  | arr items => bracketed "[" "]" depth (prettyItems (depth + 1) items)
  | obj members => bracketed "\x7b" "\x7d" depth (prettyMembers (depth + 1) members)
  | null | broken => "null"
  | bool b => if b then "true" else "false"
  | int n => toString n
  | real literal => literal
  | str s => quoted s

def prettyItems (depth : Nat) : List Json → List String
  | [] => []
  | j :: js => j.pretty depth :: prettyItems depth js

def prettyMembers (depth : Nat) : List (String × Json) → List String
  | [] => []
  | (key, j) :: ms => (quoted key ++ ": " ++ j.pretty depth) :: prettyMembers depth ms

end

end Json
end PhpLint
