/-! TOML values, and how key-value lines and table headers build up tables. -/
namespace PhpLint

inductive TableOrigin where
  | braces
  | header
  | dotted
  | implied
  deriving DecidableEq, Repr

inductive Toml where
  | string (s : String)
  | integer (n : Int)
  | float (x : Float)
  | boolean (b : Bool)
  | datetime (text : String)
  | array (items : List Toml)
  | table (origin : TableOrigin) (entries : List (String × Toml))

namespace Toml

abbrev Entries := List (String × Toml)

def replace (key : String) (v : Toml) (entries : Entries) : Entries :=
  entries.map fun e => if e.1 = key then (key, v) else e

/-- Adds a value under a dotted key: `path` are the tables before the last segment `key`. A table
with a header or braces cannot be extended this way, and the innermost table has to be one that
dotted keys made. -/
def put (v : Toml) : (path : List String) → (key : String) → Entries → Option Entries
  | [], key, entries =>
    match entries.lookup key with
    | none => some (entries ++ [(key, v)])
    | some _ => none
  | p :: path, key, entries =>
    match entries.lookup p with
    | none => (put v path key []).map fun inner => entries ++ [(p, table .dotted inner)]
    | some (table .dotted inner) =>
      (put v path key inner).map fun inner => replace p (table .dotted inner) entries
    | some (table .implied inner) =>
      if path = [] then none
      else (put v path key inner).map fun inner => replace p (table .implied inner) entries
    | some _ => none

def openTable : (path : List String) → Entries → Option Entries
  | [], _ => none
  | [key], entries =>
    match entries.lookup key with
    | none => some (entries ++ [(key, table .header [])])
    | some (table .implied inner) => some (replace key (table .header inner) entries)
    | some _ => none
  | p :: path, entries =>
    match entries.lookup p with
    | none => (openTable path []).map fun inner => entries ++ [(p, table .implied inner)]
    | some (table .braces _) => none
    | some (table origin inner) =>
      (openTable path inner).map fun inner => replace p (table origin inner) entries
    | some _ => none

def within (change : Entries → Option Entries) : (path : List String) → Entries → Option Entries
  | [], entries => change entries
  | p :: path, entries =>
    match entries.lookup p with
    | some (table origin inner) =>
      (within change path inner).map fun inner => replace p (table origin inner) entries
    | _ => none

end Toml
end PhpLint
