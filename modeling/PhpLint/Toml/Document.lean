import PhpLint.Toml.Scalar

/-! TOML documents: keys, arrays, tables in braces, and the lines of a document. Arrays of tables
are refused. -/
namespace PhpLint.Toml

def skipAll : (fuel : Nat) → List Char → List Char
  | 0, cs => cs
  | fuel + 1, cs =>
    match skipBlank cs with
    | '#' :: rest => skipAll fuel (skipComment ('#' :: rest))
    | cs => cs

def isBare (c : Char) : Bool := c.isAlphanum || c = '_' || c = '-'

def segment? (cs : List Char) : Option (String × List Char) :=
  match cs with
  | '"' :: rest => (basic? (rest.length + 1) rest).map fun (s, rest) => (String.ofList s, rest)
  | '\'' :: rest => (literal? rest).map fun (s, rest) => (String.ofList s, rest)
  | cs =>
    match cs.takeWhile isBare with
    | [] => none
    | name => some (String.ofList name, cs.dropWhile isBare)

def maxDepth : Nat := 79

def segments? : (fuel : Nat) → Reader (List String)
  | 0, _ => none
  | fuel + 1, cs => do
    let (s, cs) ← segment? (skipSpace cs)
    match skipSpace cs with
    | '.' :: cs => do
      let (ss, cs) ← segments? fuel cs
      some (s :: ss, cs)
    | cs => some ([s], cs)

def key? (cs : List Char) : Option (List String × List Char) :=
  (segments? (cs.length + 1) cs).filter fun (segments, _) => segments.length ≤ maxDepth

def assign (key : List String) (v : Toml) (entries : Entries) : Option Entries :=
  match key.getLast? with
  | some last => put v key.dropLast last entries
  | none => none

mutual

/-- One value. `room` is the number of brackets and braces that may be opened in it, and `fuel`
bounds the steps: twice the length of the text is enough. -/
def value? : (fuel room : Nat) → Reader Toml
  | 0, _, _ => none
  | _ + 1, 0, '[' :: _ | _ + 1, 0, '\x7b' :: _ => none
  | fuel + 1, room + 1, '[' :: cs => (items? fuel room cs).map fun (vs, cs) => (array vs, cs)
  | fuel + 1, room + 1, '\x7b' :: cs => do
    match skipSpace cs with
    | '\x7d' :: cs => some (table .braces [], cs)
    | cs => do
      let (entries, cs) ← pairs? fuel room [] cs
      some (table .braces entries, cs)
  | _ + 1, _, cs => scalarValue? cs

def items? : (fuel room : Nat) → Reader (List Toml)
  | 0, _, _ => none
  | fuel + 1, room, cs =>
    match skipAll cs.length cs with
    | ']' :: cs => some ([], cs)
    | cs => do
      let (v, cs) ← value? fuel room cs
      match skipAll cs.length cs with
      | ',' :: cs => do
        let (vs, cs) ← items? fuel room cs
        some (v :: vs, cs)
      | ']' :: cs => some ([v], cs)
      | _ => none

def pairs? : (fuel room : Nat) → Entries → Reader Entries
  | 0, _, _, _ => none
  | fuel + 1, room, entries, cs => do
    let (k, cs) ← key? cs
    let cs ← expect? '=' cs
    let (v, cs) ← value? fuel room (skipSpace cs)
    let entries ← assign k v entries
    match skipSpace cs with
    | ',' :: cs => pairs? fuel room entries cs
    | '\x7d' :: cs => some (entries, cs)
    | _ => none

end

inductive Line where
  | header (path : List String)
  | pair (key : List String) (v : Toml)

def lineEnd? (cs : List Char) : Option (List Char) :=
  match skipComment (skipSpace cs) with
  | [] => some []
  | cs => newline? cs

def line? (cs : List Char) : Option (Line × List Char) :=
  match cs with
  | '[' :: cs => do
    let (path, cs) ← key? cs
    let cs ← expect? ']' cs
    some (.header path, ← lineEnd? cs)
  | cs => do
    let (k, cs) ← key? cs
    let cs ← expect? '=' cs
    let cs := skipSpace cs
    let (v, cs) ← value? (2 * cs.length + 1) maxDepth cs
    some (.pair k v, ← lineEnd? cs)

def lines? : (fuel : Nat) → List Char → Option (List Line)
  | 0, _ => none
  | fuel + 1, cs =>
    match skipAll cs.length cs with
    | [] => some []
    | cs => do
      let (l, rest) ← line? cs
      let ls ← lines? fuel rest
      some (l :: ls)

def assemble : (header : List String) → Entries → List Line → Option Entries
  | _, entries, [] => some entries
  | _, entries, .header path :: ls => do
    let entries ← openTable path entries
    assemble path entries ls
  | header, entries, .pair k v :: ls => do
    let entries ← within (assign k v) header entries
    assemble header entries ls

def parse? (text : String) : Option Entries := do
  let cs := match text.toList with
    | '\uFEFF' :: cs => cs
    | cs => cs
  let ls ← lines? (cs.length + 1) cs
  assemble [] [] ls

end PhpLint.Toml
