import PhpLint.Text.Basic
import PhpLint.Text.Utf8

/-! A directory tree held in memory, and reading files from it. All paths are relative to its top; nothing is
known about what lies outside. Paths are texts with slashes, and two spellings of one path compare equal:
repeated and trailing slashes and inner dots do not count. -/
namespace PhpLint
namespace Path

inductive Component where
  | root
  | here
  | up
  | name (s : String)
  deriving DecidableEq, Repr

def pieces (path : String) : List (List Char) := Text.cut '/' path.toList

def isAbsolute (path : String) : Bool := path.toList.head? = some '/'

def component? (piece : List Char) (position : Nat) : Option Component :=
  if piece = [] then none
  else if piece = ['.'] then if position = 0 then some .here else none
  else if piece = ['.', '.'] then some .up
  else some (.name (String.ofList piece))

def components (path : String) : List Component :=
  (if isAbsolute path then [.root] else []) ++
    (pieces path).zipIdx.filterMap fun (piece, i) => component? piece i

def Component.order : Component → Component → Ordering
  | .root, .root => .eq
  | .root, _ => .lt
  | _, .root => .gt
  | .here, .here => .eq
  | .here, _ => .lt
  | _, .here => .gt
  | .up, .up => .eq
  | .up, _ => .lt
  | _, .up => .gt
  | .name a, .name b => compareOfLessAndEq a b

def orderLists : List Component → List Component → Ordering
  | [], [] => .eq
  | [], _ :: _ => .lt
  | _ :: _, [] => .gt
  | a :: as, b :: bs => (a.order b).then (orderLists as bs)

def order (a b : String) : Ordering := orderLists (components a) (components b)

def firstPieces (path : String) (n : Nat) : String :=
  String.intercalate "/" (((pieces path).take n).map String.ofList)

/-- The directories above a path, the nearest first: the texts that end with an earlier component,
and at last the root or the empty path. -/
def parents (path : String) : List String :=
  let ends := (pieces path).zipIdx.filterMap fun (piece, i) =>
    (component? piece i).map fun _ => i + 1
  match ends with
  | [] => []
  | ends => ends.dropLast.reverse.map (firstPieces path) ++ [if isAbsolute path then "/" else ""]

def ancestors (path : String) : List String := path :: parents path

def join (dir entry : String) : String :=
  if dir = "" then entry
  else if dir.toList.getLast? = some '/' then dir ++ entry
  else dir ++ "/" ++ entry

end Path

inductive DiskEntry where
  | directory
  | file (content : Bytes)
  deriving DecidableEq, Repr

inductive ReadError where
  | notFound
  | notDirectory
  | isDirectory
  | invalidText
  deriving DecidableEq, Repr

def ReadError.message : ReadError → String
  | notFound => "No such file or directory (os error 2)"
  | notDirectory => "Not a directory (os error 20)"
  | isDirectory => "Is a directory (os error 21)"
  | invalidText => "stream did not contain valid UTF-8"

structure Disk where
  entries : List (List String × DiskEntry)
  deriving Repr

namespace Disk

def empty : Disk := ⟨[]⟩

def at? (d : Disk) (names : List String) : Option DiskEntry :=
  if names = [] then some .directory else d.entries.lookup names

def namesOf (path : String) : List String :=
  (Path.components path).foldl (fun names c =>
    match c with
    | .name s => names ++ [s]
    | .up => names.dropLast
    | .root | .here => names) []

def addNames (d : Disk) (names : List String) : Disk :=
  (List.range names.length).foldl (fun d i =>
    let above := names.take (i + 1)
    if (d.at? above).isSome then d else ⟨(above, .directory) :: d.entries⟩) d

def addDirectory (d : Disk) (path : String) : Disk := d.addNames (namesOf path)

def addFile (d : Disk) (path : String) (content : Bytes) : Disk :=
  let names := namesOf path
  ⟨(names, .file content) :: (d.addNames names.dropLast).entries⟩

def steps (path : String) : List String :=
  let pieces := (Path.pieces path).map String.ofList
  let named := pieces.filter (· ≠ "")
  if pieces.getLast? = some "" then named ++ ["."] else named

/-- Follows steps from a place; `none` as a place is a directory outside the tree. Every step but
the first needs a directory to start from. -/
def follow (d : Disk) : (place : Option (List String)) → List String →
    Except ReadError (Option (List String))
  | place, [] => .ok place
  | none, s :: steps =>
    if s = "." ∨ s = ".." then follow d none steps else .error .notFound
  | some names, s :: steps =>
    match d.at? names with
    | none => .error .notFound
    | some (.file _) => .error .notDirectory
    | some .directory =>
      if s = "." then follow d (some names) steps
      else if s = ".." then
        follow d (if names = [] then none else some names.dropLast) steps
      else follow d (some (names ++ [s])) steps

def find (d : Disk) (path : String) : Except ReadError DiskEntry :=
  if path = "" then .error .notFound
  else
    match d.follow (if Path.isAbsolute path then none else some []) (steps path) with
    | .error e => .error e
    | .ok none => .ok .directory
    | .ok (some names) =>
      match d.at? names with
      | some entry => .ok entry
      | none => .error .notFound

def isFile (d : Disk) (path : String) : Bool :=
  match d.find path with
  | .ok (.file _) => true
  | _ => false

def contains (d : Disk) (path : String) : Bool := (d.find path).isOk

def read (d : Disk) (path : String) : Except ReadError String :=
  match d.find path with
  | .error e => .error e
  | .ok .directory => .error .isDirectory
  | .ok (.file content) =>
    match Utf8.decode? content with
    | some cs => .ok (String.ofList cs)
    | none => .error .invalidText

end Disk
end PhpLint
