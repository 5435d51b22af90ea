import PhpLint.Config.File

/-! Finding the configuration file of a project: the nearest one at or above a place, not beyond
the project's root. -/
namespace PhpLint.Discovery

def fileName : String := ".critic.toml"

def rootMarkers : List String := [".git", "composer.json"]

def search (isFile exists? : String → Bool) : (dirs : List String) → Option String
  | [] => none
  | dir :: dirs =>
    if isFile (Path.join dir fileName) then some (Path.join dir fileName)
    else if rootMarkers.any fun m => exists? (Path.join dir m) then none
    else search isFile exists? dirs

def directories (isFile : String → Bool) (start : String) : List String :=
  if isFile start then Path.parents start else Path.ancestors start

def find? (isFile exists? : String → Bool) (start : String) : Option String :=
  search isFile exists? (directories isFile start)

def load (d : Disk) (start : String) : Except ConfigError (Option (String × ConfigFile)) :=
  match find? d.isFile d.contains start with
  | none => .ok none
  | some path => (ConfigFile.load d path).map fun f => some (path, f)

end PhpLint.Discovery
