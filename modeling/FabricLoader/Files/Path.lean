import FabricLoader.Text.Match

/-! File paths: names between slashes, of which the empty name and the single dot stand for
nothing. -/
namespace FabricLoader.Path

/-- The names of a path, as they are between its slashes. -/
def names (path : String) : List String := (Text.cutAt '/' path.toList).map String.ofList

/-- The names that lead somewhere. -/
def steps (path : String) : List String := (names path).filter fun n => n ≠ "" && n ≠ "."

/-- The last name of a path, unless it leads upwards. -/
def fileName? (path : String) : Option String :=
  match (steps path).getLast? with
  | some ".." => none
  | name => name

def cutAtLastDot? : List Char → Option (List Char × List Char)
  | [] => none
  | c :: name =>
    match cutAtLastDot? name with
    | some (before, after) => some (c :: before, after)
    | none => if c = '.' then some ([], name) else none

/-- The name in front of the last dot and the extension after it. A dot in front of everything
begins no extension. -/
def stemAndExtension (name : String) : String × Option String :=
  match cutAtLastDot? name.toList with
  | some (c :: before, after) => (String.ofList (c :: before), some (String.ofList after))
  | _ => (name, none)

def stem? (path : String) : Option String := (fileName? path).map fun name => (stemAndExtension name).1

def extension? (path : String) : Option String :=
  (fileName? path).bind fun name => (stemAndExtension name).2

end FabricLoader.Path
