import FabricLoader.Files.Path
import FabricLoader.Files.System

/-! A small store of files. Files lie under paths from a current directory; a directory exists
because a file lies somewhere in it, and nothing here makes or removes one. -/
namespace FabricLoader

/-- Files by the steps that lead to them. A path that leaves the current directory begins with
steps `..`, one that begins at the root with the step `/`. -/
structure FileStore where
  files : List (List String × List UInt8)
  deriving DecidableEq, Repr

namespace FileStore

inductive Place where
  | file (steps : List String) (content : List UInt8)
  | directory (steps : List String)
  /-- A free name in a directory. -/
  | free (steps : List String)
  deriving DecidableEq, Repr

def ofPaths (files : List (String × List UInt8)) : FileStore :=
  ⟨files.map fun (path, content) => (Path.steps path, content)⟩

def isDirectory (store : FileStore) (steps : List String) : Bool :=
  steps.all (· == "..") || steps == ["/"] ||
    store.files.any fun (path, _) => steps.isPrefixOf path && steps != path

def placeAt (store : FileStore) (steps : List String) : Place :=
  match store.files.find? (·.1 == steps) with
  | some (_, content) => .file steps content
  | none => if store.isDirectory steps then .directory steps else .free steps

def above (steps : List String) : List String :=
  match steps.getLast? with
  | none | some ".." => steps ++ [".."]
  | some "/" => steps
  | some _ => steps.dropLast

def follow (store : FileStore) : Place → List String → Except IoError Place
  | place, [] => .ok place
  | .directory dir, name :: names =>
    if name = ".." then store.follow (.directory (above dir)) names
    else if name.utf8ByteSize > 255 then .error .nameTooLong
    else store.follow (store.placeAt (dir ++ [name])) names
  | .file .., _ :: _ => .error .notDirectory
  | .free _, _ :: _ => .error .notFound

def start (path : String) : Place :=
  .directory (if path.toList.head? = some '/' then ["/"] else [])

/-- A path that the system can be asked about: not empty, not too long, and free of NUL. -/
def checkPath (path : String) : Except IoError Unit :=
  if path.toList.contains '\x00' then .error .nulInPath
  else if path.isEmpty then .error .notFound
  else if path.utf8ByteSize ≥ 4096 then .error .nameTooLong
  else .ok ()

/-- What a path leads to. A last name that stands for nothing asks for a directory. -/
def resolve (store : FileStore) (path : String) : Except IoError Place := do
  checkPath path
  let place ← store.follow (start path) (Path.steps path)
  match (Path.names path).getLast?, place with
  | some "", .file .. | some ".", .file .. => .error .notDirectory
  | some "", .free _ | some ".", .free _ => .error .notFound
  | _, place => .ok place

/-- A path opened for reading: the content of a file, or nothing for a directory, which opens but
cannot be read. -/
def openFile (store : FileStore) (path : String) : Except IoError (Option (List UInt8)) := do
  match ← store.resolve path with
  | .file _ content => .ok (some content)
  | .directory _ => .ok none
  | .free _ => .error .notFound

def put (store : FileStore) (steps : List String) (content : List UInt8) : FileStore :=
  if store.files.any (·.1 == steps) then
    ⟨store.files.map fun f => if f.1 == steps then (steps, content) else f⟩
  else ⟨store.files ++ [(steps, content)]⟩

/-- Whether a path ends in a slash after a name that leads somewhere. -/
def endsAfterName (path : String) : Bool :=
  match (Path.names path).reverse.dropWhile (· == "") with
  | [] => false
  | last :: _ => path.toList.getLast? = some '/' && last != "." && last != ".."

/-- Writes a whole file. A name with a slash after it is no file to write, whatever lies there, as
long as the way to it exists. -/
def write (store : FileStore) (path : String) (content : List UInt8) : Except IoError FileStore := do
  checkPath path
  if endsAfterName path then
    match ← store.follow (start path) (Path.steps path).dropLast with
    | .directory _ => .error .isDirectory
    | .file .. => .error .notDirectory
    | .free _ => .error .notFound
  else
    match ← store.resolve path with
    | .file steps _ | .free steps => .ok (store.put steps content)
    | .directory _ => .error .isDirectory

instance : FileSystem FileStore where
  openFile store path := (store.openFile path).map fun content => content.elim (.error .isDirectory) .ok
  writeFile store path content :=
    match store.write path content with
    | .ok written => (.ok (), written)
    | .error cause => (.error cause, store)

/-- Only a file can be read. -/
theorem read_eq_ok_iff {store : FileStore} {path : String} {content : List UInt8} :
    FileSystem.openFile store path = .ok (.ok content) ↔
      store.openFile path = .ok (some content) := by
  simp only [FileSystem.openFile]
  rcases store.openFile path with cause | (_ | found) <;> simp [Except.map]

end FileStore
end FabricLoader
