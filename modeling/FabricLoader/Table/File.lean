import FabricLoader.Container.Basic
import FabricLoader.Job
import FabricLoader.Source.Table
import FabricLoader.Text.Utf8

/-! Whole files, and tables in files. The name of a file decides how its table is read: an extension
`c` or `h` means table source, anything else a container. -/
namespace FabricLoader

inductive TableError where
  | source (cause : SourceError)
  | container (cause : ContainerError)
  deriving DecidableEq, Repr

def TableError.message : TableError → String
  | source cause => cause.message
  | container cause => cause.message

inductive FileError where
  | opening (path : String) (cause : IoError)
  | reading (path : String) (cause : IoError)
  | notText (path : String) (cause : Text.Utf8.Fault)
  | writing (path : String) (cause : IoError)
  | table (path : String) (cause : TableError)
  deriving DecidableEq, Repr

def FileError.messages : FileError → List String
  | opening path cause => [s!"Failed to open {path}", cause.message]
  | reading path cause => [s!"Failed to read {path}", cause.message]
  | notText path cause => [s!"{path} is not valid UTF-8", cause.message]
  | writing path cause => [s!"Failed to write {path}", cause.message]
  | table path cause => [s!"Failed to parse {path}", cause.message]

def readBytes (path : String) : Job (Except FileError (List UInt8)) :=
  .openFile path fun
    | .ok (.ok content) => pure (.ok content)
    | .ok (.error cause) => pure (.error (.reading path cause))
    | .error cause => pure (.error (.opening path cause))

def readText (path : String) : Job (Except FileError String) := do
  match ← readBytes path with
  | .error e => return .error e
  | .ok bytes =>
    match Text.Utf8.decode bytes with
    | .ok text => return .ok text
    | .error cause => return .error (.notText path cause)

def writeBytes (path : String) (content : List UInt8) : Job (Except FileError Unit) :=
  .writeFile path content fun
    | .ok () => pure (.ok ())
    | .error cause => pure (.error (.writing path cause))

namespace Table

/-- The table in the content of the file under a path. A container takes its name from the file's
stem. -/
def ofBytes (path : String) (bytes : List UInt8) : Except TableError Table :=
  match Path.extension? path with
  | some "c" | some "h" => (Source.table (Text.Utf8.lenient bytes)).mapError .source
  | _ => (Container.decode ((Path.stem? path).getD "image") bytes).mapError .container

def load (path : String) : Job (Except FileError Table) := do
  match ← readBytes path with
  | .error e => return .error e
  | .ok bytes =>
    match ofBytes path bytes with
    | .error cause => return .error (.table path cause)
    | .ok table =>
      Job.log .debug (s!"Loaded table={table.name} from file={path} words={table.words.length} " ++
        s!"count={table.count} width={table.width}")
      return .ok table

end Table
end FabricLoader
