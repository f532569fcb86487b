import FabricLoader.Container.Basic
import FabricLoader.Loader.Basic
import FabricLoader.Loader.SettingsText
import FabricLoader.Sink.Recording

/-! The commands of the program. A command prints its answer as it goes; if it fails, it ends with the
messages of the failure, the outermost first. -/
namespace FabricLoader

inductive Command where
  /-- Checks tables, one after another. -/
  | check (files : List String)
  /-- Prints what a table holds. -/
  | dump (file : String)
  /-- Prints the writes that a load would issue. -/
  | plan (file : String) (controlAddress : Option UInt32)
  /-- Puts a table into a container. -/
  | pack (file output : String)
  /-- Loads the images that a settings file lists. -/
  | load (settings : String)
  deriving DecidableEq, Repr

abbrev Command.Result : Type := Except (List String) Unit

namespace Command

def printLine (text : String) : Job Unit := Job.print (text ++ "\n")

def printLines : List String → Job Unit
  | [] => pure ()
  | line :: lines => do
    printLine line
    printLines lines

def checkedImage (table : Table) : Job (Except ImageError Image) := do
  match Checker.standard.checkTable table with
  | .error e => return .error e
  | .ok image =>
    Job.emit (.line image.checkedLine) (pure ())
    return .ok image

/-- Loads and checks the table in a file. A failure to check is a message on its own, or comes after
one that names the table. -/
def loadImage (file : String) (named : Bool) : Job (Except (List String) (Table × Image)) := do
  match ← Table.load file with
  | .error e => return .error e.messages
  | .ok table =>
    match ← checkedImage table with
    | .ok image => return .ok (table, image)
    | .error e =>
      return .error (if named then [s!"Invalid image {table.name}", e.message] else [e.message])

inductive Colour where
  | green
  | red

def coloured (wanted : Bool) (colour : Colour) (text : String) : String :=
  if wanted then
    let code := match colour with | .green => "\x1b[32m" | .red => "\x1b[31m"
    "\x1b[0m\x1b[1m" ++ code ++ text ++ "\x1b[0m"
  else text

def verdict (colour : Bool) (file : String) : Except (List String) (Table × Image) → String
  | .ok (table, image) =>
    coloured colour .green "OK  " ++
      s!" {file} ({table.name}) entries={image.size} width={image.width}"
  | .error messages => coloured colour .red "FAIL" ++ s!" {file}: " ++ ": ".intercalate messages

def checkFiles (colour : Bool) : List String → Job Nat
  | [] => pure 0
  | file :: files => do
    let result ← loadImage file false
    printLine (verdict colour file result)
    let failed ← checkFiles colour files
    return (if result.isOk then 0 else 1) + failed

def runCheck (colour : Bool) (files : List String) : Job Result := do
  let failed ← checkFiles colour files
  if failed > 0 then
    return .error [s!"{failed} of {files.length} table(s) failed validation"]
  return .ok ()

def dumpLines (table : Table) (image : Image) : List String :=
  let pins := table.pins.getD "?"
  let source := table.source.elim [] fun source => [s!"source:  {source} ({pins})"]
  let entry := fun (e : Entry) (i : Nat) =>
    s!"  [{Text.decimal 3 i}] {Text.hexWord e.address} {Text.hexWord e.value}"
  [s!"name:    {table.name}"] ++ source ++
    [s!"entries: {image.size}", s!"width:   {image.width}",
      s!"control: {Text.hexWordOrNone image.control}"] ++
    image.entries.zipIdx.map fun (e, i) => entry e i

def runDump (file : String) : Job Result := do
  match ← loadImage file true with
  | .error messages => return .error messages
  | .ok (table, image) =>
    printLines (dumpLines table image)
    return .ok ()

def planLine (ordinal : Nat) : AcceptedWrite → String
  | .entry address value =>
    s!"{Text.decimal 3 ordinal} entry   {Text.hexWord address} <- {Text.hexWord value}"
  | .control address value =>
    s!"{Text.decimal 3 ordinal} control {Text.hexWord address} <- {Text.hexWord value}"

def runPlan (file : String) (controlAddress : Option UInt32) : Job Result := do
  match ← Table.load file with
  | .error e => return .error e.messages
  | .ok table =>
    let applier := Applier.ofAddress? controlAddress
    match ← Job.perform (applier.applyTable .standard table) (Recording.new none false) with
    | (.error failure, _) => return .error (s!"Failed to plan {table.name}" :: failure.messages)
    | (.ok _, sink) =>
      printLines (sink.writes.zipIdx.map fun (write, i) => planLine i write)
      return .ok ()

def runPack (file output : String) : Job Result := do
  match ← loadImage file true with
  | .error messages => return .error messages
  | .ok (table, _) =>
    let bytes := Container.encode table
    match ← writeBytes output bytes with
    | .error e => return .error e.messages
    | .ok () =>
      Job.log .info s!"Packed table={table.name} into file={output} bytes={bytes.length}"
      return .ok ()

def runLoad (path : String) : Job Result := do
  match ← readText path with
  | .error e => return .error e.messages
  | .ok text =>
    match Settings.ofText text with
    | .error e => return .error [s!"Failed to parse {path}", e.message]
    | .ok settings =>
      let (result, _) ← @Loader.session Empty _ settings
      return result.mapError LoadError.messages

def run (colour : Bool) : Command → Job Result
  | check files => runCheck colour files
  | dump file => runDump file
  | plan file controlAddress => runPlan file controlAddress
  | pack file output => runPack file output
  | load settings => runLoad settings

end Command
end FabricLoader
