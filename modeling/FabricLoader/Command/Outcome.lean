import FabricLoader.Command.Arguments
import FabricLoader.Console

/-! A whole run of the program on the files of a system: what it prints, what it complains of, how it
exits and which files it leaves. -/
namespace FabricLoader

/-- A message with its causes under it, numbered if there are several. Lines of a cause after its
first are indented like it. -/
def complaint : List String → String
  | [] => "Error: \n"
  | [message] => s!"Error: {message}\n"
  | message :: causes =>
    let cause := fun (text : String) (i : Nat) =>
      let (first, further) :=
        if causes.length > 1 then (s!"{Text.decimal 5 i}: ", "\n       ") else ("    ", "\n    ")
      "\n" ++ first ++ further.intercalate (text.splitOn "\n")
    s!"Error: {message}\n\nCaused by:" ++
      String.join (causes.zipIdx.map fun (text, i) => cause text i) ++ "\n"

def usage : String :=
  "Validate, inspect and load configuration tables\n\n" ++
  "  check FILE...\n" ++
  "  dump FILE\n" ++
  "  plan FILE [--control-address ADDRESS]\n" ++
  "  pack FILE --output FILE\n" ++
  "  load SETTINGS\n\n" ++
  "Any command takes -v for more log lines and -vv for all of them.\n"

structure RunResult (φ : Type) where
  exit : UInt8
  stdout : String
  stderr : String
  store : φ

def runProgram {φ : Type} [FileSystem φ] (colour : Bool) (store : φ) (arguments : List String) :
    RunResult φ :=
  match Arguments.parse arguments with
  | .misuse => ⟨2, "", usage, store⟩
  | .help => ⟨0, usage, "", store⟩
  | .run threshold command =>
    let result := (command.run colour).run store
    let stdout := String.join ((Console.start.shown threshold result.events).map Shown.render)
    match result.value with
    | .ok () => ⟨0, stdout, "", result.store⟩
    | .error messages => ⟨1, stdout, complaint messages, result.store⟩

end FabricLoader
