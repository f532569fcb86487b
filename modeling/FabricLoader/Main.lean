import FabricLoader.Command.Outcome

/-! The program itself: jobs carried out on the real system, one request after another. -/
namespace FabricLoader

def systemRefusal? : IO.Error → Option (UInt32 × String)
  | .noFileOrDirectory _ code details | .inappropriateType _ code details
  | .invalidArgument _ code details | .permissionDenied _ code details
  | .resourceExhausted _ code details | .alreadyExists _ code details
  | .noSuchThing _ code details | .interrupted _ code details
  | .otherError code details | .resourceBusy code details | .resourceVanished code details
  | .unsupportedOperation code details | .hardwareFault code details
  | .unsatisfiedConstraints code details | .illegalOperation code details
  | .protocolError code details | .timeExpired code details => some (code, details)
  | .unexpectedEof | .userError _ => none

def IoError.ofSystem (e : IO.Error) : IoError :=
  match systemRefusal? e with
  | some (2, _) => .notFound
  | some (20, _) => .notDirectory
  | some (21, _) => .isDirectory
  | some (36, _) => .nameTooLong
  | some (code, details) => .other s!"{details} (os error {code})"
  | none => .other (toString e)

def readSystemFile (file : IO.FS.Handle) : IO (Except IoError (List UInt8)) := do
  try
    return .ok (← file.readBinToEnd).toList
  catch e => return .error (.ofSystem e)

def openSystemFile (path : String) : IO (Except IoError (Except IoError (List UInt8))) := do
  match FileStore.checkPath path with
  | .error refusal => return .error refusal
  | .ok () =>
    try
      return .ok (← readSystemFile (← IO.FS.Handle.mk path .read))
    catch e => return .error (.ofSystem e)

def writeSystemFile (path : String) (content : List UInt8) : IO (Except IoError Unit) := do
  match FileStore.checkPath path with
  | .error refusal => return .error refusal
  | .ok () =>
    try
      IO.FS.writeBinFile path (ByteArray.mk content.toArray)
      return .ok ()
    catch e => return .error (.ofSystem e)

/-- Carries a job out and shows its events as they happen. -/
def Job.carryOut {α : Type} (threshold : Level) : Job α → Console → IO α
  | .done value, _ => return value
  | .emit event next, console => do
    let (console, shown) := console.step threshold event
    if let some shown := shown then
      (← IO.getStdout).putStr shown.render
    next.carryOut threshold console
  | .openFile path next, console => do
    (next (← openSystemFile path)).carryOut threshold console
  | .writeFile path content next, console => do
    (next (← writeSystemFile path content)).carryOut threshold console

def wantsColour : IO Bool := do
  let terminal ← IO.getEnv "TERM"
  return terminal.any (· != "dumb") && (← IO.getEnv "NO_COLOR").isNone

end FabricLoader

open FabricLoader in
def main (arguments : List String) : IO UInt32 := do
  match Arguments.parse arguments with
  | .misuse =>
    (← IO.getStderr).putStr usage
    return 2
  | .help =>
    (← IO.getStdout).putStr usage
    return 0
  | .run threshold command =>
    match ← (command.run (← wantsColour)).carryOut threshold .start with
    | .ok () => return 0
    | .error messages =>
      (← IO.getStderr).putStr (complaint messages)
      return 1
