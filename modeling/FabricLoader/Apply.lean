import FabricLoader.Image.Check
import FabricLoader.Sink.Basic

/-! Applying an image to a sink: the entries in order, then the control word if there is one. The
first failure ends it. A flag can cancel it between two writes, never during one. -/
namespace FabricLoader

inductive ApplyError where
  /-- The entry was refused; those before it were written. -/
  | entryWrite (index : Nat) (cause : WriteError)
  /-- Every entry was written, but the control word was refused. -/
  | controlWrite (entries : Nat) (cause : WriteError)
  /-- Stopped on request. -/
  | cancelled (completed : Nat)
  deriving DecidableEq, Repr

namespace ApplyError

def message : ApplyError → String
  | entryWrite index cause => s!"entry {index} failed: {cause.message}"
  | controlWrite entries cause =>
    s!"control register write failed after {entries} entries: {cause.message}"
  | cancelled completed => s!"cancelled after {completed} entries"

def messages : ApplyError → List String
  | entryWrite index cause => [(entryWrite index cause).message, cause.message]
  | controlWrite entries cause => [(controlWrite entries cause).message, cause.message]
  | cancelled completed => [(cancelled completed).message]

def completed : ApplyError → Nat
  | entryWrite index _ => index
  | controlWrite entries _ => entries
  | cancelled completed => completed

/-- Whether only the control write is known to be missing. -/
def bulkApplied : ApplyError → Bool
  | controlWrite .. => true
  | _ => false

end ApplyError

structure ApplyReport where
  entries : Nat
  control : Bool
  deriving DecidableEq, Repr

/-- Applies images, with the control word going to a fixed address. -/
structure Applier where
  controlAddress : UInt32
  deriving DecidableEq, Repr

namespace Applier
variable {σ : Type} [RegisterSink σ]

/-- The control register lies at the first address unless told otherwise. -/
def ofAddress? (address : Option UInt32) : Applier := ⟨address.getD 0⟩

/-- Writes entries in order, the first of them counting as entry `index`. Before each, the flag is
looked at; it may depend on that count and on the sink. -/
def stream (cancel : Nat → σ → Bool) (index : Nat) :
    List Entry → Action Event σ (Except ApplyError Unit)
  | [] => pure (.ok ())
  | e :: rest => do
    if cancel index (← Action.state) then
      Action.log .debug s!"apply cancelled completed={index}"
      return .error (.cancelled index)
    match ← RegisterSink.write e.address e.value with
    | .ok () => stream cancel (index + 1) rest
    | .error cause =>
      Action.log .debug
        s!"entry write failed index={index} address={Text.hexWord e.address}: {cause.message}"
      return .error (.entryWrite index cause)

def applyUntil (applier : Applier) (cancel : Nat → σ → Bool) (image : Image) :
    Action Event σ (Except ApplyError ApplyReport) := do
  match ← stream cancel 0 image.entries with
  | .error e => return .error e
  | .ok () =>
    match image.control with
    | none => return .ok ⟨image.size, false⟩
    | some value =>
      if cancel image.size (← Action.state) then
        Action.log .debug "apply cancelled before control write"
        return .error (.cancelled image.size)
      match ← RegisterSink.writeControl applier.controlAddress value with
      | .ok () => return .ok ⟨image.size, true⟩
      | .error cause => return .error (.controlWrite image.size cause)

def apply (applier : Applier) (image : Image) : Action Event σ (Except ApplyError ApplyReport) :=
  applier.applyUntil (fun _ _ => false) image

inductive TableFailure where
  | image (cause : ImageError)
  | apply (cause : ApplyError)
  deriving DecidableEq, Repr

def TableFailure.messages : TableFailure → List String
  | image cause => [cause.message]
  | apply cause => cause.messages

/-- Checks a table and applies its image; a table that fails the check reaches no sink. -/
def applyTable (applier : Applier) (checker : Checker) (table : Table) :
    Action Event σ (Except TableFailure ApplyReport) := do
  match checker.checkTable table with
  | .error cause => return .error (.image cause)
  | .ok image =>
    Action.emit (.line image.checkedLine)
    return (← applier.apply image).mapError .apply

end Applier
end FabricLoader
