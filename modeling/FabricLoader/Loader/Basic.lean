import FabricLoader.Block.Basic
import FabricLoader.Loader.Error
import FabricLoader.Loader.Settings
import FabricLoader.Sink.Host
import FabricLoader.Sink.Traced

/-! Loading images into a configuration block on a bus. Every attempt starts from a reset of the
whole bus with the fabric held still, so an image either ends up complete or the block stays held.
An attempt is repeated when an entry was refused; a refused control write is final, because the
configuration is already in place then. -/
namespace FabricLoader

/-- Devices of a session: configuration blocks and whatever else is mounted. -/
abbrev SessionBus (δ : Type) : Type := Bus (Block ⊕ δ)

/-- What stays the same throughout a session. -/
structure Loader where
  /-- The address of the block. -/
  base : UInt32
  /-- The depth of the block's chain. -/
  depth : Nat
  depth_pos : 0 < depth
  checker : Checker

namespace Loader
variable {δ : Type} [Peripheral δ]

/-- A loader and a bus with nothing but its block. There is an answer at every depth; where power-on
sets the chain aside, as `Block.new` tells, a depth that cannot be had ends the program instead. -/
def start (settings : Settings) : Job (Except LoadError (Loader × SessionBus δ)) :=
  if positive : 0 < settings.block.depth then do
    let block := Block.new settings.block.depth settings.block.failAt
    match ← Job.perform (Bus.mount settings.block.base (.inl block)) Bus.empty with
    | (.error cause, _) => return .error (.mapping cause)
    | (.ok (), bus) =>
      let checker := settings.widths.elim .standard Checker.mk
      return .ok (⟨settings.block.base, settings.block.depth, positive, checker⟩, bus)
  else return .error .noDepth

def tracedSink (loader : Loader) (name : String) (bus : SessionBus δ) :
    Traced (HostSink (Block ⊕ δ)) where
  inner := ⟨bus, loader.base⟩
  name := name
  count := 0

/-- One attempt after a reset: the image through the host registers, counting the writes. -/
def attempt (loader : Loader) (name : String) (image : Image) (applier : Applier) (number : Nat) :
    Action Event (SessionBus δ) (Except ApplyError ApplyReport) := do
  let (result, sink) ← (applier.apply image).around (fun bus => tracedSink loader name bus)
    fun sink => sink.inner.bus
  Action.log .debug s!"{name} attempt={number} writes={sink.count}"
  return result

/-- Attempts numbered from `number` on, until one succeeds, fails for good or has no further ones
left after it. -/
def attempts (loader : Loader) (name : String) (image : Image) (applier : Applier)
    (number left : Nat) : Action Event (SessionBus δ) (Except LoadError ApplyReport) := do
  Bus.reset
  match ← Bus.write (loader.base + Register.control.offset) Block.resetBit with
  | .error cause => return .error (.hold cause)
  | .ok () =>
    match ← attempt loader name image applier number with
    | .ok report =>
      Action.log .info
        s!"Loaded image={name} entries={report.entries} control={report.control}"
      return .ok report
    | .error (.entryWrite index cause) =>
      let e := ApplyError.entryWrite index cause
      match left with
      | 0 => return .error (.apply name number e)
      | left + 1 =>
        Action.log .warn (s!"{name} attempt {number}/{number + left + 1} failed: {e.message}. " ++
          "Restarting from entry 0")
        attempts loader name image applier (number + 1) left
    | .error e => return .error (.apply name number e)
termination_by structural left

/-- How often an image is tried at most; the number of attempts is itself a word. -/
def attemptLimit (retries : UInt32) : Nat := min (retries.toNat + 1) (UInt32.size - 1)

/-- Loads an image into the block, from the first entry each time. -/
def program (loader : Loader) (name : String) (image : Image) (applier : Applier)
    (retries : UInt32) : Action Event (SessionBus δ) (Except LoadError ApplyReport) :=
  loader.attempts name image applier 1 (attemptLimit retries - 1)

/-- The entry whose word should be the oldest of the chain, and its place. -/
def oldest (loader : Loader) (image : Image) : Nat × Entry :=
  let index := image.entries.length - loader.depth
  have bound : index < image.entries.length :=
    Nat.sub_lt image.size_pos loader.depth_pos
  (index, image.entries[index])

/-- Reads the oldest word of the chain back and compares it with the entry it should hold. -/
def verify (loader : Loader) (name : String) (image : Image) :
    Action Event (SessionBus δ) (Except LoadError Unit) := do
  let (index, expected) := loader.oldest image
  let address ← Bus.read (loader.base + Register.selector.offset)
  let value ← Bus.read (loader.base + Register.data.offset)
  if address = expected.address &&& Block.selectorMask ∧ value = expected.value then
    Action.log .debug s!"{name} readback ok entry={index}"
    return .ok ()
  return .error (.mismatch name ⟨index, ⟨address, value⟩, expected⟩)

def install (loader : Loader) (name : String) (image : Image) (request : ImageRequest) :
    Action Event (SessionBus δ) (Except LoadError ApplyReport) := do
  match ← loader.program name image (Applier.ofAddress? request.controlAddress) request.retries with
  | .error e => return .error e
  | .ok report =>
    if request.verify then
      return (← loader.verify name image).map fun _ => report
    return .ok report

/-- Reads, checks and loads a requested image. The bus is not touched before the table has passed
the check. -/
def load (loader : Loader) (request : ImageRequest) (bus : SessionBus δ) :
    Job (Except LoadError ApplyReport × SessionBus δ) := do
  match ← Table.load request.file with
  | .error cause => return (.error (.file cause), bus)
  | .ok table =>
    let table := { table with control := table.control <|> request.control }
    match loader.checker.checkTable table with
    | .error cause => return (.error (.image table.name cause), bus)
    | .ok image =>
      Job.emit (.line image.checkedLine) (pure ())
      Job.log .info (s!"Loading image={table.name} entries={image.size} width={image.width} " ++
        s!"control={Text.hexWordOrNone image.control}")
      Job.perform (loader.install table.name image request) bus

def loadAll (loader : Loader) : List ImageRequest → SessionBus δ →
    Job (Except LoadError Unit × SessionBus δ)
  | [], bus => return (.ok (), bus)
  | request :: requests, bus => do
    match ← loader.load request bus with
    | (.error e, bus) => return (.error e, bus)
    | (.ok _, bus) => loader.loadAll requests bus

def session (settings : Settings) : Job (Except LoadError Unit × Option (SessionBus δ)) := do
  match ← start settings with
  | .error e => return (.error e, none)
  | .ok (loader, bus) =>
    match ← loader.loadAll settings.images bus with
    | (.error e, bus) => return (.error e, some bus)
    | (.ok (), bus) =>
      Job.log .info s!"Loaded {settings.images.length} image(s)"
      return (.ok (), some bus)

end Loader
end FabricLoader
