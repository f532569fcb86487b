import FabricLoader.Bus.Peripheral
import FabricLoader.Bus.Slot

/-! The host bus: devices mounted at disjoint ranges of addresses. Every access is logged and leaves
an access event; an address that no device claims reads as zero and refuses writes. -/
namespace FabricLoader

inductive MountError where
  /-- The end of the device, which is the address after its last one, would be no word. -/
  | outOfSpace (name : String) (base : UInt32)
  /-- Two devices, named by increasing address, would claim the same one. -/
  | overlap (lower upper : String)
  deriving DecidableEq, Repr

def MountError.message : MountError → String
  | outOfSpace name base =>
    s!"Peripheral {name} at base={Text.hexWord base} does not fit the address space"
  | overlap lower upper => s!"Overlapping register blocks between {lower} and {upper}"

/-- Mounted devices by increasing address. -/
structure Bus (δ : Type) where
  slots : List (Slot δ)

namespace Bus
variable {δ α : Type} [Peripheral δ]

def empty : Bus δ := ⟨[]⟩

/-- The reason why a slot may not join the others, if there is one. -/
def conflict? (slots : List (Slot δ)) (slot : Slot δ) : Option MountError :=
  let name := fun (s : Slot δ) => Peripheral.name s.device
  let index := Slot.countBelow slots slot.start
  let below := if index = 0 then none else slots[index - 1]?
  match below.filter (slot.start < ·.stop), slots[index]?.filter (·.start < slot.stop) with
  | some lower, _ => some (.overlap (name lower) (name slot))
  | none, some upper => some (.overlap (name slot) (name upper))
  | none, none => none

def mount (base : UInt32) (device : δ) : Action Event (Bus δ) (Except MountError Unit) := do
  let name := Peripheral.name device
  if base.toNat + (Peripheral.size device).toNat ≥ UInt32.size then
    return .error (.outOfSpace name base)
  Action.log .debug s!"Peripheral base={Text.hexWord base} name={name}"
  let slot : Slot δ := ⟨base, base + Peripheral.size device, device⟩
  let bus ← Action.state
  match conflict? bus.slots slot with
  | some e => return .error e
  | none =>
    Action.update fun bus => ⟨bus.slots.insertIdx (Slot.countBelow bus.slots base) slot⟩
    return .ok ()

/-- The slot in which an address lies, and its place. -/
def route? (bus : Bus δ) (address : UInt32) : Option (Nat × Slot δ) := do
  let index ← Slot.find? bus.slots address
  return (index, ← bus.slots[index]?)

def describe (bus : Bus δ) (address : UInt32) : String :=
  match bus.route? address with
  | some (_, slot) =>
    let register := Peripheral.registerName slot.device (address - slot.start)
    s!"addr={Text.hexWord address} block={Peripheral.name slot.device} reg={register}"
  | none => s!"addr={Text.hexWord address} block=????"

def onDevice (index : Nat) (slot : Slot δ) (action : Action LogLine δ α) : Action Event (Bus δ) α :=
  (action.mapEvents .line).onPart (fun _ => slot.device)
    fun device bus => ⟨bus.slots.set index { slot with device }⟩

def read (address : UInt32) : Action Event (Bus δ) UInt32 := do
  Action.emit (.access (.read address))
  let bus ← Action.state
  Action.log .trace s!"read:  {bus.describe address}"
  match bus.route? address with
  | some (index, slot) => onDevice index slot (Peripheral.read (address - slot.start))
  | none =>
    Action.log .warn s!"read of unmapped addr={Text.hexWord address}"
    return 0

/-- Writes a word to an address. The write counts as issued whatever becomes of it. -/
def write (address value : UInt32) : Action Event (Bus δ) (Except WriteError Unit) := do
  Action.emit (.access (.write address value))
  let bus ← Action.state
  Action.log .trace s!"write: {bus.describe address} value={Text.hexWord value}"
  match bus.route? address with
  | some (index, slot) => onDevice index slot (Peripheral.write (address - slot.start) value)
  | none =>
    Action.log .warn s!"write to unmapped addr={Text.hexWord address} value={Text.hexWord value}"
    return .error (.unmapped address)

def resetSlot : Action LogLine (Slot δ) Unit := do
  let slot ← Action.state
  Action.note .debug s!"{Peripheral.name slot.device} reset"
  Peripheral.reset.onPart Slot.device fun device slot => { slot with device }

def reset : Action Event (Bus δ) Unit := do
  Action.emit (.access .reset)
  (resetSlot.each.mapEvents .line).onPart Bus.slots fun slots _ => ⟨slots⟩

/-- Performs one access; only its effect on the devices is kept. -/
def access (bus : Bus δ) : Access → Bus δ
  | .reset => (reset bus).state
  | .read address => (read address bus).state
  | .write address value => (write address value bus).state

def replay (bus : Bus δ) (accesses : List Access) : Bus δ := accesses.foldl access bus

end Bus
end FabricLoader
