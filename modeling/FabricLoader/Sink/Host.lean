import FabricLoader.Block.Register
import FabricLoader.Bus.Basic

/-! A sink that drives a configuration block over the host bus: every entry is one write to the
selector register and one to the data register, the control write goes straight to its register. -/
namespace FabricLoader

structure HostSink (δ : Type) where
  bus : Bus δ
  base : UInt32

namespace HostSink
variable {δ : Type} [Peripheral δ]

def address? (base offset : UInt32) : Except WriteError UInt32 :=
  if base.toNat + offset.toNat < UInt32.size then .ok (base + offset)
  else .error (.outOfSpace offset base)

def busWrite (address value : UInt32) : Action Event (HostSink δ) (Except WriteError Unit) :=
  (Bus.write address value).onPart HostSink.bus fun bus sink => { sink with bus }

/-- Both addresses are known before the first write; the data follow only a selector that was
accepted. -/
def writeEntry (address value : UInt32) : Action Event (HostSink δ) (Except WriteError Unit) := do
  let sink ← Action.state
  match address? sink.base Register.selector.offset, address? sink.base Register.data.offset with
  | .error e, _ => return .error e
  | _, .error e => return .error e
  | .ok selector, .ok data =>
    match ← busWrite selector address with
    | .error e => return .error e
    | .ok () => busWrite data value

def writeControl (address value : UInt32) : Action Event (HostSink δ) (Except WriteError Unit) := do
  let sink ← Action.state
  match address? sink.base address with
  | .error e => return .error e
  | .ok register => busWrite register value

instance : RegisterSink (HostSink δ) where
  write := writeEntry
  writeControl := writeControl

end HostSink
end FabricLoader
