import FabricLoader.Action
import FabricLoader.Text.Padded

/-! Where register writes go. -/
namespace FabricLoader

inductive WriteError where
  /-- The device refused the write. -/
  | rejected (address : UInt32)
  /-- No device claims the address. -/
  | unmapped (address : UInt32)
  /-- The offset leads past the last address. -/
  | outOfSpace (offset base : UInt32)
  /-- Any other failure on the way to the device, in the words of the sink. -/
  | bus (reason : String)
  deriving DecidableEq, Repr

def WriteError.message : WriteError → String
  | rejected address => s!"write to {Text.hexWord address} rejected by device"
  | unmapped address => s!"bus error: no peripheral at {Text.hexWord address}"
  | outOfSpace offset base =>
    s!"bus error: offset {Text.hexWord offset} past base {Text.hexWord base} leaves the address space"
  | bus reason => s!"bus error: {reason}"

/-- A state that takes register writes. The control write that ends a load may go another way than
the entries; where it does not, it is one more write. -/
class RegisterSink (σ : Type) where
  write (address value : UInt32) : Action Event σ (Except WriteError Unit)
  writeControl (address value : UInt32) : Action Event σ (Except WriteError Unit) := write address value

end FabricLoader
