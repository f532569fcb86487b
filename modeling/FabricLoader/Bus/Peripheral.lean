import FabricLoader.Sink.Basic

/-! Devices on the host bus. -/
namespace FabricLoader

/-- A device with word-wide registers at offsets from wherever it is mounted. -/
class Peripheral (δ : Type) where
  name : δ → String
  /-- Bytes of register space claimed. -/
  size : δ → UInt32
  registerName : δ → UInt32 → String
  read (offset : UInt32) : Action LogLine δ UInt32
  write (offset value : UInt32) : Action LogLine δ (Except WriteError Unit)
  reset : Action LogLine δ Unit

namespace Peripheral
variable {δ ε : Type}

def choose {α : Type} (left : Action LogLine δ α) (right : Action LogLine ε α) :
    Action LogLine (δ ⊕ ε) α
  | .inl device =>
    let a := left device
    ⟨a.value, .inl a.state, a.events⟩
  | .inr device =>
    let a := right device
    ⟨a.value, .inr a.state, a.events⟩

instance [Peripheral δ] [Peripheral ε] : Peripheral (δ ⊕ ε) where
  name := Sum.elim name name
  size := Sum.elim size size
  registerName := Sum.elim registerName registerName
  read offset := choose (read offset) (read offset)
  write offset value := choose (write offset value) (write offset value)
  reset := choose reset reset

instance : Peripheral Empty where
  name := nofun
  size := nofun
  registerName := nofun
  read _ := nofun
  write _ _ := nofun
  reset := nofun

end Peripheral
end FabricLoader
