import FabricLoader.Text.Padded

/-! The registers of a configuration block. -/
namespace FabricLoader

inductive Register where
  | control
  | data
  | selector
  | comControl
  | shiftOut
  | shiftIn
  deriving DecidableEq, Repr

namespace Register

def all : List Register := [control, data, selector, comControl, shiftOut, shiftIn]

def offset : Register → UInt32
  | control => 0x00
  | data => 0x10
  | selector => 0x14
  | comControl => 0x18
  | shiftOut => 0x20
  | shiftIn => 0x24

def label : Register → String
  | control => "Ctrl"
  | data => "CfgData"
  | selector => "CfgAddr"
  | comControl => "ComCtrl"
  | shiftOut => "ShiftOut"
  | shiftIn => "ShiftIn"

def at? (offset : UInt32) : Option Register := all.find? fun r => r.offset == offset

@[simp] theorem at?_offset (r : Register) : at? r.offset = some r := by cases r <;> rfl

theorem offset_of_at? {offset : UInt32} {r : Register} (h : at? offset = some r) :
    r.offset = offset := by
  have := List.find?_some h
  simpa using this

/-- The register that a byte offset falls into, as log lines show it. -/
def describe (offset : UInt32) : String :=
  let aligned := offset - offset % 4
  let name := (at? aligned).elim "REG_????" label
  s!"{name} offset=0x{Text.hex 2 aligned.toNat}"

end Register
end FabricLoader
