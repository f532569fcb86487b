import FabricLoader.Bisect

/-! Ranges of addresses and what is mounted there. -/
namespace FabricLoader

/-- The addresses from `start` up to but not including `stop`, and what is mounted there. -/
structure Slot (δ : Type) where
  start : UInt32
  stop : UInt32
  device : δ
  deriving DecidableEq, Repr

namespace Slot
variable {δ : Type}

def covers (slot : Slot δ) (address : UInt32) : Bool := slot.start ≤ address && address < slot.stop

/-- In slots by increasing start, how many start below an address. -/
def countBelow (slots : List (Slot δ)) (address : UInt32) : Nat :=
  bisect (fun i => slots[i]?.any (·.start < address)) 0 slots.length

/-- In slots by increasing start, how many start at an address or below it. -/
def countUpTo (slots : List (Slot δ)) (address : UInt32) : Nat :=
  bisect (fun i => slots[i]?.any (·.start ≤ address)) 0 slots.length

/-- The place of the last slot that starts at an address or below it, provided that the slot reaches
that far. -/
def find? (slots : List (Slot δ)) (address : UInt32) : Option Nat :=
  match countUpTo slots address with
  | 0 => none
  | index + 1 => if slots[index]?.any (address < ·.stop) then some index else none

end Slot
end FabricLoader
