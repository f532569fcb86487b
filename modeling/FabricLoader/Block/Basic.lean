import FabricLoader.Block.Register
import FabricLoader.Bus.Peripheral

/-! A configuration block: a chain of configuration words of fixed depth behind a pair of registers,
and a control register whose reset bit holds the fabric still. A word is pushed by writing its data;
its selector is whatever was last written to the selector register. Once the chain is full, the
oldest word falls out. Reading gives the oldest word. -/
namespace FabricLoader

structure ConfigWord where
  selector : UInt32
  data : UInt32
  deriving DecidableEq, Repr

structure Block where
  /-- Words that the chain holds; a depth of zero counts as one. -/
  depth : Nat
  /-- The data write to refuse, once, by its zero-based ordinal since construction. -/
  failAt : Option UInt32
  control : UInt32
  /-- The selector that goes with the next data write. -/
  selector : UInt32
  /-- The chain, oldest word first. -/
  chain : List ConfigWord
  comControl : UInt32
  shiftOut : UInt32
  shiftIn : UInt32
  /-- Data writes received since construction, whatever became of them. -/
  received : Nat
  /-- Whether a data write has been refused. -/
  failed : Bool
  deriving DecidableEq, Repr

namespace Block

/-- A block after power-on. Its chain grows word by word, so there is a block of any depth. A device
that sets its whole chain aside at power-on, at eight bytes a word, cannot be built at a depth of 2 to
the 60 or more: the chain would take more bytes than can be addressed, and the program dies there. -/
def new (depth : Nat) (failAt : Option UInt32) : Block :=
  ⟨depth, failAt, 0, 0, [], 0, 0, 0, 0, false⟩

/-- Bit 30 of the control register, which holds the fabric in reset. -/
def resetBit : UInt32 := 0x40000000

/-- Selectors have 12 bits. -/
def selectorMask : UInt32 := 0xFFF

def holds (control : UInt32) : Bool := control &&& resetBit != 0

def capacity (block : Block) : Nat := max block.depth 1

/-- The oldest word; an empty chain reads as zero. -/
def head (block : Block) : ConfigWord := block.chain.head?.getD ⟨0, 0⟩

def pushed (block : Block) (data : UInt32) : List ConfigWord :=
  block.chain.drop (block.chain.length + 1 - block.capacity) ++ [⟨block.selector, data⟩]

/-- A data write: refused if it is the one to refuse, otherwise pushed. -/
def push (data : UInt32) : Action LogLine Block (Except WriteError Unit) := do
  let block ← Action.state
  Action.update fun block => { block with received := block.received + 1 }
  if !block.failed && block.failAt.any (·.toNat == block.received) then
    Action.update fun block => { block with failed := true }
    Action.note .warn s!"PRISM injected fault on config write #{block.received}"
    return .error (.rejected Register.data.offset)
  if !holds block.control then
    Action.note .warn "PRISM config write while fabric is running"
  Action.update fun b => { b with chain := block.pushed data }
  let place := (block.pushed data).length - 1
  let selector := Text.hex 3 block.selector.toNat
  Action.note .debug s!"PRISM config[{place}] sel=0x{selector} data={Text.hexWord data}"
  return .ok ()

def select (value : UInt32) : Action LogLine Block Unit := do
  if value &&& ~~~selectorMask != 0 then
    Action.note .warn s!"PRISM selector {Text.hexWord value} truncated to 12 bits"
  Action.update fun block => { block with selector := value &&& selectorMask }

def setControl (value : UInt32) : Action LogLine Block Unit := do
  let block ← Action.state
  if holds value && !holds block.control then
    Action.note .debug "PRISM held in reset"
  if !holds value && holds block.control then
    let words := block.chain.length
    Action.note .info s!"PRISM released from reset ctrl={Text.hexWord value} words={words}"
  Action.update fun block => { block with control := value }

def register (block : Block) : Register → UInt32
  | .control => block.control
  | .data => block.head.data
  | .selector => block.head.selector
  | .comControl => block.comControl
  | .shiftOut => block.shiftOut
  | .shiftIn => block.shiftIn

def stray (offset : UInt32) : Action LogLine Block Unit :=
  Action.note .warn s!"PRISM invalid offset={Text.hexWord offset}"

def read (offset : UInt32) : Action LogLine Block UInt32 := do
  match Register.at? offset with
  | some r => return (← Action.state).register r
  | none =>
    stray offset
    return 0

def write (offset value : UInt32) : Action LogLine Block (Except WriteError Unit) := do
  match Register.at? offset with
  | some .data => push value
  | some .control => .ok <$> setControl value
  | some .selector => .ok <$> select value
  | some .comControl => .ok <$> Action.update fun block => { block with comControl := value }
  | some .shiftOut => .ok <$> Action.update fun block => { block with shiftOut := value }
  | some .shiftIn => .ok <$> Action.update fun block => { block with shiftIn := value }
  | none => .ok <$> stray offset

/-- Clears registers and chain. The count of data writes and the refusal outlive a reset, so that a
write is refused only once. -/
def cleared (block : Block) : Block :=
  { block with
    control := 0, selector := 0, chain := [], comControl := 0, shiftOut := 0, shiftIn := 0 }

instance : Peripheral Block where
  name _ := "PRISM"
  size _ := 0x40
  registerName _ := Register.describe
  read := read
  write := write
  reset := Action.update cleared

end Block
end FabricLoader
