import FabricLoader.Proofs.Bus.Slotwise
import FabricLoader.Block.Basic

/-! A configuration block under accesses. Only the data register ever refuses a write; every other
register takes what it is given and leaves the chain and the count of data writes alone. The count
is that of the data writes among the accesses so far, resets or not, and the refusal has happened
exactly if its ordinal has been passed. -/
namespace FabricLoader.Block
variable {block : Block} {offset value base : UInt32}

def refuses (block : Block) : Bool :=
  !block.failed && block.failAt.any (·.toNat == block.received)

theorem refuses_iff : block.refuses ↔
    block.failed = false ∧ ∃ f, block.failAt = some f ∧ f.toNat = block.received := by
  simp [refuses, Option.any_eq_true]

/-- What a block logs when it takes a data write while its fabric is not held. -/
def runningWarning : LogLine := ⟨.warn, "PRISM config write while fabric is running"⟩

theorem push_apply (data : UInt32) (block : Block) : push data block =
    let counted := { block with received := block.received + 1 }
    if block.refuses then
      ⟨.error (.rejected Register.data.offset), { counted with failed := true },
        [⟨.warn, s!"PRISM injected fault on config write #{block.received}"⟩]⟩
    else
      let place := (block.pushed data).length - 1
      let selector := Text.hex 3 block.selector.toNat
      ⟨.ok (), { counted with chain := block.pushed data },
        (if holds block.control then [] else [runningWarning]) ++
        [⟨.debug, s!"PRISM config[{place}] sel=0x{selector} data={Text.hexWord data}"⟩]⟩ := by
  have opened : push data block = (if block.refuses then _ else _ : Action _ _ _) _ := rfl
  rw [opened]
  cases block.refuses with
  | true => rfl
  | false =>
    cases running : holds block.control <;> simp [running, Action.note, runningWarning, pushed, capacity]

theorem push_value (data : UInt32) (block : Block) : (push data block).value =
    if block.refuses then .error (.rejected Register.data.offset) else .ok () := by
  rw [push_apply]
  cases block.refuses <;> rfl

theorem push_refused (h : block.refuses) (data : UInt32) :
    (push data block).value = .error (.rejected Register.data.offset) ∧
    (push data block).state = { block with received := block.received + 1, failed := true } := by
  simp [push_apply, h]

theorem push_accepted (h : block.refuses = false) (data : UInt32) :
    (push data block).value = .ok () ∧ (push data block).state =
      { block with received := block.received + 1, chain := block.pushed data } := by
  simp [push_apply, h]

@[simp] theorem write_data : write Register.data.offset value = push value := by
  simp [write]

@[simp] theorem write_selector_state : (write Register.selector.offset value block).state =
    { block with selector := value &&& selectorMask } := by
  simp only [write, Register.at?_offset, Action.map_apply, select]
  split <;> simp [Action.note]

@[simp] theorem write_control_state : (write Register.control.offset value block).state =
    { block with control := value } := by
  simp only [write, Register.at?_offset, Action.map_apply, setControl]
  cases new : holds value <;> cases old : holds block.control <;> simp [old, Action.note]

/-- The configuration, the count of data writes and the refusal are as before. -/
structure Recalls (before after : Block) : Prop where
  depth : after.depth = before.depth
  failAt : after.failAt = before.failAt
  received : after.received = before.received
  failed : after.failed = before.failed

/-- A write to anything but the data register is accepted and keeps the chain. -/
theorem write_other (h : offset ≠ Register.data.offset) (value : UInt32) (block : Block) :
    (write offset value block).value = .ok () ∧ Recalls block (write offset value block).state ∧
    (write offset value block).state.chain = block.chain := by
  cases found : Register.at? offset with
  | none => simpa [write, found, stray, Action.note] using ⟨rfl, rfl, rfl, rfl⟩
  | some r =>
    obtain rfl := Register.offset_of_at? found
    cases r with
    | data => exact absurd rfl h
    | control =>
      rw [write_control_state]
      exact ⟨by simp [write], ⟨rfl, rfl, rfl, rfl⟩, rfl⟩
    | selector =>
      rw [write_selector_state]
      exact ⟨by simp [write], ⟨rfl, rfl, rfl, rfl⟩, rfl⟩
    | comControl | shiftOut | shiftIn =>
      exact ⟨by simp [write], by constructor <;> simp [write], by simp [write]⟩

@[simp] theorem read_state : (read offset block).state = block := by
  cases found : Register.at? offset <;> simp [read, found, stray, Action.note]

def spans (base address : UInt32) : Bool := base ≤ address && address < base + 0x40

/-- What an access to the bus does to a block at `base`. -/
def access (base : UInt32) (block : Block) : Access → Block
  | .reset => block.cleared
  | .read _ => block
  | .write address value =>
    if spans base address then (write (address - base) value block).state else block

def replay (base : UInt32) (block : Block) (accesses : List Access) : Block :=
  accesses.foldl (access base) block

@[simp] theorem replay_nil : replay base block [] = block := rfl

@[simp] theorem replay_cons (a : Access) (rest : List Access) :
    replay base block (a :: rest) = replay base (block.access base a) rest := rfl

@[simp] theorem replay_append (before after : List Access) :
    replay base block (before ++ after) = replay base (replay base block before) after :=
  List.foldl_append

def slot (δ : Type) (base : UInt32) (block : Block) : Slot (Block ⊕ δ) :=
  ⟨base, base + 0x40, .inl block⟩

theorem access_slot {δ : Type} [Peripheral δ] (a : Access) :
    (slot δ base block).access a = slot δ base (block.access base a) := by
  cases a with
  | reset => rfl
  | read address =>
    have same : (Peripheral.read (address - base) (.inl block : Block ⊕ δ)).state = .inl block :=
      congrArg Sum.inl read_state
    cases spanned : (slot δ base block).covers address with
    | false => simp [Slot.access, spanned, access]
    | true =>
      simp only [Slot.access, spanned, access, ↓reduceIte]
      exact congrArg (Slot.mk base (base + 0x40)) same
  | write address value =>
    have spanned : (slot δ base block).covers address = spans base address := rfl
    cases h : spans base address with
    | false => simp [Slot.access, spanned, access, h]
    | true =>
      simp only [Slot.access, spanned, access, h, ↓reduceIte]
      rfl

theorem replay_slot {δ : Type} [Peripheral δ] (accesses : List Access) :
    (slot δ base block).replay accesses = slot δ base (block.replay base accesses) := by
  induction accesses generalizing block with
  | nil => rfl
  | cons a rest ih =>
    rw [replay_cons, ← ih, ← access_slot]
    rfl

/-- The block does not reach past the last address. -/
def Fits (base : UInt32) : Prop := base.toNat + 0x40 < UInt32.size

instance : Decidable (Fits base) := inferInstanceAs (Decidable (base.toNat + 0x40 < UInt32.size))

theorem slot_inhabited {δ : Type} :
    (slot δ base block).start < (slot δ base block).stop ↔ Fits base := by
  have size : UInt32.size = 4294967296 := rfl
  have bound := base.toNat_lt
  simp only [slot, Fits, UInt32.lt_iff_toNat_lt, UInt32.toNat_add]
  simp
  omega

theorem spans_offset (fits : Fits base) (inside : offset.toNat < 0x40) :
    spans base (base + offset) := by
  have size : UInt32.size = 4294967296 := rfl
  simp only [Fits] at fits
  simp only [spans, Bool.and_eq_true, decide_eq_true_eq, UInt32.le_iff_toNat_le,
    UInt32.lt_iff_toNat_lt, UInt32.toNat_add]
  rw [Nat.mod_eq_of_lt (by omega), Nat.mod_eq_of_lt (by simpa using fits)]
  simp
  omega

theorem spans_beyond (fits : Fits base) (room : base.toNat + offset.toNat < UInt32.size)
    (outside : ¬ offset.toNat < 0x40) : spans base (base + offset) = false := by
  have size : UInt32.size = 4294967296 := rfl
  simp only [Fits] at fits
  simp [spans, UInt32.lt_iff_toNat_lt, UInt32.le_iff_toNat_le, UInt32.toNat_add]
  omega

theorem access_write (fits : Fits base) (inside : offset.toNat < 0x40) :
    block.access base (.write (base + offset) value) = (write offset value block).state := by
  simp only [access, spans_offset fits inside, ↓reduceIte]
  rw [UInt32.add_comm, UInt32.add_sub_cancel]

def isDataWrite (base : UInt32) : Access → Bool
  | .write address _ => address == base + Register.data.offset
  | _ => false

def dataWrites (base : UInt32) (accesses : List Access) : Nat := accesses.countP (isDataWrite base)

@[simp] theorem dataWrites_append (before after : List Access) :
    dataWrites base (before ++ after) = dataWrites base before + dataWrites base after :=
  List.countP_append

theorem access_data (fits : Fits base) :
    block.access base (.write (base + Register.data.offset) value) = (push value block).state := by
  rw [access_write fits (by decide), write_data]

theorem access_other {a : Access} (h : isDataWrite base a = false) :
    Recalls block (block.access base a) := by
  cases a with
  | reset | read => exact ⟨rfl, rfl, rfl, rfl⟩
  | write address value =>
    simp only [access]
    split
    · refine (write_other ?_ value block).2.1
      intro atData
      have : address = base + Register.data.offset := by
        rw [← atData, UInt32.add_comm, UInt32.sub_add_cancel]
      simp [isDataWrite, this] at h
    · exact ⟨rfl, rfl, rfl, rfl⟩

theorem push_received (data : UInt32) (block : Block) :
    (push data block).state.received = block.received + 1 ∧
    (push data block).state.depth = block.depth ∧ (push data block).state.failAt = block.failAt := by
  cases h : block.refuses with
  | true =>
    rw [(push_refused h data).2]
    exact ⟨rfl, rfl, rfl⟩
  | false =>
    rw [(push_accepted h data).2]
    exact ⟨rfl, rfl, rfl⟩

/-- The refusal has happened if and only if its ordinal has been passed. -/
def Settled (block : Block) : Prop :=
  block.failed = true ↔ ∃ f, block.failAt = some f ∧ f.toNat < block.received

theorem settled_new (depth : Nat) (failAt : Option UInt32) : Settled (new depth failAt) := by
  simp [Settled, new]

theorem settled_push (settled : Settled block) (data : UInt32) :
    Settled (push data block).state := by
  cases h : block.refuses with
  | true =>
    obtain ⟨_, f, atF, now⟩ := refuses_iff.mp h
    rw [(push_refused h data).2]
    simp [Settled, atF, now]
  | false =>
    rw [(push_accepted h data).2]
    unfold Settled at settled ⊢
    constructor
    · intro failed
      obtain ⟨f, atF, passed⟩ := settled.mp failed
      exact ⟨f, atF, Nat.lt_succ_of_lt passed⟩
    · rintro ⟨f, atF, passed⟩
      by_contra pending
      have unfired : block.failed = false := by simpa using pending
      have next : f.toNat ≠ block.received := fun now =>
        Bool.false_ne_true (h.symm.trans (refuses_iff.mpr ⟨unfired, f, atF, now⟩))
      have := settled.mpr ⟨f, atF, by simp only at passed; omega⟩
      exact pending this

/-- What a block keeps of its configuration and of the data writes among some accesses. -/
structure Counts (before : Block) (writes : Nat) (after : Block) : Prop where
  depth : after.depth = before.depth
  failAt : after.failAt = before.failAt
  received : after.received = before.received + writes
  settled : Settled before → Settled after

theorem counts_access (fits : Fits base) (block : Block) (a : Access) :
    Counts block (dataWrites base [a]) (block.access base a) := by
  cases h : isDataWrite base a with
  | false =>
    have same : Recalls block (block.access base a) := access_other h
    refine ⟨same.depth, same.failAt, ?_, ?_⟩
    · simpa [dataWrites, h] using same.received
    · simp [Settled, same.failAt, same.received, same.failed]
  | true =>
    cases a with
    | reset | read => simp [isDataWrite] at h
    | write address value =>
      obtain rfl : address = base + Register.data.offset := by simpa [isDataWrite] using h
      obtain ⟨received, depth, failAt⟩ := push_received value block
      rw [access_data fits]
      refine ⟨depth, failAt, ?_, fun settled => settled_push settled value⟩
      simpa [dataWrites, h] using received

/-- The count of a block is that of the data writes it was sent. -/
theorem counts_replay (fits : Fits base) (block : Block) (accesses : List Access) :
    Counts block (dataWrites base accesses) (block.replay base accesses) := by
  induction accesses generalizing block with
  | nil => exact ⟨rfl, rfl, rfl, id⟩
  | cons a rest ih =>
    have first := counts_access fits block a
    have later := ih (block.access base a)
    rw [replay_cons, ← List.singleton_append, dataWrites_append]
    refine ⟨later.depth.trans first.depth, later.failAt.trans first.failAt, ?_, ?_⟩
    · rw [later.received, first.received, Nat.add_assoc]
    · exact fun settled => later.settled (first.settled settled)

end FabricLoader.Block
