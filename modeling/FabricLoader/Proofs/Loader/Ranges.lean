import FabricLoader.Proofs.Loader.Retry

/-! Arithmetic on words in a session. Addresses, offsets and counts are words, and nothing that is done
with them wraps around: what is routed to a slot lies in it, attempts are limited, and a block counts
no more data writes than it will have received in the end. -/
namespace FabricLoader

namespace Slot
variable {δ : Type}

/-- The distance of an address from the start of a slot, and the word that it falls into. -/
structure Offsets (slot : Slot δ) (address : UInt32) : Prop where
  above : slot.start ≤ address
  distance : (address - slot.start).toNat = address.toNat - slot.start.toNat
  inside : address.toNat - slot.start.toNat < slot.stop.toNat - slot.start.toNat
  aligned : (address - slot.start) % 4 ≤ address - slot.start

theorem offsets_of_covers {slot : Slot δ} {address : UInt32} (covers : slot.covers address) :
    slot.Offsets address := by
  obtain ⟨above, below⟩ := covers_iff.mp covers
  rw [UInt32.lt_iff_toNat_lt] at below
  refine ⟨above, UInt32.toNat_sub_of_le _ _ above, ?_, ?_⟩
  · rw [UInt32.le_iff_toNat_le] at above
    omega
  · rw [UInt32.le_iff_toNat_le, UInt32.toNat_mod]
    exact Nat.mod_le _ _

variable [Peripheral δ] {slot : Slot (Block ⊕ δ)} {block : Block}

/-- A block on the bus stays one, and its count of data writes does not go down. -/
theorem received_access (device : slot.device = .inl block) (a : Access) :
    ∃ after, (slot.access a).device = .inl after ∧ block.received ≤ after.received := by
  have unchanged : ∃ after, slot.device = .inl after ∧ block.received ≤ after.received :=
    ⟨block, device, Nat.le_refl _⟩
  obtain ⟨start, stop, _⟩ := slot
  cases device
  cases a with
  | reset => exact ⟨block.cleared, rfl, Nat.le_refl _⟩
  | read address =>
    simp only [access]
    split
    · exact ⟨(Block.read (address - start) block).state, rfl, by rw [Block.read_state]⟩
    · exact unchanged
  | write address value =>
    simp only [access]
    split
    · refine ⟨(Block.write (address - start) value block).state, rfl, ?_⟩
      by_cases data : address - start = Register.data.offset
      · rw [data, Block.write_data, (Block.push_received value block).1]
        exact Nat.le_succ _
      · exact Nat.le_of_eq (Block.write_other data value block).2.1.received.symm
    · exact unchanged

theorem received_replay (device : slot.device = .inl block) (accesses : List Access) :
    ∃ after, (slot.replay accesses).device = .inl after ∧ block.received ≤ after.received := by
  induction accesses generalizing slot block with
  | nil => exact ⟨block, device, Nat.le_refl _⟩
  | cons a rest ih =>
    obtain ⟨next, still, first⟩ := received_access device a
    obtain ⟨after, final, later⟩ := ih still
    exact ⟨after, final, Nat.le_trans first later⟩

end Slot

theorem Bus.offsets_of_route? {δ : Type} {bus : Bus δ} (ordered : Slot.Ordered bus.slots)
    {address : UInt32} {i : Nat} {slot : Slot δ} (routed : bus.route? address = some (i, slot)) :
    slot.Offsets address :=
  Slot.offsets_of_covers ((route?_eq_some_iff ordered).mp routed).2

/-- Every block on one bus is on the other as well, and has received no fewer data writes there. -/
def Recounts {δ : Type} (bus next : SessionBus δ) : Prop :=
  ∀ slot ∈ bus.slots, ∀ block, slot.device = .inl block →
    ∃ later ∈ next.slots, ∃ after, later.device = .inl after ∧ block.received ≤ after.received

namespace Recounts
variable {δ : Type} {bus next last : SessionBus δ}

theorem refl (bus : SessionBus δ) : Recounts bus bus :=
  fun slot member block device => ⟨slot, member, block, device, Nat.le_refl _⟩

theorem trans (first : Recounts bus next) (second : Recounts next last) : Recounts bus last := by
  intro slot member block device
  obtain ⟨middle, among, between, still, low⟩ := first slot member block device
  obtain ⟨later, found, after, final, high⟩ := second middle among between still
  exact ⟨later, found, after, final, Nat.le_trans low high⟩

variable [Peripheral δ]

theorem replay (ordered : Slot.Ordered bus.slots) (accesses : List Access) :
    Recounts bus (bus.replay accesses) := by
  intro slot member block device
  obtain ⟨after, still, more⟩ := Slot.received_replay device accesses
  refine ⟨slot.replay accesses, ?_, after, still, more⟩
  rw [Bus.replay_slots ordered]
  exact List.mem_map_of_mem member

theorem mount (bus : SessionBus δ) (base : UInt32) (device : Block ⊕ δ) :
    Recounts bus (Bus.mount base device bus).state :=
  fun slot member block still =>
    ⟨slot, Bus.mem_mount member base device, block, still, Nat.le_refl _⟩

end Recounts

namespace Loader
variable {δ : Type} [Peripheral δ] {settings : Settings} {loader : Loader} {bus : SessionBus δ}
  {events : List Event} {block : Block}

namespace Operation

theorem recounts_after (ordered : Slot.Ordered bus.slots) {operation : Operation δ}
    {before after : List Access}
    (split : Event.accesses (operation.perform loader bus).events = before ++ after) :
    Recounts (bus.replay before) (operation.perform loader bus).state := by
  -- A mount makes no access, so there is nothing to cut; any other operation only replays its own.
  rcases mounts_or_replayed loader operation with ⟨base, device, rfl⟩ | replayed
  · have none : before ++ after = [] := by simp [← split, perform]
    obtain ⟨rfl, rfl⟩ := List.append_eq_nil_iff.mp none
    exact Recounts.mount bus base device
  · have reached : (operation.perform loader bus).state = bus.replay (before ++ after) :=
      split ▸ replayed bus
    rw [reached, Bus.replay_append]
    exact Recounts.replay (Bus.ordered_replay ordered before) after

def performAll (loader : Loader) : List (Operation δ) → Action Event (SessionBus δ) Unit
  | [] => pure ()
  | operation :: rest => do
    operation.perform loader
    performAll loader rest

theorem performAll_append (done later : List (Operation δ)) (bus : SessionBus δ) :
    (performAll loader (done ++ later) bus).state =
      (performAll loader later (performAll loader done bus).state).state := by
  induction done generalizing bus with
  | nil => rfl
  | cons operation rest ih => exact ih (operation.perform loader bus).state

/-- Whatever operations make of a bus is a state of the session. -/
theorem reached_performAll {operations : List (Operation δ)}
    (reached : Reached settings loader bus events)
    (admissible : ∀ operation ∈ operations, operation.Admissible) :
    ∃ further, Reached settings loader (performAll loader operations bus).state further := by
  induction operations generalizing bus events with
  | nil => exact ⟨events, reached⟩
  | cons operation rest ih =>
    have next := reached.step operation (admissible operation List.mem_cons_self)
    exact ih next fun later member => admissible later (List.mem_cons_of_mem operation member)

theorem recounts_performAll {operations : List (Operation δ)}
    (reached : Reached settings loader bus events)
    (admissible : ∀ operation ∈ operations, operation.Admissible) :
    Recounts bus (performAll loader operations bus).state := by
  induction operations generalizing bus events with
  | nil => exact Recounts.refl bus
  | cons operation rest ih =>
    have next := reached.step operation (admissible operation List.mem_cons_self)
    have first : Recounts bus (operation.perform loader bus).state :=
      recounts_after reached.carries.ordered (List.nil_append _).symm
    exact first.trans (ih next fun later member =>
      admissible later (List.mem_cons_of_mem operation member))

end Operation

/-- Every attempt begins with a reset, and there are no more of them than the limit allows. -/
theorem program_limited (carries : Carries loader.base block bus) (name : String) (image : Image)
    (applier : Applier) (retries : UInt32) :
    (Event.accesses (loader.program name image applier retries bus).events).count .reset ≤
      attemptLimit retries := by
  have size : UInt32.size = 4294967296 := rfl
  have once : 1 ≤ attemptLimit retries := by
    simp only [attemptLimit]
    omega
  cases pending : block.refusal? image.size with
  | none =>
    rw [(program_accepted name applier carries pending retries).accesses, List.nil_append,
      count_reset_script]
    exact once
  | some i =>
    by_cases final : retries = 0
    · subst final
      rw [(program_refused name applier carries pending).2, count_reset_entriesScript]
      exact once
    · obtain ⟨left, limit⟩ := attemptLimit_pos final
      rw [(program_restarted name applier carries pending final).accesses, List.count_append,
        count_reset_entriesScript, count_reset_script]
      omega

/-- A data write that gets to a block is counted there. -/
theorem received_data (ordered : Slot.Ordered bus.slots) {address value : UInt32} {i : Nat}
    {slot : Slot (Block ⊕ δ)} (routed : bus.route? address = some (i, slot))
    (device : slot.device = .inl block) (data : address - slot.start = 0x10) :
    ∃ later ∈ (bus.access (.write address value)).slots, ∃ after : Block,
      later.device = .inl after ∧ after.received = block.received + 1 := by
  obtain ⟨atI, covers⟩ := (Bus.route?_eq_some_iff ordered).mp routed
  refine ⟨slot.access (.write address value), ?_, (Block.push value block).state, ?_,
    (Block.push_received value block).1⟩
  · rw [Bus.access_slots ordered]
    exact List.mem_map_of_mem (List.mem_of_getElem? atI)
  · have offset : address - slot.start = Register.data.offset := data
    simp only [Slot.access, covers, if_true, device, offset]
    change Sum.inl (Block.write Register.data.offset value block).state = _
    rw [Block.write_data]

/-- Nothing wraps around in a session in which no block receives more data writes than a word can
count: not the addresses of the registers, the place of the oldest entry, the attempts at an image, the
distance of an address from the start of its slot, the length of a chain, or the count of data
writes. -/
theorem operations_in_range {initial : SessionBus δ} {store : FileStore}
    (began : ((start settings).run store).value = .ok (loader, initial))
    {operations : List (Operation δ)} (admissible : ∀ operation ∈ operations, operation.Admissible)
    (few : ∀ slot ∈ (Operation.performAll loader operations initial).state.slots, ∀ block,
      slot.device = .inl block → block.received < UInt32.size) :
    (∀ register : Register, loader.base.toNat + register.offset.toNat < UInt32.size) ∧
    (∀ image : Image, image.entries.length - loader.depth < image.entries.length) ∧
    ∀ done later, operations = done ++ later →
      let bus := (Operation.performAll loader done initial).state
      (∀ address i slot, bus.route? address = some (i, slot) → slot.Offsets address) ∧
      (∀ name image applier retries,
        (Event.accesses (loader.program name image applier retries bus).events).count .reset ≤
          attemptLimit retries ∧ attemptLimit retries < UInt32.size) ∧
      ∀ operation rest, later = operation :: rest → ∀ before a after,
        Event.accesses (operation.perform loader bus).events = before ++ a :: after →
        let now := bus.replay before
        (∀ address i slot, now.route? address = some (i, slot) → slot.Offsets address) ∧
        ∀ address value i slot block, a = .write address value →
          now.route? address = some (i, slot) → slot.device = .inl block →
          address - slot.start = 0x10 →
          block.received + 1 < UInt32.size ∧ 0 < (block.pushed value).length := by
  have fits := (start_carries began).2.2.fits
  refine ⟨fun register => ?_, fun image => Nat.sub_lt image.size_pos loader.depth_pos, ?_⟩
  · have inside : register.offset.toNat < 0x40 := by cases register <;> decide
    simp only [Block.Fits] at fits
    omega
  intro done later split bus
  subst split
  obtain ⟨events, reached⟩ := Operation.reached_performAll (Reached.start began)
    fun operation member => admissible operation (List.mem_append_left _ member)
  have carries := reached.carries
  refine ⟨fun address i slot => Bus.offsets_of_route? carries.ordered, ?_, ?_⟩
  · intro name image applier retries
    refine ⟨program_limited carries name image applier retries, ?_⟩
    have size : UInt32.size = 4294967296 := rfl
    simp only [attemptLimit]
    omega
  rintro operation rest rfl before a after accesses now
  have ordered := (carries.replay before).ordered
  refine ⟨fun address i slot => Bus.offsets_of_route? ordered, ?_⟩
  rintro address value i slot block rfl routed device data
  obtain ⟨next, among, counted, still, one⟩ := received_data ordered routed device data
  have admits : ∀ later ∈ operation :: rest, later.Admissible :=
    fun later member => admissible later (List.mem_append_right _ member)
  have counts : Recounts (bus.replay (before ++ [.write address value]))
      (operation.perform loader bus).state :=
    Operation.recounts_after carries.ordered (by rw [accesses, List.append_assoc]; rfl)
  rw [Bus.replay_append] at counts
  have others : Recounts (operation.perform loader bus).state
      (Operation.performAll loader (done ++ operation :: rest) initial).state := by
    rw [Operation.performAll_append]
    exact Operation.recounts_performAll (reached.step operation (admits _ List.mem_cons_self))
      fun later member => admits later (List.mem_cons_of_mem _ member)
  obtain ⟨last, found, final, ended, more⟩ := (counts.trans others) next among counted still
  -- Counts only rise, so the limit on the last count is a limit on this one.
  have bound := few last found final ended
  exact ⟨by omega, by simp [Block.pushed]⟩

/-- A data write to another block that has been mounted behind the first. -/
theorem operations_in_range_write :
    let loader : Loader := ⟨0, 8, by decide, .standard⟩
    let initial : SessionBus Empty := ⟨[Block.slot Empty 0 (Block.new 8 (some 1))]⟩
    let mount := .mount 0x40 (.inl (Block.new 8 none))
    let operations := [mount, .write 0x50 7]
    let mounted := (Operation.performAll loader [mount] initial).state
    let final := (Operation.performAll loader operations initial).state
    let slot : Slot (Block ⊕ Empty) := Block.slot Empty 0x40 (Block.new 8 none)
    ((start refusingSecond).run (⟨[]⟩ : FileStore)).value = .ok (loader, initial) ∧
    (∀ operation ∈ operations, operation.Admissible) ∧
    (∀ slot ∈ final.slots, ∀ block, slot.device = .inl block → block.received < UInt32.size) ∧
    (∀ register : Register, loader.base.toNat + register.offset.toNat < UInt32.size) ∧
    mounted.route? 0x50 = some (1, slot) ∧ slot.Offsets 0x50 ∧
    (Block.new 8 none).received + 1 < UInt32.size := by
  intro loader initial mount operations mounted final slot
  have began : ((start refusingSecond).run (⟨[]⟩ : FileStore)).value = .ok (loader, initial) :=
    start_ok (show 0 < refusingSecond.block.depth by decide) (by decide) ⟨[]⟩
  have admissible : ∀ operation ∈ operations, operation.Admissible := by
    simp [operations, mount, Operation.Admissible, Peripheral.size]
  have slots : final.slots = [Block.slot Empty 0 (Block.new 8 (some 1)), Block.slot Empty 0x40
      { Block.new 8 none with chain := [⟨0, 7⟩], received := 1 }] := by decide +kernel
  have few : ∀ slot ∈ final.slots, ∀ block, slot.device = .inl block →
      block.received < UInt32.size := by
    simp [slots, Block.slot, Block.new]
  have routed : mounted.route? 0x50 = some (1, slot) := by decide +kernel
  obtain ⟨registers, _, states⟩ := operations_in_range began admissible few
  obtain ⟨offsets, _, writes⟩ := states [mount] [.write 0x50 7] rfl
  obtain ⟨counted, _⟩ := (writes (.write 0x50 7) [] rfl [] (.write 0x50 7) []
    (by simp [Operation.perform])).2 0x50 7 1 slot (Block.new 8 none) rfl routed rfl
    (by decide)
  exact ⟨began, admissible, few, registers, routed, offsets 0x50 1 slot routed, counted⟩

end Loader
end FabricLoader
