import FabricLoader.Proofs.Block.Stream
import FabricLoader.Proofs.Loader.Driven

/-! A block on the bus of a session. The bus keeps its devices in order and the block at its base,
whatever is accessed or mounted, and the accesses alone say what becomes of the block. Everything
that a session does to the bus is done by accesses that it leaves among its events. -/
namespace FabricLoader

/-- The devices of the bus are in order, and one of them is the block at `base`. -/
structure Carries {δ : Type} (base : UInt32) (block : Block) (bus : SessionBus δ) : Prop where
  ordered : Slot.Ordered bus.slots
  mem : Block.slot δ base block ∈ bus.slots

namespace Carries
variable {δ : Type} {base address offset : UInt32} {block : Block} {bus : SessionBus δ}

theorem fits (carries : Carries base block bus) : Block.Fits base :=
  Block.slot_inhabited.mp (carries.ordered.inhabited _ carries.mem)

/-- There is one block at the base. -/
theorem unique (carries : Carries base block bus) {other : Block}
    (also : Carries base other bus) : other = block := by
  have covers : (Block.slot δ base block).covers (base + 0) :=
    Block.spans_offset carries.fits (by decide)
  have same := carries.ordered.eq_of_covers carries.mem also.mem covers covers
  simpa [Block.slot, eq_comm] using same

/-- What else is on the bus lies outside the addresses of the block. -/
theorem outside (carries : Carries base block bus) {slot : Slot (Block ⊕ δ)}
    (member : slot ∈ bus.slots) (other : slot ≠ Block.slot δ base block)
    (covers : slot.covers address) : ¬ Block.spans base address := fun spans =>
  other (carries.ordered.eq_of_covers member carries.mem covers spans)

theorem start_ne (carries : Carries base block bus) {slot : Slot (Block ⊕ δ)}
    (member : slot ∈ bus.slots) (other : slot ≠ Block.slot δ base block) : slot.start ≠ base := by
  have spans : Block.spans base (base + 0) := Block.spans_offset carries.fits (by decide)
  rw [UInt32.add_zero] at spans
  rintro rfl
  have inhabited := carries.ordered.inhabited slot member
  exact carries.outside member other (Slot.covers_iff.mpr ⟨UInt32.le_refl _, inhabited⟩) spans

variable [Peripheral δ]

theorem access (carries : Carries base block bus) (a : Access) :
    Carries base (block.access base a) (bus.access a) := by
  refine ⟨Bus.ordered_access carries.ordered a, ?_⟩
  rw [Bus.access_slots carries.ordered, ← Block.access_slot]
  exact List.mem_map_of_mem carries.mem

theorem replay (carries : Carries base block bus) (accesses : List Access) :
    Carries base (block.replay base accesses) (bus.replay accesses) := by
  induction accesses generalizing block bus with
  | nil => exact carries
  | cons a rest ih => exact ih (carries.access a)

theorem mount (carries : Carries base block bus) {start : UInt32} {device : Block ⊕ δ}
    (sized : Peripheral.size device ≠ 0) : Carries base block (Bus.mount start device bus).state :=
  ⟨Bus.ordered_mount carries.ordered sized, Bus.mem_mount carries.mem start device⟩

theorem write_value (carries : Carries base block bus) (inside : offset.toNat < 0x40)
    (value : UInt32) :
    (Bus.write (base + offset) value bus).value = (Block.write offset value block).value := by
  have covers : (Block.slot δ base block).covers (base + offset) :=
    Block.spans_offset carries.fits inside
  rw [Bus.write_value carries.ordered carries.mem covers]
  change (Block.write (base + offset - base) value block).value = _
  rw [UInt32.add_comm, UInt32.add_sub_cancel]

theorem read_value (carries : Carries base block bus) (inside : offset.toNat < 0x40) :
    (Bus.read (base + offset) bus).value = (Block.read offset block).value := by
  have covers : (Block.slot δ base block).covers (base + offset) :=
    Block.spans_offset carries.fits inside
  rw [Bus.read_value carries.ordered carries.mem covers]
  change (Block.read (base + offset - base) block).value = _
  rw [UInt32.add_comm, UInt32.add_sub_cancel]

end Carries

namespace Bus
variable {δ : Type} [Peripheral δ] {bus : Bus δ}

theorem accesses_lines (lines : List LogLine) : Event.accesses (lines.map .line) = [] := by
  simp [Event.accesses, List.filterMap_map]

@[simp] theorem accesses_write (address value : UInt32) :
    Event.accesses (write address value bus).events = [.write address value] := by
  rw [write_apply]
  cases bus.route? address with
  | none => rfl
  | some found =>
    simp only [Event.accesses_append, accesses_lines]
    rfl

@[simp] theorem accesses_read (address : UInt32) :
    Event.accesses (read address bus).events = [.read address] := by
  rw [read_apply]
  cases bus.route? address with
  | none => rfl
  | some found =>
    simp only [Event.accesses_append, accesses_lines]
    rfl

@[simp] theorem accesses_reset : Event.accesses (reset bus).events = [.reset] := by
  change Event.accesses ([.access .reset] ++ (resetSlot.each bus.slots).events.map .line) = _
  rw [Event.accesses_append, accesses_lines]
  rfl

@[simp] theorem accesses_mount (base : UInt32) (device : δ) :
    Event.accesses (mount base device bus).events = [] := by
  by_cases outside : base.toNat + (Peripheral.size device).toNat ≥ UInt32.size
  · simp [mount, outside, Event.accesses]
  · cases conflict : conflict? bus.slots ⟨base, base + Peripheral.size device, device⟩ <;>
      simp [mount, outside, conflict, Action.log, Event.accesses]

end Bus

namespace Action
variable {δ σ α β : Type} [Peripheral δ] {view : σ → Bus δ}

/-- An action changes the bus in its state by the accesses that it leaves, and in no other way. -/
def Replayed (view : σ → Bus δ) (action : Action Event σ α) : Prop :=
  ∀ s, view (action s).state = (view s).replay (Event.accesses (action s).events)

theorem Replayed.map {action : Action Event σ α} (h : Replayed view action) (f : α → β) :
    Replayed view (f <$> action) := by
  intro s
  rw [map_apply]
  exact h s

theorem replayed_write (address value : UInt32) : Replayed id (Bus.write (δ := δ) address value) := by
  intro bus
  rw [Bus.accesses_write]
  rfl

theorem replayed_read (address : UInt32) : Replayed id (Bus.read (δ := δ) address) := by
  intro bus
  rw [Bus.accesses_read]
  rfl

theorem replayed_reset : Replayed id (Bus.reset (δ := δ)) := by
  intro bus
  rw [Bus.accesses_reset]
  rfl

end Action

/-- What reaches the bus only by the operations of the bus acts by the accesses that these leave. -/
theorem Drives.replayed {δ σ α : Type} [Peripheral δ] {view : σ → Bus δ} {action : Action Event σ α}
    (drives : Drives view action) : Action.Replayed view action := by
  induction drives with
  | quiet still lines =>
    intro s
    obtain ⟨logged, _, only⟩ := lines s
    rw [still, only, Bus.accesses_lines]
    rfl
  | write address value => exact Action.replayed_write address value
  | read address => exact Action.replayed_read address
  | reset => exact Action.replayed_reset
  | bind _ _ first rest =>
    intro s
    rw [Action.bind_apply, Event.accesses_append, Bus.replay_append, ← first s]
    exact rest _ _
  | part begins ends _ ih =>
    intro t
    rw [Action.onPart_apply, ends, begins]
    exact ih _
  | around begins ends _ ih =>
    intro s
    rw [Action.around_apply, ends, begins]
    exact ih _

namespace Loader
variable {δ : Type} [Peripheral δ] (loader : Loader) (name : String) (image : Image)
  (applier : Applier)

theorem replayed_attempt (number : Nat) :
    Action.Replayed id (loader.attempt (δ := δ) name image applier number) :=
  (loader.drives_attempt name image applier number).replayed

theorem replayed_program (retries : UInt32) :
    Action.Replayed id (loader.program (δ := δ) name image applier retries) :=
  (loader.drives_program name image applier retries).replayed

theorem replayed_verify : Action.Replayed id (loader.verify (δ := δ) name image) :=
  (loader.drives_verify name image).replayed

theorem replayed_install (request : ImageRequest) :
    Action.Replayed id (loader.install (δ := δ) name image request) :=
  (loader.drives_install name image request).replayed

end Loader
end FabricLoader
