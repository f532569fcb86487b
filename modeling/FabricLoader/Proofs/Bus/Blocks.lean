import FabricLoader.Proofs.Block.History
import FabricLoader.Proofs.Bus.Mounting

/-! Blocks among the devices of a bus. A block that is mounted comes from power-on, and everything that
happens to it on the bus are accesses; so its chain never holds more words than it may, and a word
that is pushed onto a full chain takes the place of the oldest. -/
namespace FabricLoader

namespace Block
variable {block : Block} {base : UInt32}

/-- A block that comes from power-on, whatever was done to it by itself. -/
def Powered (block : Block) : Prop :=
  ∃ depth failAt operations, block = (operateAll operations (new depth failAt)).state

def Within (block : Block) : Prop := block.chain.length ≤ block.capacity

theorem Powered.within (powered : block.Powered) : block.Within := by
  obtain ⟨depth, failAt, operations, rfl⟩ := powered
  have follows := (follows_new depth failAt).operateAll operations
  rw [Within, capacity, follows.depth, follows.chain, List.length_drop]
  omega

theorem within_push (within : block.Within) (data : UInt32) : (push data block).state.Within := by
  cases refuses : block.refuses with
  | true =>
    rw [(push_refused refuses data).2]
    exact within
  | false =>
    have positive := capacity_pos block
    rw [Within] at within
    rw [(push_accepted refuses data).2]
    change (block.pushed data).length ≤ block.capacity
    rw [pushed, List.length_append, List.length_drop, List.length_singleton]
    omega

theorem within_access (within : block.Within) (a : Access) : (block.access base a).Within := by
  cases a with
  | reset => exact Nat.zero_le _
  | read address => exact within
  | write address value =>
    simp only [access]
    split
    · by_cases data : address - base = Register.data.offset
      · rw [data, write_data]
        exact within_push within value
      · obtain ⟨_, recalls, chain⟩ := write_other data value block
        rw [Within, capacity, chain, recalls.depth]
        exact within
    · exact within

theorem within_replay (within : block.Within) (accesses : List Access) :
    (block.replay base accesses).Within := by
  induction accesses generalizing block with
  | nil => exact within
  | cons a rest ih => exact ih (within_access within a)

/-- What makes room for one more word: nothing, or the loss of the oldest one. -/
theorem Within.drop (within : block.Within) :
    block.chain.drop (block.chain.length + 1 - block.capacity) =
      if block.chain.length < block.capacity then block.chain else block.chain.tail := by
  by_cases room : block.chain.length < block.capacity
  · rw [if_pos room, Nat.sub_eq_zero_of_le room, List.drop_zero]
  · have full : block.chain.length = block.capacity :=
      Nat.le_antisymm within (Nat.le_of_not_lt room)
    rw [if_neg room, full, Nat.add_sub_cancel_left, List.drop_one]

end Block

namespace Slot
variable {δ : Type} [Peripheral δ]

/-- What kind of device a slot holds is settled when it is mounted. -/
theorem isLeft_access (slot : Slot (Block ⊕ δ)) (a : Access) :
    (slot.access a).device.isLeft = slot.device.isLeft := by
  obtain ⟨start, stop, device⟩ := slot
  cases a with
  | reset => cases device <;> rfl
  | read address | write address value =>
    simp only [access]
    split
    · cases device <;> rfl
    · rfl

theorem isLeft_replay (slot : Slot (Block ⊕ δ)) (accesses : List Access) :
    (slot.replay accesses).device.isLeft = slot.device.isLeft := by
  induction accesses generalizing slot with
  | nil => rfl
  | cons a rest ih => exact (ih (slot.access a)).trans (isLeft_access slot a)

end Slot

namespace Bus
variable {δ : Type} [Peripheral δ]

theorem mem_requests_of_accepted {bus : Bus δ} {requests : List (Request δ)}
    {placement : Placement δ} (member : placement ∈ bus.accepted requests) :
    .mount placement.base placement.device ∈ requests := by
  induction requests generalizing bus with
  | nil => cases member
  | cons request rest ih =>
    cases request with
    | access a => exact List.mem_cons_of_mem _ (ih member)
    | mount base device =>
      rcases mount_slots base device bus with ⟨rejected, _⟩ | ⟨mounted, _⟩
      · rw [accepted_of_rejected rejected] at member
        exact List.mem_cons_of_mem _ (ih member)
      · rw [accepted_of_mounted mounted] at member
        rcases List.mem_cons.mp member with rfl | later
        · exact List.mem_cons_self
        · exact List.mem_cons_of_mem _ (ih later)

variable {requests : List (Request (Block ⊕ δ))} {base : UInt32} {block : Block}

/-- A block on the bus is one that was mounted there, after the accesses since. -/
theorem mounted_of_serve (sized : ∀ r ∈ requests, r.Sized)
    (member : Block.slot δ base block ∈ (empty.serve requests).slots) :
    ∃ mounted since, .mount base (.inl mounted) ∈ requests ∧ block = mounted.replay base since := by
  obtain ⟨placement, placed, same⟩ :=
    List.mem_map.mp ((serve_slots Slot.ordered_nil sized).2.mem_iff.mp member)
  have requested := mem_requests_of_accepted placed
  obtain ⟨start, device, since⟩ := placement
  cases device with
  | inl mounted =>
    have settled : Block.slot δ start (mounted.replay start since) = Block.slot δ base block :=
      (Block.replay_slot since).symm.trans same
    obtain ⟨rfl, _, now⟩ := Slot.mk.inj settled
    exact ⟨mounted, since, requested, (Sum.inl.inj now).symm⟩
  | inr other =>
    -- a device of another kind is no block, whatever has happened to it
    have kind := congrArg (·.device.isLeft) same
    simp only [Placement.slot, Slot.isLeft_replay] at kind
    cases kind

theorem within_of_serve (sized : ∀ r ∈ requests, r.Sized)
    (powered : ∀ start mounted, .mount start (.inl mounted) ∈ requests → mounted.Powered)
    (member : Block.slot δ base block ∈ (empty.serve requests).slots) : block.Within := by
  obtain ⟨mounted, since, requested, rfl⟩ := mounted_of_serve sized member
  exact Block.within_replay (powered base mounted requested).within since

end Bus
end FabricLoader
