import FabricLoader.Proofs.Bus.Mounting
import Mathlib.Data.List.Perm.Basic

/-! Mounting several devices. All of them are accepted when each fits the bus as it is and no two
overlap, which says nothing about their order; and slots in order are determined by what they are,
so the bus ends up the same. -/
namespace FabricLoader

namespace Slot
variable {δ : Type} {first second : List (Slot δ)}

/-- There is one order only for slots that are apart. -/
theorem Ordered.eq_of_perm (orderedFirst : Ordered first) (orderedSecond : Ordered second)
    (perm : first.Perm second) : first = second := by
  refine perm.eq_of_pairwise ?_ orderedFirst.increasing orderedSecond.increasing
  intro a b _ _ before after
  exact absurd (UInt32.lt_trans before after) (UInt32.lt_irrefl _)

end Slot

namespace Bus
variable {δ : Type} [Peripheral δ] {bus : Bus δ} {devices first second : List (UInt32 × δ)}

def mounts (devices : List (UInt32 × δ)) : List (Request δ) :=
  devices.map fun (base, device) => .mount base device

/-- Each of the devices is accepted when they are mounted one after another. -/
def MountsAll (bus : Bus δ) : List (UInt32 × δ) → Prop
  | [] => True
  | (base, device) :: rest =>
    (mount base device bus).value = .ok () ∧ (mount base device bus).state.MountsAll rest

def freshSlot (placed : UInt32 × δ) : Slot δ := .fresh placed.1 placed.2

/-- A device, taken by itself, may be mounted on a bus. -/
def Admits (bus : Bus δ) (placed : UInt32 × δ) : Prop :=
  placed.1.toNat + (Peripheral.size placed.2).toNat < UInt32.size ∧
    ∀ slot ∈ bus.slots, (freshSlot placed).Apart slot

theorem perm_mount {base : UInt32} {device : δ}
    (mounted : (mount base device bus).value = .ok ()) :
    (mount base device bus).state.slots.Perm (freshSlot (base, device) :: bus.slots) := by
  rcases mount_slots base device bus with ⟨rejected, _⟩ | ⟨_, _, _, added⟩
  · exact absurd mounted rejected
  · rw [added]
    exact List.perm_insertIdx _ _ (Slot.countBelow_le_length bus.slots base)

theorem admits_mount {base : UInt32} {device : δ}
    (mounted : (mount base device bus).value = .ok ()) (placed : UInt32 × δ) :
    (mount base device bus).state.Admits placed ↔
      bus.Admits placed ∧ (freshSlot (base, device)).Apart (freshSlot placed) := by
  have members (slot : Slot δ) : slot ∈ (mount base device bus).state.slots ↔
      slot ∈ freshSlot (base, device) :: bus.slots := (perm_mount mounted).mem_iff
  constructor
  · rintro ⟨room, apart⟩
    refine ⟨⟨room, fun slot member => ?_⟩, ?_⟩
    · exact apart slot ((members slot).mpr (List.mem_cons_of_mem _ member))
    · exact (apart _ ((members _).mpr List.mem_cons_self)).symm
  · rintro ⟨⟨room, apart⟩, beside⟩
    refine ⟨room, fun slot member => ?_⟩
    rcases List.mem_cons.mp ((members slot).mp member) with rfl | older
    · exact beside.symm
    · exact apart slot older

/-- All devices are accepted if each is admitted and no two overlap. -/
theorem mountsAll_iff (ordered : Slot.Ordered bus.slots)
    (nonzero : ∀ placed ∈ devices, Peripheral.size placed.2 ≠ 0) :
    bus.MountsAll devices ↔ (∀ placed ∈ devices, bus.Admits placed) ∧
      devices.Pairwise fun a b => (freshSlot a).Apart (freshSlot b) := by
  induction devices generalizing bus with
  | nil => simp [MountsAll]
  | cons placed rest ih =>
    obtain ⟨base, device⟩ := placed
    have sized : Peripheral.size device ≠ 0 := nonzero _ List.mem_cons_self
    have joined : Slot.Ordered (mount base device bus).state.slots := ordered_mount ordered sized
    have later := ih joined fun other member => nonzero other (List.mem_cons_of_mem _ member)
    rw [List.forall_mem_cons, List.pairwise_cons, MountsAll, later]
    constructor
    · rintro ⟨mounted, admitted, apart⟩
      have split := fun other member => (admits_mount mounted other).mp (admitted other member)
      exact ⟨⟨(mount_ok_iff_apart ordered sized).mp mounted, fun other member => (split other member).1⟩,
        fun other member => (split other member).2, apart⟩
    · rintro ⟨⟨admitted, others⟩, beside, apart⟩
      have mounted := (mount_ok_iff_apart ordered sized).mpr admitted
      exact ⟨mounted, fun other member =>
        (admits_mount mounted other).mpr ⟨others other member, beside other member⟩, apart⟩

/-- When all devices are accepted, the bus holds the slots that it had and theirs. -/
theorem serve_mounts_perm (all : bus.MountsAll devices) :
    (bus.serve (mounts devices)).slots.Perm (devices.map freshSlot ++ bus.slots) := by
  induction devices generalizing bus with
  | nil => exact .refl _
  | cons placed rest ih =>
    obtain ⟨mounted, later⟩ := all
    have moved := (perm_mount mounted).append_left (rest.map freshSlot)
    exact ((ih later).trans moved).trans List.perm_middle

theorem ordered_serve_mounts (ordered : Slot.Ordered bus.slots)
    (nonzero : ∀ placed ∈ devices, Peripheral.size placed.2 ≠ 0) :
    Slot.Ordered (bus.serve (mounts devices)).slots := by
  refine (serve_slots ordered fun request member => ?_).1
  obtain ⟨placed, listed, rfl⟩ := List.mem_map.mp member
  exact nonzero placed listed

/-- On a bus in order, whatever was asked of it before, the order in which devices are mounted makes
no difference: not to whether all of them are accepted, and then not to the slots. -/
theorem mounts_permuted (requests : List (Request δ)) (sized : ∀ r ∈ requests, r.Sized)
    (nonzero : ∀ placed ∈ first, Peripheral.size placed.2 ≠ 0) (perm : first.Perm second) :
    let bus := empty.serve requests
    (bus.MountsAll first ↔ bus.MountsAll second) ∧
      (bus.MountsAll first →
        (bus.serve (mounts first)).slots = (bus.serve (mounts second)).slots) := by
  intro bus
  have start : Slot.Ordered (empty : Bus δ).slots := Slot.ordered_nil
  have ordered : Slot.Ordered bus.slots := (serve_slots start sized).1
  have nonzeroSecond : ∀ placed ∈ second, Peripheral.size placed.2 ≠ 0 := fun placed member =>
    nonzero placed (perm.mem_iff.mpr member)
  have same : bus.MountsAll first ↔ bus.MountsAll second := by
    rw [mountsAll_iff ordered nonzero, mountsAll_iff ordered nonzeroSecond,
      perm.pairwise_iff Slot.Apart.symm]
    simp only [perm.mem_iff]
  refine ⟨same, fun all => ?_⟩
  apply Slot.Ordered.eq_of_perm (ordered_serve_mounts ordered nonzero)
    (ordered_serve_mounts ordered nonzeroSecond)
  have joined := (perm.map freshSlot).append_right bus.slots
  exact ((serve_mounts_perm all).trans joined).trans (serve_mounts_perm (same.mp all)).symm

/-- Three blocks around one that is mounted, in two orders. -/
theorem mounts_permuted_threeBlocks :
    let block := Block.new 8 none
    let requests : List (Request Block) := [.mount 0x1000 block]
    let first := [(0x1040, block), (0, block), (0xFC0, block)]
    let second := [(0xFC0, block), (0x1040, block), (0, block)]
    (∀ r ∈ requests, r.Sized) ∧ (∀ placed ∈ first, Peripheral.size placed.2 ≠ 0) ∧
      first.Perm second ∧ (empty.serve requests).MountsAll first ∧
      ((empty.serve requests).serve (mounts first)).slots =
        ((empty.serve requests).serve (mounts second)).slots := by
  intro block requests first second
  have sized : ∀ r ∈ requests, r.Sized := by
    simp [requests, Request.Sized, block, Peripheral.size]
  have nonzero : ∀ placed ∈ first, Peripheral.size placed.2 ≠ 0 := by
    simp [first, block, Peripheral.size]
  have perm : first.Perm second := by decide
  have all : (empty.serve requests).MountsAll first :=
    ⟨by decide +kernel, by decide +kernel, by decide +kernel, trivial⟩
  exact ⟨sized, nonzero, perm, all, (mounts_permuted requests sized nonzero perm).2 all⟩

end Bus
end FabricLoader
