import FabricLoader.Block.Basic
import FabricLoader.Proofs.Bus.Slotwise

/-! A bus from power-on. Devices are mounted in any order between accesses to those that are there
already; the bus accepts some and turns others away. What it holds is then described without the
order of its slots: by the placements that it accepted, each with the accesses made since. -/
namespace FabricLoader

inductive Request (δ : Type) where
  | mount (base : UInt32) (device : δ)
  | access (access : Access)
  deriving DecidableEq, Repr

namespace Request
variable {δ : Type} [Peripheral δ]

def accesses (requests : List (Request δ)) : List Access :=
  requests.filterMap fun | .access a => some a | .mount .. => none

/-- A device to be mounted claims at least one address. -/
def Sized : Request δ → Prop
  | .mount _ device => Peripheral.size device ≠ 0
  | .access _ => True

end Request

/-- A device as it was mounted, and the accesses made to the bus since. -/
structure Placement (δ : Type) where
  base : UInt32
  device : δ
  since : List Access

namespace Slot
variable {δ : Type}

/-- At most one slot covers an address. -/
theorem Ordered.countP_covers {slots : List (Slot δ)} (ordered : Ordered slots) (address : UInt32) :
    slots.countP (covers · address) ≤ 1 := by
  obtain ⟨inhabited, apart⟩ := ordered
  clear inhabited
  induction slots with
  | nil => simp
  | cons slot rest ih =>
    obtain ⟨first, later⟩ := List.pairwise_cons.mp apart
    by_cases covered : slot.covers address
    · have others : rest.countP (covers · address) = 0 := by
        apply List.countP_eq_zero.mpr
        intro other member reached
        have ends := (covers_iff.mp covered).2
        have starts := (covers_iff.mp reached).1
        exact UInt32.lt_irrefl _
          (UInt32.lt_of_lt_of_le ends (UInt32.le_trans (first other member) starts))
      simp [others, covered]
    · simpa [List.countP_cons, covered] using ih later

variable [Peripheral δ]

@[simp] theorem replay_start (slot : Slot δ) (accesses : List Access) :
    (slot.replay accesses).start = slot.start := by
  induction accesses generalizing slot with
  | nil => rfl
  | cons a rest ih => exact (ih (slot.access a)).trans (access_start slot a)

@[simp] theorem replay_stop (slot : Slot δ) (accesses : List Access) :
    (slot.replay accesses).stop = slot.stop := by
  induction accesses generalizing slot with
  | nil => rfl
  | cons a rest ih => exact (ih (slot.access a)).trans (access_stop slot a)

end Slot

namespace Placement
variable {δ : Type} [Peripheral δ] {placement : Placement δ}

/-- An address lies in the block as it was mounted. Addresses are numbers here, so that a block
could reach past the last one. -/
def Holds (placement : Placement δ) (address : UInt32) : Prop :=
  placement.base.toNat ≤ address.toNat ∧
    address.toNat < placement.base.toNat + (Peripheral.size placement.device).toNat

instance (address : UInt32) : Decidable (placement.Holds address) :=
  inferInstanceAs (Decidable (_ ∧ _))

def slot (placement : Placement δ) : Slot δ :=
  (⟨placement.base, placement.base + Peripheral.size placement.device, placement.device⟩ : Slot δ).replay
    placement.since

@[simp] theorem slot_start (placement : Placement δ) : placement.slot.start = placement.base := by
  simp [slot]

@[simp] theorem slot_stop (placement : Placement δ) :
    placement.slot.stop = placement.base + Peripheral.size placement.device := by
  simp [slot]

/-- A block that ends within the address space holds the addresses that its slot covers. -/
theorem holds_iff_covers {address : UInt32}
    (room : placement.base.toNat + (Peripheral.size placement.device).toNat < UInt32.size) :
    placement.Holds address ↔ placement.slot.covers address := by
  rw [Slot.covers_iff, slot_start, slot_stop, UInt32.le_iff_toNat_le, UInt32.lt_iff_toNat_lt,
    UInt32.toNat_add, Nat.mod_eq_of_lt room]
  rfl

end Placement

namespace Bus
variable {δ : Type} [Peripheral δ]

def request (bus : Bus δ) : Request δ → Bus δ
  | .mount base device => (mount base device bus).state
  | .access a => bus.access a

def serve (bus : Bus δ) (requests : List (Request δ)) : Bus δ := requests.foldl request bus

/-- The placements that a bus accepts, in the order of the requests. -/
def accepted (bus : Bus δ) : List (Request δ) → List (Placement δ)
  | [] => []
  | .access a :: rest => accepted (bus.access a) rest
  | .mount base device :: rest =>
    let mounted := mount base device bus
    match mounted.value with
    | .ok () => ⟨base, device, Request.accesses rest⟩ :: accepted mounted.state rest
    | .error _ => accepted mounted.state rest

theorem accepted_of_rejected {bus : Bus δ} {base : UInt32} {device : δ}
    (rejected : (mount base device bus).value ≠ .ok ()) (rest : List (Request δ)) :
    bus.accepted (.mount base device :: rest) = (mount base device bus).state.accepted rest := by
  cases result : (mount base device bus).value with
  | ok => exact (rejected result).elim
  | error e => simp [accepted, result]

theorem accepted_of_mounted {bus : Bus δ} {base : UInt32} {device : δ}
    (mounted : (mount base device bus).value = .ok ()) (rest : List (Request δ)) :
    bus.accepted (.mount base device :: rest) =
      ⟨base, device, Request.accesses rest⟩ :: (mount base device bus).state.accepted rest := by
  simp [accepted, mounted]

/-- The slots of a bus are those that it had, after all the accesses, and those of the placements
that it accepted. -/
theorem serve_slots {bus : Bus δ} (ordered : Slot.Ordered bus.slots) {requests : List (Request δ)}
    (sized : ∀ r ∈ requests, r.Sized) :
    Slot.Ordered (bus.serve requests).slots ∧
    (bus.serve requests).slots.Perm (bus.slots.map (·.replay (Request.accesses requests)) ++
      (bus.accepted requests).map Placement.slot) := by
  induction requests generalizing bus with
  | nil => exact ⟨ordered, by simp [serve, accepted, Request.accesses, Slot.replay]⟩
  | cons request rest ih =>
    have sizedRest : ∀ r ∈ rest, r.Sized := fun r member => sized r (List.mem_cons_of_mem _ member)
    cases request with
    | access a =>
      obtain ⟨kept, perm⟩ := ih (ordered_access ordered a) sizedRest
      refine ⟨kept, ?_⟩
      rw [access_slots ordered, List.map_map] at perm
      exact perm
    | mount base device =>
      have positive : Peripheral.size device ≠ 0 := sized _ List.mem_cons_self
      obtain ⟨kept, perm⟩ := ih (ordered_mount ordered positive) sizedRest
      refine ⟨kept, ?_⟩
      rcases mount_slots base device bus with ⟨rejected, same⟩ | ⟨mounted, _, _, added⟩
      · rw [accepted_of_rejected rejected, same]
        rw [same] at perm
        exact (congrArg (serve · rest) same ▸ perm :)
      · rw [accepted_of_mounted mounted, List.map_cons]
        -- the new slot stands among the old ones, its placement in front of the later ones
        have joined := List.perm_insertIdx
          (⟨base, base + Peripheral.size device, device⟩ : Slot δ) bus.slots
          (Slot.countBelow_le_length bus.slots base)
        rw [← added] at joined
        have moved := (joined.map (·.replay (Request.accesses rest))).append_right
          ((accepted (mount base device bus).state rest).map Placement.slot)
        exact (perm.trans moved).trans List.perm_middle.symm

/-- A placement is accepted only where the block ends within the address space. -/
theorem room_of_mem_accepted {bus : Bus δ} {requests : List (Request δ)} {placement : Placement δ}
    (member : placement ∈ bus.accepted requests) :
    placement.base.toNat + (Peripheral.size placement.device).toNat < UInt32.size := by
  induction requests generalizing bus with
  | nil => cases member
  | cons request rest ih =>
    cases request with
    | access a => exact ih member
    | mount base device =>
      rcases mount_slots base device bus with ⟨rejected, _⟩ | ⟨mounted, room, _⟩
      · rw [accepted_of_rejected rejected] at member
        exact ih member
      · rw [accepted_of_mounted mounted] at member
        rcases List.mem_cons.mp member with rfl | later
        · exact room
        · exact ih later

/-- An access at an address is an access to one block, at the offset from its base, and leaves
everything else on the bus as it is. -/
def Reaches (bus : Bus δ) (placement : Placement δ) (address : UInt32) : Prop :=
  let offset := address - placement.base
  let slot := placement.slot
  offset.toNat = address.toNat - placement.base.toNat ∧ offset < Peripheral.size placement.device ∧
  ∃ before after, bus.slots = before ++ slot :: after ∧
    (read address bus).value = (Peripheral.read offset slot.device).value ∧
    (read address bus).state.slots =
      before ++ { slot with device := (Peripheral.read offset slot.device).state } :: after ∧
    ∀ value,
      (write address value bus).value = (Peripheral.write offset value slot.device).value ∧
      (write address value bus).state.slots =
        before ++ { slot with device := (Peripheral.write offset value slot.device).state } :: after

def Misses (bus : Bus δ) (address : UInt32) : Prop :=
  (read address bus).value = 0 ∧ (read address bus).state = bus ∧
  ∀ value, (write address value bus).value = .error (.unmapped address) ∧
    (write address value bus).state = bus

theorem reaches_of_mem {bus : Bus δ} (ordered : Slot.Ordered bus.slots) {placement : Placement δ}
    {address : UInt32} (member : placement.slot ∈ bus.slots) (holds : placement.Holds address)
    (covered : placement.slot.covers address) : bus.Reaches placement address := by
  obtain ⟨i, routed⟩ := route?_of_mem ordered member covered
  obtain ⟨bound, atI⟩ :=
    List.getElem?_eq_some_iff.mp ((route?_eq_some_iff ordered).mp routed).1
  obtain ⟨starts, ends⟩ := holds
  have offset : (address - placement.base).toNat = address.toNat - placement.base.toNat :=
    UInt32.toNat_sub_of_le _ _ (UInt32.le_iff_toNat_le.mpr starts)
  have split (slot : Slot δ) :
      bus.slots.set i slot = bus.slots.take i ++ slot :: bus.slots.drop (i + 1) := by
    simp [List.set_eq_take_append_cons_drop, bound]
  refine ⟨offset, UInt32.lt_iff_toNat_lt.mpr (by omega), bus.slots.take i, bus.slots.drop (i + 1),
    ?_, ?_, ?_, ?_⟩
  · rw [← split, ← atI, List.set_getElem_self]
  · simp [read_apply, routed]
  · simp [read_apply, routed, split]
  · intro value
    simp [write_apply, routed, split]

theorem misses_of_uncovered {bus : Bus δ} (ordered : Slot.Ordered bus.slots) {address : UInt32}
    (uncovered : ∀ slot ∈ bus.slots, ¬slot.covers address) : bus.Misses address := by
  have unrouted := (route?_eq_none_iff ordered).mpr uncovered
  simp [Misses, read_apply, write_apply, unrouted]

/-- What a bus holds, and where accesses go, told by the placements that it accepted. -/
structure Serves (bus : Bus δ) (placed : List (Placement δ)) : Prop where
  slots : bus.slots.Perm (placed.map Placement.slot)
  increasing : Slot.Increasing bus.slots
  ordered : Slot.Ordered bus.slots
  extent : ∀ p ∈ placed, p.slot.start = p.base ∧
    p.slot.stop.toNat = p.base.toNat + (Peripheral.size p.device).toNat
  rejects : ∀ base device, (mount base device bus).value ≠ .ok () → (mount base device bus).state = bus
  single : ∀ address, placed.countP (·.Holds address) ≤ 1
  reaches : ∀ address p, placed.find? (·.Holds address) = some p → bus.Reaches p address
  misses : ∀ address, placed.find? (·.Holds address) = none → bus.Misses address

/-- After any requests from power-on the slots are the placements that were accepted, in order and
apart, and an access goes where a look at every placement finds the address. -/
theorem serve_routes (requests : List (Request δ)) (sized : ∀ r ∈ requests, r.Sized) :
    (empty.serve requests).Serves (empty.accepted requests) := by
  have start : Slot.Ordered (empty : Bus δ).slots := ⟨by simp [empty], by simp [empty]⟩
  obtain ⟨ordered, perm⟩ := serve_slots start sized
  rw [show (empty : Bus δ).slots = [] from rfl, List.map_nil, List.nil_append] at perm
  have covers (address : UInt32) : ∀ p ∈ empty.accepted requests,
      (p.Holds address ↔ p.slot.covers address) := fun p member =>
    Placement.holds_iff_covers (room_of_mem_accepted member)
  refine ⟨perm, ordered.increasing, ordered, ?_, ?_, ?_, ?_, ?_⟩
  · intro p member
    have room := room_of_mem_accepted member
    simp [UInt32.toNat_add, Nat.mod_eq_of_lt room]
  · intro base device rejected
    rcases mount_slots base device (empty.serve requests) with ⟨_, same⟩ | ⟨mounted, _⟩
    · exact same
    · exact (rejected mounted).elim
  · intro address
    have once := ordered.countP_covers address
    rw [perm.countP_eq, List.countP_map] at once
    rw [List.countP_congr fun p member => ?_]
    · exact once
    · simpa using covers address p member
  · intro address p found
    have member := List.mem_of_find?_eq_some found
    have holds : p.Holds address := by simpa using List.find?_some found
    exact reaches_of_mem ordered (perm.mem_iff.mpr (List.mem_map_of_mem member)) holds
      ((covers address p member).mp holds)
  · intro address missing
    apply misses_of_uncovered ordered
    intro slot member covered
    obtain ⟨p, placed, rfl⟩ := List.mem_map.mp (perm.mem_iff.mp member)
    have absent := List.find?_eq_none.mp missing p placed
    exact absent (by simpa using (covers address p placed).mpr covered)

/-- The second of three mounts overlaps the first; the third goes below it. -/
theorem serve_routes_threeMounts :
    let block := Block.new 4 none
    let requests : List (Request Block) :=
      [.mount 0x1000 block, .mount 0x1010 block, .access (.write 0x1000 7), .mount 0 block]
    (∀ r ∈ requests, r.Sized) ∧ (empty.accepted requests).map (·.base) = [0x1000, 0] ∧
      (empty.serve requests).Serves (empty.accepted requests) := by
  intro block requests
  have sized : ∀ r ∈ requests, r.Sized := by
    simp [requests, Request.Sized, block, Peripheral.size]
  exact ⟨sized, by decide +kernel, serve_routes requests sized⟩

end Bus
end FabricLoader
