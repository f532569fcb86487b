import FabricLoader.Proofs.Bus.Placement

/-! Which mounts a bus accepts. The bus looks at the two neighbours of a new block only, and on a bus
in order that is enough: a block is turned away exactly when it shares an address with one that is
mounted, or when the address after its last one is no word. The second test is one address too
strict, so a block that ends with the address space is turned away as well. -/
namespace FabricLoader

namespace Slot
variable {δ : Type} {slots : List (Slot δ)} {a b : Slot δ}

/-- One of two slots ends before the other begins. -/
def Apart (a b : Slot δ) : Prop := a.stop ≤ b.start ∨ b.stop ≤ a.start

theorem Apart.symm (apart : a.Apart b) : b.Apart a := Or.symm apart

theorem ordered_nil : Ordered ([] : List (Slot δ)) := ⟨by simp, .nil⟩

theorem Ordered.pairwise_apart (ordered : Ordered slots) : slots.Pairwise Apart :=
  ordered.apart.imp .inl

theorem apart_iff (inhabitedA : a.start < a.stop) (inhabitedB : b.start < b.stop) :
    a.Apart b ↔ ∀ address, ¬(a.covers address ∧ b.covers address) := by
  constructor
  · rintro apart address ⟨inA, inB⟩
    obtain ⟨startA, stopA⟩ := covers_iff.mp inA
    obtain ⟨startB, stopB⟩ := covers_iff.mp inB
    rcases apart with before | after
    · exact UInt32.lt_irrefl _ (UInt32.lt_of_lt_of_le stopA (UInt32.le_trans before startB))
    · exact UInt32.lt_irrefl _ (UInt32.lt_of_lt_of_le stopB (UInt32.le_trans after startA))
  · intro separate
    by_contra overlap
    obtain ⟨reachesB, reachesA⟩ := not_or.mp overlap
    rw [UInt32.not_le] at reachesB reachesA
    -- whichever slot begins later, its first address lies in both
    rcases UInt32.le_total a.start b.start with first | first
    · exact separate b.start
        ⟨covers_iff.mpr ⟨first, reachesB⟩, covers_iff.mpr ⟨UInt32.le_refl _, inhabitedB⟩⟩
    · exact separate a.start
        ⟨covers_iff.mpr ⟨UInt32.le_refl _, inhabitedA⟩, covers_iff.mpr ⟨first, reachesA⟩⟩

variable [Peripheral δ]

def fresh (base : UInt32) (device : δ) : Slot δ := ⟨base, base + Peripheral.size device, device⟩

theorem fresh_inhabited {base : UInt32} {device : δ} (nonzero : Peripheral.size device ≠ 0)
    (room : base.toNat + (Peripheral.size device).toNat < UInt32.size) :
    (fresh base device).start < (fresh base device).stop := by
  have positive : (Peripheral.size device).toNat ≠ 0 := fun zero => nonzero (UInt32.toNat_inj.mp zero)
  change base < base + Peripheral.size device
  rw [UInt32.lt_iff_toNat_lt, UInt32.toNat_add, Nat.mod_eq_of_lt room]
  omega

end Slot

namespace Bus
variable {δ : Type} [Peripheral δ] {bus : Bus δ} {slots : List (Slot δ)} {slot : Slot δ}
  {base : UInt32} {device : δ}

theorem conflict?_of_neighbours
    (below : ∀ i lower, Slot.countBelow slots slot.start = i + 1 → slots[i]? = some lower →
      lower.stop ≤ slot.start)
    (above : ∀ upper, slots[Slot.countBelow slots slot.start]? = some upper →
      slot.stop ≤ upper.start) : conflict? slots slot = none := by
  have noUpper : slots[Slot.countBelow slots slot.start]?.filter (·.start < slot.stop) = none := by
    cases atCount : slots[Slot.countBelow slots slot.start]? with
    | none => rfl
    | some upper => simpa using above upper atCount
  cases count : Slot.countBelow slots slot.start with
  | zero =>
    rw [count] at noUpper
    simp [conflict?, count, noUpper]
  | succ i =>
    have noLower : slots[i]?.filter (slot.start < ·.stop) = none := by
      cases atI : slots[i]? with
      | none => rfl
      | some lower => simpa using below i lower count atI
    rw [count] at noUpper
    simp [conflict?, count, noUpper, noLower]

/-- In order, a slot that is apart from its two neighbours is apart from all. -/
theorem conflict?_eq_none_iff (ordered : Slot.Ordered slots) (inhabited : slot.start < slot.stop) :
    conflict? slots slot = none ↔ ∀ other ∈ slots, slot.Apart other := by
  constructor
  · intro free
    have joined := (ordered_insert ordered inhabited free).pairwise_apart
    have perm := List.perm_insertIdx slot slots (Slot.countBelow_le_length slots slot.start)
    exact (List.pairwise_cons.mp ((perm.pairwise_iff Slot.Apart.symm).mp joined)).1
  · intro apart
    apply conflict?_of_neighbours
    · intro i lower count atI
      have starts : lower.start < slot.start :=
        (Slot.lt_countBelow_iff ordered.increasing atI).mp (by omega)
      rcases apart lower (List.mem_of_getElem? atI) with before | after
      · have backwards := UInt32.lt_trans starts (UInt32.lt_of_lt_of_le inhabited before)
        exact absurd backwards (UInt32.lt_irrefl _)
      · exact after
    · intro upper atCount
      have starts : slot.start ≤ upper.start := UInt32.not_lt.mp fun below =>
        Nat.lt_irrefl _ ((Slot.lt_countBelow_iff ordered.increasing atCount).mpr below)
      rcases apart upper (List.mem_of_getElem? atCount) with before | after
      · exact before
      · have inside := ordered.inhabited upper (List.mem_of_getElem? atCount)
        have backwards := UInt32.lt_of_lt_of_le inside (UInt32.le_trans after starts)
        exact absurd backwards (UInt32.lt_irrefl _)

theorem mount_ok_iff : (mount base device bus).value = .ok () ↔
    base.toNat + (Peripheral.size device).toNat < UInt32.size ∧
      conflict? bus.slots (Slot.fresh base device) = none := by
  rcases mount_slots base device bus with ⟨rejected, same⟩ | ⟨mounted, room, free, _⟩
  · refine iff_of_false rejected ?_
    rintro ⟨room, free⟩
    change conflict? bus.slots ⟨base, base + Peripheral.size device, device⟩ = none at free
    exact rejected (by simp [mount, Nat.not_le.mpr room, Action.log, free])
  · exact iff_of_true mounted ⟨room, free⟩

theorem mount_ok_iff_apart (ordered : Slot.Ordered bus.slots)
    (nonzero : Peripheral.size device ≠ 0) : (mount base device bus).value = .ok () ↔
    base.toNat + (Peripheral.size device).toNat < UInt32.size ∧
      ∀ slot ∈ bus.slots, (Slot.fresh base device).Apart slot :=
  mount_ok_iff.trans
    (and_congr_right fun room => conflict?_eq_none_iff ordered (Slot.fresh_inhabited nonzero room))

/-- After any requests, a device is accepted if and only if its block ends before the last address
and shares no address with a block that is mounted already. -/
theorem mount_exact (requests : List (Request δ)) (sized : ∀ r ∈ requests, r.Sized) (base : UInt32)
    (device : δ) (nonzero : Peripheral.size device ≠ 0) :
    let placement : Placement δ := ⟨base, device, []⟩
    (mount base device (empty.serve requests)).value = .ok () ↔
      base.toNat + (Peripheral.size device).toNat < UInt32.size ∧
      ∀ other ∈ empty.accepted requests, ∀ address,
        ¬(placement.Holds address ∧ other.Holds address) := by
  intro placement
  have start : Slot.Ordered (empty : Bus δ).slots := Slot.ordered_nil
  obtain ⟨ordered, perm⟩ := serve_slots start sized
  change (empty.serve requests).slots.Perm ((empty.accepted requests).map Placement.slot) at perm
  rw [mount_ok_iff_apart ordered nonzero]
  refine and_congr_right fun room => ?_
  have separate (other : Placement δ) (member : other ∈ empty.accepted requests) :
      placement.slot.Apart other.slot ↔
        ∀ address, ¬(placement.Holds address ∧ other.Holds address) := by
    have mounted : other.slot ∈ (empty.serve requests).slots :=
      perm.mem_iff.mpr (List.mem_map_of_mem member)
    refine (Slot.apart_iff (Slot.fresh_inhabited nonzero room)
      (ordered.inhabited _ mounted)).trans ?_
    refine forall_congr' fun address => not_congr (and_congr ?_ ?_)
    · have held : placement.Holds address ↔ placement.slot.covers address :=
        Placement.holds_iff_covers room
      exact held.symm
    · exact (Placement.holds_iff_covers (room_of_mem_accepted member)).symm
  constructor
  · intro apart other member
    exact (separate other member).mp
      (apart _ (perm.mem_iff.mpr (List.mem_map_of_mem member)))
  · intro apart slot member
    obtain ⟨other, accepted, rfl⟩ := List.mem_map.mp (perm.mem_iff.mp member)
    exact (separate other accepted).mpr (apart other accepted)

/-- A block right above one that is mounted. -/
theorem mount_exact_adjacent :
    let block := Block.new 8 none
    let requests : List (Request Block) := [.mount 0x1000 block]
    (∀ r ∈ requests, r.Sized) ∧ Peripheral.size block ≠ 0 ∧
      ((mount 0x1040 block (empty.serve requests)).value = .ok () ↔
        0x1040 + 0x40 < UInt32.size ∧ ∀ other ∈ empty.accepted requests, ∀ address,
          ¬(Placement.Holds ⟨0x1040, block, []⟩ address ∧ other.Holds address)) := by
  intro block requests
  have sized : ∀ r ∈ requests, r.Sized := by
    simp [requests, Request.Sized, block, Peripheral.size]
  have nonzero : Peripheral.size block ≠ 0 := by decide
  exact ⟨sized, nonzero, mount_exact requests sized 0x1040 block nonzero⟩

/-- A block whose last address is the last one of all lies within the address space, and there is
none that it could overlap; it is turned away nevertheless. -/
theorem mount_refused_at_end :
    let block := Block.new 8 none
    let base : UInt32 := 0xFFFFFFC0
    (mount base block empty).value = .error (.outOfSpace "PRISM" base) ∧
      ¬((mount base block (empty.serve [])).value = .ok () ↔
        base.toNat + (Peripheral.size block).toNat ≤ UInt32.size ∧
        ∀ other ∈ empty.accepted ([] : List (Request Block)), ∀ address,
          ¬(Placement.Holds ⟨base, block, []⟩ address ∧ other.Holds address)) := by
  intro block base
  have refused : (mount base block empty).value = .error (.outOfSpace "PRISM" base) :=
    congrArg Outcome.value (mount_outside (by decide) empty)
  refine ⟨refused, fun exact => ?_⟩
  have mounted : (mount base block empty).value = .ok () :=
    exact.mpr ⟨by decide, by simp [accepted]⟩
  exact absurd (refused.symm.trans mounted) (by simp)

end Bus
end FabricLoader
