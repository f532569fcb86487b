import FabricLoader.Proofs.Bus.Ordered

/-! Accesses to the bus, slot by slot. On a bus in order an access acts on every slot by itself: a
reset on each of them, a read or a write on the one that covers the address. The slots keep their
places, so this holds again after any number of accesses; and a slot that was mounted stays. -/
namespace FabricLoader

namespace Slot
variable {δ : Type} [Peripheral δ]

/-- What an access to the bus does to one slot. -/
def access (slot : Slot δ) : Access → Slot δ
  | .reset => { slot with device := (Peripheral.reset slot.device).state }
  | .read address =>
    if slot.covers address then
      { slot with device := (Peripheral.read (address - slot.start) slot.device).state }
    else slot
  | .write address value =>
    if slot.covers address then
      { slot with device := (Peripheral.write (address - slot.start) value slot.device).state }
    else slot

def replay (slot : Slot δ) (accesses : List Access) : Slot δ := accesses.foldl access slot

@[simp] theorem access_start (slot : Slot δ) (a : Access) : (slot.access a).start = slot.start := by
  cases a <;> simp only [access] <;> split <;> rfl

@[simp] theorem access_stop (slot : Slot δ) (a : Access) : (slot.access a).stop = slot.stop := by
  cases a <;> simp only [access] <;> split <;> rfl

@[simp] theorem replay_append (slot : Slot δ) (before after : List Access) :
    slot.replay (before ++ after) = (slot.replay before).replay after := List.foldl_append

theorem Ordered.map_access {slots : List (Slot δ)} (ordered : Ordered slots) (a : Access) :
    Ordered (slots.map (access · a)) := by
  constructor
  · intro slot member
    obtain ⟨before, mounted, rfl⟩ := List.mem_map.mp member
    simpa using ordered.inhabited before mounted
  · rw [List.pairwise_map]
    simpa using ordered.apart

end Slot

namespace Bus
variable {δ : Type} {bus : Bus δ} {slot : Slot δ} {address : UInt32} {i : Nat}

theorem route?_eq_some_iff (ordered : Slot.Ordered bus.slots) :
    bus.route? address = some (i, slot) ↔ bus.slots[i]? = some slot ∧ slot.covers address := by
  constructor
  · intro routed
    obtain ⟨k, found, routed⟩ := Option.bind_eq_some_iff.mp routed
    obtain ⟨s, atK, routed⟩ := Option.bind_eq_some_iff.mp routed
    obtain ⟨rfl, rfl⟩ := Prod.mk.inj (Option.some.inj routed)
    obtain ⟨t, atK', covers⟩ := ordered.find?_eq_some_iff.mp found
    obtain rfl := Option.some.inj (atK.symm.trans atK')
    exact ⟨atK, covers⟩
  · rintro ⟨atI, covers⟩
    have found := ordered.find?_eq_some_iff.mpr ⟨slot, atI, covers⟩
    simp [route?, found, atI]

theorem route?_of_mem (ordered : Slot.Ordered bus.slots) (member : slot ∈ bus.slots)
    (covers : slot.covers address) : ∃ i, bus.route? address = some (i, slot) := by
  obtain ⟨i, atI⟩ := List.mem_iff_getElem?.mp member
  exact ⟨i, (route?_eq_some_iff ordered).mpr ⟨atI, covers⟩⟩

theorem route?_eq_none_iff (ordered : Slot.Ordered bus.slots) :
    bus.route? address = none ↔ ∀ slot ∈ bus.slots, ¬slot.covers address := by
  constructor
  · intro unrouted slot member covers
    obtain ⟨i, routed⟩ := route?_of_mem ordered member covers
    simp [unrouted] at routed
  · intro uncovered
    by_contra routed
    obtain ⟨⟨i, slot⟩, routed⟩ := Option.ne_none_iff_exists'.mp routed
    obtain ⟨atI, covers⟩ := (route?_eq_some_iff ordered).mp routed
    exact uncovered slot (List.mem_of_getElem? atI) covers

/-- The list with one member replaced, where the others are left as they are. -/
private theorem map_eq_set {slots : List (Slot δ)} {f : Slot δ → Slot δ} (atI : slots[i]? = some slot)
    (others : ∀ j other, slots[j]? = some other → j ≠ i → f other = other) :
    slots.map f = slots.set i (f slot) := by
  apply List.ext_getElem?
  intro j
  by_cases same : i = j
  · subst same
    have bound := (List.getElem?_eq_some_iff.mp atI).1
    simp [atI, List.getElem?_set_self bound]
  · rw [List.getElem?_set_ne same, List.getElem?_map]
    cases atJ : slots[j]? with
    | none => rfl
    | some other => simp [others j other atJ (Ne.symm same)]

private theorem map_eq_of_routed (ordered : Slot.Ordered bus.slots)
    (routed : bus.route? address = some (i, slot)) {f : Slot δ → Slot δ}
    (outside : ∀ other : Slot δ, ¬other.covers address → f other = other) :
    bus.slots.map f = bus.slots.set i (f slot) := by
  obtain ⟨atI, covers⟩ := (route?_eq_some_iff ordered).mp routed
  refine map_eq_set atI ?_
  intro j other atJ different
  exact outside other fun c => different (ordered.covers_unique atJ atI c covers)

private theorem map_eq_of_unrouted (ordered : Slot.Ordered bus.slots)
    (unrouted : bus.route? address = none) {f : Slot δ → Slot δ}
    (outside : ∀ other : Slot δ, ¬other.covers address → f other = other) :
    bus.slots.map f = bus.slots := by
  have uncovered := (route?_eq_none_iff ordered).mp unrouted
  exact (List.map_congr_left fun s member => outside s (uncovered s member)).trans (List.map_id _)

variable [Peripheral δ]

theorem write_apply (address value : UInt32) (bus : Bus δ) :
    write address value bus =
      let issued := [.access (.write address value),
        .line ⟨.trace, s!"write: {bus.describe address} value={Text.hexWord value}"⟩]
      match bus.route? address with
      | some (i, slot) =>
        let taken := Peripheral.write (address - slot.start) value slot.device
        ⟨taken.value, ⟨bus.slots.set i { slot with device := taken.state }⟩,
          issued ++ taken.events.map .line⟩
      | none => ⟨.error (.unmapped address), bus, issued ++
          [.line ⟨.warn, s!"write to unmapped addr={Text.hexWord address} value={Text.hexWord value}"⟩]⟩ := by
  simp only [write, Action.log, Action.bind_apply, Action.emit_apply, Action.state_apply]
  cases bus.route? address <;> rfl

theorem read_apply (address : UInt32) (bus : Bus δ) :
    read address bus =
      let issued := [.access (.read address), .line ⟨.trace, s!"read:  {bus.describe address}"⟩]
      match bus.route? address with
      | some (i, slot) =>
        let taken := Peripheral.read (address - slot.start) slot.device
        ⟨taken.value, ⟨bus.slots.set i { slot with device := taken.state }⟩,
          issued ++ taken.events.map .line⟩
      | none => ⟨0, bus, issued ++
          [.line ⟨.warn, s!"read of unmapped addr={Text.hexWord address}"⟩]⟩ := by
  simp only [read, Action.log, Action.bind_apply, Action.emit_apply, Action.state_apply]
  cases bus.route? address <;> rfl

private theorem each_resetSlot (slots : List (Slot δ)) :
    (resetSlot.each slots).state = slots.map (·.access .reset) := by
  induction slots with
  | nil => rfl
  | cons slot rest ih => exact congrArg _ ih

/-- An access acts on every slot by itself. -/
theorem access_slots (ordered : Slot.Ordered bus.slots) (a : Access) :
    (bus.access a).slots = bus.slots.map (·.access a) := by
  cases a with
  | reset => exact each_resetSlot bus.slots
  | read address =>
    have outside (other : Slot δ) (h : ¬other.covers address) : other.access (.read address) = other := by
      simp [Slot.access, h]
    simp only [access, read_apply]
    cases routed : bus.route? address with
    | none => exact (map_eq_of_unrouted ordered routed outside).symm
    | some found =>
      have covers := ((route?_eq_some_iff ordered).mp routed).2
      rw [map_eq_of_routed ordered routed outside]
      simp [Slot.access, covers]
  | write address value =>
    have outside (other : Slot δ) (h : ¬other.covers address) :
        other.access (.write address value) = other := by
      simp [Slot.access, h]
    simp only [access, write_apply]
    cases routed : bus.route? address with
    | none => exact (map_eq_of_unrouted ordered routed outside).symm
    | some found =>
      have covers := ((route?_eq_some_iff ordered).mp routed).2
      rw [map_eq_of_routed ordered routed outside]
      simp [Slot.access, covers]

theorem ordered_access (ordered : Slot.Ordered bus.slots) (a : Access) :
    Slot.Ordered (bus.access a).slots := by
  rw [access_slots ordered]
  exact ordered.map_access a

@[simp] theorem replay_nil (bus : Bus δ) : bus.replay [] = bus := rfl

@[simp] theorem replay_cons (bus : Bus δ) (a : Access) (rest : List Access) :
    bus.replay (a :: rest) = (bus.access a).replay rest := rfl

@[simp] theorem replay_append (bus : Bus δ) (before after : List Access) :
    bus.replay (before ++ after) = (bus.replay before).replay after := List.foldl_append

theorem replay_slots (ordered : Slot.Ordered bus.slots) (accesses : List Access) :
    (bus.replay accesses).slots = bus.slots.map (·.replay accesses) := by
  induction accesses generalizing bus with
  | nil => simp [Slot.replay]
  | cons a rest ih =>
    rw [replay_cons, ih (ordered_access ordered a), access_slots ordered, List.map_map]
    rfl

theorem ordered_replay (ordered : Slot.Ordered bus.slots) (accesses : List Access) :
    Slot.Ordered (bus.replay accesses).slots := by
  induction accesses generalizing bus with
  | nil => exact ordered
  | cons a rest ih => exact ih (ordered_access ordered a)

theorem write_value (ordered : Slot.Ordered bus.slots) (member : slot ∈ bus.slots)
    (covers : slot.covers address) (value : UInt32) :
    (write address value bus).value =
      (Peripheral.write (address - slot.start) value slot.device).value := by
  obtain ⟨i, routed⟩ := route?_of_mem ordered member covers
  simp [write_apply, routed]

theorem read_value (ordered : Slot.Ordered bus.slots) (member : slot ∈ bus.slots)
    (covers : slot.covers address) :
    (read address bus).value = (Peripheral.read (address - slot.start) slot.device).value := by
  obtain ⟨i, routed⟩ := route?_of_mem ordered member covers
  simp [read_apply, routed]

/-- Every write among the accesses is accepted when they are made one after another. -/
def Accepts (bus : Bus δ) : List Access → Prop
  | [] => True
  | .write address value :: rest =>
    (write address value bus).value = .ok () ∧ (bus.access (.write address value)).Accepts rest
  | a :: rest => (bus.access a).Accepts rest

theorem accepts_append (before after : List Access) :
    bus.Accepts (before ++ after) ↔ bus.Accepts before ∧ (bus.replay before).Accepts after := by
  induction before generalizing bus with
  | nil => simp [Accepts]
  | cons a rest ih => cases a <;> simp [Accepts, ih, and_assoc]

/-- Mounting either leaves the bus as it is or adds the new slot between its neighbours. -/
theorem mount_slots (base : UInt32) (device : δ) (bus : Bus δ) :
    (mount base device bus).value ≠ .ok () ∧ (mount base device bus).state = bus ∨
      (mount base device bus).value = .ok () ∧
      base.toNat + (Peripheral.size device).toNat < UInt32.size ∧
      conflict? bus.slots ⟨base, base + Peripheral.size device, device⟩ = none ∧
      (mount base device bus).state.slots = bus.slots.insertIdx (Slot.countBelow bus.slots base)
        ⟨base, base + Peripheral.size device, device⟩ := by
  by_cases outside : base.toNat + (Peripheral.size device).toNat ≥ UInt32.size
  · exact .inl (by simp [mount, outside])
  · cases conflict : conflict? bus.slots ⟨base, base + Peripheral.size device, device⟩ with
    | some e => exact .inl (by simp [mount, outside, Action.log, conflict])
    | none =>
      exact .inr ⟨by simp [mount, outside, Action.log, conflict], by omega, rfl,
        by simp [mount, outside, Action.log, conflict]⟩

theorem mount_outside {base : UInt32} {device : δ}
    (outside : UInt32.size ≤ base.toNat + (Peripheral.size device).toNat) (bus : Bus δ) :
    mount base device bus = ⟨.error (.outOfSpace (Peripheral.name device) base), bus, []⟩ := by
  simp [mount, outside]

theorem mount_empty {base : UInt32} {device : δ}
    (room : base.toNat + (Peripheral.size device).toNat < UInt32.size) :
    mount base device empty = ⟨.ok (), ⟨[⟨base, base + Peripheral.size device, device⟩]⟩,
      [.line ⟨.debug,
        s!"Peripheral base={Text.hexWord base} name={Peripheral.name device}"⟩]⟩ := by
  have first (address : UInt32) : Slot.countBelow ([] : List (Slot δ)) address = 0 :=
    Nat.le_zero.mp (Slot.countBelow_le_length _ _)
  simp [mount, Nat.not_le.mpr room, Action.log, conflict?, empty, first]

/-- A device that claims at least one address joins the others in order. -/
theorem ordered_mount (ordered : Slot.Ordered bus.slots) {base : UInt32} {device : δ}
    (sized : Peripheral.size device ≠ 0) : Slot.Ordered (mount base device bus).state.slots := by
  rcases mount_slots base device bus with ⟨_, same⟩ | ⟨_, room, free, added⟩
  · rw [same]
    exact ordered
  · rw [added]
    refine ordered_insert ordered ?_ free
    have positive : (Peripheral.size device).toNat ≠ 0 := fun zero => sized (UInt32.toNat_inj.mp zero)
    change base < base + Peripheral.size device
    rw [UInt32.lt_iff_toNat_lt, UInt32.toNat_add, Nat.mod_eq_of_lt room]
    omega

theorem mem_mount (member : slot ∈ bus.slots) (base : UInt32) (device : δ) :
    slot ∈ (mount base device bus).state.slots := by
  rcases mount_slots base device bus with ⟨_, same⟩ | ⟨_, _, _, added⟩
  · rw [same]
    exact member
  · rw [added]
    exact List.subset_insertIdx _ _ _ member

end Bus
end FabricLoader
