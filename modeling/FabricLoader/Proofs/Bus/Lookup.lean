import FabricLoader.Proofs.Bus.Ordered

/-! Look-ups in any slots by increasing start. Slots may overlap, hold no address or end before they
begin; the search still answers with the last slot that starts at the address or below it, if that
slot reaches the address, and with nothing otherwise. -/
namespace FabricLoader.Slot
variable {δ : Type} {slots : List (Slot δ)} {slot : Slot δ} {address : UInt32} {i : Nat}

def Unshared (slots : List (Slot δ)) : Prop :=
  slots.Pairwise fun a b => ∀ address, ¬(a.covers address ∧ b.covers address)

/-- The slot at one place covers the address, and those at other places do not. -/
def OnlyAt (slots : List (Slot δ)) (address : UInt32) (i : Nat) : Prop :=
  ∀ j, (∃ slot, slots[j]? = some slot ∧ slot.covers address) ↔ j = i

theorem Unshared.unique (unshared : Unshared slots) {a b : Slot δ} {j : Nat} (ha : slots[i]? = some a)
    (hb : slots[j]? = some b) (coversA : a.covers address) (coversB : b.covers address) : i = j := by
  obtain ⟨hi, rfl⟩ := List.getElem?_eq_some_iff.mp ha
  obtain ⟨hj, rfl⟩ := List.getElem?_eq_some_iff.mp hb
  have apart := List.pairwise_iff_getElem.mp unshared
  rcases Nat.lt_trichotomy i j with lt | same | gt
  · exact (apart i j hi hj lt address ⟨coversA, coversB⟩).elim
  · exact same
  · exact (apart j i hj hi gt address ⟨coversB, coversA⟩).elim

theorem find?_eq_none_iff (increasing : Increasing slots) : find? slots address = none ↔
    (∀ slot ∈ slots, address < slot.start) ∨
      ∃ i slot, LastUpTo slots address i slot ∧ slot.stop ≤ address := by
  rcases above_or_last increasing address with ⟨count, above⟩ | ⟨k, slot, last⟩
  · exact iff_of_true (by simp [find?, count]) (.inl above)
  · rw [find?_of_last increasing last]
    by_cases reaches : address < slot.stop
    · refine iff_of_false (by simp [reaches]) ?_
      rintro (above | ⟨i, other, again, ends⟩)
      · have below := UInt32.lt_of_lt_of_le (above slot (List.mem_of_getElem? last.found)) last.starts
        exact UInt32.lt_irrefl _ below
      · obtain ⟨_, rfl⟩ := again.unique increasing last
        exact UInt32.not_le.mpr reaches ends
    · exact iff_of_true (if_neg reaches) (.inr ⟨k, slot, last, UInt32.not_lt.mp reaches⟩)

theorem Unshared.onlyAt (unshared : Unshared slots) (increasing : Increasing slots)
    (found : find? slots address = some i) : OnlyAt slots address i := by
  obtain ⟨slot, last, reaches⟩ := (find?_eq_some_iff increasing).mp found
  have covers : slot.covers address := covers_iff.mpr ⟨last.starts, reaches⟩
  intro j
  constructor
  · rintro ⟨other, atJ, again⟩
    exact unshared.unique atJ last.found again covers
  · rintro rfl
    exact ⟨slot, last.found, covers⟩

/-- Where every slot holds its own start, none that starts up to the address can hide the one that
covers it. -/
theorem Unshared.find?_eq_some (unshared : Unshared slots) (increasing : Increasing slots)
    (inhabited : ∀ slot ∈ slots, slot.start < slot.stop) (atI : slots[i]? = some slot)
    (covers : slot.covers address) : find? slots address = some i := by
  obtain ⟨starts, ends⟩ := covers_iff.mp covers
  refine (find?_eq_some_iff increasing).mpr ⟨slot, ⟨atI, starts, fun j other lt atJ => ?_⟩, ends⟩
  by_contra below
  have startsOther : other.start ≤ address := UInt32.not_lt.mp below
  have held : other.covers other.start :=
    covers_iff.mpr ⟨UInt32.le_refl _, inhabited other (List.mem_of_getElem? atJ)⟩
  have shared : slot.covers other.start := covers_iff.mpr
    ⟨increasing.start_le atI atJ (Nat.le_of_lt lt), UInt32.lt_of_le_of_lt startsOther ends⟩
  exact absurd (unshared.unique atI atJ shared held) (Nat.ne_of_lt lt)

/-- What a search for an address among the starts may answer: the place of a slot that starts there
or, where none does, how many slots start below. -/
inductive Answers (slots : List (Slot δ)) (address : UInt32) : Except Nat Nat → Prop
  | hit {i : Nat} {slot : Slot δ} (found : slots[i]? = some slot) (same : slot.start = address) :
      Answers slots address (.ok i)
  | between {k : Nat} (bound : k ≤ slots.length)
      (below : ∀ (j : Nat) other, j < k → slots[j]? = some other → other.start < address)
      (above : ∀ (j : Nat) other, k ≤ j → slots[j]? = some other → address < other.start) :
      Answers slots address (.error k)

/-- The slot to look at after an answer: the one hit, or the one below the gap. -/
def candidate? : Except Nat Nat → Option Nat
  | .ok i => some i
  | .error 0 => none
  | .error (k + 1) => some k

/-- Any search by start leads to the same slot. -/
theorem find?_of_answer (increasing : Increasing slots) {answer : Except Nat Nat}
    (answers : Answers slots address answer) : find? slots address =
      (candidate? answer).filter fun i => slots[i]?.any (address < ·.stop) := by
  cases answers with
  | @hit i slot found same =>
    have last : LastUpTo slots address i slot := by
      refine ⟨found, same ▸ UInt32.le_refl _, fun j other lt atJ => ?_⟩
      obtain ⟨hi, rfl⟩ := List.getElem?_eq_some_iff.mp found
      obtain ⟨hj, rfl⟩ := List.getElem?_eq_some_iff.mp atJ
      exact same ▸ List.pairwise_iff_getElem.mp increasing i j hi hj lt
    simp [find?_of_last increasing last, candidate?, Option.filter, found]
  | @between k bound below above =>
    cases k with
    | zero =>
      refine (find?_eq_none_iff increasing).mpr (.inl fun slot member => ?_)
      obtain ⟨j, atJ⟩ := List.mem_iff_getElem?.mp member
      exact above j slot (Nat.zero_le j) atJ
    | succ k =>
      have atK := List.getElem?_eq_getElem (show k < slots.length by omega)
      have last : LastUpTo slots address k slots[k] :=
        ⟨atK, UInt32.le_of_lt (below k _ (Nat.lt_succ_self k) atK), above⟩
      simp [find?_of_last increasing last, candidate?, Option.filter, atK]

/-- The search answers with a slot if and only if that is the last one that starts at the address or
below it and it ends above the address; a search that tells a hit from a gap leads there as well.
Where no address lies in two slots, the slot is the only one that covers the address, and where
moreover no slot is empty, the one that covers the address is found. -/
theorem find?_exact (increasing : Increasing slots) (address : UInt32) :
    (∀ i, find? slots address = some i ↔
      ∃ slot, LastUpTo slots address i slot ∧ address < slot.stop) ∧
    (find? slots address = none ↔ (∀ slot ∈ slots, address < slot.start) ∨
      ∃ i slot, LastUpTo slots address i slot ∧ slot.stop ≤ address) ∧
    (∀ answer, Answers slots address answer → find? slots address =
      (candidate? answer).filter fun i => slots[i]?.any (address < ·.stop)) ∧
    (Unshared slots → (∀ i, find? slots address = some i → OnlyAt slots address i) ∧
      ((∀ slot ∈ slots, slot.start < slot.stop) →
        ∀ i, find? slots address = some i ↔ OnlyAt slots address i)) := by
  refine ⟨fun i => find?_eq_some_iff increasing, find?_eq_none_iff increasing,
    fun answer => find?_of_answer increasing, fun unshared => ?_⟩
  have only (i : Nat) : find? slots address = some i → OnlyAt slots address i :=
    unshared.onlyAt increasing
  refine ⟨only, fun inhabited i => ⟨only i, fun single => ?_⟩⟩
  obtain ⟨slot, atI, covers⟩ := (single i).mpr rfl
  exact unshared.find?_eq_some increasing inhabited atI covers

/-- Three slots apart, of which the first two touch. -/
theorem find?_exact_touching :
    let slots : List (Slot Unit) := [⟨0x10, 0x20, ()⟩, ⟨0x20, 0x40, ()⟩, ⟨0x80, 0x90, ()⟩]
    Increasing slots ∧ Unshared slots ∧ (∀ slot ∈ slots, slot.start < slot.stop) ∧
      OnlyAt slots 0x20 1 ∧ find? slots 0x20 = some 1 ∧
      (∃ i slot, LastUpTo slots 0x40 i slot ∧ slot.stop ≤ 0x40) := by
  intro slots
  have increasing : Increasing slots := by
    unfold Increasing
    decide
  have ordered : slots.Pairwise fun a b => a.stop ≤ b.start := by decide
  have unshared : Unshared slots := ordered.imp fun ends address => by
    rintro ⟨first, second⟩
    have below := UInt32.lt_of_lt_of_le (covers_iff.mp first).2 ends
    exact UInt32.lt_irrefl _ (UInt32.lt_of_lt_of_le below (covers_iff.mp second).1)
  have inhabited : ∀ slot ∈ slots, slot.start < slot.stop := by decide
  have found : find? slots 0x20 = some 1 := by decide +kernel
  have missed : find? slots 0x40 = none := by decide +kernel
  have only := ((find?_exact increasing 0x20).2.2.2 unshared).1 1 found
  rcases (find?_exact increasing 0x40).2.1.mp missed with above | last
  · exact absurd (above ⟨0x10, 0x20, ()⟩ (by decide)) (by decide)
  · exact ⟨increasing, unshared, inhabited, only, found, last⟩

/-- An empty slot hides the end of the one in which it starts. -/
example : find? [(⟨0, 10, ()⟩ : Slot Unit), ⟨5, 5, ()⟩] 7 = none := by decide +kernel

end FabricLoader.Slot
