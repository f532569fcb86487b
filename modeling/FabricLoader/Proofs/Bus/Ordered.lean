import FabricLoader.Bus.Basic
import Mathlib.Data.List.InsertIdx

/-! Slots by increasing address. Both searches over slots count a prefix of the list, so a look-up is a
look at the last slot that starts at the address or below it. Where slots do not reach into one
another, the one that the search names is the only one that covers the address, and a slot that
conflicts with neither neighbour joins the others in order. -/
namespace FabricLoader

namespace Slot
variable {δ : Type} {slots : List (Slot δ)} {slot : Slot δ} {address : UInt32} {i j : Nat}

/-- Starts that increase; nothing is said about where slots end. -/
def Increasing (slots : List (Slot δ)) : Prop := slots.Pairwise fun a b => a.start < b.start

/-- Slots that each hold an address and end before the next one begins. -/
structure Ordered (slots : List (Slot δ)) : Prop where
  inhabited : ∀ slot ∈ slots, slot.start < slot.stop
  apart : slots.Pairwise fun a b => a.stop ≤ b.start

theorem covers_iff : slot.covers address ↔ slot.start ≤ address ∧ address < slot.stop := by
  simp [covers]

theorem ordered_singleton (inhabited : slot.start < slot.stop) : Ordered [slot] :=
  ⟨by simpa using inhabited, List.pairwise_singleton _ _⟩

theorem Ordered.increasing (ordered : Ordered slots) : Increasing slots := by
  refine ordered.apart.imp_of_mem ?_
  intro a b ha _ apart
  exact UInt32.lt_of_lt_of_le (ordered.inhabited a ha) apart

theorem Increasing.start_le (increasing : Increasing slots) {a b : Slot δ}
    (ha : slots[i]? = some a) (hb : slots[j]? = some b) (h : i ≤ j) : a.start ≤ b.start := by
  obtain ⟨hi, rfl⟩ := List.getElem?_eq_some_iff.mp ha
  obtain ⟨hj, rfl⟩ := List.getElem?_eq_some_iff.mp hb
  rcases Nat.eq_or_lt_of_le h with rfl | lt
  · exact UInt32.le_refl _
  · exact UInt32.le_of_lt (List.pairwise_iff_getElem.mp increasing i j hi hj lt)

private theorem lt_bisect_iff (increasing : Increasing slots) {p : UInt32 → Bool}
    (down : ∀ a b, a ≤ b → p b → p a) (h : slots[i]? = some slot) :
    i < bisect (fun k => slots[k]?.any fun s : Slot δ => p s.start) 0 slots.length ↔ p slot.start := by
  have prefixed : ∀ k l : Nat, k ≤ l → (slots[l]?.any fun s : Slot δ => p s.start) = true →
      (slots[k]?.any fun s : Slot δ => p s.start) = true := by
    intro k l le holds
    obtain ⟨b, hb, pb⟩ := (Option.any_eq_true _ _).mp holds
    have kl : k < slots.length := Nat.lt_of_le_of_lt le (List.getElem?_eq_some_iff.mp hb).1
    have ha : slots[k]? = some slots[k] := List.getElem?_eq_getElem kl
    simpa [ha] using down _ _ (increasing.start_le ha hb le) pb
  have inside : i < slots.length := (List.getElem?_eq_some_iff.mp h).1
  constructor
  · intro lt
    simpa [h] using holds_of_lt_bisect prefixed (fun j hj => absurd hj (Nat.not_lt_zero j)) lt
  · intro holds
    by_contra ge
    have fails := fails_of_bisect_le prefixed (Nat.le_of_not_lt ge) inside
    simp [h, holds] at fails

theorem lt_countUpTo_iff (increasing : Increasing slots) (h : slots[i]? = some slot) :
    i < countUpTo slots address ↔ slot.start ≤ address := by
  simpa [countUpTo] using lt_bisect_iff (p := fun a => decide (a ≤ address)) increasing
    (fun a b le holds => by simpa using UInt32.le_trans le (by simpa using holds)) h

theorem lt_countBelow_iff (increasing : Increasing slots) (h : slots[i]? = some slot) :
    i < countBelow slots address ↔ slot.start < address := by
  simpa [countBelow] using lt_bisect_iff (p := fun a => decide (a < address)) increasing
    (fun a b le holds => by simpa using UInt32.lt_of_le_of_lt le (by simpa using holds)) h

theorem countUpTo_le_length (slots : List (Slot δ)) (address : UInt32) :
    countUpTo slots address ≤ slots.length := bisect_le _ (Nat.zero_le _)

theorem countBelow_le_length (slots : List (Slot δ)) (address : UInt32) :
    countBelow slots address ≤ slots.length := bisect_le _ (Nat.zero_le _)

/-- The last of the slots that start at an address or below it, and its place. -/
structure LastUpTo (slots : List (Slot δ)) (address : UInt32) (index : Nat) (slot : Slot δ) : Prop where
  found : slots[index]? = some slot
  starts : slot.start ≤ address
  later : ∀ (j : Nat) other, index < j → slots[j]? = some other → address < other.start

/-- The slots up to an address are counted, and the last of them is the last one counted. -/
theorem LastUpTo.countUpTo (increasing : Increasing slots) (last : LastUpTo slots address i slot) :
    Slot.countUpTo slots address = i + 1 := by
  have counted : i < Slot.countUpTo slots address :=
    (lt_countUpTo_iff increasing last.found).mpr last.starts
  by_contra more
  have inside : i + 1 < slots.length := by
    have := countUpTo_le_length slots address
    omega
  have next : slots[i + 1].start ≤ address := (lt_countUpTo_iff increasing
    (List.getElem?_eq_getElem inside)).mp (by omega)
  have beyond := last.later (i + 1) _ (Nat.lt_succ_self i) (List.getElem?_eq_getElem inside)
  exact absurd (UInt32.lt_of_lt_of_le beyond next) (UInt32.lt_irrefl _)

theorem LastUpTo.unique (increasing : Increasing slots) {other : Slot δ}
    (last : LastUpTo slots address i slot) (again : LastUpTo slots address j other) :
    i = j ∧ slot = other := by
  obtain rfl : i = j := by
    have := last.countUpTo increasing
    have := again.countUpTo increasing
    omega
  exact ⟨rfl, Option.some.inj (last.found.symm.trans again.found)⟩

/-- Every slot starts above the address, or one is the last that does not. -/
theorem above_or_last (increasing : Increasing slots) (address : UInt32) :
    (Slot.countUpTo slots address = 0 ∧ ∀ slot ∈ slots, address < slot.start) ∨
      ∃ i slot, LastUpTo slots address i slot := by
  have beyond (k : Nat) (other : Slot δ) (atK : slots[k]? = some other)
      (uncounted : Slot.countUpTo slots address ≤ k) : address < other.start :=
    UInt32.not_le.mp fun starts =>
      absurd ((lt_countUpTo_iff increasing atK).mpr starts) (Nat.not_lt.mpr uncounted)
  cases count : Slot.countUpTo slots address with
  | zero =>
    refine .inl ⟨rfl, fun slot member => ?_⟩
    obtain ⟨k, atK⟩ := List.mem_iff_getElem?.mp member
    exact beyond k slot atK (by omega)
  | succ i =>
    have inside : i < slots.length := by
      have := countUpTo_le_length slots address
      omega
    have atI := List.getElem?_eq_getElem inside
    have starts := (lt_countUpTo_iff increasing atI).mp (show i < Slot.countUpTo slots address by omega)
    exact .inr ⟨i, slots[i], atI, starts, fun k other lt atK => beyond k other atK (by omega)⟩

/-- The search looks at the last slot up to the address, and at no other. -/
theorem find?_of_last (increasing : Increasing slots) (last : LastUpTo slots address i slot) :
    find? slots address = if address < slot.stop then some i else none := by
  simp [find?, last.countUpTo increasing, last.found]

theorem find?_eq_some_iff (increasing : Increasing slots) : find? slots address = some i ↔
    ∃ slot, LastUpTo slots address i slot ∧ address < slot.stop := by
  rcases above_or_last increasing address with ⟨count, above⟩ | ⟨k, slot, last⟩
  · refine iff_of_false (by simp [find?, count]) ?_
    rintro ⟨slot, last, _⟩
    have below := UInt32.lt_of_lt_of_le (above slot (List.mem_of_getElem? last.found)) last.starts
    exact UInt32.lt_irrefl _ below
  · rw [find?_of_last increasing last]
    constructor
    · intro found
      split at found
      · rename_i reaches
        obtain rfl := Option.some.inj found
        exact ⟨slot, last, reaches⟩
      · cases found
    · rintro ⟨other, again, reaches⟩
      obtain ⟨rfl, rfl⟩ := again.unique increasing last
      rw [if_pos reaches]

/-- In order, the search names the slot that covers the address. -/
theorem Ordered.find?_eq_some_iff (ordered : Ordered slots) :
    find? slots address = some i ↔ ∃ slot, slots[i]? = some slot ∧ slot.covers address := by
  rw [Slot.find?_eq_some_iff ordered.increasing]
  refine exists_congr fun slot => ⟨?_, ?_⟩
  · rintro ⟨last, reaches⟩
    exact ⟨last.found, covers_iff.mpr ⟨last.starts, reaches⟩⟩
  · rintro ⟨atI, covers⟩
    obtain ⟨starts, ends⟩ := covers_iff.mp covers
    refine ⟨⟨atI, starts, fun k other lt atK => ?_⟩, ends⟩
    -- a later slot begins where this one ends or above
    obtain ⟨hi, rfl⟩ := List.getElem?_eq_some_iff.mp atI
    obtain ⟨hk, rfl⟩ := List.getElem?_eq_some_iff.mp atK
    exact UInt32.lt_of_lt_of_le ends (List.pairwise_iff_getElem.mp ordered.apart i k hi hk lt)

/-- No address lies in two slots. -/
theorem Ordered.covers_unique (ordered : Ordered slots) {a b : Slot δ} (ha : slots[i]? = some a)
    (hb : slots[j]? = some b) (ca : a.covers address) (cb : b.covers address) : i = j := by
  have fa := ordered.find?_eq_some_iff.mpr ⟨a, ha, ca⟩
  have fb := ordered.find?_eq_some_iff.mpr ⟨b, hb, cb⟩
  exact Option.some.inj (fa.symm.trans fb)

theorem Ordered.eq_of_covers (ordered : Ordered slots) {a b : Slot δ} (ha : a ∈ slots)
    (hb : b ∈ slots) (ca : a.covers address) (cb : b.covers address) : a = b := by
  obtain ⟨i, atI⟩ := List.mem_iff_getElem?.mp ha
  obtain ⟨j, atJ⟩ := List.mem_iff_getElem?.mp hb
  obtain rfl := ordered.covers_unique atI atJ ca cb
  exact Option.some.inj (atI.symm.trans atJ)

private theorem insertIdx_eq_append {k : Nat} (h : k ≤ slots.length) :
    slots.insertIdx k slot = slots.take k ++ slot :: slots.drop k := by
  induction slots generalizing k with
  | nil => obtain rfl : k = 0 := by simpa using h
           rfl
  | cons head rest ih =>
    cases k with
    | zero => rfl
    | succ k => simp [ih (Nat.le_of_succ_le_succ h)]

/-- A slot joins others in order between those that end before it and those that begin after it. -/
theorem Ordered.insertIdx (ordered : Ordered slots) (inhabited : slot.start < slot.stop) {k : Nat}
    (bound : k ≤ slots.length) (lower : ∀ a ∈ slots.take k, a.stop ≤ slot.start)
    (upper : ∀ b ∈ slots.drop k, slot.stop ≤ b.start) : Ordered (slots.insertIdx k slot) := by
  constructor
  · intro s member
    rcases List.eq_or_mem_of_mem_insertIdx member with rfl | member
    · exact inhabited
    · exact ordered.inhabited s member
  · have apart := ordered.apart
    rw [← List.take_append_drop k slots, List.pairwise_append] at apart
    obtain ⟨left, right, across⟩ := apart
    rw [insertIdx_eq_append bound, List.pairwise_append]
    refine ⟨left, List.pairwise_cons.mpr ⟨upper, right⟩, ?_⟩
    intro a ha b hb
    rcases List.mem_cons.mp hb with rfl | hb
    · exact lower a ha
    · exact across a ha b hb

end Slot

namespace Bus
variable {δ : Type} [Peripheral δ] {slots : List (Slot δ)} {slot : Slot δ}

/-- Without a conflict, the slot below does not reach over the new start and the slot above does
not begin before the new end. -/
theorem neighbours_of_conflict? (free : conflict? slots slot = none) :
    (∀ i lower, Slot.countBelow slots slot.start = i + 1 → slots[i]? = some lower →
      lower.stop ≤ slot.start) ∧
    ∀ upper, slots[Slot.countBelow slots slot.start]? = some upper → slot.stop ≤ upper.start := by
  simp only [conflict?] at free
  split at free
  · cases free
  · cases free
  · rename_i below above
    constructor
    · intro i lower count atI
      simpa [count, atI] using below
    · intro upper atCount
      simpa [atCount] using above

theorem ordered_insert (ordered : Slot.Ordered slots) (inhabited : slot.start < slot.stop)
    (free : conflict? slots slot = none) :
    Slot.Ordered (slots.insertIdx (Slot.countBelow slots slot.start) slot) := by
  obtain ⟨below, above⟩ := neighbours_of_conflict? free
  have bound := Slot.countBelow_le_length slots slot.start
  generalize Slot.countBelow slots slot.start = k at below above bound
  refine ordered.insertIdx inhabited bound ?_ ?_
  · intro a member
    obtain ⟨i, hi, rfl⟩ := List.mem_take_iff_getElem.mp member
    have last : k - 1 < slots.length := by omega
    have atLast := below (k - 1) slots[k - 1] (by omega) (List.getElem?_eq_getElem last)
    rcases Nat.lt_or_ge i (k - 1) with lt | ge
    · have apart := List.pairwise_iff_getElem.mp ordered.apart i (k - 1) (by omega) last lt
      have inside := ordered.inhabited slots[k - 1] (List.getElem_mem last)
      exact UInt32.le_trans apart (UInt32.le_trans (UInt32.le_of_lt inside) atLast)
    · obtain rfl : i = k - 1 := by omega
      exact atLast
  · intro b member
    obtain ⟨i, hi, rfl⟩ := List.mem_drop_iff_getElem.mp member
    have first : k < slots.length := by omega
    exact UInt32.le_trans (above _ (List.getElem?_eq_getElem first))
      (ordered.increasing.start_le (List.getElem?_eq_getElem first)
        (List.getElem?_eq_getElem (by omega)) (Nat.le_add_right k i))

end Bus
end FabricLoader
