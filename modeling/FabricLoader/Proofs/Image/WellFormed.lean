import Mathlib
import FabricLoader.Image.Check

/-! Which words make an image. What a table has to be is said of its words by themselves, without
cutting them into entries; the checker accepts exactly that, keeps every word in its place, and
names the first condition that fails. -/
namespace FabricLoader

namespace Checker
variable {checker : Checker} {words : List UInt32} {count width value : UInt32} {index : Nat}

def TooWide (words : List UInt32) (width : UInt32) (index : Nat) (value : UInt32) : Prop :=
  words[2 * index + 1]? = some value ∧ 2 ^ width.toNat ≤ value.toNat

/-- Words that are an image of the declared size and width. -/
structure WellFormed (checker : Checker) (words : List UInt32) (count width : UInt32) : Prop where
  inhabited : count ≠ 0
  supported : width ∈ checker.widths
  size : words.length = 2 * count.toNat
  narrow : ∀ index value, words[2 * index + 1]? = some value → value.toNat < 2 ^ width.toNat

/-- What is wrong with words whose earlier conditions hold. -/
def Fails (checker : Checker) (words : List UInt32) (count width : UInt32) : ImageError → Prop
  | .empty => count = 0
  | .unsupportedWidth found => count ≠ 0 ∧ width ∉ checker.widths ∧ found = width
  | .oddWords found =>
    count ≠ 0 ∧ width ∈ checker.widths ∧ words.length % 2 ≠ 0 ∧ found = words.length
  | .countMismatch declared found =>
    count ≠ 0 ∧ width ∈ checker.widths ∧ words.length % 2 = 0 ∧
      words.length ≠ 2 * count.toNat ∧ declared = count ∧ found = words.length
  | .valueOutOfRange index value found =>
    count ≠ 0 ∧ width ∈ checker.widths ∧ words.length = 2 * count.toNat ∧
      TooWide words width index value ∧ (∀ i < index, ∀ v, ¬TooWide words width i v) ∧ found = width

/-- Shifting by less than 64 keeps exactly the bits that are too high. -/
theorem fits_iff : fits value width ↔ value.toNat < 2 ^ width.toNat := by
  have small : value.toNat < 2 ^ 32 := value.toNat_lt
  rcases Nat.lt_or_ge width.toNat 64 with near | far
  · have below : ¬(64 : UInt32) ≤ width := by
      rw [UInt32.le_iff_toNat_le]
      exact Nat.not_le.mpr near
    have shifted : (value.toUInt64 >>> width.toUInt64 = 0) ↔ value.toNat >>> width.toNat = 0 := by
      rw [← UInt64.toNat_inj]
      simp [Nat.mod_eq_of_lt near]
    simp [fits, below, shifted, Nat.shiftRight_eq_div_pow]
  · have above : (64 : UInt32) ≤ width := UInt32.le_iff_toNat_le.mpr far
    have wide : 2 ^ 32 ≤ 2 ^ width.toNat := Nat.pow_le_pow_right (by decide) (by omega)
    simp only [fits, above, decide_true, Bool.true_or, true_iff]
    omega

theorem not_tooWide_of_short (short : words.length < 2) : ¬TooWide words width index value := by
  rintro ⟨found, _⟩
  have inside := (List.getElem?_eq_some_iff.mp found).1
  omega

theorem short_of_not_pair (none : ∀ address value rest, words = address :: value :: rest → False) :
    words.length < 2 := by
  match words, none with
  | [], _ => simp
  | [_], _ => simp
  | address :: value :: rest, none => exact (none address value rest rfl).elim

/-- An even number of words comes back from its entries. -/
theorem flatMap_pairs (even : words.length % 2 = 0) :
    ((pairs words).flatMap fun e => [e.address, e.value]) = words := by
  fun_induction pairs words with
  | case1 address value rest ih =>
    have fewer : rest.length % 2 = 0 := by
      simp only [List.length_cons] at even
      omega
    simp [ih fewer]
  | case2 words none =>
    have short := short_of_not_pair none
    obtain rfl : words = [] := List.length_eq_zero_iff.mp (by omega)
    rfl

/-- The search goes over the entries in order and stops at the first value that is too wide. -/
theorem misfit?_pairs (words : List UInt32) (width : UInt32) (start : Nat) :
    match misfit? width start (pairs words) with
    | none => ∀ i v, ¬TooWide words width i v
    | some (index, value) => ∃ i, index = start + i ∧ TooWide words width i value ∧
        ∀ j < i, ∀ v, ¬TooWide words width j v := by
  fun_induction pairs words generalizing start with
  | case1 address value rest ih =>
    -- a place among the words is two further than the same place among the rest
    by_cases fitting : fits value width = true
    · have first (v : UInt32) : ¬TooWide (address :: value :: rest) width 0 v := by
        rintro ⟨found, wide⟩
        obtain rfl : value = v := Option.some.inj found
        exact absurd (fits_iff.mp fitting) (Nat.not_lt.mpr wide)
      have later := ih (start + 1)
      simp only [misfit?, fitting, if_true]
      cases found : misfit? width (start + 1) (pairs rest) with
      | none =>
        simp only [found] at later
        rintro (_ | i) v
        · exact first v
        · exact later i v
      | some misfit =>
        simp only [found] at later
        obtain ⟨i, index, wide, before⟩ := later
        refine ⟨i + 1, by omega, wide, ?_⟩
        rintro (_ | j) lt v
        · exact first v
        · exact before j (Nat.lt_of_succ_lt_succ lt) v
    · simp only [misfit?, fitting]
      refine ⟨0, rfl, ⟨rfl, ?_⟩, by simp⟩
      exact Nat.not_lt.mp fun narrow => fitting (fits_iff.mpr narrow)
  | case2 words none =>
    intro i v
    exact not_tooWide_of_short (short_of_not_pair none)

theorem misfit?_of_narrow (narrow : ∀ i v, ¬TooWide words width i v) :
    misfit? width 0 (pairs words) = none := by
  have searched := misfit?_pairs words width 0
  cases found : misfit? width 0 (pairs words) with
  | none => rfl
  | some misfit =>
    simp only [found] at searched
    obtain ⟨i, _, wide, _⟩ := searched
    exact (narrow i _ wide).elim

/-- The least value that is too wide is the one found. -/
theorem misfit?_of_least (wide : TooWide words width index value)
    (before : ∀ i < index, ∀ v, ¬TooWide words width i v) :
    misfit? width 0 (pairs words) = some (index, value) := by
  have searched := misfit?_pairs words width 0
  cases found : misfit? width 0 (pairs words) with
  | none =>
    simp only [found] at searched
    exact (searched index value wide).elim
  | some misfit =>
    simp only [found] at searched
    obtain ⟨i, start, wider, earlier⟩ := searched
    have same : i = index := by
      rcases Nat.lt_trichotomy i index with lt | eq | gt
      · exact (before i lt _ wider).elim
      · exact eq
      · exact (earlier index gt _ wide).elim
    have word : misfit.2 = value := by
      rw [same] at wider
      exact Option.some.inj (wider.1.symm.trans wide.1)
    rw [Nat.zero_add, same] at start
    rw [← start, ← word]

/-- Words that are no image fail one of the checks. -/
theorem wellFormed_or_fails (checker : Checker) (words : List UInt32) (count width : UInt32) :
    WellFormed checker words count width ∨ ∃ e, Fails checker words count width e := by
  rcases eq_or_ne count 0 with empty | inhabited
  · exact .inr ⟨.empty, empty⟩
  rcases em' (width ∈ checker.widths) with unsupported | supported
  · exact .inr ⟨.unsupportedWidth width, inhabited, unsupported, rfl⟩
  rcases em' (words.length % 2 = 0) with odd | even
  · exact .inr ⟨.oddWords _, inhabited, supported, odd, rfl⟩
  rcases ne_or_eq words.length (2 * count.toNat) with other | size
  · exact .inr ⟨.countMismatch count _, inhabited, supported, even, other, rfl, rfl⟩
  have searched := misfit?_pairs words width 0
  cases found : misfit? width 0 (pairs words) with
  | none =>
    simp only [found] at searched
    refine .inl ⟨inhabited, supported, size, fun index value inside => ?_⟩
    exact Nat.not_le.mp fun wide => searched index value ⟨inside, wide⟩
  | some misfit =>
    simp only [found] at searched
    obtain ⟨i, _, wide, before⟩ := searched
    exact .inr ⟨.valueOutOfRange i misfit.2 width, inhabited, supported, size, wide, before, rfl⟩

theorem check_of_fails (control : Option UInt32) {e : ImageError}
    (fails : Fails checker words count width e) :
    checker.check words count width control = .error e := by
  cases e with
  | empty => simp [check, show count = 0 from fails]
  | unsupportedWidth found =>
    obtain ⟨inhabited, unsupported, rfl⟩ := fails
    simp [check, inhabited, unsupported]
  | oddWords found =>
    obtain ⟨inhabited, supported, odd, rfl⟩ := fails
    simp [check, inhabited, supported, odd]
  | countMismatch declared found =>
    obtain ⟨inhabited, supported, even, size, rfl, rfl⟩ := fails
    simp [check, inhabited, supported, even, size]
  | valueOutOfRange index value found =>
    obtain ⟨inhabited, supported, size, wide, before, rfl⟩ := fails
    have search := misfit?_of_least wide before
    simp only [check, inhabited, dif_neg, not_false_eq_true, List.contains_iff_mem.mpr supported,
      Bool.not_true, Bool.false_eq_true, if_false, size, Nat.mul_mod_right, ne_eq, not_true_eq_false]
    split <;> simp_all

theorem check_of_wellFormed (control : Option UInt32)
    (formed : WellFormed checker words count width) :
    ∃ image, checker.check words count width control = .ok image ∧
      image.size = count.toNat ∧ image.width = width ∧ image.control = control ∧
      image.words = words := by
  obtain ⟨inhabited, supported, size, narrow⟩ := formed
  have search := misfit?_of_narrow fun i v (wide : TooWide words width i v) =>
    Nat.not_lt.mpr wide.2 (narrow i v wide.1)
  have even : words.length % 2 = 0 := by omega
  refine ⟨⟨pairs words, width, control, pairs_ne_nil inhabited size⟩, ?_, ?_, rfl, rfl, ?_⟩
  · simp only [check, inhabited, dif_neg, not_false_eq_true, List.contains_iff_mem.mpr supported,
      Bool.not_true, Bool.false_eq_true, if_false, size, Nat.mul_mod_right, ne_eq, not_true_eq_false]
    split <;> simp_all
  · have cut := length_pairs words
    simp only [Image.size]
    omega
  · exact flatMap_pairs even

/-- The checker accepts exactly the words that make an image of the declared size, without losing
any of them, and otherwise reports the first condition that fails. -/
theorem check_exact (checker : Checker) (words : List UInt32) (count width : UInt32)
    (control : Option UInt32) :
    let result := checker.check words count width control
    ((∃ image, result = .ok image) ↔ WellFormed checker words count width) ∧
    (∀ image, result = .ok image → image.size = count.toNat ∧ image.width = width ∧
      image.control = control ∧ image.words = words) ∧
    ∀ e, result = .error e ↔ Fails checker words count width e := by
  intro result
  rcases wellFormed_or_fails checker words count width with formed | ⟨e, fails⟩
  · obtain ⟨image, accepted, lossless⟩ := check_of_wellFormed control formed
    refine ⟨⟨fun _ => formed, fun _ => ⟨image, accepted⟩⟩, fun other same => ?_, fun e => ?_⟩
    · obtain rfl : image = other := Except.ok.inj (accepted.symm.trans same)
      exact lossless
    · refine ⟨fun refused => ?_, fun fails => check_of_fails control fails⟩
      cases accepted.symm.trans refused
  · have refused := check_of_fails control fails
    refine ⟨⟨fun ⟨image, accepted⟩ => ?_, fun formed => ?_⟩, fun image accepted => ?_, fun other => ?_⟩
    · cases refused.symm.trans accepted
    · obtain ⟨image, accepted, _⟩ := check_of_wellFormed control formed
      exact ⟨image, accepted⟩
    · cases refused.symm.trans accepted
    · refine ⟨fun same => ?_, fun fails => check_of_fails control fails⟩
      obtain rfl : e = other := Except.error.inj (refused.symm.trans same)
      exact fails

end Checker
end FabricLoader
