import FabricLoader.Proofs.Text.Numeral
import Mathlib.Data.List.Forall2
import Mathlib.Data.Nat.Digits.Defs

/-! What numerals denote. A reader accepts the runs of digits in its radix, with a plus sign or
without one, and answers with the number that the digits denote by their places. Only the number
is bounded; zeros in front make no difference. -/
namespace FabricLoader.Text
variable {radix limit n value : Nat} {text : List Char} {c : Char}

/-- A character stands for a digit if it is the one written for it, in lower or in upper case. -/
def DigitOf (radix : Nat) (c : Char) (n : Nat) : Prop :=
  n < radix ∧ (c = n.digitChar ∨ c = n.digitChar.toUpper)

instance : Decidable (DigitOf radix c n) := inferInstanceAs (Decidable (_ ∧ _))

/-- The digits of a number, the one that counts most in front. Zeros may stand before them. -/
def Denotes (radix : Nat) (digits : List Char) (n : Nat) : Prop :=
  ∃ places, List.Forall₂ (DigitOf radix) digits places ∧ Nat.ofDigits radix places.reverse = n

inductive Numeral (radix : Nat) : List Char → Nat → Prop
  | plain {digits : List Char} {n : Nat} (nonempty : digits ≠ []) (denotes : Denotes radix digits n) :
      Numeral radix digits n
  | plus {digits : List Char} {n : Nat} (nonempty : digits ≠ []) (denotes : Denotes radix digits n) :
      Numeral radix ('+' :: digits) n

theorem digit_of_mem (denotes : Denotes radix text n) (member : c ∈ text) :
    ∃ k, DigitOf radix c k := by
  obtain ⟨places, each, denoted⟩ := denotes
  clear denoted
  induction each with
  | nil => cases member
  | cons first _ ih =>
    rcases List.mem_cons.mp member with rfl | member
    · exact ⟨_, first⟩
    · exact ih member

theorem mem_numeral (numeral : Numeral radix text n) (member : c ∈ text) :
    c = '+' ∨ ∃ k, DigitOf radix c k := by
  cases numeral with
  | plain _ denotes => exact .inr (digit_of_mem denotes member)
  | plus _ denotes =>
    rcases List.mem_cons.mp member with rfl | member
    · exact .inl rfl
    · exact .inr (digit_of_mem denotes member)

/-- The code of a digit, in either case. -/
theorem toNat_digitChar (small : n < 16) :
    n.digitChar.toNat = (if n < 10 then n + 48 else n + 87) ∧
    n.digitChar.toUpper.toNat = (if n < 10 then n + 48 else n + 55) := by
  have each : ∀ k < 16, k.digitChar.toNat = (if k < 10 then k + 48 else k + 87) ∧
      k.digitChar.toUpper.toNat = (if k < 10 then k + 48 else k + 55) := by decide
  exact each n small

theorem isLower_iff_toNat : c.isLower = true ↔ 97 ≤ c.toNat ∧ c.toNat ≤ 122 := by
  unfold Char.isLower
  simp [UInt32.le_iff_toNat_le]

theorem isUpper_iff_toNat : c.isUpper = true ↔ 65 ≤ c.toNat ∧ c.toNat ≤ 90 := by
  unfold Char.isUpper
  simp [UInt32.le_iff_toNat_le]

theorem digitValue_eq_some_iff (small : radix ≤ 16) :
    digitValue radix c = some n ↔ DigitOf radix c n := by
  simp only [digitValue, DigitOf, Option.filter_eq_some_iff, decide_eq_true_eq]
  rw [and_comm]
  refine and_congr_right fun below => ?_
  obtain ⟨lower, upper⟩ := toNat_digitChar (show n < 16 by omega)
  rw [← Char.toNat_inj, ← Char.toNat_inj, lower, upper]
  rw [show '0'.toNat = 48 from rfl, show 'a'.toNat = 97 from rfl, show 'A'.toNat = 65 from rfl]
  have digit : c.isDigit ↔ 48 ≤ c.toNat ∧ c.toNat ≤ 57 := Char.isDigit_iff_toNat
  simp only [digit, isLower_iff_toNat, isUpper_iff_toNat]
  split_ifs <;> simp only [Option.some.injEq, false_iff] <;> omega

theorem digitsFrom_eq_some_iff (small : radix ≤ 16) : digitsFrom radix value text = some n ↔
    ∃ places, List.Forall₂ (DigitOf radix) text places ∧
      value * radix ^ text.length + Nat.ofDigits radix places.reverse = n := by
  induction text generalizing value with
  | nil => simp [digitsFrom]
  | cons c text ih =>
    simp only [digitsFrom, Option.bind_eq_bind, Option.bind_eq_some_iff, ih]
    constructor
    · rintro ⟨digit, read, places, each, rfl⟩
      refine ⟨digit :: places, .cons ((digitValue_eq_some_iff small).mp read) each, ?_⟩
      rw [Nat.ofDigits_reverse_cons, List.length_cons, ← each.length_eq]
      ring
    · rintro ⟨_, each, rfl⟩
      cases each with
      | cons first each =>
        refine ⟨_, (digitValue_eq_some_iff small).mpr first, _, each, ?_⟩
        rw [Nat.ofDigits_reverse_cons, List.length_cons, ← each.length_eq]
        ring

theorem digits?_eq_some_iff (small : radix ≤ 16) :
    digits? radix text = some n ↔ text ≠ [] ∧ Denotes radix text n := by
  cases text with
  | nil => simp [digits?]
  | cons c text => simp [digits?, digitsFrom_eq_some_iff small, Denotes]

/-- A sign is no digit. -/
theorem not_denotes_plus (small : radix ≤ 16) : ¬ Denotes radix ('+' :: text) n := by
  intro denotes
  obtain ⟨k, digit⟩ := digit_of_mem denotes List.mem_cons_self
  have sign := (digitValue_eq_some_iff small).mpr digit
  simp [digitValue] at sign

/-- The numerals below the limit are read, and nothing else. -/
theorem unsigned?_eq_some_iff (small : radix ≤ 16) :
    unsigned? radix limit text = some n ↔ Numeral radix text n ∧ n < limit := by
  unfold unsigned?
  split
  · rename_i digits
    simp only [Option.filter_eq_some_iff, digits?_eq_some_iff small, decide_eq_true_eq]
    refine and_congr_left fun _ => ⟨fun ⟨nonempty, denotes⟩ => .plus nonempty denotes, fun numeral => ?_⟩
    cases numeral with
    | plain nonempty denotes => exact (not_denotes_plus small denotes).elim
    | plus nonempty denotes => exact ⟨nonempty, denotes⟩
  · rename_i unsigned
    simp only [Option.filter_eq_some_iff, digits?_eq_some_iff small, decide_eq_true_eq]
    refine and_congr_left fun _ => ⟨fun ⟨nonempty, denotes⟩ => .plain nonempty denotes, fun numeral => ?_⟩
    cases numeral with
    | plain nonempty denotes => exact ⟨nonempty, denotes⟩
    | plus => exact (unsigned _ rfl).elim

theorem word?_eq_some_iff (small : radix ≤ 16) {word : UInt32} :
    word? radix text = some word ↔ Numeral radix text word.toNat := by
  simp only [word?, Option.map_eq_some_iff, unsigned?_eq_some_iff small]
  constructor
  · rintro ⟨n, ⟨numeral, below⟩, rfl⟩
    rwa [UInt32.toNat_ofNat_of_lt' below]
  · intro numeral
    exact ⟨word.toNat, ⟨numeral, word.toNat_lt⟩, UInt32.ofNat_toNat⟩

end FabricLoader.Text
