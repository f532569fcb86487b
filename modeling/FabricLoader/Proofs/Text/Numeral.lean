import FabricLoader.Command.Arguments
import FabricLoader.Text.Padded

/-! Numbers read back. The digits that are written for a number, filled up with zeros or not, denote
the number, so an address as it is printed is an address that a command line may hold. -/
namespace FabricLoader.Text
variable {radix n limit value : Nat} {text rest : List Char}

theorem digitValue_digitChar (inside : n < radix) (small : radix ≤ 16) :
    digitValue radix (Nat.digitChar n) = some n := by
  have each : ∀ k < 16, digitValue 16 (Nat.digitChar k) = some k := by decide
  have digit := each n (by omega)
  simp only [digitValue, Option.filter_eq_some_iff] at digit ⊢
  exact ⟨digit.1, by simpa using inside⟩

theorem digitsFrom_append (text rest : List Char) (value : Nat) :
    digitsFrom radix value (text ++ rest) = (digitsFrom radix value text).bind (digitsFrom radix · rest) := by
  induction text generalizing value with
  | nil => rfl
  | cons c text ih =>
    simp only [List.cons_append, digitsFrom]
    cases digitValue radix c with
    | none => rfl
    | some digit => exact ih _

theorem digitsFrom_toDigits (base : 1 < radix) (small : radix ≤ 16) (n : Nat) :
    digitsFrom radix 0 (Nat.toDigits radix n) = some n := by
  induction n using Nat.strongRecOn with
  | ind n ih =>
    by_cases single : n < radix
    · simp [Nat.toDigits_of_lt_base single, digitsFrom, digitValue_digitChar single small]
    · have fewer : n / radix < n := Nat.div_lt_self (by omega) base
      have last : n % radix < radix := Nat.mod_lt _ (by omega)
      rw [Nat.toDigits_of_base_le base (by omega), digitsFrom_append, ih _ fewer]
      simp [digitsFrom, digitValue_digitChar last small, Nat.mul_comm, Nat.div_add_mod]

theorem digitsFrom_zeros (positive : 0 < radix) (k : Nat) (rest : List Char) :
    digitsFrom radix 0 (List.replicate k '0' ++ rest) = digitsFrom radix 0 rest := by
  have zero : digitValue radix '0' = some 0 := by simp [digitValue, positive]
  induction k with
  | zero => rfl
  | succ k ih => simpa [List.replicate_succ, digitsFrom, zero] using ih

theorem not_mem_of_digitsFrom {c : Char} (digits : digitsFrom radix value text = some n)
    (other : digitValue radix c = none) : c ∉ text := by
  induction text generalizing value with
  | nil => exact List.not_mem_nil
  | cons d text ih =>
    obtain ⟨digit, read, digits⟩ := Option.bind_eq_some_iff.mp digits
    rintro (_ | ⟨_, member⟩)
    · simp [read] at other
    · exact ih digits member

/-- A numeral without a sign. -/
theorem unsigned?_of_digits (digits : digits? radix text = some n) (below : n < limit) :
    unsigned? radix limit text = some n := by
  unfold unsigned?
  split
  · have sign : digitValue radix '+' = none := by simp [digitValue]
    simp [digits?, digitsFrom, sign] at digits
  · simp [digits, below]

theorem digits?_toDigits (base : 1 < radix) (small : radix ≤ 16) (zeros n : Nat) :
    digits? radix (List.replicate zeros '0' ++ Nat.toDigits radix n) = some n := by
  have nonempty : List.replicate zeros '0' ++ Nat.toDigits radix n ≠ [] := by simp
  obtain ⟨c, more, split⟩ := List.exists_cons_of_ne_nil nonempty
  rw [split, digits?, ← split, digitsFrom_zeros (by omega), digitsFrom_toDigits base small]

theorem toList_hexWord (w : UInt32) : (hexWord w).toList =
    '0' :: 'x' :: (List.replicate (8 - (Nat.toDigits 16 w.toNat).length) '0' ++ Nat.toDigits 16 w.toNat) := by
  simp [hexWord, hex, padLeft]

theorem not_mem_hexWord (w : UInt32) : ' ' ∉ (hexWord w).toList := by
  have digits := digitsFrom_zeros (show 0 < 16 by decide) (8 - (Nat.toDigits 16 w.toNat).length)
    (Nat.toDigits 16 w.toNat)
  rw [digitsFrom_toDigits (by decide) (Nat.le_refl 16)] at digits
  have blank : digitValue 16 ' ' = none := by decide
  simpa [toList_hexWord] using not_mem_of_digitsFrom digits blank

/-- An address as it is printed can be given on a command line. -/
theorem address?_hexWord (w : UInt32) : Arguments.address? (hexWord w) = some w := by
  have digits := unsigned?_of_digits (digits?_toDigits (by decide) (Nat.le_refl 16)
    (8 - (Nat.toDigits 16 w.toNat).length) w.toNat) w.toNat_lt
  rw [Arguments.address?, toList_hexWord]
  change (unsigned? 16 UInt32.size _).map UInt32.ofNat = _
  rw [digits]
  simp

end FabricLoader.Text
