import FabricLoader.Proofs.Text.Digits
import FabricLoader.Proofs.Text.Trim
import FabricLoader.Source.Literal

/-! Which texts are literals. The grammar is stated here by itself: what a literal is made of, and the
number that its digits denote. A text is read if and only if the grammar gives it a number that
fits a word, and it is read as that number. -/
namespace FabricLoader.Source
variable {text body : List Char} {radix n : Nat} {c : Char}

/-- A literal without blanks and suffix, and the number that it denotes. -/
inductive Literal : List Char → Nat → Prop
  | lowerHex {digits : List Char} {n : Nat} (numeral : Text.Numeral 16 digits n) :
      Literal ('0' :: 'x' :: digits) n
  | upperHex {digits : List Char} {n : Nat} (numeral : Text.Numeral 16 digits n) :
      Literal ('0' :: 'X' :: digits) n
  | decimal {digits : List Char} {n : Nat} (numeral : Text.Numeral 10 digits n) : Literal digits n

/-- A text spells a literal, with any run of suffix letters right after it and blanks around both. -/
def Spells (text : List Char) (n : Nat) : Prop :=
  ∃ front body suffix back, text = front ++ (body ++ suffix ++ back) ∧ Text.Blank front ∧
    Text.Blank back ∧ (∀ c ∈ suffix, c ∈ ['u', 'U', 'l', 'L']) ∧ Literal body n

theorem isTypeSuffix_iff : isTypeSuffix c = true ↔ c ∈ ['u', 'U', 'l', 'L'] := by
  simp [isTypeSuffix, or_assoc]

theorem isBlank_of_isTypeSuffix (suffix : isTypeSuffix c = true) : Text.isBlank c = false := by
  simp only [isTypeSuffix, Bool.or_eq_true, beq_iff_eq] at suffix
  rcases suffix with ((rfl | rfl) | rfl) | rfl <;> decide

/-- A digit is neither a blank nor a suffix letter. -/
theorem digit_apart (small : radix ≤ 16) (digit : Text.DigitOf radix c n) :
    Text.isBlank c = false ∧ isTypeSuffix c = false := by
  have lower : ∀ k < 16, Text.isBlank k.digitChar = false ∧ isTypeSuffix k.digitChar = false := by
    decide
  have upper : ∀ k < 16, Text.isBlank k.digitChar.toUpper = false ∧
      isTypeSuffix k.digitChar.toUpper = false := by decide
  obtain ⟨below, rfl | rfl⟩ := digit
  · exact lower n (by omega)
  · exact upper n (by omega)

theorem numeral_apart (small : radix ≤ 16) (numeral : Text.Numeral radix text n) (member : c ∈ text) :
    Text.isBlank c = false ∧ isTypeSuffix c = false := by
  rcases Text.mem_numeral numeral member with rfl | ⟨k, digit⟩
  · decide
  · exact digit_apart small digit

/-- No character of a literal could be taken for a blank around it or for a letter of its suffix. -/
theorem literal_apart (literal : Literal body n) :
    body ≠ [] ∧ ∀ c ∈ body, Text.isBlank c = false ∧ isTypeSuffix c = false := by
  cases literal with
  | lowerHex numeral =>
    refine ⟨List.cons_ne_nil _ _, List.forall_mem_cons.mpr ⟨by decide, ?_⟩⟩
    exact List.forall_mem_cons.mpr ⟨by decide, fun c => numeral_apart (Nat.le_refl 16) numeral⟩
  | upperHex numeral =>
    refine ⟨List.cons_ne_nil _ _, List.forall_mem_cons.mpr ⟨by decide, ?_⟩⟩
    exact List.forall_mem_cons.mpr ⟨by decide, fun c => numeral_apart (Nat.le_refl 16) numeral⟩
  | decimal numeral =>
    refine ⟨?_, fun c => numeral_apart (by decide) numeral⟩
    rintro rfl
    cases numeral with
    | plain nonempty => exact nonempty rfl

/-- Once blanks and suffix are gone, a text that spells a literal is that literal. -/
theorem spells_iff :
    Spells text n ↔ Literal (Text.dropEndWhile isTypeSuffix (Text.trim text)) n := by
  constructor
  · rintro ⟨front, body, suffix, back, rfl, blankFront, blankBack, letters, literal⟩
    obtain ⟨nonempty, apart⟩ := literal_apart literal
    have suffixed : ∀ c ∈ suffix, isTypeSuffix c = true := fun c member =>
      isTypeSuffix_iff.mpr (letters c member)
    have solid : Text.Solid (body ++ suffix) := by
      intro c member
      rcases List.mem_append.mp member with member | member
      · exact (apart c member).1
      · exact isBlank_of_isTypeSuffix (suffixed c member)
    have trimmed : Text.trim (front ++ (body ++ suffix ++ back)) = body ++ suffix :=
      Text.trim_eq_iff.mpr ⟨front, back, rfl, blankFront, blankBack,
        fun c head => solid c (List.mem_of_mem_head? head),
        fun c last => solid c (List.mem_of_getLast? last)⟩
    have stripped : Text.dropEndWhile isTypeSuffix (body ++ suffix) = body :=
      Text.dropEndWhile_eq_iff.mpr ⟨suffix, rfl, suffixed,
        fun c last => (apart c (List.mem_of_getLast? last)).2⟩
    rwa [trimmed, stripped]
  · intro literal
    obtain ⟨front, back, split, blankFront, blankBack, _⟩ :=
      Text.trim_eq_iff.mp (rfl : Text.trim text = _)
    obtain ⟨suffix, cut, suffixed, _⟩ :=
      Text.dropEndWhile_eq_iff.mp (rfl : Text.dropEndWhile isTypeSuffix (Text.trim text) = _)
    rw [cut] at split
    exact ⟨front, _, suffix, back, split, blankFront, blankBack,
      fun c member => isTypeSuffix_iff.mp (suffixed c member), literal⟩

/-- The letter of a radix is no decimal digit. -/
theorem not_numeral_marked {x : Char} (letter : x = 'x' ∨ x = 'X') {digits : List Char} :
    ¬ Text.Numeral 10 ('0' :: x :: digits) n := by
  intro numeral
  rcases Text.mem_numeral numeral (by simp : x ∈ '0' :: x :: digits) with rfl | ⟨k, digit⟩
  · exact absurd letter (by decide)
  · have none : ∀ k < 10, ¬ Text.DigitOf 10 'x' k ∧ ¬ Text.DigitOf 10 'X' k := by decide
    rcases letter with rfl | rfl
    · exact (none k digit.1).1 digit
    · exact (none k digit.1).2 digit

theorem literal?_eq_some_iff {word : UInt32} : literal? text = some word ↔ Spells text word.toNat := by
  rw [spells_iff, literal?]
  generalize Text.dropEndWhile isTypeSuffix (Text.trim text) = body
  split
  · rename_i digits
    rw [Text.word?_eq_some_iff (Nat.le_refl 16)]
    refine ⟨.lowerHex, fun literal => ?_⟩
    cases literal with
    | lowerHex numeral => exact numeral
    | decimal numeral => exact (not_numeral_marked (.inl rfl) numeral).elim
  · rename_i digits
    rw [Text.word?_eq_some_iff (Nat.le_refl 16)]
    refine ⟨.upperHex, fun literal => ?_⟩
    cases literal with
    | upperHex numeral => exact numeral
    | decimal numeral => exact (not_numeral_marked (.inr rfl) numeral).elim
  · rename_i noLower noUpper
    rw [Text.word?_eq_some_iff (by decide)]
    refine ⟨.decimal, fun literal => ?_⟩
    cases literal with
    | lowerHex => exact (noLower _ rfl).elim
    | upperHex => exact (noUpper _ rfl).elim
    | decimal numeral => exact numeral

/-- A text is read as a word if and only if it spells a literal of that value; a text that spells no
literal, or only one that does not fit a word, is refused. -/
theorem literal?_exact (text : List Char) :
    (∀ word : UInt32, literal? text = some word ↔ Spells text word.toNat) ∧
    (literal? text = none ↔ ∀ n, Spells text n → 2 ^ 32 ≤ n) := by
  refine ⟨fun word => literal?_eq_some_iff, fun refused n spells => ?_, fun large => ?_⟩
  · by_contra below
    have read : literal? text = some (UInt32.ofNat n) := by
      rwa [literal?_eq_some_iff, UInt32.toNat_ofNat_of_lt' (Nat.lt_of_not_le below)]
    rw [refused] at read
    cases read
  · cases read : literal? text with
    | none => rfl
    | some word =>
      have fits := large word.toNat (literal?_eq_some_iff.mp read)
      exact absurd word.toNat_lt (Nat.not_lt.mpr fits)

example : literal? "\u2003 0X+00000000000000FFulLU\n".toList = some 255 := by decide +kernel

example : literal? "0xu".toList = none := by decide

end FabricLoader.Source
