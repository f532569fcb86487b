import FabricLoader.Proofs.Text.Line

/-! Trimming. A text can be cut in one way only into blanks, a part that neither begins nor ends with
a blank, and blanks again; that part is what trimming leaves. -/
namespace FabricLoader.Text
variable {p : Char → Bool} {text core : List Char}

theorem dropEndWhile_eq_iff : dropEndWhile p text = core ↔ ∃ back, text = core ++ back ∧
    (∀ c ∈ back, p c = true) ∧ ∀ c ∈ core.getLast?, p c = false := by
  rw [dropEndWhile, List.reverse_eq_iff, dropWhile_eq_iff]
  constructor
  · rintro ⟨back, split, inside, last⟩
    refine ⟨back.reverse, ?_, fun c member => inside c (List.mem_reverse.mp member), ?_⟩
    · rw [← List.reverse_reverse text, split, List.reverse_append, List.reverse_reverse]
    · rwa [List.head?_reverse] at last
  · rintro ⟨back, rfl, inside, last⟩
    refine ⟨back.reverse, List.reverse_append, fun c member => inside c (List.mem_reverse.mp member), ?_⟩
    rwa [List.head?_reverse]

theorem trim_blank (blank : Blank text) : trim text = [] := by
  have nothing : text.dropWhile isBlank = [] := List.dropWhile_eq_nil_iff.mpr blank
  rw [trim, nothing]
  rfl

theorem trim_eq_iff : trim text = core ↔ ∃ front back, text = front ++ (core ++ back) ∧
    Blank front ∧ Blank back ∧ (∀ c ∈ core.head?, isBlank c = false) ∧
    ∀ c ∈ core.getLast?, isBlank c = false := by
  constructor
  · intro trimmed
    obtain ⟨back, split, blankBack, last⟩ := dropEndWhile_eq_iff.mp trimmed
    obtain ⟨front, rfl, blankFront, first⟩ := dropWhile_eq_iff.mp split
    refine ⟨front, back, rfl, blankFront, blankBack, fun c head => first c ?_, last⟩
    rw [Option.mem_def] at head ⊢
    rw [List.head?_append, head, Option.some_or]
  · rintro ⟨front, back, rfl, blankFront, blankBack, first, last⟩
    cases core with
    | nil => exact trim_blank (blankFront.append blankBack)
    | cons c core =>
      have front : (front ++ (c :: core ++ back)).dropWhile isBlank = c :: core ++ back :=
        dropWhile_eq_iff.mpr ⟨front, rfl, blankFront, first⟩
      rw [trim, front]
      exact dropEndWhile_eq_iff.mpr ⟨back, rfl, blankBack, last⟩

theorem trim_eq_nil_iff : trim text = [] ↔ Blank text := by
  refine ⟨fun trimmed => ?_, trim_blank⟩
  obtain ⟨front, back, rfl, blankFront, blankBack, _⟩ := trim_eq_iff.mp trimmed
  exact blankFront.append blankBack

/-- A trimmed text has nothing more to trim. -/
theorem trim_trim (text : List Char) : trim (trim text) = trim text := by
  obtain ⟨front, back, _, _, _, first, last⟩ := trim_eq_iff.mp (rfl : trim text = trim text)
  have empty : Blank [] := by simp [Blank]
  exact trim_eq_iff.mpr ⟨[], [], by simp, empty, empty, first, last⟩

end FabricLoader.Text
