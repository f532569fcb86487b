import FabricLoader.Source.Declaration
import Mathlib.Tactic.ByContra

/-! Places where no declaration can begin. A recogniser run over a whole text passes over them, so
what it finds in a text is what it finds in the text after them. -/
namespace FabricLoader

namespace Text
variable {α : Type} {recognise : List Char → Option (α × List Char)}

/-- What was found is not looked at again. -/
theorem findAllFrom_covered (looking : Option Char → List Char → Option (α × List Char))
    (covered rest : List Char) (before : Option Char) :
    findAllFrom looking covered.length before (covered ++ rest) =
      findAllFrom looking 0 (covered.getLast?.or before) rest := by
  induction covered generalizing before with
  | nil => rfl
  | cons c covered ih =>
    rw [List.length_cons, List.cons_append, findAllFrom, ih, List.getLast?_cons]
    cases covered.getLast? <;> rfl

theorem findAllFrom_found {looking : Option Char → List Char → Option (α × List Char)}
    {before : Option Char} {c : Char} {covered rest : List Char} {found : α}
    (h : looking before (c :: (covered ++ rest)) = some (found, rest)) :
    findAllFrom looking 0 before (c :: (covered ++ rest)) =
      found :: findAllFrom looking 0 (covered.getLast?.or (some c)) rest := by
  have length : (covered ++ rest).length - rest.length = covered.length := by simp
  rw [findAllFrom, h]
  simp only [length]
  rw [findAllFrom_covered]

theorem findAllFrom_missed {looking : Option Char → List Char → Option (α × List Char)}
    {before : Option Char} {c : Char} {text : List Char} (h : looking before (c :: text) = none) :
    findAllFrom looking 0 before (c :: text) = findAllFrom looking 0 (some c) text := by
  rw [findAllFrom, h]

/-- A recogniser that does not look back finds the same after any character. -/
theorem findAllFrom_before (text : List Char) (before : Option Char) :
    findAllFrom (fun _ => recognise) 0 before text = findAll (fun _ => recognise) text := by
  cases text with
  | nil => rfl
  | cons c text => rfl

theorem findAll_found {c : Char} {covered rest : List Char} {found : α}
    (h : recognise (c :: (covered ++ rest)) = some (found, rest)) :
    findAll (fun _ => recognise) (c :: (covered ++ rest)) =
      found :: findAll (fun _ => recognise) rest := by
  rw [findAll, findAllFrom_found h, findAllFrom_before]

theorem findAll_missed {c : Char} {text : List Char} (h : recognise (c :: text) = none) :
    findAll (fun _ => recognise) (c :: text) = findAll (fun _ => recognise) text := by
  rw [findAll, findAllFrom_missed h, findAllFrom_before]

end Text

namespace Source
variable {text rest middle : List Char} {c : Char}

/-- The text is some characters and the rest, and no declaration begins at any of them. -/
inductive Skips : List Char → List Char → Prop
  | refl {rest : List Char} : Skips rest rest
  | cons {c : Char} {text rest : List Char} (closed : opening? (c :: text) = none)
      (later : Skips text rest) : Skips (c :: text) rest

theorem Skips.trans (first : Skips text middle) (second : Skips middle rest) : Skips text rest := by
  induction first with
  | refl => exact second
  | cons closed _ ih => exact .cons closed (ih second)

theorem Skips.exists_append (skips : Skips text rest) : ∃ covered, text = covered ++ rest := by
  induction skips with
  | refl => exact ⟨[], rfl⟩
  | @cons c _ _ _ _ ih =>
    obtain ⟨covered, rfl⟩ := ih
    exact ⟨c :: covered, rfl⟩

theorem array?_of_opening? (closed : opening? text = none) : array? text = none := by
  simp [array?, closed]

theorem word?_of_opening? (closed : opening? text = none) : word? text = none := by
  simp [word?, closed]

theorem Skips.firstArray? (skips : Skips text rest) : firstArray? text = firstArray? rest := by
  induction skips with
  | refl => rfl
  | cons closed _ ih =>
    rw [Source.firstArray?, Text.findFirst?, array?_of_opening? closed]
    exact ih

theorem Skips.words (skips : Skips text rest) : words text = words rest := by
  induction skips with
  | refl => rfl
  | cons closed _ ih =>
    rw [Source.words, Text.findAll_missed (word?_of_opening? closed)]
    exact ih

theorem opening?_of_ne (h : c ≠ 'c') : opening? (c :: text) = none := by
  have differs : Text.after? "const".toList (c :: text) = none := if_neg (Ne.symm h)
  simp only [opening?, keyword?, differs]
  rfl

theorem skips_of_not_mem (part rest : List Char) (h : 'c' ∉ part) : Skips (part ++ rest) rest := by
  induction part with
  | nil => exact .refl
  | cons c part ih =>
    refine .cons (opening?_of_ne ?_) (ih fun member => h (List.mem_cons_of_mem c member))
    rintro rfl
    exact h List.mem_cons_self

end Source
end FabricLoader
