import FabricLoader.Proofs.Source.Opening
import FabricLoader.Proofs.Text.Trim

/-! The items between the braces of an array. Cutting at commas and trimming gives the items back,
whatever blanks stand around them and whether or not a comma follows the last. -/
namespace FabricLoader.Source
variable {text rest gap : List Char} {c : Char} {tokens more : List Token}

theorem blank_gap (blank : Gap gap) : Text.Blank gap := fun c member =>
  isBlank_of_mem_spaces (blank c member)

theorem trim_word {after : List Char} (blank : Gap gap) (word : Word) (blankAfter : Gap after) :
    Text.trim (gap ++ (word.text ++ after)) = word.text := by
  have solid : ∀ c ∈ word.text, Text.isBlank c = false := fun c member =>
    isBlank_of_isPlainWord (word.plain c member)
  exact Text.trim_eq_iff.mpr ⟨gap, after, rfl, blank_gap blank, blank_gap blankAfter,
    fun c head => solid c (List.mem_of_mem_head? head),
    fun c last => solid c (List.mem_of_getLast? last)⟩

theorem items_gap (blank : Gap gap) : items gap = [] := by
  rw [items, Text.cutAt_of_not_mem (not_mem_gap blank (by decide))]
  simp [Text.trim_blank (blank_gap blank)]

theorem not_mem_word {after : List Char} (blank : Gap gap) (word : Word) (blankAfter : Gap after)
    (space : c ∉ spaces) (plain : Text.isPlainWord c = false) :
    c ∉ gap ++ (word.text ++ after) := by
  simp only [List.mem_append, not_or]
  refine ⟨not_mem_gap blank space, fun member => ?_, not_mem_gap blankAfter space⟩
  simp [word.plain c member] at plain

theorem items_last {after : List Char} (blank : Gap gap) (word : Word) (blankAfter : Gap after) :
    items (gap ++ (word.text ++ after)) = [word.text] := by
  have inside := not_mem_word blank word blankAfter (c := ',') (by decide) (by decide)
  rw [items, Text.cutAt_of_not_mem inside]
  simp [trim_word blank word blankAfter, word.nonempty]

theorem items_cons {after : List Char} (blank : Gap gap) (word : Word) (blankAfter : Gap after)
    (rest : List Char) :
    items (gap ++ (word.text ++ after) ++ ',' :: rest) = word.text :: items rest := by
  have inside := not_mem_word blank word blankAfter (c := ',') (by decide) (by decide)
  rw [items, Text.cutAt_append inside]
  simp [trim_word blank word blankAfter, word.nonempty, items]

namespace LaidOut

theorem word_sign {word : Word} {sign : Sign}
    (laid : LaidOut (.word word :: .sign sign :: tokens) text) : ∃ gap after rest,
    text = gap ++ (word.text ++ after) ++ sign.char :: rest ∧ Gap gap ∧ Gap after ∧
    Skips text rest ∧ LaidOut tokens rest := by
  obtain ⟨gap, ended, rfl, blank, _, laid⟩ := laid.uncons
  obtain ⟨after, rest, rfl, blankAfter, laid⟩ := laid.sign
  refine ⟨gap, after, rest, ?_, blank, blankAfter, ?_, laid⟩
  · rw [List.append_assoc, List.append_assoc]
    rfl
  refine (skips_gap blank _).trans ((skips_word word.plain blankAfter sign rest).trans ?_)
  exact (skips_gap blankAfter _).trans (.cons (opening?_of_ne sign.char_ne.1) .refl)

/-- The text between the braces of an array. -/
theorem items {trailing : Bool} {words : List Word}
    (laid : LaidOut (itemTokens trailing words ++ .sign .closeBrace :: tokens) text) :
    ∃ body rest, text = body ++ '}' :: rest ∧ '}' ∉ body ∧ Source.items body = words.map (·.text) ∧
      Skips text rest ∧ LaidOut tokens rest := by
  induction words generalizing text with
  | nil =>
    obtain ⟨gap, rest, rfl, blank, laid⟩ := laid.sign
    refine ⟨gap, rest, rfl, not_mem_gap blank (by decide), items_gap blank, ?_, laid⟩
    exact (skips_gap blank _).trans (.cons (opening?_of_ne Sign.closeBrace.char_ne.1) .refl)
  | cons word words ih =>
    by_cases last : (words.isEmpty && !trailing) = true
    · obtain rfl := List.isEmpty_iff.mp (Bool.and_eq_true_iff.mp last).1
      rw [itemTokens, if_pos last] at laid
      obtain ⟨gap, after, rest, rfl, blank, blankAfter, skips, laid⟩ := laid.word_sign
      exact ⟨_, rest, rfl, not_mem_word blank word blankAfter (by decide) (by decide),
        items_last blank word blankAfter, skips, laid⟩
    · rw [itemTokens, if_neg last] at laid
      obtain ⟨gap, after, later, rfl, blank, blankAfter, skips, laid⟩ := laid.word_sign
      obtain ⟨body, rest, rfl, outside, found, skipsLater, laid⟩ := ih laid
      refine ⟨gap ++ (word.text ++ after) ++ ',' :: body, rest, by simp [Sign.char], ?_, ?_,
        skips.trans skipsLater, laid⟩
      · have inside := not_mem_word blank word blankAfter (c := '}') (by decide) (by decide)
        rw [List.mem_append, List.mem_cons]
        rintro (member | same | member)
        · exact inside member
        · exact absurd same (by decide)
        · exact outside member
      · rw [items_cons blank word blankAfter, found]
        rfl

end LaidOut
end FabricLoader.Source
