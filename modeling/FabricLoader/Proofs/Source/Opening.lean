import FabricLoader.Proofs.Source.Listing
import FabricLoader.Proofs.Source.Scan

/-! How a declaration of a listing begins, however it is laid out: with its keyword, its type and its
name. No other declaration begins before the next one, since each word on the way is followed by a
sign, and after the keyword a declaration has its type. -/
namespace FabricLoader.Source
variable {text rest gap : List Char} {c : Char} {tokens more : List Token}

theorem isBlank_of_mem_spaces (h : c ∈ spaces) : Text.isBlank c = true :=
  List.all_eq_true.mp (show spaces.all Text.isBlank = true by decide) c h

theorem stops_of_mem_spaces (h : c ∈ spaces) :
    Text.isWordChar c = false ∧ Text.isDecimalDigit c = false := by
  have noWord := List.any_eq_false.mp (show spaces.any Text.isWordChar = false by decide) c h
  have noDigit := List.any_eq_false.mp (show spaces.any Text.isDecimalDigit = false by decide) c h
  exact ⟨by simpa using noWord, by simpa using noDigit⟩

theorem toNat_of_isPlainWord (h : Text.isPlainWord c = true) : 48 ≤ c.toNat ∧ c.toNat < 123 := by
  delta Text.isPlainWord Char.isAlphanum Char.isAlpha Char.isUpper Char.isLower Char.isDigit at h
  simp only [Bool.or_eq_true, Bool.and_eq_true, decide_eq_true_eq, beq_iff_eq,
    UInt32.le_iff_toNat_le] at h
  rcases h with ((h | h) | h) | rfl
  · simp at h
    omega
  · simp at h
    omega
  · simp at h
    omega
  · decide

/-- Plain words are ASCII, so they are words in any script. -/
theorem isWordChar_of_isPlainWord (h : Text.isPlainWord c = true) : Text.isWordChar c = true := by
  have bound := toNat_of_isPlainWord h
  rw [Text.isWordChar, if_pos (by omega), h]

theorem isBlank_of_isPlainWord (h : Text.isPlainWord c = true) : Text.isBlank c = false := by
  have bound := toNat_of_isPlainWord h
  simp [Text.isBlank]
  omega

namespace Sign

theorem isBlank_char (sign : Sign) : Text.isBlank sign.char = false := by cases sign <;> decide

theorem stops_char (sign : Sign) :
    Text.isWordChar sign.char = false ∧ Text.isDecimalDigit sign.char = false := by
  cases sign <;> decide

theorem char_ne (sign : Sign) : sign.char ≠ 'c' ∧ sign.char ≠ 'u' ∧ sign.char ≠ '/' := by
  cases sign <;> decide

end Sign

theorem not_mem_gap (blank : Gap gap) (h : c ∉ spaces) : c ∉ gap := fun member =>
  h (blank c member)

theorem skipBlanks_gap (blank : Gap gap) (rest : List Char) :
    skipBlanks (gap ++ rest) = skipBlanks rest :=
  List.dropWhile_append_of_pos fun c member => isBlank_of_mem_spaces (blank c member)

theorem skipBlanks_solid (solid : Text.isBlank c = false) (rest : List Char) :
    skipBlanks (c :: rest) = c :: rest := by
  simp [skipBlanks, solid]

theorem skipBlanks_blank (blank : Text.isBlank c = true) (rest : List Char) :
    skipBlanks (c :: rest) = skipBlanks rest := by
  simp [skipBlanks, blank]

theorem skipBlanks_word (word : Word) (rest : List Char) :
    skipBlanks (word.text ++ rest) = word.text ++ rest := by
  obtain ⟨c, tail, split⟩ := List.exists_cons_of_ne_nil word.nonempty
  have plain := word.plain c (by simp [split])
  rw [split, List.cons_append, skipBlanks_solid (isBlank_of_isPlainWord plain)]

/-- The text begins with a character at which every word and every number ends. -/
def Stops (text : List Char) : Prop :=
  ∀ c ∈ text.head?, Text.isWordChar c = false ∧ Text.isDecimalDigit c = false

theorem stops_gap_sign (blank : Gap gap) (sign : Sign) (rest : List Char) :
    Stops (gap ++ (sign.char :: rest)) := by
  intro c head
  cases gap with
  | nil =>
    obtain rfl : sign.char = c := by simpa using head
    exact sign.stops_char
  | cons d gap =>
    obtain rfl : d = c := by simpa using head
    exact stops_of_mem_spaces (blank d List.mem_cons_self)

theorem Stops.takeWhile {p : Char → Bool} {word : List Char} (stops : Stops rest)
    (within : ∀ c, p c = true → Text.isWordChar c = true ∨ Text.isDecimalDigit c = true)
    (all : ∀ c ∈ word, p c = true) :
    (word ++ rest).takeWhile p = word ∧ (word ++ rest).dropWhile p = rest := by
  have stop : ∀ c ∈ rest.head?, p c = false := by
    intro c head
    obtain ⟨noWord, noDigit⟩ := stops c head
    by_contra inside
    rcases within c (by simpa using inside) with word | digit
    · simp [noWord] at word
    · simp [noDigit] at digit
  rw [List.takeWhile_append_of_pos all, List.dropWhile_append_of_pos all]
  cases rest with
  | nil => simp
  | cons c rest => simp [stop c rfl]

/-- A name reaches up to the first character that is in no word. -/
theorem name?_name (name : Name) (stops : Stops rest) :
    name? (name.text ++ rest) = some (name.text, rest) := by
  have start := name.start
  have plain := name.plain
  obtain ⟨c, tail, split⟩ := List.exists_cons_of_ne_nil name.nonempty
  simp only [split, List.head_cons] at start plain ⊢
  obtain ⟨taken, left⟩ := stops.takeWhile (fun _ => .inl) fun d member =>
    isWordChar_of_isPlainWord (plain d (List.mem_cons_of_mem c member))
  rw [List.cons_append, name?, if_pos start, taken, left]

theorem keyword?_eq_some_iff {keyword : List Char} : keyword? keyword text = some rest ↔
    ∃ c later, text = keyword ++ c :: later ∧ Text.isBlank c = true ∧ skipBlanks later = rest := by
  simp only [keyword?, Option.bind_eq_bind, Option.bind_eq_some_iff]
  constructor
  · rintro ⟨after, found, first⟩
    cases after with
    | nil => cases first
    | cons c later =>
      obtain ⟨blank, skipped⟩ := Option.ite_none_right_eq_some.mp first
      exact ⟨c, later, Text.eq_append_of_after? found, blank, Option.some.inj skipped⟩
  · rintro ⟨c, later, rfl, blank, rfl⟩
    exact ⟨_, Text.after?_append _ _, if_pos blank⟩

/-- After the keyword of a declaration comes its type, and nothing but blanks is between them. -/
theorem opening?_eq_some {found : List Char × List Char} (h : opening? text = some found) :
    ∃ c later type, text = "const".toList ++ c :: later ∧ Text.isBlank c = true ∧
      skipBlanks later = 'u' :: type := by
  simp only [opening?, Option.bind_eq_bind, Option.bind_eq_some_iff] at h
  obtain ⟨_, first, _, second, _⟩ := h
  obtain ⟨c, later, split, blank, rfl⟩ := keyword?_eq_some_iff.mp first
  obtain ⟨d, type, typed, _⟩ := keyword?_eq_some_iff.mp second
  exact ⟨c, later, _, split, blank, typed⟩

/-- No declaration begins in a word that is followed by a sign. -/
theorem opening?_word {part : List Char} (plain : ∀ c ∈ part, Text.isPlainWord c = true)
    (blank : Gap gap) (sign : Sign) (rest : List Char) :
    opening? (part ++ (gap ++ sign.char :: rest)) = none := by
  cases h : opening? (part ++ (gap ++ sign.char :: rest)) with
  | none => rfl
  | some found =>
    obtain ⟨c, later, type, split, blankC, typed⟩ := opening?_eq_some h
    have plainC : Text.isPlainWord c = false := by
      by_contra word
      exact absurd (isBlank_of_isPlainWord (by simpa using word)) (by simp [blankC])
    -- both sides begin with a longest run of word characters, and these runs are the same
    have stops := (stops_gap_sign blank sign rest).takeWhile
      (fun _ word => .inl (isWordChar_of_isPlainWord word)) plain
    have keyword := List.all_eq_true.mp (show "const".toList.all Text.isPlainWord = true by decide)
    rw [split, List.dropWhile_append_of_pos keyword, List.dropWhile_cons, if_neg (by simp [plainC])]
      at stops
    have apart := stops.2
    cases gap with
    | nil =>
      obtain ⟨rfl, _⟩ := List.cons.inj apart
      exact absurd blankC (by simp [sign.isBlank_char])
    | cons d gap =>
      rw [List.cons_append] at apart
      obtain ⟨_, same⟩ := List.cons.inj apart
      rw [same, skipBlanks_gap fun e member => blank e (List.mem_cons_of_mem d member),
        skipBlanks_solid sign.isBlank_char] at typed
      exact absurd (List.cons.inj typed).1 sign.char_ne.2.1

theorem skips_word {part : List Char} (plain : ∀ c ∈ part, Text.isPlainWord c = true)
    (blank : Gap gap) (sign : Sign) (rest : List Char) :
    Skips (part ++ (gap ++ sign.char :: rest)) (gap ++ sign.char :: rest) := by
  induction part with
  | nil => exact .refl
  | cons c part ih =>
    exact .cons (opening?_word plain blank sign rest)
      (ih fun d member => plain d (List.mem_cons_of_mem c member))

namespace LaidOut

theorem uncons {token : Token} (laid : LaidOut (token :: tokens) text) : ∃ gap rest,
    text = gap ++ (token.text ++ rest) ∧ Gap gap ∧
    (token.isKeyword = true → ∃ c later, rest = c :: later ∧ c ∈ spaces) ∧ LaidOut tokens rest := by
  cases laid with
  | cons blank apart later => exact ⟨_, _, rfl, blank, apart, later⟩

theorem sign {sign : Sign} (laid : LaidOut (.sign sign :: tokens) text) : ∃ gap rest,
    text = gap ++ sign.char :: rest ∧ Gap gap ∧ LaidOut tokens rest := by
  obtain ⟨gap, rest, split, blank, _, later⟩ := laid.uncons
  exact ⟨gap, rest, split, blank, later⟩

theorem skips_gap (blank : Gap gap) (rest : List Char) : Skips (gap ++ rest) rest :=
  skips_of_not_mem gap rest (not_mem_gap blank (by decide))

theorem sign? {sign : Sign} (laid : LaidOut (.sign sign :: tokens) text) : ∃ rest,
    Source.sign? sign.char text = some rest ∧ Skips text rest ∧ LaidOut tokens rest := by
  obtain ⟨gap, rest, rfl, blank, later⟩ := laid.sign
  refine ⟨rest, ?_, (skips_gap blank _).trans (.cons (opening?_of_ne sign.char_ne.1) .refl), later⟩
  rw [Source.sign?, skipBlanks_gap blank, skipBlanks_solid sign.isBlank_char]
  simp [Text.after?]

theorem sign?_other {sign other : Sign} (laid : LaidOut (.sign sign :: tokens) text)
    (differs : other.char ≠ sign.char) : Source.sign? other.char text = none := by
  obtain ⟨gap, rest, rfl, blank, later⟩ := laid.sign
  rw [Source.sign?, skipBlanks_gap blank, skipBlanks_solid sign.isBlank_char]
  simp [Text.after?, differs]

theorem word {word : Word} {sign : Sign}
    (laid : LaidOut (.word word :: .sign sign :: tokens) text) : ∃ rest,
    skipBlanks text = word.text ++ rest ∧ Stops rest ∧ Skips text rest ∧
    LaidOut (.sign sign :: tokens) rest := by
  obtain ⟨gap, rest, rfl, blank, _, laid⟩ := laid.uncons
  obtain ⟨between, later, split, blankBetween, _⟩ := laid.sign
  refine ⟨rest, ?_, ?_, ?_, laid⟩
  · rw [skipBlanks_gap blank]
    exact skipBlanks_word word rest
  · exact split ▸ stops_gap_sign blankBetween sign later
  · refine (skips_gap blank _).trans ?_
    rw [split]
    exact skips_word word.plain blankBetween sign later

/-- What every declaration begins with, up to its name. -/
theorem opening {name : Name} {sign : Sign}
    (laid : LaidOut (.const :: .type :: .word name.toWord :: .sign sign :: tokens) text) :
    ∃ tail rest, Skips text ('c' :: tail) ∧ opening? ('c' :: tail) = some (name.text, rest) ∧
      Skips tail rest ∧ LaidOut (.sign sign :: tokens) rest := by
  obtain ⟨gap, afterConst, rfl, blank, apartConst, laid⟩ := laid.uncons
  obtain ⟨c, spaced, rfl, space⟩ := apartConst rfl
  obtain ⟨between, afterType, split, blankBetween, apartType, laid⟩ := laid.uncons
  obtain ⟨d, typed, rfl, spaceType⟩ := apartType rfl
  obtain ⟨rest, named, stops, skips, laid⟩ := laid.word
  have const : keyword? "const".toList ('c' :: ("onst".toList ++ c :: spaced)) =
      some (skipBlanks spaced) :=
    keyword?_eq_some_iff.mpr ⟨c, spaced, rfl, isBlank_of_mem_spaces space, rfl⟩
  have reached : skipBlanks spaced = "uint32_t".toList ++ d :: typed := by
    rw [← skipBlanks_blank (isBlank_of_mem_spaces space), split, skipBlanks_gap blankBetween]
    exact skipBlanks_solid (by decide) _
  have type : keyword? "uint32_t".toList (skipBlanks spaced) = some (name.text ++ rest) := by
    refine keyword?_eq_some_iff.mpr ⟨d, typed, reached, isBlank_of_mem_spaces spaceType, ?_⟩
    rw [← skipBlanks_blank (isBlank_of_mem_spaces spaceType), named]
  refine ⟨"onst".toList ++ c :: spaced, rest, skips_gap blank _, ?_, ?_, laid⟩
  · simp only [opening?, const, type, Option.bind_eq_bind, Option.bind_some]
    exact name?_name name stops
  · refine (skips_of_not_mem "onst".toList _ (by decide)).trans ?_
    rw [split]
    refine (skips_gap blankBetween _).trans ?_
    exact (skips_of_not_mem "uint32_t".toList _ (by decide)).trans skips

end LaidOut
end FabricLoader.Source
