import FabricLoader.Text.Blank
import FabricLoader.Text.Match
import Mathlib.Data.List.TakeWhile

/-! Lines of a text, and words among blanks. A text without a word, with a single word or with more
than one is cut at its blanks in one way only. -/
namespace FabricLoader.Text

def Blank (text : List Char) : Prop := ∀ c ∈ text, isBlank c = true

def Solid (text : List Char) : Prop := ∀ c ∈ text, isBlank c = false

def onlyWord? (text : List Char) : Option (List Char) :=
  let front := text.dropWhile isBlank
  let word := front.takeWhile (!isBlank ·)
  if word.isEmpty || !(front.dropWhile (!isBlank ·)).all isBlank then none else some word

inductive Lined : List Char → List (List Char) → Prop
  | last {line : List Char} (single : '\n' ∉ line) : Lined line [line]
  | next {line text : List Char} {lines : List (List Char)} (single : '\n' ∉ line)
      (later : Lined text lines) : Lined (line ++ '\n' :: text) (line :: lines)

variable {text line lead gap trail word rest : List Char} {c : Char}

theorem lined_cutAt (text : List Char) : Lined text (cutAt '\n' text) := by
  induction text with
  | nil => exact .last (by simp)
  | cons c text ih =>
    by_cases ended : c = '\n'
    · rw [cutAt, if_pos ended, ended]
      exact @Lined.next [] _ _ List.not_mem_nil ih
    · rw [cutAt, if_neg ended]
      generalize cutAt '\n' text = lines at ih
      cases ih with
      | last single => exact .last (List.not_mem_cons_of_ne_of_not_mem (Ne.symm ended) single)
      | next single later =>
        exact .next (List.not_mem_cons_of_ne_of_not_mem (Ne.symm ended) single) later

theorem dropWhile_blank (blank : Blank lead) (rest : List Char) :
    (lead ++ rest).dropWhile isBlank = rest.dropWhile isBlank :=
  List.dropWhile_append_of_pos blank

theorem Blank.append (first : Blank lead) (second : Blank rest) : Blank (lead ++ rest) := by
  intro c member
  rcases List.mem_append.mp member with inside | behind
  · exact first c inside
  · exact second c behind

theorem blank_break : Blank ['\n'] := by
  intro c member
  rw [List.mem_singleton.mp member]
  decide

theorem blank_of_all (h : text.all isBlank = true) : Blank text := List.all_eq_true.mp h

/-- A word ends at the first blank after it. -/
theorem cut_word (solid : Solid word) (ended : ∀ c ∈ rest.head?, isBlank c = true) :
    (word ++ rest).takeWhile (!isBlank ·) = word ∧ (word ++ rest).dropWhile (!isBlank ·) = rest := by
  have dense : ∀ c ∈ word, (!isBlank c) = true := fun c member => by simp [solid c member]
  rw [List.takeWhile_append_of_pos dense, List.dropWhile_append_of_pos dense]
  cases rest with
  | nil => simp
  | cons c rest => simp [ended c rfl]

theorem cut_gap (blank : Blank gap) (ended : ∀ c ∈ rest.head?, isBlank c = false) :
    (gap ++ rest).takeWhile isBlank = gap ∧ (gap ++ rest).dropWhile isBlank = rest := by
  rw [List.takeWhile_append_of_pos blank, List.dropWhile_append_of_pos blank]
  cases rest with
  | nil => simp
  | cons c rest => simp [ended c rfl]

theorem solid_front (solid : Solid word) (nonempty : word ≠ []) (rest : List Char) :
    (word ++ rest).dropWhile isBlank = word ++ rest := by
  obtain ⟨c, tail, rfl⟩ := List.exists_cons_of_ne_nil nonempty
  simp [solid c List.mem_cons_self]

/-- What is left behind a front of one class is all of the text from the first other character on. -/
theorem dropWhile_eq_iff {p : Char → Bool} : text.dropWhile p = rest ↔ ∃ front, text = front ++ rest ∧
    (∀ c ∈ front, p c = true) ∧ ∀ c ∈ rest.head?, p c = false := by
  constructor
  · rintro rfl
    refine ⟨text.takeWhile p, List.takeWhile_append_dropWhile.symm,
      fun c => List.mem_takeWhile_imp, fun c head => ?_⟩
    have first := List.head?_dropWhile_not p text
    rwa [Option.mem_def.mp head] at first
  · rintro ⟨front, rfl, inside, ended⟩
    rw [List.dropWhile_append_of_pos inside]
    cases rest with
    | nil => rfl
    | cons c rest => simp [ended c rfl]

theorem exists_cut (p : Char → Bool) (text : List Char) : ∃ front rest, text = front ++ rest ∧
    (∀ c ∈ front, p c = true) ∧ ∀ c ∈ rest.head?, p c = false := by
  obtain ⟨front, split, inside, ended⟩ := dropWhile_eq_iff.mp (rfl : text.dropWhile p = _)
  exact ⟨front, _, split, inside, ended⟩

/-- A text is blank, or it has a single word, or a word and more behind it. -/
inductive Form : List Char → Prop
  | blank {text : List Char} (blank : Blank text) : Form text
  | only {lead word trail : List Char} (blankLead : Blank lead) (solid : Solid word)
      (nonempty : word ≠ []) (blankTrail : Blank trail) : Form (lead ++ (word ++ trail))
  | more {lead word gap rest : List Char} {c : Char} (blankLead : Blank lead) (solid : Solid word)
      (nonempty : word ≠ []) (blankGap : Blank gap) (apart : gap ≠ []) (next : isBlank c = false) :
      Form (lead ++ (word ++ (gap ++ c :: rest)))

theorem form (text : List Char) : Form text := by
  obtain ⟨lead, front, rfl, blankLead, solidFront⟩ := exists_cut isBlank text
  obtain ⟨word, after, rfl, dense, blankAfter⟩ := exists_cut (!isBlank ·) front
  obtain ⟨gap, rest, rfl, blankGap, solidRest⟩ := exists_cut isBlank after
  have solid : Solid word := fun c member => by simpa using dense c member
  have blankAfter : ∀ c ∈ (gap ++ rest).head?, isBlank c = true := by simpa using blankAfter
  cases word with
  | nil =>
    -- what follows a word that is not there would begin with a blank and with none
    have nothing : gap ++ rest = [] := by
      cases split : gap ++ rest with
      | nil => rfl
      | cons c more =>
        rw [split] at blankAfter
        have conflict := solidFront c (by rw [split]; rfl)
        rw [blankAfter c rfl] at conflict
        cases conflict
    rw [List.nil_append, nothing, List.append_nil]
    exact .blank blankLead
  | cons d word =>
    cases rest with
    | nil => simpa using Form.only blankLead solid (List.cons_ne_nil d word) blankGap
    | cons c rest =>
      have next := solidRest c rfl
      refine .more blankLead solid (List.cons_ne_nil d word) blankGap ?_ next
      rintro rfl
      rw [blankAfter c rfl] at next
      cases next

theorem onlyWord?_blank (blank : Blank text) : onlyWord? text = none := by
  have nothing : text.dropWhile isBlank = [] := by simpa using dropWhile_blank blank []
  simp [onlyWord?, nothing]

theorem onlyWord?_only (blankLead : Blank lead) (solid : Solid word) (nonempty : word ≠ [])
    (blankTrail : Blank trail) : onlyWord? (lead ++ (word ++ trail)) = some word := by
  have ended : ∀ c ∈ trail.head?, isBlank c = true := fun c head =>
    blankTrail c (List.mem_of_mem_head? head)
  obtain ⟨taken, left⟩ := cut_word solid ended
  have all : trail.all isBlank = true := List.all_eq_true.mpr blankTrail
  simp [onlyWord?, dropWhile_blank blankLead, solid_front solid nonempty, taken, left, nonempty, all]

theorem onlyWord?_more (blankLead : Blank lead) (solid : Solid word) (nonempty : word ≠ [])
    (blankGap : Blank gap) (apart : gap ≠ []) (next : isBlank c = false) :
    onlyWord? (lead ++ (word ++ (gap ++ c :: rest))) = none := by
  have ended : ∀ d ∈ (gap ++ c :: rest).head?, isBlank d = true := by
    obtain ⟨d, gap, rfl⟩ := List.exists_cons_of_ne_nil apart
    simp [blankGap d List.mem_cons_self]
  obtain ⟨taken, left⟩ := cut_word solid ended
  simp [onlyWord?, dropWhile_blank blankLead, solid_front solid nonempty, left, next]

theorem onlyWord?_eq_some_iff : onlyWord? text = some word ↔ ∃ lead trail,
    text = lead ++ (word ++ trail) ∧ Blank lead ∧ Blank trail ∧ word ≠ [] ∧ Solid word := by
  constructor
  · intro found
    cases form text with
    | blank blank => rw [onlyWord?_blank blank] at found; cases found
    | only blankLead solid nonempty blankTrail =>
      rw [onlyWord?_only blankLead solid nonempty blankTrail] at found
      obtain rfl := Option.some.inj found
      exact ⟨_, _, rfl, blankLead, blankTrail, nonempty, solid⟩
    | more blankLead solid nonempty blankGap apart next =>
      rw [onlyWord?_more blankLead solid nonempty blankGap apart next] at found
      cases found
  · rintro ⟨lead, trail, rfl, blankLead, blankTrail, nonempty, solid⟩
    exact onlyWord?_only blankLead solid nonempty blankTrail

end FabricLoader.Text
