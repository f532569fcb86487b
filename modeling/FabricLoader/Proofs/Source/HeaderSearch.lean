import FabricLoader.Proofs.Source.Heading
import FabricLoader.Proofs.Text.Line

/-! The search for header fields, from one line break to the next. Nothing is found inside a line, so
that the search can be taken up at any line, and blanks in front of a line make no difference. -/
namespace FabricLoader.Source
open Text (Blank Solid onlyWord?)
variable {text line later lead gap trail word rest tail : List Char} {c : Char} {key : Key}
  {lines : List (List Char)}

/-- The value at the front of what follows a key, and the text from which the search goes on. -/
def value? (text : List Char) : Option (List Char × List Char) :=
  let front := text.dropWhile Text.isBlank
  let value := front.takeWhile (!Text.isBlank ·)
  let gap := (front.dropWhile (!Text.isBlank ·)).takeWhile Text.isBlank
  let rest := (front.dropWhile (!Text.isBlank ·)).dropWhile Text.isBlank
  if value.isEmpty then none
  else if rest.isEmpty then some (value, [])
  else (fromLastBreak gap).map fun tail => (value, tail ++ rest)

theorem field?_start (text : List Char) : field? (some '\n') text =
    (key? (text.dropWhile Text.isBlank)).bind fun (key, rest) =>
      (value? rest).map fun (value, later) => (⟨key, value⟩, later) := by
  simp only [field?, Option.all_some, beq_self_eq_true, if_true, Option.bind_eq_bind]
  cases key? (text.dropWhile Text.isBlank) with
  | none => rfl
  | some found =>
    simp only [Option.bind_some, value?]
    split
    · rfl
    · split
      · rfl
      · rw [Option.map_map]
        rfl

theorem fromLastBreak_none (single : '\n' ∉ gap) : fromLastBreak gap = none := by
  induction gap with
  | nil => rfl
  | cons c gap ih =>
    obtain ⟨other, behind⟩ := List.ne_and_not_mem_of_not_mem_cons single
    simp [fromLastBreak, ih behind, Ne.symm other]

theorem fromLastBreak_some (broken : '\n' ∈ gap) :
    ∃ before after, gap = before ++ '\n' :: after ∧ fromLastBreak gap = some ('\n' :: after) := by
  induction gap with
  | nil => cases broken
  | cons c gap ih =>
    by_cases behind : '\n' ∈ gap
    · obtain ⟨before, after, split, last⟩ := ih behind
      exact ⟨c :: before, after, by rw [split]; rfl, by simp [fromLastBreak, last]⟩
    · obtain rfl : c = '\n' := by simpa [behind, eq_comm] using broken
      exact ⟨[], gap, rfl, by simp [fromLastBreak, fromLastBreak_none behind]⟩

theorem value?_blank (blank : Blank lead) (rest : List Char) : value? (lead ++ rest) = value? rest := by
  rw [value?, value?, Text.dropWhile_blank blank]

theorem value?_word (blankLead : Blank lead) (solid : Solid word) (nonempty : word ≠ [])
    (blankGap : Blank gap) (apart : ∀ c ∈ (gap ++ rest).head?, Text.isBlank c = true)
    (next : ∀ c ∈ rest.head?, Text.isBlank c = false) : value? (lead ++ (word ++ (gap ++ rest))) =
      if rest.isEmpty then some (word, [])
      else (fromLastBreak gap).map fun tail => (word, tail ++ rest) := by
  obtain ⟨taken, left⟩ := Text.cut_word solid apart
  obtain ⟨takenGap, leftGap⟩ := Text.cut_gap blankGap next
  have present : word.isEmpty = false := by simpa using nonempty
  simp [value?, Text.dropWhile_blank blankLead, Text.solid_front solid nonempty, taken, left,
    takenGap, leftGap, present]

theorem value?_none (blank : Blank text) : value? text = none := by
  have skipped := value?_blank blank []
  rwa [List.append_nil] at skipped

theorem value?_only (blankLead : Blank lead) (solid : Solid word) (nonempty : word ≠ [])
    (blankTrail : Blank trail) : value? (lead ++ (word ++ trail)) = some (word, []) := by
  have apart : ∀ c ∈ (trail ++ []).head?, Text.isBlank c = true := fun c head =>
    blankTrail c (by simpa using List.mem_of_mem_head? head)
  simpa using value?_word blankLead solid nonempty blankTrail apart (by simp)

theorem value?_more (blankLead : Blank lead) (solid : Solid word) (nonempty : word ≠ [])
    (blankGap : Blank gap) (apart : gap ≠ []) (next : Text.isBlank c = false) :
    value? (lead ++ (word ++ (gap ++ c :: rest))) =
      (fromLastBreak gap).map fun tail => (word, tail ++ c :: rest) := by
  obtain ⟨d, others, split⟩ := List.exists_cons_of_ne_nil apart
  have first : ∀ e ∈ (gap ++ c :: rest).head?, Text.isBlank e = true := by
    simp [split, blankGap d (split ▸ List.mem_cons_self)]
  exact value?_word blankLead solid nonempty blankGap first (by simp [next])

/-- Behind a value the search goes on at a line break, or the text is at its end. -/
theorem value?_suffix (found : value? text = some (word, later)) :
    later <:+ text ∧ ∀ c ∈ later.head?, c = '\n' := by
  cases Text.form text with
  | blank blank => rw [value?_none blank] at found; cases found
  | only blankLead solid nonempty blankTrail =>
    rw [value?_only blankLead solid nonempty blankTrail] at found
    obtain ⟨_, rfl⟩ := Prod.mk.inj (Option.some.inj found)
    exact ⟨List.nil_suffix, by simp⟩
  | @more lead first gap rest c blankLead solid nonempty blankGap apart next =>
    rw [value?_more blankLead solid nonempty blankGap apart next] at found
    by_cases broken : '\n' ∈ gap
    · obtain ⟨before, after, split, last⟩ := fromLastBreak_some broken
      rw [last] at found
      obtain ⟨_, rfl⟩ := Prod.mk.inj (Option.some.inj found)
      refine ⟨⟨lead ++ (first ++ before), ?_⟩, by simp⟩
      rw [split]
      simp
    · rw [fromLastBreak_none broken] at found
      cases found

def fieldsFrom (text : List Char) : List Field := Text.findAllFrom field? 0 (some '\n') text

theorem findAllFrom_consumed {looking : Option Char → List Char → Option (Field × List Char)}
    {before : Option Char} {consumed : List Char} {found : Field} (nonempty : consumed ≠ [])
    (h : looking before (consumed ++ rest) = some (found, rest)) :
    Text.findAllFrom looking 0 before (consumed ++ rest) =
      found :: Text.findAllFrom looking 0 consumed.getLast? rest := by
  obtain ⟨c, covered, rfl⟩ := List.exists_cons_of_ne_nil nonempty
  rw [List.cons_append] at h ⊢
  rw [Text.findAllFrom_found h, List.getLast?_cons]
  cases covered.getLast? <;> rfl

def Key.mark : Key → List Char
  | source => "Input:".toList
  | pins => "Config:".toList

theorem Key.mark_solid (key : Key) : Solid key.mark := by
  have all : key.mark.all (!Text.isBlank ·) = true := by cases key <;> decide
  intro c member
  simpa using List.all_eq_true.mp all c member

theorem key?_eq_some_iff : key? text = some (key, rest) ↔ text = key.mark ++ rest := by
  constructor
  · intro found
    unfold key? at found
    split at found
    · rename_i rest after
      obtain ⟨rfl, rfl⟩ := Prod.mk.inj (Option.some.inj found)
      exact Text.eq_append_of_after? after
    · obtain ⟨rest, after, same⟩ := Option.map_eq_some_iff.mp found
      obtain ⟨rfl, rfl⟩ := Prod.mk.inj same
      exact Text.eq_append_of_after? after
  · rintro rfl
    cases key with
    | source =>
      have found : Text.after? "Input:".toList (Key.mark .source ++ rest) = some rest :=
        Text.after?_append _ rest
      simp only [key?, found]
    | pins =>
      have other : Text.after? "Input:".toList (Key.mark .pins ++ rest) = none := rfl
      simp only [key?, other, Option.map_eq_some_iff, Prod.mk.injEq, true_and]
      exact ⟨rest, Text.after?_append _ rest, rfl⟩

theorem field?_suffix {field : Field} (found : field? (some '\n') text = some (field, later)) :
    (∃ consumed, consumed ≠ [] ∧ text = consumed ++ later) ∧ ∀ c ∈ later.head?, c = '\n' := by
  rw [field?_start] at found
  obtain ⟨⟨key, rest⟩, atKey, found⟩ := Option.bind_eq_some_iff.mp found
  obtain ⟨⟨value, after⟩, atValue, same⟩ := Option.map_eq_some_iff.mp found
  obtain ⟨_, rfl⟩ := Prod.mk.inj same
  obtain ⟨⟨covered, split⟩, ended⟩ := value?_suffix atValue
  have marked := key?_eq_some_iff.mp atKey
  have nonempty : key.mark ≠ [] := by cases key <;> decide
  refine ⟨⟨text.takeWhile Text.isBlank ++ (key.mark ++ covered), by simp [nonempty], ?_⟩, ended⟩
  have whole := List.takeWhile_append_dropWhile (p := Text.isBlank) (l := text)
  rw [marked, ← split] at whole
  exact whole.symm.trans (by simp only [List.append_assoc])

theorem field?_blank (blank : Blank lead) (rest : List Char) :
    field? (some '\n') (lead ++ rest) = field? (some '\n') rest := by
  rw [field?_start, field?_start, Text.dropWhile_blank blank]

theorem field?_missed (missed : field? (some '\n') text = none) (before : Option Char) :
    field? before text = none := by
  by_cases start : before.all (· == '\n') = true
  · rw [← missed, field?, field?, if_pos start]
    rfl
  · rw [field?, if_neg start]

/-- Blanks in front of a line are passed over, whatever comes after them. -/
theorem fieldsFrom_gap (blank : Blank gap) (text : List Char) :
    fieldsFrom (gap ++ '\n' :: text) = fieldsFrom text := by
  have joined (lead : List Char) : lead ++ '\n' :: text = (lead ++ ['\n']) ++ text := by simp
  cases found : field? (some '\n') text with
  | none =>
    have passed (before : Option Char) :
        Text.findAllFrom field? 0 before (gap ++ '\n' :: text) = fieldsFrom text := by
      induction gap generalizing before with
      | nil =>
        have missed := field?_blank (blank.append Text.blank_break) text
        exact Text.findAllFrom_missed (field?_missed (missed.trans found) before)
      | cons c gap ih =>
        have missed := field?_blank (blank.append Text.blank_break) text
        rw [← joined] at missed
        have behind : Blank gap := fun d member => blank d (List.mem_cons_of_mem c member)
        exact (Text.findAllFrom_missed (field?_missed (missed.trans found) before)).trans
          (ih behind (some c))
    exact passed (some '\n')
  | some first =>
    obtain ⟨field, later⟩ := first
    obtain ⟨⟨consumed, nonempty, rfl⟩, _⟩ := field?_suffix found
    have same := field?_blank (blank.append Text.blank_break) (consumed ++ later)
    have whole : gap ++ '\n' :: (consumed ++ later) = (gap ++ '\n' :: consumed) ++ later := by simp
    rw [← joined, found, whole] at same
    have last : (gap ++ '\n' :: consumed).getLast? = consumed.getLast? := by
      obtain ⟨c, covered, rfl⟩ := List.exists_cons_of_ne_nil nonempty
      rw [List.getLast?_append_of_ne_nil _ (List.cons_ne_nil _ _), List.getLast?_cons_cons]
    rw [fieldsFrom, fieldsFrom, findAllFrom_consumed nonempty found, whole,
      findAllFrom_consumed (by simp) same, last]

theorem fieldsFrom_blank (blank : Blank text) : fieldsFrom text = [] := by
  have missed (lead : List Char) (inside : Blank lead) (before : Option Char) :
      field? before lead = none := by
    have nothing := field?_blank inside []
    rw [List.append_nil] at nothing
    exact field?_missed (nothing.trans (by decide)) before
  have passed (before : Option Char) : Text.findAllFrom field? 0 before text = [] := by
    induction text generalizing before with
    | nil => rfl
    | cons c text ih =>
      rw [Text.findAllFrom_missed (missed (c :: text) blank before)]
      exact ih (fun d member => blank d (List.mem_cons_of_mem c member)) (some c)
  exact passed (some '\n')

/-- From a line break on, the search finds what it finds in the line behind it. -/
theorem findAllFrom_break (before : Option Char) (text : List Char) :
    Text.findAllFrom field? 0 before ('\n' :: text) = fieldsFrom text := by
  by_cases start : before.all (· == '\n') = true
  · have same : Text.findAllFrom field? 0 before ('\n' :: text) = fieldsFrom ('\n' :: text) := by
      have alike : field? before ('\n' :: text) = field? (some '\n') ('\n' :: text) := by
        rw [field?, field?, if_pos start]
        rfl
      rw [fieldsFrom, Text.findAllFrom, Text.findAllFrom, alike]
    have nothing : Blank [] := by simp [Blank]
    exact same.trans (fieldsFrom_gap nothing text)
  · exact Text.findAllFrom_missed (by rw [field?, if_neg start])

/-- Behind a field the search goes on with the next line. -/
theorem fieldsFrom_found {field : Field} (found : field? (some '\n') text = some (field, later)) :
    fieldsFrom text = field :: fieldsFrom later.tail := by
  obtain ⟨⟨consumed, nonempty, rfl⟩, ended⟩ := field?_suffix found
  rw [fieldsFrom, findAllFrom_consumed nonempty found]
  cases later with
  | nil => rfl
  | cons c later =>
    obtain rfl := ended c rfl
    exact congrArg (field :: ·) (findAllFrom_break _ _)

/-- A line without a field is passed over. -/
theorem fieldsFrom_missed (single : '\n' ∉ line) (ended : ∀ c ∈ tail.head?, c = '\n')
    (missed : field? (some '\n') (line ++ tail) = none) :
    fieldsFrom (line ++ tail) = fieldsFrom tail.tail := by
  have rest (before : Option Char) : Text.findAllFrom field? 0 before tail = fieldsFrom tail.tail := by
    cases tail with
    | nil => rfl
    | cons c tail =>
      obtain rfl := ended c rfl
      exact findAllFrom_break before tail
  have inLine (c : Char) (part : List Char) (other : c ≠ '\n') (inside : '\n' ∉ part) :
      Text.findAllFrom field? 0 (some c) (part ++ tail) = fieldsFrom tail.tail := by
    induction part generalizing c with
    | nil => exact rest (some c)
    | cons d part ih =>
      obtain ⟨next, behind⟩ := List.ne_and_not_mem_of_not_mem_cons inside
      rw [List.cons_append, Text.findAllFrom_missed (field?_inside other _)]
      exact ih d (Ne.symm next) behind
  cases line with
  | nil => exact rest (some '\n')
  | cons c line =>
    obtain ⟨other, behind⟩ := List.ne_and_not_mem_of_not_mem_cons single
    rw [List.cons_append] at missed ⊢
    rw [fieldsFrom, Text.findAllFrom_missed missed]
    exact inLine c line (Ne.symm other) behind

end FabricLoader.Source
