import FabricLoader.Proofs.Source.HeaderSearch
import Mathlib.Data.List.TakeWhile

/-! Header fields read one line after another. A line with a key and a single word gives a field.
A line with nothing but a key does not stand for itself: the next line that is not blank is its value
if it is a single word, whatever that word is. Where no such line follows such a key, the fields are
those that lines give by themselves. -/
namespace FabricLoader.Source
open Text (Blank Solid onlyWord?)
variable {text line later lead gap trail word rest tail : List Char} {c : Char} {key : Key}
  {lines : List (List Char)}

theorem value?_line_blank (blank : Blank line) (ended : ∀ c ∈ tail.head?, c = '\n') :
    value? (line ++ tail) = value? tail.tail := by
  rw [value?_blank blank]
  cases tail with
  | nil => rfl
  | cons c tail =>
    obtain rfl := ended c rfl
    exact value?_blank Text.blank_break tail

theorem value?_line_only (blankLead : Blank lead) (solid : Solid word) (nonempty : word ≠ [])
    (blankTrail : Blank trail) (ended : ∀ c ∈ tail.head?, c = '\n') :
    ∃ later, value? (lead ++ (word ++ trail) ++ tail) = some (word, later) ∧
      fieldsFrom later.tail = fieldsFrom tail.tail := by
  cases tail with
  | nil => exact ⟨[], by rw [List.append_nil, value?_only blankLead solid nonempty blankTrail], rfl⟩
  | cons c tail =>
    obtain rfl := ended c rfl
    obtain ⟨gap, rest, rfl, blankGap, next⟩ := Text.exists_cut Text.isBlank tail
    have blankWhole : Blank (trail ++ '\n' :: gap) :=
      blankTrail.append (Text.blank_break.append blankGap)
    cases rest with
    | nil =>
      have found := value?_only blankLead solid nonempty blankWhole
      have joined : lead ++ (word ++ trail) ++ '\n' :: (gap ++ []) =
          lead ++ (word ++ (trail ++ '\n' :: gap)) := by simp
      rw [joined, found, List.append_nil]
      exact ⟨[], rfl, (fieldsFrom_blank blankGap).symm⟩
    | cons d rest =>
      obtain ⟨before, after, split, last⟩ := fromLastBreak_some (show '\n' ∈ trail ++ '\n' :: gap by simp)
      have joined : lead ++ (word ++ trail) ++ '\n' :: (gap ++ d :: rest) =
          lead ++ (word ++ ((trail ++ '\n' :: gap) ++ d :: rest)) := by simp
      rw [joined, value?_more blankLead solid nonempty blankWhole (by simp) (next d rfl), last]
      refine ⟨'\n' :: (after ++ d :: rest), rfl, ?_⟩
      · -- either break of the gap may be taken for the one that ends the line
        have blankBefore : Blank before := fun e member => blankWhole e (by simp [split, member])
        calc fieldsFrom (after ++ d :: rest)
          _ = fieldsFrom (before ++ '\n' :: (after ++ d :: rest)) := (fieldsFrom_gap blankBefore _).symm
          _ = fieldsFrom (trail ++ '\n' :: (gap ++ d :: rest)) := by
            rw [← List.cons_append, ← List.append_assoc, ← split]
            simp
          _ = fieldsFrom (gap ++ d :: rest) := fieldsFrom_gap blankTrail _

theorem value?_line_more (blankLead : Blank lead) (solid : Solid word) (nonempty : word ≠ [])
    (blankGap : Blank gap) (apart : gap ≠ []) (next : Text.isBlank c = false)
    (single : '\n' ∉ gap) (tail : List Char) :
    value? (lead ++ (word ++ (gap ++ c :: rest)) ++ tail) = none := by
  have joined : lead ++ (word ++ (gap ++ c :: rest)) ++ tail =
      lead ++ (word ++ (gap ++ c :: (rest ++ tail))) := by simp
  rw [joined, value?_more blankLead solid nonempty blankGap apart next, fromLastBreak_none single]
  rfl

/-- The field that a line gives: a key in front, and nothing but a single word behind it. -/
def lineField? (line : List Char) : Option Field :=
  (key? (line.dropWhile Text.isBlank)).bind fun (key, rest) => (onlyWord? rest).map (⟨key, ·⟩)

def bareKey? (line : List Char) : Option Key :=
  (key? (line.dropWhile Text.isBlank)).bind fun (key, rest) =>
    if rest.all Text.isBlank then some key else none

/-- The fields of some lines. A key that is alone in its line, or the one given, has the next line
that is not blank for its value if that is a single word; it has none otherwise. -/
def entries : Option Key → List (List Char) → List Field
  | _, [] => []
  | waiting, line :: lines =>
    if line.all Text.isBlank then entries waiting lines
    else
      match waiting, onlyWord? line with
      | some key, some word => ⟨key, word⟩ :: entries none lines
      | _, _ =>
        match lineField? line with
        | some field => field :: entries none lines
        | none => entries (bareKey? line) lines

def fieldsBehind (key : Key) (text : List Char) : List Field :=
  match value? text with
  | some (value, later) => ⟨key, value⟩ :: fieldsFrom later.tail
  | none => fieldsFrom text

theorem after?_line {expected : List Char} (inLine : '\n' ∉ expected)
    (ended : ∀ c ∈ tail.head?, c = '\n') :
    Text.after? expected (text ++ tail) = (Text.after? expected text).map (· ++ tail) := by
  fun_induction Text.after? expected text with
  | case1 text => rfl
  | case2 expected c text ih =>
    rw [List.cons_append, Text.after?, if_pos rfl]
    exact ih fun member => inLine (List.mem_cons_of_mem c member)
  | case3 c expected d text differs =>
    rw [List.cons_append, Text.after?, if_neg differs]
    rfl
  | case4 c expected =>
    cases tail with
    | nil => rfl
    | cons d tail =>
      obtain rfl := ended d rfl
      have differs : c ≠ '\n' := fun same => inLine (by simp [same])
      rw [List.nil_append, Text.after?, if_neg differs]
      rfl

theorem key?_line (ended : ∀ c ∈ tail.head?, c = '\n') :
    key? (text ++ tail) = (key? text).map fun (key, rest) => (key, rest ++ tail) := by
  rw [key?, key?, after?_line (by decide) ended, after?_line (by decide) ended]
  cases Text.after? "Input:".toList text with
  | some rest => rfl
  | none => cases Text.after? "Config:".toList text <;> rfl

theorem lineField?_of_key (atKey : key? (line.dropWhile Text.isBlank) = some (key, rest)) :
    lineField? line = (onlyWord? rest).map (⟨key, ·⟩) := by
  rw [lineField?, atKey]
  rfl

theorem bareKey?_of_key (atKey : key? (line.dropWhile Text.isBlank) = some (key, rest)) :
    bareKey? line = if rest.all Text.isBlank then some key else none := by
  rw [bareKey?, atKey]
  rfl

theorem dropWhile_line (nonblank : line.all Text.isBlank = false) (tail : List Char) :
    (line ++ tail).dropWhile Text.isBlank = line.dropWhile Text.isBlank ++ tail := by
  obtain ⟨lead, rest, rfl, blank, solid⟩ := Text.exists_cut Text.isBlank line
  rw [List.append_assoc, Text.dropWhile_blank blank, Text.dropWhile_blank blank]
  cases rest with
  | nil =>
    have all : lead.all Text.isBlank = true := List.all_eq_true.mpr blank
    rw [List.append_nil, all] at nonblank
    cases nonblank
  | cons c rest => simp [solid c rfl]

theorem not_mem_behind_key (single : '\n' ∉ line)
    (atKey : key? (line.dropWhile Text.isBlank) = some (key, rest)) : '\n' ∉ rest := by
  intro member
  refine single ((List.dropWhile_suffix Text.isBlank).subset ?_)
  rw [key?_eq_some_iff.mp atKey]
  exact List.mem_append_right key.mark member

/-- A line that is not blank gives its field, or leaves its key to the lines behind it. -/
theorem fieldsFrom_line (single : '\n' ∉ line) (ended : ∀ c ∈ tail.head?, c = '\n')
    (nonblank : line.all Text.isBlank = false) : fieldsFrom (line ++ tail) =
      match lineField? line, bareKey? line with
      | some field, _ => field :: fieldsFrom tail.tail
      | none, some key => fieldsBehind key tail.tail
      | none, none => fieldsFrom tail.tail := by
  have start := field?_start (line ++ tail)
  rw [dropWhile_line nonblank, key?_line ended] at start
  cases atKey : key? (line.dropWhile Text.isBlank) with
  | none =>
    rw [atKey] at start
    have noField : lineField? line = none := by rw [lineField?, atKey]; rfl
    have noKey : bareKey? line = none := by rw [bareKey?, atKey]; rfl
    rw [noField, noKey]
    exact fieldsFrom_missed single ended start
  | some found =>
    obtain ⟨key, rest⟩ := found
    rw [atKey] at start
    have singleRest := not_mem_behind_key single atKey
    cases Text.form rest with
    | blank blank =>
      have all : rest.all Text.isBlank = true := List.all_eq_true.mpr blank
      rw [lineField?_of_key atKey, bareKey?_of_key atKey, Text.onlyWord?_blank blank, if_pos all]
      simp only [Option.map_some, Option.bind_some, value?_line_blank blank ended] at start
      unfold fieldsBehind
      cases found : value? tail.tail with
      | none =>
        rw [found] at start
        exact fieldsFrom_missed single ended start
      | some found' =>
        obtain ⟨value, later⟩ := found'
        rw [found] at start
        exact fieldsFrom_found start
    | @only lead word trail blankLead solid nonempty blankTrail =>
      obtain ⟨later, found, same⟩ := value?_line_only blankLead solid nonempty blankTrail ended
      rw [lineField?_of_key atKey, Text.onlyWord?_only blankLead solid nonempty blankTrail]
      simp only [Option.map_some, Option.bind_some, found] at start ⊢
      rw [fieldsFrom_found start, same]
    | @more lead word gap rest c blankLead solid nonempty blankGap apart next =>
      have inGap : '\n' ∉ gap := fun member => singleRest (by simp [member])
      have notAll : ¬ (lead ++ (word ++ (gap ++ c :: rest))).all Text.isBlank = true := by simp [next]
      rw [lineField?_of_key atKey, bareKey?_of_key atKey, if_neg notAll,
        Text.onlyWord?_more blankLead solid nonempty blankGap apart next]
      simp only [Option.map_some, Option.bind_some,
        value?_line_more blankLead solid nonempty blankGap apart next inGap tail] at start
      exact fieldsFrom_missed single ended start

theorem fieldsFrom_line_blank (blank : Blank line) (ended : ∀ c ∈ tail.head?, c = '\n') :
    fieldsFrom (line ++ tail) = fieldsFrom tail.tail := by
  cases tail with
  | nil => rw [List.append_nil]; exact fieldsFrom_blank blank
  | cons c tail =>
    obtain rfl := ended c rfl
    exact fieldsFrom_gap blank tail

theorem fieldsBehind_line_blank (blank : Blank line) (ended : ∀ c ∈ tail.head?, c = '\n') :
    fieldsBehind key (line ++ tail) = fieldsBehind key tail.tail := by
  rw [fieldsBehind, fieldsBehind, value?_line_blank blank ended, fieldsFrom_line_blank blank ended]

/-- Behind a key, a line of a single word is its value, and any other line speaks for itself. -/
theorem fieldsBehind_line (single : '\n' ∉ line) (ended : ∀ c ∈ tail.head?, c = '\n')
    (nonblank : line.all Text.isBlank = false) : fieldsBehind key (line ++ tail) =
      match onlyWord? line with
      | some word => ⟨key, word⟩ :: fieldsFrom tail.tail
      | none => fieldsFrom (line ++ tail) := by
  cases Text.form line with
  | blank blank =>
    have all := List.all_eq_true.mpr blank
    rw [all] at nonblank
    cases nonblank
  | only blankLead solid nonempty blankTrail =>
    obtain ⟨later, found, same⟩ := value?_line_only blankLead solid nonempty blankTrail ended
    rw [fieldsBehind, found, Text.onlyWord?_only blankLead solid nonempty blankTrail]
    exact congrArg _ same
  | @more lead word gap rest c blankLead solid nonempty blankGap apart next =>
    have inGap : '\n' ∉ gap := fun member => single (by simp [member])
    rw [fieldsBehind, value?_line_more blankLead solid nonempty blankGap apart next inGap tail,
      Text.onlyWord?_more blankLead solid nonempty blankGap apart next]

/-- One more line in front of lines that are read as they are searched. -/
theorem entries_line (single : '\n' ∉ line) (ended : ∀ c ∈ tail.head?, c = '\n')
    (search : fieldsFrom tail.tail = entries none lines)
    (behind : ∀ key, fieldsBehind key tail.tail = entries (some key) lines) :
    fieldsFrom (line ++ tail) = entries none (line :: lines) ∧
      ∀ key, fieldsBehind key (line ++ tail) = entries (some key) (line :: lines) := by
  cases all : line.all Text.isBlank with
  | true =>
    have blank : Blank line := Text.blank_of_all all
    simp only [entries, all, if_true]
    exact ⟨(fieldsFrom_line_blank blank ended).trans search,
      fun key => (fieldsBehind_line_blank blank ended).trans (behind key)⟩
  | false =>
    have first : fieldsFrom (line ++ tail) = entries none (line :: lines) := by
      rw [fieldsFrom_line single ended all, search]
      simp only [entries, all, Bool.false_eq_true, if_false]
      cases lineField? line with
      | some field => rfl
      | none =>
        cases bareKey? line with
        | none => rfl
        | some key => exact behind key
    refine ⟨first, fun key => ?_⟩
    rw [fieldsBehind_line single ended all, first, search]
    simp only [entries, all, Bool.false_eq_true, if_false]
    cases onlyWord? line <;> rfl

/-- The search over a text finds what its lines hold, read one after another. -/
theorem fieldsFrom_lined (lined : Text.Lined text lines) : fieldsFrom text = entries none lines ∧
    ∀ key, fieldsBehind key text = entries (some key) lines := by
  induction lined with
  | @last line single =>
    have nothing : fieldsFrom (line ++ []) = entries none [line] ∧
        ∀ key, fieldsBehind key (line ++ []) = entries (some key) [line] :=
      entries_line single (by simp) rfl fun _ => rfl
    rwa [List.append_nil] at nothing
  | next single later ih => exact entries_line single (by simp) ih.1 ih.2

/-- The search reads a comment line by line. -/
theorem findAll_lines (comment : List Char) :
    Text.findAll field? comment = entries none (Text.cutAt '\n' comment) := by
  have first : Text.findAll field? comment = fieldsFrom comment := by
    have alike (text : List Char) : field? none text = field? (some '\n') text := rfl
    cases comment with
    | nil => rfl
    | cons c comment => rw [Text.findAll, fieldsFrom, Text.findAllFrom, Text.findAllFrom, alike]
  exact first.trans (fieldsFrom_lined (Text.lined_cutAt comment)).1

/-- The line gives the key that value, and holds nothing else but blanks. -/
def Gives (line : List Char) (key : Key) (value : List Char) : Prop :=
  ∃ lead gap trail, line = lead ++ (key.mark ++ (gap ++ (value ++ trail))) ∧
    Blank lead ∧ Blank gap ∧ Blank trail ∧ value ≠ [] ∧ Solid value

theorem lineField?_eq_some_iff : lineField? line = some ⟨key, word⟩ ↔ Gives line key word := by
  constructor
  · intro found
    obtain ⟨⟨k, rest⟩, atKey, found⟩ := Option.bind_eq_some_iff.mp found
    obtain ⟨value, only, same⟩ := Option.map_eq_some_iff.mp found
    obtain ⟨rfl, rfl⟩ := Field.mk.inj same
    obtain ⟨gap, trail, split, blankGap, blankTrail, nonempty, solid⟩ :=
      Text.onlyWord?_eq_some_iff.mp only
    have whole := List.takeWhile_append_dropWhile (p := Text.isBlank) (l := line)
    rw [key?_eq_some_iff.mp atKey, split] at whole
    refine ⟨_, gap, trail, whole.symm, ?_, blankGap, blankTrail, nonempty, solid⟩
    exact fun c => List.mem_takeWhile_imp
  · rintro ⟨lead, gap, trail, rfl, blankLead, blankGap, blankTrail, nonempty, solid⟩
    have marked : key.mark ≠ [] := by cases key <;> decide
    have atKey : key? ((lead ++ (key.mark ++ (gap ++ (word ++ trail)))).dropWhile Text.isBlank) =
        some (key, gap ++ (word ++ trail)) := by
      rw [Text.dropWhile_blank blankLead, Text.solid_front key.mark_solid marked]
      exact key?_eq_some_iff.mpr rfl
    rw [lineField?_of_key atKey, Text.onlyWord?_only blankGap solid nonempty blankTrail]
    rfl

def LastGiven (lines : List (List Char)) (key : Key) : Option String → Prop
  | none => ∀ line ∈ lines, ∀ value, ¬ Gives line key value
  | some text => ∃ before line after value, lines = before ++ line :: after ∧
      Gives line key value ∧ text = String.ofList value ∧
      ∀ other ∈ after, ∀ value, ¬ Gives other key value

theorem headerValue_cons (key : Key) (field : Field) (fields : List Field) :
    headerValue key (field :: fields) = (headerValue key fields).or
      (if field.key = key then some (String.ofList field.value) else none) := by
  simp only [headerValue, List.reverse_cons, List.find?_append, Option.map_or]
  by_cases same : field.key = key <;> simp [same]

theorem lastGiven_headerValue (lines : List (List Char)) (key : Key) :
    LastGiven lines key (headerValue key (lines.filterMap lineField?)) := by
  induction lines with
  | nil => simp [headerValue, LastGiven]
  | cons line lines ih =>
    have step : headerValue key ((line :: lines).filterMap lineField?) =
        (headerValue key (lines.filterMap lineField?)).or
          ((lineField? line).bind fun field =>
            if field.key = key then some (String.ofList field.value) else none) := by
      cases found : lineField? line with
      | none => simp [found]
      | some field => simp [found, headerValue_cons]
    rw [step]
    cases later : headerValue key (lines.filterMap lineField?) with
    | some text =>
      rw [later] at ih
      obtain ⟨before, other, after, value, rfl, gives, same, last⟩ := ih
      exact ⟨line :: before, other, after, value, rfl, gives, same, last⟩
    | none =>
      rw [later] at ih
      rw [Option.none_or]
      cases here : (lineField? line).bind fun field =>
          if field.key = key then some (String.ofList field.value) else none with
      | some text =>
        obtain ⟨⟨k, value⟩, found, here⟩ := Option.bind_eq_some_iff.mp here
        obtain ⟨rfl, same⟩ := Option.ite_none_right_eq_some.mp here
        exact ⟨[], line, lines, value, rfl, lineField?_eq_some_iff.mp found,
          (Option.some.inj same).symm, ih⟩
      | none =>
        refine List.forall_mem_cons.mpr ⟨fun value gives => ?_, ih⟩
        rw [lineField?_eq_some_iff.mpr gives] at here
        simp at here

def next? (lines : List (List Char)) : Option (List Char) := lines.find? (!·.all Text.isBlank)

/-- No line with nothing but a key has a line of a single word for the next one, blank lines aside. -/
def Separate : List (List Char) → Prop
  | [] => True
  | line :: lines => (bareKey? line ≠ none → (next? lines).bind onlyWord? = none) ∧ Separate lines

instance decidableSeparate : DecidablePred Separate
  | [] => isTrue trivial
  | line :: lines =>
    have := decidableSeparate lines
    inferInstanceAs (Decidable ((bareKey? line ≠ none → (next? lines).bind onlyWord? = none) ∧
      Separate lines))

theorem lineField?_blank (blank : Blank line) : lineField? line = none := by
  have nothing : line.dropWhile Text.isBlank = [] := by simpa using Text.dropWhile_blank blank []
  rw [lineField?, nothing]
  rfl

/-- Lines that are separate give what each of them gives alone. -/
theorem entries_separate (separate : Separate lines) :
    entries none lines = lines.filterMap lineField? ∧ ∀ key, (next? lines).bind onlyWord? = none →
      entries (some key) lines = lines.filterMap lineField? := by
  induction lines with
  | nil => exact ⟨rfl, fun _ _ => rfl⟩
  | cons line lines ih =>
    obtain ⟨alone, separate⟩ := separate
    obtain ⟨search, behind⟩ := ih separate
    cases all : line.all Text.isBlank with
    | true =>
      have missed := lineField?_blank (Text.blank_of_all all)
      have passed : next? (line :: lines) = next? lines := by simp only [next?, List.find?_cons, all]; rfl
      simp only [entries, all, if_true, List.filterMap_cons, missed, passed]
      exact ⟨search, behind⟩
    | false =>
      have first : entries none (line :: lines) = (line :: lines).filterMap lineField? := by
        simp only [entries, all, Bool.false_eq_true, if_false, List.filterMap_cons]
        cases lineField? line with
        | some field => exact congrArg (field :: ·) search
        | none =>
          cases bare : bareKey? line with
          | none => exact search
          | some key => exact behind key (alone (by simp [bare]))
      refine ⟨first, fun key noWord => ?_⟩
      have shown : next? (line :: lines) = some line := by simp only [next?, List.find?_cons, all]; rfl
      rw [shown, Option.bind_some] at noWord
      rw [← first]
      simp only [entries, all, noWord, Bool.false_eq_true, if_false]

theorem bind_eq_ok {α β ε : Type} {first : Except ε α} {next : α → Except ε β} {b : β} :
    first >>= next = .ok b ↔ ∃ a, first = .ok a ∧ next a = .ok b := by
  cases first with
  | error e => simp [Bind.bind, Except.bind]
  | ok a => simp [Bind.bind, Except.bind]

/-- A table that is read has its words from the first array and its origin from the header fields. -/
theorem parts_of_table {t : Table} (found : table text = .ok t) :
    ∃ array, firstArray? (code text) = some array ∧ arrayWords array = .ok t.words ∧
      t.source = headerValue .source (fields text) ∧ t.pins = headerValue .pins (fields text) := by
  simp only [table] at found
  cases first : firstArray? (code text) with
  | none => rw [first] at found; cases found
  | some array =>
    rw [first] at found
    obtain ⟨words, read, found⟩ := bind_eq_ok.mp found
    obtain ⟨count, _, found⟩ := bind_eq_ok.mp found
    obtain ⟨width, _, found⟩ := bind_eq_ok.mp found
    obtain ⟨control, _, found⟩ := bind_eq_ok.mp found
    obtain rfl := Except.ok.inj found
    exact ⟨array, rfl, read, rfl, rfl⟩

theorem header_of_table {t : Table} (found : table text = .ok t) :
    t.source = headerValue .source (fields text) ∧ t.pins = headerValue .pins (fields text) := by
  obtain ⟨_, _, _, header⟩ := parts_of_table found
  exact header

/-- The header values are the last among what the lines of each comment give when they are read one
after another; where no key waits for the next line, they are the last that a line gives by itself. -/
theorem header_by_lines {t : Table} (found : table text = .ok t) :
    let comments := (blockComments text).map (Text.cutAt '\n')
    (t.source = headerValue .source (comments.flatMap (entries none)) ∧
      t.pins = headerValue .pins (comments.flatMap (entries none))) ∧
    ((∀ lines ∈ comments, Separate lines) → LastGiven comments.flatten .source t.source ∧
      LastGiven comments.flatten .pins t.pins) := by
  intro comments
  have read : fields text = comments.flatMap (entries none) := by
    have search : Text.findAll field? = fun comment => entries none (Text.cutAt '\n' comment) :=
      funext findAll_lines
    rw [fields, search, List.flatMap_map]
  obtain ⟨source, pins⟩ := header_of_table found
  rw [read] at source pins
  refine ⟨⟨source, pins⟩, fun separate => ?_⟩
  have alone : comments.flatMap (entries none) = comments.flatten.filterMap lineField? := by
    rw [List.filterMap_flatten, ← List.flatMap_def]
    exact List.flatMap_congr fun lines member => (entries_separate (separate lines member)).1
  rw [source, pins, alone]
  exact ⟨lastGiven_headerValue _ _, lastGiven_headerValue _ _⟩

/-- A key without a value, in front of a line of two words, and two comments. -/
theorem header_by_lines_twoComments :
    let header := "/*\n Input:  a.sv \nInput:\nb c\n*//*\nConfig: io\r\n*/".toList
    let decls := "const uint32_t t[]=\x7b1\x7d;const uint32_t t_count=1;const uint32_t t_width=8;".toList
    let text := header ++ decls
    let comments := (blockComments text).map (Text.cutAt '\n')
    table text = .ok ⟨"t", [1], 1, 8, none, some "a.sv", some "io"⟩ ∧
      (∀ lines ∈ comments, Separate lines) ∧ LastGiven comments.flatten .source (some "a.sv") ∧
      LastGiven comments.flatten .pins (some "io") := by
  intro header decls text comments
  have found : table text = .ok ⟨"t", [1], 1, 8, none, some "a.sv", some "io"⟩ := by
    decide +kernel
  have separate : ∀ lines ∈ comments, Separate lines := by decide +kernel
  exact ⟨found, separate, (header_by_lines found).2 separate⟩

/-- A key without a value takes the rule in the next line for it, though no line gives one. -/
theorem header_takes_next_line :
    let decls := "const uint32_t t[]=\x7b1\x7d;const uint32_t t_count=1;const uint32_t t_width=8;".toList
    let text := "/*\nConfig:\n====\n*/".toList ++ decls
    let lines := ((blockComments text).map (Text.cutAt '\n')).flatten
    table text = .ok ⟨"t", [1], 1, 8, none, none, some "===="⟩ ∧ LastGiven lines .pins none ∧
      ¬ LastGiven lines .pins (some "====") := by
  intro decls text lines
  have nothing : ∀ line ∈ lines, lineField? line = none := by decide +kernel
  have none : LastGiven lines .pins none := by
    intro line member value gives
    have found := lineField?_eq_some_iff.mpr gives
    rw [nothing line member] at found
    cases found
  refine ⟨by decide +kernel, none, ?_⟩
  rintro ⟨before, line, after, value, split, gives, _⟩
  exact none line (by simp [split]) value gives

end FabricLoader.Source
