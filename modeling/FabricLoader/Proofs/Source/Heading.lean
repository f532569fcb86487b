import FabricLoader.Proofs.Source.Declared
import Mathlib.Data.List.Basic

/-! The header comment in front of a listing. It ends at its own closing mark and gives way to one
blank, and the lines that begin with a key are its only fields, whatever their values are. -/
namespace FabricLoader.Source
variable {text rest : List Char} {c : Char} {before : Option Char}

theorem piecesFrom_plain {part : List Char} (h : '/' ∉ part) (rest : List Char) :
    piecesFrom none (part ++ rest) = part.map .char ++ piecesFrom none rest := by
  induction part with
  | nil => rfl
  | cons c part ih =>
    have other : c ≠ '/' := by
      rintro rfl
      exact h List.mem_cons_self
    rw [List.cons_append, piecesFrom, ih fun member => h (List.mem_cons_of_mem c member)]
    · rfl
    · intro _ same
      exact absurd same other

/-- A comment runs up to the first closing mark. -/
theorem piecesFrom_comment {body : List Char} (h : ¬ ['*', '/'] <:+: body) (read rest : List Char) :
    piecesFrom (some read) (body ++ '*' :: '/' :: rest) =
      .comment (read.reverse ++ body) :: piecesFrom none rest := by
  induction body generalizing read with
  | nil => simp [piecesFrom]
  | cons c body ih =>
    have noEarly : ∀ later, c = '*' → body ++ '*' :: '/' :: rest = '/' :: later → False := by
      rintro later rfl closed
      apply h
      cases body with
      | nil => simp at closed
      | cons d body =>
        obtain ⟨rfl, _⟩ := List.cons.inj closed
        exact ⟨[], body, rfl⟩
    rw [List.cons_append, piecesFrom]
    · rw [ih fun inside => h (inside.trans (List.suffix_cons c body).isInfix)]
      simp
    · exact noEarly

theorem withoutLineComments_plain (h : '/' ∉ text) : withoutLineCommentsFrom false text = text := by
  induction text with
  | nil => rfl
  | cons c text ih =>
    have other : c ≠ '/' := by
      rintro rfl
      exact h List.mem_cons_self
    rw [withoutLineCommentsFrom, ih fun member => h (List.mem_cons_of_mem c member)]
    intro _ same
    exact absurd same other

theorem open_plain {line : List Char} (plain : '*' ∉ line) : ¬ ['*', '/'] <:+: line :=
  fun inside => plain (inside.subset List.mem_cons_self)

theorem open_behind {first second : List Char} (plain : '*' ∉ first)
    (opened : ¬ ['*', '/'] <:+: second) : ¬ ['*', '/'] <:+: first ++ second := by
  induction first with
  | nil => exact opened
  | cons c first ih =>
    rw [List.cons_append, List.infix_cons_iff]
    rintro (⟨later, starts⟩ | inside)
    · obtain ⟨rfl, _⟩ := List.cons.inj starts
      exact plain List.mem_cons_self
    · exact ih (fun member => plain (List.mem_cons_of_mem c member)) inside

theorem open_before {first second : List Char} (opened : ¬ ['*', '/'] <:+: first)
    (later : ¬ ['*', '/'] <:+: second) : ¬ ['*', '/'] <:+: first ++ '\n' :: second := by
  induction first with
  | nil =>
    change ¬ ['*', '/'] <:+: ['\n'] ++ second
    exact open_behind (by decide) later
  | cons c first ih =>
    rw [List.cons_append, List.infix_cons_iff]
    rintro (⟨tail, starts⟩ | inside)
    · obtain ⟨rfl, closed⟩ := List.cons.inj starts
      cases first with
      | nil => cases closed
      | cons d first =>
        obtain ⟨rfl, _⟩ := List.cons.inj closed
        exact opened ⟨[], first, rfl⟩
    · exact ih (fun inner => opened (inner.trans (List.suffix_cons c first).isInfix)) inside

theorem open_lines {lines : List (List Char)} (each : ∀ line ∈ lines, ¬ ['*', '/'] <:+: line) :
    ¬ ['*', '/'] <:+: lines.flatMap (· ++ ['\n']) := by
  induction lines with
  | nil => decide
  | cons line lines ih =>
    rw [List.flatMap_cons, List.append_assoc, List.singleton_append]
    exact open_before (each line List.mem_cons_self)
      (ih fun other member => each other (List.mem_cons_of_mem line member))

namespace Heading
variable (heading : Heading)

/-- The header comment is not closed before its end. -/
theorem body_open : ¬ ['*', '/'] <:+: heading.body := by
  refine open_behind (show '*' ∉ ['\n'] by decide) (open_lines ?_)
  intro line member
  simp only [lines, List.mem_cons, List.not_mem_nil, or_false] at member
  rcases member with rfl | rfl | rfl | rfl | rfl | rfl
  · exact open_plain (by decide)
  · exact open_plain (by decide)
  · exact open_plain (by decide)
  · exact open_behind (by decide) heading.source_open
  · exact open_behind (by decide) heading.pins_open
  · exact open_plain (by decide)

theorem pieces_comment {gap : List Char} (slashless : '/' ∉ gap) (rest : List Char) :
    pieces (gap ++ (heading.comment ++ rest)) =
      gap.map .char ++ .comment heading.body :: piecesFrom none rest := by
  have closed := piecesFrom_comment heading.body_open [] rest
  have marks : heading.comment ++ rest = '/' :: '*' :: (heading.body ++ '*' :: '/' :: rest) := by
    simp [comment]
  rw [pieces, piecesFrom_plain slashless, marks, piecesFrom, closed]
  rfl

end Heading

theorem code_plain (h : '/' ∉ text) : code text = text := by
  have cut := piecesFrom_plain h []
  rw [List.append_nil] at cut
  rw [code, pieces, cut]
  simp [piecesFrom, Function.comp_def, Piece.plain, withoutLineComments_plain h]

theorem fields_plain (h : '/' ∉ text) : fields text = [] := by
  have cut := piecesFrom_plain h []
  rw [List.append_nil] at cut
  rw [fields, blockComments, pieces, cut]
  simp [piecesFrom]

/-- The header comment gives way to a blank. -/
theorem code_headed (heading : Heading) {gap : List Char} (before : '/' ∉ gap) (after : '/' ∉ text) :
    code (gap ++ (heading.comment ++ text)) = gap ++ ' ' :: text := by
  have cut := piecesFrom_plain after []
  rw [List.append_nil] at cut
  have plain : '/' ∉ gap ++ ' ' :: text := by simp [before, after]
  rw [code, heading.pieces_comment before, cut]
  simpa [piecesFrom, Function.comp_def, Piece.plain] using withoutLineComments_plain plain

theorem fields_headed (heading : Heading) {gap : List Char} (before : '/' ∉ gap)
    (after : '/' ∉ text) : fields (gap ++ (heading.comment ++ text)) =
      Text.findAll field? heading.comment := by
  have cut := piecesFrom_plain after []
  rw [List.append_nil] at cut
  rw [fields, blockComments, heading.pieces_comment before, cut]
  simp [piecesFrom, Heading.comment, List.filterMap_none]

theorem field?_inside (h : c ≠ '\n') (text : List Char) : field? (some c) text = none := by
  simp [field?, h]

theorem findAllFrom_inside (h : c ≠ '\n') {part : List Char} (single : '\n' ∉ part)
    (rest : List Char) : Text.findAllFrom field? 0 (some c) (part ++ '\n' :: rest) =
      Text.findAllFrom field? 0 (some '\n') rest := by
  induction part generalizing c with
  | nil => exact Text.findAllFrom_missed (field?_inside h _)
  | cons d part ih =>
    have other : d ≠ '\n' := by
      rintro rfl
      exact single List.mem_cons_self
    rw [List.cons_append, Text.findAllFrom_missed (field?_inside h _)]
    exact ih other fun member => single (List.mem_cons_of_mem d member)

/-- A line that does not begin like a key holds no field. -/
theorem findAllFrom_line {line : List Char} (solid : Text.isBlank c = false) (noSource : c ≠ 'I')
    (noPins : c ≠ 'C') (single : '\n' ∉ line) (rest : List Char) :
    Text.findAllFrom field? 0 before (c :: (line ++ '\n' :: rest)) =
      Text.findAllFrom field? 0 (some '\n') rest := by
  have inLine : c ≠ '\n' := by
    rintro rfl
    exact absurd solid (by decide)
  have source : Text.after? "Input:".toList (c :: (line ++ '\n' :: rest)) = none :=
    if_neg (Ne.symm noSource)
  have pins : Text.after? "Config:".toList (c :: (line ++ '\n' :: rest)) = none :=
    if_neg (Ne.symm noPins)
  have noKey : key? (c :: (line ++ '\n' :: rest)) = none := by
    rw [key?, source, pins]
    rfl
  have missed : field? before (c :: (line ++ '\n' :: rest)) = none := by
    simp [field?, solid, noKey]
  rw [Text.findAllFrom_missed missed]
  exact findAllFrom_inside inLine single rest

/-- A line with a key and a value, in front of a line that is not blank. -/
theorem field?_line {key : Key} {pad value : List Char} {d : Char}
    (front : key? (text.dropWhile Text.isBlank) = some (key, pad ++ (value ++ '\n' :: d :: rest)))
    (padding : ∀ c ∈ pad, Text.isBlank c = true) (nonempty : value ≠ [])
    (solid : ∀ c ∈ value, Text.isBlank c = false) (next : Text.isBlank d = false) :
    field? (some '\n') text = some (⟨key, value⟩, '\n' :: d :: rest) := by
  have atValue : (pad ++ (value ++ '\n' :: d :: rest)).dropWhile Text.isBlank =
      value ++ '\n' :: d :: rest := by
    obtain ⟨c, tail, rfl⟩ := List.exists_cons_of_ne_nil nonempty
    rw [List.dropWhile_append_of_pos padding, List.cons_append,
      List.dropWhile_cons_of_neg (by simp [solid c List.mem_cons_self])]
  have dense : ∀ c ∈ value, (!Text.isBlank c) = true := by
    intro c member
    simp [solid c member]
  have cut : (value ++ '\n' :: d :: rest).takeWhile (!Text.isBlank ·) = value ∧
      (value ++ '\n' :: d :: rest).dropWhile (!Text.isBlank ·) = '\n' :: d :: rest := by
    rw [List.takeWhile_append_of_pos dense, List.dropWhile_append_of_pos dense,
      List.takeWhile_cons_of_neg (by decide), List.dropWhile_cons_of_neg (by decide)]
    exact ⟨List.append_nil value, rfl⟩
  have gap : ('\n' :: d :: rest).takeWhile Text.isBlank = ['\n'] ∧
      ('\n' :: d :: rest).dropWhile Text.isBlank = d :: rest := by
    rw [List.takeWhile_cons_of_pos (by decide), List.dropWhile_cons_of_pos (by decide),
      List.takeWhile_cons_of_neg (by simp [next]), List.dropWhile_cons_of_neg (by simp [next])]
    exact ⟨rfl, rfl⟩
  have present : value.isEmpty = false := by simpa using nonempty
  simp only [field?, front, atValue, cut.1, cut.2, gap.1, gap.2, present, Option.all_some,
    beq_self_eq_true, Option.bind_eq_bind, Option.bind_some, if_true, List.isEmpty_cons]
  rfl

/-- The search goes on behind the value of a field. -/
theorem findAllFrom_field {front value : List Char} {d : Char} {field : Field}
    (found : field? (some '\n') (c :: (front ++ (value ++ '\n' :: d :: rest))) =
      some (field, '\n' :: d :: rest))
    (nonempty : value ≠ []) (solid : ∀ c ∈ value, Text.isBlank c = false) :
    Text.findAllFrom field? 0 (some '\n') (c :: (front ++ (value ++ '\n' :: d :: rest))) =
      field :: Text.findAllFrom field? 0 (some '\n') (d :: rest) := by
  rw [← List.append_assoc] at found ⊢
  have last : (front ++ value).getLast?.or (some c) = some (value.getLast nonempty) := by
    rw [List.getLast?_append, List.getLast?_eq_some_getLast nonempty]
    rfl
  have inLine : value.getLast nonempty ≠ '\n' := by
    intro same
    have blank := solid _ (List.getLast_mem nonempty)
    rw [same] at blank
    exact absurd blank (by decide)
  rw [Text.findAllFrom_found found, last, Text.findAllFrom_missed (field?_inside inLine _)]

namespace Heading
variable (heading : Heading)

theorem comment_eq : heading.comment = '/' :: (['*'] ++ '\n' :: '=' ::
    (List.replicate 61 '=' ++ '\n' :: 'P' :: ("RISM Downloadable Configuration".toList ++
      '\n' :: '\n' :: ("Input:    ".toList ++ (heading.source ++ '\n' ::
        'C' :: ("onfig:   ".toList ++ (heading.pins ++ '\n' :: '=' ::
          (List.replicate 61 '=' ++ '\n' :: "*/".toList)))))))) := by
  have dashed : rule = '=' :: List.replicate 61 '=' := rfl
  generalize List.replicate 61 '=' = dashes at dashed ⊢
  simp [comment, body, lines, dashed]

/-- The fields of the header comment are its two keys. -/
theorem findAll_comment : Text.findAll field? heading.comment =
    [⟨.source, heading.source⟩, ⟨.pins, heading.pins⟩] := by
  have ruled : '\n' ∉ List.replicate 61 '=' := by decide
  have pins (rest : List Char) : field? (some '\n') ('C' :: ("onfig:   ".toList ++
      (heading.pins ++ '\n' :: '=' :: rest))) = some (⟨.pins, heading.pins⟩, '\n' :: '=' :: rest) :=
    field?_line (show _ = some (Key.pins, [' ', ' ', ' '] ++ _) from rfl)
      (List.all_eq_true.mp (by decide))
      heading.pins_ne_nil heading.pins_solid (by decide)
  have source (rest : List Char) : field? (some '\n') ('\n' :: ("Input:    ".toList ++
      (heading.source ++ '\n' :: 'C' :: rest))) = some (⟨.source, heading.source⟩, '\n' :: 'C' :: rest) :=
    field?_line (show _ = some (Key.source, [' ', ' ', ' ', ' '] ++ _) from rfl)
      (List.all_eq_true.mp (by decide))
      heading.source_ne_nil heading.source_solid (by decide)
  rw [comment_eq, Text.findAll, findAllFrom_line (by decide) (by decide) (by decide) (by decide),
    findAllFrom_line (by decide) (by decide) (by decide) ruled,
    findAllFrom_line (by decide) (by decide) (by decide) (by decide),
    findAllFrom_field (source _) heading.source_ne_nil heading.source_solid,
    findAllFrom_field (pins _) heading.pins_ne_nil heading.pins_solid,
    findAllFrom_line (by decide) (by decide) (by decide) ruled]
  rfl

end Heading

end FabricLoader.Source
