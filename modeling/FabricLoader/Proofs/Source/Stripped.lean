import FabricLoader.Proofs.Source.Heading

/-! Comments as a reader of C finds them: in one pass from the left, so that neither kind of comment
begins inside the other. Block comments are taken out first here and line comments afterwards, which
comes to the same unless a closing mark answers an opening mark inside a line comment: everything
between the two is lost then, and the line comment goes on behind the closing mark. -/
namespace FabricLoader.Source

/-- A part of a text that a single pass from the left comes upon. -/
inductive Segment where
  | char (c : Char)
  /-- The text between the two marks. -/
  | block (body : List Char)
  /-- The text after the mark, up to the line break or the end. -/
  | line (body : List Char)

namespace Segment

def text : Segment → List Char
  | char c => [c]
  | block body => '/' :: '*' :: (body ++ ['*', '/'])
  | line body => '/' :: '/' :: body

def plain : Segment → Char
  | char c => c
  | block _ | line _ => ' '

end Segment

def opensComment : List Char → Bool
  | '/' :: '*' :: _ | '/' :: '/' :: _ => true
  | _ => false

/-- The segments of a text in which every block comment is closed. -/
inductive Reads : List Char → List Segment → Prop
  | nil : Reads [] []
  | char {c : Char} {text : List Char} {segments : List Segment}
      (outside : opensComment (c :: text) = false) (rest : Reads text segments) :
      Reads (c :: text) (.char c :: segments)
  | block {body text : List Char} {segments : List Segment} (first : ¬ ['*', '/'] <:+: body)
      (rest : Reads text segments) :
      Reads ('/' :: '*' :: (body ++ '*' :: '/' :: text)) (.block body :: segments)
  | line {body text : List Char} {segments : List Segment} (single : '\n' ∉ body)
      (ended : ∀ c ∈ text.head?, c = '\n') (rest : Reads text segments) :
      Reads ('/' :: '/' :: (body ++ text)) (.line body :: segments)

variable {text later body : List Char} {c : Char} {segments : List Segment}

theorem Reads.text_eq (reads : Reads text segments) : segments.flatMap Segment.text = text := by
  induction reads with
  | nil => rfl
  | char _ _ ih => simp [Segment.text, ih]
  | block _ _ ih => simp [Segment.text, ih]
  | line _ _ _ ih => simp [Segment.text, ih]

/-- A stretch without a slash holds no comment. -/
theorem Reads.plain {part : List Char} (slashless : '/' ∉ part) (reads : Reads text segments) :
    Reads (part ++ text) (part.map .char ++ segments) := by
  induction part with
  | nil => exact reads
  | cons c part ih =>
    obtain ⟨other, behind⟩ := List.ne_and_not_mem_of_not_mem_cons slashless
    refine .char ?_ (ih behind)
    unfold opensComment
    split <;> simp_all

/-- Whether a block comment is open at the end of a text. The first argument tells whether one is
open at its beginning. -/
def leavesOpen : Bool → List Char → Bool
  | false, '/' :: '*' :: text => leavesOpen true text
  | false, _ :: text => leavesOpen false text
  | true, '*' :: '/' :: text => leavesOpen false text
  | true, _ :: text => leavesOpen true text
  | inside, [] => inside

/-- No closing mark in the text after a line comment answers an opening mark in it. A star right
behind the two slashes makes an opening mark with the second of them, and that one may not be
answered in the comment either. -/
def Contained : List Char → List Char → Prop
  | '*' :: body, later => ¬ ['*', '/'] <:+: body ++ later
  | body, later => leavesOpen false body = false ∨ ¬ ['*', '/'] <:+: later

def Undisturbed : List Segment → Prop
  | [] => True
  | .line body :: later => Contained body (later.flatMap Segment.text) ∧ Undisturbed later
  | .char _ :: later | .block _ :: later => Undisturbed later

@[simp] theorem map_plain_char (text : List Char) :
    (text.map Piece.char).map Piece.plain = text := by
  simp [Function.comp_def, Piece.plain]

/-- An opening mark that is not answered is ordinary text. -/
theorem piecesFrom_open (unanswered : ¬ ['*', '/'] <:+: text) (read : List Char) :
    piecesFrom (some read) text = ('/' :: '*' :: (read.reverse ++ text)).map .char := by
  induction text generalizing read with
  | nil => simp [piecesFrom]
  | cons c text ih =>
    have noEarly : ∀ later, c = '*' → text = '/' :: later → False := by
      rintro later rfl rfl
      exact unanswered ⟨[], later, rfl⟩
    have behind : ¬ ['*', '/'] <:+: text := fun inside =>
      unanswered (inside.trans (List.suffix_cons c text).isInfix)
    rw [piecesFrom, ih behind]
    · simp
    · exact noEarly

theorem piecesFrom_unclosed (unanswered : ¬ ['*', '/'] <:+: text) :
    piecesFrom none text = text.map .char := by
  induction text with
  | nil => rfl
  | cons c text ih =>
    have behind : ¬ ['*', '/'] <:+: text := fun inside =>
      unanswered (inside.trans (List.suffix_cons c text).isInfix)
    by_cases opened : ∃ rest, c = '/' ∧ text = '*' :: rest
    · obtain ⟨rest, rfl, rfl⟩ := opened
      have open_rest := piecesFrom_open (fun inside =>
        behind (inside.trans (List.suffix_cons '*' rest).isInfix)) []
      rw [piecesFrom, open_rest]
      rfl
    · rw [piecesFrom, ih behind, List.map_cons]
      rintro rest rfl rfl
      exact opened ⟨rest, rfl, rfl⟩

/-- What is left of a line comment once block comments are gone is in the same line. -/
theorem piecesFrom_body (inside : Bool) {read : List Char} (single : '\n' ∉ body)
    (singleRead : '\n' ∉ read) (ended : ∀ c ∈ later.head?, c = '\n')
    (kept : leavesOpen inside body = false ∨ ¬ ['*', '/'] <:+: later) :
    ∃ shown, '\n' ∉ shown ∧
      (piecesFrom (if inside then some read else none) (body ++ later)).map Piece.plain =
        shown ++ (piecesFrom none later).map Piece.plain := by
  have noEnd {d : Char} (other : d ≠ '\n') {rest : List Char} : later ≠ d :: rest := by
    rintro rfl
    exact other (ended d rfl)
  have nothing : '\n' ∉ ([] : List Char) := by simp
  fun_induction leavesOpen inside body generalizing read with
  | case1 body ih =>
    simp only [List.mem_cons, not_or] at single
    exact ih single.2.2 nothing kept
  | case2 c body outside ih =>
    obtain ⟨other, behind⟩ := List.ne_and_not_mem_of_not_mem_cons single
    obtain ⟨shown, within, cut⟩ := ih behind singleRead kept
    have noMark : ∀ rest, c = '/' → body ++ later = '*' :: rest → False := by
      rintro rest rfl split
      cases body with
      | nil => exact noEnd (by decide) split
      | cons d body => exact outside body rfl (by rw [(List.cons.inj split).1])
    refine ⟨c :: shown, List.not_mem_cons_of_ne_of_not_mem other within, ?_⟩
    rw [List.cons_append, if_neg Bool.false_ne_true, piecesFrom, List.map_cons]
    · exact congrArg (c :: ·) cut
    · exact noMark
  | case3 body ih =>
    simp only [List.mem_cons, not_or] at single
    obtain ⟨shown, within, cut⟩ := ih single.2.2 nothing kept
    refine ⟨' ' :: shown, List.not_mem_cons_of_ne_of_not_mem (by decide) within, ?_⟩
    exact congrArg (' ' :: ·) cut
  | case4 c body early ih =>
    obtain ⟨other, behind⟩ := List.ne_and_not_mem_of_not_mem_cons single
    have noMark : ∀ rest, c = '*' → body ++ later = '/' :: rest → False := by
      rintro rest rfl split
      cases body with
      | nil => exact noEnd (by decide) split
      | cons d body => exact early body rfl (by rw [(List.cons.inj split).1])
    obtain ⟨shown, within, cut⟩ := ih behind
      (List.not_mem_cons_of_ne_of_not_mem other singleRead) kept
    refine ⟨shown, within, ?_⟩
    rw [List.cons_append, if_pos rfl, piecesFrom]
    · exact cut
    · exact noMark
  | case5 inside =>
    cases inside with
    | false => exact ⟨[], by simp, rfl⟩
    | true =>
      have unanswered := kept.resolve_left (by decide)
      refine ⟨'/' :: '*' :: read.reverse, by simp [singleRead], ?_⟩
      rw [List.nil_append, if_pos rfl, piecesFrom_open unanswered, piecesFrom_unclosed unanswered,
        map_plain_char, map_plain_char]
      rfl

theorem withoutLineComments_within {shown : List Char} (single : '\n' ∉ shown) (rest : List Char) :
    withoutLineCommentsFrom true (shown ++ rest) = withoutLineCommentsFrom true rest := by
  induction shown with
  | nil => rfl
  | cons c shown ih =>
    obtain ⟨other, behind⟩ := List.ne_and_not_mem_of_not_mem_cons single
    rw [List.cons_append, withoutLineCommentsFrom, ih behind]
    exact fun same => other same.symm

theorem withoutLineComments_ended (ended : ∀ c ∈ text.head?, c = '\n') :
    withoutLineCommentsFrom true text = withoutLineCommentsFrom false text := by
  cases text with
  | nil => rfl
  | cons c text =>
    obtain rfl := ended c rfl
    rfl

/-- A line comment that is contained is still a comment of the same line once block comments are
gone. -/
theorem pieces_line (single : '\n' ∉ body) (ended : ∀ c ∈ text.head?, c = '\n')
    (contained : Contained body text) :
    ∃ shown, '\n' ∉ shown ∧ (pieces ('/' :: '/' :: (body ++ text))).map Piece.plain =
      '/' :: '/' :: (shown ++ (pieces text).map Piece.plain) := by
  by_cases starred : ∃ rest, body = '*' :: rest
  · obtain ⟨rest, rfl⟩ := starred
    have unanswered : ¬ ['*', '/'] <:+: rest ++ text := contained
    have behind : ¬ ['*', '/'] <:+: text := fun inside =>
      unanswered (inside.trans (List.suffix_append rest text).isInfix)
    have whole : pieces ('/' :: '/' :: '*' :: (rest ++ text)) =
        ('/' :: '/' :: '*' :: (rest ++ text)).map .char := by
      change .char '/' :: piecesFrom (some []) (rest ++ text) = _
      rw [piecesFrom_open unanswered]
      rfl
    refine ⟨'*' :: rest, single, ?_⟩
    rw [List.cons_append, whole, pieces, piecesFrom_unclosed behind, map_plain_char, map_plain_char]
    rfl
  · have kept : leavesOpen false body = false ∨ ¬ ['*', '/'] <:+: text := by
      rwa [Contained] at contained
      exact fun rest same => starred ⟨rest, same⟩
    obtain ⟨shown, within, cut⟩ := piecesFrom_body false single List.not_mem_nil ended kept
    have noMark : ∀ rest, '/' = '/' → body ++ text = '*' :: rest → False := by
      rintro rest - split
      cases body with
      | nil => exact absurd (ended '*' (by rw [show text = '*' :: rest from split]; rfl)) (by decide)
      | cons d body => exact starred ⟨body, by rw [(List.cons.inj split).1]⟩
    have slashes : pieces ('/' :: '/' :: (body ++ text)) =
        .char '/' :: .char '/' :: piecesFrom none (body ++ text) := by
      change .char '/' :: piecesFrom none ('/' :: (body ++ text)) = _
      rw [piecesFrom]
      exact noMark
    refine ⟨shown, within, ?_⟩
    rw [slashes, List.map_cons, List.map_cons]
    exact congrArg (fun rest => '/' :: '/' :: rest) cut

/-- No slash is left at the front of a text that did not begin with one. -/
theorem slash_of_pieces {rest : List Char} (split : (pieces text).map Piece.plain = '/' :: rest) :
    ∃ rest, text = '/' :: rest := by
  cases text with
  | nil => cases split
  | cons c text =>
    by_cases slash : c = '/'
    · exact ⟨text, by rw [slash]⟩
    · rw [pieces, piecesFrom] at split
      · exact absurd (List.cons.inj split).1 slash
      · exact fun _ same => absurd same slash

/-- Where line comments are contained, the text in which declarations are looked for is the text
with a blank for every comment that a single pass from the left finds, and otherwise as it was. -/
theorem code_segments (reads : Reads text segments) (undisturbed : Undisturbed segments) :
    code text = segments.map Segment.plain := by
  induction reads with
  | nil => rfl
  | @char c text segments outside rest ih =>
    have noBlock : ∀ rest, c = '/' → text = '*' :: rest → False := by
      rintro rest rfl rfl
      exact Bool.noConfusion outside
    have noLine : ∀ rest, c = '/' → (pieces text).map Piece.plain = '/' :: rest → False := by
      rintro rest rfl split
      obtain ⟨rest, rfl⟩ := slash_of_pieces split
      exact Bool.noConfusion outside
    rw [List.map_cons, ← ih undisturbed, code, pieces, piecesFrom, List.map_cons, Piece.plain]
    · rw [withoutLineCommentsFrom]
      · rfl
      · exact noLine
    · exact noBlock
  | @block body text segments first rest ih =>
    have cut := piecesFrom_comment first [] text
    rw [List.map_cons, ← ih undisturbed, code, pieces, piecesFrom, cut]
    rfl
  | @line body text segments single ended rest ih =>
    obtain ⟨contained, undisturbed⟩ := undisturbed
    rw [rest.text_eq] at contained
    obtain ⟨shown, within, cut⟩ := pieces_line single ended contained
    have endedPlain : ∀ c ∈ ((pieces text).map Piece.plain).head?, c = '\n' := by
      cases text with
      | nil => simp [pieces, piecesFrom]
      | cons c text =>
        obtain rfl := ended c rfl
        exact fun c same => (Option.some.inj same).symm
    rw [List.map_cons, ← ih undisturbed, code, cut, withoutLineCommentsFrom,
      withoutLineComments_within within, withoutLineComments_ended endedPlain]
    rfl

/-- A line comment with marks that are answered in it, in front of a block comment. -/
theorem code_segments_marked :
    let text := "// a /* b */".toList ++ '\n' :: "/*/**/".toList
    let segments : List Segment := [.line " a /* b */".toList, .char '\n', .block "/*".toList]
    Reads text segments ∧ Undisturbed segments ∧ code text = [' ', '\n', ' '] := by
  intro text segments
  have block : Reads "/*/**/".toList [.block "/*".toList] :=
    @Reads.block "/*".toList [] [] (by decide) .nil
  have ended : ∀ c ∈ ('\n' :: "/*/**/".toList).head?, c = '\n' := by simp
  have reads : Reads text segments :=
    @Reads.line " a /* b */".toList _ _ (by decide) ended (.char rfl block)
  have undisturbed : Undisturbed segments := ⟨.inl (by decide), trivial⟩
  exact ⟨reads, undisturbed, code_segments reads undisturbed⟩

/-- A line comment that holds an opening mark, and a block comment in the next line: the two items
between them are lost. -/
theorem code_loses_items :
    let front := "const uint32_t t[] = \x7b 1, 2, ".toList
    let back := "\n\x7d;\nconst uint32_t t_count = 2;\nconst uint32_t t_width = 32;\n".toList
    let text := front ++ ("// src/*".toList ++ '\n' :: ("3, 4 ".toList ++ ("/**/".toList ++ back)))
    ∃ segments, Reads text segments ∧ code text ≠ segments.map Segment.plain ∧
      (firstArray? (segments.map Segment.plain)).map (items ·.body) =
        some ["1".toList, "2".toList, "3".toList, "4".toList] ∧
      table text = .ok ⟨"t", [1, 2], 2, 32, none, none, none⟩ := by
  intro front back text
  let segments : List Segment := front.map .char ++ .line " src/*".toList :: .char '\n' ::
    ("3, 4 ".toList.map .char ++ .block [] :: (back.map .char ++ []))
  have reads : Reads text segments := by
    have first : '/' ∉ front := by decide
    have slashless : '/' ∉ "3, 4 ".toList := by decide
    have last : Reads (back ++ []) (back.map .char ++ []) := .plain (by decide) .nil
    have items := Reads.plain slashless (@Reads.block [] _ _ (by decide) last)
    have ended (rest : List Char) : ∀ c ∈ ('\n' :: rest).head?, c = '\n' := by simp
    exact .plain first (@Reads.line " src/*".toList _ _ (by decide) (ended _) (.char rfl items))
  exact ⟨segments, reads, by decide +kernel, by decide +kernel, by decide +kernel⟩

end FabricLoader.Source
