import FabricLoader.Proofs.Source.Heading
import FabricLoader.Proofs.Text.Utf8
import FabricLoader.Table.File

/-! A comment in front of a table source. Whatever bytes it is made of, it ends where it was closed and
the rest is read as it would be alone; only the origin that a header names may come from it. -/
namespace FabricLoader

/-- The table, with an origin to fall back on. -/
def Table.behind (source pins : Option String) (table : Table) : Table :=
  { table with source := table.source.or source, pins := table.pins.or pins }

namespace Source
variable {body : List Char}

def commented (body text : List Char) : List Char := '/' :: '*' :: (body ++ '*' :: '/' :: text)

theorem pieces_commented (opened : ¬ ['*', '/'] <:+: body) (text : List Char) :
    pieces (commented body text) = .comment body :: pieces text := by
  have closed := piecesFrom_comment opened [] text
  rw [List.reverse_nil, List.nil_append] at closed
  rw [pieces, commented, piecesFrom, closed, pieces]

/-- The comment gives way to a blank. -/
theorem code_commented (opened : ¬ ['*', '/'] <:+: body) (text : List Char) :
    code (commented body text) = ' ' :: code text := by
  rw [code, pieces_commented opened, List.map_cons, Piece.plain, withoutLineCommentsFrom, code]
  intro _ same
  cases same

theorem fields_commented (opened : ¬ ['*', '/'] <:+: body) (text : List Char) :
    fields (commented body text) = Text.findAll field? (commented body []) ++ fields text := by
  rw [fields, blockComments, pieces_commented opened]
  simp [commented, fields, blockComments]

theorem headerValue_append (key : Key) (front back : List Field) :
    headerValue key (front ++ back) = (headerValue key back).or (headerValue key front) := by
  unfold headerValue
  rw [List.reverse_append, List.find?_append]
  cases back.reverse.find? fun f => f.key == key <;> rfl

theorem skips_blank (rest : List Char) : Skips (' ' :: rest) rest :=
  .cons (opening?_of_ne (by decide)) .refl

theorem table_commented (opened : ¬ ['*', '/'] <:+: body) (text : List Char) :
    let header := Text.findAll field? (commented body [])
    table (commented body text) =
      (table text).map (Table.behind (headerValue .source header) (headerValue .pins header)) := by
  intro header
  have blank := skips_blank (code text)
  simp only [table, code_commented opened, blank.firstArray?, blank.words, fields_commented opened,
    headerValue_append]
  cases firstArray? (code text) with
  | none => rfl
  | some array =>
    simp only
    cases arrayWords array with
    | error e => rfl
    | ok found =>
      generalize words (code text) = decls
      cases constant decls (array.name ++ "_count".toList) with
      | error e => rfl
      | ok count =>
        cases constant decls (array.name ++ "_width".toList) with
        | error e => rfl
        | ok width => cases constant? decls (array.name ++ "_ctrlReg".toList) <;> rfl

end Source

namespace Table
variable {path : String} {b : List UInt8}

def commentThen (b content : List UInt8) : List UInt8 := 0x2F :: 0x2A :: (b ++ 0x2A :: 0x2F :: content)

theorem lenient_commentThen (b content : List UInt8) : Text.Utf8.lenient (commentThen b content) =
    Source.commented (Text.Utf8.lenient b) (Text.Utf8.lenient content) := by
  have slash (rest : List UInt8) : Text.Utf8.lenient (0x2F :: rest) = '/' :: Text.Utf8.lenient rest :=
    Text.Utf8.lenient_append [] rest (by decide)
  have star (front rest : List UInt8) : Text.Utf8.lenient (front ++ 0x2A :: rest) =
      Text.Utf8.lenient front ++ '*' :: Text.Utf8.lenient rest :=
    Text.Utf8.lenient_append front rest (by decide)
  rw [commentThen, slash, ← List.nil_append (0x2A :: _), star, star, slash]
  rfl

/-- The text of a comment is closed only where its bytes are. -/
theorem lenient_opened (opened : ¬ [0x2A, 0x2F] <:+: b) : ¬ ['*', '/'] <:+: Text.Utf8.lenient b :=
  fun inside => opened ((Text.Utf8.tells_lenient b).infix_bytes (by decide) (by decide) (by decide)
    (by decide) inside)

theorem ofBytes_commentThen (source : Path.extension? path = some "c" ∨ Path.extension? path = some "h")
    (opened : ¬ [0x2A, 0x2F] <:+: b) (content : List UInt8) :
    let header := Text.findAll Source.field? (Source.commented (Text.Utf8.lenient b) [])
    ofBytes path (commentThen b content) = (ofBytes path content).map
      (behind (Source.headerValue .source header) (Source.headerValue .pins header)) := by
  intro header
  have read (bytes : List UInt8) : ofBytes path bytes =
      (Source.table (Text.Utf8.lenient bytes)).mapError .source := by
    rcases source with named | named <;> simp only [ofBytes, named]
  rw [read, read, lenient_commentThen, Source.table_commented (lenient_opened opened)]
  cases Source.table (Text.Utf8.lenient content) <;> rfl

/-- A comment in front of a source file, of any bytes that do not close it, changes nothing but
perhaps where the table says that it comes from. -/
theorem ofBytes_commented (source : Path.extension? path = some "c" ∨ Path.extension? path = some "h")
    (opened : ¬ [0x2A, 0x2F] <:+: b) (content : List UInt8) :
    let plain := ofBytes path content
    let commented := ofBytes path (0x2F :: 0x2A :: (b ++ 0x2A :: 0x2F :: content))
    ((∃ t, commented = .ok t) ↔ ∃ t, plain = .ok t) ∧
      (∀ e, commented = .error e ↔ plain = .error e) ∧
      ∀ t u, commented = .ok t → plain = .ok u → t.name = u.name ∧ t.words = u.words ∧
        t.count = u.count ∧ t.width = u.width ∧ t.control = u.control := by
  intro plain commented
  have same := ofBytes_commentThen source opened content
  change commented = plain.map _ at same
  rw [same]
  cases plain with
  | error e => exact ⟨by simp [Except.map], fun _ => Iff.rfl, fun t u found => by cases found⟩
  | ok u =>
    refine ⟨by simp [Except.map], fun e => by simp [Except.map], ?_⟩
    rintro _ _ ⟨⟩ ⟨⟩
    exact ⟨rfl, rfl, rfl, rfl, rfl⟩

/-- A comment with another opening mark, a byte that is no UTF-8, and an unfinished character in front
of its end. -/
theorem ofBytes_commented_broken :
    let b : List UInt8 := [0x2F, 0x2A, 0xFF, 0x2A, 0xE2, 0x82]
    let content := ("const uint32_t spi[] = { 1, 0x2A }; const uint32_t spi_count = 1; " ++
      "const uint32_t spi_width = 8;").toUTF8.toList
    let plain := ofBytes "spi.c" content
    let commented := ofBytes "spi.c" (0x2F :: 0x2A :: (b ++ 0x2A :: 0x2F :: content))
    Path.extension? "spi.c" = some "c" ∧ ¬ [0x2A, 0x2F] <:+: b ∧ ∃ t u, commented = .ok t ∧
      plain = .ok u ∧ u.words = [1, 42] ∧ t.name = u.name ∧ t.words = u.words ∧ t.count = u.count ∧
      t.width = u.width ∧ t.control = u.control := by
  intro b content plain commented
  have source : Path.extension? "spi.c" = some "c" := by decide +kernel
  have opened : ¬ [0x2A, 0x2F] <:+: b := by decide
  have read : plain = .ok ⟨"spi", [1, 42], 1, 8, none, none, none⟩ := by decide +kernel
  obtain ⟨reads, _, agree⟩ := ofBytes_commented (.inl source) opened content
  obtain ⟨t, found⟩ := reads.mpr ⟨_, read⟩
  exact ⟨source, opened, t, _, found, read, rfl, agree t _ found read⟩

end Table
end FabricLoader
