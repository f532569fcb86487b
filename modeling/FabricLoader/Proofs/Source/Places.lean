import FabricLoader.Proofs.Source.HeaderLines
import FabricLoader.Proofs.Text.Trim

/-! The places of array items. The words of a table are the values of the pieces between the commas
that hold more than blanks, in their order. A blank piece is passed over wherever it stands, so an
item keeps its place exactly when no piece in front of it is blank. -/
namespace FabricLoader.Source
variable {text context : List Char} {words : List UInt32} {pieces : List (List Char)}

def isWritten (piece : List Char) : Bool := piece.any (!Text.isBlank ·)

/-- No blank piece stands in front of a written one. -/
def Gapless (pieces : List (List Char)) : Prop := pieces.Pairwise fun a b => isWritten b → isWritten a

def KeepsPlaces (pieces : List (List Char)) (words : List UInt32) : Prop :=
  ∀ (i : Nat) piece, pieces[i]? = some piece → isWritten piece →
    ∃ word, literal? piece = some word ∧ words[i]? = some word

theorem cutAt_eq_splitOn (mark : Char) (text : List Char) : Text.cutAt mark text = text.splitOn mark := by
  induction text with
  | nil => rw [Text.cutAt, List.splitOn_nil]
  | cons c text ih =>
    rw [Text.cutAt, List.splitOn_cons_eq_if_modifyHead, ih]
    by_cases marked : c = mark
    · simp [marked]
    · rw [if_neg marked, if_neg (by simpa using marked)]
      cases split : text.splitOn mark with
      | nil => exact (List.splitOn_ne_nil mark text split).elim
      | cons piece pieces => rfl

theorem isWritten_iff {piece : List Char} : isWritten piece = !(Text.trim piece).isEmpty := by
  rw [Bool.eq_iff_iff]
  simp [isWritten, Text.trim_eq_nil_iff, Text.Blank]

theorem literal?_trim (piece : List Char) : literal? (Text.trim piece) = literal? piece := by
  rw [literal?, Text.trim_trim, literal?]

/-- The items are the written pieces, trimmed. -/
theorem items_eq (body : List Char) :
    items body = ((body.splitOn ',').filter isWritten).map Text.trim := by
  rw [items, cutAt_eq_splitOn, List.filter_map]
  congr 1
  exact List.filter_congr fun piece _ => isWritten_iff.symm

theorem number_eq_ok_iff {literal : List Char} {word : UInt32} :
    number literal context = .ok word ↔ literal? literal = some word := by
  unfold number
  cases literal? literal <;> simp

theorem mapM_number_eq_ok_iff {found : List (List Char)} :
    found.mapM (number · context) = .ok words ↔ found.map literal? = words.map some := by
  induction found generalizing words with
  | nil => cases words <;> simp [Pure.pure, Except.pure]
  | cons item found ih =>
    rw [List.mapM_cons, bind_eq_ok]
    simp only [bind_eq_ok, number_eq_ok_iff, ih]
    cases words with
    | nil => simp [Pure.pure, Except.pure]
    | cons word words => simp [Pure.pure, Except.pure]

/-- An array gives words if and only if every written piece is a literal, and blank ones give none. -/
theorem arrayWords_eq_ok_iff {array : ArrayDecl} : arrayWords array = .ok words ↔
    ((array.body.splitOn ',').filter isWritten).map literal? = words.map some := by
  rw [arrayWords, mapM_number_eq_ok_iff, items_eq, List.map_map]
  simp only [Function.comp_def, literal?_trim]

/-- Without a gap, passing over the blank pieces moves no written one. -/
theorem Gapless.getElem?_filter (gapless : Gapless pieces) {i : Nat} {piece : List Char}
    (atI : pieces[i]? = some piece) (written : isWritten piece) :
    (pieces.filter isWritten)[i]? = some piece := by
  induction pieces generalizing i with
  | nil => simp at atI
  | cons first pieces ih =>
    obtain ⟨front, rest⟩ := List.pairwise_cons.mp gapless
    cases i with
    | zero =>
      obtain rfl : first = piece := by simpa using atI
      simp [written]
    | succ i =>
      rw [List.getElem?_cons_succ] at atI
      have solid : isWritten first := front piece (List.mem_of_getElem? atI) written
      simpa [solid] using ih rest atI

/-- The last written piece has at least as many pieces in front of it as there are others written. -/
theorem exists_last_written (someWritten : pieces.filter isWritten ≠ []) :
    ∃ (j : Nat) (piece : List Char), pieces[j]? = some piece ∧ isWritten piece ∧
      (pieces.filter isWritten).length ≤ j + 1 := by
  induction pieces with
  | nil => exact (someWritten rfl).elim
  | cons first pieces ih =>
    by_cases later : pieces.filter isWritten = []
    · have written : isWritten first := by
        by_contra blank
        exact someWritten (by simp [blank, later])
      exact ⟨0, first, rfl, written, by simp [written, later]⟩
    · obtain ⟨j, piece, atJ, written, most⟩ := ih later
      refine ⟨j + 1, piece, by simpa using atJ, written, ?_⟩
      have oneMore := List.length_filter_le isWritten [first]
      rw [← List.singleton_append, List.filter_append, List.length_append]
      simp at oneMore
      omega

/-- A written piece behind a blank one has more pieces in front of it than words. -/
theorem gapless_of_lt_length (inside : ∀ (i : Nat) piece, pieces[i]? = some piece → isWritten piece →
    i < (pieces.filter isWritten).length) : Gapless pieces := by
  induction pieces with
  | nil => exact .nil
  | cons first pieces ih =>
    by_cases written : isWritten first
    · refine List.pairwise_cons.mpr ⟨fun _ _ _ => written, ih fun i piece atI solid => ?_⟩
      have next := inside (i + 1) piece (by simpa using atI) solid
      simpa [written] using next
    · have nothing : pieces.filter isWritten = [] := by
        by_contra later
        obtain ⟨j, piece, atJ, solid, most⟩ := exists_last_written later
        have next := inside (j + 1) piece (by simpa using atJ) solid
        rw [List.filter_cons_of_neg written] at next
        omega
      have blank : ∀ piece ∈ pieces, ¬ isWritten piece := List.filter_eq_nil_iff.mp nothing
      refine List.pairwise_cons.mpr ⟨fun b member solid => (blank b member solid).elim, ?_⟩
      exact List.pairwise_of_forall_mem_list fun a _ b member solid => (blank b member solid).elim

/-- Where only the last piece may be blank there is no gap. -/
theorem gapless_of_dropLast (written : ∀ piece ∈ pieces.dropLast, isWritten piece) : Gapless pieces := by
  rcases List.eq_nil_or_concat pieces with rfl | ⟨front, last, rfl⟩
  · exact .nil
  · rw [List.concat_eq_append] at written ⊢
    rw [List.dropLast_concat] at written
    refine List.pairwise_append.mpr ⟨?_, List.pairwise_singleton _ _, fun a member _ _ _ => written a member⟩
    exact List.pairwise_of_forall_mem_list fun a member _ _ _ => written a member

theorem keepsPlaces_iff (values : (pieces.filter isWritten).map literal? = words.map some) :
    KeepsPlaces pieces words ↔ Gapless pieces := by
  have length : (pieces.filter isWritten).length = words.length := by
    simpa using congrArg List.length values
  constructor
  · intro keeps
    refine gapless_of_lt_length fun i piece atI written => ?_
    obtain ⟨word, _, atWord⟩ := keeps i piece atI written
    rw [length]
    exact (List.getElem?_eq_some_iff.mp atWord).1
  · intro gapless i piece atI written
    have kept := congrArg (·[i]?) values
    simp only [List.getElem?_map, gapless.getElem?_filter atI written] at kept
    obtain ⟨word, atWord, same⟩ := Option.map_eq_some_iff.mp kept.symm
    exact ⟨word, same.symm, atWord⟩

/-- The words of a table are the values of all written pieces in order. They stand at the places of
the pieces if and only if no blank piece stands in front of a written one, as in a list where only
the last piece, behind a closing comma, may be blank. -/
theorem table_places {t : Table} (found : table text = .ok t) :
    ∃ array, firstArray? (code text) = some array ∧
      let pieces := array.body.splitOn ','
      (pieces.filter isWritten).map literal? = t.words.map some ∧
      (KeepsPlaces pieces t.words ↔ Gapless pieces) ∧
      ((∀ piece ∈ pieces.dropLast, isWritten piece) → KeepsPlaces pieces t.words) := by
  obtain ⟨array, first, read, _⟩ := parts_of_table found
  have values := arrayWords_eq_ok_iff.mp read
  refine ⟨array, first, values, keepsPlaces_iff values, fun written => ?_⟩
  exact (keepsPlaces_iff values).mpr (gapless_of_dropLast written)

/-- A comment between the items, and a comma behind the last of them. -/
theorem table_places_closingComma :
    let text := ("const uint32_t t[] = \x7b 7, /* 8, */ 0x10u,\n\x7d; " ++
      "const uint32_t t_count = 1; const uint32_t t_width = 32;").toList
    table text = .ok ⟨"t", [7, 16], 1, 32, none, none, none⟩ ∧
      ∃ array, firstArray? (code text) = some array ∧
        (∀ piece ∈ (array.body.splitOn ',').dropLast, isWritten piece) ∧
        KeepsPlaces (array.body.splitOn ',') [7, 16] := by
  intro text
  have found : table text = .ok ⟨"t", [7, 16], 1, 32, none, none, none⟩ := by decide +kernel
  obtain ⟨array, first, _, _, keeps⟩ := table_places found
  have atFront : firstArray? (code text) = some ⟨['t'], " 7,   0x10u,\n".toList⟩ := by decide +kernel
  obtain rfl := Option.some.inj (first.symm.trans atFront)
  have written : ∀ piece ∈ (" 7,   0x10u,\n".toList.splitOn ',').dropLast, isWritten piece := by
    decide +kernel
  exact ⟨found, _, first, written, keeps written⟩

/-- The second item is missing, and every item behind it gives the word one place before its own. -/
theorem table_closes_gap :
    let text := ("const uint32_t t[] = \x7b 1, , 2, 3, 4 \x7d; " ++
      "const uint32_t t_count = 2; const uint32_t t_width = 32;").toList
    table text = .ok ⟨"t", [1, 2, 3, 4], 2, 32, none, none, none⟩ ∧
      ∃ array, firstArray? (code text) = some array ∧
        (¬ ∀ piece ∈ (array.body.splitOn ',').dropLast, isWritten piece) ∧
        ¬ KeepsPlaces (array.body.splitOn ',') [1, 2, 3, 4] := by
  intro text
  have found : table text = .ok ⟨"t", [1, 2, 3, 4], 2, 32, none, none, none⟩ := by decide +kernel
  have atFront : firstArray? (code text) = some ⟨['t'], " 1, , 2, 3, 4 ".toList⟩ := by decide +kernel
  refine ⟨found, _, atFront, by decide +kernel, fun keeps => ?_⟩
  obtain ⟨word, value, atTwo⟩ := keeps 2 [' ', '2'] (by decide +kernel) (by decide)
  have two : literal? [' ', '2'] = some 2 := by decide
  obtain rfl := Option.some.inj (two.symm.trans value)
  exact absurd atTwo (by decide)

end FabricLoader.Source
