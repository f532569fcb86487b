import FabricLoader.Proofs.Source.Heading

/-! Every text of a listing is read as the listing means, with its errors in their order. How the
listing is laid out makes no difference, nor does a header in front of it, save for the two fields
that it gives the table. -/
namespace FabricLoader.Source
variable {text gap : List Char} {c : Char} {tokens : List Token} {heading : Option Heading}
  {decls : List Decl}

theorem LaidOut.prepend (blank : Gap gap) (laid : LaidOut tokens text) :
    LaidOut tokens (gap ++ text) := by
  have joined {other : List Char} (blankOther : Gap other) : Gap (gap ++ other) := by
    intro c member
    rcases List.mem_append.mp member with member | member
    · exact blank c member
    · exact blankOther c member
  cases laid with
  | nil blankOther => exact .nil (joined blankOther)
  | cons blankOther apart later =>
    rw [← List.append_assoc]
    exact .cons (joined blankOther) apart later

theorem LaidOut.slashless (laid : LaidOut tokens text) : '/' ∉ text := by
  induction laid with
  | nil blank => exact not_mem_gap blank (by decide)
  | @cons gap rest token _ blank _ _ ih =>
    have inToken : '/' ∉ token.text := by
      cases token with
      | const | type => decide
      | word word => exact fun member => absurd (word.plain _ member) (by decide)
      | sign sign => simpa using sign.char_ne.2.2.symm
    have inGap : '/' ∉ gap := not_mem_gap blank (by decide)
    simp [inGap, inToken, ih]

def headingFields (heading : Option Heading) : List Field :=
  heading.toList.flatMap fun h => [⟨.source, h.source⟩, ⟨.pins, h.pins⟩]

/-- Past the comments a listing is laid out once more, and its fields are those of its header. -/
theorem Lists.code (lists : Lists heading decls text) :
    LaidOut (decls.flatMap Decl.tokens) (Source.code text) ∧ fields text = headingFields heading := by
  cases lists with
  | plain laid =>
    rw [code_plain laid.slashless, fields_plain laid.slashless]
    exact ⟨laid, rfl⟩
  | headed heading blank laid =>
    have slashless := not_mem_gap blank (show '/' ∉ spaces by decide)
    rw [code_headed heading slashless laid.slashless, fields_headed heading slashless laid.slashless,
      heading.findAll_comment]
    have spaced : Gap [' '] := by simp [Gap, spaces]
    exact ⟨(laid.prepend spaced).prepend blank, rfl⟩

theorem number_word (word : Word) (context : List Char) : number word.text context =
    (literal? word.text).elim
      (.error (.badNumber (String.ofList word.text) (String.ofList context))) .ok := by
  have empty : Gap [] := by simp [Gap]
  have trimmed : Text.trim word.text = word.text := by simpa using trim_word empty word empty
  rw [number, trimmed]
  cases literal? word.text <;> rfl

/-- Items are read one by one up to the first that is no literal. -/
theorem mapM_number (name : Name) (words : List Word) :
    (words.map (·.text)).mapM (number · name.text) = itemValues name words := by
  induction words with
  | nil => rfl
  | cons word words ih =>
    rw [List.map_cons, List.mapM_cons, ih, number_word]
    unfold itemValues
    cases value : literal? word.text with
    | none =>
      rw [List.find?_cons_of_pos (by simp [value])]
      rfl
    | some found =>
      rw [List.find?_cons_of_neg (by simp [value]), List.filterMap_cons, value]
      cases List.find? (fun item => (literal? item.text).isNone) words <;> rfl

/-- The first word found under a name is the first one declared under it. -/
theorem find?_words (decls : List Decl) (name : List Char) :
    ((decls.filterMap Decl.word?).find? (·.name == name)).map (·.token) =
      (decls.findSome? (Decl.tokenOf? name)).map (·.text) := by
  induction decls with
  | nil => rfl
  | cons decl decls ih =>
    cases decl with
    | array => exact ih
    | word other token =>
      by_cases same : other.text = name
      · simp [Decl.word?, Decl.tokenOf?, same]
      · simpa [Decl.word?, Decl.tokenOf?, same] using ih

theorem constant?_laid (name : List Char) :
    constant? (decls.filterMap Decl.word?) name = wordValue? decls name := by
  have found := find?_words decls name
  unfold constant? wordValue?
  cases declared : decls.findSome? (Decl.tokenOf? name) with
  | none =>
    rw [declared, Option.map_none, Option.map_eq_none_iff] at found
    rw [found]
  | some token =>
    rw [declared, Option.map_some, Option.map_eq_some_iff] at found
    obtain ⟨decl, first, value⟩ := found
    rw [first]
    dsimp only
    rw [value, number_word]
    cases literal? token.text <;> rfl

theorem headerValue_heading (heading : Option Heading) :
    headerValue .source (headingFields heading) = heading.map (fun h => String.ofList h.source) ∧
    headerValue .pins (headingFields heading) = heading.map (fun h => String.ofList h.pins) := by
  cases heading <;> exact ⟨rfl, rfl⟩

/-- The table that is read from the text of a listing is the one that the listing means. -/
theorem table_meaning (lists : Lists heading decls text) : table text = meaning heading decls := by
  obtain ⟨laid, found⟩ := lists.code
  have array := firstArray?_laid laid
  obtain ⟨source, pins⟩ := headerValue_heading heading
  unfold meaning
  cases declared : decls.findSome? Decl.array? with
  | none =>
    rw [declared, Option.map_none, Option.map_eq_none_iff] at array
    simp only [table, array]
  | some first =>
    obtain ⟨name, items⟩ := first
    rw [declared, Option.map_some, Option.map_eq_some_iff] at array
    obtain ⟨decl, first, same⟩ := array
    obtain ⟨named, cut⟩ := Prod.mk.inj same
    simp only [table, first, words_laid laid, found, source, pins, arrayWords, cut, named,
      mapM_number, constant, constant?_laid]
    cases itemValues name items with
    | error e => rfl
    | ok words =>
      generalize wordValue? decls (name.text ++ "_ctrlReg".toList) = control
      rcases wordValue? decls (name.text ++ "_count".toList) with e | (_ | count)
      · rfl
      · rfl
      · rcases wordValue? decls (name.text ++ "_width".toList) with e | (_ | width)
        · rfl
        · rfl
        · rfl

def spaced : List Token → List Char
  | [] => [' ']
  | token :: tokens => ' ' :: (token.text ++ spaced tokens)

theorem laidOut_spaced (tokens : List Token) : LaidOut tokens (spaced tokens) := by
  have blank : Gap [' '] := by simp [Gap, spaces]
  induction tokens with
  | nil => exact .nil blank
  | cons token tokens ih =>
    refine .cons blank (fun _ => ?_) ih
    cases tokens with
    | nil => exact ⟨' ', [], rfl, by decide⟩
    | cons next tokens => exact ⟨' ', _, rfl, by decide⟩

def Word.checked (text : String) (nonempty : text.toList ≠ [])
    (plain : text.toList.all Text.isPlainWord = true) : Word :=
  ⟨text.toList, nonempty, List.all_eq_true.mp plain⟩

theorem solid_of_all (h : text.all (!Text.isBlank ·) = true) :
    ∀ c ∈ text, Text.isBlank c = false := by
  intro c member
  simpa using List.all_eq_true.mp h c member

def spiHeading : Heading :=
  ⟨"spi.sv".toList, "io.cfg".toList, by decide, by decide, solid_of_all (by decide),
    solid_of_all (by decide), open_plain (by decide), open_plain (by decide)⟩

def spiDecls : List Decl :=
  [.word ⟨.checked "spi_width" (by decide) (by decide), by decide⟩
      (.checked "32" (by decide) (by decide)),
    .array ⟨.checked "spi" (by decide) (by decide), by decide⟩ none (by simp)
      [.checked "0x1" (by decide) (by decide), .checked "7u" (by decide) (by decide)] true,
    .word ⟨.checked "spi_count" (by decide) (by decide), by decide⟩
      (.checked "1" (by decide) (by decide))]

theorem table_meaning_spi :
    table ([] ++ (spiHeading.comment ++ spaced (spiDecls.flatMap Decl.tokens))) =
      .ok ⟨"spi", [1, 7], 1, 32, none, some "spi.sv", some "io.cfg"⟩ := by
  have blank : Gap [] := by simp [Gap]
  have lists := Lists.headed spiHeading blank (laidOut_spaced (spiDecls.flatMap Decl.tokens))
  exact (table_meaning lists).trans rfl

end FabricLoader.Source
