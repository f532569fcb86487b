import FabricLoader.Proofs.Source.Items

/-! What the recognisers find in a listing, however it is laid out: the search goes from one
declaration to the next, and each recogniser takes the declarations of its own kind. -/
namespace FabricLoader.Source
variable {text rest : List Char} {tokens more : List Token} {name : Name}

namespace LaidOut

theorem size {size : Option Word} (digits : ∀ n ∈ size, ∀ c ∈ n.text, c.isDigit = true)
    (laid : LaidOut (size.toList.map .word ++ .sign .closeBracket :: tokens) text) : ∃ rest,
    Source.sign? ']' ((skipBlanks text).dropWhile Text.isDecimalDigit) = some rest ∧
      Skips text rest ∧ LaidOut tokens rest := by
  cases size with
  | none =>
    obtain ⟨gap, rest, rfl, blank, laid⟩ := laid.sign
    refine ⟨rest, ?_, (skips_gap blank _).trans (.cons (opening?_of_ne (by decide)) .refl), laid⟩
    rw [skipBlanks_gap blank]
    rfl
  | some n =>
    obtain ⟨ended, reached, stops, skipsSize, laid⟩ := laid.word
    obtain ⟨rest, closed, skips, laid⟩ := laid.sign?
    have decimal : ∀ c ∈ n.text, Text.isDecimalDigit c = true := by
      intro c member
      have bound := toNat_of_isPlainWord (n.plain c member)
      rw [Text.isDecimalDigit, if_pos (by omega)]
      exact digits n rfl c member
    refine ⟨rest, ?_, skipsSize.trans skips, laid⟩
    rw [reached, (stops.takeWhile (fun _ => .inr) decimal).2]
    exact closed

theorem array {size : Option Word} {digits : ∀ n ∈ size, ∀ c ∈ n.text, c.isDigit = true}
    {words : List Word} {trailing : Bool}
    (laid : LaidOut ((Decl.array name size digits words trailing).tokens ++ more) text) :
    ∃ tail body rest, Skips text ('c' :: tail) ∧
      array? ('c' :: tail) = some (⟨name.text, body⟩, rest) ∧ word? ('c' :: tail) = none ∧
      Source.items body = words.map (·.text) ∧ Skips tail rest ∧ LaidOut more rest := by
  simp only [Decl.tokens, List.append_assoc, List.cons_append, List.nil_append] at laid
  obtain ⟨tail, bracketed, skips, opened, skipsName, laid⟩ := laid.opening
  have noWord := laid.sign?_other (show Sign.equals.char ≠ Sign.openBracket.char by decide)
  obtain ⟨sized, atOpen, skipsOpen, laid⟩ := laid.sign?
  obtain ⟨assigned, atClose, skipsSize, laid⟩ := laid.size digits
  obtain ⟨braced, atEquals, skipsEquals, laid⟩ := laid.sign?
  obtain ⟨inside, atBrace, skipsBrace, laid⟩ := laid.sign?
  obtain ⟨body, ended, rfl, outside, found, skipsBody, laid⟩ := laid.items
  obtain ⟨rest, atEnd, skipsEnd, laid⟩ := laid.sign?
  refine ⟨tail, body, rest, skips, ?_, ?_, found, ?_, laid⟩
  · have before : ∀ c ∈ body, (c != '}') = true := by
      intro c member
      simpa using fun same : c = '}' => outside (same ▸ member)
    simp only [Sign.char] at atOpen atEquals atBrace atEnd
    simp [array?, opened, atOpen, atClose, atEquals, atBrace, atEnd,
      List.takeWhile_append_of_pos before, List.dropWhile_append_of_pos before, Text.after?]
  · simp only [Sign.char] at noWord
    simp [word?, opened, noWord]
  · exact skipsName.trans (skipsOpen.trans (skipsSize.trans (skipsEquals.trans
      (skipsBrace.trans (skipsBody.trans skipsEnd)))))

theorem wordDecl {token : Word} (laid : LaidOut ((Decl.word name token).tokens ++ more) text) :
    ∃ tail rest, Skips text ('c' :: tail) ∧
      word? ('c' :: tail) = some (⟨name.text, token.text⟩, rest) ∧ array? ('c' :: tail) = none ∧
      Skips tail rest ∧ LaidOut more rest := by
  simp only [Decl.tokens, List.cons_append, List.nil_append] at laid
  obtain ⟨tail, assigned, skips, opened, skipsName, laid⟩ := laid.opening
  have noArray := laid.sign?_other (show Sign.openBracket.char ≠ Sign.equals.char by decide)
  obtain ⟨valued, atEquals, skipsEquals, laid⟩ := laid.sign?
  obtain ⟨ended, reached, stops, skipsToken, laid⟩ := laid.word
  obtain ⟨rest, atEnd, skipsEnd, laid⟩ := laid.sign?
  refine ⟨tail, rest, skips, ?_, ?_, ?_, laid⟩
  · have run : run? Text.isPlainWord (token.text ++ ended) = some (token.text, ended) := by
      obtain ⟨taken, left⟩ := stops.takeWhile
        (fun _ word => .inl (isWordChar_of_isPlainWord word)) token.plain
      simp [run?, taken, left, token.nonempty]
    simp only [Sign.char] at atEquals atEnd
    simp [word?, opened, atEquals, reached, run, atEnd]
  · simp only [Sign.char] at noArray
    simp [array?, opened, noArray]
  · exact skipsName.trans (skipsEquals.trans (skipsToken.trans skipsEnd))

end LaidOut
/-- The first array that is found is the first one declared. -/
theorem firstArray?_laid {decls : List Decl} (laid : LaidOut (decls.flatMap Decl.tokens) text) :
    (firstArray? text).map (fun found => (found.name, items found.body)) =
      (decls.findSome? Decl.array?).map fun (name, words) => (name.text, words.map (·.text)) := by
  induction decls generalizing text with
  | nil =>
    cases laid with
    | nil blank =>
      have skips := LaidOut.skips_gap blank []
      rw [List.append_nil] at skips
      rw [skips.firstArray?]
      rfl
  | cons decl decls ih =>
    rw [List.flatMap_cons] at laid
    cases decl with
    | array name size digits words trailing =>
      obtain ⟨tail, body, rest, skips, found, _, split, _, _⟩ := laid.array
      have first : firstArray? ('c' :: tail) = some ⟨name.text, body⟩ := by
        rw [firstArray?, Text.findFirst?, found]
      rw [skips.firstArray?, first, Option.map_some, split]
      rfl
    | word name token =>
      obtain ⟨tail, rest, skips, _, missed, skipsTail, laid⟩ := laid.wordDecl
      have next : firstArray? ('c' :: tail) = firstArray? tail := by
        rw [firstArray?, Text.findFirst?, missed]
        rfl
      rw [skips.firstArray?, next, skipsTail.firstArray?, ih laid]
      rfl

def Decl.word? : Decl → Option WordDecl
  | array .. => none
  | word name token => some ⟨name.text, token.text⟩

/-- The single words that are found are those declared, in their order. -/
theorem words_laid {decls : List Decl} (laid : LaidOut (decls.flatMap Decl.tokens) text) :
    words text = decls.filterMap Decl.word? := by
  induction decls generalizing text with
  | nil =>
    cases laid with
    | nil blank =>
      have skips := LaidOut.skips_gap blank []
      rw [List.append_nil] at skips
      rw [skips.words]
      rfl
  | cons decl decls ih =>
    rw [List.flatMap_cons] at laid
    cases decl with
    | array name size digits items trailing =>
      obtain ⟨tail, _, rest, skips, _, missed, _, skipsTail, laid⟩ := laid.array
      have next : words ('c' :: tail) = words tail := Text.findAll_missed missed
      rw [skips.words, next, skipsTail.words, ih laid]
      rfl
    | word name token =>
      obtain ⟨tail, rest, skips, found, _, skipsTail, laid⟩ := laid.wordDecl
      obtain ⟨covered, rfl⟩ := skipsTail.exists_append
      have next : words ('c' :: (covered ++ rest)) = ⟨name.text, token.text⟩ :: words rest :=
        Text.findAll_found found
      rw [skips.words, next, ih laid]
      rfl

end FabricLoader.Source
