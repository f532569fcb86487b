import FabricLoader.Source.Table

/-! Listings: declarations with the white space between their tokens left open. A listing is laid
out by putting blanks in front of every token, of which a keyword needs one after it. What a listing
means is said of its declarations alone, so it is the same for every layout. -/
namespace FabricLoader.Source

structure Word where
  text : List Char
  nonempty : text ≠ []
  plain : ∀ c ∈ text, Text.isPlainWord c = true

structure Name extends Word where
  start : Text.isNameStart (text.head nonempty) = true

inductive Decl where
  /-- An array of items, with an optional size and a comma after the last item or none. -/
  | array (name : Name) (size : Option Word) (digits : ∀ n ∈ size, ∀ c ∈ n.text, c.isDigit = true)
      (items : List Word) (trailing : Bool)
  /-- A single word, given by a token. -/
  | word (name : Name) (token : Word)

inductive Sign where
  | openBracket | closeBracket | equals | openBrace | comma | closeBrace | semicolon
  deriving DecidableEq

def Sign.char : Sign → Char
  | openBracket => '['
  | closeBracket => ']'
  | equals => '='
  | openBrace => '{'
  | comma => ','
  | closeBrace => '}'
  | semicolon => ';'

inductive Token where
  /-- The keyword `const`. -/
  | const
  /-- The type of every declaration. -/
  | type
  | word (word : Word)
  | sign (sign : Sign)

namespace Token

def text : Token → List Char
  | const => "const".toList
  | type => "uint32_t".toList
  | word w => w.text
  | sign s => [s.char]

@[simp] theorem text_word (w : Word) : (word w).text = w.text := rfl

@[simp] theorem text_sign (s : Sign) : (sign s).text = [s.char] := rfl

/-- Whether the token has to be followed by a blank. -/
def isKeyword : Token → Bool
  | const | type => true
  | word _ | sign _ => false

end Token

/-- The items of an array, with commas between them and perhaps one at the end. -/
def itemTokens (trailing : Bool) : List Word → List Token
  | [] => []
  | item :: rest =>
    .word item :: if rest.isEmpty && !trailing then [] else .sign .comma :: itemTokens trailing rest

def Decl.tokens : Decl → List Token
  | array name size _ items trailing =>
    [.const, .type, .word name.toWord, .sign .openBracket] ++ (size.toList.map .word ++
      ([.sign .closeBracket, .sign .equals, .sign .openBrace] ++ (itemTokens trailing items ++
        [.sign .closeBrace, .sign .semicolon])))
  | word name token =>
    [.const, .type, .word name.toWord, .sign .equals, .word token, .sign .semicolon]

def spaces : List Char := [' ', '\t', '\n', '\r', '\x0b', '\x0c']

def Gap (text : List Char) : Prop := ∀ c ∈ text, c ∈ spaces

/-- Tokens in order, with gaps before, between and after them. -/
inductive LaidOut : List Token → List Char → Prop
  | nil {gap : List Char} (blank : Gap gap) : LaidOut [] gap
  | cons {gap rest : List Char} {token : Token} {tokens : List Token} (blank : Gap gap)
      (apart : token.isKeyword = true → ∃ c later, rest = c :: later ∧ c ∈ spaces)
      (later : LaidOut tokens rest) : LaidOut (token :: tokens) (gap ++ (token.text ++ rest))

/-- The header that a table compiler writes in front of a listing. -/
structure Heading where
  source : List Char
  pins : List Char
  source_ne_nil : source ≠ []
  pins_ne_nil : pins ≠ []
  source_solid : ∀ c ∈ source, Text.isBlank c = false
  pins_solid : ∀ c ∈ pins, Text.isBlank c = false
  source_open : ¬ ['*', '/'] <:+: source
  pins_open : ¬ ['*', '/'] <:+: pins

namespace Heading

def rule : List Char := List.replicate 62 '='

def lines (heading : Heading) : List (List Char) :=
  [rule, "PRISM Downloadable Configuration".toList, [], "Input:    ".toList ++ heading.source,
    "Config:   ".toList ++ heading.pins, rule]

def body (heading : Heading) : List Char := '\n' :: heading.lines.flatMap (· ++ ['\n'])

def comment (heading : Heading) : List Char := "/*".toList ++ heading.body ++ "*/".toList

end Heading

/-- A text that consists of a listing, after a header or not. -/
inductive Lists : Option Heading → List Decl → List Char → Prop
  | plain {decls : List Decl} {text : List Char} (laid : LaidOut (decls.flatMap Decl.tokens) text) :
      Lists none decls text
  | headed {decls : List Decl} {gap text : List Char} (heading : Heading) (blank : Gap gap)
      (laid : LaidOut (decls.flatMap Decl.tokens) text) :
      Lists (some heading) decls (gap ++ (heading.comment ++ text))

namespace Decl

def array? : Decl → Option (Name × List Word)
  | array name _ _ items _ => some (name, items)
  | word .. => none

def tokenOf? (name : List Char) : Decl → Option Word
  | array .. => none
  | word other token => if other.text = name then some token else none

end Decl

/-- The values of items, unless one of them is no literal; the first such is at fault. -/
def itemValues (name : Name) (items : List Word) : Except SourceError (List UInt32) :=
  match items.find? fun item => (literal? item.text).isNone with
  | some item => .error (.badNumber (String.ofList item.text) (String.ofList name.text))
  | none => .ok (items.filterMap fun item => literal? item.text)

def wordValue? (decls : List Decl) (name : List Char) : Except SourceError (Option UInt32) :=
  match decls.findSome? (Decl.tokenOf? name) with
  | none => .ok none
  | some token =>
    match literal? token.text with
    | some value => .ok (some value)
    | none => .error (.badNumber (String.ofList token.text) (String.ofList name))

/-- What a listing means: its first array, with the count, the width and perhaps the control word
that belong to it. -/
def meaning (heading : Option Heading) (decls : List Decl) : Except SourceError Table :=
  match decls.findSome? Decl.array? with
  | none => .error .noTable
  | some (name, items) => do
    let words ← itemValues name items
    let countName := name.text ++ "_count".toList
    let widthName := name.text ++ "_width".toList
    let some count ← wordValue? decls countName | .error (.missing (String.ofList countName))
    let some width ← wordValue? decls widthName | .error (.missing (String.ofList widthName))
    let control ← wordValue? decls (name.text ++ "_ctrlReg".toList)
    return {
      name := String.ofList name.text, words, count, width, control
      source := heading.map fun h => String.ofList h.source
      pins := heading.map fun h => String.ofList h.pins }

end FabricLoader.Source
