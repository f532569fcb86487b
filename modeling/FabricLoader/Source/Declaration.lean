import FabricLoader.Text.Blank
import FabricLoader.Text.Match
import FabricLoader.Text.WordChar

/-! Declarations of table sources: arrays of words with a list of items, and single words. Both
begin with `const uint32_t` and a name; blanks may stand between any two parts. -/
namespace FabricLoader.Source

structure ArrayDecl where
  name : List Char
  body : List Char
  deriving DecidableEq, Repr

structure WordDecl where
  name : List Char
  token : List Char
  deriving DecidableEq, Repr

def skipBlanks (text : List Char) : List Char := text.dropWhile Text.isBlank

/-- The text after a keyword and the blanks, one at least, that follow it. -/
def keyword? (keyword text : List Char) : Option (List Char) := do
  match ← Text.after? keyword text with
  | c :: rest => if Text.isBlank c then some (skipBlanks rest) else none
  | [] => none

def run? (p : Char → Bool) (text : List Char) : Option (List Char × List Char) :=
  if (text.takeWhile p).isEmpty then none else some (text.takeWhile p, text.dropWhile p)

def name? : List Char → Option (List Char × List Char)
  | c :: text =>
    if Text.isNameStart c then
      some (c :: text.takeWhile Text.isWordChar, text.dropWhile Text.isWordChar)
    else none
  | [] => none

def sign? (c : Char) (text : List Char) : Option (List Char) := Text.after? [c] (skipBlanks text)

def opening? (text : List Char) : Option (List Char × List Char) := do
  name? (← keyword? "uint32_t".toList (← keyword? "const".toList text))

/-- An array declaration at the front of a text. A size between the brackets is not looked at. -/
def array? (text : List Char) : Option (ArrayDecl × List Char) := do
  let (name, text) ← opening? text
  let text ← sign? '[' text
  let text ← sign? ']' ((skipBlanks text).dropWhile Text.isDecimalDigit)
  let text ← sign? '{' (← sign? '=' text)
  let body := text.takeWhile (· != '}')
  let text ← Text.after? ['}'] (text.dropWhile (· != '}'))
  let text ← sign? ';' text
  return (⟨name, body⟩, text)

def word? (text : List Char) : Option (WordDecl × List Char) := do
  let (name, text) ← opening? text
  let text ← sign? '=' text
  let (token, text) ← run? Text.isPlainWord (skipBlanks text)
  let text ← sign? ';' text
  return (⟨name, token⟩, text)

def firstArray? (text : List Char) : Option ArrayDecl := Text.findFirst? array? text

def words (text : List Char) : List WordDecl := Text.findAll (fun _ => word?) text

end FabricLoader.Source
