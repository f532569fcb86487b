import FabricLoader.Source.Comment
import FabricLoader.Text.Blank
import FabricLoader.Text.Match

/-! The header that a table compiler leaves in a block comment: the names of its input and of its
pin configuration, each after a key at the beginning of a line and alone up to a line break or the
end of the comment. -/
namespace FabricLoader.Source

inductive Key where
  | source
  | pins
  deriving DecidableEq, Repr

structure Field where
  key : Key
  value : List Char
  deriving DecidableEq, Repr

def key? (text : List Char) : Option (Key × List Char) :=
  match Text.after? "Input:".toList text with
  | some rest => some (.source, rest)
  | none => (Text.after? "Config:".toList text).map (.pins, ·)

def fromLastBreak : List Char → Option (List Char)
  | [] => none
  | c :: gap => fromLastBreak gap <|> if c = '\n' then some (c :: gap) else none

/-- The field that begins with the line at the front of a text. Blanks before the key and before the
value may run over several lines; the gap after the value has to hold a line break or to end the
text, and the field ends at the last break of the gap. -/
def field? (before : Option Char) (text : List Char) : Option (Field × List Char) :=
  if before.all (· == '\n') then do
    let (key, text) ← key? (text.dropWhile Text.isBlank)
    let text := text.dropWhile Text.isBlank
    let value := text.takeWhile (!Text.isBlank ·)
    let gap := (text.dropWhile (!Text.isBlank ·)).takeWhile Text.isBlank
    let rest := (text.dropWhile (!Text.isBlank ·)).dropWhile Text.isBlank
    if value.isEmpty then none
    else if rest.isEmpty then some (⟨key, value⟩, [])
    else (fromLastBreak gap).map fun tail => (⟨key, value⟩, tail ++ rest)
  else none

def fields (text : List Char) : List Field := (blockComments text).flatMap (Text.findAll field?)

/-- The value under a key; the last one counts. -/
def headerValue (key : Key) (fields : List Field) : Option String :=
  (fields.reverse.find? fun f => f.key == key).map fun f => String.ofList f.value

end FabricLoader.Source
