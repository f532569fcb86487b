/-! A place in a text, with the line and the column that indentation is measured by, and the classes
of characters that tokens are told apart by. -/
namespace FabricLoader.Yaml

def isBreak (c : Char) : Bool := c == '\n' || c == '\r'

def isBlank (c : Char) : Bool := c == ' ' || c == '\t'

/-- Characters that end a word: blanks, breaks and the end of the text. -/
def endsWord (c : Option Char) : Bool := c.all fun c => isBlank c || isBreak c

def endsLine (c : Option Char) : Bool := c.all isBreak

def isNameChar (c : Char) : Bool := c.isAlphanum || c == '_' || c == '-'

def isFlowSign (c : Char) : Bool := c == ',' || c == '[' || c == ']' || c == '\x7b' || c == '\x7d'

structure Cursor where
  /-- The text from here on. -/
  rest : List Char
  /-- Characters before it. -/
  index : Nat
  line : Nat
  column : Nat
  deriving Repr

namespace Cursor

def start (text : List Char) : Cursor := ⟨text, 0, 0, 0⟩

def peek? (cursor : Cursor) : Option Char := cursor.rest.head?

def ahead? (cursor : Cursor) (n : Nat) : Option Char := cursor.rest[n]?

/-- One character further. Only a line feed begins a new line. -/
def next (cursor : Cursor) : Cursor :=
  match cursor.rest with
  | [] => cursor
  | '\n' :: rest => ⟨rest, cursor.index + 1, cursor.line + 1, 0⟩
  | _ :: rest => ⟨rest, cursor.index + 1, cursor.line, cursor.column + 1⟩

def skip (cursor : Cursor) (n : Nat) : Cursor := n.repeat next cursor

def skipTo (cursor : Cursor) (rest : List Char) : Cursor :=
  cursor.skip (cursor.rest.length - rest.length)

def takeWhile (p : Char → Bool) (cursor : Cursor) : List Char × Cursor :=
  let taken := cursor.rest.takeWhile p
  (taken, cursor.skip taken.length)

def skipWhile (p : Char → Bool) (cursor : Cursor) : Cursor := (cursor.takeWhile p).2

/-- Past one line break; a carriage return and a line feed are one together. -/
def skipBreak (cursor : Cursor) : Cursor :=
  match cursor.rest with
  | '\r' :: '\n' :: _ => cursor.skip 2
  | c :: _ => if isBreak c then cursor.next else cursor
  | [] => cursor

def skipComment (cursor : Cursor) : Cursor :=
  if cursor.peek? = some '#' then cursor.skipWhile (!isBreak ·) else cursor

/-- Whether the cursor's text begins with three of a character, followed by the end of a word. -/
def atTriple (cursor : Cursor) (c : Char) : Bool :=
  cursor.rest.take 3 == [c, c, c] && endsWord (cursor.ahead? 3)

def atDocumentMark (cursor : Cursor) : Bool :=
  cursor.column == 0 && (cursor.atTriple '-' || cursor.atTriple '.')

end Cursor
end FabricLoader.Yaml
