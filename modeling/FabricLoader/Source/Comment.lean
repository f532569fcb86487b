/-! Comments of table sources. Block comments are found first, over the whole text: each runs from
an opening mark to the next closing one, and an opening mark that is never closed is ordinary text.
Line comments are then found in what is left. Either kind gives way to one blank. -/
namespace FabricLoader.Source

inductive Piece where
  | char (c : Char)
  /-- The text between the two marks. -/
  | comment (body : List Char)
  deriving DecidableEq, Repr

/-- Cuts a text at its block comments. Inside a comment the first argument holds the body read so
far, last character first. -/
def piecesFrom : Option (List Char) → List Char → List Piece
  | none, '/' :: '*' :: text => piecesFrom (some []) text
  | none, c :: text => .char c :: piecesFrom none text
  | none, [] => []
  | some body, '*' :: '/' :: text => .comment body.reverse :: piecesFrom none text
  | some body, c :: text => piecesFrom (some (c :: body)) text
  | some body, [] => ('/' :: '*' :: body.reverse).map .char

def pieces (text : List Char) : List Piece := piecesFrom none text

def Piece.plain : Piece → Char
  | char c => c
  | comment _ => ' '

def blockComments (text : List Char) : List (List Char) :=
  (pieces text).filterMap fun
    | .comment body => some ('/' :: '*' :: body ++ ['*', '/'])
    | .char _ => none

/-- Replaces line comments, up to the line break, by a blank. The first argument tells whether the
text begins inside one. -/
def withoutLineCommentsFrom : Bool → List Char → List Char
  | false, '/' :: '/' :: text => ' ' :: withoutLineCommentsFrom true text
  | false, c :: text => c :: withoutLineCommentsFrom false text
  | true, '\n' :: text => '\n' :: withoutLineCommentsFrom false text
  | true, _ :: text => withoutLineCommentsFrom true text
  | _, [] => []

def code (text : List Char) : List Char :=
  withoutLineCommentsFrom false ((pieces text).map Piece.plain)

end FabricLoader.Source
