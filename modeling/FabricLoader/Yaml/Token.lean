import FabricLoader.Yaml.BlockScalar
import FabricLoader.Yaml.FlowScalar
import FabricLoader.Yaml.Tag

/-! The tokens of a text. Indentation opens and closes block collections. A token that might turn out
to be a key is remembered with its place in the list of tokens; when a colon confirms it, a key token,
and perhaps the beginning of a mapping, is inserted there. -/
namespace FabricLoader.Yaml

inductive Token where
  | streamEnd
  | directive
  | documentStart
  | documentEnd
  | blockSequenceStart
  | blockMappingStart
  | blockEnd
  | flowSequenceStart
  | flowSequenceEnd
  | flowMappingStart
  | flowMappingEnd
  | blockEntry
  | flowEntry
  | key
  | value
  | alias (name : String)
  | anchor (name : String)
  | tag (tag : Tag)
  | scalar (plain : Bool) (text : String)
  deriving DecidableEq, Repr

/-- A token that may turn out to be a key. -/
structure KeyCandidate where
  possible : Bool
  /-- Whether it has to be a key. -/
  required : Bool
  /-- Its place in the list of tokens. -/
  place : Nat
  index : Nat
  line : Nat
  column : Nat

def KeyCandidate.none : KeyCandidate := ⟨false, false, 0, 0, 0, 0⟩

structure Lexer where
  cursor : Cursor
  tokens : Array Token
  /-- Whether a key may begin here without a sign. -/
  keyAllowed : Bool
  /-- The candidate of each flow level, innermost first; the last is the block level. -/
  candidates : List KeyCandidate
  /-- The column of the innermost block collection, or -1. -/
  indent : Int
  /-- The columns of the collections around it. -/
  outer : List Int
  /-- How many flow collections are open. -/
  flowLevel : Nat
  /-- Where a colon may follow a quoted key without a blank after it. -/
  adjacentAt : Nat

namespace Lexer

def start (text : List Char) : Lexer where
  cursor := .start text
  tokens := #[]
  keyAllowed := true
  candidates := [.none]
  indent := -1
  outer := []
  flowLevel := 0
  adjacentAt := 0

def inFlow (lexer : Lexer) : Bool := lexer.flowLevel > 0

def push (token : Token) (lexer : Lexer) : Lexer := { lexer with tokens := lexer.tokens.push token }

def insert (place : Nat) (token : Token) (lexer : Lexer) : Lexer :=
  { lexer with tokens := lexer.tokens.insertIdxIfInBounds place token }

def advance (n : Nat) (lexer : Lexer) : Lexer := { lexer with cursor := lexer.cursor.skip n }

def allowKey (allowed : Bool) (lexer : Lexer) : Lexer := { lexer with keyAllowed := allowed }

/-- Past blanks, comments and line breaks. After a break outside flow collections a key may begin;
where one may begin there, tabs are no blanks. -/
def skipGap : Nat → Lexer → Lexer
  | 0, lexer => lexer
  | steps + 1, lexer =>
    match lexer.cursor.peek? with
    | some ' ' => skipGap steps (lexer.advance 1)
    | some '\t' =>
      if lexer.inFlow || !lexer.keyAllowed then skipGap steps (lexer.advance 1) else lexer
    | some '#' => skipGap steps { lexer with cursor := lexer.cursor.skipComment }
    | some c =>
      if isBreak c then
        skipGap steps { lexer with
          cursor := lexer.cursor.skipBreak, keyAllowed := lexer.keyAllowed || !lexer.inFlow }
      else lexer
    | none => lexer

/-- A candidate is given up after its line or 1024 characters. -/
def dropStale (lexer : Lexer) : Except Malformed Lexer := do
  let stale := fun (k : KeyCandidate) =>
    k.possible && (k.line < lexer.cursor.line || k.index + 1024 < lexer.cursor.index)
  if lexer.candidates.any fun k => stale k && k.required then throw .keyWithoutValue
  return { lexer with
    candidates := lexer.candidates.map fun k => if stale k then { k with possible := false } else k }

def dropCandidate (lexer : Lexer) : Except Malformed Lexer :=
  match lexer.candidates with
  | [] => .ok lexer
  | k :: rest =>
    if k.possible && k.required then .error .keyWithoutValue
    else .ok { lexer with candidates := { k with possible := false } :: rest }

/-- Makes the token at the cursor a candidate, if a key may begin here. -/
def saveCandidate (lexer : Lexer) : Except Malformed Lexer := do
  if !lexer.keyAllowed then return lexer
  let here := lexer.cursor
  let candidate : KeyCandidate := {
    possible := true
    required := lexer.inFlow && lexer.indent == here.column
    place := lexer.tokens.size
    index := here.index
    line := here.line
    column := here.column }
  let lexer ← lexer.dropCandidate
  return { lexer with candidates := candidate :: lexer.candidates.tail }

def closeBlocks (column : Int) (lexer : Lexer) : Lexer :=
  if lexer.inFlow then lexer
  else
    let rec close : List Int → Lexer → Lexer
      | [], lexer => lexer
      | around :: outer, lexer =>
        if lexer.indent > column then
          close outer { lexer.push .blockEnd with indent := around, outer }
        else lexer
    close lexer.outer lexer

/-- Opens a block collection at a column, unless one is open there. Its token goes to a place among
the tokens, or to their end. -/
def openBlock (column : Nat) (place : Option Nat) (token : Token) (lexer : Lexer) : Lexer :=
  if !lexer.inFlow && lexer.indent < column then
    let lexer := { lexer with indent := column, outer := lexer.indent :: lexer.outer }
    match place with
    | some place => lexer.insert place token
    | none => lexer.push token
  else lexer

def documentMark (token : Token) (lexer : Lexer) : Except Malformed Lexer := do
  let lexer ← (lexer.closeBlocks (-1)).dropCandidate
  return ((lexer.allowKey false).advance 3).push token

def directive (lexer : Lexer) : Except Malformed Lexer := do
  let lexer ← (lexer.closeBlocks (-1)).dropCandidate
  let cursor ← directiveAt lexer.cursor
  return ({ lexer with cursor, keyAllowed := false }).push .directive

def streamEnd (lexer : Lexer) : Except Malformed Lexer := do
  let lexer ← (lexer.closeBlocks (-1)).dropCandidate
  return (lexer.allowKey false).push .streamEnd

/-- An opening bracket may itself begin a key. At most 255 may be open. -/
def flowStart (token : Token) (lexer : Lexer) : Except Malformed Lexer := do
  let lexer ← lexer.saveCandidate
  if lexer.flowLevel ≥ 255 then throw .nesting
  let lexer := { lexer with
    candidates := .none :: lexer.candidates, flowLevel := lexer.flowLevel + 1, keyAllowed := true }
  return (lexer.advance 1).push token

def flowEnd (token : Token) (lexer : Lexer) : Except Malformed Lexer := do
  let lexer ← lexer.dropCandidate
  let lexer :=
    if lexer.inFlow then
      { lexer with candidates := lexer.candidates.tail, flowLevel := lexer.flowLevel - 1 }
    else lexer
  return ((lexer.allowKey false).advance 1).push token

def flowEntry (lexer : Lexer) : Except Malformed Lexer := do
  let lexer ← lexer.dropCandidate
  return ((lexer.allowKey true).advance 1).push .flowEntry

def blockEntry (lexer : Lexer) : Except Malformed Lexer := do
  if lexer.inFlow || !lexer.keyAllowed then throw .misplacedEntry
  let lexer ← (lexer.openBlock lexer.cursor.column none .blockSequenceStart).dropCandidate
  return ((lexer.allowKey true).advance 1).push .blockEntry

def explicitKey (lexer : Lexer) : Except Malformed Lexer := do
  if !lexer.inFlow && !lexer.keyAllowed then throw .misplacedKey
  let lexer ← (lexer.openBlock lexer.cursor.column none .blockMappingStart).dropCandidate
  return ((lexer.allowKey !lexer.inFlow).advance 1).push .key

/-- A colon confirms the candidate, if there is one. -/
def value (lexer : Lexer) : Except Malformed Lexer := do
  match lexer.candidates with
  | k :: rest =>
    if k.possible then
      let lexer := (lexer.insert k.place .key).openBlock k.column (some k.place) .blockMappingStart
      let lexer := { lexer with candidates := { k with possible := false } :: rest }
      return ((lexer.allowKey false).advance 1).push .value
  | [] => pure ()
  if !lexer.inFlow && !lexer.keyAllowed then throw .misplacedValue
  let lexer := lexer.openBlock lexer.cursor.column none .blockMappingStart
  return ((lexer.allowKey !lexer.inFlow).advance 1).push .value

def property (read : Cursor → Except Malformed (Token × Cursor)) (lexer : Lexer) :
    Except Malformed Lexer := do
  let lexer ← lexer.saveCandidate
  let (token, cursor) ← read lexer.cursor
  return ({ lexer with cursor, keyAllowed := false }).push token

def readAnchor (cursor : Cursor) : Except Malformed (Token × Cursor) := do
  let (name, cursor) ← anchorAt cursor
  return (.anchor (String.ofList name), cursor)

def readAlias (cursor : Cursor) : Except Malformed (Token × Cursor) := do
  let (name, cursor) ← anchorAt cursor
  return (.alias (String.ofList name), cursor)

def readTag (cursor : Cursor) : Except Malformed (Token × Cursor) := do
  let (tag, cursor) ← tagAt cursor
  return (.tag tag, cursor)

def block (literal : Bool) (lexer : Lexer) : Except Malformed Lexer := do
  let lexer ← lexer.saveCandidate
  let (text, cursor) ← blockScalar literal lexer.indent lexer.cursor
  return ({ lexer with cursor, keyAllowed := true }).push (.scalar false (String.ofList text))

def quoted (single : Bool) (lexer : Lexer) : Except Malformed Lexer := do
  let lexer ← lexer.saveCandidate
  let (text, cursor) ← quotedScalar single lexer.cursor
  return ({ lexer with cursor, keyAllowed := false, adjacentAt := cursor.index }).push
    (.scalar false (String.ofList text))

def plain (lexer : Lexer) : Except Malformed Lexer := do
  let lexer ← lexer.saveCandidate
  let (text, broken, cursor) ← plainScalar lexer.inFlow (lexer.indent + 1).toNat lexer.cursor
  return ({ lexer with cursor, keyAllowed := broken }).push (.scalar true (String.ofList text))

def colonSeparates (lexer : Lexer) : Bool :=
  let following := lexer.cursor.ahead? 1
  endsWord following ||
    (lexer.inFlow && (following.any isFlowSign || lexer.cursor.index == lexer.adjacentAt))

def token (c : Char) (lexer : Lexer) : Except Malformed Lexer :=
  let ends := endsWord (lexer.cursor.ahead? 1)
  match c with
  | '[' => lexer.flowStart .flowSequenceStart
  | '\x7b' => lexer.flowStart .flowMappingStart
  | ']' => lexer.flowEnd .flowSequenceEnd
  | '\x7d' => lexer.flowEnd .flowMappingEnd
  | ',' => lexer.flowEntry
  | '-' => if ends then lexer.blockEntry else lexer.plain
  | '?' => if ends then lexer.explicitKey else lexer.plain
  | ':' => if lexer.colonSeparates then lexer.value else lexer.plain
  | '*' => lexer.property readAlias
  | '&' => lexer.property readAnchor
  | '!' => lexer.property readTag
  | '|' => if lexer.inFlow then lexer.plain else lexer.block true
  | '>' => if lexer.inFlow then lexer.plain else lexer.block false
  | '\x27' => lexer.quoted true
  | '"' => lexer.quoted false
  | '%' | '@' | '\x60' => .error (.character c)
  | _ => lexer.plain

/-- Moves on to where a token begins, or to the end of the text, and closes the block collections
that end before it. -/
def settle (lexer : Lexer) : Except Malformed Lexer := do
  let lexer ← (lexer.skipGap (lexer.cursor.rest.length + 1)).dropStale
  return lexer.closeBlocks lexer.cursor.column

def lineOrToken (c : Char) (lexer : Lexer) : Except Malformed Lexer :=
  if lexer.cursor.column == 0 && c == '%' then lexer.directive
  else if lexer.cursor.column == 0 && lexer.cursor.atTriple '-' then
    lexer.documentMark .documentStart
  else if lexer.cursor.column == 0 && lexer.cursor.atTriple '.' then
    lexer.documentMark .documentEnd
  else lexer.token c

/-- All further tokens. Every step takes at least one character, so as many steps as there are
characters are enough. -/
def all : Nat → Lexer → Except Malformed (Array Token)
  | 0, lexer => return (← lexer.streamEnd).tokens
  | steps + 1, lexer => do
    let lexer ← lexer.settle
    match lexer.cursor.peek? with
    | some c => all steps (← lexer.lineOrToken c)
    | none => return (← lexer.streamEnd).tokens

end Lexer

/-- The tokens of a text. A NUL ends the text. -/
def tokens (text : List Char) : Except Malformed (List Token) := do
  let text := text.takeWhile (· != '\x00')
  return (← Lexer.all (text.length + 1) (.start text)).toList

end FabricLoader.Yaml
