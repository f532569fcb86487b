import FabricLoader.Yaml.Cursor
import FabricLoader.Yaml.Malformed

/-! Literal and folded block scalars: a header, then lines of one indentation, which the first line
with text decides unless the header does. -/
namespace FabricLoader.Yaml

/-- What becomes of the line breaks at the end. -/
inductive Chomp where
  | strip
  | clip
  | keep
  deriving DecidableEq, Repr

structure BlockHeader where
  chomp : Chomp
  /-- Columns beyond those of the parent, or zero for the first line to decide. -/
  increment : Nat

def chompSign? (cursor : Cursor) : Option Chomp :=
  match cursor.peek? with
  | some '+' => some .keep
  | some '-' => some .strip
  | _ => none

def increment (cursor : Cursor) : Except Malformed (Nat × Cursor) :=
  match cursor.peek? with
  | some '0' => .error .blockHeader
  | some c => .ok (if c.isDigit then (c.toNat - '0'.toNat, cursor.next) else (0, cursor))
  | none => .ok (0, cursor)

def headerSigns (cursor : Cursor) : Except Malformed (BlockHeader × Cursor) := do
  match chompSign? cursor with
  | some chomp =>
    let (n, cursor) ← increment cursor.next
    return (⟨chomp, n⟩, cursor)
  | none =>
    let (n, cursor) ← increment cursor
    if n = 0 then return (⟨.clip, 0⟩, cursor)
    match chompSign? cursor with
    | some chomp => return (⟨chomp, n⟩, cursor.next)
    | none => return (⟨.clip, n⟩, cursor)

def blockHeader (cursor : Cursor) : Except Malformed (BlockHeader × Cursor) := do
  let (header, cursor) ← headerSigns cursor
  let cursor := (cursor.skipWhile isBlank).skipComment
  if endsLine cursor.peek? then return (header, cursor.skipBreak) else throw .blockHeader

/-- Blank lines and the indentation of the next line with text. An indentation of zero is still
unknown; it becomes the widest one seen, and at least `least`. -/
def blankLines (least : Nat) :
    Nat → (indent widest count : Nat) → Cursor → Except Malformed (Nat × Nat × Cursor)
  | 0, indent, _, count, cursor => .ok (indent, count, cursor)
  | steps + 1, indent, widest, count, cursor =>
    let spaces := (cursor.rest.takeWhile (· == ' ')).length
    let cursor := cursor.skip (if indent = 0 then spaces else min spaces (indent - cursor.column))
    let widest := max widest cursor.column
    if (indent = 0 || cursor.column < indent) && cursor.peek? == some '\t' then .error .tab
    else if cursor.peek?.any isBreak then
      blankLines least steps indent widest (count + 1) cursor.skipBreak
    else .ok (if indent = 0 then max widest least else indent, count, cursor)

structure BlockText where
  text : List Char
  /-- Whether the last line has ended. -/
  ended : Bool
  /-- Blank lines since. -/
  blank : Nat
  /-- Whether the last line began with a blank, which keeps the break after it. -/
  indented : Bool

/-- The text with the break that separates it from a next line. A folded break is a blank, or nothing
before blank lines. -/
def BlockText.joined (literal indented : Bool) (block : BlockText) : List Char :=
  let separator :=
    if !block.ended then []
    else if !literal && !block.indented && !indented then (if block.blank = 0 then [' '] else [])
    else ['\n']
  block.text ++ separator ++ List.replicate block.blank '\n'

def blockLines (literal : Bool) (least indent : Nat) :
    Nat → BlockText → Cursor → Except Malformed (BlockText × Cursor)
  | 0, block, cursor => .ok (block, cursor)
  | steps + 1, block, cursor => do
    if cursor.column != indent || cursor.rest.isEmpty then return (block, cursor)
    let indented := cursor.peek?.any isBlank
    let (line, cursor) := cursor.takeWhile (!isBreak ·)
    let text := block.joined literal indented ++ line
    if cursor.rest.isEmpty then return (⟨text, false, 0, indented⟩, cursor)
    let cursor := cursor.skipBreak
    let (_, blank, cursor) ← blankLines least (cursor.rest.length + 1) indent 0 0 cursor
    blockLines literal least indent steps ⟨text, true, blank, indented⟩ cursor

def blockScalar (literal : Bool) (parent : Int) (cursor : Cursor) :
    Except Malformed (List Char × Cursor) := do
  let (header, cursor) ← blockHeader cursor.next
  let least := max (parent + 1).toNat 1
  let indent := if header.increment = 0 then 0 else parent.toNat + header.increment
  let (indent, blank, cursor) ← blankLines least (cursor.rest.length + 1) indent 0 0 cursor
  let (block, cursor) ←
    blockLines literal least indent (cursor.rest.length + 1) ⟨[], false, blank, false⟩ cursor
  let last := if block.ended then ['\n'] else []
  match header.chomp with
  | .strip => return (block.text, cursor)
  | .clip => return (block.text ++ last, cursor)
  | .keep => return (block.text ++ last ++ List.replicate block.blank '\n', cursor)

end FabricLoader.Yaml
