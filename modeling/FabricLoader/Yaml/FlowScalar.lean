import FabricLoader.Text.Numeral
import FabricLoader.Yaml.Cursor
import FabricLoader.Yaml.Malformed

/-! Plain and quoted scalars. Both are words with gaps between them; a gap that holds line breaks is
folded, so that one break becomes a blank and each further one a line feed. -/
namespace FabricLoader.Yaml

inductive Gap where
  /-- Blanks within a line. -/
  | inline (blanks : List Char)
  /-- Line breaks: a first one, unless it was escaped, and some more. -/
  | lines (first : Bool) (more : Nat)

def Gap.text : Gap → List Char
  | inline blanks => blanks
  | lines true 0 => [' ']
  | lines _ more => List.replicate more '\n'

def Gap.hasBreak : Gap → Bool
  | inline _ => false
  | lines .. => true

/-- Continues a gap as far as it goes. At the beginning of a line, tabs are refused in columns before
`tabsFrom`. -/
def gapFrom (tabsFrom : Nat) : Nat → Gap → Cursor → Except Malformed (Gap × Cursor)
  | 0, gap, cursor => .ok (gap, cursor)
  | steps + 1, gap, cursor =>
    match cursor.peek?, gap with
    | none, _ => .ok (gap, cursor)
    | some c, .inline blanks =>
      if isBlank c then gapFrom tabsFrom steps (.inline (blanks ++ [c])) cursor.next
      else if isBreak c then gapFrom tabsFrom steps (.lines true 0) cursor.skipBreak
      else .ok (gap, cursor)
    | some c, .lines first more =>
      if c = '\t' && cursor.column < tabsFrom then .error .tab
      else if isBlank c then gapFrom tabsFrom steps gap cursor.next
      else if isBreak c then gapFrom tabsFrom steps (.lines first (more + 1)) cursor.skipBreak
      else .ok (gap, cursor)

def gap (tabsFrom : Nat) (begun : Gap) (cursor : Cursor) : Except Malformed (Gap × Cursor) :=
  gapFrom tabsFrom cursor.rest.length begun cursor

/-- A word of a plain scalar: up to a blank or a break, a colon that ends a key, or, inside flow
collections, one of their signs. -/
def plainWord (flow : Bool) : List Char → List Char
  | [] => []
  | c :: text =>
    if isBlank c || isBreak c then []
    else if c == ':' && (endsWord text.head? || (flow && text.head?.any isFlowSign)) then []
    else if flow && isFlowSign c then []
    else c :: plainWord flow text

/-- The rest of a plain scalar after some text and a gap. Outside flow collections it ends before a
line that is indented less than `indent`. The gap at its end is given back as well. -/
def plainFrom (flow : Bool) (indent : Nat) :
    Nat → List Char → Gap → Cursor → Except Malformed (List Char × Gap × Cursor)
  | 0, text, between, cursor => .ok (text, between, cursor)
  | steps + 1, text, between, cursor => do
    if cursor.atDocumentMark || cursor.peek? == some '#' then return (text, between, cursor)
    let word := plainWord flow cursor.rest
    let cursor := cursor.skip word.length
    let (text, begun) :=
      if word.isEmpty then (text, between) else (text ++ between.text ++ word, .inline [])
    if cursor.rest.isEmpty || !endsWord cursor.peek? then return (text, begun, cursor)
    let (between, cursor) ← gap indent begun cursor
    if !flow && cursor.column < indent then return (text, between, cursor)
    plainFrom flow indent steps text between cursor

def plainScalar (flow : Bool) (indent : Nat) (cursor : Cursor) :
    Except Malformed (List Char × Bool × Cursor) := do
  let (text, after, cursor) ← plainFrom flow indent (cursor.rest.length + 1) [] (.inline []) cursor
  return (text, after.hasBreak, cursor)

/-- A word of a single-quoted scalar, in which two quotes stand for one, and the text after it. -/
def singleWord : List Char → List Char × List Char
  | '\x27' :: '\x27' :: text => let (word, rest) := singleWord text; ('\x27' :: word, rest)
  | c :: text =>
    if c == '\x27' || isBlank c || isBreak c then ([], c :: text)
    else let (word, rest) := singleWord text; (c :: word, rest)
  | [] => ([], [])

def namedEscape? : Char → Option Char
  | '0' => some '\x00'
  | 'a' => some '\x07'
  | 'b' => some '\x08'
  | 't' | '\t' => some '\t'
  | 'n' => some '\n'
  | 'v' => some '\x0b'
  | 'f' => some '\x0c'
  | 'r' => some '\r'
  | 'e' => some '\x1b'
  | ' ' => some ' '
  | '"' => some '"'
  | '\x27' => some '\x27'
  | '\\' => some '\\'
  | 'N' => some '\u0085'
  | '_' => some '\u00a0'
  | 'L' => some '\u2028'
  | 'P' => some '\u2029'
  | _ => none

def escapeDigits? : Char → Option Nat
  | 'x' => some 2
  | 'u' => some 4
  | 'U' => some 8
  | _ => none

def charOf? (code : Nat) : Option Char := if code.isValidChar then some (Char.ofNat code) else none

def hexEscape? (count : Nat) (text : List Char) : Option Char :=
  if (text.take count).length = count then (Text.digits? 16 (text.take count)).bind charOf? else none

/-- A word of a double-quoted scalar, the text after it, and whether an escaped line break ends it. -/
def doubleWord : Nat → List Char → Except Malformed (List Char × List Char × Bool)
  | 0, text => .ok ([], text, false)
  | _, [] => .ok ([], [], false)
  | _, '\\' :: [] => .error .escape
  | steps + 1, '\\' :: c :: text => do
    if isBreak c then
      return ([], if c == '\r' && text.head? == some '\n' then text.tail else text, true)
    let (decoded, text) ←
      match namedEscape? c, escapeDigits? c with
      | some decoded, _ => pure (decoded, text)
      | none, none => throw .escape
      | none, some count =>
        match hexEscape? count text with
        | some decoded => pure (decoded, text.drop count)
        | none => throw .escape
    let (word, rest, broken) ← doubleWord steps text
    return (decoded :: word, rest, broken)
  | steps + 1, c :: text => do
    if c == '"' || isBlank c || isBreak c then return ([], c :: text, false)
    let (word, rest, broken) ← doubleWord steps text
    return (c :: word, rest, broken)

def quotedFrom (single : Bool) : Nat → List Char → Cursor → Except Malformed (List Char × Cursor)
  | 0, _, _ => .error .unclosedQuote
  | steps + 1, text, cursor => do
    if cursor.atDocumentMark then throw .documentMarkInQuote
    if cursor.rest.isEmpty then throw .unclosedQuote
    let (word, rest, broken) ←
      if single then
        let (word, rest) := singleWord cursor.rest
        pure (word, rest, false)
      else doubleWord cursor.rest.length cursor.rest
    let cursor := cursor.skipTo rest
    if cursor.peek? == some (if single then '\x27' else '"') then return (text ++ word, cursor.next)
    let (between, cursor) ← gap 0 (if broken then .lines false 0 else .inline []) cursor
    quotedFrom single steps (text ++ word ++ between.text) cursor

def quotedScalar (single : Bool) (cursor : Cursor) : Except Malformed (List Char × Cursor) :=
  quotedFrom single (cursor.rest.length + 1) [] cursor.next

end FabricLoader.Yaml
