import FabricLoader.Text.Numeral
import FabricLoader.Yaml.Cursor
import FabricLoader.Yaml.FlowScalar
import FabricLoader.Yaml.Malformed

/-! Tags, anchors, aliases and directives. -/
namespace FabricLoader.Yaml

structure Tag where
  handle : List Char
  suffix : List Char
  deriving DecidableEq, Repr

def isTagChar (c : Char) : Bool :=
  isNameChar c || ";/?:@&=+$,.!~*\x27()[]%".toList.contains c

/-- How many octets an escaped character has, by its first one. -/
def octetCount? (octet : Nat) : Option Nat :=
  if octet < 0x80 then some 1
  else if 0xC0 ≤ octet && octet < 0xE0 then some 2
  else if 0xE0 ≤ octet && octet < 0xF0 then some 3
  else if 0xF0 ≤ octet && octet < 0xF8 then some 4
  else none

def escapedOctet? : List Char → Option (Nat × List Char)
  | '%' :: a :: b :: text => return (← Text.digits? 16 [a, b], text)
  | _ => none

def moreOctets? : Nat → Nat → List Char → Option (Nat × List Char)
  | 0, code, text => some (code, text)
  | n + 1, code, text => do
    let (octet, text) ← escapedOctet? text
    if 0x80 ≤ octet && octet < 0xC0 then moreOctets? n (code * 256 + octet) text else none

def escapedChar? (text : List Char) : Option (Char × List Char) := do
  let (octet, text) ← escapedOctet? text
  let (code, text) ← moreOctets? ((← octetCount? octet) - 1) octet text
  return (← charOf? code, text)

def tagSuffix : Nat → List Char → Except Malformed (List Char × List Char)
  | 0, text => .ok ([], text)
  | _, [] => .ok ([], [])
  | steps + 1, c :: text => do
    if !isTagChar c then return ([], c :: text)
    let (c, text) ←
      if c == '%' then
        match escapedChar? (c :: text) with
        | some found => pure found
        | none => throw .tag
      else pure (c, text)
    let (suffix, rest) ← tagSuffix steps text
    return (c :: suffix, rest)

def suffixAt (cursor : Cursor) : Except Malformed (List Char × Cursor) := do
  let (suffix, rest) ← tagSuffix cursor.rest.length cursor.rest
  return (suffix, cursor.skipTo rest)

/-- A handle at the cursor: an exclamation mark, a name, and perhaps another mark. -/
def handleAt (cursor : Cursor) : Except Malformed (List Char × Cursor) := do
  if cursor.peek? != some '!' then throw .tag
  let (name, cursor) := cursor.next.takeWhile isNameChar
  if cursor.peek? == some '!' then return ('!' :: name ++ ['!'], cursor.next)
  return ('!' :: name, cursor)

/-- Whether a handle has a mark at either end, so that a suffix has to follow. -/
def isFullHandle (handle : List Char) : Bool := handle.length ≥ 2 && handle.getLast? == some '!'

/-- A tag: between angle brackets, with a full handle, or with a local name, of which the lone mark
is a special case. -/
def tagBody (cursor : Cursor) : Except Malformed (Tag × Cursor) := do
  if cursor.ahead? 1 == some '<' then
    let (suffix, cursor) ← suffixAt (cursor.skip 2)
    if suffix.isEmpty || cursor.peek? != some '>' then throw .tag
    return (⟨[], suffix⟩, cursor.next)
  let (handle, cursor) ← handleAt cursor
  let (suffix, cursor) ← suffixAt cursor
  if isFullHandle handle then
    if suffix.isEmpty then throw .tag
    return (⟨handle, suffix⟩, cursor)
  let name := handle.tail ++ suffix
  if name.isEmpty then return (⟨[], ['!']⟩, cursor)
  return (⟨['!'], name⟩, cursor)

def tagAt (cursor : Cursor) : Except Malformed (Tag × Cursor) := do
  let (tag, cursor) ← tagBody cursor
  if endsWord cursor.peek? then return (tag, cursor) else throw .tag

def endsAnchor (c : Option Char) : Bool :=
  endsWord c || c.any fun c => "?:,]\x7d%@\x60".toList.contains c

def anchorAt (cursor : Cursor) : Except Malformed (List Char × Cursor) := do
  let (name, cursor) := cursor.next.takeWhile isNameChar
  if name.isEmpty || !endsAnchor cursor.peek? then throw .anchor
  return (name, cursor)

def versionNumber (cursor : Cursor) : Except Malformed Cursor := do
  let (digits, cursor) := cursor.takeWhile Char.isDigit
  if digits.isEmpty || digits.length > 9 then throw .directive
  return cursor

def directiveValue (name : List Char) (cursor : Cursor) : Except Malformed Cursor := do
  if name == "YAML".toList then
    let cursor ← versionNumber (cursor.skipWhile isBlank)
    if cursor.peek? != some '.' then throw .directive
    versionNumber cursor.next
  else if name == "TAG".toList then
    let (handle, cursor) ← handleAt (cursor.skipWhile isBlank)
    if handle != ['!'] && !isFullHandle handle then throw .directive
    let (suffix, cursor) ← suffixAt (cursor.skipWhile isBlank)
    if suffix.isEmpty || !endsWord cursor.peek? then throw .directive
    return cursor
  else return cursor.skipWhile (!isBreak ·)

/-- A directive at the cursor, with its line. A directive of an unknown name is passed over. -/
def directiveAt (cursor : Cursor) : Except Malformed Cursor := do
  let (name, cursor) := cursor.next.takeWhile isNameChar
  if name.isEmpty || !endsWord cursor.peek? then throw .directive
  let cursor ← directiveValue name cursor
  let cursor := (cursor.skipWhile isBlank).skipComment
  if endsLine cursor.peek? then return cursor.skipBreak else throw .directive

end FabricLoader.Yaml
