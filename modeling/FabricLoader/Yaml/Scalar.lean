import FabricLoader.Text.Numeral
import FabricLoader.Yaml.Node

/-! What a scalar means. A tag of the standard handle decides; without a tag, a quoted or block scalar
is text, and a plain one is read as null, a truth value or an integer if it has the form of one. -/
namespace FabricLoader.Yaml

/-- The meaning of a scalar. Text and numbers with a fraction are not told apart. -/
inductive Meaning where
  | null
  | bool (value : Bool)
  | int (value : Int)
  | other
  deriving DecidableEq, Repr

def signedLimit : Nat := 0x8000000000000000

def unsignedLimit : Nat := UInt64.size

def isNull (text : List Char) : Bool := text == ['~'] || text == "null".toList

def bool? (text : List Char) : Option Bool :=
  if text == "true".toList then some true else if text == "false".toList then some false else none

def radix? : Char → Option Nat
  | 'x' => some 16
  | 'o' => some 8
  | 'b' => some 2
  | _ => none

/-- An integer with a radix in front of its digits. After a positive one the digits may have a sign
of their own. -/
def radixed? : List Char → Option Int
  | '-' :: '0' :: letter :: digits => do
    let n ← (Text.digits? (← radix? letter) digits).filter (· ≤ signedLimit)
    return -(n : Int)
  | '+' :: '0' :: letter :: digits | '0' :: letter :: digits => do
    let n ← Text.unsigned? (← radix? letter) unsignedLimit digits
    return (n : Int)
  | _ => none

/-- Digits after a leading zero are text, whatever signs come before. -/
def hasLeadingZero (text : List Char) : Bool :=
  match text.dropWhile fun c => c == '-' || c == '+' with
  | '0' :: c :: digits => (c :: digits).all Char.isDigit
  | _ => false

def decimal? (text : List Char) : Option Int :=
  if hasLeadingZero text then none
  else
    match Text.unsigned? 10 unsignedLimit text with
    | some n => some (n : Int)
    | none => Text.signed? 10 signedLimit text

def plainMeaning (text : List Char) : Meaning :=
  if isNull text then .null
  else
    match bool? text, radixed? text, decimal? text with
    | some value, _, _ => .bool value
    | none, some value, _ => .int value
    | none, none, some value => .int value
    | none, none, none => .other

/-- The meaning of a scalar under a tag, if it has the form that the tag asks for. -/
def taggedMeaning? (tag : Tag) (text : List Char) : Option Meaning :=
  if tag.handle != "!!".toList then some .other
  else if tag.suffix == "bool".toList then (bool? text).map .bool
  else if tag.suffix == "int".toList then (Text.signed? 10 signedLimit text).map .int
  else if tag.suffix == "null".toList then if isNull text then some .null else none
  else some .other

def meaning? (plain : Bool) (tag : Option Tag) (text : List Char) : Option Meaning :=
  match tag with
  | some tag => taggedMeaning? tag text
  | none => some (if plain then plainMeaning text else .other)

/-- Whether an optional value is left out. Only a spelling of null leaves it out: where an anchor
stands alone, the value is the empty text. A plain scalar that is tagged as null has to be one. -/
def isAbsent? (plain : Bool) (tag : Option Tag) (text : List Char) : Option Bool :=
  match plain, tag with
  | true, none => some (isNull text)
  | true, some tag =>
    if tag.handle == "!!".toList && tag.suffix == "null".toList then
      if isNull text then some true else none
    else some false
  | false, _ => some false

end FabricLoader.Yaml
