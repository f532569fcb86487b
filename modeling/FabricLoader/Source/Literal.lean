import FabricLoader.Text.Blank
import FabricLoader.Text.Numeral

/-! Integer literals of table sources. -/
namespace FabricLoader.Source

def isTypeSuffix (c : Char) : Bool := c == 'u' || c == 'U' || c == 'l' || c == 'L'

/-- The word that a literal denotes: after blanks and type suffixes are gone, `0x` or `0X` and
hexadecimal digits, or decimal digits, in either case with an optional `+` and below 2 to the 32. -/
def literal? (text : List Char) : Option UInt32 :=
  match Text.dropEndWhile isTypeSuffix (Text.trim text) with
  | '0' :: 'x' :: digits => Text.word? 16 digits
  | '0' :: 'X' :: digits => Text.word? 16 digits
  | digits => Text.word? 10 digits

end FabricLoader.Source
