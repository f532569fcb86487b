import FabricLoader.Text.WordTable

/-! Character classes of identifiers. ASCII is decided without the tables, so that statements
about plain identifiers never have to open them. -/
namespace FabricLoader.Text

def inRanges (ranges : Array (Nat × Nat)) (n : Nat) : Bool :=
  ranges.any fun (first, last) => first ≤ n && n ≤ last

def isNameStart (c : Char) : Bool := c.isAlpha || c == '_'

def isPlainWord (c : Char) : Bool := c.isAlphanum || c == '_'

/-- Characters of words in any script. -/
def isWordChar (c : Char) : Bool :=
  if c.toNat < 128 then isPlainWord c else inRanges wordRanges c.toNat

def isDecimalDigit (c : Char) : Bool :=
  if c.toNat < 128 then c.isDigit else inRanges digitRanges c.toNat

end FabricLoader.Text
