/-! Numbers in columns: decimal or lower-case hexadecimal, filled on the left to a least width. -/
namespace FabricLoader.Text

def padLeft (fill : Char) (width : Nat) (text : List Char) : String :=
  String.ofList (List.replicate (width - text.length) fill ++ text)

def decimal (width n : Nat) : String := padLeft ' ' width (Nat.toDigits 10 n)

def zeroDecimal (width n : Nat) : String := padLeft '0' width (Nat.toDigits 10 n)

def hex (width n : Nat) : String := padLeft '0' width (Nat.toDigits 16 n)

/-- A 32-bit word as `0x` and eight digits. -/
def hexWord (w : UInt32) : String := "0x" ++ hex 8 w.toNat

def hexWordOrNone (w : Option UInt32) : String := w.elim "none" hexWord

end FabricLoader.Text
