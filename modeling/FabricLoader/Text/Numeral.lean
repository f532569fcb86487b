/-! Unsigned and signed numerals in a radix up to 36, with an optional sign and a bound. -/
namespace FabricLoader.Text

/-- The value of an ASCII digit; letters of either case continue after 9. -/
def digitValue (radix : Nat) (c : Char) : Option Nat :=
  let value :=
    if c.isDigit then some (c.toNat - '0'.toNat)
    else if c.isLower then some (c.toNat - 'a'.toNat + 10)
    else if c.isUpper then some (c.toNat - 'A'.toNat + 10)
    else none
  value.filter (· < radix)

def digitsFrom (radix : Nat) : Nat → List Char → Option Nat
  | value, [] => some value
  | value, c :: digits => do digitsFrom radix (value * radix + (← digitValue radix c)) digits

def digits? (radix : Nat) : List Char → Option Nat
  | [] => none
  | c :: digits => digitsFrom radix 0 (c :: digits)

/-- A numeral below `limit`: one optional `+`, then digits. -/
def unsigned? (radix limit : Nat) : List Char → Option Nat
  | '+' :: digits => (digits? radix digits).filter (· < limit)
  | digits => (digits? radix digits).filter (· < limit)

/-- A numeral between `-limit` and `limit - 1`: one optional sign, then digits. -/
def signed? (radix limit : Nat) : List Char → Option Int
  | '-' :: digits => ((digits? radix digits).filter (· ≤ limit)).map fun n => -(n : Int)
  | digits => (unsigned? radix limit digits).map fun n => (n : Int)

def word? (radix : Nat) (text : List Char) : Option UInt32 :=
  (unsigned? radix UInt32.size text).map UInt32.ofNat

end FabricLoader.Text
