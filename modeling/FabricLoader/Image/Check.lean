import FabricLoader.Action
import FabricLoader.Image.Basic
import FabricLoader.Table.Basic
import FabricLoader.Text.Padded

/-! Checking a table. Five checks run in a fixed order, the first that fails is reported, and only a
table that passes them all becomes an image. -/
namespace FabricLoader

inductive ImageError where
  | empty
  | unsupportedWidth (width : UInt32)
  | oddWords (words : Nat)
  | countMismatch (declared : UInt32) (words : Nat)
  | valueOutOfRange (index : Nat) (value width : UInt32)
  deriving DecidableEq, Repr

def ImageError.message : ImageError → String
  | empty => "Empty image: declared entry count is 0"
  | unsupportedWidth width => s!"Unsupported width: {width} bits"
  | oddWords words => s!"Malformed image: {words} words is not a whole number of entries"
  | countMismatch declared words =>
    s!"Count mismatch: declared {declared} entries, table holds {words} words"
  | valueOutOfRange index value width =>
    s!"Value out of range at entry {index}: {Text.hexWord value} exceeds {width} bits"

structure Checker where
  widths : List UInt32
  deriving DecidableEq, Repr

namespace Checker

/-- The widths that table compilers emit; 44 bits are a 12-bit selector over a 32-bit word. -/
def standard : Checker := ⟨[8, 16, 24, 32, 44]⟩

/-- The value has no bit at `width` or above. The shift is made in 64 bits, of which it may not
shift all out. -/
def fits (value width : UInt32) : Bool := 64 ≤ width || value.toUInt64 >>> width.toUInt64 == 0

/-- Alternating words as entries; a last word without a partner is left out. -/
def pairs : List UInt32 → List Entry
  | address :: value :: rest => ⟨address, value⟩ :: pairs rest
  | _ => []

/-- The first value that is too wide, with its place counted from `index`. -/
def misfit? (width : UInt32) (index : Nat) : List Entry → Option (Nat × UInt32)
  | [] => none
  | e :: rest => if fits e.value width then misfit? width (index + 1) rest else some (index, e.value)

theorem length_pairs (words : List UInt32) : (pairs words).length = words.length / 2 := by
  fun_induction pairs words with
  | case1 address value rest ih => simp [ih]; omega
  | case2 words short =>
    match words, short with
    | [], _ => rfl
    | [_], _ => simp
    | a :: b :: rest, short => exact absurd rfl (short a b rest)

theorem pairs_ne_nil {words : List UInt32} {count : UInt32} (h : count ≠ 0)
    (size : words.length = 2 * count.toNat) : pairs words ≠ [] := by
  intro nil
  have := length_pairs words
  rw [nil] at this
  have : count.toNat ≠ 0 := fun zero => h (UInt32.toNat_inj.1 (by simpa using zero))
  simp at *
  omega

def check (checker : Checker) (words : List UInt32) (count width : UInt32)
    (control : Option UInt32) : Except ImageError Image :=
  if zero : count = 0 then .error .empty
  else if !checker.widths.contains width then .error (.unsupportedWidth width)
  else if words.length % 2 ≠ 0 then .error (.oddWords words.length)
  else if size : words.length ≠ 2 * count.toNat then .error (.countMismatch count words.length)
  else
    let entries := pairs words
    match misfit? width 0 entries with
    | some (index, value) => .error (.valueOutOfRange index value width)
    | none => .ok ⟨entries, width, control, pairs_ne_nil zero (Decidable.not_not.1 size)⟩

def checkTable (checker : Checker) (table : Table) : Except ImageError Image :=
  checker.check table.words table.count table.width table.control

end Checker

def Image.checkedLine (image : Image) : LogLine where
  level := .trace
  text :=
    let control := image.control.elim "None" fun c => s!"Some({Text.hex 1 c.toNat})"
    s!"validated image entries={image.size} width={image.width} control={control}"

end FabricLoader
