/-! UTF-8, one byte at a time. Between bytes stands at most one unfinished character; a byte that
cannot continue it ends it and is read again as a first byte. The strict reading reports the place
and length of the first such fault, the lenient one puts U+FFFD in its place, so that each
longest beginning of a character counts as one fault. -/
namespace FabricLoader.Text.Utf8

structure Unfinished where
  /-- Bits gathered so far. -/
  bits : Nat
  /-- Bytes read so far. -/
  read : Nat
  /-- Bytes owed after the next one. -/
  owed : Nat
  /-- The least next byte. -/
  low : UInt8 := 0x80
  /-- The greatest next byte. -/
  high : UInt8 := 0xBF

inductive Reading where
  | char (c : Char)
  | unfinished (u : Unfinished)
  | refused

def first (b : UInt8) : Reading :=
  if b < 0x80 then .char (Char.ofNat b.toNat)
  else if b < 0xC2 then .refused
  else if b < 0xE0 then .unfinished { bits := b.toNat - 0xC0, read := 1, owed := 0 }
  else if b == 0xE0 then .unfinished { bits := 0, read := 1, owed := 1, low := 0xA0 }
  else if b == 0xED then .unfinished { bits := 0xD, read := 1, owed := 1, high := 0x9F }
  else if b < 0xF0 then .unfinished { bits := b.toNat - 0xE0, read := 1, owed := 1 }
  else if b == 0xF0 then .unfinished { bits := 0, read := 1, owed := 2, low := 0x90 }
  else if b < 0xF4 then .unfinished { bits := b.toNat - 0xF0, read := 1, owed := 2 }
  else if b == 0xF4 then .unfinished { bits := 4, read := 1, owed := 2, high := 0x8F }
  else .refused

def Unfinished.next (u : Unfinished) (b : UInt8) : Reading :=
  if u.low ≤ b && b ≤ u.high then
    let bits := u.bits * 64 + (b.toNat - 0x80)
    match u.owed with
    | 0 => .char (Char.ofNat bits)
    | owed + 1 => .unfinished { bits, read := u.read + 1, owed }
  else .refused

/-- Where a text stops being UTF-8, and how many bytes there belong to no character; no length is
given when the bytes end inside a character. -/
structure Fault where
  index : Nat
  length : Option Nat
  deriving DecidableEq, Repr

def Fault.message (fault : Fault) : String :=
  match fault.length with
  | some n => s!"invalid utf-8 sequence of {n} bytes from index {fault.index}"
  | none => s!"incomplete utf-8 byte sequence from index {fault.index}"

/-- Strict reading from byte `index` on. -/
def decodeFrom (index : Nat) : Option Unfinished → List UInt8 → Except Fault (List Char)
  | none, [] => .ok []
  | some u, [] => .error ⟨index - u.read, none⟩
  | none, b :: bytes =>
    match first b with
    | .char c => (decodeFrom (index + 1) none bytes).map (c :: ·)
    | .unfinished u => decodeFrom (index + 1) (some u) bytes
    | .refused => .error ⟨index, some 1⟩
  | some u, b :: bytes =>
    match u.next b with
    | .char c => (decodeFrom (index + 1) none bytes).map (c :: ·)
    | .unfinished u => decodeFrom (index + 1) (some u) bytes
    | .refused => .error ⟨index - u.read, some u.read⟩

def decode (bytes : List UInt8) : Except Fault String :=
  (decodeFrom 0 none bytes).map String.ofList

/-- U+FFFD, which stands for whatever is no character. -/
def replacement : Char := '\uFFFD'

/-- The characters that become known with one more byte, and what is unfinished after it. -/
def step (pending : Option Unfinished) (b : UInt8) : List Char × Option Unfinished :=
  let fresh : List Char × Option Unfinished :=
    match first b with
    | .char c => ([c], none)
    | .unfinished u => ([], some u)
    | .refused => ([replacement], none)
  match pending with
  | none => fresh
  | some u =>
    match u.next b with
    | .char c => ([c], none)
    | .unfinished u => ([], some u)
    | .refused => (replacement :: fresh.1, fresh.2)

/-- Lenient reading: every fault becomes one U+FFFD. -/
def lenientFrom : Option Unfinished → List UInt8 → List Char
  | none, [] => []
  | some _, [] => [replacement]
  | pending, b :: bytes => (step pending b).1 ++ lenientFrom (step pending b).2 bytes

def lenient (bytes : List UInt8) : List Char := lenientFrom none bytes

/-- A character that stands in ASCII flushes whatever was unfinished and is read as itself. -/
theorem step_ascii (pending : Option Unfinished) {b : UInt8} (h : b < 0x80)
    (low : ∀ u, pending = some u → 0x80 ≤ u.low) :
    step pending b =
      ((pending.elim [] fun _ => [replacement]) ++ [Char.ofNat b.toNat], none) := by
  cases pending with
  | none => simp [step, first, h]
  | some u =>
    have outside : ¬ u.low ≤ b := fun le => by
      have := low u rfl
      simp only [UInt8.lt_iff_toNat_lt, UInt8.le_iff_toNat_le] at *
      omega
    simp [step, first, h, Unfinished.next, outside]

end FabricLoader.Text.Utf8
