import FabricLoader.Container.Checksum
import FabricLoader.Proofs.Container.LittleEndian
import Mathlib.Logic.Function.Iterate

/-! The register of the checksum. One step is linear and loses nothing, and a word that goes in byte
by byte comes to the same as all its bits at once; so no two words lead from one register to the
same one, whatever follows, and data end in their own checksum exactly if they leave one fixed
remainder. -/
namespace FabricLoader.Container
variable {crc x : BitVec 32} {before first second after : List UInt8} {n : Nat}

theorem bitStep_xor (x y : BitVec 32) : bitStep (x ^^^ y) = bitStep x ^^^ bitStep y := by
  simp only [bitStep, BitVec.getLsbD_xor, BitVec.ushiftRight_xor_distrib]
  cases x.getLsbD 0 <;> cases y.getLsbD 0
  · simp
  · simp [BitVec.xor_assoc]
  · simp only [Bool.xor_false, Bool.false_eq_true, ↓reduceIte, BitVec.xor_zero]
    ac_rfl
  · simp only [Bool.xor_self, Bool.false_eq_true, ↓reduceIte, BitVec.xor_zero]
    rw [BitVec.xor_assoc, BitVec.xor_comm polynomial, BitVec.xor_assoc, BitVec.xor_self,
      BitVec.xor_zero]

/-- The leading coefficient of the polynomial shows whether a one was shifted out. -/
theorem eq_zero_of_bitStep (h : bitStep x = 0#32) : x = 0#32 := by
  cases low : x.getLsbD 0 with
  | true =>
    have leading : (bitStep x).getLsbD 31 = true := by
      simp [bitStep, low, polynomial]
    rw [h] at leading
    cases leading
  | false =>
    have shifted : x >>> 1 = 0#32 := by
      simpa only [bitStep, low, Bool.false_eq_true, ↓reduceIte, BitVec.xor_zero] using h
    apply BitVec.eq_of_getLsbD_eq
    intro i _
    cases i with
    | zero => simpa using low
    | succ i =>
      have bit := congrArg (·.getLsbD i) shifted
      simpa [Nat.add_comm] using bit

theorem bitStep_injective : Function.Injective bitStep := by
  intro x y same
  have gone : bitStep (x ^^^ y) = 0#32 := by rw [bitStep_xor, same, BitVec.xor_self]
  exact BitVec.xor_eq_zero_iff.mp (eq_zero_of_bitStep gone)

theorem iterate_xor (n : Nat) (x y : BitVec 32) :
    bitStep^[n] (x ^^^ y) = bitStep^[n] x ^^^ bitStep^[n] y := by
  induction n with
  | zero => rfl
  | succ n ih => simp only [Function.iterate_succ_apply', ih, bitStep_xor]

/-- Bits that are clear are shifted out without a trace. -/
theorem iterate_of_clear (clear : ∀ i < n, x.getLsbD i = false) : bitStep^[n] x = x >>> n := by
  induction n with
  | zero => rfl
  | succ n ih =>
    have low : (x >>> n).getLsbD 0 = false := by simpa using clear n (Nat.lt_succ_self n)
    rw [Function.iterate_succ_apply', ih fun i below => clear i (Nat.lt_succ_of_lt below), bitStep,
      low, BitVec.shiftRight_add]
    simp

theorem byteStep_injective (byte : UInt8) : Function.Injective (byteStep · byte) := by
  intro crc other same
  exact BitVec.xor_left_inj _ |>.mp (bitStep_injective.iterate 8 same)

theorem register_injective (bytes : List UInt8) : Function.Injective (register · bytes) := by
  induction bytes with
  | nil => exact Function.injective_id
  | cons byte rest ih => exact fun crc other same => byteStep_injective byte (ih same)

/-- Eight steps take in the lowest byte and move the others down. -/
theorem iterate_byte (crc x : BitVec 32) :
    bitStep^[8] (crc ^^^ x) = byteStep crc ⟨x.setWidth 8⟩ ^^^ x >>> 8 := by
  -- The bits above the lowest byte reach no step that could shift them out.
  let low := (x.setWidth 8).setWidth 32
  have clear : ∀ i < 8, (low ^^^ x).getLsbD i = false := by
    intro i below
    have inside : i < 32 := by omega
    simp [low, below, inside]
  have moved : (low ^^^ x) >>> 8 = x >>> 8 := by
    apply BitVec.eq_of_getLsbD_eq
    intro i _
    simp [low, BitVec.getLsbD_setWidth]
  have apart : crc ^^^ x = (crc ^^^ low) ^^^ (low ^^^ x) := by
    rw [BitVec.xor_assoc, ← BitVec.xor_assoc low, BitVec.xor_self, BitVec.zero_xor]
  rw [apart, iterate_xor, iterate_of_clear clear, moved]
  rfl

/-- A word that goes in byte by byte comes to the same as all its bits at once. -/
theorem register_wordBytes (crc : BitVec 32) (w : UInt32) :
    register crc (wordBytes w) = bitStep^[32] (crc ^^^ w.toBitVec) := by
  have step (n : Nat) (crc x : BitVec 32) :
      bitStep^[n + 8] (crc ^^^ x) = bitStep^[n] (byteStep crc ⟨x.setWidth 8⟩ ^^^ x >>> 8) := by
    rw [Function.iterate_add_apply, iterate_byte]
  have last : w.toBitVec >>> (8 + 8 + 8 + 8) = 0#32 := BitVec.ushiftRight_eq_zero (Nat.le_refl 32)
  rw [step 24, step 16, step 8, step 0]
  simp only [← BitVec.shiftRight_add, last, BitVec.xor_zero]
  rfl

/-- The remainder of data that end in their own checksum. -/
def residue : BitVec 32 := 0xDEBB20E3#32

theorem iterate_allOnes : bitStep^[32] (BitVec.allOnes 32) = residue := by decide +kernel

/-- A word behind some bytes is their checksum if and only if all of it leaves the residue. -/
theorem register_eq_residue_iff (bytes : List UInt8) (w : UInt32) :
    register (BitVec.allOnes 32) (bytes ++ wordBytes w) = residue ↔ w = checksum bytes := by
  rw [register_append, register_wordBytes, ← iterate_allOnes, (bitStep_injective.iterate 32).eq_iff,
    checksum, ← UInt32.toBitVec_inj]
  generalize register (BitVec.allOnes 32) bytes = crc
  constructor
  · intro complement
    calc w.toBitVec = crc ^^^ (crc ^^^ w.toBitVec) := by
          rw [← BitVec.xor_assoc, BitVec.xor_self, BitVec.zero_xor]
      _ = ~~~crc := by rw [complement, BitVec.xor_allOnes]
  · intro complement
    rw [complement, ← BitVec.xor_allOnes, ← BitVec.xor_assoc, BitVec.xor_self, BitVec.zero_xor]

/-- The check value of `123456789`, by which this checksum is told from others of its width. -/
example : register (BitVec.allOnes 32)
    ([0x31, 0x32, 0x33, 0x34, 0x35, 0x36, 0x37, 0x38, 0x39] ++ wordBytes 0xCBF43926) = residue := by
  decide +kernel

/-- Four bytes can be told apart by the register, wherever they stand. -/
theorem eq_of_register_eq (four : first.length = 4) (fourToo : second.length = 4)
    (same : register crc (before ++ (first ++ after)) =
      register crc (before ++ (second ++ after))) : first = second := by
  obtain ⟨v, rfl⟩ := exists_wordBytes four
  obtain ⟨w, rfl⟩ := exists_wordBytes fourToo
  simp only [register_append] at same
  -- What follows takes different registers apart, so the two words meet right behind them.
  have words := register_injective after same
  rw [register_wordBytes, register_wordBytes, (bitStep_injective.iterate 32).eq_iff] at words
  rw [UInt32.toBitVec_inj.mp ((BitVec.xor_right_inj _).mp words)]

end FabricLoader.Container
