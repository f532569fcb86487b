import FabricLoader.Proofs.Container.Remainder
import FabricLoader.Proofs.Container.RoundTrip

/-! Damage to a container. The checksum covers itself as well: all of a container leaves the
residue, and data that differ from it in up to four bytes in a row do not, wherever these stand. So
the words, the header and the checksum are protected alike, and so is any place where two of them
meet. -/
namespace FabricLoader.Container
variable {data other : List UInt8} {parts : Parts} {table : Table} {start : Nat}

theorem register_bytes_iff : register (BitVec.allOnes 32) parts.bytes = residue ↔
    parts.stored = checksum parts.body :=
  register_eq_residue_iff parts.body parts.stored

theorem register_encode (table : Table) :
    register (BitVec.allOnes 32) (encode table) = residue := by
  rw [encode, register_eq_residue_iff]

/-- Data that differ in no place but four in a row are the same around these. -/
theorem exists_window (enough : 4 ≤ other.length) (length : data.length = other.length)
    (window : ∀ i, data[i]? ≠ other[i]? → start ≤ i ∧ i < start + 4) :
    ∃ before first second after, first.length = 4 ∧ second.length = 4 ∧
      data = before ++ (first ++ after) ∧ other = before ++ (second ++ after) := by
  -- A window that reaches past the end is moved back.
  let place := min start (other.length - 4)
  have front : data.take place = other.take place := by
    apply List.ext_getElem?
    intro i
    rw [List.getElem?_take, List.getElem?_take]
    split
    · by_contra differ
      have := (window i differ).1
      omega
    · rfl
  have back : data.drop (place + 4) = other.drop (place + 4) := by
    apply List.ext_getElem?
    intro i
    rw [List.getElem?_drop, List.getElem?_drop]
    by_contra differ
    have inside := (window _ differ).2
    rw [List.getElem?_eq_none (by omega), List.getElem?_eq_none (by omega)] at differ
    exact differ rfl
  have cut (l : List UInt8) :
      l = l.take place ++ ((l.drop place).take 4 ++ l.drop (place + 4)) := by
    rw [← List.drop_drop, List.take_append_drop, List.take_append_drop]
  refine ⟨data.take place, (data.drop place).take 4, (other.drop place).take 4,
    data.drop (place + 4), ?_, ?_, cut data, ?_⟩
  · simp only [List.length_take, List.length_drop]
    omega
  · simp only [List.length_take, List.length_drop]
    omega
  · rw [front, back]
    exact cut other

/-- Damage within four bytes in a row changes the remainder. -/
theorem eq_of_residue (enough : 4 ≤ other.length) (length : data.length = other.length)
    (window : ∀ i, data[i]? ≠ other[i]? → start ≤ i ∧ i < start + 4)
    (same : register (BitVec.allOnes 32) data = register (BitVec.allOnes 32) other) :
    data = other := by
  obtain ⟨before, first, second, after, four, fourToo, rfl, rfl⟩ :=
    exists_window enough length window
  rw [eq_of_register_eq four fourToo same]

/-- A container that is damaged within four bytes in a row is not taken for a table. Which check
fails depends on what was hit: the magic, the version, or else the checksum. -/
theorem decode_damaged (name : String) (length : data.length = (encode table).length)
    (differs : data ≠ encode table)
    (window : ∀ i, data[i]? ≠ (encode table)[i]? → start ≤ i ∧ i < start + 4) :
    (∃ found, decode name data = .error (.badMagic found)) ∨
    (∃ found, decode name data = .error (.unsupportedVersion found)) ∨
    ∃ stored computed, decode name data = .error (.checksumMismatch stored computed) := by
  have size := length_encode table
  obtain ⟨parts, rfl⟩ : ∃ parts : Parts, data = parts.bytes := exists_parts (by omega)
  -- Checksums that agree would leave the residue of the container, which only the container leaves.
  have mismatch : parts.stored ≠ checksum parts.body := by
    intro stored
    have remains := register_bytes_iff.mpr stored
    have same := remains.trans (register_encode table).symm
    exact differs (eq_of_residue (by omega) length window same)
  rw [decode_bytes, if_pos mismatch]
  split_ifs with magic version
  · exact .inl ⟨_, rfl⟩
  · exact .inr (.inl ⟨_, rfl⟩)
  · exact .inr (.inr ⟨_, _, rfl⟩)

def wordless : Table := ⟨"wordless", [], 0, 8, none, none, none⟩

/-- The container of `wordless`, damaged on both sides of the place where its checksum begins. -/
def damagedBorder : List UInt8 := ((encode wordless).set 19 1).set 20 0

/-- Damage to covered bytes and to the checksum together is noticed as well. -/
theorem decode_damaged_border : damagedBorder.length = (encode wordless).length ∧
    damagedBorder ≠ encode wordless ∧
    ((∃ found, decode "damaged" damagedBorder = .error (.badMagic found)) ∨
    (∃ found, decode "damaged" damagedBorder = .error (.unsupportedVersion found)) ∨
    ∃ stored computed,
      decode "damaged" damagedBorder = .error (.checksumMismatch stored computed)) := by
  have length : damagedBorder.length = (encode wordless).length := by simp [damagedBorder]
  have differs : damagedBorder ≠ encode wordless := by decide +kernel
  refine ⟨length, differs, @decode_damaged _ wordless 19 "damaged" length differs ?_⟩
  intro i differ
  by_contra outside
  apply differ
  rw [damagedBorder, List.getElem?_set_ne (by omega), List.getElem?_set_ne (by omega)]

end FabricLoader.Container
