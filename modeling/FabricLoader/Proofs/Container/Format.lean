import FabricLoader.Proofs.Container.RoundTrip

/-! What containers are. Decoding answers as the layout says, field by field at a fixed distance
from the front, and takes every byte that it reads from the data. What it accepts is the container
of the table that it gives, but for the bits that it passes over: flags without a meaning, and a
control field that no flag announces. -/
namespace FabricLoader.Container
variable {name : String} {parts : Parts} {table : Table}

namespace Header

structure LiesIn (header : Header) (data : List UInt8) : Prop where
  magic : wordAt data 0 = header.magic
  version : halfAt data 4 = header.version
  flags : halfAt data 6 = header.flags
  count : wordAt data 8 = header.count
  width : wordAt data 12 = header.width
  control : wordAt data 16 = header.control

theorem liesIn (header : Header) (rest : List UInt8) : LiesIn header (header.bytes ++ rest) where
  magic := ofNat_number_wordBytes header.magic
  version := ofNat_number_halfBytes header.version
  flags := ofNat_number_halfBytes header.flags
  count := ofNat_number_wordBytes header.count
  width := ofNat_number_wordBytes header.width
  control := ofNat_number_wordBytes header.control

end Header

namespace Parts

theorem liesIn (parts : Parts) : parts.header.LiesIn parts.bytes := by
  rw [bytes, body, List.append_assoc]
  exact parts.header.liesIn _

theorem wordAt_stored (parts : Parts) : wordAt parts.bytes parts.body.length = parts.stored := by
  have stored := wordAt_append (Eq.refl parts.body.length) parts.stored []
  rwa [List.append_nil] at stored

theorem wordAt_payload (parts : Parts) (whole : parts.payload.length % 4 = 0) :
    (List.range (parts.payload.length / 4)).map (fun i => wordAt parts.bytes (20 + 4 * i)) =
      words parts.payload := by
  have placed := wordAt_flatMap parts.header.length_bytes (words parts.payload)
    (wordBytes parts.stored)
  rw [← drains_iff.mp (drains_words whole), length_words whole, ← List.append_assoc] at placed
  exact placed

end Parts

/-- No flag but the first is set if and only if the first is all that is left of them. -/
theorem unused_flags_iff (flags : UInt16) : flags &&& 0xFFFE = 0 ↔ flags = flags &&& 1 := by
  have all : (flags &&& 0xFFFE) ||| (flags &&& 1) = flags := by
    apply UInt16.toNat_inj.mp
    rw [UInt16.toNat_or, UInt16.toNat_and, UInt16.toNat_and, ← Nat.and_or_distrib_left]
    exact (Nat.and_two_pow_sub_one_eq_mod _ 16).trans (Nat.mod_eq_of_lt flags.toNat_lt)
  constructor
  · intro unused
    rwa [unused, UInt16.zero_or, eq_comm] at all
  · intro first
    rw [first, UInt16.and_assoc]
    exact UInt16.and_zero

theorem flag_cases (flags : UInt16) : flags &&& 1 = 0 ∨ flags &&& 1 = 1 := by
  rw [← UInt16.toNat_inj, ← UInt16.toNat_inj, UInt16.toNat_and]
  simp
  omega

/-- The bits that are passed over are the ones that encoding leaves clear. -/
theorem header_ofTable_iff (name : String) (magic : parts.header.magic = magic)
    (version : parts.header.version = version) :
    Header.ofTable (parts.table name) = parts.header ↔
      parts.header.flags &&& 0xFFFE = 0 ∧
      (parts.header.flags &&& 1 = 0 → parts.header.control = 0) := by
  rw [unused_flags_iff]
  obtain ⟨⟨_, _, flags, count, width, control⟩, payload, stored⟩ := parts
  obtain rfl : _ = Container.magic := magic
  obtain rfl : _ = Container.version := version
  -- The first flag decides whether encoding writes the control field back or clears it.
  rcases flag_cases flags with clear | set
  · suffices 0 = flags ∧ 0 = control ↔ flags = 0 ∧ control = 0 by
      simpa [Header.ofTable, Parts.table, controlFlag, clear]
    exact and_congr eq_comm eq_comm
  · suffices 1 = flags ↔ flags = 1 by
      simpa [Header.ofTable, Parts.table, controlFlag, set]
    exact eq_comm

theorem encode_table_iff (decoded : decode name parts.bytes = .ok table) :
    encode table = parts.bytes ↔
      parts.header.flags &&& 0xFFFE = 0 ∧
      (parts.header.flags &&& 1 = 0 → parts.header.control = 0) := by
  obtain ⟨magic, version, stored, whole, rfl⟩ := (decode_eq_ok_iff parts).mp decoded
  have payload : (words parts.payload).flatMap wordBytes = parts.payload :=
    (drains_iff.mp (drains_words whole)).symm
  rw [← header_ofTable_iff name magic version]
  constructor
  · intro same
    simp only [encode, body, Parts.bytes, Parts.body, List.append_assoc] at same
    have size : (Header.ofTable (parts.table name)).bytes.length = parts.header.bytes.length := by
      rw [Header.length_bytes, Header.length_bytes]
    exact Header.bytes_injective (List.append_inj same size).1
  · intro same
    have covered : body (parts.table name) = parts.body := by
      rw [body, same, Parts.body]
      exact congrArg (parts.header.bytes ++ ·) payload
    rw [encode, covered, ← stored, Parts.bytes]

/-- Which data are a container, and of what: the first check that fails is reported, in the order
length, magic, version, checksum, size of the payload. From data that are long enough nothing is
read that is not there. -/
theorem decode_format (name : String) (data : List UInt8) :
    decode name data = (
      let checked := data.take (data.length - 4)
      let stored := wordAt data (data.length - 4)
      if data.length < 24 then .error (.truncated data.length)
      else if wordAt data 0 ≠ magic then .error (.badMagic (wordAt data 0))
      else if halfAt data 4 ≠ 1 then .error (.unsupportedVersion (halfAt data 4))
      else if stored ≠ checksum checked then .error (.checksumMismatch stored (checksum checked))
      else if (data.length - 24) % 4 ≠ 0 then .error (.misaligned (data.length - 24))
      else .ok {
        name
        words := (List.range ((data.length - 24) / 4)).map fun i => wordAt data (20 + 4 * i)
        count := wordAt data 8
        width := wordAt data 12
        control := if halfAt data 6 &&& 1 ≠ 0 then some (wordAt data 16) else none
        source := none
        pins := none }) ∧
    (24 ≤ data.length → ∃ header payload stored,
      Header.read? (data.take (data.length - 4)) = some (header, payload) ∧
      word? (data.drop (data.length - 4)) = some (stored, []) ∧
      (payload.length % 4 = 0 → Drains payload (words payload))) ∧
    ∀ table, decode name data = .ok table →
      (encode table = data ↔
        halfAt data 6 &&& 0xFFFE = 0 ∧ (halfAt data 6 &&& 1 = 0 → wordAt data 16 = 0)) := by
  rcases Nat.lt_or_ge data.length 24 with short | enough
  · have answer := decode_short name short
    refine ⟨?_, fun enough => absurd short (Nat.not_lt.mpr enough), ?_⟩
    · rw [answer]
      simp only [short, ↓reduceIte]
    · intro table decoded
      cases answer.symm.trans decoded
  · obtain ⟨parts, rfl⟩ := exists_parts enough
    obtain ⟨length, front, back⟩ := parts.trailer
    have lies := parts.liesIn
    have payload : parts.bytes.length - 24 = parts.payload.length := by
      rw [parts.length_bytes, Nat.add_sub_cancel]
    refine ⟨?_, ?_, ?_⟩
    · rw [decode_bytes]
      simp only [Nat.not_lt.mpr enough, ↓reduceIte, length, front, payload, lies.magic,
        lies.version, lies.flags, lies.count, lies.width, lies.control, parts.wordAt_stored]
      by_cases whole : parts.payload.length % 4 = 0
      · rw [parts.wordAt_payload whole]
        rfl
      · simp only [whole, ne_eq, not_false_eq_true, ↓reduceIte]
        rfl
    · intro _
      rw [length, front, back]
      exact ⟨_, _, _, parts.read?_body, parts.word?_stored, drains_words⟩
    · intro table decoded
      rw [lies.flags, lies.control]
      exact encode_table_iff decoded

def spareFlag : Parts where
  header := ⟨magic, version, 2, 0, 8, 0⟩
  payload := []
  stored := checksum (Header.bytes ⟨magic, version, 2, 0, 8, 0⟩)

/-- The flag is passed over, and it does not come back. -/
theorem decode_format_spareFlag :
    decode "spare" spareFlag.bytes = .ok ⟨"spare", [], 0, 8, none, none, none⟩ ∧
    encode ⟨"spare", [], 0, 8, none, none, none⟩ ≠ spareFlag.bytes := by
  have decoded : decode "spare" spareFlag.bytes = .ok ⟨"spare", [], 0, 8, none, none, none⟩ :=
    (decode_eq_ok_iff spareFlag).mpr ⟨rfl, rfl, by simp [spareFlag, Parts.body], rfl, rfl⟩
  refine ⟨decoded, ?_⟩
  rw [Ne, (decode_format "spare" spareFlag.bytes).2.2 _ decoded, spareFlag.liesIn.flags]
  decide

end FabricLoader.Container
