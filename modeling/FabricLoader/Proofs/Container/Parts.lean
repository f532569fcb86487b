import FabricLoader.Container.Basic
import FabricLoader.Proofs.Container.LittleEndian

/-! The parts of a container. Data that are long enough are a header, a payload and a stored
checksum in exactly one way, and the three tell whether they hold a table, and which. -/
namespace FabricLoader.Container

/-- Data that are long enough for a container, before anything in them is checked. -/
structure Parts where
  header : Header
  payload : List UInt8
  stored : UInt32

namespace Parts

def body (parts : Parts) : List UInt8 := parts.header.bytes ++ parts.payload

def bytes (parts : Parts) : List UInt8 := parts.body ++ wordBytes parts.stored

def ofTable (table : Table) : Parts where
  header := Header.ofTable table
  payload := table.words.flatMap wordBytes
  stored := checksum (Container.body table)

/-- The table that parts hold if they pass all checks. -/
def table (parts : Parts) (name : String) : Table where
  name := name
  words := words parts.payload
  count := parts.header.count
  width := parts.header.width
  control := if parts.header.flags &&& controlFlag ≠ 0 then some parts.header.control else none
  source := none
  pins := none

theorem length_bytes (parts : Parts) : parts.bytes.length = parts.payload.length + 24 := by
  simp [bytes, body, Header.bytes, wordBytes, halfBytes]

/-- The checksum stands behind all that it covers. -/
theorem trailer (parts : Parts) : parts.bytes.length - 4 = parts.body.length ∧
    parts.bytes.take parts.body.length = parts.body ∧
    parts.bytes.drop parts.body.length = wordBytes parts.stored := by
  refine ⟨?_, List.take_left, List.drop_left⟩
  simp [bytes, wordBytes]

end Parts

theorem encode_eq (table : Table) : encode table = (Parts.ofTable table).bytes := rfl

variable {name : String} {data rest : List UInt8} {header h : Header} {table : Table}

namespace Header

theorem read?_eq_some_iff : read? data = some (h, rest) ↔ data = h.bytes ++ rest := by
  constructor
  · intro read
    simp only [read?, Option.bind_eq_bind, Option.bind_eq_some_iff, Prod.exists,
      word?_eq_some_iff, half?_eq_some_iff] at read
    obtain ⟨_, _, rfl, _, _, rfl, _, _, rfl, _, _, rfl, _, _, rfl, _, _, rfl, same⟩ := read
    cases same
    simp [bytes]
  · rintro rfl
    simp [read?, bytes]

theorem length_bytes (h : Header) : h.bytes.length = 20 := rfl

theorem bytes_injective (same : header.bytes = h.bytes) : header = h := by
  have read : read? header.bytes = some (header, []) :=
    read?_eq_some_iff.mpr (List.append_nil _).symm
  have other : read? header.bytes = some (h, []) :=
    read?_eq_some_iff.mpr (same.trans (List.append_nil _).symm)
  exact (Prod.mk.inj (Option.some.inj (read.symm.trans other))).1

/-- There is a header to read if twenty bytes are left. -/
theorem exists_bytes (enough : 20 ≤ data.length) : ∃ h rest, data = bytes h ++ rest := by
  obtain ⟨magic, data, rfl, afterMagic⟩ := exists_word (k := 16) enough
  obtain ⟨version, data, rfl, afterVersion⟩ := exists_half (k := 14) afterMagic
  obtain ⟨flags, data, rfl, afterFlags⟩ := exists_half (k := 12) afterVersion
  obtain ⟨count, data, rfl, afterCount⟩ := exists_word (k := 8) afterFlags
  obtain ⟨width, data, rfl, afterWidth⟩ := exists_word (k := 4) afterCount
  obtain ⟨control, data, rfl, -⟩ := exists_word (k := 0) afterWidth
  exact ⟨⟨magic, version, flags, count, width, control⟩, data, by simp [bytes]⟩

end Header

theorem Parts.read?_body (parts : Parts) :
    Header.read? parts.body = some (parts.header, parts.payload) :=
  Header.read?_eq_some_iff.mpr rfl

theorem Parts.word?_stored (parts : Parts) :
    word? (wordBytes parts.stored) = some (parts.stored, []) :=
  word?_eq_some_iff.mpr (List.append_nil _).symm

/-- Data that are long enough have parts. -/
theorem exists_parts (enough : 24 ≤ data.length) : ∃ parts : Parts, data = parts.bytes := by
  have front : 20 ≤ (data.take (data.length - 4)).length := by
    rw [List.length_take]
    omega
  have back : (data.drop (data.length - 4)).length = 4 := by
    rw [List.length_drop]
    omega
  obtain ⟨header, payload, body⟩ := Header.exists_bytes front
  obtain ⟨stored, trailer⟩ := exists_wordBytes back
  refine ⟨⟨header, payload, stored⟩, ?_⟩
  calc data = data.take (data.length - 4) ++ data.drop (data.length - 4) :=
        (List.take_append_drop _ _).symm
    _ = header.bytes ++ payload ++ wordBytes stored := by rw [body, trailer]

theorem decode_short (name : String) (short : data.length < 24) :
    decode name data = .error (.truncated data.length) := by
  simp only [decode]
  split
  · rename_i header payload stored _ read _
    have length := congrArg List.length (Header.read?_eq_some_iff.mp read)
    simp [Header.bytes, wordBytes, halfBytes] at length
    omega
  · rfl

/-- What is answered about data that are long enough. -/
theorem decode_bytes (name : String) (parts : Parts) : decode name parts.bytes =
    if parts.header.magic ≠ magic then .error (.badMagic parts.header.magic)
    else if parts.header.version ≠ version then .error (.unsupportedVersion parts.header.version)
    else if parts.stored ≠ checksum parts.body then
      .error (.checksumMismatch parts.stored (checksum parts.body))
    else if parts.payload.length % 4 ≠ 0 then .error (.misaligned parts.payload.length)
    else .ok (parts.table name) := by
  obtain ⟨length, front, back⟩ := parts.trailer
  simp only [decode, length, front, back, parts.read?_body, parts.word?_stored]
  rfl

theorem decode_eq_ok_iff (parts : Parts) : decode name parts.bytes = .ok table ↔
    parts.header.magic = magic ∧ parts.header.version = version ∧
    parts.stored = checksum parts.body ∧ parts.payload.length % 4 = 0 ∧
    parts.table name = table := by
  rw [decode_bytes]
  split_ifs with magic version stored whole <;> simp_all

end FabricLoader.Container
