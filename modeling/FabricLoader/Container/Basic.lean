import FabricLoader.Container.Bytes
import FabricLoader.Container.Checksum
import FabricLoader.Table.Basic
import FabricLoader.Text.Padded

/-! The binary container of a table: a header, the words and a checksum over everything before it,
all little-endian. It keeps the words and what was declared about them, not the name or the
origin. -/
namespace FabricLoader

inductive ContainerError where
  | truncated (length : Nat)
  | badMagic (found : UInt32)
  | unsupportedVersion (found : UInt16)
  | checksumMismatch (stored computed : UInt32)
  | misaligned (payload : Nat)
  deriving DecidableEq, Repr

def ContainerError.message : ContainerError → String
  | truncated length => s!"container truncated: {length} bytes"
  | badMagic found => s!"bad magic {Text.hexWord found}"
  | unsupportedVersion found => s!"unsupported container version {found}"
  | checksumMismatch stored computed =>
    s!"checksum mismatch: stored {Text.hexWord stored}, computed {Text.hexWord computed}"
  | misaligned payload => s!"payload of {payload} bytes is not a whole number of words"

namespace Container

/-- The bytes `PRSM`. -/
def magic : UInt32 := 0x4D535250

def version : UInt16 := 1

def controlFlag : UInt16 := 1

/-- The fixed part in front of the words. -/
structure Header where
  magic : UInt32
  version : UInt16
  flags : UInt16
  count : UInt32
  width : UInt32
  control : UInt32
  deriving DecidableEq, Repr

namespace Header

def bytes (h : Header) : List UInt8 :=
  wordBytes h.magic ++ halfBytes h.version ++ halfBytes h.flags ++ wordBytes h.count ++
    wordBytes h.width ++ wordBytes h.control

def read? (bytes : List UInt8) : Option (Header × List UInt8) := do
  let (magic, bytes) ← word? bytes
  let (version, bytes) ← half? bytes
  let (flags, bytes) ← half? bytes
  let (count, bytes) ← word? bytes
  let (width, bytes) ← word? bytes
  let (control, bytes) ← word? bytes
  return ({ magic, version, flags, count, width, control }, bytes)

/-- The header of a table; an absent control word is stored as zero. -/
def ofTable (table : Table) : Header where
  magic := Container.magic
  version := Container.version
  flags := if table.control.isSome then controlFlag else 0
  count := table.count
  width := table.width
  control := table.control.getD 0

end Header

/-- Everything that the checksum covers. -/
def body (table : Table) : List UInt8 :=
  (Header.ofTable table).bytes ++ table.words.flatMap wordBytes

def encode (table : Table) : List UInt8 := body table ++ wordBytes (checksum (body table))

/-- The table in a container, under a name of the caller's. The length, the magic, the version, the
checksum and the size of the payload are checked in this order. -/
def decode (name : String) (bytes : List UInt8) : Except ContainerError Table :=
  let body := bytes.take (bytes.length - 4)
  match Header.read? body, word? (bytes.drop (bytes.length - 4)) with
  | some (header, payload), some (stored, _) =>
    if header.magic ≠ magic then .error (.badMagic header.magic)
    else if header.version ≠ version then .error (.unsupportedVersion header.version)
    else if stored ≠ checksum body then .error (.checksumMismatch stored (checksum body))
    else if payload.length % 4 ≠ 0 then .error (.misaligned payload.length)
    else .ok {
      name
      words := words payload
      count := header.count
      width := header.width
      control := if header.flags &&& controlFlag ≠ 0 then some header.control else none
      source := none
      pins := none }
  | _, _ => .error (.truncated bytes.length)

end Container
end FabricLoader
