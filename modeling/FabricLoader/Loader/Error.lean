import FabricLoader.Apply
import FabricLoader.Bus.Basic
import FabricLoader.Table.File

/-! How a load session fails. -/
namespace FabricLoader

/-- Selector and data of the oldest word, as read back and as loaded. -/
structure Mismatch where
  index : Nat
  read : Entry
  expected : Entry
  deriving DecidableEq, Repr

inductive LoadError where
  /-- The chain would hold no word. -/
  | noDepth
  | mapping (cause : MountError)
  | file (cause : FileError)
  | image (name : String) (cause : ImageError)
  /-- The block could not be held in reset before an attempt. -/
  | hold (cause : WriteError)
  /-- The last of several attempts failed. -/
  | apply (name : String) (attempts : Nat) (cause : ApplyError)
  | mismatch (name : String) (found : Mismatch)
  deriving DecidableEq, Repr

namespace LoadError

def mismatchText (name : String) (found : Mismatch) : String :=
  let word := fun (e : Entry) =>
    s!"sel=0x{Text.hex 3 e.address.toNat} data={Text.hexWord e.value}"
  s!"Image {name} readback mismatch at entry {found.index}: " ++
    s!"got {word found.read}, expected {word found.expected}"

def messages : LoadError → List String
  | noDepth => ["PRISM chain depth must be at least 1"]
  | mapping cause => ["Failed to map PRISM", cause.message]
  | file cause => cause.messages
  | image name cause => [s!"Invalid image {name}", cause.message]
  | hold cause => ["Failed to hold PRISM in reset", cause.message]
  | apply name attempts cause =>
    if cause.bulkApplied then
      s!"Image {name} configuration applied but control write failed" :: cause.messages
    else s!"Failed to load image {name} after {attempts} attempt(s)" :: cause.messages
  | mismatch name found => [mismatchText name found]

end LoadError
end FabricLoader
