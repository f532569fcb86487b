/-! Checked configuration images: entries in write order, with the width and the control word that
were declared for them. -/
namespace FabricLoader

structure Entry where
  address : UInt32
  value : UInt32
  deriving DecidableEq, Repr

/-- Entries in write order; there is at least one. -/
structure Image where
  entries : List Entry
  width : UInt32
  control : Option UInt32
  entries_ne_nil : entries ≠ []

namespace Image

def size (image : Image) : Nat := image.entries.length

def words (image : Image) : List UInt32 := image.entries.flatMap fun e => [e.address, e.value]

theorem size_pos (image : Image) : 0 < image.size :=
  List.length_pos_iff.2 image.entries_ne_nil

end Image
end FabricLoader
