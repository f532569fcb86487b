/-! What a load session is told to do. -/
namespace FabricLoader

structure ImageRequest where
  file : String
  /-- The control word to write when the table has none. -/
  control : Option UInt32
  /-- The address of the control register, when it is not the first one of the block. -/
  controlAddress : Option UInt32
  /-- How often a load whose entry is refused starts again. -/
  retries : UInt32
  /-- Whether to read the oldest word of the chain back. -/
  verify : Bool
  deriving DecidableEq, Repr

structure BlockSettings where
  base : UInt32
  depth : Nat
  /-- The data write to refuse, once. -/
  failAt : Option UInt32
  deriving DecidableEq, Repr

def BlockSettings.standard : BlockSettings := ⟨0, 8, none⟩

/-- A session: the block, the accepted widths if they are not the standard ones, and the images in
load order. -/
structure Settings where
  block : BlockSettings
  widths : Option (List UInt32)
  images : List ImageRequest
  deriving DecidableEq, Repr

end FabricLoader
