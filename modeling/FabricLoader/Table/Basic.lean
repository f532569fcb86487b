/-! Configuration tables as they are stored: a list of words with metadata beside it. Nothing is
promised about them; an `Image` is what a table becomes once it has been checked. -/
namespace FabricLoader

/-- A table of address and value words, alternating, with what was declared about it. -/
structure Table where
  name : String
  words : List UInt32
  /-- The declared number of entries. -/
  count : UInt32
  /-- The declared width of the values in bits. -/
  width : UInt32
  /-- The word to write to the control register after the entries. -/
  control : Option UInt32
  /-- The hardware description that the table was made from. -/
  source : Option String
  /-- The pin configuration that it was made with. -/
  pins : Option String
  deriving DecidableEq, Repr

end FabricLoader
