/-! The checksum of containers: CRC-32 with the reflected polynomial `EDB88320`, starting from all
ones and complemented at the end, one bit at a time. -/
namespace FabricLoader.Container

/-- The coefficients below the leading one, lowest power in the highest bit. -/
def polynomial : BitVec 32 := 0xEDB88320#32

/-- Multiplication by one power modulo the polynomial. -/
def bitStep (crc : BitVec 32) : BitVec 32 :=
  crc >>> 1 ^^^ (if crc.getLsbD 0 then polynomial else 0#32)

def byteStep (crc : BitVec 32) (byte : UInt8) : BitVec 32 :=
  Nat.repeat bitStep 8 (crc ^^^ byte.toBitVec.setWidth 32)

def register (crc : BitVec 32) (bytes : List UInt8) : BitVec 32 := bytes.foldl byteStep crc

def checksum (bytes : List UInt8) : UInt32 :=
  UInt32.ofBitVec (~~~ register (BitVec.allOnes 32) bytes)

theorem register_append (crc : BitVec 32) (a b : List UInt8) :
    register crc (a ++ b) = register (register crc a) b := by
  simp [register]

end FabricLoader.Container
