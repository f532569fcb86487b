/-! Numbers as little-endian bytes. -/
namespace FabricLoader.Container

/-- The four bytes of a word, lowest first. -/
def wordBytes (w : UInt32) : List UInt8 :=
  [w.toUInt8, (w >>> 8).toUInt8, (w >>> 16).toUInt8, (w >>> 24).toUInt8]

def halfBytes (h : UInt16) : List UInt8 := [h.toUInt8, (h >>> 8).toUInt8]

/-- The word in the first four bytes, and the bytes after it. -/
def word? : List UInt8 → Option (UInt32 × List UInt8)
  | a :: b :: c :: d :: rest =>
    some (a.toUInt32 ||| b.toUInt32 <<< 8 ||| c.toUInt32 <<< 16 ||| d.toUInt32 <<< 24, rest)
  | _ => none

def half? : List UInt8 → Option (UInt16 × List UInt8)
  | a :: b :: rest => some (a.toUInt16 ||| b.toUInt16 <<< 8, rest)
  | _ => none

def words : List UInt8 → List UInt32
  | a :: b :: c :: d :: rest =>
    (a.toUInt32 ||| b.toUInt32 <<< 8 ||| c.toUInt32 <<< 16 ||| d.toUInt32 <<< 24) :: words rest
  | _ => []

end FabricLoader.Container
