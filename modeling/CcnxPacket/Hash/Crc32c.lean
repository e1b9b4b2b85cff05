import CcnxPacket.Octets

/-!
# CRC-32C

The cyclic redundancy check with the Castagnoli polynomial, least significant bit first: the
register starts with all bits set and is complemented at the end.
-/

namespace CcnxPacket.Crc32c

/-- The polynomial, its coefficients from the lowest bit up being those of falling degree. -/
def polynomial : UInt32 := 0x82F63B78

/-- The register after one more zero bit. -/
def shift (register : UInt32) : UInt32 :=
  if register &&& 1 = 1 then (register >>> 1) ^^^ polynomial else register >>> 1

/-- The register after `n` more zero bits. -/
def shifts : (n : Nat) → UInt32 → UInt32
  | 0, register => register
  | n + 1, register => shifts n (shift register)

/-- The register after one more octet. -/
def feed (register : UInt32) (octet : UInt8) : UInt32 := shifts 8 (register ^^^ octet.toUInt32)

/-- The check value of the octets. -/
def checksum (octets : Octets) : UInt32 := ~~~(octets.foldl feed 0xFFFFFFFF)

/-- The check value of the octets as four octets. -/
def digest (octets : Octets) : Octets := bigEndian 4 (checksum octets).toNat

end CcnxPacket.Crc32c
