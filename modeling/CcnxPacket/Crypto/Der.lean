import CcnxPacket.Octets

/-!
# Distinguished encoding

The part of DER that an RSA public key needs: elements of a one-octet tag, a length in its shortest
form and contents; sequences; non-negative integers in their shortest form.
-/

namespace CcnxPacket.Der

/-- The tag of an integer. -/
def integerTag : UInt8 := 0x02
/-- The tag of a string of bits. -/
def bitStringTag : UInt8 := 0x03
/-- The tag of a sequence. -/
def sequenceTag : UInt8 := 0x30

/-- The fewest octets that hold `n`, none for zero. -/
def minimalOctets (n : Nat) : Octets := bigEndian ((if n = 0 then 0 else n.log2 / 8 + 1)) n

/-- The length of contents. -/
def encodeLength (n : Nat) : Octets :=
  if n < 0x80 then [UInt8.ofNat n]
  else
    let octets := minimalOctets n
    UInt8.ofNat (0x80 + octets.length) :: octets

/-- An element with its tag and length. -/
def encode (tag : UInt8) (contents : Octets) : Octets :=
  tag :: encodeLength contents.length ++ contents

/-- An integer, with a zero in front when the leading bit would say that it is negative. -/
def encodeInteger (n : Nat) : Octets :=
  let octets := minimalOctets n
  encode integerTag (if octets.head?.all (0x80 ≤ ·) then 0 :: octets else octets)

/-- The length in front of contents, in its shortest form and of at most four octets. -/
def readLength? : Octets → Option (Nat × Octets)
  | [] => none
  | first :: rest =>
    if first < 0x80 then some (first.toNat, rest)
    else
      let width := first.toNat - 0x80
      let length := ofBigEndian (rest.take width)
      if 1 ≤ width ∧ width ≤ 4 ∧ width ≤ rest.length
          ∧ encodeLength length = first :: rest.take width then
        some (length, rest.drop width)
      else none

/-- The contents of the element with the given tag that the octets start with, and what follows. -/
def read? (tag : UInt8) : Octets → Option (Octets × Octets)
  | [] => none
  | first :: rest =>
    if first = tag then
      match readLength? rest with
      | none => none
      | some (length, rest) =>
        if length ≤ rest.length then some (rest.take length, rest.drop length) else none
    else none

/-- The contents of octets that are exactly one element with the given tag. -/
def readOnly? (tag : UInt8) (octets : Octets) : Option Octets :=
  match read? tag octets with
  | some (contents, []) => some contents
  | _ => none

/-- The non-negative integer in its shortest form that the octets start with, and what follows. -/
def readInteger? (octets : Octets) : Option (Nat × Octets) :=
  match read? integerTag octets with
  | none => none
  | some (contents, rest) =>
    let n := ofBigEndian contents
    if encode integerTag contents = encodeInteger n then some (n, rest) else none

end CcnxPacket.Der
