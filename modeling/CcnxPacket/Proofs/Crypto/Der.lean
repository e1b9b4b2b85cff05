import CcnxPacket.Crypto.Der
import CcnxPacket.Proofs.Octets

/-!
# Reading distinguished encodings

Every reader returns what was encoded and what follows it, as long as the lengths are of those that
readers accept.
-/

namespace CcnxPacket.Der

/-- Readers accept lengths that four octets hold. -/
def lengthLimit : Nat := 256 ^ 4

/-! ### Numbers in their shortest form -/

/-- The shortest form has room for the number. -/
theorem lt_of_minimalOctets (n : Nat) : n < 256 ^ (minimalOctets n).length := by
  rw [minimalOctets, length_bigEndian]
  split
  · next hzero => simp [hzero]
  · next hpos =>
      have hbits : n.log2 < 8 * (n.log2 / 8 + 1) := by omega
      have hlt := (Nat.log2_lt hpos).1 hbits
      rwa [← pow_256] at hlt

/-- A number is read back from its shortest octets. -/
theorem ofBigEndian_minimalOctets (n : Nat) : ofBigEndian (minimalOctets n) = n := by
  have hlt := lt_of_minimalOctets n
  rw [minimalOctets, length_bigEndian] at hlt
  rw [minimalOctets, ofBigEndian_bigEndian]
  exact Nat.mod_eq_of_lt hlt

/-- A number that fits into some octets takes no more of them. -/
theorem length_minimalOctets_le {n width : Nat} (h : n < 256 ^ width) :
    (minimalOctets n).length ≤ width := by
  rw [minimalOctets, length_bigEndian]
  split
  · exact Nat.zero_le _
  · next hpos =>
      have hbits : n < 2 ^ (8 * width) := by rwa [← pow_256]
      have hlog := (Nat.log2_lt hpos).2 hbits
      omega

/-- A number that is not zero takes at least one octet. -/
theorem length_minimalOctets_pos {n : Nat} (h : n ≠ 0) : 0 < (minimalOctets n).length := by
  rw [minimalOctets, length_bigEndian, if_neg h]
  exact Nat.succ_pos _

/-! ### Lengths -/

/-- A length of more than seven bits is a count of octets, and these octets. -/
theorem encodeLength_of_long {n : Nat} (h : ¬n < 0x80) :
    encodeLength n =
      UInt8.ofNat (0x80 + (minimalOctets n).length) :: minimalOctets n := if_neg h

/-- Lengths of values take at most five octets. -/
theorem length_encodeLength_le {n : Nat} (h : n < lengthLimit) : (encodeLength n).length ≤ 5 := by
  by_cases hshort : n < 0x80
  · rw [encodeLength, if_pos hshort]
    simp
  · have hwidth := length_minimalOctets_le h
    rw [encodeLength_of_long hshort, List.length_cons]
    omega

/-- A length is read back, whatever follows it. -/
theorem readLength?_encodeLength {n : Nat} (h : n < lengthLimit) (rest : Octets) :
    readLength? (encodeLength n ++ rest) = some (n, rest) := by
  by_cases hshort : n < 0x80
  · have hvalue : (UInt8.ofNat n).toNat = n := by
      rw [UInt8.toNat_ofNat']
      omega
    have hfirst : UInt8.ofNat n < 0x80 := by
      rw [UInt8.lt_iff_toNat_lt, hvalue]
      exact hshort
    rw [encodeLength, if_pos hshort]
    simp [readLength?, hfirst, hvalue]
  · have hwidth := length_minimalOctets_le h
    have hpos := length_minimalOctets_pos (n := n) (by omega)
    have hvalue : (UInt8.ofNat (0x80 + (minimalOctets n).length)).toNat =
        0x80 + (minimalOctets n).length := by
      rw [UInt8.toNat_ofNat']
      omega
    have hfirst : ¬UInt8.ofNat (0x80 + (minimalOctets n).length) < 0x80 := by
      rw [UInt8.lt_iff_toNat_lt, hvalue]
      exact Nat.not_lt.2 (Nat.le_add_right _ _)
    have hencoded := encodeLength_of_long hshort
    rw [hencoded, List.cons_append, readLength?, if_neg hfirst, hvalue, Nat.add_sub_cancel_left]
    simp only [List.take_left, List.drop_left, ofBigEndian_minimalOctets, hencoded]
    rw [if_pos]
    exact ⟨hpos, hwidth, by simp, trivial⟩

/-! ### Elements -/

/-- The contents of an encoded value are read back, whatever follows it. -/
theorem read?_encode (tag : UInt8) {contents : Octets} (h : contents.length < lengthLimit)
    (rest : Octets) : read? tag (encode tag contents ++ rest) = some (contents, rest) := by
  rw [encode, List.cons_append, List.cons_append, List.append_assoc, read?, if_pos rfl,
    readLength?_encodeLength h]
  simp

/-- The contents of an encoded value that stands alone are read back. -/
theorem readOnly?_encode (tag : UInt8) {contents : Octets} (h : contents.length < lengthLimit) :
    readOnly? tag (encode tag contents) = some contents := by
  have hread := read?_encode tag h []
  rw [List.append_nil] at hread
  rw [readOnly?, hread]

/-- Tag and length add at most six octets to the contents. -/
theorem length_encode_le (tag : UInt8) {contents : Octets} (h : contents.length < lengthLimit) :
    (encode tag contents).length ≤ contents.length + 6 := by
  have hlength := length_encodeLength_le h
  simp only [encode, List.length_append, List.length_cons]
  omega

/-! ### Integers -/

/-- The contents of an integer's element. -/
def integerContents (n : Nat) : Octets :=
  if (minimalOctets n).head?.all (0x80 ≤ ·) then 0 :: minimalOctets n else minimalOctets n

theorem encodeInteger_eq (n : Nat) : encodeInteger n = encode integerTag (integerContents n) := rfl

/-- The octet that may stand in front of an integer does not change its value. -/
theorem ofBigEndian_integerContents (n : Nat) : ofBigEndian (integerContents n) = n := by
  unfold integerContents
  split
  · rw [ofBigEndian_zero_cons, ofBigEndian_minimalOctets]
  · exact ofBigEndian_minimalOctets n

/-- An integer takes at most one octet more than its number. -/
theorem length_integerContents_le {n width : Nat} (h : n < 256 ^ width) :
    (integerContents n).length ≤ width + 1 := by
  have hwidth := length_minimalOctets_le h
  unfold integerContents
  split
  · rw [List.length_cons]
    omega
  · omega

/-- An encoded integer takes at most seven octets more than its number. -/
theorem length_encodeInteger_le {n width : Nat} (h : n < 256 ^ width)
    (hwidth : width + 1 < lengthLimit) : (encodeInteger n).length ≤ width + 7 := by
  have hcontents := length_integerContents_le h
  have hencoded := length_encode_le integerTag (Nat.lt_of_le_of_lt hcontents hwidth)
  rw [encodeInteger_eq]
  omega

/-- An integer is read back from its one encoding, whatever follows it. -/
theorem readInteger?_encodeInteger {n : Nat} (h : (integerContents n).length < lengthLimit)
    (rest : Octets) : readInteger? (encodeInteger n ++ rest) = some (n, rest) := by
  rw [encodeInteger_eq, readInteger?, read?_encode integerTag h]
  simp only [ofBigEndian_integerContents, encodeInteger_eq, if_true]

end CcnxPacket.Der
