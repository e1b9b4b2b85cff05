import CcnxPacket.Proofs.Spelling.Name

/-!
# What the elements of plain values spell

Hash values, payloads, payload types and times have no elements inside. Of a hash value only the
first eight octets count.
-/

namespace CcnxPacket

namespace Element

/-- The first eight octets of the value are the number; others may follow. -/
def IsHashValue (e : Element) (number : UInt64) : Prop :=
  hashValueWidth ≤ e.value.length ∧
    number.toNat = ofBigEndian (e.value.take hashValueWidth)

/-- The value is the octets of the payload. -/
def IsPayload (e : Element) (octets : Octets) : Prop := e.value = octets

/-- The value is the one octet of the payload type. -/
def IsPayloadType (e : Element) (type : PayloadType) : Prop := e.value = [type.octet]

/-- The value is the eight octets of the time. -/
def IsTimestamp (e : Element) (time : UInt64) : Prop :=
  e.value = bigEndian timestampWidth time.toNat

end Element

/-- A payload is read where an element has it for a value. -/
theorem reads_decodePayload : Reads decodePayload Element.IsPayload := by
  intro c read
  rcases read with ⟨octets, consumed, next⟩
  simp only [decodePayload, Result.bind_eq_ok_iff, Prod.exists, Cursor.readHeader_eq_ok_iff,
    Result.pure_eq_ok]
  constructor
  · intro h
    rcases h with ⟨header, _, ⟨hheader, rfl⟩, value, next, hread, h⟩
    cases h
    obtain ⟨e, rfl, he, rfl, rfl⟩ := (Cursor.readValue_eq_ok_iff hheader).1 hread
    exact ⟨e, he, rfl, Element.elementSize_header e, rfl⟩
  · intro h
    rcases h with ⟨e, he, rfl, rfl, rfl⟩
    have hheader := Element.header_starts he
    refine ⟨_, _, ⟨hheader, rfl⟩, _, _,
      (Cursor.readValue_eq_ok_iff hheader).2 ⟨e, rfl, he, rfl, rfl⟩, ?_⟩
    simp

/-- The number in the first octets of the value ahead is the element's. -/
theorem isHashValue_iff {e : Element} {c : Cursor} (he : e.octets <+: c.ahead)
    (hlong : hashValueWidth ≤ e.value.length) {number : UInt64} :
    e.IsHashValue number ↔
      number = UInt64.ofNat
        (ofBigEndian ((c.advance Header.width).ahead.take hashValueWidth)) := by
  have hlt := ofBigEndian_lt (e.value.take hashValueWidth)
  rw [List.length_take, Nat.min_eq_left hlong] at hlt
  have hmod : ofBigEndian (e.value.take hashValueWidth) % 2 ^ 64 =
      ofBigEndian (e.value.take hashValueWidth) := Nat.mod_eq_of_lt hlt
  rw [Cursor.ahead_of_starts he, List.take_append_of_le_length hlong, ← UInt64.toNat_inj,
    UInt64.toNat_ofNat', hmod]
  exact ⟨fun h => h.2, fun h => ⟨hlong, h⟩⟩

/-- A hash value is read where an element spells it. -/
theorem reads_decodeHashValue (tid : Tid) : Reads (decodeHashValue tid) Element.IsHashValue := by
  intro c read
  rcases read with ⟨number, consumed, next⟩
  simp only [decodeHashValue, Result.bind_eq_ok_iff, Prod.exists, Cursor.readHeader_eq_ok_iff,
    Result.pure_eq_ok, Result.throw_eq_error]
  constructor
  · intro h
    rcases h with ⟨header, _, ⟨hheader, rfl⟩, h⟩
    split at h
    · cases h
    · next hlong =>
        rw [Nat.not_lt] at hlong
        simp only [Result.bind_eq_ok_iff, Prod.exists, Cursor.readWord64_eq_ok_iff,
          Cursor.skip_eq_ok_iff] at h
        obtain ⟨_, _, ⟨height, rfl, rfl⟩, _, ⟨hrest, rfl⟩, h⟩ := h
        cases h
        have hroom : header.length.toNat ≤ (c.advance Header.width).ahead.length := by
          simp only [Cursor.ahead_advance, List.length_drop, hashValueWidth] at *
          omega
        obtain ⟨e, rfl, he⟩ := (Cursor.value_ahead_iff hheader).1 hroom
        rw [Element.header_length] at hlong ⊢
        refine ⟨e, he, (isHashValue_iff he hlong).2 rfl, Element.elementSize_header e, ?_⟩
        rw [Cursor.advance_advance, Cursor.advance_advance, Element.size]
        congr 1
        simp only [hashValueWidth] at *
        omega
  · intro h
    rcases h with ⟨e, he, hnumber, rfl, rfl⟩
    have hlong := hnumber.1
    have hroom := Cursor.length_value_le he
    refine ⟨e.header, _, ⟨Element.header_starts he, rfl⟩, ?_⟩
    rw [Element.header_length, if_neg (Nat.not_lt.2 hlong)]
    simp only [Result.bind_eq_ok_iff, Prod.exists, Cursor.readWord64_eq_ok_iff,
      Cursor.skip_eq_ok_iff]
    refine ⟨_, _, ⟨Nat.le_trans hlong hroom, (isHashValue_iff he hlong).1 hnumber, rfl⟩, _,
      ⟨?_, rfl⟩, ?_⟩
    · simp only [Cursor.ahead_advance, List.length_drop, hashValueWidth] at *
      omega
    · rw [Cursor.advance_advance, Cursor.advance_advance, Element.elementSize_header, Element.size]
      congr 3
      simp only [hashValueWidth] at *
      omega

theorem PayloadType.ofOctet?_eq_some_iff {octet : UInt8} {type : PayloadType} :
    ofOctet? octet = some type ↔ octet = type.octet := by
  constructor
  · intro h
    unfold ofOctet? at h
    split at h
    · next hoctet =>
        cases h
        exact hoctet
    split at h
    · next hoctet =>
        cases h
        exact hoctet
    split at h
    · next hoctet =>
        cases h
        exact hoctet
    · cases h
  · intro h
    subst h
    cases type <;> rfl

/-- A payload type is read where an element spells it. -/
theorem reads_decodePayloadType (tid : Tid) :
    Reads (decodePayloadType tid) Element.IsPayloadType := by
  intro c read
  rcases read with ⟨type, consumed, next⟩
  simp only [decodePayloadType, Result.bind_eq_ok_iff, Prod.exists, Cursor.readHeader_eq_ok_iff,
    Result.pure_eq_ok, Result.throw_eq_error]
  constructor
  · intro h
    rcases h with ⟨header, _, ⟨hheader, rfl⟩, h⟩
    split at h
    · cases h
    · next hone =>
        simp only [Result.bind_eq_ok_iff, Prod.exists, Cursor.readOctet_eq_ok_iff] at h
        obtain ⟨octet, _, ⟨rest, hahead, rfl⟩, h⟩ := h
        split at h
        · cases h
        · next htype =>
            cases h
            have hlength : header.length = 1 := not_not.1 hone
            -- The octet that was read is all of the value that the header declares.
            have hroom : header.length.toNat ≤ (c.advance Header.width).ahead.length := by
              rw [hlength, hahead]
              simp
            obtain ⟨e, rfl, he⟩ := (Cursor.value_ahead_iff hheader).1 hroom
            have hvalue : e.value.length = 1 := by
              rw [← Element.header_length, hlength]
              rfl
            obtain ⟨first, hfirst⟩ := List.length_eq_one_iff.1 hvalue
            rw [Cursor.ahead_of_starts he, hfirst] at hahead
            cases hahead
            refine ⟨e, he, ?_, Element.elementSize_header e, ?_⟩
            · rw [Element.IsPayloadType, hfirst, PayloadType.ofOctet?_eq_some_iff.1 htype]
            · rw [Cursor.advance_advance, Element.size, hvalue]
  · intro h
    rcases h with ⟨e, he, htype, rfl, rfl⟩
    have hvalue : e.value.length = 1 := by
      rw [htype]
      rfl
    have hlength : e.header.length = 1 := by
      apply UInt16.toNat.inj
      rw [Element.header_length, hvalue]
      rfl
    refine ⟨e.header, _, ⟨Element.header_starts he, rfl⟩, ?_⟩
    rw [if_neg (not_not.2 hlength)]
    simp only [Result.bind_eq_ok_iff, Prod.exists, Cursor.readOctet_eq_ok_iff]
    refine ⟨type.octet, _, ⟨(c.advance e.size).ahead, ?_, rfl⟩, ?_⟩
    · rw [Cursor.ahead_of_starts he, htype]
      rfl
    · rw [PayloadType.ofOctet?_eq_some_iff.2 rfl, Element.elementSize_header,
        Cursor.advance_advance, Element.size, hvalue]

theorem isTimestamp_iff {e : Element} {time : UInt64} (height : e.value.length = timestampWidth) :
    e.IsTimestamp time ↔ time = UInt64.ofNat (ofBigEndian e.value) := by
  constructor
  · intro h
    rw [h, timestampWidth, ofBigEndian_bigEndian_word64]
    simp
  · intro h
    subst h
    have hlt := ofBigEndian_lt e.value
    rw [height] at hlt
    have hmod : ofBigEndian e.value % 2 ^ 64 = ofBigEndian e.value := Nat.mod_eq_of_lt hlt
    rw [Element.IsTimestamp, UInt64.toNat_ofNat', hmod, ← height, bigEndian_ofBigEndian]

/-- A timestamp is read where an element spells it. -/
theorem reads_decodeTimestamp (tid : Tid) : Reads (decodeTimestamp tid) Element.IsTimestamp := by
  intro c read
  rcases read with ⟨time, consumed, next⟩
  simp only [decodeTimestamp, Result.bind_eq_ok_iff, Prod.exists, Cursor.readHeader_eq_ok_iff,
    Result.pure_eq_ok, Result.throw_eq_error]
  constructor
  · intro h
    rcases h with ⟨header, _, ⟨hheader, rfl⟩, h⟩
    split at h
    · cases h
    · next height =>
        rw [not_not] at height
        simp only [Result.bind_eq_ok_iff, Prod.exists, Cursor.readWord64_eq_ok_iff] at h
        obtain ⟨_, _, ⟨hlong, rfl, rfl⟩, h⟩ := h
        cases h
        have hroom : header.length.toNat ≤ (c.advance Header.width).ahead.length := by
          rw [height]
          exact hlong
        obtain ⟨e, rfl, he⟩ := (Cursor.value_ahead_iff hheader).1 hroom
        rw [Element.header_length] at height
        have hvalue : (c.advance Header.width).ahead.take 8 = e.value := by
          rw [Cursor.ahead_of_starts he]
          exact List.take_left' height
        refine ⟨e, he, (isTimestamp_iff height).2 (by rw [hvalue]),
          Element.elementSize_header e, ?_⟩
        rw [Cursor.advance_advance, Element.size, height, timestampWidth]
  · intro h
    rcases h with ⟨e, he, htime, rfl, rfl⟩
    have height : e.value.length = timestampWidth := by
      rw [htime, length_bigEndian]
    have hlong := Cursor.length_value_le he
    rw [height] at hlong
    refine ⟨e.header, _, ⟨Element.header_starts he, rfl⟩, ?_⟩
    rw [if_neg (by simpa using height)]
    simp only [Result.bind_eq_ok_iff, Prod.exists, Cursor.readWord64_eq_ok_iff]
    have hvalue : (c.advance Header.width).ahead.take 8 = e.value := by
      rw [Cursor.ahead_of_starts he]
      exact List.take_left' height
    refine ⟨time, _, ⟨hlong, ?_, rfl⟩, ?_⟩
    · rw [hvalue]
      exact (isTimestamp_iff height).1 htime
    · rw [Element.elementSize_header, Cursor.advance_advance, Element.size, height, timestampWidth]

end CcnxPacket
