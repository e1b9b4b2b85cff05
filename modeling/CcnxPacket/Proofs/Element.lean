import CcnxPacket.Proofs.Octets
import CcnxPacket.Tlv.Output

/-!
# Elements

An element is a type with a value that its header's length can count. Its octets determine it: two
elements that start the same octets are equal, and so are two sequences of elements whose octets are
equal. This unique readability is what every decoder of the format rests on.
-/

namespace CcnxPacket

/-! ### Headers -/

namespace Header

@[simp] theorem length_octets (header : Header) : header.octets.length = width := by
  simp [octets, width]

/-- A header is read back as it was written. -/
@[simp] theorem ofOctets_octets (header : Header) : ofOctets header.octets = header := by
  have htype : header.type.toNat % 256 ^ 2 = header.type.toNat :=
    Nat.mod_eq_of_lt header.type.toNat_lt
  have hlength : header.length.toNat % 256 ^ 2 = header.length.toNat :=
    Nat.mod_eq_of_lt header.length.toNat_lt
  simp only [ofOctets, octets]
  rw [List.take_left' (length_bigEndian _ _), List.drop_left' (length_bigEndian _ _),
    ofBigEndian_bigEndian, ofBigEndian_bigEndian, htype, hlength]
  simp

/-- Any four octets are a header. -/
theorem octets_ofOctets {octets : Octets} (h : octets.length = width) :
    (ofOctets octets).octets = octets := by
  have hword : ∀ xs : Octets, xs.length = 2 →
      bigEndian 2 (UInt16.ofNat (ofBigEndian xs)).toNat = xs := by
    intro xs hxs
    have hlt := ofBigEndian_lt xs
    rw [hxs] at hlt
    have hmod : ofBigEndian xs % 2 ^ 16 = ofBigEndian xs := Nat.mod_eq_of_lt hlt
    rw [UInt16.toNat_ofNat', hmod, ← hxs]
    exact bigEndian_ofBigEndian xs
  have hfour : octets.length = 4 := h
  simp only [Header.octets, ofOctets]
  rw [hword (octets.take 2) (by simp [hfour]), hword (octets.drop 2) (by simp [hfour]),
    List.take_append_drop]

/-- Two headers that start the same octets are equal. -/
theorem eq_of_starts {header other : Header} {octets : Octets} (h : header.octets <+: octets)
    (hother : other.octets <+: octets) : header = other := by
  have heq : header.octets = other.octets := by
    rw [List.prefix_iff_eq_take.1 h, List.prefix_iff_eq_take.1 hother]
    simp
  rw [← ofOctets_octets header, heq, ofOctets_octets]

/-- The length that a header in front of the octets gives: their third and fourth octet. -/
def declaredLength (octets : Octets) : Nat := ofBigEndian ((octets.drop 2).take 2)

/-- The octets give the length of the header that starts them. -/
theorem declaredLength_of_starts {header : Header} {octets : Octets}
    (h : header.octets <+: octets) : declaredLength octets = header.length.toNat := by
  obtain ⟨rest, rfl⟩ := h
  have hlength : header.length.toNat % 256 ^ 2 = header.length.toNat :=
    Nat.mod_eq_of_lt header.length.toNat_lt
  rw [declaredLength, Header.octets, List.append_assoc, List.drop_left' (length_bigEndian _ _),
    List.take_left' (length_bigEndian _ _), ofBigEndian_bigEndian, hlength]

end Header

/-! ### Elements -/

/-- A type with a value whose length a header can hold. -/
structure Element where
  type : UInt16
  value : Octets
  fits : value.length ≤ Header.maxLength

namespace Element

/-- The header in front of the value. -/
def header (e : Element) : Header := ⟨e.type, UInt16.ofNat e.value.length⟩

/-- The element on the wire. -/
def octets (e : Element) : Octets := e.header.octets ++ e.value

/-- The octets that the element takes. -/
def size (e : Element) : Nat := Header.width + e.value.length

/-- The elements one after the other. -/
def concat (es : List Element) : Octets := es.flatMap octets

@[simp] theorem header_type (e : Element) : e.header.type = e.type := rfl

@[simp] theorem header_length (e : Element) : e.header.length.toNat = e.value.length := by
  have := e.fits
  simp only [header, UInt16.toNat_ofNat']
  exact Nat.mod_eq_of_lt (by unfold Header.maxLength at this; omega)

@[simp] theorem elementSize_header (e : Element) : e.header.elementSize = e.size := by
  simp [Header.elementSize, size]

@[simp] theorem length_octets (e : Element) : e.octets.length = e.size := by
  simp [octets, size]

/-- Even an empty element has a header. -/
theorem size_pos (e : Element) : 0 < e.size := by
  simp only [size, Header.width]
  omega

/-- The value of an element fits into one. -/
theorem length_le_of_value {e : Element} {value : Octets} (h : e.value = value) :
    value.length ≤ Header.maxLength := by
  rw [← h]
  exact e.fits

theorem size_of_value {e : Element} {value : Octets} (h : e.value = value) :
    e.size = Header.width + value.length := by
  rw [size, h]

@[ext] theorem ext {e e' : Element} (htype : e.type = e'.type) (hvalue : e.value = e'.value) :
    e = e' := by
  cases e
  cases e'
  simp_all

/-- An element starts with its header. -/
theorem header_starts_octets (e : Element) : e.header.octets <+: e.octets :=
  List.prefix_append _ _

/-- Where an element starts, its header does. -/
theorem header_starts {e : Element} {input : Octets} (h : e.octets <+: input) :
    e.header.octets <+: input :=
  e.header_starts_octets.trans h

/-- An input that an element starts is not empty. -/
theorem ne_nil_of_starts {e : Element} {input : Octets} (h : e.octets <+: input) : input ≠ [] := by
  intro hnil
  subst hnil
  have hlength := h.length_le
  have := e.size_pos
  simp at hlength
  omega

/-- Two elements that start the same octets are equal. -/
theorem eq_of_starts {e e' : Element} {input : Octets} (h : e.octets <+: input)
    (h' : e'.octets <+: input) : e = e' := by
  have hheader : e.header = e'.header :=
    Header.eq_of_starts (header_starts h) (header_starts h')
  have hlength : e.value.length = e'.value.length := by
    rw [← header_length e, ← header_length e', hheader]
  have hoctets : e.octets = e'.octets := by
    rw [List.prefix_iff_eq_take.1 h, List.prefix_iff_eq_take.1 h']
    simp [size, hlength]
  have htype : e.type = e'.type := by
    rw [← header_type e, ← header_type e', hheader]
  have hvalue : e.value = e'.value := by
    simp only [octets, hheader] at hoctets
    exact List.append_cancel_left hoctets
  exact ext htype hvalue

/-- An element is determined by its octets. -/
theorem octets_injective : Function.Injective octets := by
  intro e e' h
  exact eq_of_starts List.prefix_rfl (h ▸ List.prefix_rfl)

/-- A header with all the octets that it announces is that of an element. -/
theorem exists_of_header {header : Header} {input : Octets} (h : header.octets <+: input)
    (hsize : header.elementSize ≤ input.length) :
    ∃ e : Element, e.header = header ∧ e.octets <+: input := by
  obtain ⟨rest, rfl⟩ := h
  have hrest : header.length.toNat ≤ rest.length := by
    simp [Header.elementSize] at hsize
    exact hsize
  have htake : (rest.take header.length.toNat).length = header.length.toNat := by
    simp [hrest]
  have hfits : (rest.take header.length.toNat).length ≤ Header.maxLength := by
    have := header.length.toNat_lt
    rw [htake]
    unfold Header.maxLength
    omega
  refine ⟨⟨header.type, rest.take header.length.toNat, hfits⟩, ?_, ?_⟩
  · simp only [Element.header, htake]
    simp
  · simp only [Element.octets, Element.header, htake]
    simpa using List.take_prefix _ _

/-! ### Sequences of elements -/

@[simp] theorem concat_nil : concat [] = [] := rfl

@[simp] theorem concat_cons (e : Element) (es : List Element) :
    concat (e :: es) = e.octets ++ concat es := rfl

@[simp] theorem concat_append (es es' : List Element) :
    concat (es ++ es') = concat es ++ concat es' :=
  List.flatMap_append

/-- Only no elements at all take no octets. -/
theorem eq_nil_of_concat_eq_nil {es : List Element} (h : concat es = []) : es = [] := by
  cases es with
  | nil => rfl
  | cons e es =>
      have hlength := congrArg List.length h
      have := e.size_pos
      simp at hlength
      omega

/-- The octets of a sequence of elements determine the sequence. -/
theorem concat_injective : Function.Injective concat := by
  intro es
  induction es with
  | nil =>
      intro es' h
      exact (eq_nil_of_concat_eq_nil h.symm).symm
  | cons e es ih =>
      intro es' h
      cases es' with
      | nil => exact eq_nil_of_concat_eq_nil h
      | cons e' es' =>
          have hfirst : e.octets <+: concat (e :: es) := List.prefix_append _ _
          have hother : e'.octets <+: concat (e :: es) := h ▸ List.prefix_append _ _
          have hhead : e = e' := eq_of_starts hfirst hother
          subst hhead
          rw [ih (List.append_cancel_left h)]

/-- Elements whose octets start those of other elements are the first of these. -/
theorem starts_of_concat_starts {es es' : List Element} (h : concat es <+: concat es') :
    es <+: es' := by
  induction es generalizing es' with
  | nil => exact List.nil_prefix
  | cons e es ih =>
      have hfirst : e.octets <+: concat es' := (List.prefix_append _ _).trans h
      cases es' with
      | nil => exact absurd rfl (ne_nil_of_starts hfirst)
      | cons e' es' =>
          have hhead : e = e' := eq_of_starts hfirst (List.prefix_append _ _)
          subst hhead
          exact List.cons_prefix_cons.2 ⟨rfl, ih ((List.prefix_append_right_inj _).1 h)⟩

end Element

end CcnxPacket
