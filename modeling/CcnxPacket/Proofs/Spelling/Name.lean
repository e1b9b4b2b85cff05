import CcnxPacket.Field.Decode
import CcnxPacket.Proofs.Container
import Mathlib.Data.List.Forall2

/-!
# What the element of a name spells

A decoder reads what elements spell when it succeeds exactly on an element ahead that spells its
value, and then stops right after that element (`Reads`). The element of a name spells the name
whose segments are the elements in its value, in order; the decoder of names reads that.
-/

namespace CcnxPacket

/-- The decoder succeeds exactly when the element ahead spells its value, and stops after it. -/
def Reads {α : Type} (decode : Cursor → Except Error (Decoded α)) (spells : Element → α → Prop) :
    Prop :=
  ∀ ⦃c : Cursor⦄ ⦃decoded : Decoded α⦄, decode c = .ok decoded ↔
    ∃ e : Element, e.octets <+: c.ahead ∧ spells e decoded.value ∧ decoded.consumed = e.size ∧
      decoded.next = c.advance e.size

/-- Behind a header that is ahead, what is read is the element with that header. -/
theorem Reads.eq_ok_iff_of_header {α : Type} {decode : Cursor → Except Error (Decoded α)}
    {spells : Element → α → Prop} (h : Reads decode spells) {c : Cursor} {header : Header}
    (hheader : header.octets <+: c.ahead) {decoded : Decoded α} :
    decode c = .ok decoded ↔
      ∃ e : Element, e.header = header ∧ e.octets <+: c.ahead ∧ spells e decoded.value ∧
        decoded.consumed = e.size ∧ decoded.next = c.advance e.size := by
  rw [h]
  constructor
  · intro hread
    rcases hread with ⟨e, he, hspelled, hconsumed, hnext⟩
    have hsame : e.header = header := Header.eq_of_starts (Element.header_starts he) hheader
    exact ⟨e, hsame, he, hspelled, hconsumed, hnext⟩
  · intro hread
    rcases hread with ⟨e, _, he, hspelled, hconsumed, hnext⟩
    exact ⟨e, he, hspelled, hconsumed, hnext⟩

/-- What is read of an element can be turned into something else. -/
theorem Reads.map {α β : Type} {decode : Cursor → Except Error (Decoded α)}
    {spells : Element → α → Prop} (h : Reads decode spells) {f : α → β}
    {spells' : Element → β → Prop}
    (hspells : ∀ e b, spells' e b ↔ ∃ a, spells e a ∧ f a = b) :
    Reads (fun c => (decode c).map (·.map f)) spells' := by
  intro c read
  rcases read with ⟨value, consumed, next⟩
  simp only [Result.map_eq_ok_iff, hspells]
  constructor
  · intro hmapped
    rcases hmapped with ⟨inner, hinner, hmap⟩
    cases hmap
    obtain ⟨e, he, hvalue, hconsumed, hnext⟩ := h.1 hinner
    exact ⟨e, he, ⟨_, hvalue, rfl⟩, hconsumed, hnext⟩
  · intro hspelled
    rcases hspelled with ⟨e, he, ⟨a, hvalue, rfl⟩, rfl, rfl⟩
    exact ⟨⟨a, e.size, c.advance e.size⟩, h.2 ⟨e, he, hvalue, rfl, rfl⟩, rfl⟩

/-- The kinds that are not assigned are the application kinds beyond the fourth. -/
theorem SegmentKind.isAssigned_iff {kind : SegmentKind} :
    kind.IsAssigned ↔ ∀ n, kind = .app n → n ≤ 3 := by
  constructor
  · intro h n hn
    subst hn
    simp only [IsAssigned, labelled, List.mem_cons, List.not_mem_nil, or_false, reduceCtorEq,
      false_or, app.injEq] at h
    rcases h with rfl | rfl | rfl | rfl <;> decide
  · intro h
    cases kind with
    | app n =>
        have hle : n.toNat ≤ 3 := UInt8.le_iff_toNat_le.1 (h n rfl)
        have hn : n = 0 ∨ n = 1 ∨ n = 2 ∨ n = 3 := by
          simp only [← UInt8.toNat_inj, UInt8.toNat_ofNat]
          omega
        rcases hn with rfl | rfl | rfl | rfl <;> decide
    | _ => decide

theorem Name.isAssigned_iff {name : Name} :
    name.IsAssigned ↔ ∀ segment ∈ name.segments, ∀ n, segment.kind = .app n → n ≤ 3 :=
  forall₂_congr fun _ _ => SegmentKind.isAssigned_iff

/-- Only the assigned kinds can be read back from their element types. -/
theorem SegmentKind.ofTlvType?_eq_some_iff {type : UInt16} {kind : SegmentKind} :
    ofTlvType? type = some kind ↔ kind.IsAssigned ∧ kind.tlvType = type := by
  constructor
  · intro h
    -- Four types have a kind each, and a range of types has the kinds of applications.
    unfold ofTlvType? at h
    split at h
    · next htype =>
        cases h
        exact ⟨by decide, htype.symm⟩
    split at h
    · next htype =>
        cases h
        exact ⟨by decide, htype.symm⟩
    split at h
    · next htype =>
        cases h
        exact ⟨by decide, htype.symm⟩
    split at h
    · next htype =>
        cases h
        exact ⟨by decide, htype.symm⟩
    split at h
    · next hrange =>
        cases h
        have hlow := UInt16.le_iff_toNat_le.1 hrange.1
        have hhigh := UInt16.le_iff_toNat_le.1 hrange.2
        have htype : type = 0x1000 ∨ type = 0x1001 ∨ type = 0x1002 ∨ type = 0x1003 := by
          simp only [← UInt16.toNat_inj]
          simp only [UInt16.toNat_ofNat] at *
          omega
        rcases htype with rfl | rfl | rfl | rfl <;> exact ⟨by decide, by decide⟩
    · cases h
  · intro h
    rcases h with ⟨hassigned, rfl⟩
    simp only [IsAssigned, labelled, List.mem_cons, List.not_mem_nil, or_false] at hassigned
    rcases hassigned with rfl | rfl | rfl | rfl | rfl | rfl | rfl | rfl <;> decide

namespace Element

/-- The element is a name segment of an assigned kind. -/
def IsSegment (e : Element) (segment : Segment) : Prop :=
  segment.kind.IsAssigned ∧ e.type = segment.kind.tlvType ∧ e.value = segment.value

/-- The value of the element is the segments of the name, one element each. -/
def IsName (e : Element) (name : Name) : Prop :=
  ∃ es, e.value = concat es ∧ List.Forall₂ IsSegment es name.segments

end Element

namespace Name

/-- The segments of a name are visited one in front of the other. -/
theorem visits_visitSegment :
    Visits visitSegment fun segments e after =>
      ∃ segment, e.IsSegment segment ∧ after = segment :: segments := by
  intro segments header c result next hheader
  unfold visitSegment
  split
  · next hkind =>
      simp only [reduceCtorEq, false_iff]
      intro h
      rcases h with ⟨e, rfl, -, ⟨segment, ⟨hassigned, htype, -⟩, -⟩, -⟩
      rw [Element.header_type] at hkind
      rw [SegmentKind.ofTlvType?_eq_some_iff.2 ⟨hassigned, htype.symm⟩] at hkind
      cases hkind
  · next kind hkind =>
      obtain ⟨hassigned, htype⟩ := SegmentKind.ofTlvType?_eq_some_iff.1 hkind
      simp only [Result.bind_eq_ok_iff, Prod.exists, Cursor.readValue_eq_ok_iff hheader,
        Result.pure_eq_ok]
      constructor
      · intro h
        rcases h with ⟨_, _, ⟨e, rfl, he, rfl, rfl⟩, h⟩
        cases h
        exact ⟨e, rfl, he, ⟨⟨kind, e.value⟩, ⟨hassigned, htype.symm, rfl⟩, rfl⟩, rfl⟩
      · intro h
        rcases h with ⟨e, rfl, he, ⟨segment, ⟨hassigned', htype', hvalue⟩, rfl⟩, rfl⟩
        have hsame : some kind = some segment.kind := by
          rw [← hkind]
          exact SegmentKind.ofTlvType?_eq_some_iff.2 ⟨hassigned', htype'.symm⟩
        cases hsame
        exact ⟨_, _, ⟨e, rfl, he, rfl, rfl⟩, by rw [hvalue]⟩

/-- The segments read pile up in front of those read before. -/
theorem folds_visitSegment_iff {es : List Element} {segments final : List Segment} :
    Folds (fun segments e after => ∃ segment, Element.IsSegment e segment ∧
      after = segment :: segments) segments es final ↔
      ∃ read, List.Forall₂ Element.IsSegment es read ∧ final = read.reverse ++ segments := by
  induction es generalizing segments with
  | nil => simp [Folds.nil_iff]
  | cons e es ih =>
      simp only [Folds.cons_iff, ih]
      constructor
      · intro h
        rcases h with ⟨_, ⟨segment, hsegment, rfl⟩, read, hread, rfl⟩
        exact ⟨segment :: read, .cons hsegment hread, by simp⟩
      · intro h
        rcases h with ⟨_, hread, rfl⟩
        cases hread with
        | @cons _ segment _ read hsegment hread =>
            exact ⟨_, ⟨segment, hsegment, rfl⟩, read, hread, by simp⟩

/-- A name is read where an element spells it. -/
theorem reads_decode : Reads decode Element.IsName := by
  intro c read
  rcases read with ⟨name, consumed, next⟩
  simp only [decode, Result.bind_eq_ok_iff, Prod.exists, Cursor.readHeader_eq_ok_iff,
    Result.pure_eq_ok]
  constructor
  · intro h
    rcases h with ⟨header, _, ⟨hheader, rfl⟩, segments, next, helements, h⟩
    cases h
    obtain ⟨e, rfl, he, ⟨es, hvalue, hfolds⟩, rfl⟩ :=
      (elements_eq_ok_iff visits_visitSegment hheader).1 helements
    obtain ⟨read, hread, rfl⟩ := folds_visitSegment_iff.1 hfolds
    exact ⟨e, he, ⟨es, hvalue, by simpa using hread⟩, Element.elementSize_header e, rfl⟩
  · intro h
    rcases h with ⟨e, he, ⟨es, hvalue, hread⟩, rfl, rfl⟩
    have hheader := Element.header_starts he
    have hfolds : Folds _ [] es (name.segments.reverse ++ []) :=
      folds_visitSegment_iff.2 ⟨_, hread, rfl⟩
    refine ⟨_, _, ⟨hheader, rfl⟩, _, _,
      (elements_eq_ok_iff visits_visitSegment hheader).2
        ⟨e, rfl, he, ⟨es, hvalue, hfolds⟩, rfl⟩, ?_⟩
    simp

end Name

end CcnxPacket
