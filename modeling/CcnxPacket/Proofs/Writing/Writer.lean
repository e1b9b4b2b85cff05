import CcnxPacket.Proofs.Element
import CcnxPacket.Proofs.Result

/-!
# What writers do

The writers of fields, messages and packet bodies do not look at what is already written: each one
appends the same octets to every output and ends the same way (`Yields`). Most of them write one
element, or fail before they write anything (`Emits`).
-/

namespace CcnxPacket

namespace Writer

variable {α β : Type}

/-- Whatever is already written, the writer appends the octets and ends with the result. -/
def Yields (writer : Writer α) (result : Except Error α) (octets : Octets) : Prop :=
  ∀ out, writer.run out = (result, out.append octets)

theorem append_append (out : Output) (octets more : Octets) :
    (out.append octets).append more = out.append (octets ++ more) := by
  simp [Output.append, List.reverseAux_eq]

theorem yields_pure (a : α) : Yields (pure a) (.ok a) [] := by
  intro out
  rfl

theorem yields_throw (e : Error) : Yields (throw e : Writer α) (.error e) [] := by
  intro out
  rfl

theorem yields_lift (x : Except Error α) : Yields (liftM x) x [] := by
  intro out
  rfl

theorem yields_write (octets : Octets) : Yields (write octets) (.ok ()) octets := by
  intro out
  rfl

theorem run_bind_of_ok {writer : Writer α} {f : α → Writer β} {a : α} {out after : Output}
    (h : writer.run out = (.ok a, after)) : (writer >>= f).run out = (f a).run after :=
  Result.run_bind_of_ok h

theorem run_bind_of_error {writer : Writer α} {f : α → Writer β} {e : Error} {out after : Output}
    (h : writer.run out = (.error e, after)) : (writer >>= f).run out = (.error e, after) :=
  Result.run_bind_of_error h

theorem run_get (out : Output) : (get : Writer Output).run out = (.ok out, out) := rfl

namespace Yields

variable {writer : Writer α} {f : α → Writer β} {a : α} {e : Error} {result : Except Error β}
  {octets more : Octets}

/-- A writer that goes on writes the octets of both steps. -/
theorem bind (h : Yields writer (.ok a) octets) (hf : Yields (f a) result more) :
    Yields (writer >>= f) result (octets ++ more) := by
  intro out
  rw [run_bind_of_ok (h out), hf, append_append]

/-- A writer that fails stops there. -/
theorem bind_error (h : Yields writer (.error e) octets) :
    Yields (writer >>= f) (.error e) octets := by
  intro out
  exact run_bind_of_error (h out)

theorem next {rest : Writer β} (h : Yields writer (.ok a) octets)
    (hrest : Yields rest result more) :
    Yields (writer >>= fun _ => rest) result (octets ++ more) :=
  h.bind hrest

theorem bind_pure (h : Yields writer (.ok a) octets) (g : α → β) :
    Yields (writer >>= fun a => pure (g a)) (.ok (g a)) octets := by
  have hboth := h.bind (f := fun a => pure (g a)) (yields_pure (g a))
  rwa [List.append_nil] at hboth

/-- A step that only computes adds nothing to what the rest does. -/
theorem lift_bind {x : Except Error α} (h : x = .ok a) (hf : Yields (f a) result more) :
    Yields (liftM x >>= f) result more := by
  subst h
  exact (yields_lift (.ok a)).bind hf

theorem lift_bind_error {x : Except Error α} (h : x = .error e) :
    Yields (liftM x >>= f : Writer β) (.error e) [] := by
  subst h
  exact (yields_lift (.error e)).bind_error

/-- What a writer appends to an empty output are its octets. -/
theorem toOctets_eq {result : Except Error α} (h : Yields writer result octets) :
    writer.toOctets = result.map fun _ => octets := by
  unfold toOctets
  rw [h]
  cases result with
  | error e => rfl
  | ok a => simp

end Yields

end Writer

/-! ### Writing one element -/

/-- An element on the wire, its length cut to sixteen bits. -/
def rawElement (type : UInt16) (value : Octets) : Octets :=
  Header.octets ⟨type, UInt16.ofNat value.length⟩ ++ value

theorem length_rawElement (type : UInt16) (value : Octets) :
    (rawElement type value).length = Header.width + value.length := by
  simp [rawElement]

/-- A value that travels inside an element fits into one of its own. -/
theorem Element.length_le_of_rawElement {e : Element} {type : UInt16} {value : Octets}
    (h : e.value = rawElement type value) : value.length ≤ Header.maxLength := by
  have hfits := Element.length_le_of_value h
  rw [length_rawElement] at hfits
  omega

/-- Types and values as elements on the wire, one after the other. -/
def rawConcat (parts : List (UInt16 × Octets)) : Octets :=
  parts.flatMap fun part => rawElement part.1 part.2

@[simp] theorem rawConcat_nil : rawConcat [] = [] := rfl

@[simp] theorem rawConcat_cons (part : UInt16 × Octets) (parts : List (UInt16 × Octets)) :
    rawConcat (part :: parts) = rawElement part.1 part.2 ++ rawConcat parts := rfl

@[simp] theorem rawConcat_append (parts more : List (UInt16 × Octets)) :
    rawConcat (parts ++ more) = rawConcat parts ++ rawConcat more :=
  List.flatMap_append

/-- Parts that fit into a value are elements. -/
theorem exists_elements_of_fits {parts : List (UInt16 × Octets)}
    (h : (rawConcat parts).length ≤ Header.maxLength) :
    ∃ es, rawConcat parts = Element.concat es ∧
      List.Forall₂ (fun e part => e.type = part.1 ∧ e.value = part.2) es parts := by
  induction parts with
  | nil => exact ⟨[], rfl, .nil⟩
  | cons part parts ih =>
      rw [rawConcat_cons, List.length_append, length_rawElement] at h
      obtain ⟨es, hconcat, hall⟩ := ih (by omega)
      have hfits : part.2.length ≤ Header.maxLength := by omega
      refine ⟨⟨part.1, part.2, hfits⟩ :: es, ?_, .cons ⟨rfl, rfl⟩ hall⟩
      rw [rawConcat_cons, hconcat]
      rfl

namespace Element

/-- The element of the type with the value, unless the value is too long. -/
def make (type : UInt16) (value : Octets) : Except Error Element :=
  if h : value.length ≤ Header.maxLength then .ok ⟨type, value, h⟩
  else .error (.messageTooLarge value.length Header.maxLength)

/-- A value that fits makes an element. -/
theorem make_of_fits {type : UInt16} {value : Octets} (h : value.length ≤ Header.maxLength) :
    make type value = .ok ⟨type, value, h⟩ :=
  dif_pos h

/-- A value that is too long makes none. -/
theorem make_of_not_fits {type : UInt16} {value : Octets}
    (h : ¬value.length ≤ Header.maxLength) :
    make type value = .error (.messageTooLarge value.length Header.maxLength) :=
  dif_neg h

theorem make_eq_ok_iff {type : UInt16} {value : Octets} {e : Element} :
    make type value = .ok e ↔ e.type = type ∧ e.value = value := by
  constructor
  · intro h
    unfold make at h
    split at h
    · cases h
      exact ⟨rfl, rfl⟩
    · cases h
  · intro h
    obtain ⟨rfl, rfl⟩ := h
    exact make_of_fits e.fits

/-- What is written for an element that may not exist. -/
def emitted : Except Error Element → Octets
  | .ok e => e.octets
  | .error _ => []

end Element

namespace Writer

variable {α : Type}

/-- The writer writes the element and answers for it, or it fails and writes nothing. -/
def Emits (writer : Writer α) (element : Except Error Element) (answer : Element → α) : Prop :=
  Yields writer (element.map answer) (Element.emitted element)

namespace Emits

variable {β γ : Type} {element : Except Error Element} {answer : Element → α}

/-- A step that only computes comes before the element. -/
theorem lift_bind {x : Except Error β} {f : β → Writer α} {g : β → Except Error Element}
    (h : ∀ b, x = .ok b → Emits (f b) (g b) answer) : Emits (liftM x >>= f) (x >>= g) answer := by
  cases x with
  | error e => exact Yields.lift_bind_error rfl
  | ok b => exact Yields.lift_bind rfl (h b rfl)

theorem lift_map_bind {x : Except Error γ} {k : γ → β} {f : β → Writer α}
    {g : γ → Except Error Element} (h : ∀ c, x = .ok c → Emits (f (k c)) (g c) answer) :
    Emits (liftM (x.map k) >>= f) (x >>= g) answer := by
  cases x with
  | error e => exact Yields.lift_bind_error rfl
  | ok c => exact Yields.lift_bind rfl (h c rfl)

theorem bind_pure {writer : Writer α} (h : Emits writer element answer) (g : α → β) :
    Emits (writer >>= fun a => pure (g a)) element fun e => g (answer e) := by
  cases element with
  | error e => exact Yields.bind_error h
  | ok e => exact Yields.bind_pure h g

/-- A writer of an element that does not exist leaves the output as it was. -/
theorem run_of_error {writer : Writer α} {e : Error} (h : Emits writer (.error e) answer)
    (out : Output) : writer.run out = (.error e, out) :=
  h out

theorem run_of_ok {writer : Writer α} {e : Element} (h : Emits writer (.ok e) answer)
    (out : Output) : writer.run out = (.ok (answer e), out.append e.octets) :=
  h out

/-- What is written from the start are the octets of the element. -/
theorem toOctets_eq {writer : Writer α} (h : Emits writer element answer) :
    writer.toOctets = element.map Element.octets := by
  rw [Yields.toOctets_eq h]
  cases element <;> rfl

end Emits

/-- A header, and then the octets that it announces, are an element. -/
theorem emits_of_header {type : UInt16} {value : Octets} {answer : Element → α}
    {rest : Writer α}
    (hrest : ∀ e : Element, e.type = type → e.value = value →
      Yields rest (.ok (answer e)) value) :
    Emits (writeHeader type value.length >>= fun _ => rest) (Element.make type value) answer := by
  unfold Emits writeHeader
  by_cases h : value.length ≤ Header.maxLength
  · have hlength : checkLength value.length = .ok (UInt16.ofNat value.length) := if_pos h
    rw [Element.make_of_fits h]
    exact (Yields.lift_bind hlength (yields_write _)).bind (hrest ⟨type, value, h⟩ rfl rfl)
  · have hlength : checkLength value.length =
        .error (.messageTooLarge value.length Header.maxLength) := if_neg h
    rw [Element.make_of_not_fits h]
    exact (Yields.lift_bind_error hlength).bind_error

/-- An element is written when its value fits. -/
theorem emits_writeElement (type : UInt16) (value : Octets) :
    Emits (writeElement type value) (Element.make type value) Element.size := by
  apply emits_of_header
  intro e _ hvalue
  have hrest := (yields_write value).bind (f := fun _ => pure (Header.width + value.length))
    (yields_pure _)
  rw [Element.size_of_value hvalue]
  simpa using hrest

theorem yields_writeElement {type : UInt16} {value : Octets}
    (h : value.length ≤ Header.maxLength) :
    Yields (writeElement type value) (.ok (Header.width + value.length))
      (rawElement type value) := by
  have hemits := emits_writeElement type value
  rw [Element.make_of_fits h] at hemits
  exact hemits

end Writer

/-! ### Writing several elements -/

/-- An element in front of others, if all of them exist. The first failure counts. -/
def Element.before (element : Except Error Element) (others : Except Error (List Element)) :
    Except Error (List Element) := do
  let e ← element
  let es ← others
  return e :: es

theorem Element.before_eq_ok_iff {element : Except Error Element}
    {others : Except Error (List Element)} {es : List Element} :
    before element others = .ok es ↔
      ∃ e rest, element = .ok e ∧ others = .ok rest ∧ es = e :: rest := by
  simp only [before, Result.bind_eq_ok_iff, Result.pure_eq_ok, Except.ok.injEq]
  constructor
  · intro h
    obtain ⟨e, he, rest, hrest, rfl⟩ := h
    exact ⟨e, rest, he, hrest, rfl⟩
  · intro h
    obtain ⟨e, rest, he, hrest, rfl⟩ := h
    exact ⟨e, he, rest, hrest, rfl⟩

theorem Element.before_ok (element : Except Error Element) (es : List Element) :
    before element (.ok es) = element.map (· :: es) := by
  cases element <;> rfl

namespace Writer

variable {α : Type} {element : Except Error Element} {answer : Element → α}
  {elements : Except Error (List Element)}

/-- The writer writes all of the elements, or it fails as they do, perhaps after some of them. -/
def EmitsAll (writer : Writer Unit) (elements : Except Error (List Element)) : Prop :=
  ∃ octets, Yields writer (elements.map fun _ => ()) octets ∧
    ∀ es, elements = .ok es → octets = Element.concat es

theorem emitsAll_pure : EmitsAll (pure ()) (.ok []) := by
  refine ⟨[], yields_pure (), ?_⟩
  intro es h
  cases h
  rfl

theorem emitsAll_throw (e : Error) : EmitsAll (throw e) (.error e) := by
  refine ⟨[], yields_throw e, ?_⟩
  intro es h
  cases h

theorem Emits.emitsAll {writer : Writer Unit} (h : Emits writer element fun _ => ()) :
    EmitsAll writer (Element.before element (.ok [])) := by
  cases element with
  | error e =>
      refine ⟨[], h, ?_⟩
      intro es hes
      cases hes
  | ok e =>
      refine ⟨e.octets, h, ?_⟩
      intro es hes
      cases hes
      simp

/-- Writing an element and going on writes it before the others. -/
theorem Emits.before {writer : Writer α} {rest : Writer Unit} (h : Emits writer element answer)
    (hrest : EmitsAll rest elements) :
    EmitsAll (writer >>= fun _ => rest) (Element.before element elements) := by
  obtain ⟨more, hyields, hmore⟩ := hrest
  cases element with
  | error e =>
      refine ⟨[], Yields.bind_error h, ?_⟩
      intro es hes
      cases hes
  | ok e =>
      refine ⟨e.octets ++ more, ?_, ?_⟩
      · have hboth := Yields.next h hyields
        cases elements with
        | error e' => exact hboth
        | ok es => exact hboth
      · intro es hes
        obtain ⟨first, others, hfirst, hothers, rfl⟩ := Element.before_eq_ok_iff.1 hes
        cases hfirst
        rw [Element.concat_cons, hmore others hothers]

/-- What is written from the start are the octets of all elements. -/
theorem EmitsAll.toOctets_eq {writer : Writer Unit} (h : EmitsAll writer elements) :
    writer.toOctets = elements.map Element.concat := by
  obtain ⟨octets, hyields, hoctets⟩ := h
  rw [hyields.toOctets_eq]
  cases elements with
  | error e => rfl
  | ok es => simp [hoctets es rfl]

end Writer

end CcnxPacket
