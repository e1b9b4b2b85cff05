import CcnxPacket.Proofs.Machine.Run
import CcnxPacket.Proofs.Writing.Writer

/-!
# Writers on the machine

A writer of the machine counts the octets of its output before it appends more. With enough room
left in the machine's numbers it does what the writer does that does not count (`Mirrors`). The room
that a chain of writers needs follows from what each of them needs and what it appends at most
(`Grows`).
-/

namespace CcnxPacket

namespace Machine

/-- A computation of the machine that appends to an output and may fail. -/
abbrev Writing (α : Type) : Type := ExceptT Error (StateT Output (Except Fault)) α

namespace Writing

/-- The result of the writer on `out`, and the output after it, unless the machine stops. -/
def run {α : Type} (writer : Writing α) (out : Output) : Except Fault (Except Error α × Output) :=
  StateT.run (ExceptT.run writer) out

/-- A computation that writes nothing. -/
def compute {α : Type} (x : Run α) : Writing α := ExceptT.mk (StateT.lift x.run)

/-- The octets that the writer appends, unless it fails. -/
def toOctets {α : Type} (writer : Writing α) : Run Octets := ExceptT.mk do
  let (result, out) ← writer.run .empty
  return result.map fun _ => out.octets

/-- Makes room for more octets. -/
def reserve (n : Nat) : Writing Unit := do
  let out ← get
  let _ ← add out.size n
  return

/-- Appends octets as they are. -/
def append (octets : Octets) : Writing Unit := do
  reserve octets.length
  modify fun out => out.append octets

end Writing

open Writing (reserve append compute)

/-- Writes the header of an element whose value has the given length. -/
def writeHeader (type : UInt16) (length : Nat) : Writing Unit := do
  let length ← checkLength length
  reserve Header.width
  append (bigEndian 2 type.toNat)
  append (bigEndian 2 length.toNat)

/-- Writes an element and returns its size. -/
def writeElement (type : UInt16) (value : Octets) : Writing Nat := do
  writeHeader type value.length
  append value
  add Header.width value.length

end Machine

namespace Output

@[simp] theorem size_empty : empty.size = 0 := rfl

@[simp] theorem size_append (out : Output) (octets : Octets) :
    (out.append octets).size = out.size + octets.length := by
  simp only [size, append, List.reverseAux_eq, List.length_append, List.length_reverse]
  exact Nat.add_comm _ _

end Output

namespace Writer

variable {α β : Type}

/-- A chain of two writers returns what the second does, on the output that the first left. -/
theorem exists_of_run_bind {writer : Writer α} {f : α → Writer β} {b : β} {out after : Output}
    (h : (writer >>= f).run out = (.ok b, after)) :
    ∃ a middle, writer.run out = (.ok a, middle) ∧ (f a).run middle = (.ok b, after) := by
  cases hwriter : writer.run out with
  | mk result middle =>
      cases result with
      | error e =>
          rw [run_bind_of_error hwriter] at h
          cases h
      | ok a =>
          rw [run_bind_of_ok hwriter] at h
          exact ⟨a, middle, rfl, h⟩

/-- What a writer of an element returns says that it wrote the element. -/
theorem Emits.exists_of_run {writer : Writer α} {element : Except Error Element}
    {answer : Element → α} (h : Emits writer element answer) {a : α} {out after : Output}
    (hrun : writer.run out = (.ok a, after)) : ∃ e, element = .ok e ∧ a = answer e := by
  rw [h] at hrun
  cases element with
  | error e => cases hrun
  | ok e =>
      cases hrun
      exact ⟨e, rfl, rfl⟩

end Writer

/-- The writer appends at most so many octets, also when it fails. -/
def Writer.Grows {α : Type} (n : Nat) (writer : Writer α) : Prop :=
  ∀ out, (writer.run out).2.size ≤ out.size + n

namespace Writer.Grows

variable {α β : Type} {writer : Writer α} {f : α → Writer β} {m n : Nat}

/-- A writer that yields octets grows by no more than these. -/
theorem of_yields {result : Except Error α} {octets : Octets} (h : Yields writer result octets)
    (hlength : octets.length ≤ n) : Grows n writer := by
  intro out
  rw [h, Output.size_append]
  omega

/-- A writer that emits an element grows by no more than its size. -/
theorem of_emits {element : Except Error Element} {answer : Element → α}
    (h : Emits writer element answer) (hsize : ∀ e, element = .ok e → e.size ≤ n) :
    Grows n writer := by
  apply of_yields h
  cases element with
  | error e => exact Nat.zero_le _
  | ok e =>
      rw [Element.emitted, Element.length_octets]
      exact hsize e rfl

end Writer.Grows

namespace Machine

open Writer (Grows)

/-- With so much room left for the size of the output, the machine does not stop, and its writer
does what the other one does. -/
def Writing.Mirrors {α : Type} (room : Nat) (x : Writing α) (y : Writer α) : Prop :=
  ∀ out : Output, out.size + room < UInt64.size → x.run out = .ok (y.run out)

namespace Writing

variable {α β : Type} {x : Writing α} {y : Writer α} {f : α → Writing β} {g : α → Writer β}
  {room : Nat}

theorem run_bind_of_ok {out after : Output} {a : α} (h : x.run out = .ok (.ok a, after)) :
    (x >>= f).run out = (f a).run after :=
  StateRun.run_bind_of_ok h

theorem run_bind_of_error {out after : Output} {e : Error} (h : x.run out = .ok (.error e, after)) :
    (x >>= f).run out = .ok (.error e, after) :=
  StateRun.run_bind_of_error h

theorem run_reserve {n : Nat} {out : Output} (h : out.size + n < UInt64.size) :
    (reserve n).run out = .ok (.ok (), out) := by
  have hget : (get : Writing Output).run out = .ok (.ok out, out) := rfl
  rw [reserve, run_bind_of_ok hget, add_eq h]
  rfl

namespace Mirrors

/-- What is mirrored with little room is mirrored with more. -/
theorem mono {small : Nat} (h : Mirrors small x y) (hroom : small ≤ room) : Mirrors room x y :=
  fun out hout => h out (by omega)

/-- The room is itself a number of the machine. -/
theorem of_room (h : room < UInt64.size → Mirrors room x y) : Mirrors room x y :=
  fun out hout => h (by omega) out hout

theorem pure (a : α) : Mirrors room (Pure.pure a) (Pure.pure a) := fun _ _ => rfl

theorem throw (e : Error) :
    Mirrors room (MonadExcept.throw e : Writing α) (MonadExcept.throw e) := fun _ _ => rfl

/-- A step that does not stop the machine comes first. -/
theorem step {γ : Type} {op : Except Fault γ} {c : γ} {next : γ → Writing α} (hop : op = .ok c)
    (h : Mirrors room (next c) y) : Mirrors room (liftM op >>= next) y := by
  subst hop
  exact h

/-- A step that writes nothing needs no room. -/
theorem lift_bind {γ : Type} (z : Except Error γ) {f : γ → Writing α} {g : γ → Writer α}
    (h : ∀ c, z = .ok c → Mirrors room (f c) (g c)) :
    Mirrors room (liftM z >>= f) (liftM z >>= g) := by
  cases z with
  | error e => exact fun _ _ => rfl
  | ok c => exact h c rfl

/-- A computation of the machine in front needs no room. -/
theorem compute_bind {γ δ : Type} {φ : δ → γ} {r : Run γ} {z : Except Error δ}
    {f : γ → Writing α} {g : δ → Writer α} (hr : RunsAs φ r z)
    (h : ∀ d, z = .ok d → Mirrors room (f (φ d)) (g d)) :
    Mirrors room (compute r >>= f) (liftM z >>= g) := by
  intro out hout
  have hrun : (compute r).run out = .ok (z.map φ, out) := by
    change StateT.run (StateT.lift r.run) out = _
    rw [hr]
    rfl
  cases z with
  | error e =>
      rw [run_bind_of_error hrun]
      rfl
  | ok d =>
      rw [run_bind_of_ok hrun]
      exact h d rfl out hout

/-- Reserving what there is room for changes nothing. -/
theorem reserve_bind {n : Nat} {next : Writing α} (hn : n ≤ room) (h : Mirrors room next y) :
    Mirrors room (reserve n >>= fun _ => next) y := by
  intro out hout
  rw [run_bind_of_ok (run_reserve (by omega))]
  exact h out hout

/-- Octets are appended where there is room for them. -/
theorem append (octets : Octets) :
    Mirrors octets.length (append octets) (Writer.write octets) := by
  intro out hout
  exact run_bind_of_ok (run_reserve hout)

theorem get_bind {f : Output → Writing α} {g : Output → Writer α}
    (h : ∀ out, Mirrors room (f out) (g out)) : Mirrors room (get >>= f) (get >>= g) :=
  fun out hout => h out out hout

/-- What comes second needs room behind what the first appends, and may know what that returned. -/
theorem bind_of_ok {first growth rest : Nat} (hx : Mirrors first x y) (hgrows : Grows growth y)
    (hf : ∀ a, (∃ out after, y.run out = (.ok a, after)) → Mirrors rest (f a) (g a))
    (hfirst : first ≤ room) (hrest : growth + rest ≤ room) :
    Mirrors room (x >>= f) (y >>= g) := by
  intro out hout
  have hrun := hx out (by omega)
  have hsize := hgrows out
  cases hy : y.run out with
  | mk result after =>
      rw [hy] at hrun hsize
      cases result with
      | error e =>
          rw [run_bind_of_error hrun, Writer.run_bind_of_error hy]
      | ok a =>
          rw [run_bind_of_ok hrun, Writer.run_bind_of_ok hy]
          exact hf a ⟨out, after, hy⟩ after (by dsimp only at hsize; omega)

/-- What appends nothing needs no room, and may know what was returned before it. -/
theorem bind_end (hx : Mirrors room x y)
    (hf : ∀ a, (∃ out after, y.run out = (.ok a, after)) →
      ∀ out, (f a).run out = .ok ((g a).run out)) :
    Mirrors room (x >>= f) (y >>= g) := by
  intro out hout
  have hrun := hx out hout
  cases hy : y.run out with
  | mk result after =>
      rw [hy] at hrun
      cases result with
      | error e =>
          rw [run_bind_of_error hrun, Writer.run_bind_of_error hy]
      | ok a =>
          rw [run_bind_of_ok hrun, Writer.run_bind_of_ok hy]
          exact hf a ⟨out, after, hy⟩ after

/-- A number that was found to be one of the machine is returned in the end. -/
theorem bind_last {op : Except Fault β} {b : β} (hx : Mirrors room x y) (hop : op = .ok b) :
    Mirrors room (x >>= fun _ => liftM op) (y >>= fun _ => Pure.pure b) := by
  subst hop
  exact hx.bind_end fun _ _ _ => rfl

/-- What is mirrored within the machine's range makes the same octets. -/
theorem runsAs_toOctets (h : Mirrors room x y) (hroom : room < UInt64.size) :
    RunsAs id x.toOctets y.toOctets := by
  have hempty : Output.empty.size + room < UInt64.size := by
    rwa [Output.size_empty, Nat.zero_add]
  have hrun := h .empty hempty
  change (x.run .empty >>= fun written => _) = _
  rw [hrun, Writer.toOctets]
  cases y.run .empty with
  | mk result out => cases result <;> rfl

/-- A chain is mirrored when its first step leaves room for the rest. -/
theorem bind {first growth rest : Nat} (hx : Mirrors first x y) (hgrows : Grows growth y)
    (hf : ∀ a, Mirrors rest (f a) (g a)) (hfirst : first ≤ room) (hrest : growth + rest ≤ room) :
    Mirrors room (x >>= f) (y >>= g) :=
  hx.bind_of_ok hgrows (fun a _ => hf a) hfirst hrest

end Mirrors

end Writing

/-- A header grows the output by its width. -/
theorem grows_writeHeader (type : UInt16) (length : Nat) :
    Grows Header.width (CcnxPacket.writeHeader type length) := by
  unfold CcnxPacket.writeHeader
  cases checkLength length with
  | error e => exact .of_yields (Writer.Yields.lift_bind_error rfl) (Nat.zero_le _)
  | ok length =>
      apply Grows.of_yields (Writer.Yields.lift_bind rfl (Writer.yields_write _))
      rw [Header.length_octets]

/-- An element grows the output by no more than its size. -/
theorem grows_writeElement (type : UInt16) (value : Octets) :
    Grows (Header.width + value.length) (CcnxPacket.writeElement type value) := by
  apply Grows.of_emits (Writer.emits_writeElement type value)
  intro e he
  obtain ⟨-, hvalue⟩ := Element.make_eq_ok_iff.1 he
  rw [Element.size_of_value hvalue]

open Writing (Mirrors append)

/-- The two numbers of a header come one after the other. -/
theorem mirrors_writeHeader (type : UInt16) (length : Nat) :
    Mirrors Header.width (writeHeader type length) (CcnxPacket.writeHeader type length) := by
  apply Mirrors.lift_bind
  intro length _
  apply Mirrors.reserve_bind (Nat.le_refl _)
  have hboth : Mirrors Header.width
      (append (bigEndian 2 type.toNat) >>= fun _ => append (bigEndian 2 length.toNat))
      (Writer.write (bigEndian 2 type.toNat) >>= fun _ =>
        Writer.write (bigEndian 2 length.toNat)) :=
    (Mirrors.append _).bind (.of_yields (Writer.yields_write _) (Nat.le_refl _))
      (fun _ => Mirrors.append _) (by simp [Header.width]) (by simp [Header.width])
  intro out hout
  rw [hboth out hout, ((Writer.yields_write _).bind (Writer.yields_write _)) out]
  exact congrArg Except.ok (Writer.yields_write (Header.octets ⟨type, length⟩) out).symm

/-- The machine writes an element as it is written. -/
theorem mirrors_writeElement (type : UInt16) (value : Octets) :
    Mirrors (Header.width + value.length) (writeElement type value)
      (CcnxPacket.writeElement type value) := by
  apply Mirrors.of_room
  intro hroom
  apply (mirrors_writeHeader type value.length).bind (grows_writeHeader type value.length) _
    (Nat.le_add_right _ _) (Nat.le_refl _)
  intro _
  exact (Mirrors.append value).bind_last (add_eq hroom)

end Machine

end CcnxPacket
