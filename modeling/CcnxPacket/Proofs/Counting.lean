import CcnxPacket.Metrics
import CcnxPacket.Proofs.Result
import Mathlib

/-!
# What the counters add up to

Every call that reads or writes a packet body adds to the counters as its own outcome says, and to
no others, so that a run of calls leaves the counters larger by what its calls add up to. The
counters are shared by all codecs and all threads; an addition to one of them is a single step, and
the order of such steps does not matter.
-/

namespace CcnxPacket

/-! ### Counters -/

/-- One of the counters. -/
inductive Counter where
  | messagesEncoded
  | messagesDecoded
  | bytesEncoded
  | bytesDecoded
  | encodeErrors
  | decodeErrors
  | signaturesCreated
  | verificationsPassed
  | verificationsFailed
deriving DecidableEq, Repr

/-- What is added to a counter in one step. -/
structure Addition where
  counter : Counter
  amount : Nat
deriving DecidableEq, Repr

/-- What an addition adds to the given counter. -/
def Addition.to (a : Addition) (counter : Counter) : Nat :=
  if a.counter = counter then a.amount else 0

/-- What additions add to the given counter. -/
def Addition.total (additions : List Addition) (counter : Counter) : Nat :=
  (additions.map (·.to counter)).sum

/-- Additions in sequence add the sum of what each of them adds. -/
theorem Addition.total_append (first second : List Addition) (counter : Counter) :
    total (first ++ second) counter = total first counter + total second counter := by
  rw [total, List.map_append, List.sum_append]
  rfl

namespace Metrics

/-- The value of a counter. -/
def get (m : Metrics) : Counter → UInt64
  | .messagesEncoded => m.messagesEncoded
  | .messagesDecoded => m.messagesDecoded
  | .bytesEncoded => m.bytesEncoded
  | .bytesDecoded => m.bytesDecoded
  | .encodeErrors => m.encodeErrors
  | .decodeErrors => m.decodeErrors
  | .signaturesCreated => m.signaturesCreated
  | .verificationsPassed => m.verificationsPassed
  | .verificationsFailed => m.verificationsFailed

/-- The counters after an addition to one of them. -/
def add (m : Metrics) (a : Addition) : Metrics :=
  let n := UInt64.ofNat a.amount
  match a.counter with
  | .messagesEncoded => { m with messagesEncoded := m.messagesEncoded + n }
  | .messagesDecoded => { m with messagesDecoded := m.messagesDecoded + n }
  | .bytesEncoded => { m with bytesEncoded := m.bytesEncoded + n }
  | .bytesDecoded => { m with bytesDecoded := m.bytesDecoded + n }
  | .encodeErrors => { m with encodeErrors := m.encodeErrors + n }
  | .decodeErrors => { m with decodeErrors := m.decodeErrors + n }
  | .signaturesCreated => { m with signaturesCreated := m.signaturesCreated + n }
  | .verificationsPassed => { m with verificationsPassed := m.verificationsPassed + n }
  | .verificationsFailed => { m with verificationsFailed := m.verificationsFailed + n }

/-- The counters after additions in the given order. -/
def addAll (m : Metrics) (additions : List Addition) : Metrics := additions.foldl add m

variable {m m' : Metrics}

/-- Counters that are the same one by one are the same together. -/
theorem ext_get (h : ∀ counter, m.get counter = m'.get counter) : m = m' := by
  cases m
  cases m'
  simp only [Metrics.mk.injEq]
  exact ⟨h .messagesEncoded, h .messagesDecoded, h .bytesEncoded, h .bytesDecoded,
    h .encodeErrors, h .decodeErrors, h .signaturesCreated, h .verificationsPassed,
    h .verificationsFailed⟩

/-- An addition changes its own counter only. -/
theorem get_add (m : Metrics) (a : Addition) (counter : Counter) :
    (m.add a).get counter = m.get counter + UInt64.ofNat (a.to counter) := by
  obtain ⟨own, amount⟩ := a
  cases own <;> cases counter <;> simp [add, get, Addition.to]

/-- A counter grows by the total of what is added to it, modulo the size of the machine's
numbers. -/
theorem get_addAll (m : Metrics) (additions : List Addition) (counter : Counter) :
    (m.addAll additions).get counter =
      m.get counter + UInt64.ofNat (Addition.total additions counter) := by
  induction additions generalizing m with
  | nil => simp [addAll, Addition.total]
  | cons a additions ih =>
      have hrest := ih (m.add a)
      rw [get_add] at hrest
      simp only [addAll, Addition.total, List.foldl_cons, List.map_cons, List.sum_cons,
        UInt64.ofNat_add] at hrest ⊢
      rw [hrest, UInt64.add_assoc]

/-- Additions in two parts are the additions of both. -/
theorem addAll_append (m : Metrics) (first second : List Addition) :
    m.addAll (first ++ second) = (m.addAll first).addAll second :=
  List.foldl_append

/-- The order of additions does not matter. -/
theorem addAll_perm {first second : List Addition} (h : first.Perm second) (m : Metrics) :
    m.addAll first = m.addAll second := by
  refine ext_get fun counter => ?_
  have htotal : Addition.total first counter = Addition.total second counter :=
    (h.map _).sum_eq
  rw [get_addAll, get_addAll, htotal]

end Metrics

/-! ### The additions of an outcome -/

namespace Addition

/-- What the outcome of reading octets of the given number adds. -/
def ofDecoding {α : Type} (size : Nat) : Except Error α → List Addition
  | .ok _ => [⟨.messagesDecoded, 1⟩, ⟨.bytesDecoded, size⟩]
  | .error _ => [⟨.decodeErrors, 1⟩]

/-- What the outcome of writing adds. -/
def ofEncoding : Except Error Octets → List Addition
  | .ok octets => [⟨.messagesEncoded, 1⟩, ⟨.bytesEncoded, octets.length⟩]
  | .error _ => [⟨.encodeErrors, 1⟩]

/-- What the outcome of signing adds. -/
def ofSigning : Except Error Octets → List Addition
  | .ok _ => [⟨.signaturesCreated, 1⟩]
  | .error _ => []

/-- What the outcome of a verification adds. -/
def ofVerification : Except Error Bool → List Addition
  | .ok true => [⟨.verificationsPassed, 1⟩]
  | .ok false => [⟨.verificationsFailed, 1⟩]
  | .error _ => []

end Addition

namespace Metrics

theorem countDecoding_eq {α : Type} (m : Metrics) (size : Nat) (result : Except Error α) :
    m.countDecoding size result = m.addAll (Addition.ofDecoding size result) := by
  cases result <;> rfl

theorem countEncoding_eq (m : Metrics) (result : Except Error Octets) :
    m.countEncoding result = m.addAll (Addition.ofEncoding result) := by
  cases result <;> rfl

theorem countSigning_eq (m : Metrics) (result : Except Error Octets) :
    m.countSigning result = m.addAll (Addition.ofSigning result) := by
  cases result <;> rfl

theorem countVerification_eq (m : Metrics) (result : Except Error Bool) :
    m.countVerification result = m.addAll (Addition.ofVerification result) := by
  rcases result with e | _ | _ <;> rfl

end Metrics

/-! ### Runs of the operations -/

namespace Counted

section
variable {F : Type} [FieldFormat F] (codec : PacketCodec F) (octets : Octets) (m : Metrics)

theorem run_encode (body : PacketBody) :
    (encode codec body).run m = (codec.encode body, m.countEncoding (codec.encode body)) := rfl

theorem run_encodeSigned (clock : Except SigningFlaw UInt64) (message : Message)
    (signer : SignatureMaker) :
    (encodeSigned codec clock message signer).run m =
      (codec.encodeSignedBy clock message signer,
        (m.countSigning (codec.encodeSignedBy clock message signer)).countEncoding
          (codec.encodeSignedBy clock message signer)) := rfl

theorem run_decode :
    (decode codec octets).run m =
      (codec.decode octets, m.countDecoding octets.length (codec.decode octets)) := rfl

/-- What is done with a body that has been read counts on top of the reading. -/
theorem run_decode_bind {α : Type} {next : DecodedBody → Counted α}
    {answer : DecodedBody → Except Error α} (count : Metrics → Except Error α → Metrics)
    (hnext : ∀ decoded m, (next decoded).run m = (answer decoded, count m (answer decoded)))
    (hfail : ∀ m e, count m (.error e) = m) :
    (decode codec octets >>= next).run m =
      (codec.decode octets >>= answer,
        count (m.countDecoding octets.length (codec.decode octets))
          (codec.decode octets >>= answer)) := by
  have hdecode := run_decode codec octets m
  cases h : codec.decode octets with
  | error e =>
      rw [h] at hdecode
      rw [Result.error_bind, hfail]
      exact Result.run_bind_of_error hdecode
  | ok decoded =>
      rw [h] at hdecode
      rw [Result.ok_bind, ← hnext]
      exact Result.run_bind_of_ok hdecode

theorem run_decodeBody :
    (decodeBody codec octets).run m =
      (do return (← codec.decode octets).body,
        m.countDecoding octets.length (codec.decode octets)) :=
  run_decode_bind codec octets m (fun m _ => m) (fun _ _ => rfl) fun _ _ => rfl

theorem run_protectedRegion :
    (protectedRegion codec octets).run m =
      (codec.protectedRegion octets, m.countDecoding octets.length (codec.decode octets)) :=
  run_decode_bind codec octets m (fun m _ => m) (fun _ _ => rfl) fun _ _ => rfl

/-- A verification without an answer counts as none, whether it failed in reading or after it. -/
theorem run_verify (verifier : SignatureChecker) :
    (verify codec octets verifier).run m =
      (codec.verify octets verifier,
        (m.countDecoding octets.length (codec.decode octets)).countVerification
          (codec.verify octets verifier)) :=
  run_decode_bind codec octets m Metrics.countVerification (fun _ _ => rfl) fun _ _ => rfl

end

end Counted

/-! ### Calls -/

namespace Counted

/-- A call of an operation that counts, by any codec and with whatever signs or checks. -/
inductive Call (F : Type := Format) where
  | decode (codec : PacketCodec F) (octets : Octets)
  | decodeWithRegion (codec : PacketCodec F) (octets : Octets)
  | protectedRegion (codec : PacketCodec F) (octets : Octets)
  | verify (codec : PacketCodec F) (octets : Octets) (verifier : SignatureChecker)
  | encode (codec : PacketCodec F) (body : PacketBody)
  | encodeSigned (codec : PacketCodec F) (clock : Except SigningFlaw UInt64) (message : Message)
      (signer : SignatureMaker)

/-- What a call answers. -/
inductive Answer where
  | body (result : Except Error PacketBody)
  | decoded (result : Except Error DecodedBody)
  | region (result : Except Error Octets)
  | verdict (result : Except Error Bool)
  | octets (result : Except Error Octets)

namespace Call

variable {F : Type} [FieldFormat F]

/-- Carries out a call: its answer, and the counters after it. -/
def perform (m : Metrics) : Call F → Answer × Metrics
  | decode codec octets => ((Counted.decodeBody codec octets).run m).map .body id
  | decodeWithRegion codec octets => ((Counted.decode codec octets).run m).map .decoded id
  | protectedRegion codec octets => ((Counted.protectedRegion codec octets).run m).map .region id
  | verify codec octets verifier =>
    ((Counted.verify codec octets verifier).run m).map .verdict id
  | encode codec body => ((Counted.encode codec body).run m).map .octets id
  | encodeSigned codec clock message signer =>
    ((Counted.encodeSigned codec clock message signer).run m).map .octets id

/-- Carries out calls one after the other: their answers, and the counters after them. -/
def performAll (m : Metrics) : List (Call F) → List Answer × Metrics
  | [] => ([], m)
  | call :: calls =>
    let (answer, m) := call.perform m
    let (answers, m) := performAll m calls
    (answer :: answers, m)

/-- What the operation answers, whatever is counted. -/
def answer : Call F → Answer
  | decode codec octets => .body (do return (← codec.decode octets).body)
  | decodeWithRegion codec octets => .decoded (codec.decode octets)
  | protectedRegion codec octets => .region (codec.protectedRegion octets)
  | verify codec octets verifier => .verdict (codec.verify octets verifier)
  | encode codec body => .octets (codec.encode body)
  | encodeSigned codec clock message signer =>
    .octets (codec.encodeSignedBy clock message signer)

/-- The octets that a call has to read as a packet body, and the outcome of that. -/
def reading? : Call F → Option (Octets × Except Error DecodedBody)
  | decode codec octets | decodeWithRegion codec octets | protectedRegion codec octets
  | verify codec octets _ => some (octets, codec.decode octets)
  | encode .. | encodeSigned .. => none

/-- The outcome of writing a packet body, for a call that does. -/
def writing? : Call F → Option (Except Error Octets)
  | encode codec body => some (codec.encode body)
  | encodeSigned codec clock message signer =>
    some (codec.encodeSignedBy clock message signer)
  | decode .. | decodeWithRegion .. | protectedRegion .. | verify .. => none

/-- The octets that a call succeeds in reading. -/
def read? (call : Call F) : Option Octets :=
  match call.reading? with
  | some (octets, .ok _) => some octets
  | _ => none

/-- The octets that a call succeeds in writing. -/
def written? (call : Call F) : Option Octets :=
  match call.writing? with
  | some (.ok octets) => some octets
  | _ => none

/-- The octets that a call succeeds in writing with a signature of its own. -/
def signed? (call : Call F) : Option Octets :=
  match call with
  | encodeSigned .. => call.written?
  | _ => none

/-- What a verification answers, when it does. -/
def verdict? : Call F → Option Bool
  | verify codec octets verifier => (codec.verify octets verifier).toOption
  | _ => none

/-- How much a run of calls adds to a counter: the number of calls of one outcome, or the number of
octets that such calls read or write. -/
def tally (calls : List (Call F)) : Counter → Nat
  | .messagesDecoded => (calls.filterMap read?).length
  | .bytesDecoded => ((calls.filterMap read?).map List.length).sum
  | .decodeErrors => calls.countP fun call => call.reading?.isSome && call.read?.isNone
  | .messagesEncoded => (calls.filterMap written?).length
  | .bytesEncoded => ((calls.filterMap written?).map List.length).sum
  | .encodeErrors => calls.countP fun call => call.writing?.isSome && call.written?.isNone
  | .signaturesCreated => (calls.filterMap signed?).length
  | .verificationsPassed => calls.countP fun call => call.verdict? = some true
  | .verificationsFailed => calls.countP fun call => call.verdict? = some false

/-- The additions of a call, in their order. -/
def additions : Call F → List Addition
  | decode codec octets | decodeWithRegion codec octets | protectedRegion codec octets =>
    Addition.ofDecoding octets.length (codec.decode octets)
  | verify codec octets verifier =>
    Addition.ofDecoding octets.length (codec.decode octets) ++
      Addition.ofVerification (codec.verify octets verifier)
  | encode codec body => Addition.ofEncoding (codec.encode body)
  | encodeSigned codec clock message signer =>
    let result := codec.encodeSignedBy clock message signer
    Addition.ofSigning result ++ Addition.ofEncoding result

/-- A call answers what its operation does and adds what its outcome says. -/
theorem perform_eq (m : Metrics) (call : Call F) :
    call.perform m = (call.answer, m.addAll call.additions) := by
  cases call with
  | decode codec octets =>
      rw [perform, Counted.run_decodeBody, Metrics.countDecoding_eq]
      rfl
  | decodeWithRegion codec octets =>
      rw [perform, Counted.run_decode, Metrics.countDecoding_eq]
      rfl
  | protectedRegion codec octets =>
      rw [perform, Counted.run_protectedRegion, Metrics.countDecoding_eq]
      rfl
  | verify codec octets verifier =>
      rw [perform, Counted.run_verify, Metrics.countDecoding_eq, Metrics.countVerification_eq,
        ← Metrics.addAll_append]
      rfl
  | encode codec body =>
      rw [perform, Counted.run_encode, Metrics.countEncoding_eq]
      rfl
  | encodeSigned codec clock message signer =>
      rw [perform, Counted.run_encodeSigned, Metrics.countSigning_eq, Metrics.countEncoding_eq,
        ← Metrics.addAll_append]
      rfl

/-- Calls are answered as without counters, and what they add comes to the counters in turn. -/
theorem performAll_eq (m : Metrics) (calls : List (Call F)) :
    performAll m calls = (calls.map answer, m.addAll (calls.flatMap additions)) := by
  induction calls generalizing m with
  | nil => rfl
  | cons call calls ih =>
      simp only [performAll, perform_eq, ih, List.map_cons, List.flatMap_cons,
        Metrics.addAll_append]

/-- What the calls of a run add, they add one after the other. -/
theorem tally_cons (call : Call F) (calls : List (Call F)) (counter : Counter) :
    tally (call :: calls) counter = tally [call] counter + tally calls counter := by
  have happend : call :: calls = [call] ++ calls := rfl
  cases counter <;>
    simp only [happend, tally, List.filterMap_append, List.map_append, List.sum_append,
      List.length_append, List.countP_append]

/-- What a call adds to a counter is what counts for it by the call's outcome. -/
theorem total_additions (call : Call F) (counter : Counter) :
    Addition.total call.additions counter = tally [call] counter := by
  cases call with
  | decode codec octets | decodeWithRegion codec octets | protectedRegion codec octets =>
      cases hread : codec.decode octets <;>
        simp only [additions, tally, List.filterMap_cons, List.countP_singleton, read?, written?,
          signed?, verdict?, reading?, writing?, hread] <;>
        cases counter <;> simp [Addition.total, Addition.to, Addition.ofDecoding]
  | verify codec octets verifier =>
      cases hread : codec.decode octets <;>
        rcases hverdict : codec.verify octets verifier with e | _ | _ <;>
        simp only [additions, tally, List.filterMap_cons, List.countP_singleton, read?, written?,
          signed?, verdict?, reading?, writing?, Except.toOption, hread, hverdict] <;>
        cases counter <;> simp [Addition.total, Addition.to, Addition.ofDecoding, Addition.ofVerification]
  | encode codec body =>
      cases hwrite : codec.encode body <;>
        simp only [additions, tally, List.filterMap_cons, List.countP_singleton, read?, written?,
          signed?, verdict?, reading?, writing?, hwrite] <;>
        cases counter <;> simp [Addition.total, Addition.to, Addition.ofEncoding]
  | encodeSigned codec clock message signer =>
      cases hwrite : codec.encodeSignedBy clock message signer <;>
        simp only [additions, tally, List.filterMap_cons, List.countP_singleton, read?, written?,
          signed?, verdict?, reading?, writing?, hwrite] <;>
        cases counter <;> simp [Addition.total, Addition.to, Addition.ofEncoding, Addition.ofSigning]

/-- What calls add to a counter altogether is their tally for it. -/
theorem total_flatMap_additions (calls : List (Call F)) (counter : Counter) :
    Addition.total (calls.flatMap additions) counter = tally calls counter := by
  induction calls with
  | nil => cases counter <;> rfl
  | cons call calls ih =>
      rw [List.flatMap_cons, Addition.total_append, total_additions, ih, ← tally_cons]

/-- Every call adds to each counter what counts for it, and nothing to any other. -/
theorem get_performAll (m : Metrics) (calls : List (Call F)) (counter : Counter) :
    (performAll m calls).2.get counter = m.get counter + UInt64.ofNat (tally calls counter) := by
  rw [performAll_eq, Metrics.get_addAll, total_flatMap_additions]

/-- A call counts its reading or its writing once. -/
theorem tally_once (call : Call F) :
    tally [call] .messagesDecoded + tally [call] .decodeErrors =
        (if call.reading?.isSome then 1 else 0) ∧
      tally [call] .messagesEncoded + tally [call] .encodeErrors =
        (if call.writing?.isSome then 1 else 0) := by
  constructor
  · rcases h : call.reading? with _ | ⟨octets, _ | _⟩ <;>
      simp [tally, read?, h]
  · rcases h : call.writing? with _ | _ | _ <;>
      simp [tally, written?, h]

/-- A run of calls answers what the operations do, and each counter is then larger by the number of
calls of its outcome, or of the octets that these read or wrote, up to the wrap at 64 bits. A call
leaves alone every counter that its outcome does not count for, and it counts its reading or its
writing once. The additions of the calls may come in any order, as those of several threads do. -/
theorem counters_after_calls {F : Type} [FieldFormat F] (m : Metrics) (calls : List (Call F)) :
    (performAll m calls).1 = calls.map answer ∧
      (∀ counter, ((performAll m calls).2.get counter).toNat =
        ((m.get counter).toNat + tally calls counter) % UInt64.size) ∧
      (∀ (call : Call F) m,
        (∀ counter, tally [call] counter = 0 → (call.perform m).2.get counter = m.get counter) ∧
        tally [call] .messagesDecoded + tally [call] .decodeErrors =
          (if call.reading?.isSome then 1 else 0) ∧
        tally [call] .messagesEncoded + tally [call] .encodeErrors =
          (if call.writing?.isSome then 1 else 0)) ∧
      ∀ order : List Addition, order.Perm (calls.flatMap additions) →
        m.addAll order = (performAll m calls).2 := by
  refine ⟨?_, ?_, ?_, ?_⟩
  · rw [performAll_eq]
  · intro counter
    rw [get_performAll, UInt64.toNat_add, UInt64.toNat_ofNat', Nat.add_mod_mod]
  · intro call m
    refine ⟨?_, tally_once call⟩
    intro counter hnone
    rw [perform_eq, Metrics.get_addAll, total_additions, hnone]
    exact UInt64.add_zero _
  · intro order horder
    rw [performAll_eq]
    exact Metrics.addAll_perm horder m

/-- The codec of the standard formats that leaves the time of signing out. -/
def timeless : PacketCodec := { registry := .shared, includeSigningTime := false }

/-- What checks nothing, and fails for every suite. -/
def refusingChecker : SignatureChecker :=
  { hash := .crc32c, check := fun _ _ suite _ => .error (.unsupportedSuite suite) }

/-- Calls on the message without a field: it is read, it is not verified for want of a signature,
with a signature its verification fails, it is signed with and without a clock that is wrong, and
half of it is not read. -/
def emptyMessageCalls : List Call :=
  [.protectedRegion timeless [0, 2, 0, 0],
    .verify timeless [0, 2, 0, 0] (Verifier.ofScheme .crc32c),
    .verify timeless [0, 2, 0, 0, 0, 3, 0, 4, 0, 2, 0, 0, 0, 4, 0, 1, 7] refusingChecker,
    .encodeSigned { registry := .shared } (.error .clockBeforeEpoch) (.contentObject {})
      Signer.checksum,
    .encodeSigned timeless (.error .clockBeforeEpoch) (.contentObject {}) Signer.checksum,
    .decode timeless [0, 2]]

/-- They leave the counters as they should, also when the octets read wrap, when a verification
fails after reading, when the calls count nothing for a counter, and when the additions come in the
opposite order. -/
theorem counters_after_emptyMessageCalls :
    let m : Metrics := { bytesDecoded := 0 - 1 }
    let after := (performAll m emptyMessageCalls).2
    after.get .bytesDecoded = 24 ∧ after.get .verificationsPassed = 0 ∧
      after.get .verificationsFailed = 1 ∧ after.get .encodeErrors = 1 ∧
      after.get .signaturesCreated = 1 ∧
      ((decode timeless [0, 2]).perform m).2.get .bytesDecoded = 0 - 1 ∧
      m.addAll (emptyMessageCalls.flatMap additions).reverse = after := by
  intro m after
  obtain ⟨-, hcounters, hcalls, horder⟩ := counters_after_calls m emptyMessageCalls
  refine ⟨UInt64.toNat_inj.1 ((hcounters .bytesDecoded).trans (by decide +kernel)),
    UInt64.toNat_inj.1 ((hcounters .verificationsPassed).trans (by decide +kernel)),
    UInt64.toNat_inj.1 ((hcounters .verificationsFailed).trans (by decide +kernel)),
    UInt64.toNat_inj.1 ((hcounters .encodeErrors).trans (by decide +kernel)),
    UInt64.toNat_inj.1 ((hcounters .signaturesCreated).trans (by decide +kernel)), ?_, ?_⟩
  · exact (hcalls (decode timeless [0, 2]) m).1 .bytesDecoded (by decide +kernel)
  · exact horder _ (List.reverse_perm _)

end Call

end Counted

end CcnxPacket
