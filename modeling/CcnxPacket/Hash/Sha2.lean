import CcnxPacket.Octets

/-!
# The SHA-2 hash functions

SHA-256 and SHA-384 share one construction over words of 32 and of 64 bits. The message is padded to
whole blocks of sixteen words, each block's words are expanded to a schedule, and the schedule's
rounds stir an eight-word state. Round constants and initial states are leading bits of fractional
parts of cube and square roots of primes.
-/

namespace CcnxPacket.Sha2

/-! ### Constants -/

/-- The primes below `n`, by trial division. -/
def primesBelow (n : Nat) : List Nat :=
  (List.range n).filter fun p => 2 ≤ p && (List.range p).all fun d => d < 2 || p % d != 0

/-- The largest `root + x`, `x` having the given bits, whose `k`-th power does not exceed `n`. -/
def rootFrom (k n : Nat) : (bits root : Nat) → Nat
  | 0, root => root
  | bits + 1, root =>
    let next := root + (1 <<< bits)
    rootFrom k n bits (if Nat.pow next k ≤ n then next else root)

/-- The first `width` bits of the fractional part of the `k`-th root of `n`, for small `n`. -/
def fractionOfRoot (k width n : Nat) : Nat :=
  rootFrom k (n <<< (k * width)) (width + 4) 0 % (1 <<< width)

/-! ### The construction -/

/-- What the two word sizes differ in. -/
structure Variant (W : Type) where
  /-- Octets of a word. -/
  wordWidth : Nat
  ofNat : Nat → W
  toNat : W → Nat
  /-- The round constants. -/
  constants : List W
  bigSigma0 : W → W
  bigSigma1 : W → W
  smallSigma0 : W → W
  smallSigma1 : W → W

/-- The eight words that the rounds stir. -/
structure State (W : Type) where
  a : W
  b : W
  c : W
  d : W
  e : W
  f : W
  g : W
  h : W

/-- The words of a state in order. -/
def State.words {W : Type} (s : State W) : List W := [s.a, s.b, s.c, s.d, s.e, s.f, s.g, s.h]

section
variable {W : Type} [Add W] [AndOp W] [XorOp W] [Complement W]

/-- The words of a state, added one by one. -/
def State.add (s t : State W) : State W :=
  ⟨s.a + t.a, s.b + t.b, s.c + t.c, s.d + t.d, s.e + t.e, s.f + t.f, s.g + t.g, s.h + t.h⟩

/-- One round with a constant and a word of the schedule. -/
@[specialize] def round (v : Variant W) (s : State W) (constant word : W) : State W :=
  let choice := (s.e &&& s.f) ^^^ (~~~s.e &&& s.g)
  let majority := (s.a &&& s.b) ^^^ (s.a &&& s.c) ^^^ (s.b &&& s.c)
  let t1 := s.h + v.bigSigma1 s.e + choice + constant + word
  let t2 := v.bigSigma0 s.a + majority
  ⟨t1 + t2, s.a, s.b, s.c, s.d + t1, s.e, s.f, s.g⟩

/-- The rounds for the remaining constants. The window holds the schedule's next sixteen words. -/
@[specialize] def rounds (v : Variant W) : List W → List W → State W → State W
  | constant :: constants, window, s =>
    match window with
    | w0 :: w1 :: rest =>
      let next := (rest[12]?.elim w0 v.smallSigma1) + (rest[7]?.getD w0) + v.smallSigma0 w1 + w0
      rounds v constants (w1 :: rest ++ [next]) (round v s constant w0)
    | _ => s
  | [], _, s => s

/-- The state after one more block of sixteen words. -/
@[specialize] def compress (v : Variant W) (s : State W) (block : List W) : State W :=
  s.add (rounds v v.constants block s)

end

/-- The first `count` pieces of `size` members each. -/
def pieces {α : Type} (size : Nat) : (count : Nat) → List α → List (List α)
  | 0, _ => []
  | count + 1, xs => xs.take size :: pieces size count (xs.drop size)

/-- The message with a one bit, the fewest zero bits, and its length in bits, which fill blocks. -/
def pad (wordWidth : Nat) (message : Octets) : Octets :=
  let block := 16 * wordWidth
  let used := (message.length + 1 + 2 * wordWidth) % block
  message ++ 0x80 :: List.replicate ((block - used) % block) 0
    ++ bigEndian (2 * wordWidth) (8 * message.length)

/-- The state after the whole message. -/
@[specialize] def finalState {W : Type} [Add W] [AndOp W] [XorOp W] [Complement W] (v : Variant W)
    (start : State W) (message : Octets) : State W :=
  let padded := pad v.wordWidth message
  let words := (pieces v.wordWidth (padded.length / v.wordWidth) padded).map
    fun octets => v.ofNat (ofBigEndian octets)
  (pieces 16 (words.length / 16) words).foldl (compress v) start

/-- The state whose words are the given numbers, missing ones being zero. -/
def State.ofNats {W : Type} (v : Variant W) (numbers : List Nat) : State W :=
  let word i := v.ofNat (numbers.getD i 0)
  ⟨word 0, word 1, word 2, word 3, word 4, word 5, word 6, word 7⟩

/-- Words as octets, most significant first. -/
def wordOctets {W : Type} (v : Variant W) (words : List W) : Octets :=
  words.flatMap fun word => bigEndian v.wordWidth (v.toNat word)

/-! ### SHA-256 -/

/-- Rotation to the right. -/
def rotate32 (x n : UInt32) : UInt32 := (x >>> n) ||| (x <<< (32 - n))

/-- Words of 32 bits. -/
def variant32 : Variant UInt32 where
  wordWidth := 4
  ofNat := UInt32.ofNat
  toNat := UInt32.toNat
  constants := (primesBelow 312).map fun p => UInt32.ofNat (fractionOfRoot 3 32 p)
  bigSigma0 x := rotate32 x 2 ^^^ rotate32 x 13 ^^^ rotate32 x 22
  bigSigma1 x := rotate32 x 6 ^^^ rotate32 x 11 ^^^ rotate32 x 25
  smallSigma0 x := rotate32 x 7 ^^^ rotate32 x 18 ^^^ (x >>> 3)
  smallSigma1 x := rotate32 x 17 ^^^ rotate32 x 19 ^^^ (x >>> 10)

/-- The initial state of SHA-256. -/
def initial256 : State UInt32 :=
  State.ofNats variant32 ((primesBelow 20).map fun p => fractionOfRoot 2 32 p)

/-- The SHA-256 hash of the message. -/
def sha256 (message : Octets) : Octets :=
  wordOctets variant32 (finalState variant32 initial256 message).words

/-! ### SHA-384 -/

/-- Rotation to the right. -/
def rotate64 (x n : UInt64) : UInt64 := (x >>> n) ||| (x <<< (64 - n))

/-- Words of 64 bits. -/
def variant64 : Variant UInt64 where
  wordWidth := 8
  ofNat := UInt64.ofNat
  toNat := UInt64.toNat
  constants := (primesBelow 410).map fun p => UInt64.ofNat (fractionOfRoot 3 64 p)
  bigSigma0 x := rotate64 x 28 ^^^ rotate64 x 34 ^^^ rotate64 x 39
  bigSigma1 x := rotate64 x 14 ^^^ rotate64 x 18 ^^^ rotate64 x 41
  smallSigma0 x := rotate64 x 1 ^^^ rotate64 x 8 ^^^ (x >>> 7)
  smallSigma1 x := rotate64 x 19 ^^^ rotate64 x 61 ^^^ (x >>> 6)

/-- The initial state of SHA-384, from the ninth to the sixteenth prime. -/
def initial384 : State UInt64 :=
  State.ofNats variant64 (((primesBelow 54).drop 8).map fun p => fractionOfRoot 2 64 p)

/-- The SHA-384 hash of the message: the first six words of the final state. -/
def sha384 (message : Octets) : Octets :=
  wordOctets variant64 ((finalState variant64 initial384 message).words.take 6)

/-! ### Widths -/

theorem length_wordOctets {W : Type} (v : Variant W) (words : List W) :
    (wordOctets v words).length = words.length * v.wordWidth := by
  induction words with
  | nil => simp [wordOctets]
  | cons word words ih =>
    simp only [wordOctets, List.flatMap_cons, List.length_append, length_bigEndian,
      List.length_cons] at ih ⊢
    rw [ih, Nat.succ_mul, Nat.add_comm]

@[simp] theorem length_sha256 (message : Octets) : (sha256 message).length = 32 := by
  simp [sha256, length_wordOctets, State.words, variant32]

@[simp] theorem length_sha384 (message : Octets) : (sha384 message).length = 48 := by
  simp [sha384, length_wordOctets, State.words, variant64]

end CcnxPacket.Sha2
