/-!
# Modular arithmetic

Powers and inverses of residues, represented by natural numbers below the modulus, and a test for
primes.
-/

namespace CcnxPacket.Modular

/-- The difference of two residues. -/
def sub (m a b : Nat) : Nat := (a + (m - b % m)) % m

/-- The residue `base ^ exponent`, by repeated squaring. -/
def power (m base : Nat) (exponent : Nat) : Nat :=
  if exponent = 0 then 1 % m
  else
    let root := power m (base * base % m) (exponent / 2)
    if exponent % 2 = 1 then root * base % m else root
termination_by exponent

/-- Euclid's algorithm on `r₀` and `r₁`, which are `t₀` and `t₁` times the number to invert. -/
def inverseFrom (m r₀ r₁ t₀ t₁ : Nat) : Nat :=
  if r₁ = 0 then t₀
  else inverseFrom m r₁ (r₀ % r₁) t₁ (sub m t₀ (r₀ / r₁ * t₁))
termination_by r₁
decreasing_by exact Nat.mod_lt _ (Nat.pos_of_ne_zero ‹_›)

/-- The inverse of a residue that is prime to the modulus. -/
def inverse (m a : Nat) : Nat := inverseFrom m m (a % m) 0 (1 % m)

/-- How often two divides `n`, counted up to `bound`. -/
def twos : (bound n : Nat) → Nat
  | 0, _ => 0
  | bound + 1, n => if n % 2 = 0 then twos bound (n / 2) + 1 else 0

/-- Whether one of the next `count` squarings of `x` reaches `n - 1`. -/
def reachesMinusOne (n : Nat) : (count x : Nat) → Bool
  | 0, _ => false
  | count + 1, x => x == n - 1 || reachesMinusOne n count (x * x % n)

/-- Whether `n` behaves as a prime does to the given base. -/
def passesBase (n base : Nat) : Bool :=
  let s := twos n.log2 (n - 1)
  let x := power n (base % n) ((n - 1) >>> s)
  base % n == 0 || x == 1 || reachesMinusOne n s x

/-- The bases to which candidates are tested, which are also tried as divisors. -/
def testBases : List Nat :=
  [2, 3, 5, 7, 11, 13, 17, 19, 23, 29, 31, 37, 41, 43, 47, 53, 59, 61, 67, 71]

/-- Whether `n` passes the prime test to every base. -/
def isProbablePrime (n : Nat) : Bool :=
  2 ≤ n && testBases.all (fun base => n == base || n % base != 0)
    && testBases.all (passesBase n)

end CcnxPacket.Modular
