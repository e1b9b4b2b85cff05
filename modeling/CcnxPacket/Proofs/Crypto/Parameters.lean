import CcnxPacket.Proofs.Crypto.Curve
import CcnxPacket.Proofs.Crypto.Prime
import Mathlib.Tactic.NormNum.Prime

/-!
# The parameters of the curves

The primes of the fields and the orders of the base points are primes, and going around the order
leads to infinity, so both curves have the groups that their signatures need.
-/

namespace CcnxPacket.Curve

/-- The primes below a million that the certificates need. -/
def knownPrimes : List Nat :=
  [2, 3, 5, 7, 11, 13, 17, 19, 29, 31, 41, 47, 53, 59, 61, 67, 73, 79, 89, 97, 107, 109, 113, 149,
   151, 157, 179, 181, 211, 233, 251, 263, 293, 311, 347, 421, 461, 491, 599, 631, 659, 661, 797,
   881, 971, 1373, 1553, 1627, 1871, 2011, 2213, 2621, 2657, 3517, 3739, 4051, 4423, 5323, 6317,
   7723, 8389, 9349, 13441, 16699, 16979, 20113, 21407, 24809, 28181, 34429, 37447, 38557, 41201,
   64901, 85831, 96557, 120233, 248431, 305873, 312289, 330563, 336757, 363557, 455737, 568151]

/-- The known primes are primes. -/
theorem prime_of_mem_knownPrimes : ∀ q ∈ knownPrimes, q.Prime := by
  simp only [knownPrimes, List.forall_mem_cons]
  norm_num

/-! ### secp256k1 -/

/-- Certificates of the prime of the field and of the order. -/
def secp256k1Certificates : List PrimeCertificate :=
  [ ⟨13331831, 13, [(2, 1), (5, 1), (971, 1), (1373, 1)]⟩,
    ⟨173378833005251801, 6, [(2, 3), (5, 2), (2621, 1), (24809, 1), (13331831, 1)]⟩,
    ⟨22149492674086928081353, 5, [(2, 3), (3, 1), (5323, 1), (173378833005251801, 1)]⟩,
    ⟨132896956044521568488119, 6, [(2, 1), (3, 1), (22149492674086928081353, 1)]⟩,
    ⟨1206781, 10, [(2, 2), (3, 1), (5, 1), (20113, 1)]⟩,
    ⟨7240687, 3, [(2, 1), (3, 1), (1206781, 1)]⟩,
    ⟨107590001, 3, [(2, 4), (5, 4), (7, 1), (29, 1), (53, 1)]⟩,
    ⟨0xC03A94B2D3E64419A05CD8CCBF987069, 3,
      [(2, 3), (7, 2), (11, 1), (1627, 1), (2657, 1), (4423, 1), (41201, 1), (96557, 1),
       (7240687, 1), (107590001, 1)]⟩,
    ⟨0x1DB8260E5E3B460A46A0088FCCF6A3A5936D75D89A776D4C0DA4F338AAFB, 10,
      [(2, 1), (3, 1), (5, 1), (29, 2), (31, 1), (7723, 1), (132896956044521568488119, 1),
       (0xC03A94B2D3E64419A05CD8CCBF987069, 1)]⟩,
    ⟨secp256k1.prime, 3,
      [(2, 1), (3, 1), (7, 1), (13441, 1),
       (0x1DB8260E5E3B460A46A0088FCCF6A3A5936D75D89A776D4C0DA4F338AAFB, 1)]⟩,
    ⟨4681609, 23, [(2, 3), (3, 1), (97, 1), (2011, 1)]⟩,
    ⟨107361793816595537, 3, [(2, 4), (16699, 1), (85831, 1), (4681609, 1)]⟩,
    ⟨44706919, 6, [(2, 1), (3, 1), (797, 1), (9349, 1)]⟩,
    ⟨174723607534414371449, 3, [(2, 3), (17, 1), (59, 1), (4051, 1), (120233, 1), (44706919, 1)]⟩,
    ⟨545358713, 5, [(2, 3), (41, 1), (59, 1), (28181, 1)]⟩,
    ⟨1627771, 3, [(2, 1), (3, 1), (5, 1), (29, 1), (1871, 1)]⟩,
    ⟨297159362677, 2, [(2, 2), (3, 2), (11, 1), (461, 1), (1627771, 1)]⟩,
    ⟨29047611873442575647497758179, 2,
      [(2, 1), (293, 1), (305873, 1), (545358713, 1), (297159362677, 1)]⟩,
    ⟨0x10DBFF26EAB8198050172EE03275, 2,
      [(2, 2), (3, 3), (109, 1), (29047611873442575647497758179, 1)]⟩,
    ⟨secp256k1.order, 7,
      [(2, 6), (3, 1), (149, 1), (631, 1), (107361793816595537, 1), (174723607534414371449, 1),
       (0x10DBFF26EAB8198050172EE03275, 1)]⟩ ]

/-- The certificates for secp256k1 hold. -/
theorem prime_of_mem_secp256k1Certificates :
    ∀ q ∈ secp256k1Certificates.map PrimeCertificate.number, q.Prime :=
  PrimeCertificate.prime_of_areValid prime_of_mem_knownPrimes (by decide +kernel)

theorem prime_secp256k1 : secp256k1.prime.Prime :=
  prime_of_mem_secp256k1Certificates _ (by decide +kernel)

/-- The base point of secp256k1 generates a group of prime order. -/
theorem isProper_secp256k1 : secp256k1.IsProper where
  prime := prime_secp256k1
  residue := by decide
  order := prime_of_mem_secp256k1Certificates _ (by decide +kernel)
  contains := by decide +kernel
  baseY_ne_zero := by decide
  cycle := by decide +kernel
  prime_le := by decide
  order_le := by decide

/-! ### secp384r1 -/

/-- Certificates of the prime of the field and of the order. -/
def secp384r1Certificates : List PrimeCertificate :=
  [ ⟨2862218959, 3, [(2, 1), (3, 1), (157, 1), (1373, 1), (2213, 1)]⟩,
    ⟨807145746439, 3, [(2, 1), (3, 1), (47, 1), (2862218959, 1)]⟩,
    ⟨513928823, 5, [(2, 1), (11, 1), (59, 1), (599, 1), (661, 1)]⟩,
    ⟨53448597593, 3, [(2, 3), (13, 1), (513928823, 1)]⟩,
    ⟨1357291859799823621, 2, [(2, 2), (3, 1), (5, 1), (67, 1), (6317, 1), (53448597593, 1)]⟩,
    ⟨105957871, 3, [(2, 1), (3, 1), (5, 1), (19, 1), (211, 1), (881, 1)]⟩,
    ⟨246608641, 19, [(2, 8), (3, 2), (5, 1), (21407, 1)]⟩,
    ⟨529709925838459440593, 3, [(2, 4), (7, 1), (181, 1), (105957871, 1), (246608641, 1)]⟩,
    ⟨6051631, 6, [(2, 1), (3, 1), (5, 1), (13, 1), (59, 1), (263, 1)]⟩,
    ⟨532247449, 7, [(2, 3), (3, 1), (61, 1), (363557, 1)]⟩,
    ⟨44925942675193, 5, [(2, 3), (3, 1), (3517, 1), (532247449, 1)]⟩,
    ⟨35581458644053887931343, 5, [(2, 1), (17, 1), (41, 1), (568151, 1), (44925942675193, 1)]⟩,
    ⟨23964610537191310276190549303, 5, [(2, 1), (336757, 1), (35581458644053887931343, 1)]⟩,
    ⟨862725979338887169942859774909, 2, [(2, 2), (3, 2), (23964610537191310276190549303, 1)]⟩,
    ⟨0x10556D4E5B6AFE30F884B3399B9, 5, [(2, 3), (3, 1), (862725979338887169942859774909, 1)]⟩,
    ⟨0x4BE6AB2C80713E4D5142229BAECFE3ABC0F, 5,
      [(2, 1), (17, 1), (97, 1), (6051631, 1), (0x10556D4E5B6AFE30F884B3399B9, 1)]⟩,
    ⟨0x8E5080F370D454D0F85C00E3E7C5CAE209C3, 2,
      [(2, 1), (3, 1), (5, 1), (0x4BE6AB2C80713E4D5142229BAECFE3ABC0F, 1)]⟩,
    ⟨0x23108C4E1B4108EC0AE7F9AC9F118677A6C53E44FD12FCACC07B805145240AAE82349D3CE0E376778BD1, 3,
      [(2, 4), (11, 3), (8389, 1), (38557, 1), (312289, 1), (1357291859799823621, 1),
       (529709925838459440593, 1), (0x8E5080F370D454D0F85C00E3E7C5CAE209C3, 1)]⟩,
    ⟨secp384r1.prime, 19,
      [(2, 1), (19, 1), (67, 1), (807145746439, 1),
       (0x23108C4E1B4108EC0AE7F9AC9F118677A6C53E44FD12FCACC07B805145240AAE82349D3CE0E376778BD1,
        1)]⟩,
    ⟨154950581, 2, [(2, 2), (5, 1), (17, 1), (455737, 1)]⟩,
    ⟨290064143, 5, [(2, 1), (79, 1), (491, 1), (3739, 1)]⟩,
    ⟨120699720968197491947347, 3,
      [(2, 1), (3, 1), (13, 1), (34429, 1), (154950581, 1), (290064143, 1)]⟩,
    ⟨1124679999981664229965379347, 2, [(2, 1), (3, 1), (1553, 1), (120699720968197491947347, 1)]⟩,
    ⟨1276987, 2, [(2, 1), (3, 1), (29, 1), (41, 1), (179, 1)]⟩,
    ⟨1436833069313, 3, [(2, 8), (16979, 1), (330563, 1)]⟩,
    ⟨8463023, 5, [(2, 1), (113, 1), (37447, 1)]⟩,
    ⟨9863677, 5, [(2, 2), (3, 2), (311, 1), (881, 1)]⟩,
    ⟨37344768852931, 3, [(2, 1), (3, 1), (5, 1), (7, 1), (11, 2), (149, 1), (9863677, 1)]⟩,
    ⟨55942463741690639, 7, [(2, 1), (7, 1), (107, 1), (37344768852931, 1)]⟩,
    ⟨272109983, 5, [(2, 1), (19, 1), (73, 1), (233, 1), (421, 1)]⟩,
    ⟨228572385721, 23, [(2, 3), (3, 1), (5, 1), (7, 1), (272109983, 1)]⟩,
    ⟨23314383343543, 3, [(2, 1), (3, 1), (17, 1), (228572385721, 1)]⟩,
    ⟨426632512014427833817, 11, [(2, 3), (3, 1), (13, 1), (89, 1), (659, 1), (23314383343543, 1)]⟩,
    ⟨1495199339761412565498084319, 6, [(2, 1), (3, 3), (64901, 1), (426632512014427833817, 1)]⟩,
    ⟨17942392077136950785977011829, 6, [(2, 2), (3, 1), (1495199339761412565498084319, 1)]⟩,
    ⟨0xA8C55F664384D6FE203CA16A45D7238CAD2D61237CE2FA5933, 2,
      [(2, 1), (251, 1), (248431, 1), (8463023, 1), (55942463741690639, 1),
       (17942392077136950785977011829, 1)]⟩,
    ⟨0x192A43D8F8A55B860E20C52B200024FBDD5C39850B80BE9FA08E6156D781713C6B252C7, 12,
      [(2, 1), (3, 1), (5, 1), (151, 1), (347, 1), (1276987, 1), (1436833069313, 1),
       (0xA8C55F664384D6FE203CA16A45D7238CAD2D61237CE2FA5933, 1)]⟩,
    ⟨secp384r1.order, 2,
      [(2, 1), (3, 2), (7, 2), (13, 1), (1124679999981664229965379347, 1),
       (0x192A43D8F8A55B860E20C52B200024FBDD5C39850B80BE9FA08E6156D781713C6B252C7, 1)]⟩ ]

/-- The certificates for secp384r1 hold. -/
theorem prime_of_mem_secp384r1Certificates :
    ∀ q ∈ secp384r1Certificates.map PrimeCertificate.number, q.Prime :=
  PrimeCertificate.prime_of_areValid prime_of_mem_knownPrimes (by decide +kernel)

theorem prime_secp384r1 : secp384r1.prime.Prime :=
  prime_of_mem_secp384r1Certificates _ (by decide +kernel)

/-- The base point of secp384r1 generates a group of prime order. -/
theorem isProper_secp384r1 : secp384r1.IsProper where
  prime := prime_secp384r1
  residue := by decide
  order := prime_of_mem_secp384r1Certificates _ (by decide +kernel)
  contains := by decide +kernel
  baseY_ne_zero := by decide
  cycle := by decide +kernel
  prime_le := by decide
  order_le := by decide

end CcnxPacket.Curve
