import Aa2acp.Airplay.Srp

/-!
# The client agrees with an SRP-6a server

An honest server computes its premaster secret from the verifier, without `x`; the client
computes it from `x`, without `b`.  Both are powers of the generator with the same
exponent.  The client reduces `u * x` and `a + u * x` modulo the prime, which is not the
order of the generator, but neither number reaches the prime: `u` and `x` have 512 bits,
`a` has 256 and the prime has 3072.
-/

namespace Aa2acp
namespace Airplay

open Aa2acp.Modular

variable (sha512 : Bytes → Bytes)

/-! ## The server -/

/-- What the server stores for the user, and its secret `b` of this session. -/
structure SrpServer where
  salt : Bytes
  secret : ℕ

namespace SrpServer

def k : ℕ := ofBigEndian (sha512 (bigEndian kGroupBytes kPrime ++ bigEndian kGroupBytes 5))

def x (server : SrpServer) : ℕ :=
  ofBigEndian (sha512 (server.salt ++ sha512 (ascii "Pair-Setup:3939")))

def v (server : SrpServer) : ℕ := 5 ^ server.x sha512 % kPrime

/-- `B` in the 384 bytes of the group. -/
def publicKey (server : SrpServer) : Bytes :=
  bigEndian kGroupBytes ((k sha512 * server.v sha512 + 5 ^ server.secret) % kPrime)

def u (server : SrpServer) (clientKey : Bytes) : ℕ :=
  ofBigEndian (sha512 (clientKey ++ server.publicKey sha512))

/-- The premaster secret for the client's public key. -/
def premaster (server : SrpServer) (clientKey : Bytes) : ℕ :=
  (ofBigEndian clientKey * server.v sha512 ^ server.u sha512 clientKey) ^ server.secret % kPrime

def sessionKey (server : SrpServer) (clientKey : Bytes) : Bytes :=
  sha512 (bigEndian kGroupBytes (server.premaster sha512 clientKey))

/-- The proof that the server expects from the client. -/
def clientProof (server : SrpServer) (clientKey : Bytes) : Bytes :=
  sha512 ((sha512 (bigEndian kGroupBytes kPrime)).zipWith (· ^^^ ·) (sha512 [5]) ++
    sha512 (ascii "Pair-Setup") ++ server.salt ++ clientKey ++ server.publicKey sha512 ++
    server.sessionKey sha512 clientKey)

end SrpServer

/-! ## Sizes -/

theorem two_pow_le_kPrime : 2 ^ (8 * 64 + 8 * 64 + 1) ≤ kPrime := by decide +kernel

theorem kPrime_lt : kPrime < 256 ^ kGroupBytes := by decide +kernel

theorem kPrime_pos : 0 < kPrime := by decide +kernel

/-- What is smaller than the prime is padded to the group's size. -/
theorem padded_of_lt {value : ℕ} (h : value < kPrime) :
    padded value = bigEndian kGroupBytes value := by
  unfold padded
  exact if_pos (h.trans kPrime_lt)

theorem padded_kPrime : padded kPrime = bigEndian kGroupBytes kPrime := if_pos kPrime_lt

theorem padded_kGenerator : padded kGenerator = bigEndian kGroupBytes 5 :=
  padded_of_lt (by decide +kernel)

theorem padded_mod (value : ℕ) :
    padded (value % kPrime) = bigEndian kGroupBytes (value % kPrime) :=
  padded_of_lt (Nat.mod_lt _ kPrime_pos)

theorem ofBigEndian_mod (value : ℕ) :
    ofBigEndian (bigEndian kGroupBytes (value % kPrime)) = value % kPrime :=
  ofBigEndian_bigEndian ((Nat.mod_lt _ kPrime_pos).trans kPrime_lt)

theorem pow_256_eq (size : ℕ) : 256 ^ size = 2 ^ (8 * size) := by
  rw [pow_mul]
  norm_num

theorem lt_two_pow_of_le {a m n : ℕ} (ha : a < 2 ^ m) (h : m ≤ n) : a < 2 ^ n :=
  ha.trans_le (Nat.pow_le_pow_right two_pos h)

theorem mul_lt_two_pow {u x m n : ℕ} (hu : u < 2 ^ m) (hx : x < 2 ^ n) : u * x < 2 ^ (m + n) := by
  rw [pow_add]
  exact Nat.mul_lt_mul'' hu hx

theorem add_lt_two_pow {a c m : ℕ} (ha : a < 2 ^ m) (hc : c < 2 ^ m) : a + c < 2 ^ (m + 1) := by
  rw [pow_succ, mul_two]
  exact Nat.add_lt_add ha hc

/-- An exponent with fewer bits than the prime is not reduced at all. -/
theorem exponent_eq {a u x m : ℕ} (ha : a < 2 ^ (m + m)) (hu : u < 2 ^ m) (hx : x < 2 ^ m)
    (hprime : 2 ^ (m + m + 1) ≤ kPrime) : (a + u * x % kPrime) % kPrime = a + u * x := by
  have hsum : a + u * x < 2 ^ (m + m + 1) := add_lt_two_pow ha (mul_lt_two_pow hu hx)
  -- at most 1025 bits, and the prime has 3072
  have hreach : a + u * x < kPrime := hsum.trans_le hprime
  rw [Nat.mod_eq_of_lt ((Nat.le_add_left _ _).trans_lt hreach), Nat.mod_eq_of_lt hreach]

/-- Both sides raise the generator to the same exponent. -/
theorem premaster_eq (n a b u x : ℕ) :
    (5 ^ b % n) ^ (a + u * x) % n = (5 ^ a % n * (5 ^ x % n) ^ u) ^ b % n := by
  have hclient : (5 ^ b % n) ^ (a + u * x) ≡ 5 ^ (b * (a + u * x)) [MOD n] := by
    rw [pow_mul]
    exact (Nat.mod_modEq _ _).pow _
  have hverifier : (5 ^ x % n) ^ u ≡ 5 ^ (x * u) [MOD n] := by
    rw [pow_mul]
    exact (Nat.mod_modEq _ _).pow _
  have hserver : (5 ^ a % n * (5 ^ x % n) ^ u) ^ b ≡ 5 ^ ((a + x * u) * b) [MOD n] := by
    rw [pow_mul, pow_add]
    exact ((Nat.mod_modEq _ _).mul hverifier).pow _
  -- the exponents are equal, not only congruent
  have hexponent : b * (a + u * x) = (a + x * u) * b := by ring
  rw [hexponent] at hclient
  exact hclient.trans hserver.symm

/-! ## Agreement -/

variable {sha512} {server : SrpServer} {random : Bytes}

open SrpClient

theorem ofBigEndian_sha512_lt (hsha512 : ∀ bytes, (sha512 bytes).length = 64) (bytes : Bytes) :
    ofBigEndian (sha512 bytes) < 2 ^ (8 * 64) := by
  have hlt := ofBigEndian_lt (sha512 bytes)
  rw [hsha512, pow_256_eq] at hlt
  exact hlt

/-- The client and the server know the same password key and the same multiplier. -/
theorem passwordKey_eq : passwordKey sha512 server.salt = server.x sha512 := rfl

theorem multiplier_eq : multiplier sha512 = SrpServer.k sha512 := by
  unfold multiplier SrpServer.k
  rw [padded_kPrime, padded_kGenerator]

theorem verifier_eq : verifier sha512 server.salt = server.v sha512 := powMod_eq _ _ _

/-- Without `k * v` the server's public key is a power of the generator. -/
theorem base_eq : base sha512 server.salt (server.publicKey sha512) = 5 ^ server.secret % kPrime := by
  unfold base
  rw [multiplier_eq, verifier_eq]
  -- `B - k * v` for `B = k * v + 5 ^ b`
  apply subMod_of_modEq
  unfold SrpServer.publicKey
  rw [ofBigEndian_mod]
  exact (Nat.mod_modEq _ _).trans ((Nat.mod_modEq _ _).symm.add_right _)

/-- The premaster secret of the client is the server's. -/
theorem shared_eq (server : SrpServer) (hsha512 : ∀ bytes, (sha512 bytes).length = 64) (hrandom : random.length = 32) :
    shared sha512 (ofBigEndian random) server.salt
        (bigEndian kGroupBytes (5 ^ ofBigEndian random % kPrime)) (server.publicKey sha512) =
      server.premaster sha512 (bigEndian kGroupBytes (5 ^ ofBigEndian random % kPrime)) := by
  have hsecret : ofBigEndian random < 2 ^ (8 * 64 + 8 * 64) := by
    have hlt := ofBigEndian_lt random
    have hbits : 8 * 32 ≤ 8 * 64 + 8 * 64 := by decide
    rw [hrandom, pow_256_eq] at hlt
    exact lt_two_pow_of_le hlt hbits
  set publicKey := bigEndian kGroupBytes (5 ^ ofBigEndian random % kPrime) with hkey
  have hu : scramble sha512 publicKey (server.publicKey sha512) < 2 ^ (8 * 64) :=
    ofBigEndian_sha512_lt hsha512 _
  have hx : server.x sha512 < 2 ^ (8 * 64) := ofBigEndian_sha512_lt hsha512 _
  unfold shared exponent
  rw [powMod_eq, base_eq, passwordKey_eq, exponent_eq hsecret hu hx two_pow_le_kPrime,
    premaster_eq]
  unfold SrpServer.premaster
  rw [hkey, ofBigEndian_mod]
  rfl

/-- The checks that `process_challenge` makes leave one outcome. -/
theorem processChallenge_eq_true {salt serverPublicKey : Bytes}
    (h : (processChallenge sha512 (some random) salt serverPublicKey).1 = true) :
    let publicKey := padded (powMod kGenerator (ofBigEndian random) kPrime)
    let sessionKey :=
      sha512 (padded (shared sha512 (ofBigEndian random) salt publicKey serverPublicKey))
    (processChallenge sha512 (some random) salt serverPublicKey).2 =
      ⟨publicKey, proof sha512 salt publicKey serverPublicKey sessionKey, sessionKey⟩ := by
  unfold processChallenge at h ⊢
  split at h
  · cases h
  rename_i hsizes
  rw [if_neg hsizes]
  split at h
  · cases h
  rename_i hrange
  rw [if_neg hrange]
  split at h
  · cases h
  rename_i hzero
  rw [if_neg hzero]
  dsimp only at h ⊢
  split at h
  · cases h
  rename_i hscramble
  rw [if_neg hscramble]
  split at h
  · cases h
  rename_i hbase
  rw [if_neg hbase]

/-- A client that does not reject an honest server's challenge computes the server's
premaster secret, and with it the session key and the proof that the server expects; it
accepts one answer, the hash of its public key, its proof and the session key. -/
theorem srp_agreement (hsha512 : ∀ bytes, (sha512 bytes).length = 64) (server : SrpServer)
    (random : Bytes) (hrandom : random.length = 32)
    (haccepts : (processChallenge sha512 (some random) server.salt (server.publicKey sha512)).1 =
      true) :
    let client := (processChallenge sha512 (some random) server.salt (server.publicKey sha512)).2
    client.publicKey = bigEndian kGroupBytes (5 ^ ofBigEndian random % kPrime) ∧
      shared sha512 (ofBigEndian random) server.salt client.publicKey (server.publicKey sha512) =
        server.premaster sha512 client.publicKey ∧
      client.sessionKey = server.sessionKey sha512 client.publicKey ∧
      client.clientProof = server.clientProof sha512 client.publicKey ∧
      ∀ serverProof, client.verifyServer sha512 serverProof = true ↔
        serverProof = sha512 (client.publicKey ++ client.clientProof ++ client.sessionKey) := by
  intro client
  have hclient : client = _ := processChallenge_eq_true haccepts
  have hkey : padded (powMod kGenerator (ofBigEndian random) kPrime) =
      bigEndian kGroupBytes (5 ^ ofBigEndian random % kPrime) := by
    rw [powMod_eq, padded_mod]
    rfl
  have hshared := shared_eq server hsha512 hrandom
  rw [hkey] at hclient
  have hpublicKey : client.publicKey = bigEndian kGroupBytes (5 ^ ofBigEndian random % kPrime) := by
    rw [hclient]
  have hsessionKey : client.sessionKey = server.sessionKey sha512 client.publicKey := by
    rw [hpublicKey, hclient]
    dsimp only
    rw [hshared]
    exact congrArg sha512 (padded_mod _)
  have hproof : client.clientProof = server.clientProof sha512 client.publicKey := by
    have hsession := hsessionKey
    rw [hpublicKey, hclient] at hsession ⊢
    dsimp only at hsession ⊢
    rw [hsession]
    unfold proof xorHash SrpServer.clientProof
    rw [padded_kPrime]
    rfl
  refine ⟨hpublicKey, ?_, hsessionKey, hproof, ?_⟩
  · rw [hpublicKey]
    exact hshared
  · intro serverProof
    -- `verify_server` refuses a client that has not processed a challenge
    have hne (bytes : Bytes) : sha512 bytes ≠ [] := List.ne_nil_of_length_pos (by
      rw [hsha512]
      decide)
    have hstored : ¬ (client.publicKey = [] ∨ client.clientProof = [] ∨ client.sessionKey = []) := by
      rw [not_or, not_or]
      refine ⟨?_, ?_, ?_⟩
      · rw [hpublicKey]
        apply List.ne_nil_of_length_pos
        rw [length_bigEndian]
        decide
      · rw [hproof]
        exact hne _
      · rw [hsessionKey]
        exact hne _
    unfold verifyServer
    rw [if_neg hstored, decide_eq_true_iff]

/-! ## A session with known digests -/

/-- The digests of one session, each with what is hashed: `x`, the client's key 5 ^ 3 and
the server's secret 2 determine the rest. -/
def sessionDigests : List (Bytes × ℕ) :=
  let x := 0xaa7038e03e3beb22ea9d990a0dc1b3b9e301a4dea07fe38a5142e6b02a99cd11 * 2 ^ 256 +
    0x970fed25c51e661c5e0d7aa3fb591b41e69d46b69d1d67cdc6baaf5ece8d92ca
  let k := 0xa9c2e2559bf0ebb53f0cbbf62282906bede7f2182f00678211fbd5bde5b28503 * 2 ^ 256 +
    0x3a4993503b87397f9be5ec02080fedbc0835587ad039060879b8621e8c3659e0
  let u := 0x5ae62720de8077315a72ee6fcd2d42908ff6199e6cb3521b8ccbe6886f8c2922 * 2 ^ 256 +
    0x29f95e976e1b7ed2d6bd41516c76f2e386a99ed11519e693b1303740842259c7
  let salt := (List.range 16).map fun index => UInt8.ofNat (index + 1)
  let userDigest := 0xeb0bce4719983af45ea8ea86b5cd992e6ebc4c53d202ef79ffb8ab635a12b9ea * 2 ^ 256 +
    0x7f6541add8703f014ebe26d8aabb1131036761e8b5f52bfed62080e7149c0345
  let clientKey := bigEndian 384 125
  let serverKey := bigEndian 384 ((k * powMod 5 x kPrime + 25) % kPrime)
  let sessionDigest := 0x22677bbc12095a9e94d80d4edefebc6b0a953d365eb26c5a27110109404aed5f * 2 ^ 256 +
    0x3e74de98cc7bdb78c6805363cbc77933b45f627be2c5e80b1675410604963805
  let primeDigest := 0xba8900b220aed4bbaaaaa9c6e3afe0f5d4e2ba69d364dc910d9eb00b5891a5f4 * 2 ^ 256 +
    0x2551427fb8f570a9d14bd13ea1c869ca8587e0181b1fc1496efeb934cb1e7c46
  let generatorDigest := 0x095f3e448a55fa2c3c7049c01dcf12fb87c44477cf367993132ca74c92a27a1e * 2 ^ 256 +
    0xaaa341c2fd5724ea449cec2728547e80edbb7e6029891c5ffd157e283ebb41e5
  let usernameDigest := 0xcd3fa890ac891aa9a9d23346f1e4f698b01240ad810cf029d5d57fc79f1b1fc4 * 2 ^ 256 +
    0xe2c40862dfb3828ed2c58aa80f678a45a7f4d78b9c4ac33fdc5546f2a10430b3
  let proofDigest := 0x44a1bcc26191399a8735ed5ecc1e2dfa43bcca9c959bf870f00574773eb96735 * 2 ^ 256 +
    0x8028abfcc1236283fbe30bb01cfdb8813ba07ab2af5dfb5c35858a5c5a0e2de6
  let serverDigest := 0xdd560c06a923cad4c7a41d7b46362e96e9c32f4b58887455ff2742dfe66f6c26 * 2 ^ 256 +
    0xfaee3425b9fbf3723485473037f4a5d104fded77fd2c488fc7deafa14844ce20
  [(bigEndian 384 kPrime ++ bigEndian 384 5, k), (ascii "Pair-Setup:3939", userDigest),
    (salt ++ bigEndian 64 userDigest, x), (clientKey ++ serverKey, u),
    (bigEndian 384 (powMod 25 (3 + u * x) kPrime), sessionDigest),
    (bigEndian 384 kPrime, primeDigest), ([5], generatorDigest),
    (ascii "Pair-Setup", usernameDigest),
    ((bigEndian 64 primeDigest).zipWith (· ^^^ ·) (bigEndian 64 generatorDigest) ++
      bigEndian 64 usernameDigest ++ salt ++ clientKey ++ serverKey ++ bigEndian 64 sessionDigest,
      proofDigest),
    (clientKey ++ bigEndian 64 proofDigest ++ bigEndian 64 sessionDigest, serverDigest)]

/-- The hash as far as these digests show it. -/
def sessionSha512 (bytes : Bytes) : Bytes :=
  bigEndian 64 (((sessionDigests.find? fun digest => digest.1 = bytes).map Prod.snd).getD 0)

def sessionServer : SrpServer := ⟨(List.range 16).map fun index => UInt8.ofNat (index + 1), 2⟩

/-- The server's public key with the powers computed by squaring. -/
theorem publicKey_eq_powMod : server.publicKey sha512 =
    bigEndian kGroupBytes ((SrpServer.k sha512 * powMod 5 (server.x sha512) kPrime +
      powMod 5 server.secret kPrime) % kPrime) := by
  unfold SrpServer.publicKey SrpServer.v
  rw [powMod_eq, powMod_eq, Nat.add_mod_mod]

theorem srp_agreement_session :
    (processChallenge sessionSha512 (some (bigEndian 32 3)) sessionServer.salt
      (sessionServer.publicKey sessionSha512)).1 = true ∧
    (processChallenge sessionSha512 (some (bigEndian 32 3)) sessionServer.salt
      (sessionServer.publicKey sessionSha512)).2.sessionKey =
        sessionServer.sessionKey sessionSha512 (processChallenge sessionSha512
          (some (bigEndian 32 3)) sessionServer.salt
            (sessionServer.publicKey sessionSha512)).2.publicKey := by
  have haccepts : (processChallenge sessionSha512 (some (bigEndian 32 3)) sessionServer.salt
      (sessionServer.publicKey sessionSha512)).1 = true := by
    rw [publicKey_eq_powMod]
    decide +kernel
  have hsha512 (bytes : Bytes) : (sessionSha512 bytes).length = 64 := length_bigEndian _ _
  exact ⟨haccepts, (srp_agreement hsha512 sessionServer (bigEndian 32 3) (length_bigEndian _ _)
    haccepts).2.2.1⟩

end Airplay
end Aa2acp
