import Aa2acp.Lib.Bytes
import Aa2acp.Lib.Modular

/-!
# The SRP client of Pair-Setup

`SrpClient` of `airplay/srp.cpp`.  SHA-512 is a parameter, applied to the concatenation of
the parts that the source hashes; big numbers are natural numbers, and OpenSSL is taken not
to run out of memory.
-/

namespace Aa2acp
namespace Airplay

open Aa2acp.Modular

def kGroupBytes : ℕ := 384

/-- The lines of the prime's hexadecimal digits, each with the number of its digits. -/
def kPrimeHex : List (ℕ × ℕ) :=
  [(64, 0xFFFFFFFFFFFFFFFFC90FDAA22168C234C4C6628B80DC1CD129024E088A67CC74),
    (64, 0x020BBEA63B139B22514A08798E3404DDEF9519B3CD3A431B302B0A6DF25F1437),
    (64, 0x4FE1356D6D51C245E485B576625E7EC6F44C42E9A637ED6B0BFF5CB6F406B7ED),
    (64, 0xEE386BFB5A899FA5AE9F24117C4B1FE649286651ECE45B3DC2007CB8A163BF05),
    (64, 0x98DA48361C55D39A69163FA8FD24CF5F83655D23DCA3AD961C62F356208552BB),
    (64, 0x9ED529077096966D670C354E4ABC9804F1746C08CA18217C32905E462E36CE3B),
    (65, 0xE39E772C180E86039B2783A2EC07A28FB5C55DF06F4C52C9DE2BCBF6955817183),
    (64, 0x995497CEA956AE515D2261898FA051015728E5A8AAAC42DAD33170D04507A33A),
    (65, 0x85521ABDF1CBA64ECFB850458DBEF0A8AEA71575D060C7DB3970F85A6E1E4C7AB),
    (64, 0xF5AE8CDB0933D71E8C94E04A25619DCEE3D2261AD2EE6BF12FFA06D98A0864D8),
    (64, 0x7602733EC86A64521F2B18177B200CBBE117577A615D6C770988C0BAD946E208),
    (62, 0xE24FA074E5AB3143DB5BFCE0FD108E4B82D120A93AD2CAFFFFFFFFFFFFFFFF)]

def kPrime : ℕ := kPrimeHex.foldl (fun value row => value * 16 ^ row.1 + row.2) 0

def kGenerator : ℕ := 5

/-- A number in as many bytes as the group has; no bytes for one that does not fit. -/
def padded (value : ℕ) : Bytes :=
  if value < 256 ^ kGroupBytes then bigEndian kGroupBytes value else []

structure SrpClient where
  publicKey : Bytes := []
  clientProof : Bytes := []
  sessionKey : Bytes := []
deriving DecidableEq

namespace SrpClient

variable (sha512 : Bytes → Bytes)

def username : Bytes := ascii "Pair-Setup"
def password : Bytes := ascii "3939"

/-- `k` of SRP-6a. -/
def multiplier : ℕ := ofBigEndian (sha512 (padded kPrime ++ padded kGenerator))

/-- `x` of SRP-6a. -/
def passwordKey (salt : Bytes) : ℕ :=
  ofBigEndian (sha512 (salt ++ sha512 (username ++ ascii ":" ++ password)))

def verifier (salt : Bytes) : ℕ := powMod kGenerator (passwordKey sha512 salt) kPrime

/-- `u` of SRP-6a. -/
def scramble (publicKey serverPublicKey : Bytes) : ℕ :=
  ofBigEndian (sha512 (publicKey ++ serverPublicKey))

/-- What the shared secret is a power of. -/
def base (salt serverPublicKey : Bytes) : ℕ :=
  subMod (ofBigEndian serverPublicKey) (multiplier sha512 * verifier sha512 salt % kPrime) kPrime

/-- The exponent of the shared secret, reduced modulo the prime. -/
def exponent (privateKey : ℕ) (salt publicKey serverPublicKey : Bytes) : ℕ :=
  (privateKey + scramble sha512 publicKey serverPublicKey * passwordKey sha512 salt % kPrime) % kPrime

def shared (privateKey : ℕ) (salt publicKey serverPublicKey : Bytes) : ℕ :=
  powMod (base sha512 salt serverPublicKey)
    (exponent sha512 privateKey salt publicKey serverPublicKey) kPrime

/-- The two hashes of the group combined byte by byte. -/
def xorHash : Bytes :=
  (sha512 (padded kPrime)).zipWith (· ^^^ ·) (sha512 [5])

def proof (salt publicKey serverPublicKey sessionKey : Bytes) : Bytes :=
  sha512 (xorHash sha512 ++ sha512 username ++ salt ++ publicKey ++ serverPublicKey ++ sessionKey)

/-- `process_challenge`; `privateRandom` is what `RAND_bytes` returned, if it succeeded. -/
def processChallenge (privateRandom : Option Bytes) (salt serverPublicKey : Bytes) :
    Bool × SrpClient :=
  if salt = [] ∨ serverPublicKey.length ≠ kGroupBytes then (false, {})
  else if ofBigEndian serverPublicKey ≥ kPrime then (false, {})
  else if ofBigEndian serverPublicKey % kPrime = 0 then (false, {})
  else
    match privateRandom with
    | none => (false, {})
    | some random =>
        let privateKey := ofBigEndian random
        let publicKey := padded (powMod kGenerator privateKey kPrime)
        if scramble sha512 publicKey serverPublicKey = 0 then (false, { publicKey := publicKey })
        else if base sha512 salt serverPublicKey = 0 then (false, { publicKey := publicKey })
        else
          let sessionKey := sha512 (padded (shared sha512 privateKey salt publicKey serverPublicKey))
          let clientProof := proof sha512 salt publicKey serverPublicKey sessionKey
          (decide (clientProof.length = 64), ⟨publicKey, clientProof, sessionKey⟩)

def verifyServer (client : SrpClient) (serverProof : Bytes) : Bool :=
  if client.publicKey = [] ∨ client.clientProof = [] ∨ client.sessionKey = [] then false
  else serverProof = sha512 (client.publicKey ++ client.clientProof ++ client.sessionKey)

end SrpClient
end Airplay
end Aa2acp
