import Aa2acp.Airplay.Bplist
import Aa2acp.Airplay.SendEncrypted
import Aa2acp.Airplay.Srp
import Aa2acp.Lib.Recorded

/-!
# Pairing and the first control request

`run_session` of `airplay/session.cpp` from the connection to the answer of the first
encrypted control request: Pair-Setup unless a record was stored, Pair-Verify, and `/info`.
Every stage is a computation that records what it sends and receives and each check it
makes, and ends early where the source returns 1.

The cryptographic functions are parameters, and so is everything that lies outside: it may
depend on the whole history.  What follows `/info` is left out; it sends further requests
over the same cipher and stores no pairing.
-/

namespace Aa2acp
namespace Airplay

open Text

/-- `Ed25519` and `X25519`. -/
structure KeyPair where
  privateKey : Bytes := []
  publicKey : Bytes := []
deriving DecidableEq

structure PairingRecord where
  controllerId : Bytes := []
  controller : KeyPair := {}
  accessoryPublicKey : Bytes := []
deriving DecidableEq

structure SessionOptions where
  pairingStore : Bytes

inductive SessionEvent where
  /-- `send_all` was called. -/
  | sent (bytes : Bytes) (accepted : Bool)
  /-- The bytes of a response when its loop ended. -/
  | received (bytes : Bytes)
  /-- `process_challenge` was called. -/
  | challengeProcessed (srp : SrpClient) (accepted : Bool)
  /-- `verify_server` was called. -/
  | serverProofChecked (srp : SrpClient) (serverProof : Bytes) (verified : Bool)
  /-- `open` was called. -/
  | opened (key label ciphertext : Bytes) (plaintext : Option Bytes)
  /-- `ed25519_verify` was called. -/
  | signatureChecked (publicKey data signature : Bytes) (verified : Bool)
  /-- `x25519_generate` was called. -/
  | ephemeralGenerated (ephemeral : Option KeyPair)
  /-- `save_pairing_record` was called. -/
  | pairingSaved (pairing : PairingRecord)
  /-- `send_encrypted` was called. -/
  | controlRequest (control : ControlCipher) (plaintext : Bytes)
deriving DecidableEq

/-- The cryptographic functions, and what the environment does after a history. -/
structure SessionEnv where
  aead : Aead
  sha512 : Bytes → Bytes
  hkdfSha512 : Bytes → Bytes → Bytes → ℕ → Bytes
  ed25519Sign : Bytes → Bytes → Option Bytes
  ed25519Verify : Bytes → Bytes → Bytes → Bool
  /-- `EVP_PKEY_derive` for a private and a public key. -/
  x25519Derive : Bytes → Bytes → Option Bytes
  connected : Bool
  loadPairingRecord : Bytes → Option PairingRecord
  savePairingRecord : List SessionEvent → Bytes → PairingRecord → Bool
  sendAll : List SessionEvent → Bytes → Bool
  /-- The turns of a loop that reads the connection, up to its deadline. -/
  polls : List SessionEvent → List Poll
  /-- `RAND_bytes`. -/
  randomBytes : List SessionEvent → ℕ → Option Bytes
  ed25519Generate : List SessionEvent → Option KeyPair
  x25519Generate : List SessionEvent → Option KeyPair
  /-- Seconds since the epoch of the headers, when those of Pair-Setup are made. -/
  setupTime : ℤ
  /-- The same for Pair-Verify. -/
  verifyTime : ℤ

/-! ## Cryptographic functions -/

/-- Four zero bytes and up to eight of the label, filled up with zeros. -/
def nonceForLabel (label : Bytes) : Bytes :=
  List.replicate 4 (0 : UInt8) ++ label.take 8 ++ List.replicate (8 - label.length) (0 : UInt8)

namespace Aead

/-- `seal`. -/
def sealLabel (aead : Aead) (key label plaintext : Bytes) : Option Bytes :=
  aead.sealWithNonce key (nonceForLabel label) plaintext []

/-- `open`. -/
def openLabel (aead : Aead) (key label ciphertext : Bytes) : Option Bytes :=
  aead.openWithNonce key (nonceForLabel label) ciphertext []

end Aead

/-- `x25519_shared`: a secret of zeros is refused. -/
def x25519Shared (env : SessionEnv) (privateKey publicKey : Bytes) : Option Bytes :=
  match env.x25519Derive privateKey publicKey with
  | none => none
  | some shared => if shared.all (· = 0) then none else some shared

/-- `fields.find(type)`. -/
def findField (fields : List (UInt8 × Bytes)) (type : UInt8) : Option Bytes :=
  (fields.find? fun field => field.1 = type).map Prod.snd

def hexDigit (value : UInt8) : UInt8 := if value < 10 then 0x30 + value else 0x37 + value

/-- The random bytes of an identifier as a version 4 UUID. -/
def randomControllerId (random : Option Bytes) : Option Bytes :=
  random.map fun bytes =>
    let bytes := bytes.modify 6 fun byte => (byte &&& 0x0F) ||| 0x40
    let bytes := bytes.modify 8 fun byte => (byte &&& 0x3F) ||| 0x80
    (bytes.zipIdx.map fun (byte, index) =>
      (if index = 4 ∨ index = 6 ∨ index = 8 ∨ index = 10 then ascii "-" else []) ++
        [hexDigit (byte >>> 4), hexDigit (byte &&& 0x0F)]).flatten

/-! ## Requests and responses -/

def pairingHeaders (absoluteTime : ℤ) (hkp : ℤ) : List (Bytes × Bytes) :=
  [(ascii "X-Apple-AbsoluteTime", decimal absoluteTime), (ascii "X-Apple-HKP", decimal hkp),
    (ascii "X-Apple-Client-Name", ascii "User"), (ascii "User-Agent", ascii "AirPlay/950.7.1")] ++
    (if hkp = 2 then [(ascii "X-Apple-PD", ascii "1")] else [])

def pairingRequest (path : Bytes) (cseq : ℤ) (headers : List (Bytes × Bytes))
    (fields : List (UInt8 × Bytes)) : Bytes :=
  encodeRequest (ascii "POST") path cseq (encodeTlv8 fields) (ascii "application/pairing+tlv8") headers

def appendLimited (target bytes : Bytes) (limit : ℕ) : Option Bytes :=
  if target.length > limit ∨ bytes.length > limit - target.length then none
  else some (target ++ bytes)

/-- The loop that waits for a response, up to its end; no value when the session ends because
of it. -/
def receiveResponse : Bytes → List Poll → Option Bytes
  | responseBytes, [] => some responseBytes
  | responseBytes, poll :: polls =>
      if (completeResponseSize responseBytes).isSome then some responseBytes
      else
        match poll with
        | .nothing => receiveResponse responseBytes polls
        | .failed => some responseBytes
        | .received bytes =>
            match appendLimited responseBytes bytes maxResponseBytes with
            | none => none
            | some responseBytes => receiveResponse responseBytes polls

namespace SessionEnv

variable (env : SessionEnv)

open Recorded

/-- A request is sent and its response awaited, which must have status 200. -/
def exchange (request : Bytes) : Recorded SessionEvent Response := do
  let accepted ← ask fun history => env.sendAll history request
  record (.sent request accepted)
  require (accepted = true)
  let polls ← ask env.polls
  let responseBytes ← ofOption (receiveResponse [] polls)
  record (.received responseBytes)
  let response ← ofOption (parseResponse responseBytes)
  require (response.status = 200)
  pure response

/-- `open`, if the field is there. -/
def openField (key label : Bytes) : Option Bytes → Recorded SessionEvent (Option Bytes)
  | none => pure none
  | some ciphertext => do
      let plaintext := env.aead.openLabel key label ciphertext
      record (.opened key label ciphertext plaintext)
      pure plaintext

/-- `ed25519_verify`, which must succeed. -/
def requireSignature (publicKey data signature : Bytes) : Recorded SessionEvent Unit := do
  let verified := env.ed25519Verify publicKey data signature
  record (.signatureChecked publicKey data signature verified)
  require (verified = true)

/-! ## Pair-Setup -/

/-- M1 to M4: both sides prove that they know the password. -/
def pairSetupProof (headers : List (Bytes × Bytes)) : Recorded SessionEvent SrpClient := do
  let m2 ← env.exchange (pairingRequest (ascii "/pair-setup") 1 headers [(0x06, [1]), (0x00, [0])])
  let fields := decodeTlv8 m2.body
  require (findField fields 0x06 = some [2])
  let salt ← ofOption (findField fields 0x02)
  let publicKey ← ofOption (findField fields 0x03)
  let random ← ask fun history => env.randomBytes history 32
  let challenge := SrpClient.processChallenge env.sha512 random salt publicKey
  record (.challengeProcessed challenge.2 challenge.1)
  -- the session ends with a challenge that was rejected
  require (challenge.1 = true)
  let srp := challenge.2
  let m4 ← env.exchange (pairingRequest (ascii "/pair-setup") 2 headers
    [(0x06, [3]), (0x03, srp.publicKey), (0x04, srp.clientProof)])
  let fields := decodeTlv8 m4.body
  require (findField fields 0x06 = some [4])
  let serverProof ← ofOption (findField fields 0x04)
  let verified := srp.verifyServer env.sha512 serverProof
  record (.serverProofChecked srp serverProof verified)
  require (verified = true)
  pure srp

/-- The key of M5 and M6. -/
def setupKey (srp : SrpClient) : Bytes :=
  env.hkdfSha512 srp.sessionKey (ascii "Pair-Setup-Encrypt-Salt") (ascii "Pair-Setup-Encrypt-Info") 32

def controllerSignKey (srp : SrpClient) : Bytes :=
  env.hkdfSha512 srp.sessionKey (ascii "Pair-Setup-Controller-Sign-Salt")
    (ascii "Pair-Setup-Controller-Sign-Info") 32

def accessorySignKey (srp : SrpClient) : Bytes :=
  env.hkdfSha512 srp.sessionKey (ascii "Pair-Setup-Accessory-Sign-Salt")
    (ascii "Pair-Setup-Accessory-Sign-Info") 32

/-- M5 and M6: the long-term keys are exchanged. -/
def pairSetupIdentity (headers : List (Bytes × Bytes)) (srp : SrpClient) :
    Recorded SessionEvent PairingRecord := do
  let encryptionKey := env.setupKey srp
  let generated ← ask env.ed25519Generate
  let random ← ask fun history => env.randomBytes history 16
  -- HKDF returns no bytes when it fails
  require (encryptionKey.length = 32)
  let controller ← ofOption generated
  let controllerId ← ofOption (randomControllerId random)
  let signKey := env.controllerSignKey srp
  let signature ← ofOption (env.ed25519Sign controller.privateKey
    (signKey ++ controllerId ++ controller.publicKey))
  require (signKey.length = 32)
  let inner := encodeTlv8 [(0x01, controllerId), (0x03, controller.publicKey), (0x0a, signature)]
  let encrypted ← ofOption (env.aead.sealLabel encryptionKey (ascii "PS-Msg05") inner)
  let m6 ← env.exchange (pairingRequest (ascii "/pair-setup") 3 headers
    [(0x06, [5]), (0x05, encrypted)])
  let fields := decodeTlv8 m6.body
  -- the payload is opened before the state is looked at
  let decrypted ← env.openField encryptionKey (ascii "PS-Msg06") (findField fields 0x05)
  require (findField fields 0x06 = some [6])
  let plaintext ← ofOption decrypted
  let accessory := decodeTlv8 plaintext
  let accessoryId ← ofOption (findField accessory 0x01)
  let accessoryKey ← ofOption (findField accessory 0x03)
  let accessorySignature ← ofOption (findField accessory 0x0a)
  let signKey := env.accessorySignKey srp
  require (signKey.length = 32)
  env.requireSignature accessoryKey (signKey ++ accessoryId ++ accessoryKey) accessorySignature
  pure ⟨controllerId, controller, accessoryKey⟩

/-- The record in the store, if there is one. -/
def storedPairing (options : SessionOptions) : PairingRecord :=
  (if options.pairingStore ≠ [] then env.loadPairingRecord options.pairingStore else none).getD {}

/-- A new record is saved, if there is a store. -/
def storePairing (options : SessionOptions) (pairing : PairingRecord) : Recorded SessionEvent Unit :=
  if options.pairingStore ≠ [] then do
    record (.pairingSaved pairing)
    let saved ← ask fun history => env.savePairingRecord history options.pairingStore pairing
    require (saved = true)
  else pure ()

/-- The record that was stored, if it holds a key, or the one of a Pair-Setup. -/
def establishPairing (options : SessionOptions) : Recorded SessionEvent PairingRecord :=
  let stored := env.storedPairing options
  -- a record without a private key counts as none
  if stored.controller.privateKey = [] then do
    let headers := pairingHeaders env.setupTime 0
    let srp ← env.pairSetupProof headers
    let pairing ← env.pairSetupIdentity headers srp
    env.storePairing options pairing
    pure pairing
  else pure stored

/-! ## Pair-Verify -/

/-- The key of M2 and M3. -/
def verifyKey (shared : Bytes) : Bytes :=
  env.hkdfSha512 shared (ascii "Pair-Verify-Encrypt-Salt") (ascii "Pair-Verify-Encrypt-Info") 32

/-- The cipher of the control connection. -/
def controlCipher (shared : Bytes) : ControlCipher where
  readKey := env.hkdfSha512 shared (ascii "Control-Salt") (ascii "Control-Read-Encryption-Key") 32
  writeKey := env.hkdfSha512 shared (ascii "Control-Salt") (ascii "Control-Write-Encryption-Key") 32

/-- M1 and M2: the accessory proves that it has its long-term key. -/
def pairVerifyAccessory (headers : List (Bytes × Bytes)) (pairing : PairingRecord)
    (ephemeral : KeyPair) : Recorded SessionEvent (Bytes × Bytes) := do
  let m2 ← env.exchange (pairingRequest (ascii "/pair-verify") 4 headers
    [(0x06, [1]), (0x03, ephemeral.publicKey)])
  let fields := decodeTlv8 m2.body
  let peerEphemeral := findField fields 0x03
  let shared := peerEphemeral.bind fun peer => x25519Shared env ephemeral.privateKey peer
  -- without a shared secret there is no key, and nothing opens
  let verifyKey := (shared.map env.verifyKey).getD []
  let decrypted ← env.openField verifyKey (ascii "PV-Msg02") (findField fields 0x05)
  require (findField fields 0x06 = some [2])
  let shared ← ofOption shared
  require (verifyKey.length = 32)
  let plaintext ← ofOption decrypted
  let identity := decodeTlv8 plaintext
  let accessoryId ← ofOption (findField identity 0x01)
  let accessorySignature ← ofOption (findField identity 0x0a)
  let peer ← ofOption peerEphemeral
  -- under the key of the pairing, not one from this message
  env.requireSignature pairing.accessoryPublicKey (peer ++ accessoryId ++ ephemeral.publicKey)
    accessorySignature
  pure (peer, shared)

/-- M3 and M4: this side does the same. -/
def pairVerifyController (headers : List (Bytes × Bytes)) (pairing : PairingRecord)
    (ephemeral : KeyPair) (peer shared : Bytes) : Recorded SessionEvent Unit := do
  let signature ← ofOption (env.ed25519Sign pairing.controller.privateKey
    (ephemeral.publicKey ++ pairing.controllerId ++ peer))
  let inner := encodeTlv8 [(0x01, pairing.controllerId), (0x0a, signature)]
  let encrypted ← ofOption (env.aead.sealLabel (env.verifyKey shared) (ascii "PV-Msg03") inner)
  let m4 ← env.exchange (pairingRequest (ascii "/pair-verify") 5 headers
    [(0x06, [3]), (0x05, encrypted)])
  require (findField (decodeTlv8 m4.body) 0x06 = some [4])

def pairVerify (pairing : PairingRecord) : Recorded SessionEvent ControlCipher := do
  let headers := pairingHeaders env.verifyTime 2
  let generated ← ask env.x25519Generate
  record (.ephemeralGenerated generated)
  let ephemeral ← ofOption generated
  let verified ← env.pairVerifyAccessory headers pairing ephemeral
  env.pairVerifyController headers pairing ephemeral verified.1 verified.2
  let control := env.controlCipher verified.2
  require (control.writeKey.length = 32 ∧ control.readKey.length = 32)
  pure control

/-! ## The session -/

/-- The body of `/info`; its keys are in the order of a `std::map`. -/
def infoBody (pairing : PairingRecord) : Bytes :=
  encodeBplist (.dictionary [(ascii "deviceID", .string pairing.controllerId),
    (ascii "manufacturer", .string (ascii "AA2ACP")), (ascii "model", .string (ascii "RaspberryPi")),
    (ascii "name", .string (ascii "AA2ACP")), (ascii "osVersion", .string (ascii "0.1"))])

/-- The first encrypted request, and the dictionary of its answer. -/
def requestInfo (pairing : PairingRecord) (control : ControlCipher) :
    Recorded SessionEvent (List (Bytes × PlistValue)) := do
  let request := encodeRequest (ascii "POST") (ascii "/info") 6 (infoBody pairing)
    (ascii "application/x-apple-binary-plist") []
  -- the keys are in use from here on
  record (.controlRequest control request)
  let sendAll ← ask env.sendAll
  let polls ← ask env.polls
  match (sendEncrypted env.aead sendAll control [] request (some 6) polls).1 with
  | .found response => do
      require (response.status = 200)
      match decodeBplist response.body with
      | some (.dictionary info) => pure info
      | _ => fail
  | _ => fail

def runSession (options : SessionOptions) : Recorded SessionEvent (List (Bytes × PlistValue)) := do
  require (env.connected = true)
  let pairing ← env.establishPairing options
  let control ← env.pairVerify pairing
  env.requestInfo pairing control

end SessionEnv
end Airplay
end Aa2acp
