import Aa2acp.Airplay.Session

/-!
# No session without authentication

Whatever the accessory sends, whatever is random and whatever was stored: a pairing is
saved only after Pair-Setup has authenticated the key it holds (`SetUp`), and the first
control request is made only after Pair-Verify has authenticated that key's owner
(`PeerVerified`).  Both are statements about the history before the event, and every check
in them is one that was made there.
-/

namespace Aa2acp
namespace Airplay

open Recorded

/-! ## What was checked -/

/-- A response with status 200 and this state was received, with these fields. -/
def Answered (history : List SessionEvent) (state : UInt8) (fields : List (UInt8 × Bytes)) : Prop :=
  ∃ bytes response, .received bytes ∈ history ∧ parseResponse bytes = some response ∧
    response.status = 200 ∧ fields = decodeTlv8 response.body ∧ findField fields 0x06 = some [state]

/-- A field was opened with this key. -/
def OpenedField (env : SessionEnv) (history : List SessionEvent) (key label : Bytes)
    (fields : List (UInt8 × Bytes)) (plaintext : Bytes) : Prop :=
  ∃ ciphertext, findField fields 0x05 = some ciphertext ∧
    env.aead.openLabel key label ciphertext = some plaintext ∧
      .opened key label ciphertext (some plaintext) ∈ history

/-- A signature was verified under this key. -/
def SignatureVerified (env : SessionEnv) (history : List SessionEvent)
    (publicKey data signature : Bytes) : Prop :=
  env.ed25519Verify publicKey data signature = true ∧
    .signatureChecked publicKey data signature true ∈ history

/-- The server proof of M4 was verified, for the session that the challenge of M2 began. -/
def ServerProved (env : SessionEnv) (history : List SessionEvent) (srp : SrpClient) : Prop :=
  ∃ m2 m4 salt publicKey random serverProof, Answered history 2 m2 ∧ Answered history 4 m4 ∧
    findField m2 0x02 = some salt ∧ findField m2 0x03 = some publicKey ∧
    SrpClient.processChallenge env.sha512 random salt publicKey = (true, srp) ∧
    findField m4 0x04 = some serverProof ∧ srp.verifyServer env.sha512 serverProof = true ∧
      .serverProofChecked srp serverProof true ∈ history

/-- The payload of M6 was opened under the key of this SRP session, and the accessory key in it
verifies the signature over the signing key of the session, the identifier and itself. -/
def AccessoryIdentified (env : SessionEnv) (history : List SessionEvent) (srp : SrpClient)
    (accessoryKey : Bytes) : Prop :=
  ∃ m6 plaintext accessoryId signature, Answered history 6 m6 ∧
    OpenedField env history (env.setupKey srp) (ascii "PS-Msg06") m6 plaintext ∧
    findField (decodeTlv8 plaintext) 0x01 = some accessoryId ∧
    findField (decodeTlv8 plaintext) 0x03 = some accessoryKey ∧
    findField (decodeTlv8 plaintext) 0x0a = some signature ∧
      SignatureVerified env history accessoryKey
        (env.accessorySignKey srp ++ accessoryId ++ accessoryKey) signature

/-- A Pair-Setup authenticated this accessory key: first the proof, then the identity. -/
def SetUp (env : SessionEnv) (history : List SessionEvent) (accessoryKey : Bytes) : Prop :=
  ∃ srp first second, history = first ++ second ∧ ServerProved env first srp ∧
    AccessoryIdentified env second srp accessoryKey

/-- The payload of the M2 of Pair-Verify was opened under the key of the secret of this
ephemeral key, and the accessory key verifies the signature over both ephemeral keys. -/
def AccessoryVerified (env : SessionEnv) (history : List SessionEvent) (accessoryKey : Bytes)
    (ephemeral : KeyPair) (shared : Bytes) : Prop :=
  ∃ m2 peer plaintext accessoryId signature, Answered history 2 m2 ∧
    findField m2 0x03 = some peer ∧ x25519Shared env ephemeral.privateKey peer = some shared ∧
    OpenedField env history (env.verifyKey shared) (ascii "PV-Msg02") m2 plaintext ∧
    findField (decodeTlv8 plaintext) 0x01 = some accessoryId ∧
    findField (decodeTlv8 plaintext) 0x0a = some signature ∧
      SignatureVerified env history accessoryKey (peer ++ accessoryId ++ ephemeral.publicKey) signature

/-- A Pair-Verify with an ephemeral key of its own: first the accessory was verified, then an M4
with state 4 was received; the cipher has the keys of the shared secret. -/
def PeerVerified (env : SessionEnv) (history : List SessionEvent) (accessoryKey : Bytes)
    (control : ControlCipher) : Prop :=
  ∃ ephemeral shared first second, history = .ephemeralGenerated (some ephemeral) :: first ++ second ∧
    AccessoryVerified env first accessoryKey ephemeral shared ∧ (∃ m4, Answered second 4 m4) ∧
      control = env.controlCipher shared

/-- The record was stored, with a key in it. -/
def Loaded (env : SessionEnv) (options : SessionOptions) (pairing : PairingRecord) : Prop :=
  options.pairingStore ≠ [] ∧ env.loadPairingRecord options.pairingStore = some pairing ∧
    pairing.controller.privateKey ≠ []

/-- What must have happened before an event. -/
def Authenticated (env : SessionEnv) (options : SessionOptions) (before : List SessionEvent) :
    SessionEvent → Prop
  | .pairingSaved pairing => SetUp env before pairing.accessoryPublicKey
  | .controlRequest control _ =>
      ∃ pairing earlier later, before = earlier ++ later ∧
        (Loaded env options pairing ∨ SetUp env earlier pairing.accessoryPublicKey) ∧
          PeerVerified env later pairing.accessoryPublicKey control
  | _ => True

variable {env : SessionEnv} {options : SessionOptions} {history : List SessionEvent}

/-! ## Steps that all stages share -/

theorem exchange_safely (request : Bytes) :
    Safely (Authenticated env options) (env.exchange request)
      (fun response later => ∃ bytes, later = history ++ [.sent request true, .received bytes] ∧
        parseResponse bytes = some response ∧ response.status = 200) history := by
  unfold SessionEnv.exchange
  apply Safely.ask
  intro accepted
  apply Safely.record trivial
  apply Safely.require
  rintro rfl
  apply Safely.ask
  intro polls
  apply Safely.ofOption
  intro bytes _
  apply Safely.record trivial
  apply Safely.ofOption
  intro response hparse
  apply Safely.require
  intro hstatus
  apply Safely.pure
  refine ⟨bytes, ?_, hparse, hstatus⟩
  rw [List.append_assoc]
  rfl

theorem openField_safely (key label : Bytes) (ciphertext : Option Bytes) :
    Safely (Authenticated env options) (env.openField key label ciphertext)
      (fun plaintext later => ∀ inner, plaintext = some inner → ∃ bytes, ciphertext = some bytes ∧
        env.aead.openLabel key label bytes = some inner ∧
          later = history ++ [.opened key label bytes (some inner)]) history := by
  cases ciphertext with
  | none =>
      apply Safely.pure
      intro inner heq
      cases heq
  | some bytes =>
      unfold SessionEnv.openField
      apply Safely.record trivial
      apply Safely.pure
      intro inner heq
      exact ⟨bytes, rfl, heq, by rw [heq]⟩

theorem requireSignature_safely (publicKey data signature : Bytes) :
    Safely (Authenticated env options) (env.requireSignature publicKey data signature)
      (fun _ later => env.ed25519Verify publicKey data signature = true ∧
        later = history ++ [.signatureChecked publicKey data signature true]) history := by
  unfold SessionEnv.requireSignature
  apply Safely.record trivial
  apply Safely.required
  intro hverified
  exact ⟨hverified, by rw [hverified]⟩

theorem answered_of_response {bytes : Bytes} {response : Response} {state : UInt8}
    (hreceived : .received bytes ∈ history) (hparse : parseResponse bytes = some response)
    (hstatus : response.status = 200)
    (hstate : findField (decodeTlv8 response.body) 0x06 = some [state]) :
    Answered history state (decodeTlv8 response.body) :=
  ⟨bytes, response, hreceived, hparse, hstatus, rfl, hstate⟩

/-! ## Pair-Setup -/

theorem pairSetupProof_safely (headers : List (Bytes × Bytes)) :
    Safely (Authenticated env options) (env.pairSetupProof headers)
      (fun srp later => ∃ added, later = history ++ added ∧ ServerProved env added srp) history := by
  unfold SessionEnv.pairSetupProof
  apply Safely.bind (exchange_safely _)
  -- M2: the state, the salt and the public key
  rintro m2 _ - ⟨bytes2, rfl, hparse2, hstatus2⟩
  apply Safely.require
  intro hstate2
  apply Safely.ofOption
  intro salt hsalt
  apply Safely.ofOption
  intro publicKey hpublicKey
  apply Safely.ask
  intro random
  apply Safely.record trivial
  apply Safely.require
  intro haccepted
  apply Safely.bind (exchange_safely _)
  -- M4: the state and a proof that must be verified
  rintro m4 _ - ⟨bytes4, rfl, hparse4, hstatus4⟩
  apply Safely.require
  intro hstate4
  apply Safely.ofOption
  intro serverProof hserverProof
  apply Safely.record trivial
  apply Safely.require
  intro hverified
  apply Safely.pure
  -- everything that was recorded comes behind the earlier history
  simp only [List.append_assoc]
  refine ⟨_, rfl, decodeTlv8 m2.body, decodeTlv8 m4.body, salt, publicKey, random, serverProof,
    ?_, ?_, hsalt, hpublicKey, Prod.ext haccepted rfl, hserverProof, hverified, ?_⟩
  · exact answered_of_response (by simp) hparse2 hstatus2 hstate2
  · exact answered_of_response (by simp) hparse4 hstatus4 hstate4
  · simp [hverified]

theorem pairSetupIdentity_safely (headers : List (Bytes × Bytes)) (srp : SrpClient) :
    Safely (Authenticated env options) (env.pairSetupIdentity headers srp)
      (fun pairing later => ∃ added, later = history ++ added ∧
        AccessoryIdentified env added srp pairing.accessoryPublicKey) history := by
  unfold SessionEnv.pairSetupIdentity
  apply Safely.ask
  intro generated
  apply Safely.ask
  intro random
  apply Safely.require
  intro _
  apply Safely.ofOption
  intro controller _
  apply Safely.ofOption
  intro controllerId _
  apply Safely.ofOption
  intro signature _
  apply Safely.require
  intro _
  apply Safely.ofOption
  intro encrypted _
  apply Safely.bind (exchange_safely _)
  -- M6: what was opened, and then the state
  rintro m6 _ - ⟨bytes6, rfl, hparse6, hstatus6⟩
  apply Safely.bind (openField_safely _ _ _)
  intro decrypted later hextends hopened
  apply Safely.require
  intro hstate6
  apply Safely.ofOption
  rintro plaintext rfl
  obtain ⟨ciphertext, hciphertext, hopen, rfl⟩ := hopened plaintext rfl
  apply Safely.ofOption
  intro accessoryId hid
  apply Safely.ofOption
  intro accessoryKey hkey
  apply Safely.ofOption
  intro accessorySignature hsignature
  apply Safely.require
  intro _
  apply Safely.bind (requireSignature_safely _ _ _)
  -- the signature is checked last, under the key that came with it
  rintro _ _ - ⟨hverified, rfl⟩
  apply Safely.pure
  simp only [List.append_assoc]
  refine ⟨_, rfl, decodeTlv8 m6.body, plaintext, accessoryId, accessorySignature, ?_,
    ⟨ciphertext, hciphertext, hopen, ?_⟩, hid, hkey, hsignature, hverified, ?_⟩
  · exact answered_of_response (by simp) hparse6 hstatus6 hstate6
  · simp
  · simp

/-- What happens afterwards does not undo a Pair-Setup. -/
theorem SetUp.append {accessoryKey : Bytes} (h : SetUp env history accessoryKey)
    (more : List SessionEvent) : SetUp env (history ++ more) accessoryKey := by
  obtain ⟨srp, first, second, rfl, hproved, m6, plaintext, accessoryId, signature,
    ⟨bytes, response, hreceived, hrest⟩, ⟨ciphertext, hciphertext, hopen, hopened⟩, hid, hkey,
    hsignature, hverified, hchecked⟩ := h
  -- the later events only lengthen the second part
  have hmem : ∀ event ∈ second, event ∈ second ++ more := fun _ => List.mem_append_left more
  exact ⟨srp, first, second ++ more, List.append_assoc _ _ _, hproved, m6, plaintext, accessoryId,
    signature, ⟨bytes, response, hmem _ hreceived, hrest⟩,
    ⟨ciphertext, hciphertext, hopen, hmem _ hopened⟩, hid, hkey, hsignature, hverified,
    hmem _ hchecked⟩

/-- The pairing was stored with a key, or a Pair-Setup authenticated its accessory key. -/
def Established (env : SessionEnv) (options : SessionOptions) (history : List SessionEvent)
    (pairing : PairingRecord) : Prop :=
  Loaded env options pairing ∨ SetUp env history pairing.accessoryPublicKey

/-- A record that holds a key was loaded. -/
theorem loaded_of_storedPairing (h : (env.storedPairing options).controller.privateKey ≠ []) :
    Loaded env options (env.storedPairing options) := by
  unfold SessionEnv.storedPairing at h ⊢
  by_cases hstore : options.pairingStore ≠ []
  · rw [if_pos hstore] at h ⊢
    cases hload : env.loadPairingRecord options.pairingStore with
    | none =>
        rw [hload] at h
        exact absurd rfl h
    | some pairing =>
        rw [hload] at h
        exact ⟨hstore, hload, h⟩
  · rw [if_neg hstore] at h
    exact absurd rfl h

theorem storePairing_safely {pairing : PairingRecord}
    (h : SetUp env history pairing.accessoryPublicKey) :
    Safely (Authenticated env options) (env.storePairing options pairing)
      (fun _ later => SetUp env later pairing.accessoryPublicKey) history := by
  unfold SessionEnv.storePairing
  split
  · apply Safely.record h
    apply Safely.ask
    intro saved
    apply Safely.required
    intro _
    exact h.append _
  · exact Safely.pure h

theorem establishPairing_safely :
    Safely (Authenticated env options) (env.establishPairing options)
      (fun pairing later => Established env options later pairing) [] := by
  unfold SessionEnv.establishPairing
  dsimp only
  split
  · apply Safely.bind (pairSetupProof_safely _)
    rintro srp first - ⟨_, rfl, hproved⟩
    apply Safely.bind (pairSetupIdentity_safely _ _)
    rintro pairing _ - ⟨second, rfl, hidentified⟩
    apply Safely.bind (storePairing_safely ⟨srp, first, second, rfl, hproved, hidentified⟩)
    intro _ later _ hsetUp
    exact Safely.pure (Or.inr hsetUp)
  · rename_i hkey
    exact Safely.pure (Or.inl (loaded_of_storedPairing hkey))

/-! ## Pair-Verify -/

theorem pairVerifyAccessory_safely (headers : List (Bytes × Bytes)) (pairing : PairingRecord)
    (ephemeral : KeyPair) :
    Safely (Authenticated env options) (env.pairVerifyAccessory headers pairing ephemeral)
      (fun verified later => ∃ added, later = history ++ added ∧
        AccessoryVerified env added pairing.accessoryPublicKey ephemeral verified.2) history := by
  unfold SessionEnv.pairVerifyAccessory
  apply Safely.bind (exchange_safely _)
  rintro m2 _ - ⟨bytes2, rfl, hparse2, hstatus2⟩
  apply Safely.bind (openField_safely _ _ _)
  intro decrypted later hextends hopened
  apply Safely.require
  intro hstate2
  apply Safely.ofOption
  intro shared hshared
  apply Safely.require
  intro _
  apply Safely.ofOption
  rintro plaintext rfl
  obtain ⟨ciphertext, hciphertext, hopen, rfl⟩ := hopened plaintext rfl
  apply Safely.ofOption
  intro accessoryId hid
  apply Safely.ofOption
  intro accessorySignature hsignature
  apply Safely.ofOption
  intro peer hpeer
  apply Safely.bind (requireSignature_safely _ _ _)
  rintro _ _ - ⟨hverified, rfl⟩
  apply Safely.pure
  rw [hpeer, Option.bind_some] at hshared
  rw [hpeer, Option.bind_some, hshared] at hopen ⊢
  simp only [List.append_assoc]
  refine ⟨_, rfl, decodeTlv8 m2.body, peer, plaintext, accessoryId, accessorySignature, ?_, hpeer,
    hshared, ⟨ciphertext, hciphertext, hopen, ?_⟩, hid, hsignature, hverified, ?_⟩
  · exact answered_of_response (by simp) hparse2 hstatus2 hstate2
  · simp
  · simp

theorem pairVerifyController_safely (headers : List (Bytes × Bytes)) (pairing : PairingRecord)
    (ephemeral : KeyPair) (peer shared : Bytes) :
    Safely (Authenticated env options)
      (env.pairVerifyController headers pairing ephemeral peer shared)
      (fun _ later => ∃ added, later = history ++ added ∧ ∃ m4, Answered added 4 m4) history := by
  unfold SessionEnv.pairVerifyController
  apply Safely.ofOption
  intro signature _
  apply Safely.ofOption
  intro encrypted _
  apply Safely.bind (exchange_safely _)
  rintro m4 _ - ⟨bytes4, rfl, hparse4, hstatus4⟩
  apply Safely.required
  intro hstate4
  exact ⟨_, rfl, decodeTlv8 m4.body, answered_of_response (by simp) hparse4 hstatus4 hstate4⟩

theorem pairVerify_safely (pairing : PairingRecord) :
    Safely (Authenticated env options) (env.pairVerify pairing)
      (fun control later => ∃ added, later = history ++ added ∧
        PeerVerified env added pairing.accessoryPublicKey control) history := by
  unfold SessionEnv.pairVerify
  apply Safely.ask
  intro generated
  apply Safely.record trivial
  apply Safely.ofOption
  rintro ephemeral rfl
  apply Safely.bind (pairVerifyAccessory_safely _ _ _)
  rintro ⟨peer, shared⟩ _ - ⟨first, rfl, haccessory⟩
  apply Safely.bind (pairVerifyController_safely _ _ _ _ _)
  rintro _ _ - ⟨second, rfl, hanswered⟩
  apply Safely.require
  intro _
  apply Safely.pure
  simp only [List.append_assoc]
  exact ⟨_, rfl, ephemeral, shared, first, second, rfl, haccessory, hanswered, rfl⟩

/-! ## The session -/

theorem requestInfo_safely {pairing : PairingRecord} {control : ControlCipher}
    (h : Authenticated env options history
      (.controlRequest control (encodeRequest (ascii "POST") (ascii "/info") 6 (SessionEnv.infoBody pairing)
        (ascii "application/x-apple-binary-plist") []))) :
    Safely (Authenticated env options) (env.requestInfo pairing control) (fun _ _ => True) history := by
  unfold SessionEnv.requestInfo
  apply Safely.record h
  apply Safely.ask
  intro sendAll
  apply Safely.ask
  intro polls
  split
  · apply Safely.require
    intro _
    split
    · exact Safely.pure trivial
    · exact Safely.fail
  · exact Safely.fail

/-- In every session, a pairing is saved only when Pair-Setup has authenticated its accessory
key, and the first control request is made only when Pair-Verify has authenticated the
accessory under the key of the pairing. -/
theorem runSession_authenticated (env : SessionEnv) (options : SessionOptions) :
    Safe (Authenticated env options) (env.runSession options []).2 := by
  have hsession : Safely (Authenticated env options) (env.runSession options) (fun _ _ => True) [] := by
    unfold SessionEnv.runSession
    -- the connection, the pairing, Pair-Verify and the request, one after the other
    apply Safely.require
    intro _
    apply Safely.bind establishPairing_safely
    intro pairing earlier _ hestablished
    apply Safely.bind (pairVerify_safely pairing)
    rintro control _ - ⟨later, rfl, hverified⟩
    apply requestInfo_safely
    exact ⟨pairing, earlier, later, rfl, hestablished, hverified⟩
  exact (hsession safe_nil).2.1

/-! ### A session with an accessory that agrees to everything -/

/-- The bodies of the accessory's responses, in the order of the requests. -/
def agreeableBodies : List Bytes :=
  let tag := List.replicate 16 (0 : UInt8)
  [encodeTlv8 [(0x06, [2]), (0x02, [1]), (0x03, bigEndian 384 25)],
    encodeTlv8 [(0x06, [4]), (0x04, List.replicate 64 1)],
    encodeTlv8 [(0x06, [6]), (0x05, encodeTlv8 [(0x01, [9]), (0x03, [7]), (0x0a, [8])] ++ tag)],
    encodeTlv8 [(0x06, [2]), (0x03, [5]), (0x05, encodeTlv8 [(0x01, [9]), (0x0a, [8])] ++ tag)],
    encodeTlv8 [(0x06, [4])]]

/-- Constant functions in the place of the cryptographic ones; the key `[7]` verifies every
signature and no other key does. -/
def agreeableEnv : SessionEnv where
  aead := ⟨fun _ _ plaintext _ => some (plaintext, List.replicate 16 0),
    fun _ _ ciphertext _ _ => some ciphertext⟩
  sha512 := fun _ => List.replicate 64 1
  hkdfSha512 := fun _ _ _ size => List.replicate size 3
  ed25519Sign := fun _ _ => some [6]
  ed25519Verify := fun publicKey _ _ => publicKey = [7]
  x25519Derive := fun _ _ => some [1]
  connected := true
  loadPairingRecord := fun _ => none
  savePairingRecord := fun _ _ _ => true
  sendAll := fun _ _ => true
  polls := fun history =>
    let earlier := history.countP fun event => event matches .received _
    let body := agreeableBodies.getD earlier []
    [.received (ascii "RTSP/1.0 200 OK\r\nContent-Length: " ++ decimal body.length ++
      ascii "\r\n\r\n" ++ body)]
  randomBytes := fun _ count => some (List.replicate count 2)
  ed25519Generate := fun _ => some ⟨[1], [2]⟩
  x25519Generate := fun _ => some ⟨[3], [4]⟩
  setupTime := 0
  verifyTime := 0

/-- The record of the first session. -/
def agreeablePairing : PairingRecord :=
  ⟨ascii "02020202-0202-4202-8202-020202020202", ⟨[1], [2]⟩, [7]⟩

/-- With a store and no record in it, the session saves the key `[7]` and asks for `/info`. -/
theorem runSession_authenticated_agreeable :
    (agreeableEnv.runSession ⟨ascii "store"⟩ []).2[10]? = some (.pairingSaved agreeablePairing) ∧
    SetUp agreeableEnv ((agreeableEnv.runSession ⟨ascii "store"⟩ []).2.take 10) [7] ∧
    ∃ control request, (agreeableEnv.runSession ⟨ascii "store"⟩ []).2[18]? =
        some (.controlRequest control request) ∧
      Authenticated agreeableEnv ⟨ascii "store"⟩
        ((agreeableEnv.runSession ⟨ascii "store"⟩ []).2.take 18) (.controlRequest control request) := by
  have hsafe := runSession_authenticated agreeableEnv ⟨ascii "store"⟩
  have hrun : (agreeableEnv.runSession ⟨ascii "store"⟩ []).2[10]? = some (.pairingSaved agreeablePairing) ∧
      (agreeableEnv.runSession ⟨ascii "store"⟩ []).2[18]? =
        some (.controlRequest (agreeableEnv.controlCipher [1])
          (encodeRequest (ascii "POST") (ascii "/info") 6 (SessionEnv.infoBody agreeablePairing)
            (ascii "application/x-apple-binary-plist") [])) := by
    decide +kernel
  obtain ⟨hsaved, hcontrol⟩ := hrun
  exact ⟨hsaved, hsafe.allowed_of_getElem? hsaved, _, _, hcontrol, hsafe.allowed_of_getElem? hcontrol⟩

end Airplay
end Aa2acp
