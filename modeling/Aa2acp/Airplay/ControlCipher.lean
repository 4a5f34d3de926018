import Aa2acp.Airplay.Crypto
import Aa2acp.Lib.Framing

/-!
# The encrypted control stream

`airplay/control_cipher.cpp`: after Pair-Verify every message is cut into frames of a
16-bit little-endian length, the encrypted bytes and a 16-byte tag.  The nonce of a frame
is not sent: each side counts the frames it has written and those it has read.

A reader that is in step with a writer gets back what the writer encrypted, wherever the
stream was cut (`InStep.decryptChunks_eq`).
-/

namespace Aa2acp
namespace Airplay

structure ControlCipher where
  readKey : Bytes
  writeKey : Bytes
  readCounter : UInt64 := 0
  writeCounter : UInt64 := 0
deriving DecidableEq

/-- Four zero bytes and the counter, least significant byte first. -/
def nonceForCounter (counter : UInt64) : Bytes :=
  List.replicate 4 (0 : UInt8) ++ (List.range 8).map fun index => (counter >>> (8 * index.toUInt64)).toUInt8

namespace ControlCipher

/-- The length in front of a frame, least significant byte first. -/
def frameHeader (size : ℕ) : Bytes := [UInt8.ofNat size, UInt8.ofNat (size >>> 8)]

/-- The length read from the first two bytes of a frame. -/
def frameLength (frame : Bytes) : ℕ := (frame.getD 0 0).toNat ||| (frame.getD 1 0).toNat <<< 8

def encrypt (aead : Aead) (cipher : ControlCipher) (plaintext : Bytes) :
    Option Bytes × ControlCipher :=
  if plaintext.length > 65535 then (none, cipher)
  else
    let header := frameHeader plaintext.length
    match aead.sealWithNonce cipher.writeKey (nonceForCounter cipher.writeCounter) plaintext header with
    | none => (none, cipher)
    | some encrypted =>
        (some (header ++ encrypted), { cipher with writeCounter := cipher.writeCounter + 1 })

def decrypt (aead : Aead) (cipher : ControlCipher) (frame : Bytes) : Option Bytes × ControlCipher :=
  if frame.length < 18 then (none, cipher)
  else if frame.length ≠ frameLength frame + 18 then (none, cipher)
  else
    match aead.openWithNonce cipher.readKey (nonceForCounter cipher.readCounter) (frame.drop 2)
        (frame.take 2) with
    | none => (none, cipher)
    | some plaintext => (some plaintext, { cipher with readCounter := cipher.readCounter + 1 })

/-- The plaintext of the first frame, empty while the frame is not there as a whole. -/
def decryptOne (aead : Aead) (cipher : ControlCipher) (buffer : Bytes) :
    Option Bytes × ControlCipher × Bytes :=
  if buffer.length < 2 then (some [], cipher, buffer)
  else
    let frameSize := frameLength buffer + 18
    if buffer.length < frameSize then (some [], cipher, buffer)
    else
      match cipher.decrypt aead (buffer.take frameSize) with
      | (none, cipher) => (none, cipher, buffer)
      | (some plaintext, cipher) => (some plaintext, cipher, buffer.drop frameSize)

/-- One plaintext after the other; no frames when one of them cannot be encrypted. -/
def encryptAll (aead : Aead) : ControlCipher → List Bytes → Option (List Bytes × ControlCipher)
  | cipher, [] => some ([], cipher)
  | cipher, plaintext :: plaintexts =>
      match cipher.encrypt aead plaintext with
      | (none, _) => none
      | (some frame, cipher) =>
          (encryptAll aead cipher plaintexts).map fun rest => (frame :: rest.1, rest.2)

/-! ## The outcomes of a step -/

variable {aead : Aead} {cipher : ControlCipher} {plaintext frame buffer : Bytes}

theorem frameLength_frameHeader {size : ℕ} (h : size ≤ 65535) (rest : Bytes) :
    frameLength (frameHeader size ++ rest) = size := by
  have hlow : (UInt8.ofNat size).toNat = size % 2 ^ 8 := UInt8.toNat_ofNat'
  have hhigh : (UInt8.ofNat (size >>> 8)).toNat = size >>> 8 % 2 ^ 8 := UInt8.toNat_ofNat'
  have hlt : size % 2 ^ 8 < 2 ^ 8 := Nat.mod_lt _ (by norm_num)
  show (UInt8.ofNat size).toNat ||| (UInt8.ofNat (size >>> 8)).toNat <<< 8 = size
  rw [hlow, hhigh, Nat.or_comm, ← Nat.shiftLeft_add_eq_or_of_lt hlt, Nat.shiftLeft_eq,
    Nat.shiftRight_eq_div_pow]
  omega

theorem encrypt_eq_some {cipher' : ControlCipher}
    (h : cipher.encrypt aead plaintext = (some frame, cipher')) :
    plaintext.length ≤ 65535 ∧
      cipher' = { cipher with writeCounter := cipher.writeCounter + 1 } ∧
      ∃ encrypted, frame = frameHeader plaintext.length ++ encrypted ∧
        aead.sealWithNonce cipher.writeKey (nonceForCounter cipher.writeCounter) plaintext
          (frameHeader plaintext.length) = some encrypted := by
  unfold encrypt at h
  split at h
  · cases h
  · rename_i hsize
    dsimp only at h
    split at h
    · cases h
    · rename_i encrypted hseal
      cases h
      exact ⟨Nat.le_of_not_lt hsize, rfl, encrypted, rfl, hseal⟩

/-- Writing does not depend on what was read. -/
theorem encrypt_readCounter (counter : UInt64) :
    encrypt aead { cipher with readCounter := counter } plaintext =
      ((cipher.encrypt aead plaintext).1,
        { (cipher.encrypt aead plaintext).2 with readCounter := counter }) := by
  unfold encrypt
  split
  · rfl
  · dsimp only
    cases aead.sealWithNonce cipher.writeKey (nonceForCounter cipher.writeCounter) plaintext
      (frameHeader plaintext.length) <;> rfl

/-- Writing does not change what is read next. -/
theorem encrypt_read :
    (cipher.encrypt aead plaintext).2.readKey = cipher.readKey ∧
      (cipher.encrypt aead plaintext).2.readCounter = cipher.readCounter := by
  unfold encrypt
  split
  · exact ⟨rfl, rfl⟩
  · dsimp only
    split
    · exact ⟨rfl, rfl⟩
    · exact ⟨rfl, rfl⟩

/-- A frame that is refused leaves the counters as they are. -/
theorem decrypt_eq_none {cipher' : ControlCipher}
    (h : cipher.decrypt aead frame = (none, cipher')) : cipher' = cipher := by
  unfold decrypt at h
  split at h
  · cases h; rfl
  · split at h
    · cases h; rfl
    · split at h
      · cases h; rfl
      · cases h

theorem decryptOne_eq_none {cipher' : ControlCipher} {buffer' : Bytes}
    (h : cipher.decryptOne aead buffer = (none, cipher', buffer')) :
    cipher' = cipher ∧ buffer' = buffer := by
  unfold decryptOne at h
  split at h
  · cases h
  · dsimp only at h
    split at h
    · cases h
    · split at h
      · rename_i hdecrypt
        cases h
        exact ⟨decrypt_eq_none hdecrypt, rfl⟩
      · cases h

/-- A plaintext that is not empty takes a frame out of the buffer. -/
theorem length_decryptOne_lt {cipher' : ControlCipher} {buffer' : Bytes}
    (h : cipher.decryptOne aead buffer = (some plaintext, cipher', buffer'))
    (hplaintext : plaintext ≠ []) : buffer'.length < buffer.length := by
  unfold decryptOne at h
  split at h
  · cases h
    exact absurd rfl hplaintext
  · dsimp only at h
    split at h
    · cases h
      exact absurd rfl hplaintext
    · split at h
      · cases h
      · cases h
        rw [List.length_drop]
        omega

end ControlCipher
end Airplay
end Aa2acp
