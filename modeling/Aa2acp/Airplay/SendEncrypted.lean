import Aa2acp.Airplay.ControlStream
import Aa2acp.Airplay.Rtsp

/-!
# Encrypted control requests

`send_encrypted` of `airplay/session.cpp`: a request is encrypted and sent, and the control
connection is read until the response with its `CSeq` is there.  What `poll` and `recv` do
in one turn of the outer loop is a `Poll`; the list of turns ends with the deadline or when
the session is to stop.
-/

namespace Aa2acp
namespace Airplay

open Text

def maxResponseBytes : ℕ := 1024 * 1024

def maxResponseHeaders : ℕ := 64 * 1024

/-- The end of a turn of the outer loop. -/
inductive Poll
  /-- Nothing to read, or a call that was interrupted. -/
  | nothing
  /-- An error of `poll`, of the connection or of `recv`, or its end. -/
  | failed
  | received (bytes : Bytes)
deriving DecidableEq

/-- The cipher and the encrypted buffer, which outlive the call, and the plaintext of the
responses. -/
structure ControlReader where
  cipher : ControlCipher
  encryptedBuffer : Bytes
  responsePlaintext : Bytes := []
deriving DecidableEq

/-- What the function returns, and why. -/
inductive SendResult
  | found (response : Response)
  | failed
  | timedOut
deriving DecidableEq

/-- Whether this is the response that is waited for. -/
def isExpected (expectedCseq : Option ℤ) (response : Response) : Prop :=
  match expectedCseq with
  | none => True
  | some cseq => response.header (ascii "cseq") = some (decimal cseq)

instance (expectedCseq : Option ℤ) (response : Response) :
    Decidable (isExpected expectedCseq response) := by
  unfold isExpected
  cases expectedCseq <;> infer_instance

namespace ControlReader

/-- The plaintext of a frame, and what it means for the inner loop: go on with the next frame,
leave the loop, or return. -/
inductive Turn
  | more (plaintext : Bytes)
  | discarded (plaintext : Bytes)
  | returned (result : SendResult)
deriving DecidableEq

/-- A turn of the inner loop, for a frame that is not empty. -/
def readFrame (expectedCseq : Option ℤ) (responsePlaintext frame : Bytes) : Turn :=
  let plaintext := responsePlaintext ++ frame
  if plaintext.length > maxResponseBytes then .returned .failed
  else
    match completeResponseSize plaintext with
    | none =>
        -- headers that do not end
        if plaintext.length > maxResponseHeaders ∧ (find responseHeaderEnd plaintext).isNone then
          .returned .failed
        else .more plaintext
    | some complete =>
        match parseResponse plaintext with
        | none => .returned .failed
        | some parsed =>
            if isExpected expectedCseq parsed then .returned (.found parsed)
            else .discarded (plaintext.drop complete)

/-- The inner loop; no result when it is left to wait for more. -/
def readFrames (aead : Aead) (expectedCseq : Option ℤ) (reader : ControlReader) :
    Option SendResult × ControlReader :=
  match _h : reader.cipher.decryptOne aead reader.encryptedBuffer with
  | (none, cipher, encryptedBuffer) => (some .failed, { reader with cipher, encryptedBuffer })
  | (some [], cipher, encryptedBuffer) => (none, { reader with cipher, encryptedBuffer })
  | (some (byte :: bytes), cipher, encryptedBuffer) =>
      match readFrame expectedCseq reader.responsePlaintext (byte :: bytes) with
      | .more responsePlaintext =>
          readFrames aead expectedCseq { cipher, encryptedBuffer, responsePlaintext }
      -- after a response for another request the loop is left, whatever is still in the buffer
      | .discarded responsePlaintext => (none, { cipher, encryptedBuffer, responsePlaintext })
      | .returned result => (some result, { reader with cipher, encryptedBuffer })
termination_by reader.encryptedBuffer.length
decreasing_by exact ControlCipher.length_decryptOne_lt _h (List.cons_ne_nil _ _)

/-- The outer loop. -/
def readResponse (aead : Aead) (expectedCseq : Option ℤ) :
    ControlReader → List Poll → SendResult × ControlReader
  | reader, [] => (.timedOut, reader)
  | reader, poll :: polls =>
      -- the buffer is looked at before the connection
      match reader.readFrames aead expectedCseq with
      | (some result, reader) => (result, reader)
      | (none, reader) =>
          match poll with
          | .nothing => readResponse aead expectedCseq reader polls
          | .failed => (.failed, reader)
          | .received bytes =>
              readResponse aead expectedCseq
                { reader with encryptedBuffer := reader.encryptedBuffer ++ bytes } polls

end ControlReader

/-- The result, the cipher and the encrypted buffer after the call. -/
def sendEncrypted (aead : Aead) (sendAll : Bytes → Bool) (cipher : ControlCipher)
    (encryptedBuffer plaintext : Bytes) (expectedCseq : Option ℤ) (polls : List Poll) :
    SendResult × ControlReader :=
  match cipher.encrypt aead plaintext with
  | (none, cipher) => (.failed, { cipher, encryptedBuffer })
  | (some encrypted, cipher) =>
      if sendAll encrypted then
        ControlReader.readResponse aead expectedCseq { cipher, encryptedBuffer } polls
      else (.failed, { cipher, encryptedBuffer })

namespace ControlReader

variable {aead : Aead} {expectedCseq : Option ℤ} {reader : ControlReader} {cipher : ControlCipher}
  {frame encryptedBuffer : Bytes}

/-- The loop with its first turn. -/
theorem readFrames_eq (reader : ControlReader) :
    reader.readFrames aead expectedCseq =
      match reader.cipher.decryptOne aead reader.encryptedBuffer with
      | (none, cipher, encryptedBuffer) => (some .failed, { reader with cipher, encryptedBuffer })
      | (some [], cipher, encryptedBuffer) => (none, { reader with cipher, encryptedBuffer })
      | (some (byte :: bytes), cipher, encryptedBuffer) =>
          match readFrame expectedCseq reader.responsePlaintext (byte :: bytes) with
          | .more responsePlaintext =>
              readFrames aead expectedCseq { cipher, encryptedBuffer, responsePlaintext }
          | .discarded responsePlaintext => (none, { cipher, encryptedBuffer, responsePlaintext })
          | .returned result => (some result, { reader with cipher, encryptedBuffer }) := by
  conv => left; rw [readFrames]
  split
  · rename_i hnone
    rw [hnone]
  · rename_i hempty
    rw [hempty]
  · rename_i hsome
    rw [hsome]

theorem readFrames_of_error
    (h : reader.cipher.decryptOne aead reader.encryptedBuffer = (none, cipher, encryptedBuffer)) :
    reader.readFrames aead expectedCseq = (some .failed, { reader with cipher, encryptedBuffer }) := by
  rw [readFrames_eq, h]

theorem readFrames_of_empty
    (h : reader.cipher.decryptOne aead reader.encryptedBuffer = (some [], cipher, encryptedBuffer)) :
    reader.readFrames aead expectedCseq = (none, { reader with cipher, encryptedBuffer }) := by
  rw [readFrames_eq, h]

theorem readFrames_of_frame
    (h : reader.cipher.decryptOne aead reader.encryptedBuffer =
      (some frame, cipher, encryptedBuffer)) (hframe : frame ≠ []) :
    reader.readFrames aead expectedCseq =
      match readFrame expectedCseq reader.responsePlaintext frame with
      | .more responsePlaintext =>
          readFrames aead expectedCseq { cipher, encryptedBuffer, responsePlaintext }
      | .discarded responsePlaintext => (none, { cipher, encryptedBuffer, responsePlaintext })
      | .returned result => (some result, { reader with cipher, encryptedBuffer }) := by
  obtain ⟨byte, bytes, rfl⟩ := List.exists_cons_of_ne_nil hframe
  rw [readFrames_eq reader, h]

end ControlReader
end Airplay
end Aa2acp
