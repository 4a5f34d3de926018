import Aa2acp.Lib.Bytes

/-!
# Authenticated encryption

`seal_with_nonce` and `open_with_nonce` of `airplay/crypto.cpp`.  The cipher behind them
is OpenSSL's ChaCha20-Poly1305, a parameter here; the lengths of key, nonce and tag are
checked by the code.
-/

namespace Aa2acp
namespace Airplay

/-- A cipher with a 16-byte tag; no value is a failure of the library. -/
structure Aead where
  /-- Ciphertext and tag for a key, a nonce, a plaintext and the data sent in the clear. -/
  encrypt : Bytes → Bytes → Bytes → Bytes → Option (Bytes × Bytes)
  /-- The plaintext for a key, a nonce, a ciphertext, its tag and the data in the clear. -/
  decrypt : Bytes → Bytes → Bytes → Bytes → Bytes → Option Bytes

namespace Aead

/-- What was encrypted decrypts to itself, and only the tag is added to it. -/
def RoundTrips (aead : Aead) : Prop :=
  ∀ key nonce plaintext aad ciphertext tag,
    aead.encrypt key nonce plaintext aad = some (ciphertext, tag) →
      ciphertext.length = plaintext.length ∧ tag.length = 16 ∧
        aead.decrypt key nonce ciphertext tag aad = some plaintext

def sealWithNonce (aead : Aead) (key nonce plaintext aad : Bytes) : Option Bytes :=
  if key.length ≠ 32 ∨ nonce.length ≠ 12 then none
  else (aead.encrypt key nonce plaintext aad).map fun encrypted => encrypted.1 ++ encrypted.2

def openWithNonce (aead : Aead) (key nonce ciphertext aad : Bytes) : Option Bytes :=
  if key.length ≠ 32 ∨ nonce.length ≠ 12 ∨ ciphertext.length < 16 then none
  else
    let encryptedSize := ciphertext.length - 16
    aead.decrypt key nonce (ciphertext.take encryptedSize) (ciphertext.drop encryptedSize) aad

variable {aead : Aead}

theorem RoundTrips.open_seal (h : aead.RoundTrips) {key nonce plaintext aad ciphertext : Bytes}
    (hseal : aead.sealWithNonce key nonce plaintext aad = some ciphertext) :
    ciphertext.length = plaintext.length + 16 ∧
      aead.openWithNonce key nonce ciphertext aad = some plaintext := by
  unfold sealWithNonce at hseal
  split at hseal
  · cases hseal
  · rename_i hsizes
    obtain ⟨⟨encrypted, tag⟩, hencrypt, rfl⟩ := Option.map_eq_some_iff.mp hseal
    obtain ⟨hlength, htag, hdecrypt⟩ := h _ _ _ _ _ _ hencrypt
    have hsize : (encrypted ++ tag).length - 16 = encrypted.length := by
      rw [List.length_append, htag, Nat.add_sub_cancel]
    constructor
    · rw [List.length_append, hlength, htag]
    · unfold openWithNonce
      dsimp only
      rw [if_neg, hsize, List.take_left, List.drop_left]
      · exact hdecrypt
      · rw [List.length_append, htag]
        omega

/-- One call of a cipher and its result, taken down. -/
structure Answer where
  key : Bytes
  nonce : Bytes
  plaintext : Bytes
  aad : Bytes
  ciphertext : Bytes
  tag : Bytes
deriving DecidableEq

/-- What was sent in the clear, followed by what was encrypted. -/
def Answer.frame (answer : Answer) : Bytes := answer.aad ++ answer.ciphertext ++ answer.tag

/-- The cipher as far as these calls show it. -/
def ofAnswers (answers : List Answer) : Aead where
  encrypt key nonce plaintext aad :=
    (answers.find? fun answer => answer.key = key ∧ answer.nonce = nonce ∧
      answer.plaintext = plaintext ∧ answer.aad = aad).map fun answer =>
        (answer.ciphertext, answer.tag)
  decrypt key nonce ciphertext tag aad :=
    (answers.find? fun answer => answer.key = key ∧ answer.nonce = nonce ∧
      answer.ciphertext = ciphertext ∧ answer.tag = tag ∧ answer.aad = aad).map Answer.plaintext

/-- No ciphertext stands for two plaintexts, and nothing but a tag is added. -/
theorem ofAnswers_roundTrips {answers : List Answer}
    (hunique : ∀ first ∈ answers, ∀ second ∈ answers, first.key = second.key →
      first.nonce = second.nonce → first.ciphertext = second.ciphertext →
        first.plaintext = second.plaintext)
    (hlength : ∀ answer ∈ answers,
      answer.ciphertext.length = answer.plaintext.length ∧ answer.tag.length = 16) :
    (ofAnswers answers).RoundTrips := by
  intro key nonce plaintext aad ciphertext tag hencrypt
  obtain ⟨answer, hfind, heq⟩ := Option.map_eq_some_iff.mp hencrypt
  have hmem := List.mem_of_find?_eq_some hfind
  have hanswer := List.find?_some hfind
  rw [decide_eq_true_eq] at hanswer
  obtain ⟨rfl, rfl, rfl, rfl⟩ := hanswer
  cases heq
  refine ⟨(hlength answer hmem).1, (hlength answer hmem).2, ?_⟩
  cases hopen : answers.find? fun other => other.key = answer.key ∧ other.nonce = answer.nonce ∧
      other.ciphertext = answer.ciphertext ∧ other.tag = answer.tag ∧ other.aad = answer.aad with
  | none =>
      have hnot := List.find?_eq_none.mp hopen answer hmem
      simp at hnot
  | some other =>
      have hother := List.find?_some hopen
      rw [decide_eq_true_eq] at hother
      have hsame := hunique other (List.mem_of_find?_eq_some hopen) answer hmem hother.1
        hother.2.1 hother.2.2.1
      show Option.map Answer.plaintext (answers.find? _) = _
      rw [hopen, Option.map_some, hsame]

end Aead
end Airplay
end Aa2acp
