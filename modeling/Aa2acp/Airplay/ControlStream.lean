import Aa2acp.Airplay.ControlCipher

/-!
# Frames of the encrypted control stream in chunks

A reader whose read key is the writer's write key, and which has read as many frames as
the writer has written, gets the plaintexts back in order from any chunks of the frames.
The two are in step (`InStep`) before and after every frame; between two chunks the
reader's buffer holds a proper part of the next frame.
-/

namespace Aa2acp
namespace Airplay
namespace ControlCipher

open Framing

/-- The next frame that this writer makes is the next one that this reader opens. -/
structure InStep (reader writer : ControlCipher) : Prop where
  key : reader.readKey = writer.writeKey
  counter : reader.readCounter = writer.writeCounter

/-- Where repeated calls of `decrypt_one` ended. -/
structure Reading where
  plaintexts : List Bytes
  /-- The last call, which ended the loop, returned an empty plaintext and not an error. -/
  ended : Bool
  cipher : ControlCipher
  buffer : Bytes
deriving DecidableEq

/-- `decrypt_one` called until it returns an empty plaintext, or no value. -/
def decryptAll (aead : Aead) (cipher : ControlCipher) (buffer : Bytes) : Reading :=
  match _h : cipher.decryptOne aead buffer with
  | (none, cipher, buffer) => ⟨[], false, cipher, buffer⟩
  | (some [], cipher, buffer) => ⟨[], true, cipher, buffer⟩
  | (some (byte :: bytes), cipher, buffer) =>
      let rest := decryptAll aead cipher buffer
      { rest with plaintexts := (byte :: bytes) :: rest.plaintexts }
termination_by buffer.length
decreasing_by exact length_decryptOne_lt _h (List.cons_ne_nil _ _)

/-- Each chunk is appended to the buffer and decrypted as far as possible; nothing more is
read after an error. -/
def decryptChunks (aead : Aead) : ControlCipher → Bytes → List Bytes → Reading
  | cipher, buffer, [] => ⟨[], true, cipher, buffer⟩
  | cipher, buffer, chunk :: chunks =>
      let reading := decryptAll aead cipher (buffer ++ chunk)
      if reading.ended then
        let rest := decryptChunks aead reading.cipher reading.buffer chunks
        { rest with plaintexts := reading.plaintexts ++ rest.plaintexts }
      else reading

variable {aead : Aead} {reader writer writer' : ControlCipher} {plaintext frame : Bytes}

/-- The loop with its first call. -/
theorem decryptAll_eq (reader : ControlCipher) (buffer : Bytes) :
    decryptAll aead reader buffer =
      match reader.decryptOne aead buffer with
      | (none, cipher, buffer) => ⟨[], false, cipher, buffer⟩
      | (some [], cipher, buffer) => ⟨[], true, cipher, buffer⟩
      | (some (byte :: bytes), cipher, buffer) =>
          let rest := decryptAll aead cipher buffer
          { rest with plaintexts := (byte :: bytes) :: rest.plaintexts } := by
  conv => left; rw [decryptAll]
  split
  · rename_i hnone
    rw [hnone]
  · rename_i hempty
    rw [hempty]
  · rename_i hsome
    rw [hsome]

theorem decryptAll_of_empty {buffer buffer' : Bytes} {reader' : ControlCipher}
    (h : reader.decryptOne aead buffer = (some [], reader', buffer')) :
    decryptAll aead reader buffer = ⟨[], true, reader', buffer'⟩ := by
  rw [decryptAll_eq, h]

theorem decryptAll_of_plaintext {buffer buffer' : Bytes} {reader' : ControlCipher}
    (h : reader.decryptOne aead buffer = (some plaintext, reader', buffer'))
    (hplaintext : plaintext ≠ []) :
    decryptAll aead reader buffer =
      { decryptAll aead reader' buffer' with
        plaintexts := plaintext :: (decryptAll aead reader' buffer').plaintexts } := by
  obtain ⟨byte, bytes, rfl⟩ := List.exists_cons_of_ne_nil hplaintext
  rw [decryptAll_eq reader, h]

/-! ## One frame -/

theorem length_frame (haead : aead.RoundTrips)
    (h : writer.encrypt aead plaintext = (some frame, writer')) :
    frame.length = plaintext.length + 18 := by
  obtain ⟨-, -, encrypted, rfl, hseal⟩ := encrypt_eq_some h
  have hlength := (haead.open_seal hseal).1
  rw [List.length_append, hlength]
  show 2 + (plaintext.length + 16) = plaintext.length + 18
  omega

/-- The length of the next frame is known from its first two bytes. -/
theorem frameLength_frame (h : writer.encrypt aead plaintext = (some frame, writer'))
    (rest : Bytes) : frameLength (frame ++ rest) = plaintext.length := by
  obtain ⟨hsize, -, encrypted, rfl, -⟩ := encrypt_eq_some h
  rw [List.append_assoc]
  exact frameLength_frameHeader hsize _

theorem frameLength_append {buffer : Bytes} (h : 2 ≤ buffer.length) (rest : Bytes) :
    frameLength (buffer ++ rest) = frameLength buffer := by
  match buffer, h with
  | _ :: _ :: _, _ => rfl

/-- The reader after one more frame. -/
def counted (cipher : ControlCipher) : ControlCipher :=
  { cipher with readCounter := cipher.readCounter + 1 }

/-- Both sides count a frame. -/
theorem InStep.counted (hstep : reader.InStep writer)
    (h : writer.encrypt aead plaintext = (some frame, writer')) : reader.counted.InStep writer' := by
  obtain ⟨-, rfl, -⟩ := encrypt_eq_some h
  constructor
  · exact hstep.key
  · show reader.readCounter + 1 = writer.writeCounter + 1
    rw [hstep.counter]

/-- A whole frame is opened. -/
theorem decryptOne_frame (haead : aead.RoundTrips) (hstep : reader.InStep writer)
    (h : writer.encrypt aead plaintext = (some frame, writer')) (rest : Bytes) :
    reader.decryptOne aead (frame ++ rest) = (some plaintext, reader.counted, rest) := by
  have hlength := length_frame haead h
  have hframeLength := frameLength_frame h
  obtain ⟨-, rfl, encrypted, rfl, hseal⟩ := encrypt_eq_some h
  have hopen := (haead.open_seal hseal).2
  rw [← hstep.key, ← hstep.counter] at hopen
  have hdecrypt : reader.decrypt aead (frameHeader plaintext.length ++ encrypted) =
      (some plaintext, reader.counted) := by
    have hself := hframeLength []
    rw [List.append_nil] at hself
    unfold decrypt
    rw [if_neg (by omega), if_neg (by omega)]
    -- the header is what was sent in the clear, the rest what was sealed
    have hsealed : (frameHeader plaintext.length ++ encrypted).drop 2 = encrypted := rfl
    have hheader : (frameHeader plaintext.length ++ encrypted).take 2 =
        frameHeader plaintext.length := rfl
    rw [hsealed, hheader, hopen]
    rfl
  have htwo : ¬ (frameHeader plaintext.length ++ encrypted ++ rest).length < 2 := by
    rw [List.length_append, hlength]
    omega
  have hwhole : ¬ (frameHeader plaintext.length ++ encrypted ++ rest).length <
      plaintext.length + 18 := by
    rw [List.length_append, hlength]
    omega
  unfold decryptOne
  rw [if_neg htwo, hframeLength rest]
  dsimp only
  rw [if_neg hwhole, ← hlength, List.take_left, List.drop_left, hdecrypt]

/-- Nothing is taken while the next frame is not there as a whole. -/
theorem decryptOne_incomplete (haead : aead.RoundTrips)
    (h : writer.encrypt aead plaintext = (some frame, writer')) {buffer more : Bytes}
    (hmore : more ≠ []) (hsplit : buffer ++ more = frame) :
    reader.decryptOne aead buffer = (some [], reader, buffer) := by
  have hlength := length_frame haead h
  have hframeLength := frameLength_frame h []
  have hpos : 0 < more.length := List.length_pos_iff.mpr hmore
  rw [← hsplit, List.length_append] at hlength
  rw [← hsplit, List.append_nil] at hframeLength
  unfold decryptOne
  by_cases htwo : buffer.length < 2
  · rw [if_pos htwo]
  · rw [frameLength_append (Nat.le_of_not_lt htwo)] at hframeLength
    rw [if_neg htwo, hframeLength]
    dsimp only
    rw [if_pos (by omega)]

/-! ## All frames -/

variable {plaintexts frames : List Bytes}

theorem encryptAll_cons (h : encryptAll aead writer (plaintext :: plaintexts) = some (frames, writer')) :
    ∃ frame next rest, frames = frame :: rest ∧
      writer.encrypt aead plaintext = (some frame, next) ∧
      encryptAll aead next plaintexts = some (rest, writer') := by
  unfold encryptAll at h
  split at h
  · cases h
  · rename_i frame next hencrypt
    obtain ⟨⟨rest, last⟩, hrest, heq⟩ := Option.map_eq_some_iff.mp h
    cases heq
    exact ⟨frame, next, rest, rfl, hencrypt, hrest⟩

theorem encryptAll_append {now later : List Bytes}
    (h : encryptAll aead writer plaintexts = some (now ++ later, writer')) :
    ∃ first second middle, plaintexts = first ++ second ∧
      encryptAll aead writer first = some (now, middle) ∧
      encryptAll aead middle second = some (later, writer') := by
  induction now generalizing writer plaintexts with
  | nil => exact ⟨[], plaintexts, writer, rfl, rfl, h⟩
  | cons frame now ih =>
      cases plaintexts with
      | nil => cases h
      | cons plaintext plaintexts =>
          obtain ⟨_, next, rest, hframes, hencrypt, hrest⟩ := encryptAll_cons h
          cases hframes
          obtain ⟨first, second, middle, rfl, hfirst, hsecond⟩ := ih hrest
          refine ⟨plaintext :: first, second, middle, rfl, ?_, hsecond⟩
          unfold encryptAll
          rw [hencrypt]
          dsimp only
          rw [hfirst]
          rfl

theorem encryptAll_append_eq (first second : List Bytes) :
    encryptAll aead writer (first ++ second) =
      (encryptAll aead writer first).bind fun now =>
        (encryptAll aead now.2 second).map fun later => (now.1 ++ later.1, later.2) := by
  induction first generalizing writer with
  | nil =>
      show encryptAll aead writer second = _
      rw [encryptAll, Option.bind_some]
      cases encryptAll aead writer second <;> rfl
  | cons plaintext first ih =>
      rw [List.cons_append, encryptAll, encryptAll]
      cases writer.encrypt aead plaintext with
      | mk frame next =>
          cases frame with
          | none => rfl
          | some frame =>
              dsimp only
              rw [ih]
              cases encryptAll aead next first with
              | none => rfl
              | some now =>
                  simp only [Option.bind_some, Option.map_some]
                  cases encryptAll aead now.2 second <;> rfl

/-- One more message behind those that were encrypted. -/
theorem encryptAll_concat {next : ControlCipher} (h : encryptAll aead writer plaintexts = some (frames, writer'))
    (hencrypt : writer'.encrypt aead plaintext = (some frame, next)) :
    encryptAll aead writer (plaintexts ++ [plaintext]) = some (frames ++ [frame], next) := by
  have hone : encryptAll aead writer' [plaintext] = some ([frame], next) := by
    unfold encryptAll
    rw [hencrypt]
    rfl
  rw [encryptAll_append_eq, h, Option.bind_some, hone]
  rfl

theorem encryptAll_ne_nil (haead : aead.RoundTrips)
    (h : encryptAll aead writer plaintexts = some (frames, writer')) :
    ∀ frame ∈ frames, frame ≠ [] := by
  induction plaintexts generalizing writer frames with
  | nil =>
      cases h
      simp
  | cons plaintext plaintexts ih =>
      obtain ⟨frame, next, rest, rfl, hencrypt, hrest⟩ := encryptAll_cons h
      intro other hother
      rcases List.mem_cons.mp hother with rfl | hother
      · have hlength := length_frame haead hencrypt
        intro hnil
        rw [hnil, List.length_nil] at hlength
        omega
      · exact ih hrest other hother

/-- A reader that waits for the rest of a frame takes nothing. -/
theorem decryptOne_awaits (haead : aead.RoundTrips)
    (h : encryptAll aead writer plaintexts = some (frames, writer')) {buffer : Bytes}
    (hawaits : Awaits buffer frames) :
    reader.decryptOne aead buffer = (some [], reader, buffer) := by
  cases plaintexts with
  | nil =>
      cases h
      have hbuffer : buffer = [] := hawaits
      rw [hbuffer]
      rfl
  | cons plaintext plaintexts =>
      obtain ⟨frame, next, rest, rfl, hencrypt, -⟩ := encryptAll_cons h
      obtain ⟨more, hmore, hsplit⟩ := hawaits
      exact decryptOne_incomplete haead hencrypt hmore hsplit

/-- A reader in step takes the frame at the front and stays in step. -/
theorem InStep.next_frame (haead : aead.RoundTrips) (hstep : reader.InStep writer) {later : List Bytes}
    (h : encryptAll aead writer plaintexts = some (frame :: later, writer')) :
    ∃ plaintext others next, plaintexts = plaintext :: others ∧
      (∀ rest, reader.decryptOne aead (frame ++ rest) = (some plaintext, reader.counted, rest)) ∧
      reader.counted.InStep next ∧ encryptAll aead next others = some (later, writer') := by
  cases plaintexts with
  | nil => cases h
  | cons plaintext others =>
      obtain ⟨_, next, _, heq, hencrypt, hrest⟩ := encryptAll_cons h
      cases heq
      exact ⟨plaintext, others, next, rfl, decryptOne_frame haead hstep hencrypt,
        hstep.counted hencrypt, hrest⟩

/-- What a reader waits with is shorter than the longest frame. -/
theorem length_awaits_lt (haead : aead.RoundTrips)
    (h : encryptAll aead writer plaintexts = some (frames, writer')) {buffer : Bytes}
    (hawaits : Awaits buffer frames) : buffer.length < 65535 + 18 := by
  cases plaintexts with
  | nil =>
      cases h
      have hbuffer : buffer = [] := hawaits
      rw [hbuffer]
      exact Nat.succ_pos _
  | cons plaintext plaintexts =>
      obtain ⟨frame, next, rest, rfl, hencrypt, -⟩ := encryptAll_cons h
      obtain ⟨more, hmore, hsplit⟩ := hawaits
      have hpos : 0 < more.length := List.length_pos_iff.mpr hmore
      have hlength := length_frame haead hencrypt
      have hsize := (encrypt_eq_some hencrypt).1
      rw [← hsplit, List.length_append] at hlength
      omega

/-- Whole frames, and what is there of the next one. -/
theorem decryptAll_frames (haead : aead.RoundTrips) (hstep : reader.InStep writer)
    (h : encryptAll aead writer plaintexts = some (frames, writer'))
    (hplaintexts : ∀ plaintext ∈ plaintexts, plaintext ≠ []) {tail : Bytes}
    (htail : ∀ reader', decryptOne aead reader' tail = (some [], reader', tail)) :
    ∃ reader', reader'.InStep writer' ∧
      decryptAll aead reader (frames.flatten ++ tail) = ⟨plaintexts, true, reader', tail⟩ := by
  induction plaintexts generalizing writer reader frames with
  | nil =>
      cases h
      exact ⟨reader, hstep, decryptAll_of_empty (htail reader)⟩
  | cons plaintext plaintexts ih =>
      obtain ⟨frame, next, rest, rfl, hencrypt, hrest⟩ := encryptAll_cons h
      have hdecrypt := decryptOne_frame haead hstep hencrypt (rest.flatten ++ tail)
      obtain ⟨last, hlast, hall⟩ := ih (hstep.counted hencrypt) hrest fun other hother =>
        hplaintexts other (List.mem_cons_of_mem _ hother)
      refine ⟨last, hlast, ?_⟩
      rw [List.flatten_cons, List.append_assoc,
        decryptAll_of_plaintext hdecrypt (hplaintexts plaintext List.mem_cons_self), hall]

/-- The plaintexts come back in order from any chunks of their frames, and the two sides
stay in step. -/
theorem InStep.decryptChunks_eq (haead : aead.RoundTrips) (hstep : reader.InStep writer)
    (h : encryptAll aead writer plaintexts = some (frames, writer'))
    (hplaintexts : ∀ plaintext ∈ plaintexts, plaintext ≠ []) {buffer : Bytes}
    (hawaits : Awaits buffer frames) {chunks : List Bytes}
    (hchunks : buffer ++ chunks.flatten = frames.flatten) :
    ∃ reader', reader'.InStep writer' ∧
      decryptChunks aead reader buffer chunks = ⟨plaintexts, true, reader', []⟩ := by
  induction chunks generalizing reader writer plaintexts frames buffer with
  | nil =>
      rw [List.flatten_nil, List.append_nil] at hchunks
      obtain ⟨rfl, rfl⟩ := hawaits.eq_nil hchunks
      cases plaintexts with
      | nil =>
          cases h
          exact ⟨reader, hstep, rfl⟩
      | cons plaintext plaintexts =>
          obtain ⟨_, _, _, hnil, -, -⟩ := encryptAll_cons h
          cases hnil
  | cons chunk chunks ih =>
      rw [List.flatten_cons, ← List.append_assoc] at hchunks
      obtain ⟨now, later, tail, rfl, hcut, htail, hawaits'⟩ :=
        cut_flatten (encryptAll_ne_nil haead h) hchunks
      obtain ⟨first, second, middle, rfl, hfirst, hsecond⟩ := encryptAll_append h
      obtain ⟨reader', hstep', hall⟩ := decryptAll_frames haead hstep hfirst
        (fun other hother => hplaintexts other (List.mem_append_left _ hother))
        (fun _ => decryptOne_awaits haead hsecond hawaits')
      obtain ⟨last, hlast, hrest⟩ := ih hstep' hsecond
        (fun other hother => hplaintexts other (List.mem_append_right _ hother)) hawaits' htail
      refine ⟨last, hlast, ?_⟩
      unfold decryptChunks
      rw [hcut, hall]
      dsimp only
      rw [if_pos rfl, hrest]

/-- What one cipher encrypts is what the other side reads, wherever the stream is cut, and a
frame that is refused changes neither the buffer nor a counter. -/
theorem controlStream_roundTrip (haead : aead.RoundTrips) :
    (∀ reader writer writer' plaintexts frames chunks, reader.InStep writer →
      (∀ plaintext ∈ plaintexts, plaintext ≠ [] ∧ plaintext.length ≤ 65535) →
      encryptAll aead writer plaintexts = some (frames, writer') →
      chunks.flatten = frames.flatten →
      ∃ reader', decryptChunks aead reader [] chunks = ⟨plaintexts, true, reader', []⟩ ∧
        reader'.readCounter = writer'.writeCounter) ∧
    (∀ cipher buffer cipher' buffer', decryptOne aead cipher buffer = (none, cipher', buffer') →
      cipher'.readCounter = cipher.readCounter ∧ cipher'.writeCounter = cipher.writeCounter ∧
        buffer' = buffer) := by
  constructor
  · intro reader writer writer' plaintexts frames chunks hstep hplaintexts hencrypt hchunks
    obtain ⟨reader', hstep', hread⟩ := hstep.decryptChunks_eq haead hencrypt
      (fun plaintext hplaintext => (hplaintexts plaintext hplaintext).1)
      (awaits_nil (encryptAll_ne_nil haead hencrypt)) hchunks
    exact ⟨reader', hread, hstep'.counter⟩
  · intro cipher buffer cipher' buffer' hnone
    obtain ⟨rfl, rfl⟩ := decryptOne_eq_none hnone
    exact ⟨rfl, rfl, rfl⟩

/-- Two calls of the cipher under one key. -/
def twoAnswers : List Aead.Answer :=
  [⟨List.replicate 32 0x42, List.replicate 12 0, [111, 107], [2, 0], [54, 13],
      [128, 66, 146, 43, 93, 173, 45, 124, 110, 240, 56, 54, 170, 46, 158, 227]⟩,
    ⟨List.replicate 32 0x42, [0, 0, 0, 0, 1, 0, 0, 0, 0, 0, 0, 0], [103, 111], [2, 0], [234, 231],
      [231, 125, 241, 255, 15, 57, 186, 134, 125, 175, 95, 64, 177, 131, 159, 233]⟩]

/-- Two messages, cut inside the length of the second frame. -/
theorem controlStream_roundTrip_twoMessages :
    ∃ frames writer' first second reader',
      encryptAll (.ofAnswers twoAnswers) ⟨[], List.replicate 32 0x42, 0, 0⟩ [[111, 107], [103, 111]] =
        some (frames, writer') ∧ first ++ second = frames.flatten ∧ first.length = 21 ∧
      decryptChunks (.ofAnswers twoAnswers) ⟨List.replicate 32 0x42, [], 0, 0⟩ []
        [first, second] = ⟨[[111, 107], [103, 111]], true, reader', []⟩ ∧ reader'.readCounter = 2 := by
  obtain ⟨frames, writer', hencrypt, hlength, hcounter⟩ : ∃ frames writer',
      encryptAll (.ofAnswers twoAnswers) ⟨[], List.replicate 32 0x42, 0, 0⟩ [[111, 107], [103, 111]] =
        some (frames, writer') ∧ frames.flatten.length = 40 ∧ writer'.writeCounter = 2 :=
    ⟨_, _, rfl, rfl, rfl⟩
  have haead : (Aead.ofAnswers twoAnswers).RoundTrips :=
    Aead.ofAnswers_roundTrips (by decide) (by decide)
  obtain ⟨reader', hread, hend⟩ := (controlStream_roundTrip haead).1
    ⟨List.replicate 32 0x42, [], 0, 0⟩ ⟨[], List.replicate 32 0x42, 0, 0⟩ writer' _ frames
    [frames.flatten.take 21, frames.flatten.drop 21] ⟨rfl, rfl⟩ (by decide) hencrypt (by simp)
  refine ⟨frames, writer', frames.flatten.take 21, frames.flatten.drop 21, reader', hencrypt,
    List.take_append_drop _ _, ?_, hread, hend.trans hcounter⟩
  rw [List.length_take, hlength]
  rfl

end ControlCipher
end Airplay
end Aa2acp
