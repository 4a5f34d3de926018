import Aa2acp.Airplay.EventAnswers
import Aa2acp.Airplay.ResponseSearch

/-!
# Frames that are left waiting

`decrypt_one` returns an empty value when the next frame is not there as a whole, and also
when the next frame has no plaintext, which `encrypt` accepts.  Both callers take it for the
first and go back to `poll`.

A call of `decrypt_one` leaves a whole frame behind exactly when a frame of length zero
stands at the front of the buffer with another whole frame behind it
(`leavesFrame_iff`); this is carried over all the calls that `send_encrypted` and
`service_event_channel` make (`framesWaiting_iff`).
-/

namespace Aa2acp
namespace Airplay

open ControlCipher

/-- A whole frame stands at the front of the buffer. -/
def HoldsFrame (buffer : Bytes) : Prop := 2 ≤ buffer.length ∧ frameLength buffer + 18 ≤ buffer.length

instance : DecidablePred HoldsFrame := fun _ => inferInstanceAs (Decidable (_ ∧ _))

/-- A whole frame of length zero stands at the front of the buffer. -/
def StartsEmpty (buffer : Bytes) : Prop := HoldsFrame buffer ∧ frameLength buffer = 0

instance : DecidablePred StartsEmpty := fun _ => inferInstanceAs (Decidable (_ ∧ _))

/-- Behind a frame of length zero stands another whole frame. -/
def EmptyBeforeFrame (buffer : Bytes) : Prop := StartsEmpty buffer ∧ HoldsFrame (buffer.drop 18)

instance : DecidablePred EmptyBeforeFrame := fun _ => inferInstanceAs (Decidable (_ ∧ _))

/-- This call of `decrypt_one` returns an empty value, and leaves a whole frame in the buffer. -/
def LeavesFrame (aead : Aead) (cipher : ControlCipher) (buffer : Bytes) : Prop :=
  ∃ cipher' buffer', cipher.decryptOne aead buffer = (some [], cipher', buffer') ∧ HoldsFrame buffer'

/-- What is in the buffer and what will come are frames that the peer has encrypted, and the
first of them is the next one that the cipher opens. -/
def Streams (aead : Aead) (cipher : ControlCipher) (buffer later : Bytes) : Prop :=
  ∃ writer writer' plaintexts frames, cipher.InStep writer ∧
    encryptAll aead writer plaintexts = some (frames, writer') ∧ buffer ++ later = frames.flatten

variable {aead : Aead} {cipher cipher' : ControlCipher} {buffer buffer' later plaintext : Bytes}

theorem decryptOne_of_not_holdsFrame (h : ¬ HoldsFrame buffer) :
    cipher.decryptOne aead buffer = (some [], cipher, buffer) := by
  unfold decryptOne
  by_cases htwo : buffer.length < 2
  · rw [if_pos htwo]
  · have hpart : buffer.length < frameLength buffer + 18 := by
      by_contra hwhole
      exact h ⟨Nat.le_of_not_lt htwo, Nat.le_of_not_lt hwhole⟩
    rw [if_neg htwo]
    exact if_pos hpart

namespace Streams

theorem append {chunk : Bytes} (h : Streams aead cipher buffer (chunk ++ later)) :
    Streams aead cipher (buffer ++ chunk) later := by
  obtain ⟨writer, writer', plaintexts, frames, hstep, hencrypt, hflatten⟩ := h
  exact ⟨writer, writer', plaintexts, frames, hstep, hencrypt, by rw [List.append_assoc, hflatten]⟩

/-- Only the read side matters. -/
theorem of_read (h : Streams aead cipher buffer later)
    (hread : ∀ writer, cipher.InStep writer → cipher'.InStep writer) :
    Streams aead cipher' buffer later := by
  obtain ⟨writer, writer', plaintexts, frames, hstep, hencrypt, hflatten⟩ := h
  exact ⟨writer, writer', plaintexts, frames, hread writer hstep, hencrypt, hflatten⟩

/-- A whole frame at the front is opened and taken out. -/
theorem decryptOne_of_holdsFrame (haead : aead.RoundTrips) (h : Streams aead cipher buffer later)
    (hholds : HoldsFrame buffer) :
    ∃ plaintext, plaintext.length = frameLength buffer ∧
      cipher.decryptOne aead buffer =
        (some plaintext, cipher.counted, buffer.drop (frameLength buffer + 18)) ∧
      Streams aead cipher.counted (buffer.drop (frameLength buffer + 18)) later := by
  obtain ⟨writer, writer', plaintexts, frames, hstep, hencrypt, hflatten⟩ := h
  cases plaintexts with
  | nil =>
      cases hencrypt
      have hlength := congrArg List.length hflatten
      rw [List.length_append, List.flatten_nil, List.length_nil] at hlength
      have htwo := hholds.1
      omega
  | cons plaintext plaintexts =>
      obtain ⟨frame, next, rest, rfl, hone, hrest⟩ := encryptAll_cons hencrypt
      have hlength : frameLength buffer = plaintext.length := by
        rw [← frameLength_append hholds.1 later, hflatten, List.flatten_cons]
        exact frameLength_frame hone _
      -- the frame is there as a whole
      have hframe : frame.length = frameLength buffer + 18 := by
        rw [hlength]
        exact length_frame haead hone
      have hle : frame.length ≤ buffer.length := hframe ▸ hholds.2
      obtain ⟨more, hmore⟩ : frame <+: buffer := by
        refine List.prefix_of_prefix_length_le ?_ (List.prefix_append buffer later) hle
        rw [hflatten, List.flatten_cons]
        exact List.prefix_append _ _
      have hdrop : buffer.drop (frameLength buffer + 18) = more := by
        rw [← hframe, ← hmore, List.drop_left]
      refine ⟨plaintext, hlength.symm, ?_, ?_⟩
      · rw [hdrop]
        conv => left; rw [← hmore]
        exact decryptOne_frame haead hstep hone more
      · refine ⟨next, writer', plaintexts, rest, hstep.counted hone, hrest, ?_⟩
        rw [← hmore, List.append_assoc, List.flatten_cons] at hflatten
        rw [hdrop]
        exact List.append_cancel_left hflatten

/-- A stream of frames stays one. -/
theorem decryptOne (haead : aead.RoundTrips) (h : Streams aead cipher buffer later)
    (hdecrypt : cipher.decryptOne aead buffer = (some plaintext, cipher', buffer')) :
    Streams aead cipher' buffer' later := by
  by_cases hholds : HoldsFrame buffer
  · obtain ⟨_, -, htaken, hnext⟩ := h.decryptOne_of_holdsFrame haead hholds
    rw [hdecrypt] at htaken
    cases htaken
    exact hnext
  · rw [decryptOne_of_not_holdsFrame hholds] at hdecrypt
    cases hdecrypt
    exact h

/-- The empty value means that no whole frame is there, but for frames of length zero. -/
theorem decryptOne_empty_iff (haead : aead.RoundTrips) (h : Streams aead cipher buffer later) :
    (cipher.decryptOne aead buffer).1 = some [] ↔ ¬ HoldsFrame buffer ∨ StartsEmpty buffer := by
  by_cases hholds : HoldsFrame buffer
  · obtain ⟨plaintext, hlength, htaken, -⟩ := h.decryptOne_of_holdsFrame haead hholds
    rw [htaken]
    constructor
    · intro hempty
      cases hempty
      exact Or.inr ⟨hholds, hlength.symm⟩
    · rintro (hnot | hstarts)
      · exact absurd hholds hnot
      · have hnil : plaintext = [] := List.length_eq_zero_iff.mp (hlength.trans hstarts.2)
        rw [hnil]
  · rw [decryptOne_of_not_holdsFrame hholds]
    exact ⟨fun _ => Or.inl hholds, fun _ => rfl⟩

theorem leavesFrame_iff (haead : aead.RoundTrips) (h : Streams aead cipher buffer later) :
    LeavesFrame aead cipher buffer ↔ EmptyBeforeFrame buffer := by
  constructor
  · rintro ⟨cipher', buffer', hdecrypt, hleft⟩
    rcases (h.decryptOne_empty_iff haead).mp (by rw [hdecrypt]) with hnot | hstarts
    · rw [decryptOne_of_not_holdsFrame hnot] at hdecrypt
      cases hdecrypt
      exact absurd hleft hnot
    · obtain ⟨_, -, htaken, -⟩ := h.decryptOne_of_holdsFrame haead hstarts.1
      rw [hdecrypt, hstarts.2, Nat.zero_add] at htaken
      cases htaken
      exact ⟨hstarts, hleft⟩
  · rintro ⟨hstarts, hbehind⟩
    obtain ⟨plaintext, hlength, htaken, -⟩ := h.decryptOne_of_holdsFrame haead hstarts.1
    rw [hstarts.2] at hlength htaken
    rw [List.length_eq_zero_iff.mp hlength] at htaken
    exact ⟨_, _, htaken, hbehind⟩

end Streams

/-! ## The calls of the two loops -/

namespace ControlReader

/-- The inner loop of `send_encrypted` goes on with another call of `decrypt_one`. -/
def GoesOn (aead : Aead) (expectedCseq : Option ℤ) (reader next : ControlReader) : Prop :=
  ∃ frame, frame ≠ [] ∧
    reader.cipher.decryptOne aead reader.encryptedBuffer =
      (some frame, next.cipher, next.encryptedBuffer) ∧
    readFrame expectedCseq reader.responsePlaintext frame = .more next.responsePlaintext

/-- In these turns `send_encrypted` calls `decrypt_one` with the cipher and the buffer of this
reader. -/
def Calls (aead : Aead) (expectedCseq : Option ℤ) : ControlReader → List Poll → ControlReader → Prop
  | _, [], _ => False
  | reader, poll :: polls, call =>
      Relation.ReflTransGen (GoesOn aead expectedCseq) reader call ∨
        ∃ next, reader.readFrames aead expectedCseq = (none, next) ∧ poll ≠ .failed ∧
          Calls aead expectedCseq { next with encryptedBuffer := next.encryptedBuffer ++ poll.bytes }
            polls call

end ControlReader

namespace EventChannel

/-- The inner loop of `service_event_channel` goes on with another call of `decrypt_one`. -/
def GoesOn (env : EventEnv) (channel next : EventChannel) : Prop :=
  ∃ frame cipher encryptedBuffer, frame ≠ [] ∧
    channel.cipher.decryptOne env.aead channel.encryptedBuffer = (some frame, cipher, encryptedBuffer) ∧
    next = serviceFrame env { channel with cipher, encryptedBuffer } frame ∧ next.closed = false

/-- While these chunks are received, `service_event_channel` calls `decrypt_one` with the cipher
and the buffer of this channel. -/
def Calls (env : EventEnv) : EventChannel → List Bytes → EventChannel → Prop
  | _, [], _ => False
  | channel, chunk :: chunks, call =>
      (channel.encryptedBuffer.length + chunk.length ≤ maximumEncryptedEventBuffer ∧
        Relation.ReflTransGen (GoesOn env)
          { channel with encryptedBuffer := channel.encryptedBuffer ++ chunk } call) ∨
        (channel.serviceChunk env chunk).closed = false ∧
          Calls env (channel.serviceChunk env chunk) chunks call

end EventChannel

/-! ## Every call sees the frames of the peer -/

section Sent

variable {expectedCseq : Option ℤ} {reader next call : ControlReader}

theorem ControlReader.GoesOn.streams (haead : aead.RoundTrips)
    (h : reader.GoesOn aead expectedCseq next)
    (hstreams : Streams aead reader.cipher reader.encryptedBuffer later) :
    Streams aead next.cipher next.encryptedBuffer later := by
  obtain ⟨frame, -, hdecrypt, -⟩ := h
  exact hstreams.decryptOne haead hdecrypt

theorem streams_of_reflTransGen (haead : aead.RoundTrips)
    (h : Relation.ReflTransGen (ControlReader.GoesOn aead expectedCseq) reader call)
    (hstreams : Streams aead reader.cipher reader.encryptedBuffer later) :
    Streams aead call.cipher call.encryptedBuffer later := by
  induction h with
  | refl => exact hstreams
  | tail _ hnext ih => exact hnext.streams haead ih

/-- The inner loop is left after a call that returned an empty value, or after a frame with
which a response was discarded. -/
theorem readFrames_left (h : reader.readFrames aead expectedCseq = (none, next)) :
    ∃ call, Relation.ReflTransGen (ControlReader.GoesOn aead expectedCseq) reader call ∧
      ((call.cipher.decryptOne aead call.encryptedBuffer =
          (some [], next.cipher, next.encryptedBuffer) ∧
        next.responsePlaintext = call.responsePlaintext) ∨
      ∃ frame, frame ≠ [] ∧ call.cipher.decryptOne aead call.encryptedBuffer =
          (some frame, next.cipher, next.encryptedBuffer) ∧
        ControlReader.readFrame expectedCseq call.responsePlaintext frame =
          .discarded next.responsePlaintext) := by
  induction hlength : reader.encryptedBuffer.length using Nat.strongRecOn generalizing reader with
  | ind length ih =>
      cases hdecrypt : reader.cipher.decryptOne aead reader.encryptedBuffer with
      | mk frame rest =>
          obtain ⟨cipher, encryptedBuffer⟩ := rest
          match frame with
          | none =>
              rw [ControlReader.readFrames_of_error hdecrypt] at h
              cases h
          | some [] =>
              rw [ControlReader.readFrames_of_empty hdecrypt] at h
              cases h
              exact ⟨reader, .refl, Or.inl ⟨hdecrypt, rfl⟩⟩
          | some (byte :: bytes) =>
              have hshorter := length_decryptOne_lt hdecrypt (List.cons_ne_nil _ _)
              rw [ControlReader.readFrames_of_frame hdecrypt (List.cons_ne_nil _ _)] at h
              split at h
              · rename_i responsePlaintext hread
                obtain ⟨call, hcalls, hleft⟩ := ih _ (hlength ▸ hshorter) h rfl
                exact ⟨call, .head ⟨_, List.cons_ne_nil _ _, hdecrypt, hread⟩ hcalls, hleft⟩
              · rename_i responsePlaintext hread
                cases h
                exact ⟨reader, .refl, Or.inr ⟨_, List.cons_ne_nil _ _, hdecrypt, hread⟩⟩
              · cases h

theorem streams_of_readFrames (haead : aead.RoundTrips)
    (h : reader.readFrames aead expectedCseq = (none, next))
    (hstreams : Streams aead reader.cipher reader.encryptedBuffer later) :
    Streams aead next.cipher next.encryptedBuffer later := by
  obtain ⟨call, hcalls, ⟨hdecrypt, -⟩ | ⟨frame, -, hdecrypt, -⟩⟩ := readFrames_left h
  · exact (streams_of_reflTransGen haead hcalls hstreams).decryptOne haead hdecrypt
  · exact (streams_of_reflTransGen haead hcalls hstreams).decryptOne haead hdecrypt

/-- Every call sees the stream from some frame on. -/
theorem ControlReader.Calls.streams (haead : aead.RoundTrips) {polls : List Poll}
    (h : reader.Calls aead expectedCseq polls call)
    (hstreams : Streams aead reader.cipher reader.encryptedBuffer (receivedBytes polls ++ later)) :
    ∃ later', Streams aead call.cipher call.encryptedBuffer later' := by
  induction polls generalizing reader with
  | nil => exact h.elim
  | cons poll polls ih =>
      rcases h with hinner | ⟨next, hread, -, hcalls⟩
      · exact ⟨_, streams_of_reflTransGen haead hinner hstreams⟩
      · apply ih hcalls
        have hnext := streams_of_readFrames haead hread hstreams
        rw [show receivedBytes (poll :: polls) = poll.bytes ++ receivedBytes polls from rfl,
          List.append_assoc] at hnext
        exact hnext.append

end Sent

section Serviced

variable {env : EventEnv} {channel next call : EventChannel}

theorem EventChannel.GoesOn.streams (haead : env.aead.RoundTrips) (h : channel.GoesOn env next)
    (hstreams : Streams env.aead channel.cipher channel.encryptedBuffer later) :
    Streams env.aead next.cipher next.encryptedBuffer later := by
  obtain ⟨frame, cipher, encryptedBuffer, -, hdecrypt, rfl, -⟩ := h
  rw [EventChannel.serviceFrame_encryptedBuffer]
  -- the answer moves the write counter only
  exact (hstreams.decryptOne haead hdecrypt).of_read fun writer hstep =>
    serviceFrame_inStep hstep frame

theorem streams_of_goesOn (haead : env.aead.RoundTrips)
    (h : Relation.ReflTransGen (EventChannel.GoesOn env) channel call)
    (hstreams : Streams env.aead channel.cipher channel.encryptedBuffer later) :
    Streams env.aead call.cipher call.encryptedBuffer later := by
  induction h with
  | refl => exact hstreams
  | tail _ hnext ih => exact hnext.streams haead ih

/-- The inner loop is left to go on after a call that returned an empty value, only then. -/
theorem serviceFrames_left (h : (channel.serviceFrames env).closed = false) :
    ∃ call, Relation.ReflTransGen (EventChannel.GoesOn env) channel call ∧
      call.cipher.decryptOne env.aead call.encryptedBuffer =
        (some [], (channel.serviceFrames env).cipher, (channel.serviceFrames env).encryptedBuffer) := by
  induction hlength : channel.encryptedBuffer.length using Nat.strongRecOn generalizing channel with
  | ind length ih =>
      cases hdecrypt : channel.cipher.decryptOne env.aead channel.encryptedBuffer with
      | mk frame rest =>
          obtain ⟨cipher, encryptedBuffer⟩ := rest
          match frame with
          | none =>
              rw [EventChannel.serviceFrames_of_error hdecrypt] at h
              cases h
          | some [] =>
              rw [EventChannel.serviceFrames_of_empty hdecrypt]
              exact ⟨channel, .refl, hdecrypt⟩
          | some (byte :: bytes) =>
              have hshorter := length_decryptOne_lt hdecrypt (List.cons_ne_nil _ _)
              rw [EventChannel.serviceFrames_of_frame hdecrypt (List.cons_ne_nil _ _)] at h ⊢
              dsimp only at h ⊢
              split at h
              · rename_i hclosed
                rw [hclosed] at h
                cases h
              · rename_i hclosed
                rw [if_neg hclosed]
                obtain ⟨call, hcalls, hempty⟩ := ih _ (by
                  rw [← hlength, EventChannel.serviceFrame_encryptedBuffer]
                  exact hshorter) h rfl
                exact ⟨call, .head ⟨_, _, _, List.cons_ne_nil _ _, hdecrypt, rfl,
                  Bool.eq_false_iff.mpr hclosed⟩ hcalls, hempty⟩

theorem streams_of_serviceChunk (haead : env.aead.RoundTrips) {chunk : Bytes}
    (h : (channel.serviceChunk env chunk).closed = false)
    (hstreams : Streams env.aead channel.cipher channel.encryptedBuffer (chunk ++ later)) :
    Streams env.aead (channel.serviceChunk env chunk).cipher
      (channel.serviceChunk env chunk).encryptedBuffer later := by
  unfold EventChannel.serviceChunk at h ⊢
  split at h
  · cases h
  · rename_i hroom
    rw [if_neg hroom]
    dsimp only at h ⊢
    split at h
    · cases h
    · rename_i hlimit
      rw [if_neg hlimit]
      obtain ⟨call, hcalls, hempty⟩ := serviceFrames_left h
      exact (streams_of_goesOn haead hcalls hstreams.append).decryptOne haead hempty

/-- Every call sees the stream from some frame on. -/
theorem EventChannel.Calls.streams (haead : env.aead.RoundTrips) {chunks : List Bytes}
    (h : channel.Calls env chunks call)
    (hstreams : Streams env.aead channel.cipher channel.encryptedBuffer (chunks.flatten ++ later)) :
    ∃ later', Streams env.aead call.cipher call.encryptedBuffer later' := by
  induction chunks generalizing channel with
  | nil => exact h.elim
  | cons chunk chunks ih =>
      rw [List.flatten_cons, List.append_assoc] at hstreams
      rcases h with ⟨-, hinner⟩ | ⟨hopen, hcalls⟩
      · exact ⟨_, streams_of_goesOn haead hinner hstreams.append⟩
      · exact ih hcalls (streams_of_serviceChunk haead hopen hstreams)

end Serviced

/-- An empty value means that no whole frame is there exactly when no frame of length zero is at
the front; and neither loop goes back to `poll` after an empty value with a whole frame in the
buffer exactly when at none of its calls of `decrypt_one` a frame of length zero stands before
another whole frame. -/
theorem framesWaiting_iff (haead : aead.RoundTrips) :
    (∀ cipher buffer later, Streams aead cipher buffer later →
      (((cipher.decryptOne aead buffer).1 = some [] ↔ ¬ HoldsFrame buffer) ↔
        ¬ StartsEmpty buffer)) ∧
    (∀ expectedCseq (reader : ControlReader) polls later,
      Streams aead reader.cipher reader.encryptedBuffer (receivedBytes polls ++ later) →
      ((∀ call, reader.Calls aead expectedCseq polls call →
          ¬ LeavesFrame aead call.cipher call.encryptedBuffer) ↔
        ∀ call, reader.Calls aead expectedCseq polls call →
          ¬ EmptyBeforeFrame call.encryptedBuffer)) ∧
    (∀ sendAll (channel : EventChannel) (chunks : List Bytes) later,
      Streams aead channel.cipher channel.encryptedBuffer (chunks.flatten ++ later) →
      ((∀ call, channel.Calls ⟨aead, sendAll⟩ chunks call →
          ¬ LeavesFrame aead call.cipher call.encryptedBuffer) ↔
        ∀ call, channel.Calls ⟨aead, sendAll⟩ chunks call →
          ¬ EmptyBeforeFrame call.encryptedBuffer)) := by
  refine ⟨?_, ?_, ?_⟩
  · intro cipher buffer later hstreams
    rw [hstreams.decryptOne_empty_iff haead]
    constructor
    · intro hiff hstarts
      exact hiff.mp (Or.inr hstarts) hstarts.1
    · intro hnot
      exact ⟨fun hcases => hcases.resolve_right hnot, Or.inl⟩
  · intro expectedCseq reader polls later hstreams
    apply forall₂_congr
    intro call hcalls
    obtain ⟨_, hcall⟩ := hcalls.streams haead hstreams
    rw [hcall.leavesFrame_iff haead]
  · intro sendAll channel chunks later hstreams
    apply forall₂_congr
    intro call hcalls
    obtain ⟨_, hcall⟩ : ∃ later', Streams aead call.cipher call.encryptedBuffer later' :=
      EventChannel.Calls.streams haead hcalls hstreams
    rw [hcall.leavesFrame_iff haead]

/-- Two calls of the cipher under one key, the first of them for no plaintext. -/
def emptyThenOk : List Aead.Answer :=
  [⟨List.replicate 32 0x42, List.replicate 12 0, [], [0, 0], [],
      [255, 178, 204, 14, 253, 204, 22, 85, 188, 17, 228, 57, 90, 109, 89, 1]⟩,
    ⟨List.replicate 32 0x42, [0, 0, 0, 0, 1, 0, 0, 0, 0, 0, 0, 0], [111, 107], [2, 0], [226, 227],
      [96, 169, 199, 214, 136, 131, 155, 195, 58, 30, 0, 115, 14, 72, 168, 9]⟩]

/-- The head unit's side. -/
def emptyThenOkWriter : ControlCipher := ⟨[], List.replicate 32 0x42, 0, 0⟩

/-- Our side. -/
def emptyThenOkReader : ControlCipher := ⟨List.replicate 32 0x42, [], 0, 0⟩

theorem emptyThenOk_roundTrips : (Aead.ofAnswers emptyThenOk).RoundTrips :=
  Aead.ofAnswers_roundTrips (by decide) (by decide)

/-- The two frames. -/
def emptyThenOkFrames : Bytes := (emptyThenOk.map Aead.Answer.frame).flatten

theorem emptyThenOk_streams : Streams (.ofAnswers emptyThenOk) emptyThenOkReader [] emptyThenOkFrames :=
  ⟨emptyThenOkWriter, _, [[], [111, 107]], emptyThenOk.map Aead.Answer.frame, ⟨rfl, rfl⟩, rfl, rfl⟩

/-- The inner loop ends with an empty value. -/
theorem not_goesOn_of_empty {env : EventEnv} {channel next : EventChannel}
    (h : (channel.cipher.decryptOne env.aead channel.encryptedBuffer).1 = some []) :
    ¬ channel.GoesOn env next := by
  rintro ⟨frame, cipher, encryptedBuffer, hframe, hdecrypt, -⟩
  rw [hdecrypt] at h
  exact hframe (Option.some.inj h)

/-- A frame of length zero that comes alone leaves nothing waiting. -/
theorem framesWaiting_iff_alone :
    EventChannel.serviceEventChannel ⟨.ofAnswers emptyThenOk, fun _ => true⟩
        { cipher := emptyThenOkReader } [emptyThenOkFrames.take 18] =
      { cipher := emptyThenOkReader.counted } ∧
    ∀ call, EventChannel.Calls ⟨.ofAnswers emptyThenOk, fun _ => true⟩ { cipher := emptyThenOkReader }
      [emptyThenOkFrames.take 18] call →
        ¬ LeavesFrame (.ofAnswers emptyThenOk) call.cipher call.encryptedBuffer := by
  refine ⟨by decide +kernel, ((framesWaiting_iff emptyThenOk_roundTrips).2.2 (fun _ => true)
    { cipher := emptyThenOkReader } [emptyThenOkFrames.take 18] (emptyThenOkFrames.drop 18)
    emptyThenOk_streams).mpr ?_⟩
  rintro call (⟨-, hinner⟩ | ⟨-, hcalls⟩)
  · rcases hinner.cases_head with rfl | ⟨next, hnext, -⟩
    · decide
    · exact absurd hnext (not_goesOn_of_empty (by decide +kernel))
  · exact hcalls.elim

/-- Both frames come in one read: the first one ends the inner loop, and both functions go back
to `poll` with the second one in the buffer. -/
theorem frame_leftWaiting :
    Streams (.ofAnswers emptyThenOk) emptyThenOkReader [] emptyThenOkFrames ∧
    (∃ call, EventChannel.Calls ⟨.ofAnswers emptyThenOk, fun _ => true⟩ { cipher := emptyThenOkReader }
        [emptyThenOkFrames] call ∧
      LeavesFrame (.ofAnswers emptyThenOk) call.cipher call.encryptedBuffer) ∧
    EventChannel.serviceEventChannel ⟨.ofAnswers emptyThenOk, fun _ => true⟩
        { cipher := emptyThenOkReader } [emptyThenOkFrames] =
      { cipher := emptyThenOkReader.counted, encryptedBuffer := emptyThenOkFrames.drop 18 } ∧
    HoldsFrame (emptyThenOkFrames.drop 18) ∧
    (∃ call, ControlReader.Calls (.ofAnswers emptyThenOk) none ⟨emptyThenOkReader, emptyThenOkFrames, []⟩
        [.nothing] call ∧
      LeavesFrame (.ofAnswers emptyThenOk) call.cipher call.encryptedBuffer) ∧
    ControlReader.readResponse (.ofAnswers emptyThenOk) none ⟨emptyThenOkReader, emptyThenOkFrames, []⟩
        [.nothing] =
      (.timedOut, ⟨emptyThenOkReader.counted, emptyThenOkFrames.drop 18, []⟩) := by
  have hleaves : LeavesFrame (.ofAnswers emptyThenOk) emptyThenOkReader emptyThenOkFrames :=
    ⟨emptyThenOkReader.counted, emptyThenOkFrames.drop 18, by decide +kernel, by decide +kernel⟩
  exact ⟨emptyThenOk_streams, ⟨_, Or.inl ⟨by decide +kernel, .refl⟩, hleaves⟩, by decide +kernel,
    by decide +kernel, ⟨_, Or.inl .refl, hleaves⟩, by decide +kernel⟩

end Airplay
end Aa2acp
