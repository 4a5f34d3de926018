import Aa2acp.Iap2.Bootstrap
import Aa2acp.Iap2.CarPlayProbe
import Aa2acp.Iap2.CsmStream

/-!
# The hand-over from the bootstrap session to the CarPlay probe

The `control_data_` callback of `src/iap2_bt_main.cpp` gives each payload to the probe
when the session is Done and to the session otherwise.  The two have decoders of their
own, so what the payload that makes the session Done still holds never reaches the
probe: messages are handed over in full exactly when that payload ends with the message
that makes the session Done.
-/

namespace Aa2acp
namespace Iap2

open Csm Interaction

structure DispatchWorld where
  session : SessionWorld
  probe : ProbeWorld
deriving DecidableEq, Repr

/-- `processFrame` hands no longer payload to `handlePacket`. -/
theorem length_payload_le (buffer : Bytes) (header : Header) :
    ((buffer.drop 9).take (header.length.toNat - 9)).dropLast.length ≤ kMaximumChunk := by
  have hlt := header.length.toNat_lt
  rw [List.length_dropLast, List.length_take]
  unfold kMaximumChunk
  omega

section Dispatch

variable (env : SessionEnv) (probeEnv : ProbeEnv)

/-- The callback; `carplay` is the option of the worker. -/
def controlData (carplay : Bool) (bytes : Bytes) (w : DispatchWorld) : Sends DispatchWorld :=
  if carplay && w.session.session.isDone then
    (receiveProbe probeEnv bytes w.probe).bind fun probe => .done { w with probe := probe }
  else
    (receiveCsm env bytes w.session).bind fun session => .done { w with session := session }

/-- The payloads of the link, one after the other. -/
def controlDataAll (carplay : Bool) : List Bytes → DispatchWorld → Sends DispatchWorld
  | [], w => .done w
  | bytes :: payloads, w =>
      (controlData env probeEnv carplay bytes w).bind (controlDataAll carplay payloads)

/-- The messages up to and including the one that makes the session Done, and the
messages after it, when the session handles one message after the other. -/
def splitAtDone {S : Type} (respond : Bytes → S → Bool × S) :
    List Message → SessionWorld → S → List Message × List Message
  | [], _, _ => ([], [])
  | message :: messages, w, s =>
      if w.session.isDone then ([], message :: messages)
      else
        let (w, s) := (handle env message w).run respond s
        let (before, after) := splitAtDone respond messages w s
        (message :: before, after)

variable {env}

theorem splitAtDone_of_done {S : Type} {respond : Bytes → S → Bool × S}
    {messages : List Message} {w : SessionWorld} (h : w.session.isDone = true) (s : S) :
    splitAtDone env respond messages w s = ([], messages) := by
  cases messages with
  | nil => rfl
  | cons message messages =>
      unfold splitAtDone
      rw [if_pos h]

theorem splitAtDone_cons {S : Type} {respond : Bytes → S → Bool × S} (message : Message)
    (messages : List Message) {w : SessionWorld} (h : w.session.isDone = false) (s : S) :
    splitAtDone env respond (message :: messages) w s =
      (message :: (splitAtDone env respond messages ((handle env message w).run respond s).1
          ((handle env message w).run respond s).2).1,
        (splitAtDone env respond messages ((handle env message w).run respond s).1
          ((handle env message w).run respond s).2).2) := by
  conv_lhs => unfold splitAtDone
  rw [if_neg (by rw [h]; decide)]

end Dispatch

def SessionEvent.handled? : SessionEvent → Option Message
  | .handled message => some message
  | _ => none

def ProbeEvent.handled? : ProbeEvent → Option Message
  | .handled message => some message
  | _ => none

/-- The messages that the session handled. -/
def SessionWorld.handled (w : SessionWorld) : List Message :=
  w.trace.filterMap fun entry => entry.event.handled?

/-- The messages that the probe handled. -/
def ProbeWorld.handled (w : ProbeWorld) : List Message := w.trace.filterMap ProbeEvent.handled?

/-! ## What the probe handles -/

section Probe

variable {probeEnv : ProbeEnv}

/-- What `handle` does after it recorded the message: it handles no other one, and it
leaves the decoder alone. -/
structure ProbeWorld.SameStream (w w' : ProbeWorld) : Prop where
  handled : w'.handled = w.handled
  decoder : w'.probe.decoder = w.probe.decoder

theorem ProbeWorld.SameStream.refl (w : ProbeWorld) : w.SameStream w := ⟨rfl, rfl⟩

theorem ProbeWorld.SameStream.trans {w w' w'' : ProbeWorld} (h : w.SameStream w')
    (h' : w'.SameStream w'') : w.SameStream w'' :=
  ⟨h'.handled.trans h.handled, h'.decoder.trans h.decoder⟩

theorem sameStream_update {w : ProbeWorld} {change : CarPlayProbe → CarPlayProbe}
    (hchange : ∀ probe, (change probe).decoder = probe.decoder) : w.SameStream (w.update change) :=
  ⟨rfl, hchange w.probe⟩

theorem sameStream_record {w : ProbeWorld} {event : ProbeEvent} (hevent : event.handled? = none) :
    w.SameStream (w.record event) := by
  refine ⟨?_, rfl⟩
  unfold ProbeWorld.handled ProbeWorld.record
  simp [hevent]

theorem sameStream_sendOrFail {bytes : Bytes} {onSuccess : CarPlayProbe → CarPlayProbe}
    (hsuccess : ∀ probe, (onSuccess probe).decoder = probe.decoder) {w w' : ProbeWorld}
    (h : Outcome (sendOrFail bytes onSuccess w) w') : w.SameStream w' := by
  unfold sendOrFail at h
  by_cases hattached : w.probe.attached = true
  · rw [if_pos hattached, outcome_ask_iff] at h
    obtain ⟨accepted, h⟩ := h
    rw [outcome_done_iff.mp h]
    refine (sameStream_record rfl).trans (sameStream_update fun probe => ?_)
    cases accepted with
    | true => exact hsuccess probe
    | false => rfl
  · rw [if_neg hattached] at h
    rw [outcome_done_iff.mp h]
    exact sameStream_update fun _ => rfl

theorem sameStream_handleStartSession {message : Message} {w w' : ProbeWorld}
    (h : Outcome (handleStartSession message w) w') : w.SameStream w' := by
  unfold handleStartSession at h
  dsimp only at h
  have hendpoint : w.SameStream (w.update fun probe =>
      probe.setAirplayEndpoint (stringParameter message 3) (u32Parameter message 2)) :=
    sameStream_update fun _ => rfl
  refine hendpoint.trans ?_
  split at h
  · rw [outcome_done_iff.mp h]
    exact sameStream_update fun _ => rfl
  · refine sameStream_sendOrFail ?_ h
    intro probe
    rfl

theorem sameStream_callJoinHandler (configuration : AccessoryWifiConfiguration) (w : ProbeWorld) :
    w.SameStream (callJoinHandler probeEnv configuration w).2 := by
  unfold callJoinHandler
  have hrecord : w.SameStream (w.record
      (.joining configuration (probeEnv.join w.trace configuration).1)) := sameStream_record rfl
  dsimp only
  split
  · exact hrecord
  · exact hrecord.trans (sameStream_update fun _ => rfl)

theorem sameStream_handleWifiConfiguration {message : Message} {w w' : ProbeWorld}
    (h : Outcome (handleWifiConfiguration probeEnv message w) w') : w.SameStream w' := by
  unfold handleWifiConfiguration at h
  dsimp only at h
  split at h
  · rw [outcome_done_iff.mp h]
    exact sameStream_update fun _ => rfl
  split at h
  · have hcalled : w.SameStream (callJoinHandler probeEnv (wifiConfiguration message) w).2 :=
      sameStream_callJoinHandler (wifiConfiguration message) w
    refine hcalled.trans ?_
    split at h
    · rw [outcome_done_iff.mp h]
      exact sameStream_update fun _ => rfl
    · refine sameStream_sendOrFail (fun probe => ?_) h
      split <;> rfl
  · rw [outcome_done_iff.mp h]
    exact sameStream_update fun _ => rfl

theorem handled_handleProbe {message : Message} {w w' : ProbeWorld}
    (h : Outcome (handleProbe probeEnv message w) w') :
    w'.handled = w.handled ++ [message] ∧ w'.probe.decoder = w.probe.decoder := by
  have hrecord : (w.record (.handled message)).handled = w.handled ++ [message] := by
    unfold ProbeWorld.handled ProbeWorld.record
    simp [ProbeEvent.handled?]
  have hsame : (w.record (.handled message)).SameStream w' := by
    unfold handleProbe at h
    dsimp only at h
    split at h
    · exact sameStream_handleStartSession h
    split at h
    · exact sameStream_handleWifiConfiguration h
    · rw [outcome_done_iff.mp h]
      exact .refl _
  exact ⟨hsame.handled.trans hrecord, hsame.decoder⟩

theorem handled_handleProbeAll {messages : List Message} {w w' : ProbeWorld}
    (h : Outcome (handleProbeAll probeEnv messages w) w') :
    w'.handled = w.handled ++ messages ∧ w'.probe.decoder = w.probe.decoder := by
  induction messages generalizing w with
  | nil =>
      rw [outcome_done_iff.mp h]
      exact ⟨(List.append_nil _).symm, rfl⟩
  | cons message messages ih =>
      unfold handleProbeAll at h
      obtain ⟨middle, hfirst, hrest⟩ := outcome_bind_iff.mp h
      obtain ⟨hhandled, hdecoder⟩ := handled_handleProbe hfirst
      obtain ⟨hhandled', hdecoder'⟩ := ih hrest
      refine ⟨?_, hdecoder'.trans hdecoder⟩
      rw [hhandled', hhandled, List.append_assoc, List.singleton_append]

/-- The probe handles what its decoder gets out of a payload. -/
theorem handled_receiveProbe {bytes : Bytes} {w w' : ProbeWorld}
    (h : Outcome (receiveProbe probeEnv bytes w) w') :
    w'.handled = w.handled ++ (w.probe.decoder.push bytes).drain.1 ∧
      w'.probe.decoder = (w.probe.decoder.push bytes).drain.2 :=
  handled_handleProbeAll h

end Probe

/-! ## What the session handles -/

section Session

variable {env : SessionEnv}

/-- What `handle` does after it recorded the message. -/
structure SessionWorld.SameStream (w w' : SessionWorld) : Prop where
  handled : w'.handled = w.handled
  decoder : w'.session.decoder = w.session.decoder

theorem SessionWorld.SameStream.refl (w : SessionWorld) : w.SameStream w := ⟨rfl, rfl⟩

theorem SessionWorld.SameStream.trans {w w' w'' : SessionWorld} (h : w.SameStream w')
    (h' : w'.SameStream w'') : w.SameStream w'' :=
  ⟨h'.handled.trans h.handled, h'.decoder.trans h.decoder⟩

theorem SessionWorld.sameStream_record {w : SessionWorld} {event : SessionEvent}
    (hevent : event.handled? = none) : w.SameStream (w.record event) := by
  refine ⟨?_, rfl⟩
  unfold SessionWorld.handled SessionWorld.record
  simp [hevent]

theorem SessionWorld.sameStream_fail (w : SessionWorld) : w.SameStream w.fail := by
  have hrecord : w.SameStream (w.record .failed) := sameStream_record rfl
  exact hrecord.trans ⟨rfl, rfl⟩

theorem sameStream_sendMessage {bytes : Bytes} {w : SessionWorld} {result : Bool × SessionWorld}
    (h : Outcome (sendMessage bytes w) result) : w.SameStream result.2 := by
  unfold sendMessage at h
  split at h
  · obtain ⟨accepted, h⟩ := outcome_ask_iff.mp h
    rw [outcome_done_iff.mp h]
    exact SessionWorld.sameStream_record rfl
  · rw [outcome_done_iff.mp h]
    exact .refl _

theorem sameStream_sendEmpty {id : UInt16} {w w' : SessionWorld}
    (h : Outcome (sendEmpty id w) w') : w.SameStream w' := by
  unfold sendEmpty at h
  obtain ⟨⟨accepted, sent⟩, hsent, h⟩ := outcome_bind_iff.mp h
  have hsame := sameStream_sendMessage hsent
  rw [outcome_done_iff.mp h]
  split
  · exact hsame
  · exact hsame.trans sent.sameStream_fail

theorem sameStream_handleIdentification {message : Message} {w w' : SessionWorld}
    (h : Outcome (handleIdentification message w) w') : w.SameStream w' := by
  unfold handleIdentification at h
  split at h
  · rw [outcome_done_iff.mp h]
    exact w.sameStream_fail
  split at h
  · obtain ⟨first, hfirst, h⟩ := outcome_bind_iff.mp h
    obtain ⟨second, hsecond, h⟩ := outcome_bind_iff.mp h
    rw [outcome_done_iff.mp h]
    exact ((sameStream_sendEmpty hfirst).trans (sameStream_sendEmpty hsecond)).trans ⟨rfl, rfl⟩
  · rw [outcome_done_iff.mp h]
    exact .refl _

theorem sameStream_handleCertificate {message : Message} {w w' : SessionWorld}
    (h : Outcome (handleCertificate env message w) w') : w.SameStream w' := by
  unfold handleCertificate at h
  split at h
  · rw [outcome_done_iff.mp h]
    exact .refl _
  split at h
  · rw [outcome_done_iff.mp h]
    exact w.sameStream_fail
  · rename_i certificate hcertificate
    obtain ⟨⟨accepted, sent⟩, hsent, h⟩ := outcome_bind_iff.mp h
    have hdrawn : w.SameStream (((w.setCertificate certificate).record
        (.drew (env.draw w.trace))).setChallenge (env.draw w.trace)) := by
      have hstored : w.SameStream (w.setCertificate certificate) := ⟨rfl, rfl⟩
      have hrecord : (w.setCertificate certificate).SameStream ((w.setCertificate
          certificate).record (.drew (env.draw w.trace))) := SessionWorld.sameStream_record rfl
      exact (hstored.trans hrecord).trans ⟨rfl, rfl⟩
    have hsame := hdrawn.trans (sameStream_sendMessage hsent)
    rw [outcome_done_iff.mp h]
    split
    · exact hsame.trans ⟨rfl, rfl⟩
    · exact hsame.trans sent.sameStream_fail

theorem sameStream_handleResponse {message : Message} {w w' : SessionWorld}
    (h : Outcome (handleResponse env message w) w') : w.SameStream w' := by
  unfold handleResponse at h
  split at h
  · rw [outcome_done_iff.mp h]
    exact w.sameStream_fail
  split at h
  · split at h
    · rw [outcome_done_iff.mp h]
      exact w.sameStream_fail
    split at h
    · rw [outcome_done_iff.mp h]
      exact w.sameStream_fail
    · obtain ⟨sent, hsent, h⟩ := outcome_bind_iff.mp h
      rw [outcome_done_iff.mp h]
      exact (sameStream_sendEmpty hsent).trans ⟨rfl, rfl⟩
  · rw [outcome_done_iff.mp h]
    exact .refl _

theorem handled_handle {message : Message} {w w' : SessionWorld}
    (h : Outcome (handle env message w) w') :
    w'.handled = w.handled ++ [message] ∧ w'.session.decoder = w.session.decoder := by
  have hrecord : (w.record (.handled message)).handled = w.handled ++ [message] := by
    unfold SessionWorld.handled SessionWorld.record
    simp [SessionEvent.handled?]
  have hsame : (w.record (.handled message)).SameStream w' := by
    unfold handle at h
    dsimp only at h
    split at h
    · exact sameStream_handleIdentification h
    · exact sameStream_handleCertificate h
    · exact sameStream_handleResponse h
    · rw [outcome_done_iff.mp h]
      exact .refl _
  exact ⟨hsame.handled.trans hrecord, hsame.decoder⟩

theorem handled_handleAll {messages : List Message} {w w' : SessionWorld}
    (h : Outcome (handleAll env messages w) w') :
    w'.handled = w.handled ++ messages ∧ w'.session.decoder = w.session.decoder := by
  induction messages generalizing w with
  | nil =>
      rw [outcome_done_iff.mp h]
      exact ⟨(List.append_nil _).symm, rfl⟩
  | cons message messages ih =>
      unfold handleAll at h
      obtain ⟨middle, hfirst, hrest⟩ := outcome_bind_iff.mp h
      obtain ⟨hhandled, hdecoder⟩ := handled_handle hfirst
      obtain ⟨hhandled', hdecoder'⟩ := ih hrest
      refine ⟨?_, hdecoder'.trans hdecoder⟩
      rw [hhandled', hhandled, List.append_assoc, List.singleton_append]

end Session

/-! ## The decoder does not matter to `handle` -/

section SetDecoder

variable {S : Type} (env : SessionEnv) (respond : Bytes → S → Bool × S) (decoder : Decoder)

theorem run_sendMessage_setDecoder (bytes : Bytes) (w : SessionWorld) (s : S) :
    (sendMessage bytes (w.setDecoder decoder)).run respond s =
      ((((sendMessage bytes w).run respond s).1.1,
        ((sendMessage bytes w).run respond s).1.2.setDecoder decoder),
        ((sendMessage bytes w).run respond s).2) := by
  unfold sendMessage
  have hattached : (w.setDecoder decoder).session.attached = w.session.attached := rfl
  rw [hattached]
  split <;> rfl

theorem run_sendEmpty_setDecoder (id : UInt16) (w : SessionWorld) (s : S) :
    (sendEmpty id (w.setDecoder decoder)).run respond s =
      (((sendEmpty id w).run respond s).1.setDecoder decoder,
        ((sendEmpty id w).run respond s).2) := by
  unfold sendEmpty
  rw [run_bind, run_bind, run_sendMessage_setDecoder]
  dsimp only [run_done]
  split <;> rfl

theorem run_handleIdentification_setDecoder (message : Message) (w : SessionWorld) (s : S) :
    (handleIdentification message (w.setDecoder decoder)).run respond s =
      (((handleIdentification message w).run respond s).1.setDecoder decoder,
        ((handleIdentification message w).run respond s).2) := by
  unfold handleIdentification
  split
  · rfl
  split
  · simp only [run_bind, run_sendEmpty_setDecoder, run_done]
    rfl
  · rfl

theorem run_handleCertificate_setDecoder (message : Message) (w : SessionWorld) (s : S) :
    (handleCertificate env message (w.setDecoder decoder)).run respond s =
      (((handleCertificate env message w).run respond s).1.setDecoder decoder,
        ((handleCertificate env message w).run respond s).2) := by
  unfold handleCertificate
  split
  · rfl
  cases firstBytesParameter message.payload 0 with
  | none => rfl
  | some certificate =>
      have hdraw : (((w.setDecoder decoder).setCertificate certificate).record
          (.drew (env.draw w.trace))).setChallenge (env.draw w.trace) =
            ((((w.setCertificate certificate).record
              (.drew (env.draw w.trace))).setChallenge (env.draw w.trace)).setDecoder decoder) :=
        rfl
      have htrace : ((w.setDecoder decoder).setCertificate certificate).trace = w.trace := rfl
      have htrace' : (w.setCertificate certificate).trace = w.trace := rfl
      dsimp only
      rw [htrace, htrace', hdraw, run_bind, run_bind, run_sendMessage_setDecoder]
      dsimp only [run_done]
      split <;> rfl

theorem run_handleResponse_setDecoder (message : Message) (w : SessionWorld) (s : S) :
    (handleResponse env message (w.setDecoder decoder)).run respond s =
      (((handleResponse env message w).run respond s).1.setDecoder decoder,
        ((handleResponse env message w).run respond s).2) := by
  unfold handleResponse
  split
  · rfl
  split
  · cases firstBytesParameter message.payload 0 with
    | none => rfl
    | some signature =>
        have hsession : (w.setDecoder decoder).session.challenge = w.session.challenge ∧
            (w.setDecoder decoder).session.certificate = w.session.certificate := ⟨rfl, rfl⟩
        dsimp only
        rw [hsession.1, hsession.2]
        split
        · rfl
        · simp only [run_bind, run_sendEmpty_setDecoder, run_done]
          rfl
  · rfl

/-- A session that differs in its decoder only handles a message in the same way. -/
theorem run_handle_setDecoder (message : Message) (w : SessionWorld) (s : S) :
    (handle env message (w.setDecoder decoder)).run respond s =
      (((handle env message w).run respond s).1.setDecoder decoder,
        ((handle env message w).run respond s).2) := by
  have hrecord : (w.setDecoder decoder).record (.handled message) =
      (w.record (.handled message)).setDecoder decoder := rfl
  have hstage (w : SessionWorld) : (w.setDecoder decoder).session.stage = w.session.stage := rfl
  unfold handle
  dsimp only
  rw [hrecord, hstage]
  split
  · exact run_handleIdentification_setDecoder respond decoder message _ s
  · exact run_handleCertificate_setDecoder env respond decoder message _ s
  · exact run_handleResponse_setDecoder env respond decoder message _ s
  · rfl

/-- `splitAtDone` does not look at the decoder. -/
theorem splitAtDone_setDecoder (messages : List Message) (w : SessionWorld) (s : S) :
    splitAtDone env respond messages (w.setDecoder decoder) s =
      splitAtDone env respond messages w s := by
  induction messages generalizing w s with
  | nil => rfl
  | cons message messages ih =>
      have hsame : (w.setDecoder decoder).session.isDone = w.session.isDone := rfl
      cases hdone : w.session.isDone with
      | true => rw [splitAtDone_of_done (hsame.trans hdone), splitAtDone_of_done hdone]
      | false =>
          rw [splitAtDone_cons _ _ (hsame.trans hdone), splitAtDone_cons _ _ hdone,
            run_handle_setDecoder]
          dsimp only
          rw [ih]

end SetDecoder

/-! ## Splitting the messages -/

section Split

variable {S : Type} (env : SessionEnv) (respond : Bytes → S → Bool × S)

theorem handle_of_done {message : Message} {w : SessionWorld} (h : w.session.isDone = true) :
    handle env message w = .done (w.record (.handled message)) := by
  have hstage : (w.record (.handled message)).session.stage = .done := of_decide_eq_true h
  unfold handle
  dsimp only
  rw [hstage]

theorem isDone_handleAll {messages : List Message} {w : SessionWorld}
    (h : w.session.isDone = true) (s : S) :
    ((handleAll env messages w).run respond s).1.session.isDone = true := by
  induction messages generalizing w s with
  | nil => exact h
  | cons message messages ih =>
      unfold handleAll
      rw [run_bind, handle_of_done env h]
      exact ih (w := w.record (.handled message)) h s

theorem splitAtDone_append (messages : List Message) (w : SessionWorld) (s : S) :
    (splitAtDone env respond messages w s).1 ++ (splitAtDone env respond messages w s).2 =
      messages := by
  induction messages generalizing w s with
  | nil => rfl
  | cons message messages ih =>
      cases hdone : w.session.isDone with
      | true =>
          rw [splitAtDone_of_done hdone]
          rfl
      | false =>
          rw [splitAtDone_cons _ _ hdone]
          exact congrArg (message :: ·) (ih _ _)

/-- A session that is not Done takes the first message. -/
theorem splitAtDone_ne_nil {messages : List Message} (hmessages : messages ≠ [])
    {w : SessionWorld} (h : w.session.isDone = false) (s : S) :
    (splitAtDone env respond messages w s).1 ≠ [] := by
  cases messages with
  | nil => exact absurd rfl hmessages
  | cons message messages =>
      rw [splitAtDone_cons _ _ h]
      exact List.cons_ne_nil _ _

/-- While the session does not become Done, the split goes on behind these messages. -/
theorem splitAtDone_of_not_done {now : List Message} {w : SessionWorld} {s : S}
    (h : ((handleAll env now w).run respond s).1.session.isDone = false) (later : List Message) :
    splitAtDone env respond (now ++ later) w s =
      (now ++ (splitAtDone env respond later ((handleAll env now w).run respond s).1
          ((handleAll env now w).run respond s).2).1,
        (splitAtDone env respond later ((handleAll env now w).run respond s).1
          ((handleAll env now w).run respond s).2).2) := by
  induction now generalizing w s with
  | nil => rfl
  | cons message now ih =>
      have hdone : w.session.isDone = false := by
        by_contra hdone
        rw [isDone_handleAll env respond (by simpa using hdone)] at h
        cases h
      unfold handleAll at h ⊢
      rw [run_bind] at h ⊢
      rw [List.cons_append, splitAtDone_cons _ _ hdone, ih h]
      rfl

/-- When these messages make the session Done, it splits them. -/
theorem splitAtDone_of_becomes_done {now : List Message} {w : SessionWorld} {s : S}
    (h : ((handleAll env now w).run respond s).1.session.isDone = true) (later : List Message) :
    ∃ extra, now = (splitAtDone env respond (now ++ later) w s).1 ++ extra ∧
      (splitAtDone env respond (now ++ later) w s).2 = extra ++ later := by
  induction now generalizing w s with
  | nil =>
      have hdone : w.session.isDone = true := h
      refine ⟨[], ?_⟩
      rw [splitAtDone_of_done hdone]
      exact ⟨rfl, rfl⟩
  | cons message now ih =>
      cases hdone : w.session.isDone with
      | true =>
          refine ⟨message :: now, ?_⟩
          rw [splitAtDone_of_done hdone]
          exact ⟨rfl, rfl⟩
      | false =>
          unfold handleAll at h
          rw [run_bind] at h
          obtain ⟨extra, hnow, hafter⟩ := ih h
          refine ⟨extra, ?_⟩
          rw [List.cons_append, splitAtDone_cons _ _ hdone]
          exact ⟨congrArg (message :: ·) hnow, hafter⟩

end Split

/-! ## The dispatcher -/

/-- Between two points of a run the session handled the first messages and the probe the
others, and none else. -/
structure HandsOver (split : List Message × List Message) (w w' : DispatchWorld) : Prop where
  session : w'.session.handled = w.session.handled ++ split.1
  probe : w'.probe.handled = w.probe.handled ++ split.2

/-- These messages end where a payload ends. -/
def EndsPayload (buffer : Bytes) (payloads : List Bytes) (messages : List Message) : Prop :=
  ∃ count, buffer ++ (payloads.take count).flatten = encodeAll messages

section Dispatcher

variable {S : Type} (env : SessionEnv) (probeEnv : ProbeEnv) (respond : Bytes → S → Bool × S)

theorem run_controlData_of_not_done {w : DispatchWorld} (h : w.session.session.isDone = false)
    (bytes : Bytes) (s : S) :
    (controlData env probeEnv true bytes w).run respond s =
      ({ w with session := ((receiveCsm env bytes w.session).run respond s).1 },
        ((receiveCsm env bytes w.session).run respond s).2) := by
  unfold controlData
  rw [h, Bool.and_false, if_neg (by decide), run_bind, run_done]

/-- Once the session is Done, all the bytes go to the decoder of the probe. -/
theorem run_controlDataAll_of_done {w : DispatchWorld} (h : w.session.session.isDone = true)
    (payloads : List Bytes) (s : S) :
    ((controlDataAll env probeEnv true payloads w).run respond s).1.session = w.session ∧
      ((controlDataAll env probeEnv true payloads w).run respond s).1.probe.handled =
        w.probe.handled ++ (w.probe.probe.decoder.feed payloads).1 := by
  induction payloads generalizing w s with
  | nil => exact ⟨rfl, (List.append_nil _).symm⟩
  | cons bytes payloads ih =>
      have hreceive := handled_receiveProbe
        (outcome_run respond (receiveProbe probeEnv bytes w.probe) s)
      set received := (receiveProbe probeEnv bytes w.probe).run respond s with hreceived
      have hrun : (controlData env probeEnv true bytes w).run respond s =
          ({ w with probe := received.1 }, received.2) := by
        unfold controlData
        rw [h, Bool.and_true, if_pos rfl, run_bind, run_done]
      have hrest := ih (w := { w with probe := received.1 }) h received.2
      unfold controlDataAll Decoder.feed
      rw [run_bind, hrun]
      refine ⟨hrest.1, ?_⟩
      rw [hrest.2, hreceive.1, hreceive.2, List.append_assoc]

variable {messages : List Message}

/-- A decoder that waits has not even the bytes of the first message. -/
theorem length_lt_encodeAll {buffer : Bytes} (hwaiting : Waiting buffer messages)
    {before after : List Message} (hsplit : before ++ after = messages) (hbefore : before ≠ []) :
    buffer.length < (encodeAll before).length := by
  subst hsplit
  cases before with
  | nil => exact absurd rfl hbefore
  | cons message before =>
      have hlt := Waiting.length_lt hwaiting
      rw [encodeAll_cons, List.length_append]
      omega

theorem eq_nil_of_waiting_eq {buffer : Bytes} (hwaiting : Waiting buffer messages)
    {w : SessionWorld} (hdone : w.session.isDone = false) {s : S}
    (h : buffer = encodeAll (splitAtDone env respond messages w s).1) : messages = [] := by
  by_contra hmessages
  have hlt := length_lt_encodeAll hwaiting (splitAtDone_append env respond messages w s)
    (splitAtDone_ne_nil env respond hmessages hdone s)
  rw [← h] at hlt
  omega

/-- The session gets out of a payload the messages that it completes. -/
theorem run_receiveCsm_of_waiting {w : SessionWorld} {s : S}
    (hencodable : ∀ message ∈ messages, message.Encodable)
    (hwaiting : Waiting w.session.decoder.buffer messages) {bytes rest : Bytes}
    (hpayload : bytes.length ≤ kMaximumChunk)
    (hbytes : w.session.decoder.buffer ++ (bytes ++ rest) = encodeAll messages) :
    ∃ now later tail, messages = now ++ later ∧
      w.session.decoder.buffer ++ bytes = encodeAll now ++ tail ∧
      tail ++ rest = encodeAll later ∧ Waiting tail later ∧
      (receiveCsm env bytes w).run respond s =
        (handleAll env now (w.setDecoder ⟨tail⟩)).run respond s := by
  obtain ⟨now, later, tail, hmessages, hcut, htail, hwaiting', hdrain⟩ :=
    hwaiting.drain_push hencodable (hpayload.trans kMaximumChunk_le_kMaximumPush) hbytes
  refine ⟨now, later, tail, hmessages, hcut, htail, hwaiting', ?_⟩
  show (handleAll env (w.session.decoder.push bytes).drain.1
    (w.setDecoder (w.session.decoder.push bytes).drain.2)).run respond s = _
  have hpush : (w.session.decoder.push bytes).drain = (now, ⟨tail⟩) := hdrain
  rw [hpush]

/-- What the session handled first counts for the rest of the run as handled. -/
theorem handsOver_cons {w w' : DispatchWorld} {session : SessionWorld} {now : List Message}
    {split : List Message × List Message}
    (hhandled : session.handled = w.session.handled ++ now) :
    HandsOver (now ++ split.1, split.2) w w' ↔ HandsOver split { w with session := session } w' := by
  constructor
  · rintro ⟨hsession, hprobe⟩
    refine ⟨?_, hprobe⟩
    rw [hsession, hhandled, List.append_assoc]
  · rintro ⟨hsession, hprobe⟩
    refine ⟨?_, hprobe⟩
    rw [hsession, hhandled, List.append_assoc]

/-- The boundary after a payload that ends with a part of a message. -/
theorem endsPayload_cons {buffer bytes tail : Bytes} {payloads : List Bytes}
    {now before : List Message} (hcut : buffer ++ bytes = encodeAll now ++ tail)
    (hzero : buffer = encodeAll (now ++ before) → EndsPayload tail payloads before) :
    EndsPayload buffer (bytes :: payloads) (now ++ before) ↔ EndsPayload tail payloads before := by
  constructor
  · rintro ⟨count, hcount⟩
    cases count with
    | zero => exact hzero (by simpa using hcount)
    | succ count =>
        refine ⟨count, ?_⟩
        rw [List.take_succ_cons, List.flatten_cons, ← List.append_assoc, hcut, List.append_assoc,
          encodeAll_append] at hcount
        exact List.append_cancel_left hcount
  · rintro ⟨count, hcount⟩
    refine ⟨count + 1, ?_⟩
    rw [List.take_succ_cons, List.flatten_cons, ← List.append_assoc, hcut, List.append_assoc,
      hcount, encodeAll_append]

/-- The run from the payload on that makes the session Done: nothing is lost exactly
when that payload holds nothing behind the message that did it. -/
theorem handsOver_of_becomes_done {w w' : DispatchWorld} {now later before extra : List Message}
    {tail : Bytes} {payloads : List Bytes}
    (hlater : ∀ message ∈ later, message.Encodable)
    (hpayloads : ∀ payload ∈ payloads, payload.length ≤ kMaximumChunk)
    (hnow : now = before ++ extra) (htail : tail ++ payloads.flatten = encodeAll later)
    (hsession : w'.session.handled = w.session.handled ++ now)
    (hprobe : w'.probe.handled = w.probe.handled ++ ((Decoder.mk []).feed payloads).1) :
    HandsOver (before, extra ++ later) w w' ↔ extra = [] ∧ tail = [] := by
  constructor
  · rintro ⟨hfirst, hsecond⟩
    rw [hsession, hnow] at hfirst
    have hextra : extra = [] := by simpa using hfirst
    rw [hprobe, hextra] at hsecond
    have hfeed : ((Decoder.mk []).feed payloads).1 = later := List.append_cancel_left hsecond
    have hsize := feed_size payloads ⟨[]⟩
    have hlength := congrArg List.length htail
    rw [hfeed, ← length_encodeAll hlater, ← hlength, List.length_append, List.length_nil] at hsize
    exact ⟨hextra, List.length_eq_zero_iff.mp (by omega)⟩
  · rintro ⟨rfl, rfl⟩
    have hfeed := (waiting_nil hlater).feed hlater
      (fun payload h => (hpayloads payload h).trans kMaximumChunk_le_kMaximumPush) htail
    refine ⟨?_, ?_⟩
    · rw [hsession, hnow, List.append_nil]
    · rw [hprobe, hfeed, List.nil_append]

/-- The boundary at the payload that makes the session Done. -/
theorem endsPayload_of_becomes_done {buffer bytes tail : Bytes} {payloads : List Bytes}
    {now before extra : List Message} (hcut : buffer ++ bytes = encodeAll now ++ tail)
    (hnow : now = before ++ extra) (hextra : ∀ message ∈ extra, message.Encodable)
    (hbuffer : buffer ≠ encodeAll before) :
    EndsPayload buffer (bytes :: payloads) before ↔ extra = [] ∧ tail = [] := by
  constructor
  · rintro ⟨count, hcount⟩
    cases count with
    | zero => exact absurd (by simpa using hcount) hbuffer
    | succ count =>
        rw [List.take_succ_cons, List.flatten_cons, ← List.append_assoc, hcut, hnow,
          encodeAll_append, List.append_assoc, List.append_assoc] at hcount
        have hrest := List.append_right_eq_self.mp hcount
        obtain ⟨hencoded, hrest⟩ := List.append_eq_nil_iff.mp hrest
        exact ⟨eq_nil_of_encodeAll_eq_nil hextra hencoded, (List.append_eq_nil_iff.mp hrest).1⟩
  · rintro ⟨rfl, rfl⟩
    refine ⟨1, ?_⟩
    rw [hnow, List.append_nil, List.append_nil] at hcut
    simpa using hcut

/-- The invariant of the session's part of the run is that its decoder waits for the
next of the messages that are left. -/
theorem handsOver_of_waiting {payloads : List Bytes} {w : DispatchWorld} {s : S}
    (hencodable : ∀ message ∈ messages, message.Encodable)
    (hpayloads : ∀ payload ∈ payloads, payload.length ≤ kMaximumChunk)
    (hdone : w.session.session.isDone = false) (hprobe : w.probe.probe.decoder = {})
    (hwaiting : Waiting w.session.session.decoder.buffer messages)
    (hbytes : w.session.session.decoder.buffer ++ payloads.flatten = encodeAll messages) :
    HandsOver (splitAtDone env respond messages w.session s) w
        ((controlDataAll env probeEnv true payloads w).run respond s).1 ↔
      EndsPayload w.session.session.decoder.buffer payloads
        (splitAtDone env respond messages w.session s).1 := by
  induction payloads generalizing w s messages with
  | nil =>
      -- all the bytes are there, so no message is left
      have hmessages : messages = [] := by
        by_contra hne
        have hlt := length_lt_encodeAll hwaiting (List.append_nil messages) hne
        rw [← hbytes, List.flatten_nil, List.append_nil] at hlt
        omega
      subst hmessages
      have hbuffer : w.session.session.decoder.buffer = [] := hwaiting
      refine iff_of_true ⟨(List.append_nil _).symm, (List.append_nil _).symm⟩ ⟨0, ?_⟩
      rw [hbuffer]
      rfl
  | cons bytes payloads ih =>
      obtain ⟨now, later, tail, rfl, hcut, htail, hwaiting', hreceive⟩ :=
        run_receiveCsm_of_waiting env respond (s := s) hencodable hwaiting
          (hpayloads bytes List.mem_cons_self) hbytes
      have hlater : ∀ message ∈ later, message.Encodable := fun message hmessage =>
        hencodable message (List.mem_append_right _ hmessage)
      have hpayloads' : ∀ payload ∈ payloads, payload.length ≤ kMaximumChunk :=
        fun payload hpayload => hpayloads payload (List.mem_cons_of_mem _ hpayload)
      set start := w.session.setDecoder ⟨tail⟩ with hstart
      have hstartDone : start.session.isDone = false := hdone
      obtain ⟨hhandled, hdecoder⟩ :=
        handled_handleAll (outcome_run respond (handleAll env now start) s)
      rw [← splitAtDone_setDecoder env respond ⟨tail⟩ (now ++ later) w.session s, ← hstart]
      unfold controlDataAll
      rw [run_bind, run_controlData_of_not_done env probeEnv respond hdone, hreceive]
      set result := (handleAll env now start).run respond s with hresult
      dsimp only
      -- the payload either leaves the session as it was or ends it
      cases hnext : result.1.session.isDone with
      | false =>
          have hsplit := splitAtDone_of_not_done env respond hnext later
          have hbuffer : result.1.session.decoder = ⟨tail⟩ := hdecoder
          have hih := ih (w := { w with session := result.1 }) (s := result.2) hlater hpayloads'
            hnext hprobe (by rw [hbuffer]; exact hwaiting') (by rw [hbuffer]; exact htail)
          dsimp only at hih
          rw [hbuffer] at hih
          have hzero : w.session.session.decoder.buffer = encodeAll (now ++ (splitAtDone env
              respond later result.1 result.2).1) → EndsPayload tail payloads (splitAtDone env
                respond later result.1 result.2).1 := by
            intro hzero
            have hnil := eq_nil_of_waiting_eq env respond (s := s) hwaiting hstartDone (by rw [hsplit]; exact hzero)
            obtain ⟨rfl, rfl⟩ := List.append_eq_nil_iff.mp hnil
            have htail : tail = [] := hwaiting'
            exact ⟨0, by rw [htail]; rfl⟩
          rw [hsplit, endsPayload_cons hcut hzero, ← hih]
          exact handsOver_cons hhandled
      | true =>
          -- what comes behind the last message in this payload, `extra` and `tail`, misses the probe
          obtain ⟨extra, hnow, hafter⟩ := splitAtDone_of_becomes_done env respond hnext later
          have hbuffer : w.session.session.decoder.buffer ≠
              encodeAll (splitAtDone env respond (now ++ later) start s).1 := by
            intro hbuffer
            have hnil := eq_nil_of_waiting_eq env respond hwaiting hstartDone hbuffer
            obtain ⟨rfl, rfl⟩ := List.append_eq_nil_iff.mp hnil
            have hcontra : start.session.isDone = true := hnext
            rw [hstartDone] at hcontra
            cases hcontra
          have hextra : ∀ message ∈ extra, message.Encodable := fun message hmessage =>
            hencodable message (List.mem_append_left _ (hnow ▸ List.mem_append_right _ hmessage))
          obtain ⟨hsession, hother⟩ := run_controlDataAll_of_done env probeEnv respond
            (w := { w with session := result.1 })
            hnext payloads result.2
          have hpair : splitAtDone env respond (now ++ later) start s =
              ((splitAtDone env respond (now ++ later) start s).1, extra ++ later) := by
            rw [← hafter]
          rw [endsPayload_of_becomes_done hcut hnow hextra hbuffer, hpair]
          refine handsOver_of_becomes_done hlater hpayloads' hnow htail ?_ ?_
          · rw [hsession]
            exact hhandled
          · rw [hother]
            show w.probe.handled ++ (w.probe.probe.decoder.feed payloads).1 = _
            rw [hprobe]

end Dispatcher

/-- From any state in which both decoders are empty, over any cut of the messages into
payloads and any answers of the link: the session handles the messages up to the one
that makes it Done and the probe the others, exactly when a payload ends with that one
(or with the last message, when the session does not become Done). -/
theorem handsOver_iff {S : Type} (env : SessionEnv) (probeEnv : ProbeEnv)
    (respond : Bytes → S → Bool × S) (s : S) (w : DispatchWorld) (messages : List Message)
    (payloads : List Bytes) (hencodable : ∀ message ∈ messages, message.Encodable)
    (hpayloads : ∀ payload ∈ payloads, payload.length ≤ kMaximumChunk)
    (hsession : w.session.session.decoder = {}) (hprobe : w.probe.probe.decoder = {})
    (hbytes : payloads.flatten = encodeAll messages) :
    HandsOver (splitAtDone env respond messages w.session s) w
        ((controlDataAll env probeEnv true payloads w).run respond s).1 ↔
      ∃ count, (payloads.take count).flatten =
        encodeAll (splitAtDone env respond messages w.session s).1 := by
  cases hdone : w.session.session.isDone with
  | true =>
      -- the probe gets all of it
      obtain ⟨hsame, hhandled⟩ := run_controlDataAll_of_done env probeEnv respond hdone payloads s
      have hfeed := (waiting_nil hencodable).feed hencodable
        (fun payload h => (hpayloads payload h).trans kMaximumChunk_le_kMaximumPush) hbytes
      rw [splitAtDone_of_done hdone]
      refine iff_of_true ⟨?_, ?_⟩ ⟨0, rfl⟩
      · rw [hsame, List.append_nil]
      · rw [hhandled, hprobe, hfeed]
  | false =>
      have hbuffer : w.session.session.decoder.buffer = [] := by rw [hsession]
      have hiff := handsOver_of_waiting env probeEnv respond (s := s) hencodable hpayloads hdone
        hprobe (by rw [hbuffer]; exact waiting_nil hencodable) (by rw [hbuffer]; exact hbytes)
      rw [hbuffer] at hiff
      exact hiff

/-! ## A hand-over -/

/-- The messages of a complete exchange, and the first one for the probe. -/
def handOverMessages : List Message :=
  [⟨kIdentificationInformation, []⟩, ⟨kAuthenticationCertificate, [0, 5, 0, 0, 1]⟩,
    ⟨kAuthenticationResponse, [0, 5, 0, 0, 2]⟩, ⟨kCarPlayStartSession, []⟩]

/-- The session has sent its first message, and the probe is attached. -/
def handOverStart : DispatchWorld where
  session := ((begin .fresh).run (refuseOne []) 0).1
  probe := ⟨CarPlayProbe.attach { bluetoothIdentifier := [1] }, []⟩

/-- A probe without a join handler. -/
def handOverProbe : ProbeEnv := ⟨fun _ _ => (false, none)⟩

/-- The second message is split over two payloads and shares one with the first. -/
theorem handsOver_in_four_payloads :
    let bytes := handOverMessages.map Message.encode
    let payloads := [bytes[0]! ++ bytes[1]!.take 3, bytes[1]!.drop 3, bytes[2]!, bytes[3]!]
    HandsOver (handOverMessages.take 3, handOverMessages.drop 3) handOverStart
      ((controlDataAll exchangeEnv handOverProbe true payloads handOverStart).run
        (refuseOne []) 0).1 := by
  intro bytes payloads
  have hsplit : splitAtDone exchangeEnv (refuseOne []) handOverMessages handOverStart.session 0 =
      (handOverMessages.take 3, handOverMessages.drop 3) := by decide +kernel
  rw [← hsplit]
  refine (handsOver_iff exchangeEnv handOverProbe (refuseOne []) 0 handOverStart handOverMessages
    payloads (by decide +kernel) (by decide +kernel) (by decide +kernel) (by decide +kernel)
    (by decide +kernel)).mpr ⟨3, ?_⟩
  rw [hsplit]
  decide +kernel

/-- The first message for the probe is in the payload that makes the session Done, and
no one handles it but the session, which ignores it. -/
theorem carPlayStartSession_lost :
    let bytes := handOverMessages.map Message.encode
    let payloads := [bytes[0]!, bytes[1]!, bytes[2]! ++ bytes[3]!]
    payloads.flatten = encodeAll handOverMessages ∧
      ¬ HandsOver (splitAtDone exchangeEnv (refuseOne []) handOverMessages handOverStart.session 0)
        handOverStart
        ((controlDataAll exchangeEnv handOverProbe true payloads handOverStart).run
          (refuseOne []) 0).1 := by
  intro bytes payloads
  refine ⟨by decide +kernel, fun h => ?_⟩
  have hnone : ((controlDataAll exchangeEnv handOverProbe true payloads handOverStart).run
      (refuseOne []) 0).1.probe.handled = [] := by decide +kernel
  have hone : handOverStart.probe.handled ++ (splitAtDone exchangeEnv (refuseOne [])
      handOverMessages handOverStart.session 0).2 ≠ [] := by decide +kernel
  exact hone (h.probe.symm.trans hnone)

end Iap2
end Aa2acp
