import Aa2acp.Iap2.Bootstrap
import Aa2acp.Lib.History
import Mathlib.Logic.Relation

/-!
# The steps of the bootstrap session

Every outcome of a run of the session is reached by `SessionStep`s, one for each
way in which `begin` and `handle` can end.  `AtEveryMoment` says what holds at each
event of a run and at its end.
-/

namespace Aa2acp
namespace Iap2

open Csm Interaction

/-! ## What a session can do -/

/-- The world after a `send_empty` call that the link answered. -/
def SessionWorld.sendEmpty (id : UInt16) (accepted : Bool) (w : SessionWorld) : SessionWorld :=
  let w := w.record (.sent (encode id []) accepted)
  if accepted then w else w.fail

/-- The world after a certificate was stored and a challenge drawn. -/
def SessionWorld.drawChallenge (certificate : Bytes) (challenge : Challenge) (w : SessionWorld) :
    SessionWorld :=
  ((w.setCertificate certificate).record (.drew challenge)).setChallenge challenge

/-- The world after that challenge was sent and the link answered. -/
def SessionWorld.sendChallenge (certificate : Bytes) (challenge : Challenge) (accepted : Bool)
    (w : SessionWorld) : SessionWorld :=
  let w := w.drawChallenge certificate challenge
  let w := w.record (.sent (challengeRequest challenge) accepted)
  if accepted then w.setStage .awaitResponse else w.fail

/-- The steps of a session: the decoder takes bytes, `begin`, and one call of
`handle` in each way it can end. -/
inductive SessionStep (env : SessionEnv) (w : SessionWorld) : SessionWorld → Prop
  | buffered (decoder : Decoder) : SessionStep env w (w.setDecoder decoder)
  | begun (accepted : Bool) (hstage : w.session.stage = .idle) :
      SessionStep env w
        ((w.setStage .awaitIdentification).sendEmpty kStartIdentification accepted)
  | ignored (message : Message) : SessionStep env w (w.record (.handled message))
  | gaveUp (message : Message)
      (hstage : w.session.stage ∈ [.awaitIdentification, .awaitCertificate, .awaitResponse]) :
      SessionStep env w (w.record (.handled message)).fail
  | identified (message : Message) (first second : Bool)
      (hstage : w.session.stage = .awaitIdentification)
      (hid : message.id = kIdentificationInformation) :
      SessionStep env w
        ((((w.record (.handled message)).sendEmpty kIdentificationAccepted first).sendEmpty
          kRequestAuthenticationCertificate second).setStage .awaitCertificate)
  | challenged (message : Message) (certificate : Bytes) (challenge : Challenge)
      (accepted : Bool) (hstage : w.session.stage = .awaitCertificate)
      (hid : message.id = kAuthenticationCertificate)
      (hcertificate : firstBytesParameter message.payload 0 = some certificate) :
      SessionStep env w
        ((w.record (.handled message)).sendChallenge certificate challenge accepted)
  | authenticated (message : Message) (signature : Bytes) (accepted : Bool)
      (hstage : w.session.stage = .awaitResponse)
      (hid : message.id = kAuthenticationResponse)
      (hsignature : firstBytesParameter message.payload 0 = some signature)
      (hverify : env.verify w.session.challenge.val signature w.session.certificate = true) :
      SessionStep env w
        (((w.record (.handled message)).sendEmpty kAuthenticationSucceeded accepted).setStage
          .done)

/-- Any number of steps. -/
abbrev SessionSteps (env : SessionEnv) := Relation.ReflTransGen (SessionStep env)

section Fields

variable (w : SessionWorld)

@[simp] theorem record_stage (event : SessionEvent) :
    (w.record event).session.stage = w.session.stage := rfl

@[simp] theorem record_session (event : SessionEvent) :
    (w.record event).session = w.session := rfl

@[simp] theorem record_trace (event : SessionEvent) :
    (w.record event).trace = w.trace ++ [⟨w.session.stage, event⟩] := rfl

@[simp] theorem setStage_stage (stage : Stage) : (w.setStage stage).session.stage = stage := rfl

@[simp] theorem setStage_attached (stage : Stage) :
    (w.setStage stage).session.attached = w.session.attached := rfl

@[simp] theorem setStage_trace (stage : Stage) : (w.setStage stage).trace = w.trace := rfl

@[simp] theorem setDecoder_trace (decoder : Decoder) :
    (w.setDecoder decoder).trace = w.trace := rfl

@[simp] theorem fail_stage : w.fail.session.stage = .failed := rfl

@[simp] theorem fail_attached : w.fail.session.attached = w.session.attached := rfl

@[simp] theorem fail_trace : w.fail.trace = w.trace ++ [⟨w.session.stage, .failed⟩] := rfl

@[simp] theorem sendEmpty_true (id : UInt16) :
    w.sendEmpty id true = w.record (.sent (encode id []) true) := rfl

@[simp] theorem sendEmpty_false (id : UInt16) :
    w.sendEmpty id false = (w.record (.sent (encode id []) false)).fail := rfl

@[simp] theorem sendEmpty_attached (id : UInt16) (accepted : Bool) :
    (w.sendEmpty id accepted).session.attached = w.session.attached := by
  cases accepted <;> rfl

@[simp] theorem drawChallenge_stage (certificate : Bytes) (challenge : Challenge) :
    (w.drawChallenge certificate challenge).session.stage = w.session.stage := rfl

@[simp] theorem drawChallenge_trace (certificate : Bytes) (challenge : Challenge) :
    (w.drawChallenge certificate challenge).trace =
      w.trace ++ [⟨w.session.stage, .drew challenge⟩] := rfl

@[simp] theorem sendChallenge_true (certificate : Bytes) (challenge : Challenge) :
    w.sendChallenge certificate challenge true =
      ((w.drawChallenge certificate challenge).record
        (.sent (challengeRequest challenge) true)).setStage .awaitResponse := rfl

@[simp] theorem sendChallenge_false (certificate : Bytes) (challenge : Challenge) :
    w.sendChallenge certificate challenge false =
      ((w.drawChallenge certificate challenge).record
        (.sent (challengeRequest challenge) false)).fail := rfl

@[simp] theorem sendChallenge_attached (certificate : Bytes) (challenge : Challenge)
    (accepted : Bool) :
    (w.sendChallenge certificate challenge accepted).session.attached = w.session.attached := by
  cases accepted <;> rfl

end Fields

variable {env : SessionEnv}

theorem SessionStep.attached {w w' : SessionWorld} (hstep : SessionStep env w w') :
    w'.session.attached = w.session.attached := by
  cases hstep <;> simp [SessionWorld.setDecoder]

theorem outcome_sendMessage {bytes : Bytes} {w : SessionWorld} {result : Bool × SessionWorld}
    (hattached : w.session.attached = true) (h : Outcome (sendMessage bytes w) result) :
    result = (result.1, w.record (.sent bytes result.1)) := by
  unfold sendMessage at h
  rw [if_pos hattached, outcome_ask_iff] at h
  obtain ⟨accepted, h⟩ := h
  rw [outcome_done_iff] at h
  rw [h]

theorem outcome_sendEmpty {id : UInt16} {w w' : SessionWorld}
    (hattached : w.session.attached = true) (h : Outcome (sendEmpty id w) w') :
    ∃ accepted, w' = w.sendEmpty id accepted := by
  unfold sendEmpty at h
  rw [outcome_bind_iff] at h
  obtain ⟨⟨accepted, sent⟩, hsent, h⟩ := h
  have heq := outcome_sendMessage hattached hsent
  simp only [Prod.mk.injEq, true_and] at heq
  rw [outcome_done_iff, heq] at h
  exact ⟨accepted, h⟩

theorem step_begin {w w' : SessionWorld} (hattached : w.session.attached = true)
    (hstage : w.session.stage = .idle) (h : Outcome (begin w) w') : SessionStep env w w' := by
  obtain ⟨accepted, rfl⟩ := outcome_sendEmpty (by simpa using hattached) h
  exact .begun accepted hstage

theorem step_handleIdentification {message : Message} {w w' : SessionWorld}
    (hattached : w.session.attached = true) (hstage : w.session.stage = .awaitIdentification)
    (h : Outcome (handleIdentification message (w.record (.handled message))) w') :
    SessionStep env w w' := by
  unfold handleIdentification at h
  by_cases hrejected : message.id = kIdentificationRejected
  · rw [if_pos hrejected, outcome_done_iff] at h
    exact h ▸ .gaveUp message (by simp [hstage])
  rw [if_neg hrejected] at h
  -- two messages answer the identification
  by_cases hid : message.id = kIdentificationInformation
  · rw [if_pos hid, outcome_bind_iff] at h
    obtain ⟨w1, h1, h⟩ := h
    obtain ⟨first, rfl⟩ := outcome_sendEmpty (by simpa using hattached) h1
    rw [outcome_bind_iff] at h
    obtain ⟨w2, h2, h⟩ := h
    obtain ⟨second, rfl⟩ := outcome_sendEmpty (by simpa using hattached) h2
    rw [outcome_done_iff] at h
    exact h ▸ .identified message first second hstage hid
  · rw [if_neg hid, outcome_done_iff] at h
    exact h ▸ .ignored message

theorem step_handleCertificate {message : Message} {w w' : SessionWorld}
    (hattached : w.session.attached = true) (hstage : w.session.stage = .awaitCertificate)
    (h : Outcome (handleCertificate env message (w.record (.handled message))) w') :
    SessionStep env w w' := by
  unfold handleCertificate at h
  by_cases hid : message.id = kAuthenticationCertificate
  · rw [if_neg (not_not.mpr hid)] at h
    -- without a certificate in it the session gives up
    cases hcertificate : firstBytesParameter message.payload 0 with
    | none =>
        rw [hcertificate] at h
        dsimp only at h
        rw [outcome_done_iff] at h
        exact h ▸ .gaveUp message (by simp [hstage])
    | some certificate =>
        rw [hcertificate] at h
        dsimp only at h
        rw [outcome_bind_iff] at h
        obtain ⟨⟨accepted, sent⟩, hsent, h⟩ := h
        have heq := outcome_sendMessage (by exact hattached) hsent
        simp only [Prod.mk.injEq, true_and] at heq
        rw [outcome_done_iff, heq] at h
        exact h ▸ .challenged message certificate _ accepted hstage hid hcertificate
  · rw [if_pos hid, outcome_done_iff] at h
    exact h ▸ .ignored message

theorem step_handleResponse {message : Message} {w w' : SessionWorld}
    (hattached : w.session.attached = true) (hstage : w.session.stage = .awaitResponse)
    (h : Outcome (handleResponse env message (w.record (.handled message))) w') :
    SessionStep env w w' := by
  unfold handleResponse at h
  by_cases hrejected : message.id = kAuthenticationFailed
  · rw [if_pos hrejected, outcome_done_iff] at h
    exact h ▸ .gaveUp message (by simp [hstage])
  rw [if_neg hrejected] at h
  by_cases hid : message.id = kAuthenticationResponse
  · rw [if_pos hid] at h
    cases hsignature : firstBytesParameter message.payload 0 with
    | none =>
        rw [hsignature] at h
        dsimp only at h
        rw [outcome_done_iff] at h
        exact h ▸ .gaveUp message (by simp [hstage])
    | some signature =>
        rw [hsignature] at h
        dsimp only at h
        rw [record_session] at h
        -- the signature decides
        cases hverify : env.verify w.session.challenge.val signature w.session.certificate with
        | false =>
            rw [if_pos hverify, outcome_done_iff] at h
            exact h ▸ .gaveUp message (by simp [hstage])
        | true =>
            rw [if_neg (by rw [hverify]; decide), outcome_bind_iff] at h
            obtain ⟨w1, h1, h⟩ := h
            obtain ⟨accepted, rfl⟩ := outcome_sendEmpty (by simpa using hattached) h1
            rw [outcome_done_iff] at h
            exact h ▸ .authenticated message signature accepted hstage hid hsignature hverify
  · rw [if_neg hid, outcome_done_iff] at h
    exact h ▸ .ignored message

theorem step_handle {message : Message} {w w' : SessionWorld}
    (hattached : w.session.attached = true) (h : Outcome (handle env message w) w') :
    SessionStep env w w' := by
  unfold handle at h
  dsimp only at h
  rw [record_stage] at h
  cases hstage : w.session.stage with
  | awaitIdentification => exact step_handleIdentification hattached hstage (by simpa [hstage] using h)
  | awaitCertificate => exact step_handleCertificate hattached hstage (by simpa [hstage] using h)
  | awaitResponse => exact step_handleResponse hattached hstage (by simpa [hstage] using h)
  | idle | done | failed =>
      rw [hstage] at h
      rw [outcome_done_iff.mp h]
      exact .ignored message

theorem steps_handleAll {messages : List Message} {w w' : SessionWorld}
    (hattached : w.session.attached = true) (h : Outcome (handleAll env messages w) w') :
    SessionSteps env w w' := by
  induction messages generalizing w with
  | nil =>
      rw [outcome_done_iff.mp h]
  | cons message messages ih =>
      unfold handleAll at h
      rw [outcome_bind_iff] at h
      obtain ⟨middle, hfirst, hrest⟩ := h
      have hstep := step_handle hattached hfirst
      exact (ih (hstep.attached.trans hattached) hrest).head hstep

theorem steps_applySession {input : SessionInput} {w w' : SessionWorld}
    (hattached : w.session.attached = true) (h : Outcome (applySession env input w) w') :
    SessionSteps env w w' := by
  cases input with
  | established =>
      change Outcome (if w.session.started then .done w else begin w) w' at h
      by_cases hstarted : w.session.started = true
      · rw [if_pos hstarted] at h
        rw [outcome_done_iff.mp h]
      · rw [if_neg hstarted] at h
        have hstage : w.session.stage = .idle := by
          simpa [BootstrapSession.started] using hstarted
        exact .single (step_begin hattached hstage h)
  | receive bytes =>
      change Outcome (handleAll env (w.session.decoder.push bytes).drain.1
        (w.setDecoder (w.session.decoder.push bytes).drain.2)) w' at h
      -- first the buffer, then the messages it completes
      have hsteps := steps_handleAll (by exact hattached) h
      exact hsteps.head (.buffered _)

theorem SessionSteps.attached {w w' : SessionWorld} (hsteps : SessionSteps env w w') :
    w'.session.attached = w.session.attached := by
  induction hsteps with
  | refl => rfl
  | tail _ hstep ih => rw [hstep.attached, ih]

/-- Every outcome of a run is reached by steps. -/
theorem steps_runSession {inputs : List SessionInput} {w w' : SessionWorld}
    (hattached : w.session.attached = true) (h : Outcome (runSession env inputs w) w') :
    SessionSteps env w w' := by
  induction inputs generalizing w with
  | nil => rw [outcome_done_iff.mp h]
  | cons input inputs ih =>
      unfold runSession at h
      rw [outcome_bind_iff] at h
      obtain ⟨middle, hfirst, hrest⟩ := h
      have hsteps := steps_applySession hattached hfirst
      exact hsteps.trans (ih (hsteps.attached.trans hattached) hrest)

theorem SessionSteps.invariant {I : SessionWorld → Prop}
    (hstep : ∀ w w', I w → SessionStep env w w' → I w') {w w' : SessionWorld}
    (hsteps : SessionSteps env w w') (h : I w) : I w' := by
  induction hsteps with
  | refl => exact h
  | tail _ hlast ih => exact hstep _ _ ih hlast

/-! ## What holds at every moment -/

/-- `P` holds of the stage and the past at each event of the run and at its end. -/
structure AtEveryMoment (P : Stage → List SessionEntry → Prop) (w : SessionWorld) : Prop where
  past : History.AtEach (fun before entry _ => P entry.stage before) w.trace
  now : P w.session.stage w.trace

namespace AtEveryMoment

variable {P : Stage → List SessionEntry → Prop} {w : SessionWorld}

theorem record {event : SessionEvent} (h : AtEveryMoment P w)
    (hnow : P w.session.stage (w.trace ++ [⟨w.session.stage, event⟩])) :
    AtEveryMoment P (w.record event) :=
  ⟨h.past.append_singleton (fun _ _ _ _ hold => hold) h.now, hnow⟩

theorem setStage {stage : Stage} (h : AtEveryMoment P w) (hnow : P stage w.trace) :
    AtEveryMoment P (w.setStage stage) := ⟨h.past, hnow⟩

theorem fail (h : AtEveryMoment P w)
    (hnow : P .failed (w.trace ++ [⟨w.session.stage, .failed⟩])) : AtEveryMoment P w.fail :=
  ⟨h.past.append_singleton (fun _ _ _ _ hold => hold) h.now, hnow⟩

theorem congr {w' : SessionWorld} (h : AtEveryMoment P w)
    (hstage : w'.session.stage = w.session.stage) (htrace : w'.trace = w.trace) :
    AtEveryMoment P w' := by
  refine ⟨?_, ?_⟩
  · rw [htrace]
    exact h.past
  · rw [hstage, htrace]
    exact h.now

theorem drawChallenge {certificate : Bytes} {challenge : Challenge} (h : AtEveryMoment P w)
    (hnow : P w.session.stage (w.trace ++ [⟨w.session.stage, .drew challenge⟩])) :
    AtEveryMoment P (w.drawChallenge certificate challenge) :=
  ⟨h.past.append_singleton (fun _ _ _ _ hold => hold) h.now, hnow⟩

/-- An event that follows a world records what held of it. -/
theorem of_record {event : SessionEvent} {rest : List SessionEntry} {w' : SessionWorld}
    (h : AtEveryMoment P w') (htrace : w'.trace = (w.record event).trace ++ rest) :
    AtEveryMoment P w := by
  refine ⟨?_, ?_⟩
  · intro before entry after hsplit
    refine h.past before entry (after ++ ⟨w.session.stage, event⟩ :: rest) ?_
    rw [htrace, record_trace, hsplit]
    simp
  · refine h.past w.trace ⟨w.session.stage, event⟩ rest ?_
    rw [htrace, record_trace]
    simp

end AtEveryMoment

end Iap2
end Aa2acp
