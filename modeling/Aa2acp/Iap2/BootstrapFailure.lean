import Aa2acp.Iap2.BootstrapSteps

/-!
# Failures of the bootstrap session

A failed session stays failed, and a stage is reached only after the link accepted
the messages before it, exactly in the runs in which the link refuses none of three
messages.  These are the ones after which `handle` writes the next stage without
looking at what became of them.
-/

namespace Aa2acp
namespace Iap2

open Csm Interaction

/-- The link accepted this message. -/
def Accepted (bytes : Bytes) (trace : List SessionEntry) : Prop :=
  ∃ entry ∈ trace, entry.event = .sent bytes true

/-- `fail` was called. -/
def FailCalled (trace : List SessionEntry) : Prop := ∃ entry ∈ trace, entry.event = .failed

/-- The link accepted the messages of the identification. -/
structure IdentificationAccepted (trace : List SessionEntry) : Prop where
  start : Accepted (encode kStartIdentification []) trace
  identification : Accepted (encode kIdentificationAccepted []) trace
  certificate : Accepted (encode kRequestAuthenticationCertificate []) trace

def ChallengeAccepted (trace : List SessionEntry) : Prop :=
  ∃ challenge, Accepted (challengeRequest challenge) trace

/-- The link accepted every message of the steps before this stage. -/
def StepsAccepted (trace : List SessionEntry) : Stage → Prop
  | .awaitCertificate => IdentificationAccepted trace
  | .awaitResponse => IdentificationAccepted trace ∧ ChallengeAccepted trace
  | .done => IdentificationAccepted trace ∧ ChallengeAccepted trace ∧
      Accepted (encode kAuthenticationSucceeded []) trace
  | _ => True

/-- What a session promises at a moment. -/
structure FailureRecorded (stage : Stage) (trace : List SessionEntry) : Prop where
  failed : FailCalled trace → stage = .failed
  accepted : StepsAccepted trace stage

/-- From the moment `fail` is called the session stays failed, and it is never ahead
of what the link accepted. -/
def FailsForEver (w : SessionWorld) : Prop := AtEveryMoment FailureRecorded w

/-- The messages after which `handle` goes on without testing for failure. -/
def uncheckedMessages : List Bytes :=
  [encode kIdentificationAccepted [], encode kRequestAuthenticationCertificate [],
    encode kAuthenticationSucceeded []]

/-- The link refused none of the messages that `handle` does not check. -/
def NoneRefused (trace : List SessionEntry) : Prop :=
  ∀ entry ∈ trace, ∀ bytes ∈ uncheckedMessages, entry.event ≠ .sent bytes false

/-! ## Longer histories -/

theorem Accepted.append {bytes : Bytes} {trace : List SessionEntry} (h : Accepted bytes trace)
    (added : List SessionEntry) : Accepted bytes (trace ++ added) := by
  obtain ⟨entry, hentry, hevent⟩ := h
  exact ⟨entry, List.mem_append_left added hentry, hevent⟩

theorem accepted_concat (bytes : Bytes) (trace : List SessionEntry) (stage : Stage) :
    Accepted bytes (trace ++ [⟨stage, .sent bytes true⟩]) :=
  ⟨_, List.mem_append_right trace List.mem_cons_self, rfl⟩

theorem IdentificationAccepted.append {trace : List SessionEntry}
    (h : IdentificationAccepted trace) (added : List SessionEntry) :
    IdentificationAccepted (trace ++ added) :=
  ⟨h.start.append added, h.identification.append added, h.certificate.append added⟩

theorem ChallengeAccepted.append {trace : List SessionEntry} (h : ChallengeAccepted trace)
    (added : List SessionEntry) : ChallengeAccepted (trace ++ added) := by
  obtain ⟨challenge, haccepted⟩ := h
  exact ⟨challenge, haccepted.append added⟩

theorem StepsAccepted.append {trace : List SessionEntry} {stage : Stage}
    (h : StepsAccepted trace stage) (added : List SessionEntry) :
    StepsAccepted (trace ++ added) stage := by
  cases stage with
  | idle | awaitIdentification | failed => trivial
  | awaitCertificate => exact IdentificationAccepted.append h added
  | awaitResponse => exact ⟨h.1.append added, h.2.append added⟩
  | done => exact ⟨h.1.append added, h.2.1.append added, h.2.2.append added⟩

@[simp] theorem failCalled_nil : ¬ FailCalled [] := by simp [FailCalled]

@[simp] theorem failCalled_cons {entry : SessionEntry} {trace : List SessionEntry} :
    FailCalled (entry :: trace) ↔ entry.event = .failed ∨ FailCalled trace := by
  simp [FailCalled]

@[simp] theorem failCalled_append {trace added : List SessionEntry} :
    FailCalled (trace ++ added) ↔ FailCalled trace ∨ FailCalled added := by
  unfold FailCalled
  simp [or_and_right, exists_or]

@[simp] theorem noneRefused_nil : NoneRefused [] := by simp [NoneRefused]

@[simp] theorem noneRefused_cons {entry : SessionEntry} {trace : List SessionEntry} :
    NoneRefused (entry :: trace) ↔
      (∀ bytes ∈ uncheckedMessages, entry.event ≠ .sent bytes false) ∧ NoneRefused trace := by
  simp [NoneRefused]

@[simp] theorem noneRefused_append {trace added : List SessionEntry} :
    NoneRefused (trace ++ added) ↔ NoneRefused trace ∧ NoneRefused added := by
  unfold NoneRefused
  simp [or_imp, forall_and]

/-- An event other than a failure leaves the promise as it is. -/
theorem FailureRecorded.concat {stage : Stage} {trace : List SessionEntry}
    (h : FailureRecorded stage trace) {entry : SessionEntry} (hentry : entry.event ≠ .failed) :
    FailureRecorded stage (trace ++ [entry]) := by
  refine ⟨fun hfailed => ?_, h.accepted.append [entry]⟩
  rcases failCalled_append.mp hfailed with hold | hnew
  · exact h.failed hold
  · simp [hentry] at hnew

theorem failureRecorded_failed (trace : List SessionEntry) : FailureRecorded .failed trace :=
  ⟨fun _ => rfl, trivial⟩

namespace FailsForEver

variable {w : SessionWorld}

theorem record (h : FailsForEver w) (event : SessionEvent) (hevent : event ≠ .failed) :
    FailsForEver (w.record event) :=
  AtEveryMoment.record h (h.now.concat hevent)

theorem fail (h : FailsForEver w) : FailsForEver w.fail :=
  AtEveryMoment.fail h (failureRecorded_failed _)

theorem sendEmpty (h : FailsForEver w) (id : UInt16) (accepted : Bool) :
    FailsForEver (w.sendEmpty id accepted) := by
  cases accepted with
  | false => exact (h.record _ (by simp)).fail
  | true => exact h.record _ (by simp)

theorem not_failCalled (h : FailsForEver w) (hstage : w.session.stage ≠ .failed) :
    ¬ FailCalled w.trace := fun hfailed => hstage (h.now.failed hfailed)

end FailsForEver

/-! ## Runs without an unchecked refusal -/

/-- What holds between the steps of a run in which the link refuses none of the
unchecked messages. -/
structure Careful (w : SessionWorld) : Prop where
  failsForEver : FailsForEver w
  -- not part of `StepsAccepted`: the stage is set before the message is sent
  start : w.session.stage = .awaitIdentification →
    Accepted (encode kStartIdentification []) w.trace

theorem careful_fresh : Careful .fresh :=
  ⟨⟨History.atEach_nil _, ⟨fun h => by simp [FailCalled, SessionWorld.fresh] at h, trivial⟩⟩,
    fun h => by cases h⟩

theorem SessionStep.trace_grows {env : SessionEnv} {w w' : SessionWorld}
    (hstep : SessionStep env w w') : w.trace <+: w'.trace := by
  cases hstep with
  | buffered decoder => exact List.prefix_refl _
  | begun accepted hstage => cases accepted <;> simp
  | ignored message => simp
  | gaveUp message hstage => simp
  | identified message first second hstage hid =>
      cases first <;> cases second <;> simp [List.append_assoc]
  | challenged message certificate challenge accepted hstage hid hcertificate =>
      cases accepted <;> simp [List.append_assoc]
  | authenticated message signature accepted hstage hid hsignature hverify =>
      cases accepted <;> simp [List.append_assoc]

theorem NoneRefused.of_grown {earlier later : List SessionEntry} (h : NoneRefused later)
    (hgrows : earlier <+: later) : NoneRefused earlier :=
  fun entry hentry => h entry (hgrows.subset hentry)

theorem mem_unchecked_identification :
    encode kIdentificationAccepted [] ∈ uncheckedMessages := by
  simp [uncheckedMessages]

theorem mem_unchecked_certificate :
    encode kRequestAuthenticationCertificate [] ∈ uncheckedMessages := by
  simp [uncheckedMessages]

theorem mem_unchecked_succeeded : encode kAuthenticationSucceeded [] ∈ uncheckedMessages := by
  simp [uncheckedMessages]

/-- A message that the link took breaks nothing, and a refused one only when it is
unchecked. -/
theorem noneRefused_sendEmpty {w : SessionWorld} {id : UInt16} {accepted : Bool} :
    NoneRefused (w.sendEmpty id accepted).trace ↔
      NoneRefused w.trace ∧ (encode id [] ∈ uncheckedMessages → accepted = true) := by
  cases accepted with
  | true => simp
  | false =>
      simp only [sendEmpty_false, fail_trace, record_trace, noneRefused_append, noneRefused_cons,
        noneRefused_nil, and_true, Bool.false_eq_true]
      constructor
      · rintro ⟨⟨hold, hnew⟩, -⟩
        exact ⟨hold, fun hmem => hnew _ hmem rfl⟩
      · rintro ⟨hold, hnot⟩
        refine ⟨⟨hold, fun bytes hmem hevent => ?_⟩, fun _ _ => by simp⟩
        cases hevent
        exact hnot hmem

theorem noneRefused_handled {w : SessionWorld} {message : Message} :
    NoneRefused (w.record (.handled message)).trace ↔ NoneRefused w.trace := by
  simp

section

variable {env : SessionEnv} {w w' : SessionWorld}

/-- `handle` of an identification promises what it should when both of its messages
were accepted. -/
theorem Careful.identified (h : Careful w) (hstage : w.session.stage = .awaitIdentification)
    (message : Message) :
    Careful ((((w.record (.handled message)).sendEmpty kIdentificationAccepted true).sendEmpty
      kRequestAuthenticationCertificate true).setStage .awaitCertificate) := by
  have hfails := ((h.failsForEver.record (.handled message) (by simp)).sendEmpty
    kIdentificationAccepted true).sendEmpty kRequestAuthenticationCertificate true
  have hnot := hfails.not_failCalled (by simp [hstage])
  refine ⟨hfails.setStage ⟨fun hfailed => absurd hfailed hnot, ?_, ?_, ?_⟩, by simp⟩
  · exact (((h.start hstage).append _).append _).append _
  · exact (accepted_concat _ _ _).append _
  · exact accepted_concat _ _ _

theorem Careful.challenged (h : Careful w) (hstage : w.session.stage = .awaitCertificate)
    (message : Message) (certificate : Bytes) (challenge : Challenge) (accepted : Bool) :
    Careful ((w.record (.handled message)).sendChallenge certificate challenge accepted) := by
  have hhandled := h.failsForEver.record (.handled message) (by simp)
  have hdrew : FailsForEver ((w.record (.handled message)).drawChallenge certificate challenge) :=
    hhandled.drawChallenge (hhandled.now.concat (by simp))
  have hsent (accepted : Bool) :=
    hdrew.record (.sent (challengeRequest challenge) accepted) (by simp)
  cases accepted with
  | false => exact ⟨(hsent false).fail, fun h => by cases h⟩
  | true =>
      have hnot := (hsent true).not_failCalled (by simp [hstage])
      have hpast := h.failsForEver.now.accepted
      rw [hstage] at hpast
      refine ⟨(hsent true).setStage ⟨fun hfailed => absurd hfailed hnot, ?_, challenge, ?_⟩,
        fun h => by cases h⟩
      · exact ((IdentificationAccepted.append hpast _).append _).append _
      · exact accepted_concat _ _ _

theorem Careful.authenticated (h : Careful w) (hstage : w.session.stage = .awaitResponse)
    (message : Message) :
    Careful (((w.record (.handled message)).sendEmpty kAuthenticationSucceeded true).setStage
      .done) := by
  have hfails := (h.failsForEver.record (.handled message) (by simp)).sendEmpty
    kAuthenticationSucceeded true
  have hnot := hfails.not_failCalled (by simp [hstage])
  have hpast := h.failsForEver.now.accepted
  rw [hstage] at hpast
  refine ⟨hfails.setStage ⟨fun hfailed => absurd hfailed hnot, ?_, ?_, ?_⟩, by simp⟩
  · exact (hpast.1.append _).append _
  · exact (hpast.2.append _).append _
  · exact accepted_concat _ _ _

theorem Careful.step (h : Careful w) (hstep : SessionStep env w w')
    (hnone : NoneRefused w'.trace) : Careful w' := by
  cases hstep with
  | buffered decoder => exact ⟨h.failsForEver.congr rfl rfl, h.start⟩
  | begun accepted hstage =>
      have hnot := h.failsForEver.not_failCalled (by simp [hstage])
      have hbegun : FailsForEver (w.setStage .awaitIdentification) :=
        h.failsForEver.setStage ⟨fun hfailed => absurd hfailed hnot, trivial⟩
      refine ⟨hbegun.sendEmpty kStartIdentification accepted, ?_⟩
      cases accepted with
      | false => simp
      | true => exact fun _ => accepted_concat _ _ _
  | ignored message =>
      exact ⟨h.failsForEver.record _ (by simp), fun hstage => (h.start hstage).append _⟩
  | gaveUp message hstage =>
      exact ⟨(h.failsForEver.record _ (by simp)).fail, fun h => by cases h⟩
  | identified message first second hstage hid =>
      -- the two answers are the ones that `handle` does not look at
      obtain ⟨hfirst, hsecond⟩ := noneRefused_sendEmpty.mp hnone
      rw [hsecond mem_unchecked_certificate,
        (noneRefused_sendEmpty.mp hfirst).2 mem_unchecked_identification]
      exact h.identified hstage message
  | challenged message certificate challenge accepted hstage hid hcertificate =>
      exact h.challenged hstage message certificate challenge accepted
  | authenticated message signature accepted hstage hid hsignature hverify =>
      rw [(noneRefused_sendEmpty.mp hnone).2 mem_unchecked_succeeded]
      exact h.authenticated hstage message

theorem careful_steps (hsteps : SessionSteps env .fresh w) (hnone : NoneRefused w.trace) :
    Careful w := by
  have hinv : NoneRefused w.trace → Careful w := by
    refine hsteps.invariant (I := fun w => NoneRefused w.trace → Careful w) ?_
      fun _ => careful_fresh
    intro w w' ih hstep hnone'
    exact (ih (hnone'.of_grown hstep.trace_grows)).step hstep hnone'
  exact hinv hnone

/-! ## Runs with an unchecked refusal -/

theorem failCalled_sendEmpty {id : UInt16} {accepted : Bool} :
    FailCalled (w.sendEmpty id accepted).trace ↔ FailCalled w.trace ∨ accepted = false := by
  cases accepted <;> simp

theorem challengeRequest_not_unchecked (challenge : Challenge) :
    challengeRequest challenge ∉ uncheckedMessages := by
  have hencode {id : UInt16} {payload : Bytes} (h : Message.Encodable ⟨id, payload⟩) :
      (encode id payload).length = 6 + payload.length := length_encode h
  have hlength : (challengeRequest challenge).length = 30 := by
    have hpayload : (writeU16 (UInt16.ofNat (4 + challenge.val.length)) ++ writeU16 0 ++
        challenge.val).length = 24 := by
      rw [List.length_append, List.length_append, length_writeU16, length_writeU16,
        challenge.property]
    unfold challengeRequest encodeBytesParameter
    rw [if_neg (by rw [challenge.property]; decide), hencode]
    · rw [hpayload]
    · show (_ : Bytes).length ≤ 65529
      rw [hpayload]
      decide
  have hshort : ∀ bytes ∈ uncheckedMessages, bytes.length = 6 := by decide
  intro hmem
  have hsix := hshort _ hmem
  omega

/-- What a step records begins with the stage it found. -/
theorem SessionStep.begins (hstep : SessionStep env w w') :
    (∃ decoder, w' = w.setDecoder decoder) ∨
    (∃ accepted, w.session.stage = .idle ∧
      w' = (w.setStage .awaitIdentification).sendEmpty kStartIdentification accepted) ∨
    ∃ message rest, w'.trace = (w.record (.handled message)).trace ++ rest := by
  cases hstep with
  | buffered decoder => exact .inl ⟨decoder, rfl⟩
  | begun accepted hstage => exact .inr (.inl ⟨accepted, hstage, rfl⟩)
  | ignored message => exact .inr (.inr ⟨message, [], by simp⟩)
  | gaveUp message hstage => exact .inr (.inr ⟨message, _, rfl⟩)
  | identified message first second hstage hid =>
      refine .inr (.inr ⟨message, ?_⟩)
      cases first <;> cases second <;> simp
  | challenged message certificate challenge accepted hstage hid hcertificate =>
      refine .inr (.inr ⟨message, ?_⟩)
      cases accepted <;> simp
  | authenticated message signature accepted hstage hid hsignature hverify =>
      refine .inr (.inr ⟨message, ?_⟩)
      cases accepted <;> simp

/-- What breaks the promise stays in the history. -/
theorem FailsForEver.of_step (h : FailsForEver w') (hstep : SessionStep env w w') :
    FailsForEver w := by
  rcases hstep.begins with ⟨decoder, rfl⟩ | ⟨accepted, hstage, rfl⟩ | ⟨message, rest, htrace⟩
  · exact h.congr rfl rfl
  · have hbegun : FailsForEver (w.setStage .awaitIdentification) := by
      have htrace : ((w.setStage .awaitIdentification).sendEmpty kStartIdentification
          accepted).trace = ((w.setStage .awaitIdentification).record
            (.sent (encode kStartIdentification []) accepted)).trace ++
          if accepted then [] else [⟨.awaitIdentification, .failed⟩] := by
        cases accepted <;> simp
      exact h.of_record htrace
    refine ⟨hbegun.past, fun hfailed => ?_, ?_⟩
    · exact absurd hfailed (hbegun.not_failCalled (by simp))
    · rw [hstage]
      trivial
  · exact h.of_record htrace

theorem noneRefused_step (h : FailsForEver w') (hold : NoneRefused w.trace)
    (hstep : SessionStep env w w') : NoneRefused w'.trace := by
  have hhandled (message : Message) : NoneRefused (w.record (.handled message)).trace :=
    noneRefused_handled.mpr hold
  cases hstep with
  | buffered decoder => exact hold
  | begun accepted hstage =>
      refine noneRefused_sendEmpty.mpr ⟨hold, fun hmem => ?_⟩
      exact absurd hmem (by decide)
  | ignored message => exact hhandled message
  | gaveUp message hstage => simpa using hold
  | identified message first second hstage hid =>
      -- the stage says that no `send_empty` failed, so both messages were accepted
      have hnot := h.not_failCalled (by simp)
      rw [setStage_trace, failCalled_sendEmpty, failCalled_sendEmpty] at hnot
      refine noneRefused_sendEmpty.mpr ⟨noneRefused_sendEmpty.mpr ⟨hhandled message, ?_⟩, ?_⟩
      · cases first <;> simp_all
      · cases second <;> simp_all
  | challenged message certificate challenge accepted hstage hid hcertificate =>
      have hunchecked := challengeRequest_not_unchecked challenge
      have hevent : ∀ bytes ∈ uncheckedMessages,
          SessionEvent.sent (challengeRequest challenge) accepted ≠ .sent bytes false := by
        intro bytes hbytes hsent
        cases hsent
        exact hunchecked hbytes
      cases accepted <;> simp_all
  | authenticated message signature accepted hstage hid hsignature hverify =>
      have hnot := h.not_failCalled (by simp)
      rw [setStage_trace, failCalled_sendEmpty] at hnot
      refine noneRefused_sendEmpty.mpr ⟨hhandled message, ?_⟩
      cases accepted <;> simp_all

theorem noneRefused_steps (hsteps : SessionSteps env .fresh w) (h : FailsForEver w) :
    NoneRefused w.trace := by
  have hinv : FailsForEver w → NoneRefused w.trace := by
    refine hsteps.invariant (I := fun w => FailsForEver w → NoneRefused w.trace) ?_ ?_
    · intro w w' ih hstep h'
      exact noneRefused_step h' (ih (h'.of_step hstep)) hstep
    · intro _ entry hentry
      cases hentry
  exact hinv h

end

/-- In every run, whatever bytes arrive and whatever the link answers: the session
keeps its promise exactly when the link refused none of the unchecked messages. -/
theorem failsForEver_iff (env : SessionEnv) (inputs : List SessionInput) (w : SessionWorld)
    (h : Outcome (runSession env inputs .fresh) w) :
    FailsForEver w ↔ NoneRefused w.trace := by
  have hsteps := steps_runSession (w := .fresh) rfl h
  exact ⟨noneRefused_steps hsteps, fun hnone => (careful_steps hsteps hnone).failsForEver⟩

/-- A complete exchange over a link that refuses nothing. -/
theorem failsForEver_completeExchange :
    FailsForEver ((runSession exchangeEnv completeExchange .fresh).run (refuseOne []) 0).1 := by
  refine (failsForEver_iff exchangeEnv completeExchange _ (outcome_run _ _ 0)).mpr ?_
  unfold NoneRefused
  decide +kernel

/-- A link with a window of one refuses the second message of the identification:
the session has failed and waits for the certificate. -/
theorem failure_overwritten :
    let w := ((runSession exchangeEnv (completeExchange.take 2) .fresh).run
      (refuseOne (encode kRequestAuthenticationCertificate [])) 0).1
    Outcome (runSession exchangeEnv (completeExchange.take 2) .fresh) w ∧
      FailCalled w.trace ∧ w.session.stage = .awaitCertificate ∧ ¬ FailsForEver w := by
  intro w
  have houtcome : Outcome (runSession exchangeEnv (completeExchange.take 2) .fresh) w :=
    outcome_run _ _ 0
  have hfailed : FailCalled w.trace := by
    unfold FailCalled
    decide +kernel
  have hstage : w.session.stage = .awaitCertificate := by decide +kernel
  refine ⟨houtcome, hfailed, hstage, fun h => ?_⟩
  exact h.not_failCalled (by rw [hstage]; decide) hfailed

end Iap2
end Aa2acp
