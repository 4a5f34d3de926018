import Aa2acp.Iap2.BootstrapSteps

/-!
# Authentication by the bootstrap session

Done is reached through one exchange only: an identification, a certificate, one
challenge that the link accepted, and a response whose signature is good for that
challenge under that certificate.  The invariant `ExchangeSoFar` ties the challenge
and the certificate stored in the session to the messages of the history.
-/

namespace Aa2acp
namespace Iap2

open Csm Interaction

def SessionEvent.drawn? : SessionEvent → Option Challenge
  | .drew challenge => some challenge
  | _ => none

/-- The challenges that were drawn. -/
def drawn (trace : List SessionEntry) : List Challenge :=
  trace.filterMap fun entry => entry.event.drawn?

/-- An identification was handled while the session waited for one. -/
def Identified (trace : List SessionEntry) : Prop :=
  ∃ identification : Message, identification.id = kIdentificationInformation ∧
    [⟨.awaitIdentification, .handled identification⟩].Sublist trace

/-- An identification, then a certificate message with this certificate, then the
only challenge ever drawn, which the link accepted. -/
def Challenged (certificate : Bytes) (challenge : Challenge) (trace : List SessionEntry) : Prop :=
  drawn trace = [challenge] ∧
  ∃ identification message : Message,
    identification.id = kIdentificationInformation ∧
    message.id = kAuthenticationCertificate ∧
    firstBytesParameter message.payload 0 = some certificate ∧
    [⟨.awaitIdentification, .handled identification⟩, ⟨.awaitCertificate, .handled message⟩,
      ⟨.awaitCertificate, .drew challenge⟩,
      ⟨.awaitCertificate, .sent (challengeRequest challenge) true⟩].Sublist trace

/-- After such an exchange a response was handled whose signature is good. -/
def Authenticated (verify : Bytes → Bytes → Bytes → Bool) (trace : List SessionEntry) : Prop :=
  ∃ certificate challenge signature, ∃ response : Message, ∃ before after,
    Challenged certificate challenge before ∧
    trace = before ++ ⟨.awaitResponse, .handled response⟩ :: after ∧
    response.id = kAuthenticationResponse ∧
    firstBytesParameter response.payload 0 = some signature ∧
    verify challenge.val signature certificate = true

/-- At every moment at which the session is Done, it has authenticated the peer. -/
def AuthenticatedWhenDone (verify : Bytes → Bytes → Bytes → Bool) (w : SessionWorld) : Prop :=
  AtEveryMoment (fun stage trace => stage = .done → Authenticated verify trace) w

/-- What the stage says about the exchange up to now. -/
def ExchangeSoFar (w : SessionWorld) : Prop :=
  match w.session.stage with
  | .idle | .awaitIdentification => drawn w.trace = []
  | .awaitCertificate => drawn w.trace = [] ∧ Identified w.trace
  | .awaitResponse => Challenged w.session.certificate w.session.challenge w.trace
  | .done | .failed => True

/-! ## Longer histories -/

@[simp] theorem drawn_nil : drawn [] = [] := rfl

@[simp] theorem drawn_append (trace added : List SessionEntry) :
    drawn (trace ++ added) = drawn trace ++ drawn added := List.filterMap_append

@[simp] theorem drawn_cons (entry : SessionEntry) (trace : List SessionEntry) :
    drawn (entry :: trace) = entry.event.drawn?.toList ++ drawn trace := by
  unfold drawn
  cases h : entry.event.drawn? <;> simp [h]

@[simp] theorem drawn?_handled (message : Message) :
    SessionEvent.drawn? (.handled message) = none := rfl

@[simp] theorem drawn?_sent (bytes : Bytes) (accepted : Bool) :
    SessionEvent.drawn? (.sent bytes accepted) = none := rfl

@[simp] theorem drawn?_failed : SessionEvent.drawn? .failed = none := rfl

@[simp] theorem drawn?_drew (challenge : Challenge) :
    SessionEvent.drawn? (.drew challenge) = some challenge := rfl

theorem Challenged.append {certificate : Bytes} {challenge : Challenge}
    {trace added : List SessionEntry} (h : Challenged certificate challenge trace)
    (hadded : drawn added = []) : Challenged certificate challenge (trace ++ added) := by
  obtain ⟨hdrawn, identification, message, hids, hcertificate, hsigned, hsublist⟩ := h
  refine ⟨by rw [drawn_append, hdrawn, hadded]; rfl, identification, message, hids,
    hcertificate, hsigned, ?_⟩
  exact hsublist.trans (List.sublist_append_left trace added)

theorem Authenticated.append {verify : Bytes → Bytes → Bytes → Bool}
    {trace : List SessionEntry} (h : Authenticated verify trace) (added : List SessionEntry) :
    Authenticated verify (trace ++ added) := by
  obtain ⟨certificate, challenge, signature, response, before, after, hbefore, rfl, hrest⟩ := h
  refine ⟨certificate, challenge, signature, response, before, after ++ added, hbefore, ?_, hrest⟩
  rw [List.append_assoc, List.cons_append]

section

variable {env : SessionEnv} {w w' : SessionWorld} {message : Message}

/-- A certificate completes the first half of the exchange. -/
theorem Identified.challenged {trace : List SessionEntry} (h : Identified trace)
    (hdrawn : drawn trace = []) (hid : message.id = kAuthenticationCertificate)
    {certificate : Bytes} (hcertificate : firstBytesParameter message.payload 0 = some certificate)
    (challenge : Challenge) :
    Challenged certificate challenge (trace ++ [⟨.awaitCertificate, .handled message⟩,
      ⟨.awaitCertificate, .drew challenge⟩,
      ⟨.awaitCertificate, .sent (challengeRequest challenge) true⟩]) := by
  obtain ⟨identification, hidentification, hsublist⟩ := h
  refine ⟨by simp [hdrawn], identification, message, hidentification, hid, hcertificate, ?_⟩
  exact hsublist.append (List.Sublist.refl _)

theorem ExchangeSoFar.step (h : ExchangeSoFar w) (hstep : SessionStep env w w') :
    ExchangeSoFar w' := by
  cases hstep with
  | buffered decoder => exact h
  | begun accepted hstage =>
      have hdrawn : drawn w.trace = [] := by simpa [ExchangeSoFar, hstage] using h
      cases accepted <;> simp [ExchangeSoFar, hdrawn]
  | ignored message =>
      unfold ExchangeSoFar at h ⊢
      rw [record_session, record_trace]
      split at h
      · simpa using h
      · simpa using h
      · refine ⟨by simpa using h.1, ?_⟩
        obtain ⟨identification, hid, hsublist⟩ := h.2
        exact ⟨identification, hid, hsublist.trans (List.sublist_append_left _ _)⟩
      · exact h.append rfl
      · trivial
      · trivial
  | gaveUp message hstage => trivial
  | identified message first second hstage hid =>
      have hdrawn : drawn w.trace = [] := by simpa [ExchangeSoFar, hstage] using h
      -- the stage is written whatever became of the two messages
      refine ⟨?_, message, hid, ?_⟩
      · cases first <;> cases second <;> simp [hdrawn]
      · rw [List.singleton_sublist]
        cases first <;> cases second <;> simp [hstage]
  | challenged message certificate challenge accepted hstage hid hcertificate =>
      obtain ⟨hdrawn, hidentified⟩ : drawn w.trace = [] ∧ Identified w.trace := by
        simpa [ExchangeSoFar, hstage] using h
      cases accepted with
      | false => trivial
      | true =>
          have hchallenged := hidentified.challenged hdrawn hid hcertificate challenge
          rw [← hstage] at hchallenged
          show Challenged certificate challenge
            ((w.record (.handled message)).sendChallenge certificate challenge true).trace
          simpa using hchallenged
  | authenticated message signature accepted hstage hid hsignature hverify => trivial

theorem AuthenticatedWhenDone.record (h : AuthenticatedWhenDone env.verify w)
    (event : SessionEvent) : AuthenticatedWhenDone env.verify (w.record event) :=
  AtEveryMoment.record h fun hdone => (h.now hdone).append _

theorem AuthenticatedWhenDone.fail (h : AuthenticatedWhenDone env.verify w) :
    AuthenticatedWhenDone env.verify w.fail := AtEveryMoment.fail h fun hdone => by cases hdone

theorem AuthenticatedWhenDone.sendEmpty (h : AuthenticatedWhenDone env.verify w) (id : UInt16)
    (accepted : Bool) : AuthenticatedWhenDone env.verify (w.sendEmpty id accepted) := by
  cases accepted with
  | false => exact (h.record _).fail
  | true => exact h.record _

/-- A good signature over the stored challenge completes the exchange. -/
theorem Challenged.authenticated {verify : Bytes → Bytes → Bytes → Bool} {certificate : Bytes}
    {challenge : Challenge} {trace : List SessionEntry}
    (h : Challenged certificate challenge trace) (hid : message.id = kAuthenticationResponse)
    {signature : Bytes} (hsignature : firstBytesParameter message.payload 0 = some signature)
    (hverify : verify challenge.val signature certificate = true) (after : List SessionEntry) :
    Authenticated verify (trace ++ ⟨.awaitResponse, .handled message⟩ :: after) :=
  ⟨certificate, challenge, signature, message, trace, after, h, rfl, hid, hsignature, hverify⟩

theorem AuthenticatedWhenDone.step (h : AuthenticatedWhenDone env.verify w)
    (hexchange : ExchangeSoFar w) (hstep : SessionStep env w w') :
    AuthenticatedWhenDone env.verify w' := by
  have hother {stage : Stage} {w : SessionWorld} (hstage : stage ≠ .done)
      (h : AuthenticatedWhenDone env.verify w) :
      AuthenticatedWhenDone env.verify (w.setStage stage) :=
    h.setStage fun hdone => absurd hdone hstage
  cases hstep with
  | buffered decoder => exact h.congr rfl rfl
  | begun accepted hstage => exact (hother (by decide) h).sendEmpty _ accepted
  | ignored message => exact h.record _
  | gaveUp message hstage => exact (h.record _).fail
  | identified message first second hstage hid =>
      exact hother (by decide) (((h.record _).sendEmpty _ first).sendEmpty _ second)
  | challenged message certificate challenge accepted hstage hid hcertificate =>
      have hhandled := h.record (.handled message)
      have hdrew : AuthenticatedWhenDone env.verify
          ((w.record (.handled message)).drawChallenge certificate challenge) :=
        hhandled.drawChallenge fun hdone => (hhandled.now hdone).append _
      have hsent := hdrew.record (.sent (challengeRequest challenge) accepted)
      cases accepted with
      | false => exact hsent.fail
      | true => exact hother (by decide) hsent
  | authenticated message signature accepted hstage hid hsignature hverify =>
      have hchallenged : Challenged w.session.certificate w.session.challenge w.trace := by
        simpa [ExchangeSoFar, hstage] using hexchange
      refine ((h.record _).sendEmpty _ accepted).setStage fun _ => ?_
      have hdone := hchallenged.authenticated hid hsignature hverify
      rw [← hstage] at hdone
      cases accepted with
      | false => simpa using hdone [_, _]
      | true => simpa using hdone [_]

theorem authenticatedWhenDone_steps (hsteps : SessionSteps env .fresh w) :
    ExchangeSoFar w ∧ AuthenticatedWhenDone env.verify w := by
  refine hsteps.invariant
    (I := fun w => ExchangeSoFar w ∧ AuthenticatedWhenDone env.verify w) ?_ ?_
  · rintro w w' ⟨hexchange, h⟩ hstep
    exact ⟨hexchange.step hstep, h.step hexchange hstep⟩
  · exact ⟨rfl, History.atEach_nil _, fun hdone => by cases hdone⟩

end

/-- Whatever bytes arrive in whatever chunks, whatever the link answers and whatever
is drawn: the session is Done only after a complete exchange. -/
theorem authenticated_of_done (env : SessionEnv) (inputs : List SessionInput) (w : SessionWorld)
    (h : Outcome (runSession env inputs .fresh) w) : AuthenticatedWhenDone env.verify w :=
  (authenticatedWhenDone_steps (steps_runSession rfl h)).2

/-- A complete exchange makes the session Done, and it has authenticated the peer. -/
theorem authenticated_completeExchange :
    let w := ((runSession exchangeEnv completeExchange .fresh).run (refuseOne []) 0).1
    w.session.isDone = true ∧ AuthenticatedWhenDone exchangeEnv.verify w := by
  intro w
  refine ⟨by decide +kernel, ?_⟩
  exact authenticated_of_done exchangeEnv completeExchange w (outcome_run _ _ 0)

end Iap2
end Aa2acp
