import Aa2acp.Iap2.LinkSteps

/-!
# A dead link is silent

Dead is absorbing, and a link that is dead calls neither `send_` nor
`control_data_` and accepts no message, with one exception: `handle_packet`
acknowledges a data frame after `control_data_` has returned without looking at
the state again, so a link that a refused `send_control` of the callback has just
killed still sends that acknowledgement.
-/

namespace Aa2acp
namespace Iap2

variable {σ : Type} (env : Env σ)

/-- An event that a dead link may still show: no `send_` call, no `control_data_`
call and no accepted message. -/
def Event.silent : Event → Bool
  | .sent _ _ => false
  | .delivered _ => false
  | .answered accepted => !accepted
  | _ => true

/-- From the moment the state becomes Dead it stays Dead and nothing but silent
events happen. -/
structure SilentOnceDead (w : World σ) : Prop where
  stays : w.trace.Pairwise fun earlier later =>
    earlier.link.state = .dead → later.link.state = .dead
  still : (∃ entry ∈ w.trace, entry.link.state = .dead) → w.link.state = .dead
  silent : ∀ entry ∈ w.trace, entry.link.state = .dead → entry.event.silent = true

theorem Step.dead {w w' : World σ} (hstep : Step env w w') (h : w.link.state = .dead) :
    w'.link.state = .dead := by
  cases hstep with
  | bookkeeping buffer nextMarker nextSyn app => exact h
  | die buffer => rfl
  | abandon => rfl
  | reset header payload hrst => rfl
  | packet header payload hrst => simpa using h
  | openSyn hstate => simp [h] at hstate
  | encodeSyn control hstate => exact h
  | encodeAck hstate => exact h
  | transmit frame hoffered halive => exact h
  | queue payload hrefuses => simp [(refusesControl_eq_false hrefuses).1] at h
  | answer accepted haccepted => exact h
  | retime pending hpending => exact h
  | adopt header payload received hstate => exact h
  | establish header payload hstate => simp [h] at hstate
  | advance header payload hstate => simp [h] at hstate
  | callbackReturned => exact h

/-- Dead is absorbing. -/
theorem Steps.dead {w w' : World σ} (hsteps : Steps env w w') (h : w.link.state = .dead) :
    w'.link.state = .dead :=
  hsteps.invariant (I := fun w => w.link.state = .dead) (fun _ _ hw hstep => hstep.dead env hw) h

/-- The entries a step adds carry the state the step started from, and on a dead
link they are silent unless a refusal inside the callback went before. -/
theorem Step.new_entries {w w' : World σ} (hstep : Step env w w') :
    ∃ added, w'.trace = w.trace ++ added ∧
      (∀ entry ∈ added, entry.link.state = w.link.state) ∧
      (w.link.state = .dead → ¬ RefusedInCallback w.trace →
        ∀ entry ∈ added, entry.event.silent = true) := by
  -- most steps add one event or none
  have hone (event : Event)
      (h : w.link.state = .dead → ¬ RefusedInCallback w.trace → event.silent = true) :
      ∃ added, w.trace ++ [⟨w.link, event⟩] = w.trace ++ added ∧
        (∀ entry ∈ added, entry.link.state = w.link.state) ∧
        (w.link.state = .dead → ¬ RefusedInCallback w.trace →
          ∀ entry ∈ added, entry.event.silent = true) :=
    ⟨_, rfl, by simp, by simpa using h⟩
  have hnone : ∃ added, w.trace = w.trace ++ added ∧
      (∀ entry ∈ added, entry.link.state = w.link.state) ∧
      (w.link.state = .dead → ¬ RefusedInCallback w.trace →
        ∀ entry ∈ added, entry.event.silent = true) :=
    ⟨[], by simp, by simp, by simp⟩
  cases hstep with
  | bookkeeping buffer nextMarker nextSyn app => exact hnone
  | die buffer => exact hnone
  | abandon => exact hnone
  | reset header payload hrst => exact hone _ fun _ _ => rfl
  | packet header payload hrst => exact hone _ fun _ _ => rfl
  | openSyn hstate => exact hnone
  | encodeSyn control hstate => exact hone _ fun _ _ => rfl
  | encodeAck hstate => exact hone _ fun _ _ => rfl
  | transmit frame hoffered halive =>
      refine hone _ fun hdead hnot => ?_
      -- on a dead link only a callback whose message was refused still transmits
      rcases halive with halive | hrefused
      · exact absurd hdead halive
      · exact absurd hrefused hnot
  | queue payload hrefuses =>
      obtain ⟨hnormal, -⟩ := refusesControl_eq_false hrefuses
      have halive : w.link.state ≠ .dead := by simp [hnormal]
      rcases queueControl_cases env payload w with
        ⟨frame, deadline, -, hqueue⟩ | ⟨frame, sent, -, hsent, hqueue⟩
      · rw [hqueue]
        exact ⟨_, rfl, by simp, fun hdead => absurd hdead halive⟩
      · rw [hqueue]
        refine ⟨_, rfl, ?_, fun hdead => absurd hdead halive⟩
        rcases hsent with ⟨-, rfl⟩ | ⟨-, rfl⟩ <;> simp
  | answer accepted haccepted =>
      refine hone _ fun hdead _ => ?_
      cases accepted with
      | false => rfl
      | true =>
          rw [haccepted rfl] at hdead
          cases hdead
  | retime pending hpending => exact hnone
  | adopt header payload received hstate => exact hone _ fun _ _ => rfl
  | establish header payload hstate => exact hone _ fun _ _ => rfl
  | advance header payload hstate =>
      have halive : w.link.state ≠ .dead := by simp [hstate]
      rw [acceptData_eq]
      refine ⟨_, rfl, ?_, fun hdead => absurd hdead halive⟩
      intro entry hentry
      split at hentry
      · simp only [List.mem_cons, List.not_mem_nil, or_false] at hentry
        rcases hentry with rfl | rfl <;> rfl
      · simp only [List.mem_singleton] at hentry
        rw [hentry]
  | callbackReturned => exact hone _ fun _ _ => rfl

theorem SilentOnceDead.step {w w' : World σ}
    (h : ¬ RefusedInCallback w.trace → SilentOnceDead w) (hstep : Step env w w')
    (hnot : ¬ RefusedInCallback w'.trace) : SilentOnceDead w' := by
  obtain ⟨added, htrace, hstate, hsilent⟩ := hstep.new_entries
  have hnot' : ¬ RefusedInCallback w.trace := fun hrefused =>
    hnot (htrace ▸ hrefused.append added)
  obtain ⟨hstays, hstill, hquiet⟩ := h hnot'
  refine ⟨?_, ?_, ?_⟩
  · rw [htrace, List.pairwise_append]
    refine ⟨hstays, ?_, ?_⟩
    · refine List.pairwise_of_forall_mem_list ?_
      intro earlier hearlier later hlater hdead
      rw [hstate later hlater, ← hstate earlier hearlier]
      exact hdead
    · intro earlier hearlier later hlater hdead
      rw [hstate later hlater]
      exact hstill ⟨earlier, hearlier, hdead⟩
  · rintro ⟨entry, hentry, hdead⟩
    rw [htrace, List.mem_append] at hentry
    rcases hentry with hold | hnew
    · exact hstep.dead env (hstill ⟨entry, hold, hdead⟩)
    · exact hstep.dead env ((hstate entry hnew).symm.trans hdead)
  · intro entry hentry hdead
    rw [htrace, List.mem_append] at hentry
    rcases hentry with hold | hnew
    · exact hquiet entry hold hdead
    · exact hsilent ((hstate entry hnew).symm.trans hdead) hnot' entry hnew

theorem silentOnceDead_run (app : σ) (inputs : List Input)
    (hnot : ¬ RefusedInCallback (run env app inputs).trace) :
    SilentOnceDead (run env app inputs) := by
  have hfresh : ¬ RefusedInCallback (World.fresh app).trace → SilentOnceDead (World.fresh app) :=
    fun _ => ⟨.nil, by simp [World.fresh], by simp [World.fresh]⟩
  exact run_invariant env
    (I := fun w => ¬ RefusedInCallback w.trace → SilentOnceDead w) hfresh
    (fun _ _ h hstep hnot => SilentOnceDead.step env h hstep hnot) inputs hnot

/-- A dead link refuses every message. -/
theorem sendControl_of_dead {w : World σ} (h : w.link.state = .dead) (payload : Bytes) :
    (sendControl env payload w).1 = false := by
  have hrefuses : refusesControl w.link payload = true := by simp [refusesControl, h]
  unfold sendControl
  rw [hrefuses]
  rfl

theorem run_append (app : σ) (inputs more : List Input) :
    run env app (inputs ++ more) = more.foldl (apply env) (run env app inputs) := by
  unfold run
  exact List.foldl_append

/-- Calls made after the link died leave it dead. -/
theorem run_append_dead (app : σ) (inputs more : List Input)
    (h : (run env app inputs).link.state = .dead) :
    (run env app (inputs ++ more)).link.state = .dead := by
  have hpending := (pendingEstablished_fresh app).steps env (steps_run env app inputs)
  rw [run_append]
  exact (steps_foldl_apply env more hpending).dead env h

/-- The whole of what a run shows once the link is dead: the history is silent from
that moment on, and later calls find the link dead and refusing. -/
structure DeadForEver (app : σ) (inputs more : List Input) : Prop where
  history : SilentOnceDead (run env app (inputs ++ more))
  stays : (run env app inputs).link.state = .dead →
    (run env app (inputs ++ more)).link.state = .dead
  refuses : ∀ payload, (run env app (inputs ++ more)).link.state = .dead →
    (sendControl env payload (run env app (inputs ++ more))).1 = false

/-- A run in which the transport refuses no frame of a `send_control` call that
`control_data_` makes is silent from the moment the link dies. -/
theorem deadForEver_of_callback_accepted (app : σ) (inputs more : List Input)
    (hcallback : ¬ RefusedInCallback (run env app (inputs ++ more)).trace) :
    DeadForEver env app inputs more where
  history := silentOnceDead_run env app (inputs ++ more) hcallback
  stays := run_append_dead env app inputs more
  refuses := fun payload h => sendControl_of_dead env h payload

theorem deadForEver_after_reset :
    (run (Env.accepting (some replyOnce)) ()
      (handshakeThenData ++ [.receive (encodeFrame kControlRst 5 0 0 []) 0])).link.state = .dead ∧
    DeadForEver (Env.accepting (some replyOnce)) ()
      (handshakeThenData ++ [.receive (encodeFrame kControlRst 5 0 0 []) 0])
      [.tick 0, .sendControl [1]] :=
  ⟨by decide +kernel, deadForEver_of_callback_accepted _ _ _ _ (by decide +kernel)⟩

/-- A callback that the transport fails leaves a dead link that still sends: the
acknowledgement of the frame it was called for. -/
theorem sendAck_of_dead_sends {w : World σ} (h : w.link.state = .dead) :
    ∃ entry ∈ (sendAck env w).trace, entry.link.state = .dead ∧ entry.event.silent = false := by
  set frame := encodePacket w.link [] w.link.sentSequence kControlAck 0 with hframe
  set encoded := w.record (.encoded frame) with hencoded
  have hne : frame ≠ [] := by
    intro hnil
    have hlength := congrArg List.length hnil
    rw [hframe, encodePacket_nil, length_encodeFrame_nil] at hlength
    cases hlength
  have hwrite : (sendAck env w).trace =
      encoded.trace ++ [⟨w.link, .sent frame (env.send encoded.sentFrames frame)⟩] := by
    unfold sendAck writePacket
    simp only [← hframe, ← hencoded, if_neg hne, World.transmit_eq]
    split <;> rfl
  refine ⟨⟨w.link, .sent frame (env.send encoded.sentFrames frame)⟩, ?_, h, rfl⟩
  rw [hwrite]
  simp

/-- Handling a data frame of the control session on an established link: when a
refused `send_control` of the callback kills the link, it is not silent. -/
theorem not_silentOnceDead_of_callback_killed {callback : Bytes → σ → Sends σ} {header : Header}
    {payload : Bytes} {w : World σ} (hcallback : env.controlData = some callback)
    (hstate : w.link.state = .normal)
    (hnext : header.sequence = w.link.lastReceivedSequence + 1)
    (hsession : header.sessionId = w.link.peerControlSessionId)
    (hkilled : (deliver env callback payload
      ((w.record (.advanced header payload)).update (.advance header.sequence))).link.state =
        .dead) :
    ¬ SilentOnceDead (handleData env header payload w) := by
  have hdistance : header.sequence - w.link.lastReceivedSequence = 1 := by
    rw [hnext]
    grind
  have hne : header.sequence ≠ w.link.lastReceivedSequence := by
    intro heq
    rw [heq] at hdistance
    simp at hdistance
  have hhandle : handleData env header payload w =
      sendAck env (deliver env callback payload
        ((w.record (.advanced header payload)).update (.advance header.sequence))) := by
    unfold handleData
    dsimp only
    rw [if_neg (by simp [hstate]), if_neg (by simp [hdistance]), if_neg (by simp [hdistance]),
      if_neg (by simp [hne])]
    simp [hcallback, hsession, PhoneLink.advance]
  intro hsilent
  obtain ⟨entry, hentry, hdead, hspeaks⟩ := sendAck_of_dead_sends env hkilled
  rw [← hhandle] at hentry
  have h := hsilent.silent entry hentry hdead
  rw [hspeaks] at h
  cases h

/-- A transport that refuses data frames. -/
def refusingData : Env Unit where
  send := fun _ frame => !(frame.length > 9 && frame.getD 4 0 == kControlAck)
  clock := fun _ => 0
  controlData := some replyOnce

/-- The acknowledgement after the failed answer goes out on a dead link. -/
theorem dead_link_sends_ack : ¬ DeadForEver refusingData () handshakeThenData [] := by
  intro h
  have hspeaks : ∃ entry ∈ (run refusingData () (handshakeThenData ++ [])).trace,
      entry.link.state = .dead ∧ entry.event.silent = false := by
    decide +kernel
  obtain ⟨entry, hentry, hdead, hspeaks⟩ := hspeaks
  have hsilent := h.history.silent entry hentry hdead
  rw [hspeaks] at hsilent
  cases hsilent

end Iap2
end Aa2acp
