import Aa2acp.Iap2.LinkSteps

/-!
# Worlds that look alike

Two worlds are alike when the frames offered and the payloads handed over so far are
the same and the links differ at most in the receive buffer, in the deadlines of the
pending messages and in the time of the next SYN.  Handling a frame in worlds that are
alike leaves them alike, at whatever times it is handled and whatever the clock that the
deadlines come from reads.
-/

namespace Aa2acp
namespace Iap2

variable {σ : Type}

/-- A link without its buffer and its deadlines. -/
def PhoneLink.timeless (link : PhoneLink) : PhoneLink :=
  { link with
    receiveBuffer := []
    nextSyn := 0
    pending := link.pending.map fun message => { message with deadline := 0 } }

structure Alike (w w' : World σ) : Prop where
  link : w.link.timeless = w'.link.timeless
  app : w.app = w'.app
  sentFrames : w.sentFrames = w'.sentFrames
  deliveries : w.deliveries = w'.deliveries

/-- Surroundings that differ in their clock at most. -/
structure SameBut (env env' : Env σ) : Prop where
  send : env.send = env'.send
  controlData : env.controlData = env'.controlData

namespace Alike

variable {w w' : World σ}

theorem refl (w : World σ) : Alike w w := ⟨rfl, rfl, rfl, rfl⟩

theorem trans {w'' : World σ} (h : Alike w w') (h' : Alike w' w'') : Alike w w'' :=
  ⟨h.link.trans h'.link, h.app.trans h'.app, h.sentFrames.trans h'.sentFrames,
    h.deliveries.trans h'.deliveries⟩

theorem symm (h : Alike w w') : Alike w' w :=
  ⟨h.link.symm, h.app.symm, h.sentFrames.symm, h.deliveries.symm⟩

/-- The links agree on all but the buffer and the deadlines. -/
theorem field {β : Type} (h : Alike w w') (f : PhoneLink → β)
    (hf : ∀ link : PhoneLink, f link.timeless = f link) : f w.link = f w'.link := by
  rw [← hf w.link, ← hf w'.link, h.link]

theorem state (h : Alike w w') : w.link.state = w'.link.state :=
  h.field PhoneLink.state fun _ => rfl

theorem lsp (h : Alike w w') : w.link.lsp = w'.link.lsp :=
  h.field PhoneLink.lsp fun _ => rfl

theorem sentSequence (h : Alike w w') : w.link.sentSequence = w'.link.sentSequence :=
  h.field PhoneLink.sentSequence fun _ => rfl

theorem peerControlSessionId (h : Alike w w') : w.link.peerControlSessionId = w'.link.peerControlSessionId :=
  h.field PhoneLink.peerControlSessionId fun _ => rfl

theorem lastReceivedSequence (h : Alike w w') : w.link.lastReceivedSequence = w'.link.lastReceivedSequence :=
  h.field PhoneLink.lastReceivedSequence fun _ => rfl

theorem lastSequenceValid (h : Alike w w') : w.link.lastSequenceValid = w'.link.lastSequenceValid :=
  h.field PhoneLink.lastSequenceValid fun _ => rfl

theorem synSequence (h : Alike w w') : w.link.synSequence = w'.link.synSequence :=
  h.field PhoneLink.synSequence fun _ => rfl

theorem synOutstanding (h : Alike w w') : w.link.synOutstanding = w'.link.synOutstanding :=
  h.field PhoneLink.synOutstanding fun _ => rfl

theorem pending (h : Alike w w') :
    w.link.pending.map (fun message => ({ message with deadline := 0 } : PendingMessage)) =
      w'.link.pending.map fun message => { message with deadline := 0 } :=
  congrArg PhoneLink.pending h.link

theorem pending_length (h : Alike w w') : w.link.pending.length = w'.link.pending.length := by
  have hlength := congrArg List.length h.pending
  rwa [List.length_map, List.length_map] at hlength

/-- The same event on both sides. -/
theorem record (h : Alike w w') (event : Event) : Alike (w.record event) (w'.record event) := by
  have hsent (w : World σ) : (w.record event).sentFrames =
      w.sentFrames ++ event.sentFrame?.toList := by
    simp only [World.sentFrames, World.record_trace, List.filterMap_append]
    cases hevent : event.sentFrame? <;> simp [hevent]
  have hdelivered (w : World σ) : (w.record event).deliveries =
      w.deliveries ++ event.payload?.toList := by
    simp only [World.deliveries, World.record_trace, List.filterMap_append]
    cases hevent : event.payload? <;> simp [hevent]
  exact ⟨h.link, h.app, by rw [hsent, hsent, h.sentFrames],
    by rw [hdelivered, hdelivered, h.deliveries]⟩

theorem update (h : Alike w w') {f f' : PhoneLink → PhoneLink}
    (hf : (f w.link).timeless = (f' w'.link).timeless) : Alike (w.update f) (w'.update f') :=
  ⟨hf, h.app, h.sentFrames, h.deliveries⟩

/-- An update that looks at neither the buffer nor the deadlines. -/
theorem update_timeless (h : Alike w w') {f : PhoneLink → PhoneLink}
    (hf : ∀ link : PhoneLink, (f link).timeless = (f link.timeless).timeless) :
    Alike (w.update f) (w'.update f) := by
  refine h.update ?_
  rw [hf w.link, hf w'.link, h.link]

theorem die (h : Alike w w') : Alike (w.update .die) (w'.update .die) :=
  h.update_timeless fun link => by simp [PhoneLink.timeless, PhoneLink.die]

/-- What the buffers hold does not matter. -/
theorem setBuffer (h : Alike w w') (buffer buffer' : Bytes) :
    Alike (w.setBuffer buffer) (w'.setBuffer buffer') := ⟨h.link, h.app, h.sentFrames, h.deliveries⟩

theorem setBuffer_left (h : Alike w w') (buffer : Bytes) : Alike (w.setBuffer buffer) w' :=
  ⟨h.link, h.app, h.sentFrames, h.deliveries⟩

end Alike

/-! ## Sending -/

section Sending

variable {env env' : Env σ} (henv : SameBut env env') {w w' : World σ}

include henv

theorem Alike.transmit (h : Alike w w') (frame : Bytes) :
    (w.transmit env frame).1 = (w'.transmit env' frame).1 ∧
      Alike (w.transmit env frame).2 (w'.transmit env' frame).2 := by
  have haccepted : env.send w.sentFrames frame = env'.send w'.sentFrames frame := by
    rw [henv.send, h.sentFrames]
  rw [World.transmit_eq, World.transmit_eq, haccepted]
  exact ⟨rfl, h.record _⟩

theorem Alike.writePacket (h : Alike w w') (payload : Bytes) (sequence control sessionId : UInt8) :
    Alike (writePacket env payload sequence control sessionId w)
      (writePacket env' payload sequence control sessionId w') := by
  have hpacket : encodePacket w.link payload sequence control sessionId =
      encodePacket w'.link payload sequence control sessionId := by
    unfold encodePacket
    rw [h.lastReceivedSequence]
  unfold Iap2.writePacket
  dsimp only
  rw [hpacket]
  have hencoded := h.record
    (.encoded (encodePacket w'.link payload sequence control sessionId))
  split
  · exact hencoded.die
  · obtain ⟨haccepted, hsent⟩ := hencoded.transmit henv
      (encodePacket w'.link payload sequence control sessionId)
    rw [haccepted]
    split
    · exact hsent
    · exact hsent.die

theorem Alike.sendAck (h : Alike w w') : Alike (sendAck env w) (sendAck env' w') := by
  unfold Iap2.sendAck
  rw [h.sentSequence]
  exact h.writePacket henv _ _ _ _

theorem Alike.sendSyn (h : Alike w w') (now now' : TimePoint) (acknowledgePeer : Bool) :
    Alike (sendSyn env now acknowledgePeer w) (sendSyn env' now' acknowledgePeer w') := by
  unfold Iap2.sendSyn
  rw [h.state, h.lsp]
  by_cases hstate : w'.link.state ≠ .negotiate
  · rw [if_pos hstate, if_pos hstate]
    exact h
  · rw [if_neg hstate, if_neg hstate]
    have hopen : Alike (w.update .openSyn) (w'.update .openSyn) :=
      h.update_timeless fun link => by
        unfold PhoneLink.openSyn PhoneLink.timeless
        cases hopen : link.synOutstanding <;> simp [hopen]
    dsimp only
    rw [hopen.synSequence]
    refine (hopen.writePacket henv _ _ _ _).update ?_
    -- the two links agree on all that is left once the time of the next SYN is
    have hwritten := (hopen.writePacket henv (encodeLsp w'.link.lsp) (w'.update .openSyn).link.synSequence
      (kControlSyn ||| if acknowledgePeer then kControlAck else 0) 0).link
    simpa [PhoneLink.timeless] using hwritten

theorem Alike.queueControl (h : Alike w w') (payload : Bytes) :
    (queueControl env payload w).1 = (queueControl env' payload w').1 ∧
      Alike (queueControl env payload w).2 (queueControl env' payload w').2 := by
  unfold Iap2.queueControl
  have hsending : Alike
      (w.update fun link => { link with sentSequence := link.sentSequence + 1 })
      (w'.update fun link => { link with sentSequence := link.sentSequence + 1 }) :=
    h.update_timeless fun link => by simp [PhoneLink.timeless]
  dsimp only
  set sending := w.update fun link => { link with sentSequence := link.sentSequence + 1 }
  set sending' := w'.update fun link => { link with sentSequence := link.sentSequence + 1 }
  have hframe : encodePacket sending.link payload sending.link.sentSequence kControlAck
        sending.link.peerControlSessionId =
      encodePacket sending'.link payload sending'.link.sentSequence kControlAck
        sending'.link.peerControlSessionId := by
    unfold encodePacket
    rw [hsending.lastReceivedSequence, hsending.sentSequence, hsending.peerControlSessionId]
  rw [hframe]
  set frame := encodePacket sending'.link payload sending'.link.sentSequence kControlAck
    sending'.link.peerControlSessionId
  have hencoded := hsending.record (.encoded frame)
  have habandon {w w' : World σ} (h : Alike w w') : Alike (w.update .abandon) (w'.update .abandon) :=
    h.update_timeless fun link => by simp [PhoneLink.timeless, PhoneLink.abandon]
  by_cases hempty : frame = []
  · rw [if_pos hempty, if_pos hempty]
    exact ⟨rfl, habandon hencoded⟩
  · rw [if_neg hempty, if_neg hempty]
    obtain ⟨haccepted, hsent⟩ := hencoded.transmit henv frame
    rw [haccepted]
    split
    · refine ⟨rfl, ?_⟩
      dsimp only
      refine hsent.update ?_
      have hpending := hsent.pending
      have hlink := hsent.link
      simp only [PhoneLink.timeless, PhoneLink.mk.injEq] at hlink
      simp only [PhoneLink.timeless, List.map_append, hpending, hsent.sentSequence, List.map_cons,
        List.map_nil, PhoneLink.mk.injEq]
      simp [hlink]
    · exact ⟨rfl, habandon hsent⟩

theorem Alike.sendControl (h : Alike w w') (payload : Bytes) :
    (sendControl env payload w).1 = (sendControl env' payload w').1 ∧
      Alike (sendControl env payload w).2 (sendControl env' payload w').2 := by
  have hrefuses : refusesControl w.link payload = refusesControl w'.link payload := by
    unfold refusesControl
    rw [h.state, h.lsp, h.pending_length]
  unfold Iap2.sendControl
  rw [hrefuses]
  cases refusesControl w'.link payload with
  | true => exact ⟨rfl, h.record _⟩
  | false =>
      obtain ⟨haccepted, hqueued⟩ := h.queueControl henv payload
      simp only [Bool.false_eq_true, if_false]
      rw [haccepted]
      exact ⟨rfl, hqueued.record _⟩

end Sending

/-! ## Receiving -/

section Receiving

variable {env env' : Env σ} (henv : SameBut env env') {w w' : World σ}

include henv

theorem Alike.deliver (h : Alike w w') (callback : Bytes → σ → Sends σ) (payload : Bytes) :
    Alike (deliver env callback payload w) (deliver env' callback payload w') := by
  have hcalled := h.record (.delivered payload)
  have hstep (payload : Bytes) (s t : World σ) (h : Alike s t) :
      (Iap2.sendControl env payload s).1 = (Iap2.sendControl env' payload t).1 ∧
        Alike (Iap2.sendControl env payload s).2 (Iap2.sendControl env' payload t).2 :=
    h.sendControl henv payload
  obtain ⟨happ, hend⟩ := Interaction.run_related hstep (callback payload w.app) hcalled
  unfold Iap2.deliver
  simp only [World.record_app]
  rw [← h.app]
  set called := (callback payload w.app).run (Iap2.sendControl env) (w.record (.delivered payload))
  set called' := (callback payload w.app).run (Iap2.sendControl env')
    (w'.record (.delivered payload))
  have hreturned : Alike ({ called.2 with app := called.1 } : World σ)
      { called'.2 with app := called'.1 } :=
    ⟨hend.link, happ, hend.sentFrames, hend.deliveries⟩
  exact hreturned.record .callbackReturned

theorem Alike.handleData (h : Alike w w') (header : Header) (payload : Bytes) :
    Alike (handleData env header payload w) (handleData env' header payload w') := by
  have hadvanced : Alike ((w.record (.advanced header payload)).update (.advance header.sequence))
      ((w'.record (.advanced header payload)).update (.advance header.sequence)) :=
    (h.record (.advanced header payload)).update_timeless fun link => by
      simp [PhoneLink.timeless, PhoneLink.advance]
  unfold Iap2.handleData
  dsimp only
  rw [h.state, h.lastReceivedSequence, h.lastSequenceValid, hadvanced.peerControlSessionId,
    henv.controlData]
  split
  · exact h
  split
  · exact h.sendAck henv
  split
  · exact h.sendAck henv
  split
  · exact h.sendAck henv
  · split
    · split
      · exact (hadvanced.deliver henv _ payload).sendAck henv
      · exact hadvanced.sendAck henv
    · exact hadvanced.sendAck henv

theorem Alike.handlePacket (h : Alike w w') (header : Header) (payload : Bytes)
    (now now' : TimePoint) :
    Alike (handlePacket env header payload now w) (handlePacket env' header payload now' w') := by
  have hpacket := h.record (.packet header payload)
  have hack : Alike ((w.record (.packet header payload)).update (.acknowledge header))
      ((w'.record (.packet header payload)).update (.acknowledge header)) := by
    refine hpacket.update_timeless fun link => ?_
    unfold PhoneLink.acknowledge PhoneLink.timeless
    simp only [ne_eq, List.map_eq_nil_iff]
    split
    · simp [List.filter_map, Function.comp_def]
    · simp
  unfold Iap2.handlePacket
  dsimp only
  split
  · exact hpacket.update_timeless fun link => by simp [PhoneLink.timeless, PhoneLink.reset]
  · rw [hack.state, hack.synOutstanding, hack.synSequence]
    split
    · split
      · exact hack.sendAck henv
      · split
        · rename_i received _
          have hadopted := (hack.record (.synAdopted header received)).update_timeless
            (f := PhoneLink.adopt header received) fun link => by
              simp [PhoneLink.timeless, PhoneLink.adopt]
          exact hadopted.sendSyn henv now now' true
        · exact hack
    · split
      · split
        · exact (hack.record .established).update_timeless fun link => by
            simp [PhoneLink.timeless, PhoneLink.establish]
        · exact hack
      · split
        · exact hack.handleData henv header payload
        · exact hack

end Receiving

end Iap2
end Aa2acp
