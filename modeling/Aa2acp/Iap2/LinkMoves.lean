import Aa2acp.Iap2.LinkSteps

/-!
# The calls a run of the link is made of

`Step` takes the functions of the link apart so far that a frame and the transport
call that carries it are two steps.  Some properties need them together: which SYN
frame went out last, or which message a retransmission was charged to.  A `Move` is
one whole call of `send_marker`, `send_syn`, `send_ack`, `send_control`, or one turn
of the retransmission loop, or an update of the object between two of these.  It
carries the time of the `tick` it belongs to, since retransmitting is what only
`tick` may do.
-/

namespace Aa2acp
namespace Iap2

variable {σ : Type}

/-- A message of `pending_` as the retransmission loop leaves it. -/
def PendingMessage.again (now : TimePoint) (lsp : Lsp) (message : PendingMessage) :
    PendingMessage :=
  { message with
    retries := message.retries + 1
    deadline := now + milliseconds lsp.retransmissionTimeout.toNat }

@[simp] theorem PendingMessage.identity_again (now : TimePoint) (lsp : Lsp)
    (message : PendingMessage) : (message.again now lsp).identity = message.identity := rfl

/-- One turn of the retransmission loop that sends: `message` is due and has a retry
left. -/
def resend (env : Env σ) (now : TimePoint) (visited : List PendingMessage)
    (message : PendingMessage) (rest : List PendingMessage) (w : World σ) : Bool × World σ :=
  (w.update fun link =>
    { link with pending := visited ++ message.again now w.link.lsp :: rest }).transmit env
      message.frame

/-- One call within a run.  `time` is the time of the `tick` on the stack, if any. -/
inductive Move (env : Env σ) (time : Option TimePoint) : World σ → World σ → Prop
  | buffer (w : World σ) (buffer : Bytes) : Move env time w (w.setBuffer buffer)
  /-- `tick` sets the time of the next marker. -/
  | timer (w : World σ) (next : TimePoint) :
      Move env time w (w.update fun link => { link with nextMarker := next })
  /-- The receive buffer overflows, or a frame is longer than agreed. -/
  | overflow (w : World σ) : Move env time w (w.update fun link => link.die.clearBuffer)
  | marker (w : World σ) (hstate : w.link.state = .detect) :
      Move env time w (sendMarker env w).2
  /-- The first SYN of the link. -/
  | openSyn (w : World σ) (now : TimePoint) (hstate : w.link.state = .detect) :
      Move env time w
        (sendSyn env now false (w.update fun link => { link with state := .negotiate }))
  /-- The SYN that `tick` sends. -/
  | repeatSyn (w : World σ) (now : TimePoint) (htime : time = some now)
      (hstate : w.link.state = .negotiate) :
      Move env time w (sendSyn env now false w)
  /-- The SYN that answers one of the peer. -/
  | answerSyn (w : World σ) (now : TimePoint) (header : Header) (received : Lsp)
      (hstate : w.link.state ≠ .normal) :
      Move env time w
        (sendSyn env now true
          ((w.record (.synAdopted header received)).update (.adopt header received)))
  | ack (w : World σ) : Move env time w (sendAck env w)
  | control (w : World σ) (payload : Bytes) : Move env time w (sendControl env payload w).2
  | reset (w : World σ) (header : Header) (payload : Bytes)
      (hrst : header.control &&& kControlRst ≠ 0) :
      Move env time w ((w.record (.packet header payload)).update .reset)
  | packet (w : World σ) (header : Header) (payload : Bytes)
      (hrst : header.control &&& kControlRst = 0) :
      Move env time w ((w.record (.packet header payload)).update (.acknowledge header))
  | establish (w : World σ) (hstate : w.link.state = .negotiate) :
      Move env time w ((w.record .established).update .establish)
  | advance (w : World σ) (header : Header) (payload : Bytes) (hstate : w.link.state = .normal) :
      Move env time w ((w.record (.advanced header payload)).update (.advance header.sequence))
  | delivered (w : World σ) (payload : Bytes) : Move env time w (w.record (.delivered payload))
  | returned (w : World σ) (app : σ) :
      Move env time w (World.record { w with app := app } .callbackReturned)
  | resend (w : World σ) (now : TimePoint) (visited : List PendingMessage)
      (message : PendingMessage) (rest : List PendingMessage) (htime : time = some now)
      (hstate : w.link.state = .normal) (hpending : w.link.pending = visited ++ message :: rest)
      (hdue : message.deadline ≤ now)
      (hretries : message.retries < w.link.lsp.maxRetransmissions.toNat) :
      Move env time w (Iap2.resend env now visited message rest w).2
  /-- The retransmission loop gives the link up. -/
  | giveUp (w : World σ) (hstate : w.link.state = .normal) : Move env time w (w.update .abandon)

/-- Any number of moves. -/
abbrev Moves (env : Env σ) (time : Option TimePoint) : World σ → World σ → Prop :=
  Relation.ReflTransGen (Move env time)

/-- The time of a `tick`. -/
def Input.tickTime : Input → Option TimePoint
  | .tick now => some now
  | _ => none

variable (env : Env σ) (time : Option TimePoint)

theorem moves_setBuffer (w : World σ) (buffer : Bytes) : Moves env time w (w.setBuffer buffer) :=
  .single (.buffer w buffer)

theorem moves_sendAck (w : World σ) : Moves env time w (sendAck env w) := .single (.ack w)

/-! ## Receiving -/

/-- The `send_control` calls of the callback are moves. -/
theorem moves_runCallback (computation : Sends σ) (w : World σ) :
    Moves env time w (computation.run (sendControl env) w).2 := by
  have hstep (payload : Bytes) (w' : World σ) (h : Moves env time w w') :
      Moves env time w (sendControl env payload w').2 :=
    h.tail (.control w' payload)
  exact Interaction.run_invariant hstep computation .refl

theorem moves_deliver (callback : Bytes → σ → Sends σ) (payload : Bytes) (w : World σ) :
    Moves env time w (deliver env callback payload w) := by
  unfold deliver
  dsimp only
  have hrun := moves_runCallback env time (callback payload w.app) (w.record (.delivered payload))
  exact (Relation.ReflTransGen.head (.delivered w payload) hrun).tail (.returned _ _)

theorem moves_handleData (header : Header) (payload : Bytes) (w : World σ) :
    Moves env time w (handleData env header payload w) := by
  unfold handleData
  dsimp only
  split
  · exact .refl
  rename_i hstate
  rw [ne_eq, not_not] at hstate
  split
  · exact moves_sendAck env time w
  split
  · exact moves_sendAck env time w
  split
  · exact moves_sendAck env time w
  refine .head (.advance w header payload hstate) ?_
  split
  · rename_i callback hcallback
    split
    · exact (moves_deliver env time callback payload _).trans (moves_sendAck env time _)
    · exact moves_sendAck env time _
  · exact moves_sendAck env time _

theorem moves_handlePacket (header : Header) (payload : Bytes) (now : TimePoint) (w : World σ) :
    Moves env time w (handlePacket env header payload now w) := by
  unfold handlePacket
  dsimp only
  split
  · rename_i hrst
    exact .single (.reset w header payload hrst)
  rename_i hrst
  rw [ne_eq, not_not] at hrst
  refine .head (.packet w header payload hrst) ?_
  split
  · split
    · exact moves_sendAck env time _
    · rename_i hstate
      split
      · rename_i received hlsp
        exact .single (.answerSyn _ now header received hstate)
      · exact .refl
  · split
    · rename_i hack
      split
      · exact .single (.establish _ hack.2)
      · exact .refl
    · split
      · exact moves_handleData env time header payload _
      · exact .refl

theorem moves_processFrame (now : TimePoint) (w : World σ) :
    Moves env time w (processFrame env now w).2 := by
  unfold processFrame
  dsimp only
  split
  · exact .refl
  split
  · exact moves_setBuffer env time w _
  split
  · exact .single (.overflow w)
  split
  · exact .refl
  split
  · exact moves_setBuffer env time w _
  · exact (moves_setBuffer env time w _).trans (moves_handlePacket env time _ _ now _)

theorem moves_processOnce (now : TimePoint) (w : World σ) :
    Moves env time w (processOnce env now w).2 := by
  unfold processOnce
  dsimp only
  split
  · exact moves_setBuffer env time w _
  split
  · exact moves_setBuffer env time w _
  · exact (moves_setBuffer env time w _).trans (moves_processFrame env time now _)

theorem moves_processLoop (now : TimePoint) (fuel : Nat) (w : World σ) :
    Moves env time w (processLoop env now fuel w) := by
  induction fuel generalizing w with
  | zero => exact .refl
  | succ fuel ih =>
      unfold processLoop
      split
      · exact .refl
      · have honce := moves_processOnce env time now w
        split
        · rename_i w' heq
          rw [heq] at honce
          exact honce.trans (ih w')
        · rename_i w' heq
          rw [heq] at honce
          exact honce

theorem moves_scanBuffer (now : TimePoint) (w : World σ) :
    Moves env time w (scanBuffer env now w) := by
  unfold scanBuffer
  dsimp only
  split
  · rename_i hdetect
    split
    · exact moves_setBuffer env time w _
    · rename_i index hindex
      have hfound := moves_setBuffer env time w
        (w.link.receiveBuffer.drop (index + kMarker.length))
      exact (hfound.tail (.openSyn _ now hdetect)).trans (moves_processLoop env time now _ _)
  · exact moves_processLoop env time now _ _

theorem moves_receive (bytes : Bytes) (now : TimePoint) (w : World σ) :
    Moves env time w (receive env bytes now w) := by
  unfold receive
  split
  · exact .single (.overflow w)
  · exact (moves_setBuffer env time w _).trans (moves_scanBuffer env time now _)

/-! ## Driving -/

theorem moves_start (now : TimePoint) (w : World σ) : Moves env time w (start env now w) := by
  unfold start
  split
  · exact .refl
  rename_i hdetect
  rw [ne_eq, not_not] at hdetect
  have hmarker : Moves env time w (sendMarker env w).2 := .single (.marker w hdetect)
  have hlink := sendMarker_link_of_true env w
  split
  · rename_i w' heq
    rw [heq] at hmarker
    exact hmarker
  · rename_i w' heq
    rw [heq] at hmarker hlink
    exact hmarker.tail (.openSyn w' now (by rw [hlink rfl]; exact hdetect))

theorem retransmit_cons (now : TimePoint) (visited rest : List PendingMessage)
    (message : PendingMessage) (w : World σ) :
    retransmit env now visited (message :: rest) w =
      if now < message.deadline then retransmit env now (visited ++ [message]) rest w
      else if message.retries ≥ w.link.lsp.maxRetransmissions.toNat then w.update .abandon
      else
        let again := message.again now w.link.lsp
        let (accepted, w) := resend env now visited message rest w
        if accepted then retransmit env now (visited ++ [again]) rest w
        else w.update .abandon := by
  rw [retransmit]
  rfl

theorem resend_link (now : TimePoint) (visited rest : List PendingMessage)
    (message : PendingMessage) (w : World σ) :
    (resend env now visited message rest w).2.link =
      { w.link with pending := visited ++ message.again now w.link.lsp :: rest } := rfl

/-- The retransmission loop, over what is left of `pending_`. -/
theorem moves_retransmit (now : TimePoint) (visited rest : List PendingMessage) (w : World σ)
    (hpending : w.link.pending = visited ++ rest) (hstate : w.link.state = .normal) :
    Moves env (some now) w (retransmit env now visited rest w) := by
  induction rest generalizing visited w with
  | nil => exact .refl
  | cons message rest ih =>
      rw [retransmit_cons]
      split
      · exact ih (visited ++ [message]) w (by simp [hpending]) hstate
      rename_i hdue
      split
      · exact .single (.giveUp w hstate)
      rename_i hretries
      have hresend : Move env (some now) w (resend env now visited message rest w).2 :=
        .resend w now visited message rest rfl hstate hpending (not_lt.mp hdue)
          (not_le.mp hretries)
      have hlink := resend_link env now visited rest message w
      refine .head hresend ?_
      dsimp only
      split
      · refine ih (visited ++ [message.again now w.link.lsp]) _ ?_ ?_
        · rw [hlink, List.append_assoc]
          rfl
        · rw [hlink]
          exact hstate
      · refine .single (.giveUp _ ?_)
        rw [hlink]
        exact hstate

theorem moves_tickMarker (now : TimePoint) (w : World σ) :
    Moves env time w (tickMarker env now w).2 := by
  unfold tickMarker
  split
  · rename_i hmarker
    have hmoves : Moves env time w (sendMarker env w).2 := .single (.marker w hmarker.1)
    split
    · rename_i w' heq
      rw [heq] at hmoves
      exact hmoves
    · rename_i w' heq
      rw [heq] at hmoves
      exact hmoves.tail (.timer w' _)
  · exact .refl

/-- Once the marker was seen, `tick` does not send it. -/
theorem tickMarker_of_not_detect (now : TimePoint) {w : World σ} (h : w.link.state ≠ .detect) :
    tickMarker env now w = (true, w) := by
  unfold tickMarker
  rw [if_neg (fun hdue => h hdue.1)]

/-- Before the link is established the retransmission loop finds nothing. -/
theorem retransmit_of_pending_nil (now : TimePoint) {w : World σ} (h : w.link.pending = []) :
    retransmit env now [] w.link.pending w = w := by
  rw [h]
  rfl

theorem moves_tick (now : TimePoint) {w : World σ} (h : PendingEstablished w) :
    Moves env (some now) w (tick env now w) := by
  unfold tick
  split
  · exact .refl
  rename_i halive
  have hmarker := moves_tickMarker env (some now) now w
  have hlink := tickMarker_link_of_true env now w
  split
  · rename_i w' heq
    rw [heq] at hmarker
    exact hmarker
  rename_i w' heq
  rw [heq] at hmarker hlink
  obtain ⟨hstate, hpending⟩ := hlink rfl
  dsimp only at hstate hpending ⊢
  refine hmarker.trans ?_
  have hnone (hearly : w.link.state = .detect ∨ w.link.state = .negotiate) :
      w'.link.pending = [] := by rw [hpending]; exact h hearly
  split
  · rename_i hdue
    have hafter : (sendSyn env now false w').link.pending = [] := by
      rw [sendSyn_pending]
      exact hnone (Or.inr (by rw [← hstate]; exact hdue.1))
    rw [retransmit_of_pending_nil env now hafter]
    exact .single (.repeatSyn w' now rfl hdue.1)
  · cases hcase : w.link.state with
    | detect =>
        rw [retransmit_of_pending_nil env now (hnone (Or.inl hcase))]
    | negotiate =>
        rw [retransmit_of_pending_nil env now (hnone (Or.inr hcase))]
    | normal => exact moves_retransmit env now [] _ w' rfl (by rw [hstate, hcase])
    | dead => exact absurd hcase halive

/-- A call of the owner is a sequence of moves. -/
theorem moves_apply (input : Input) {w : World σ} (h : PendingEstablished w) :
    Moves env input.tickTime w (apply env w input) := by
  cases input with
  | start now => exact moves_start env none now w
  | receive bytes now => exact moves_receive env none bytes now w
  | tick now => exact moves_tick env now h
  | sendControl payload => exact .single (.control w payload)

/-- Every reachable link satisfies `PendingEstablished`. -/
theorem pendingEstablished_run (app : σ) (inputs : List Input) :
    PendingEstablished (run env app inputs) :=
  (pendingEstablished_fresh app).steps env (steps_run env app inputs)

/-- What a new link satisfies and every move preserves holds after every run. -/
theorem run_invariant_of_moves {I : World σ → Prop} {app : σ} (hfresh : I (World.fresh app))
    (hmove : ∀ time w w', I w → Move env time w w' → I w') (inputs : List Input) :
    I (run env app inputs) := by
  induction inputs using List.reverseRecOn with
  | nil => exact hfresh
  | append_singleton inputs input ih =>
      have hmoves := moves_apply env input (pendingEstablished_run env app inputs)
      unfold run at ih ⊢
      rw [List.foldl_append]
      refine Relation.ReflTransGen.head_induction_on (motive := fun w _ => I w →
        I (apply env (run env app inputs) input)) hmoves id ?_ ih
      intro w w' hfirst _ hrest hw
      exact hrest (hmove _ w w' hw hfirst)

/-! ## What the calls send -/

/-- A packet that cannot be built or is refused costs the link its life. -/
theorem writePacket_cases (payload : Bytes) (sequence control sessionId : UInt8) (w : World σ) :
    (encodePacket w.link payload sequence control sessionId = [] ∧
      writePacket env payload sequence control sessionId w =
        { w with link := w.link.die, trace := w.trace ++ [⟨w.link, .encoded []⟩] }) ∨
    (∃ packet accepted,
      packet = encodePacket w.link payload sequence control sessionId ∧ packet ≠ [] ∧
      writePacket env payload sequence control sessionId w =
        { w with
          link := if accepted then w.link else w.link.die
          trace := w.trace ++ [⟨w.link, .encoded packet⟩, ⟨w.link, .sent packet accepted⟩] }) := by
  unfold writePacket
  set packet := encodePacket w.link payload sequence control sessionId with hpacket
  dsimp only
  by_cases hempty : packet = []
  · left
    rw [if_pos hempty, hempty]
    exact ⟨rfl, rfl⟩
  · right
    rw [if_neg hempty]
    refine ⟨packet, env.send (w.record (.encoded packet)).sentFrames packet, rfl, hempty, ?_⟩
    rw [World.transmit_eq]
    cases env.send (w.record (.encoded packet)).sentFrames packet <;>
      simp [World.record, World.update]

end Iap2
end Aa2acp
