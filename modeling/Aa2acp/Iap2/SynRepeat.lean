import Aa2acp.Iap2.LinkMoves
import Aa2acp.Iap2.LinkRetransmittedSyn

/-!
# The SYN frames that `tick` repeats

A SYN frame is not stored but built anew each time, from the parameters, the sequence
numbers and the argument `acknowledge_peer`.  While the link negotiates, the last SYN
frame it sent is always the one that `send_syn` would build now, up to that argument:
the answer to a SYN of the peer carries the ACK bit and the repetition does not.  So
`tick` repeats the last SYN frame unchanged exactly when that frame was not an answer.
-/

namespace Aa2acp
namespace Iap2

variable {σ : Type}

/-! ## SYN frames -/

/-- A link frame whose control byte has the SYN bit. -/
def isSynFrame (frame : Bytes) : Bool :=
  frame.getD 0 0 == 0xff && frame.getD 1 0 == 0x5a && frame.getD 4 0 &&& kControlSyn != 0

/-- The SYN frame also acknowledges one of the peer. -/
def answersPeer (frame : Bytes) : Bool := frame.getD 4 0 &&& kControlAck != 0

/-- The last SYN frame among the frames offered to `send_`. -/
def lastSyn (frames : List Bytes) : Option Bytes := (frames.filter isSynFrame).getLast?

/-- The SYN frame that `send_syn` builds for a link whose SYN has its sequence number. -/
def ownSyn (link : PhoneLink) (acknowledgePeer : Bool) : Bytes :=
  encodePacket link (encodeLsp link.lsp) link.synSequence
    (kControlSyn ||| if acknowledgePeer then kControlAck else 0) 0

theorem lastSyn_append_other {frames : List Bytes} {frame : Bytes}
    (h : isSynFrame frame = false) : lastSyn (frames ++ [frame]) = lastSyn frames := by
  unfold lastSyn
  rw [List.filter_append, List.filter_singleton, h]
  simp

theorem lastSyn_append_syn {frames : List Bytes} {frame : Bytes} (h : isSynFrame frame = true) :
    lastSyn (frames ++ [frame]) = some frame := by
  unfold lastSyn
  rw [List.filter_append, List.filter_singleton, h]
  simp

theorem isSynFrame_encodeFrame (control sequence acknowledgement sessionId : UInt8)
    (payload : Bytes) :
    isSynFrame (encodeFrame control sequence acknowledgement sessionId payload) =
      (control &&& kControlSyn != 0) := by
  have hcontrol := (encodeFrame_fields control sequence acknowledgement sessionId payload).1
  have hstart : (encodeFrame control sequence acknowledgement sessionId payload).getD 0 0 = 0xff ∧
      (encodeFrame control sequence acknowledgement sessionId payload).getD 1 0 = 0x5a := by
    unfold encodeFrame
    split <;> exact ⟨rfl, rfl⟩
  unfold isSynFrame
  rw [hcontrol, hstart.1, hstart.2]
  rfl

/-- A packet that could be built is a frame. -/
theorem encodePacket_of_ne_nil {link : PhoneLink} {payload : Bytes}
    {sequence control sessionId : UInt8}
    (h : encodePacket link payload sequence control sessionId ≠ []) :
    encodePacket link payload sequence control sessionId =
      encodeFrame control sequence link.lastReceivedSequence sessionId payload := by
  unfold encodePacket at h ⊢
  split at h
  · exact absurd rfl h
  · rename_i hfits
    rw [if_neg hfits]

theorem encodeLsp_ne_nil (lsp : Lsp) : encodeLsp lsp ≠ [] := by
  simp [encodeLsp]

/-- Whether the own SYN can be built does not depend on what it acknowledges. -/
theorem ownSyn_eq_nil_iff (link : PhoneLink) (acknowledgePeer acknowledgePeer' : Bool) :
    ownSyn link acknowledgePeer = [] ↔ ownSyn link acknowledgePeer' = [] := by
  have hframe (acknowledgePeer : Bool) :
      ownSyn link acknowledgePeer = [] ↔ (encodeLsp link.lsp).length > 65525 := by
    unfold ownSyn encodePacket
    constructor
    · intro h
      split at h
      · rename_i hlong
        exact hlong.2
      · have hlength := congrArg List.length h
        rw [length_encodeFrame _ _ _ _ (encodeLsp_ne_nil _)] at hlength
        simp at hlength
    · intro hlong
      rw [if_pos ⟨encodeLsp_ne_nil _, hlong⟩]
  rw [hframe, hframe]

theorem isSynFrame_ownSyn {link : PhoneLink} {acknowledgePeer : Bool}
    (h : ownSyn link acknowledgePeer ≠ []) : isSynFrame (ownSyn link acknowledgePeer) = true := by
  unfold ownSyn at h ⊢
  rw [encodePacket_of_ne_nil h, isSynFrame_encodeFrame]
  cases acknowledgePeer <;> decide

theorem answersPeer_ownSyn {link : PhoneLink} {acknowledgePeer : Bool}
    (h : ownSyn link acknowledgePeer ≠ []) :
    answersPeer (ownSyn link acknowledgePeer) = acknowledgePeer := by
  unfold ownSyn at h ⊢
  rw [encodePacket_of_ne_nil h]
  unfold answersPeer
  rw [(encodeFrame_fields _ _ _ _ _).1]
  cases acknowledgePeer <;> decide

/-! ## The frames of one call -/

variable (env : Env σ)

/-- `writePacket` offers the packet, or nothing and the link dies. -/
theorem sentFrames_writePacket (payload : Bytes) (sequence control sessionId : UInt8)
    (w : World σ) :
    (encodePacket w.link payload sequence control sessionId = [] ∧
      (writePacket env payload sequence control sessionId w).sentFrames = w.sentFrames ∧
      (writePacket env payload sequence control sessionId w).link = w.link.die) ∨
    (encodePacket w.link payload sequence control sessionId ≠ [] ∧
      (writePacket env payload sequence control sessionId w).sentFrames =
        w.sentFrames ++ [encodePacket w.link payload sequence control sessionId] ∧
      ((writePacket env payload sequence control sessionId w).link = w.link ∨
        (writePacket env payload sequence control sessionId w).link = w.link.die)) := by
  have hlink := writePacket_link env payload sequence control sessionId w
  rcases writePacket_cases env payload sequence control sessionId w with
    ⟨hempty, hwrite⟩ | ⟨packet, accepted, hpacket, hne, hwrite⟩
  · left
    refine ⟨hempty, ?_, by rw [hwrite]⟩
    rw [hwrite]
    simp [World.sentFrames, Event.sentFrame?]
  · right
    subst hpacket
    refine ⟨hne, ?_, hlink⟩
    rw [hwrite]
    simp [World.sentFrames, Event.sentFrame?]

/-- What `send_syn` does to a link that negotiates. -/
theorem sendSyn_of_negotiate (now : TimePoint) (acknowledgePeer : Bool) {w : World σ}
    (hstate : w.link.state = .negotiate) :
    (ownSyn w.link.openSyn acknowledgePeer = [] ∧
      (sendSyn env now acknowledgePeer w).sentFrames = w.sentFrames ∧
      (sendSyn env now acknowledgePeer w).link.state = .dead) ∨
    (ownSyn w.link.openSyn acknowledgePeer ≠ [] ∧
      (sendSyn env now acknowledgePeer w).sentFrames =
        w.sentFrames ++ [ownSyn w.link.openSyn acknowledgePeer] ∧
      ((sendSyn env now acknowledgePeer w).link =
          { w.link.openSyn with nextSyn := now + milliseconds 500 } ∨
        (sendSyn env now acknowledgePeer w).link.state = .dead)) := by
  have hsyn : encodePacket w.link.openSyn (encodeLsp w.link.lsp) w.link.openSyn.synSequence
      (kControlSyn ||| if acknowledgePeer then kControlAck else 0) 0 =
        ownSyn w.link.openSyn acknowledgePeer := by
    unfold ownSyn
    rw [openSyn_lsp]
  have hwrite := sentFrames_writePacket env (encodeLsp w.link.lsp)
    w.link.openSyn.synSequence (kControlSyn ||| if acknowledgePeer then kControlAck else 0) 0
    (w.update .openSyn)
  rw [World.update_link, hsyn] at hwrite
  unfold sendSyn
  rw [if_neg (not_not.mpr hstate)]
  rcases hwrite with ⟨hempty, hframes, hlink⟩ | ⟨hne, hframes, hlink⟩
  · left
    refine ⟨hempty, hframes, ?_⟩
    rw [World.update_link, World.update_link, hlink]
    rfl
  · right
    refine ⟨hne, hframes, ?_⟩
    rcases hlink with hlink | hlink
    · left
      rw [World.update_link, World.update_link, hlink]
    · right
      rw [World.update_link, World.update_link, hlink]
      rfl

/-! ## The last SYN frame of a link that negotiates -/

/-- While the link negotiates, its last SYN frame is the one that `send_syn` would
build now, up to the ACK bit. -/
def SynSent (w : World σ) : Prop :=
  w.link.state = .negotiate → w.link.synOutstanding = true ∧
    ∃ acknowledgePeer, ownSyn w.link acknowledgePeer ≠ [] ∧
      lastSyn w.sentFrames = some (ownSyn w.link acknowledgePeer)

theorem synSent_of_ne {w : World σ} (h : w.link.state ≠ .negotiate) : SynSent w :=
  fun hstate => absurd hstate h

/-- What a call has to leave alone for the last SYN frame to stay the own one. -/
theorem SynSent.frame {w w' : World σ} (h : SynSent w)
    (hstate : w'.link.state = w.link.state) (hlsp : w'.link.lsp = w.link.lsp)
    (hreceived : w'.link.lastReceivedSequence = w.link.lastReceivedSequence)
    (hsequence : w'.link.synSequence = w.link.synSequence)
    (hopen : w'.link.synOutstanding = w.link.synOutstanding)
    (hframes : w'.sentFrames = w.sentFrames) : SynSent w' := by
  intro hnegotiate
  have hown (acknowledgePeer : Bool) :
      ownSyn w'.link acknowledgePeer = ownSyn w.link acknowledgePeer := by
    unfold ownSyn encodePacket
    rw [hlsp, hreceived, hsequence]
  obtain ⟨houtstanding, acknowledgePeer, hne, hlast⟩ := h (hstate ▸ hnegotiate)
  exact ⟨hopen.trans houtstanding, acknowledgePeer, by rwa [hown], by rw [hframes, hlast, hown]⟩

/-- After `send_syn` the frame just sent is the last SYN frame. -/
theorem synSent_sendSyn (now : TimePoint) (acknowledgePeer : Bool) (w : World σ) :
    SynSent (sendSyn env now acknowledgePeer w) := by
  by_cases hstate : w.link.state = .negotiate
  · intro hafter
    rcases sendSyn_of_negotiate env now acknowledgePeer hstate with
      ⟨-, -, hdead⟩ | ⟨hne, hframes, hlink | hdead⟩
    · rw [hdead] at hafter
      cases hafter
    · rw [hframes, hlink]
      refine ⟨openSyn_synOutstanding w.link, acknowledgePeer, hne, ?_⟩
      exact lastSyn_append_syn (isSynFrame_ownSyn hne)
    · rw [hdead] at hafter
      cases hafter
  · refine synSent_of_ne ?_
    unfold sendSyn
    rw [if_pos hstate]
    exact hstate

theorem synSent_sendAck {w : World σ} (h : SynSent w) : SynSent (sendAck env w) := by
  have hack : isSynFrame (encodePacket w.link [] w.link.sentSequence kControlAck 0) = false := by
    rw [encodePacket_nil, isSynFrame_encodeFrame]
    decide
  unfold sendAck
  rcases sentFrames_writePacket env [] w.link.sentSequence kControlAck 0 w with
    ⟨-, -, hlink⟩ | ⟨-, hframes, hlink | hlink⟩
  · exact synSent_of_ne (by rw [hlink]; simp [PhoneLink.die])
  · intro hstate
    rw [hlink] at hstate ⊢
    rw [hframes, lastSyn_append_other hack]
    exact h hstate
  · exact synSent_of_ne (by rw [hlink]; simp [PhoneLink.die])

theorem synSent_sendControl {w : World σ} (h : SynSent w) (payload : Bytes) :
    SynSent (sendControl env payload w).2 := by
  unfold sendControl
  cases hrefuses : refusesControl w.link payload with
  | true =>
      rw [if_pos rfl]
      exact h.frame rfl rfl rfl rfl rfl (by simp [Event.sentFrame?])
  | false =>
      simp only [Bool.false_eq_true, if_false]
      refine synSent_of_ne ?_
      rw [World.record_link]
      rcases queueControl_state env hrefuses with hafter | hafter <;> simp [hafter]

theorem SynSent.move {time : Option TimePoint} {w w' : World σ} (h : SynSent w)
    (hmove : Move env time w w') : SynSent w' := by
  cases hmove with
  | buffer buffer => exact h.frame rfl rfl rfl rfl rfl rfl
  | timer next => exact h.frame rfl rfl rfl rfl rfl rfl
  | overflow => exact synSent_of_ne (by simp [PhoneLink.die, PhoneLink.clearBuffer])
  | marker hstate =>
      refine synSent_of_ne ?_
      unfold sendMarker
      dsimp only
      split
      · simp [World.transmit_eq, hstate]
      · simp [PhoneLink.die]
  | openSyn now hstate => exact synSent_sendSyn env now false _
  | repeatSyn now htime hstate => exact synSent_sendSyn env now false w
  | answerSyn now header received hstate => exact synSent_sendSyn env now true _
  | ack => exact synSent_sendAck env h
  | control payload => exact synSent_sendControl env h payload
  | reset header payload hrst => exact synSent_of_ne (by simp [PhoneLink.reset])
  | packet header payload hrst =>
      obtain ⟨pending, hacknowledge⟩ := acknowledge_fields header w.link
      refine h.frame ?_ ?_ ?_ ?_ ?_ ?_
      case refine_6 =>
        change (w.record (.packet header payload)).sentFrames = w.sentFrames
        simp [Event.sentFrame?]
      all_goals
        rw [World.update_link, World.record_link, hacknowledge]
  | establish hstate => exact synSent_of_ne (by simp [PhoneLink.establish])
  | advance header payload hstate =>
      exact synSent_of_ne (by simp [PhoneLink.advance, hstate])
  | delivered payload =>
      exact h.frame rfl rfl rfl rfl rfl (by simp [Event.sentFrame?])
  | returned app =>
      refine h.frame rfl rfl rfl rfl rfl ?_
      rw [sentFrames_record]
      simp [Event.sentFrame?, World.sentFrames]
  | resend now visited message rest htime hstate hpending hdue hretries =>
      exact synSent_of_ne (by rw [resend_link]; simp [hstate])
  | giveUp hstate => exact synSent_of_ne (by simp [PhoneLink.abandon])

theorem synSent_run (env : Env σ) (app : σ) (inputs : List Input) :
    SynSent (run env app inputs) :=
  run_invariant_of_moves env (synSent_of_ne (by simp [World.fresh]))
    (fun _ _ _ h hmove => h.move env hmove) inputs

/-! ## Ticks -/

/-- Every SYN frame that a `tick` at `now` sends is the last SYN frame sent before it. -/
def RepeatsSyn (env : Env σ) (now : TimePoint) (w : World σ) : Prop :=
  ∀ earlier frame later, (tick env now w).sentFrames = w.sentFrames ++ earlier ++ frame :: later →
    isSynFrame frame = true → lastSyn (w.sentFrames ++ earlier) = some frame

/-- In Negotiate the SYN is all that `tick` sends. -/
theorem tick_of_negotiate (now : TimePoint) {w : World σ} (hstate : w.link.state = .negotiate)
    (hpending : w.link.pending = []) :
    tick env now w = if w.link.nextSyn ≤ now then sendSyn env now false w else w := by
  unfold tick
  rw [if_neg (by simp [hstate]), tickMarker_of_not_detect env now (by simp [hstate])]
  dsimp only
  by_cases hdue : w.link.nextSyn ≤ now
  · rw [if_pos ⟨hstate, hdue⟩, if_pos hdue]
    apply retransmit_of_pending_nil
    rw [sendSyn_pending, hpending]
  · rw [if_neg (fun h => hdue h.2), if_neg hdue]
    exact retransmit_of_pending_nil env now hpending

/-- Before the marker was seen `tick` sends the marker at most. -/
theorem sentFrames_tick_of_detect (now : TimePoint) {w : World σ}
    (hstate : w.link.state = .detect) (hpending : w.link.pending = []) :
    (tick env now w).sentFrames = w.sentFrames ∨
      (tick env now w).sentFrames = w.sentFrames ++ [kMarker] := by
  have hmarker : (tickMarker env now w).2.sentFrames = w.sentFrames ∨
      (tickMarker env now w).2.sentFrames = w.sentFrames ++ [kMarker] := by
    unfold tickMarker sendMarker
    rw [World.transmit_eq]
    by_cases hdue : w.link.state = .detect ∧ now ≥ w.link.nextMarker
    · right
      rw [if_pos hdue]
      cases env.send w.sentFrames kMarker <;> simp [World.sentFrames, Event.sentFrame?]
    · left
      rw [if_neg hdue]
  have hlink := tickMarker_link_of_true env now w
  unfold tick
  rw [if_neg (by simp [hstate])]
  split
  · rename_i w' heq
    rw [heq] at hmarker
    exact hmarker
  · rename_i w' heq
    rw [heq] at hmarker hlink
    obtain ⟨hstate', hpending'⟩ := hlink rfl
    dsimp only at hstate' hpending' ⊢
    rw [if_neg (by simp [hstate', hstate]),
      retransmit_of_pending_nil env now (hpending'.trans hpending)]
    exact hmarker

theorem openSyn_of_outstanding {link : PhoneLink} (h : link.synOutstanding = true) :
    link.openSyn = link := by
  unfold PhoneLink.openSyn
  rw [if_pos h]

/-- The frames that `tick` adds while the own SYN is not acknowledged: the own SYN
without the ACK bit, once it is due. -/
theorem tick_adds_syn (now : TimePoint) {w : World σ} (hsyn : SynSent w)
    (hstate : w.link.state = .negotiate) (hpending : w.link.pending = [])
    (hdue : w.link.nextSyn ≤ now) :
    ownSyn w.link false ≠ [] ∧
      (tick env now w).sentFrames = w.sentFrames ++ [ownSyn w.link false] := by
  obtain ⟨houtstanding, acknowledgePeer, hne, -⟩ := hsyn hstate
  have hopen := openSyn_of_outstanding houtstanding
  have hbuilt : ownSyn w.link false ≠ [] := fun hempty =>
    hne ((ownSyn_eq_nil_iff w.link acknowledgePeer false).mpr hempty)
  rw [tick_of_negotiate env now hstate hpending, if_pos hdue]
  rcases sendSyn_of_negotiate env now false hstate with
    ⟨hempty, -, -⟩ | ⟨-, hframes, -⟩
  · rw [hopen] at hempty
    exact absurd hempty hbuilt
  · rw [hopen] at hframes
    exact ⟨hbuilt, hframes⟩

theorem append_ne_self {frames : List Bytes} {frame : Bytes} {earlier later : List Bytes} :
    frames ≠ frames ++ earlier ++ frame :: later := by
  intro h
  have hlength := congrArg List.length h
  simp at hlength

/-- One frame more leaves room for one frame only. -/
theorem of_append_singleton {frames : List Bytes} {added frame : Bytes}
    {earlier later : List Bytes} (h : frames ++ [added] = frames ++ earlier ++ frame :: later) :
    earlier = [] ∧ frame = added := by
  rw [List.append_assoc] at h
  have hadded := List.append_cancel_left h
  cases earlier with
  | nil => exact ⟨rfl, (List.cons.inj hadded).1.symm⟩
  | cons first earlier =>
      have htail := (List.cons.inj hadded).2
      simp at htail

/-- A `tick` before the own SYN is acknowledged repeats the last SYN frame unless that
frame was the answer to a SYN of the peer. -/
theorem repeatsSyn_iff (now : TimePoint) {w : World σ} (hsyn : SynSent w)
    (hpending : PendingEstablished w) (hnormal : w.link.state ≠ .normal) :
    RepeatsSyn env now w ↔ (w.link.state = .negotiate → w.link.nextSyn ≤ now →
      ∀ frame, lastSyn w.sentFrames = some frame → answersPeer frame = false) := by
  cases hstate : w.link.state with
  | normal => exact absurd hstate hnormal
  | dead =>
      have htick : tick env now w = w := by
        unfold tick
        rw [if_pos hstate]
      refine ⟨fun _ h => absurd h (by simp), fun _ earlier frame later hframes => ?_⟩
      rw [htick] at hframes
      exact absurd hframes append_ne_self
  | detect =>
      refine ⟨fun _ h => absurd h (by simp), fun _ earlier frame later hframes hframe => ?_⟩
      rcases sentFrames_tick_of_detect env now hstate (hpending (Or.inl hstate)) with
        hsame | hmarker
      · rw [hsame] at hframes
        exact absurd hframes append_ne_self
      · rw [hmarker] at hframes
        rw [(of_append_singleton hframes).2] at hframe
        exact absurd hframe (by decide)
  | negotiate =>
      have hnone := hpending (Or.inr hstate)
      by_cases hdue : w.link.nextSyn ≤ now
      · obtain ⟨hbuilt, hframes⟩ := tick_adds_syn env now hsyn hstate hnone hdue
        obtain ⟨-, acknowledgePeer, hne, hlast⟩ := hsyn hstate
        constructor
        · intro hrepeats _ _ frame hframe
          have hsame := hrepeats [] (ownSyn w.link false) [] (by rw [hframes]; simp)
            (isSynFrame_ownSyn hbuilt)
          rw [List.append_nil, hframe] at hsame
          rw [Option.some.inj hsame]
          exact answersPeer_ownSyn hbuilt
        · intro hother earlier frame later hadded _
          have hanswer := hother rfl hdue _ hlast
          rw [answersPeer_ownSyn hne] at hanswer
          rw [hframes] at hadded
          obtain ⟨rfl, rfl⟩ := of_append_singleton hadded
          rw [List.append_nil, hlast, hanswer]
      · refine ⟨fun _ _ h => absurd h hdue, fun _ earlier frame later hframes => ?_⟩
        rw [tick_of_negotiate env now hstate hnone, if_neg hdue] at hframes
        exact absurd hframes append_ne_self

/-! ## Runs -/

/-- In this run every `tick` before the own SYN is acknowledged repeats the last SYN
frame unchanged. -/
def SynRepeatedUnchanged (env : Env σ) (app : σ) (inputs : List Input) : Prop :=
  ∀ before now after, inputs = before ++ .tick now :: after →
    (run env app before).link.state ≠ .normal → RepeatsSyn env now (run env app before)

/-- A run repeats its SYN unchanged exactly when no `tick` finds the repetition due while
the last SYN frame sent is the answer to a SYN of the peer. -/
theorem synRepeatedUnchanged_iff (env : Env σ) (app : σ) (inputs : List Input) :
    SynRepeatedUnchanged env app inputs ↔
      ∀ before now after, inputs = before ++ .tick now :: after →
        (run env app before).link.state = .negotiate →
          (run env app before).link.nextSyn ≤ now →
            ∀ frame, lastSyn (run env app before).sentFrames = some frame →
              answersPeer frame = false := by
  have htick (before : List Input) (now : TimePoint)
      (hnormal : (run env app before).link.state ≠ .normal) :=
    repeatsSyn_iff env now (synSent_run env app before)
      (pendingEstablished_run env app before) hnormal
  constructor
  · intro hrepeats before now after hinputs hstate
    have hnormal : (run env app before).link.state ≠ .normal := by simp [hstate]
    exact (htick before now hnormal).mp (hrepeats before now after hinputs hnormal) hstate
  · intro hlast before now after hinputs hnormal
    exact (htick before now hnormal).mpr (hlast before now after hinputs)

/-- The start of a link and two repetitions of its SYN, half a second apart. -/
def unansweredStart : List Input :=
  [.start 0, .tick (milliseconds 500), .tick (milliseconds 1000)]

/-- Without a SYN of the peer every repetition is the first SYN frame again. -/
theorem synRepeatedUnchanged_iff_unanswered :
    SynRepeatedUnchanged (Env.accepting none) () unansweredStart ∧
      (run (Env.accepting none) () unansweredStart).sentFrames.countP isSynFrame = 3 := by
  refine ⟨(synRepeatedUnchanged_iff (Env.accepting none) () unansweredStart).mpr ?_,
    by decide +kernel⟩
  intro before now after hinputs hstate hdue frame hframe
  have hlast (count : Nat) (hcount : count = 1 ∨ count = 2) :
      lastSyn (run (Env.accepting none) () (unansweredStart.take count)).sentFrames =
        some (encodeFrame kControlSyn 100 0 0 (encodeLsp {})) := by
    rcases hcount with rfl | rfl <;> decide +kernel
  match before, hinputs with
  | [], hinputs => cases hinputs
  | [_], hinputs =>
      cases hinputs
      cases Option.some.inj ((hlast 1 (Or.inl rfl)).symm.trans hframe)
      decide
  | [_, _], hinputs =>
      cases hinputs
      cases Option.some.inj ((hlast 2 (Or.inr rfl)).symm.trans hframe)
      decide
  | [_, _, _], hinputs => cases hinputs

/-- A peer that answers the start with its SYN and does not acknowledge ours in time. -/
def answeredStart : List Input :=
  [.start 0, .receive (encodeFrame kControlSyn 3 0 0 (encodeLsp {})) 0, .tick (milliseconds 500)]

/-- The repetition lacks the ACK bit of the answer it repeats. -/
theorem answered_syn_changes : ¬ SynRepeatedUnchanged (Env.accepting none) () answeredStart := by
  intro h
  have hrepeats := h (answeredStart.take 2) (milliseconds 500) [] rfl (by decide +kernel)
  have hlast := hrepeats [] (encodeFrame kControlSyn 100 3 0 (encodeLsp (clampLsp {}))) []
    (by decide +kernel) (by decide +kernel)
  exact absurd hlast (by decide +kernel)

end Iap2
end Aa2acp
