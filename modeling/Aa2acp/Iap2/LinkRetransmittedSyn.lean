import Aa2acp.Iap2.FrameCodec
import Aa2acp.Iap2.FrameScan
import Aa2acp.Iap2.LinkDelivery

/-!
# The peer's SYN a second time

A peer whose acknowledgement was lost sends its SYN again, and `handle_packet` answers it
without any other effect.  Before it gets there, though, the frame passes the length check
of `process_packets`, with the maximum that the first reception adopted from that very
frame.  A SYN that announces a maximum below its own length is adopted once and kills the
link the second time; `retransmittedSyn_harmless_iff` says that there is no other
exception.
-/

namespace Aa2acp
namespace Iap2

open History

variable {σ : Type} (env : Env σ)

/-! ## The last SYN -/

/-- The parameters of an adopted SYN. -/
def Event.lsp? : Event → Option Lsp
  | .synAdopted _ lsp => some lsp
  | _ => none

/-- The SYN frame adopted last consists of these bytes. -/
structure LastSyn (bytes : Bytes) (header : Header) (payload : Bytes) (trace : List Entry) : Prop where
  frame : FrameOf bytes header payload
  adopted : ∃ earlier before link received later,
    trace = earlier ++ ⟨before, .packet header payload⟩ :: ⟨link, .synAdopted header received⟩ :: later ∧
      ∀ entry ∈ later, entry.event.lsp? = none

/-- The effect on the link that a retransmitted SYN should have: it is acknowledged. -/
structure Harmless (w w' : World σ) : Prop where
  state : w'.link.state = w.link.state
  lsp : w'.link.lsp = w.link.lsp
  session : w'.link.peerControlSessionId = w.link.peerControlSessionId
  pending : w'.link.pending = w.link.pending
  deliveries : w'.deliveries = w.deliveries
  acknowledged : ∃ frame, w'.sentFrames = w.sentFrames ++ [frame] ∧
    frame.getD 4 0 &&& kControlAck ≠ 0 ∧ lastAccepted w.trace = some (frame.getD 6 0)

/-! ## What the link keeps of it -/

/-- The link's parameters are those of the SYN adopted last, which was a SYN. -/
structure SynInvariant (w : World σ) : Prop where
  kept : ∀ received, lastOf (fun entry => entry.event.lsp?) w.trace = some received →
    w.link.lsp = clampLsp received
  handled : AtEach (fun before entry _ => ∀ header received,
    entry.event = .synAdopted header received → ∃ earlier link payload,
      before = earlier ++ [⟨link, .packet header payload⟩] ∧ decodeLsp payload = some received ∧
        header.control &&& kControlSyn ≠ 0 ∧ header.control &&& kControlRst = 0) w.trace

/-- A step that adopts no SYN. -/
theorem SynInvariant.keep {w w' : World σ} (h : SynInvariant w) {added : List Entry}
    (htrace : w'.trace = w.trace ++ added) (hadded : ∀ entry ∈ added, entry.event.lsp? = none)
    (hlsp : w'.link.lsp = w.link.lsp) : SynInvariant w' := by
  constructor
  · intro received hlast
    rw [htrace, lastOf_append_of_none hadded] at hlast
    rw [hlsp]
    exact h.kept received hlast
  · rw [htrace]
    refine h.handled.append (fun _ _ _ _ hbefore => hbefore) ?_
    rintro start ⟨link, event⟩ after hsplit header received hevent
    have hnone := hadded ⟨link, event⟩ (by rw [hsplit]; simp)
    dsimp only at hnone hevent
    rw [hevent] at hnone
    cases hnone

theorem SynInvariant.adopt {w : World σ} (h : SynInvariant w) {header : Header} {payload : Bytes}
    {received : Lsp} (hsyn : header.control &&& kControlSyn ≠ 0)
    (hrst : header.control &&& kControlRst = 0) (hlsp : decodeLsp payload = some received)
    (hhandling : Handling header payload w) :
    SynInvariant ((w.record (.synAdopted header received)).update (.adopt header received)) := by
  obtain ⟨earlier, before, htrace, -⟩ := hhandling
  constructor
  · intro other hlast
    rw [World.update_trace, World.record_trace, lastOf_append_singleton] at hlast
    cases hlast
    rfl
  · refine h.handled.append_singleton (fun _ _ _ _ hbefore => hbefore) ?_
    intro other other' hevent
    cases hevent
    exact ⟨earlier, before, payload, htrace, hlsp, hsyn, hrst⟩

theorem SynInvariant.step {w w' : World σ} (h : SynInvariant w) (hstep : Step env w w') :
    SynInvariant w' := by
  -- a step with one event, and one without any
  have hone (event : Event) (hevent : event.lsp? = none) (w' : World σ)
      (htrace : w'.trace = w.trace ++ [⟨w.link, event⟩]) (hlsp : w'.link.lsp = w.link.lsp) :
      SynInvariant w' := by
    refine h.keep htrace ?_ hlsp
    intro entry hentry
    rw [List.mem_singleton.mp hentry]
    exact hevent
  have hstill (w' : World σ) (htrace : w'.trace = w.trace) (hlsp : w'.link.lsp = w.link.lsp) :
      SynInvariant w' :=
    h.keep (htrace.trans (List.append_nil _).symm) (by simp) hlsp
  cases hstep with
  | bookkeeping buffer nextMarker nextSyn app => exact hstill _ rfl rfl
  | die buffer => exact hstill _ rfl rfl
  | abandon => exact hstill _ rfl rfl
  | reset header payload hrst => exact hone (.packet header payload) rfl _ rfl rfl
  | packet header payload hrst =>
      apply hone (.packet header payload) rfl _ rfl
      obtain ⟨pending, hpending⟩ := acknowledge_fields header w.link
      have hlink : ((w.record (.packet header payload)).update (.acknowledge header)).link =
          { w.link with pending := pending } := hpending
      rw [hlink]
  | openSyn hstate => exact hstill _ rfl (openSyn_lsp _)
  | encodeSyn control hstate hopen hcontrol => exact hone (.encoded _) rfl _ rfl rfl
  | encodeAck hstate => exact hone (.encoded _) rfl _ rfl rfl
  | transmit frame hoffered halive => exact hone (.sent frame _) rfl _ rfl rfl
  | queue payload hrefuses =>
      rcases queueControl_cases env payload w with
        ⟨frame, deadline, -, hqueue⟩ | ⟨frame, sent, -, hsent, hqueue⟩
      · rw [hqueue]
        refine h.keep rfl ?_ rfl
        simp [Event.lsp?]
      · rw [hqueue]
        refine h.keep rfl ?_ rfl
        rcases hsent with ⟨-, rfl⟩ | ⟨-, rfl⟩ <;> simp [Event.lsp?]
  | answer accepted haccepted => exact hone (.answered accepted) rfl _ rfl rfl
  | retime pending hpending => exact hstill _ rfl rfl
  | adopt header payload received hstate hsyn hlsp hhandling hrst =>
      exact h.adopt hsyn hrst hlsp hhandling
  | establish header payload hstate hack hsyn hrst hopen hnumber hhandling =>
      exact hone .established rfl _ rfl rfl
  | advance header payload hstate hnext hdata hhandling =>
      rw [acceptData_eq]
      refine h.keep rfl ?_ rfl
      split <;> simp [Event.lsp?]
  | callbackReturned => exact hone .callbackReturned rfl _ rfl rfl

theorem synInvariant_run (app : σ) (inputs : List Input) : SynInvariant (run env app inputs) :=
  run_invariant env ⟨by simp [World.fresh], atEach_nil _⟩ (fun _ _ h hstep => h.step env hstep) inputs

section LastSyn

variable {w : World σ} {bytes : Bytes} {header : Header} {payload : Bytes} {received : Lsp}

/-- What the history says about the last SYN, by the value that is asked for. -/
theorem lastOf_of_later {β : Type} {value : Entry → Option β} {earlier later : List Entry}
    {before link : PhoneLink} {result : β}
    (hvalue : value ⟨link, .synAdopted header received⟩ = some result)
    (hlater : ∀ entry ∈ later, value entry = none) :
    lastOf value (earlier ++ ⟨before, .packet header payload⟩ ::
      ⟨link, .synAdopted header received⟩ :: later) = some result := by
  have hsplit : earlier ++ ⟨before, .packet header payload⟩ ::
      ⟨link, .synAdopted header received⟩ :: later =
        (earlier ++ [⟨before, .packet header payload⟩]) ++
          [⟨link, .synAdopted header received⟩] ++ later := by simp
  rw [hsplit, lastOf_append_of_none hlater, lastOf_append_singleton, hvalue, Option.some_or]

/-- Only a SYN has parameters, a sequence number of a SYN or a control session. -/
theorem Event.not_syn {event : Event} (h : event.lsp? = none) :
    event.syn? = none ∧ event.controlSession? = none := by
  cases event with
  | synAdopted header lsp => cases h
  | _ => exact ⟨rfl, rfl⟩

/-- The parameters, the control session and, before the link is established, the receive
state are those of the last SYN. -/
theorem LastSyn.adopted_fields (h : LastSyn bytes header payload w.trace)
    (hsyn : SynInvariant w) (hreceive : ReceiveInvariant env w)
    (hdecode : decodeLsp payload = some received) :
    w.link.adopt header received =
        { w.link with lastSequenceValid := true, lastReceivedSequence := header.sequence } ∧
      header.control &&& kControlSyn ≠ 0 ∧ header.control &&& kControlRst = 0 ∧
      (w.link.state = .negotiate → lastAccepted w.trace = some header.sequence) := by
  obtain ⟨earlier, before, link, other, later, htrace, hlater⟩ := h.adopted
  obtain ⟨_, _, payload', hbefore, hdecode', hcontrol, hrst⟩ := hsyn.handled
    (earlier ++ [⟨before, .packet header payload⟩]) ⟨link, .synAdopted header other⟩ later
    (by rw [htrace]; simp) header other rfl
  -- the packet before the adoption is the frame whose payload was adopted
  have hpayload : payload' = payload := by
    obtain ⟨-, hentry⟩ := List.append_inj' hbefore rfl
    cases hentry
    rfl
  rw [hpayload, hdecode] at hdecode'
  cases hdecode'
  -- adopting the same parameters again changes nothing
  have hlsp : w.link.lsp = clampLsp received := by
    apply hsyn.kept
    rw [htrace]
    exact lastOf_of_later rfl hlater
  refine ⟨?_, hcontrol, hrst, ?_⟩
  · unfold PhoneLink.adopt
    cases hsession : received.sessions.find? fun session => session.type == 0 with
    | none => rw [← hlsp]
    | some session =>
        have hlast : lastOf (fun entry => entry.event.controlSession?) w.trace = some session.id := by
          rw [htrace]
          apply lastOf_of_later
          · show (received.sessions.find? fun session => session.type == 0).map Session.id = _
            rw [hsession]
            rfl
          · exact fun entry hentry => (Event.not_syn (hlater entry hentry)).2
        have hkept := hreceive.session
        unfold peerControlSession at hkept
        rw [hlast, Option.getD_some] at hkept
        dsimp only
        rw [hkept, ← hlsp]
  · intro hnegotiate
    -- in Negotiate nothing was received since the SYN
    have hearly := hreceive.early (Or.inr hnegotiate)
    rw [← (hreceive.before hearly).2, handshakeSyn_of_not_established hearly, htrace]
    exact lastOf_of_later rfl fun entry hentry => (Event.not_syn (hlater entry hentry)).1

end LastSyn

/-! ## Receiving a whole frame -/

section Receive

variable {env} {now : TimePoint} {w : World σ} {bytes : Bytes} {header : Header} {payload : Bytes}

theorem processLoop_of_short {fuel : ℕ} (hshort : w.link.receiveBuffer.length < 9) :
    processLoop env now fuel w = w := by
  cases fuel with
  | zero => rfl
  | succ fuel =>
      unfold processLoop
      rw [if_pos hshort]

/-- `receive` goes straight to the frame. -/
theorem receive_eq (hframe : FrameOf bytes header payload) (hstate : w.link.state ≠ .detect)
    (hbuffer : w.link.receiveBuffer = []) :
    receive env bytes now w = processPackets env now (w.setBuffer bytes) := by
  have hlength := hframe.length
  have hmax := header.length.toNat_lt
  have hroom : overflows w.link bytes = false := by
    have hkMax : kMaxReceiveBuffer = 131072 := rfl
    unfold overflows
    rw [hbuffer, hkMax, List.length_nil]
    exact decide_eq_false (by omega)
  rw [receive_eq_processPackets env now hstate hroom, hbuffer, List.nil_append]

theorem processOnce_frame (hframe : FrameOf bytes header payload) :
    processOnce env now (w.setBuffer bytes) = processFrame env now (w.setBuffer bytes) := by
  obtain ⟨more, rfl⟩ := hframe.eq_marks
  exact processOnce_marks env now List.not_mem_nil rfl

/-- The first turn takes the frame; the loop goes on if it says so. -/
theorem receive_of_processOnce {again : Bool} {w' : World σ} (hframe : FrameOf bytes header payload)
    (hstate : w.link.state ≠ .detect) (hbuffer : w.link.receiveBuffer = [])
    (honce : processOnce env now (w.setBuffer bytes) = (again, w')) :
    receive env bytes now w =
      if again then processLoop env now (bytes.length - 1) w' else w' := by
  have hnine := hframe.nine_le
  obtain ⟨fuel, hfuel⟩ : ∃ fuel, bytes.length = fuel + 1 := ⟨bytes.length - 1, by omega⟩
  have hrest : bytes.length - 1 = fuel := by omega
  rw [receive_eq hframe hstate hbuffer, hrest]
  unfold processPackets
  rw [setBuffer_link]
  dsimp only
  rw [hfuel, processLoop, setBuffer_link]
  dsimp only
  rw [if_neg (by omega), honce]
  cases again <;> rfl

theorem receive_whole (hframe : FrameOf bytes header payload) (hstate : w.link.state ≠ .detect)
    (hbuffer : w.link.receiveBuffer = []) (hallowed : bytes.length ≤ w.link.lsp.maxLen.toNat) :
    receive env bytes now w = handlePacket env header payload now w := by
  have honce : processOnce env now (w.setBuffer bytes) =
      (true, handlePacket env header payload now w) := by
    rw [processOnce_frame hframe,
      processFrame_whole env now (w := w.setBuffer bytes) hframe (List.append_nil bytes).symm hallowed,
      ← hbuffer]
    rfl
  have hempty : (handlePacket env header payload now w).link.receiveBuffer = [] := by
    rcases (handlePacket_buffer env header payload now w).1 with h | ⟨h, -⟩
    · rw [h, hbuffer]
    · exact h
  -- one turn takes the frame, the next one finds the buffer empty
  rw [receive_of_processOnce hframe hstate hbuffer honce]
  exact processLoop_of_short (by rw [hempty]; decide)

theorem receive_exceeding (hframe : FrameOf bytes header payload) (hstate : w.link.state ≠ .detect)
    (hbuffer : w.link.receiveBuffer = []) (hexceeds : w.link.lsp.maxLen.toNat < bytes.length) :
    (receive env bytes now w).link.state = .dead := by
  have honce := processFrame_exceeding env now (w := w.setBuffer bytes) hframe
    (List.append_nil bytes).symm hexceeds
  rw [← processOnce_frame hframe] at honce
  rw [receive_of_processOnce hframe hstate hbuffer honce]
  rfl

end Receive

/-! ## The answer -/

section Answer

variable {env} {w : World σ} {header : Header} {payload : Bytes}

@[simp] theorem sentFrames_record (w : World σ) (event : Event) :
    (w.record event).sentFrames = w.sentFrames ++ event.sentFrame?.toList := by
  unfold World.sentFrames
  rw [World.record_trace, List.filterMap_append]
  cases hevent : event.sentFrame? <;> simp [hevent]

@[simp] theorem deliveries_record (w : World σ) (event : Event) :
    (w.record event).deliveries = w.deliveries ++ event.payload?.toList := by
  unfold World.deliveries
  rw [World.record_trace, List.filterMap_append]
  cases hevent : event.payload? <;> simp [hevent]

theorem length_decodeSessions (bytes : Bytes) : 3 * (decodeSessions bytes).length ≤ bytes.length := by
  fun_induction decodeSessions bytes with
  | case1 id type version rest ih =>
      rw [List.length_cons, List.length_cons, List.length_cons, List.length_cons]
      omega
  | case2 bytes => exact Nat.zero_le _

/-- The parameters of a payload are encoded in no more bytes than it had. -/
theorem length_encodeLsp_le {received : Lsp} (h : decodeLsp payload = some received) :
    (encodeLsp (clampLsp received)).length ≤ payload.length := by
  unfold decodeLsp at h
  split at h
  · cases h
  · rename_i hsize
    dsimp only at h
    split at h
    · cases h
    · cases h
      -- a session is decoded from three bytes and encoded in as many
      have hsessions := length_decodeSessions (payload.drop 10)
      rw [List.length_drop] at hsessions
      rw [length_encodeLsp]
      show 10 + 3 * (decodeSessions (payload.drop 10)).length ≤ payload.length
      omega

/-- A frame that the transport takes is offered once and changes nothing. -/
theorem writePacket_of_accepted {sequence control sessionId : UInt8} {frame : Bytes}
    (hframe : encodePacket w.link payload sequence control sessionId = frame) (hne : frame ≠ [])
    (hsend : env.send w.sentFrames frame = true) :
    writePacket env payload sequence control sessionId w =
      (w.record (.encoded frame)).record (.sent frame true) := by
  have hsent : (w.record (.encoded frame)).sentFrames = w.sentFrames := by
    simp [Event.sentFrame?]
  unfold writePacket
  dsimp only
  rw [hframe, if_neg hne, World.transmit_eq, hsent, hsend]
  rfl

/-- Neither the receive state nor the pending messages depend on a frame without the ACK bit. -/
theorem acknowledge_of_no_ack (hack : header.control &&& kControlAck = 0) (link : PhoneLink) :
    link.acknowledge header = link := by
  unfold PhoneLink.acknowledge
  rw [if_neg]
  rintro ⟨hset, -⟩
  exact hset hack

/-- Such a frame is recorded and nothing else. -/
theorem packet_of_no_ack (hack : header.control &&& kControlAck = 0) (payload : Bytes) (w : World σ) :
    (w.record (.packet header payload)).update (.acknowledge header) =
      w.record (.packet header payload) := by
  unfold World.update
  rw [World.record_link, acknowledge_of_no_ack hack]
  rfl

/-- The SYN that `send_syn` offers in answer to the peer's. -/
def answeringSyn (link : PhoneLink) : Bytes :=
  encodeFrame (kControlSyn ||| kControlAck) link.openSyn.synSequence link.lastReceivedSequence 0
    (encodeLsp link.lsp)

/-- Before the link is established `send_syn` opens a SYN, offers it and notes the time. -/
theorem sendSyn_of_accepted (now : TimePoint) (hstate : w.link.state = .negotiate)
    (hfits : (encodeLsp w.link.lsp).length ≤ 65525)
    (hsend : ∀ frame, env.send w.sentFrames frame = true) :
    sendSyn env now true w =
      (((w.update .openSyn).record (.encoded (answeringSyn w.link))).record
        (.sent (answeringSyn w.link) true)).update
          fun link => { link with nextSyn := now + milliseconds 500 } := by
  have hpayload : encodeLsp w.link.lsp ≠ [] := List.ne_nil_of_length_pos (by
    rw [length_encodeLsp]
    omega)
  have hwrite : writePacket env (encodeLsp w.link.lsp) (w.update .openSyn).link.synSequence
      (kControlSyn ||| kControlAck) 0 (w.update .openSyn) =
        ((w.update .openSyn).record (.encoded (answeringSyn w.link))).record
          (.sent (answeringSyn w.link) true) := by
    apply writePacket_of_accepted
    · rw [encodePacket_of_fits _ hfits, World.update_link, openSyn_lastReceivedSequence]
      rfl
    · apply List.ne_nil_of_length_pos
      unfold answeringSyn
      rw [length_encodeFrame _ _ _ _ hpayload]
      omega
    · exact hsend _
  unfold sendSyn
  rw [if_neg (by simp [hstate])]
  dsimp only
  rw [if_pos rfl, hwrite]

variable (hack : header.control &&& kControlAck = 0) (hrst : header.control &&& kControlRst = 0)
  (hsyn : header.control &&& kControlSyn ≠ 0)
  (hsend : ∀ frame, env.send w.sentFrames frame = true) (now : TimePoint)

include hack hrst hsyn hsend

/-- An established link answers a SYN with an ACK. -/
theorem harmless_of_normal (hstate : w.link.state = .normal)
    (haccepted : lastAccepted w.trace = some w.link.lastReceivedSequence) :
    Harmless w (handlePacket env header payload now w) := by
  set frame := encodeFrame kControlAck w.link.sentSequence w.link.lastReceivedSequence 0 []
  have hsent : (w.record (.packet header payload)).sentFrames = w.sentFrames := by
    simp [Event.sentFrame?]
  have hanswer : handlePacket env header payload now w =
      ((w.record (.packet header payload)).record (.encoded frame)).record (.sent frame true) := by
    unfold handlePacket
    dsimp only
    rw [if_neg (not_not.mpr hrst), packet_of_no_ack hack, if_pos hsyn, World.record_link,
      if_pos hstate]
    apply writePacket_of_accepted rfl
    · apply List.ne_nil_of_length_pos
      rw [encodePacket_nil, length_encodeFrame_nil]
      decide
    · rw [hsent]
      exact hsend _
  rw [hanswer]
  refine ⟨rfl, rfl, rfl, rfl, ?_, frame, ?_, ?_, ?_⟩
  · simp [Event.payload?]
  · simp [Event.sentFrame?]
  · rw [(encodeFrame_fields _ _ _ _ _).1]
    decide
  · rw [haccepted]
    rfl

/-- A link in Negotiate answers a SYN with its own, which acknowledges it. -/
theorem harmless_of_negotiate {received : Lsp} (hstate : w.link.state = .negotiate)
    (hdecode : decodeLsp payload = some received) (hfits : payload.length ≤ 65525)
    (hadopt : w.link.adopt header received =
      { w.link with lastSequenceValid := true, lastReceivedSequence := header.sequence })
    (haccepted : lastAccepted w.trace = some header.sequence) :
    Harmless w (handlePacket env header payload now w) := by
  set adopted := ((w.record (.packet header payload)).record (.synAdopted header received)).update
    (.adopt header received) with hadopted
  have hlink : adopted.link =
      { w.link with lastSequenceValid := true, lastReceivedSequence := header.sequence } := hadopt
  set opened := adopted.update .openSyn with hopened
  set frame := answeringSyn adopted.link with hframe
  have hsize : (encodeLsp adopted.link.lsp).length ≤ 65525 := by
    have hlsp : adopted.link.lsp = clampLsp received := rfl
    rw [hlsp]
    exact (length_encodeLsp_le hdecode).trans hfits
  have hsent : adopted.sentFrames = w.sentFrames := by
    show ((w.record (.packet header payload)).record (.synAdopted header received)).sentFrames = _
    simp [Event.sentFrame?]
  have hnegotiate : adopted.link.state = .negotiate := by
    rw [hlink]
    exact hstate
  -- the same parameters are adopted again, and the answer is a SYN
  have hhandled : handlePacket env header payload now w =
      ((opened.record (.encoded frame)).record (.sent frame true)).update
        fun link => { link with nextSyn := now + milliseconds 500 } := by
    unfold handlePacket
    dsimp only
    rw [if_neg (not_not.mpr hrst), packet_of_no_ack hack, if_pos hsyn, World.record_link,
      if_neg (by rw [hstate]; decide), hdecode]
    dsimp only
    rw [← hadopted]
    exact sendSyn_of_accepted now hnegotiate hsize (by rw [hsent]; exact hsend)
  have hend : (handlePacket env header payload now w).link =
      { opened.link with nextSyn := now + milliseconds 500 } := by
    rw [hhandled]
    rfl
  refine ⟨?_, ?_, ?_, ?_, ?_, frame, ?_, ?_, ?_⟩
  · rw [hend, hopened, World.update_link]
    dsimp only
    rw [openSyn_state, hlink]
  · rw [hend, hopened, World.update_link]
    dsimp only
    rw [openSyn_lsp, hlink]
  · rw [hend, hopened, World.update_link, hlink]
    unfold PhoneLink.openSyn
    dsimp only
    split <;> rfl
  · rw [hend, hopened, World.update_link]
    dsimp only
    rw [openSyn_pending, hlink]
  · have hdelivered : opened.deliveries = w.deliveries := by
      show ((w.record (.packet header payload)).record (.synAdopted header received)).deliveries = _
      simp [Event.payload?]
    rw [hhandled]
    show ((opened.record (.encoded frame)).record (.sent frame true)).deliveries = _
    simp [Event.payload?, hdelivered]
  · have hopenedSent : opened.sentFrames = w.sentFrames := hsent
    rw [hhandled]
    show ((opened.record (.encoded frame)).record (.sent frame true)).sentFrames = _
    simp [Event.sentFrame?, hopenedSent]
  · rw [hframe, answeringSyn, (encodeFrame_fields _ _ _ _ _).1]
    decide
  · rw [haccepted, hframe, answeringSyn, (encodeFrame_fields _ _ _ _ _).2.2, hlink]

end Answer

/-! ## Exactly when it is harmless -/

/-- The last SYN of the peer, received again, is acknowledged and has no other effect if
and only if it is no longer than the maximum frame length that it announces itself. -/
theorem retransmittedSyn_harmless_iff (app : σ) (inputs : List Input) {bytes : Bytes}
    {header : Header} {payload : Bytes} {received : Lsp}
    (hlast : LastSyn bytes header payload (run env app inputs).trace)
    (hack : header.control &&& kControlAck = 0) (hdecode : decodeLsp payload = some received)
    (hstate : (run env app inputs).link.state = .negotiate ∨
      (run env app inputs).link.state = .normal)
    (hbuffer : (run env app inputs).link.receiveBuffer = [])
    (hsend : ∀ frame, env.send (run env app inputs).sentFrames frame = true) (now : TimePoint) :
    Harmless (run env app inputs) (receive env bytes now (run env app inputs)) ↔
      bytes.length ≤ received.maxLen.toNat := by
  have hreceive := receiveInvariant_run env app inputs
  have hsynInvariant := synInvariant_run env app inputs
  set w := run env app inputs with hw
  obtain ⟨hadopt, hsyn, hrst, hearly⟩ := hlast.adopted_fields env hsynInvariant hreceive hdecode
  have hdetect : w.link.state ≠ .detect := by
    rcases hstate with h | h <;> simp [h]
  have hmaxLen : w.link.lsp.maxLen = received.maxLen := by
    have hlsp := congrArg PhoneLink.lsp hadopt
    exact (congrArg Lsp.maxLen hlsp).symm
  have hne : payload ≠ [] := by
    rintro rfl
    cases hdecode
  have hfits : payload.length ≤ 65525 := by
    have hsize := hlast.frame.length_payload hne
    have hlength := hlast.frame.length
    have hmax := header.length.toNat_lt
    omega
  constructor
  · intro hharmless
    by_contra hexceeds
    -- the frame exceeds what it announces itself, so the link dies
    have hdead : (receive env bytes now w).link.state = .dead :=
      receive_exceeding hlast.frame hdetect hbuffer (by rw [hmaxLen]; omega)
    rw [hharmless.state] at hdead
    rcases hstate with h | h <;> rw [h] at hdead <;> cases hdead
  · intro hallowed
    rw [receive_whole hlast.frame hdetect hbuffer (by rw [hmaxLen]; exact hallowed)]
    rcases hstate with hnegotiate | hnormal
    · exact harmless_of_negotiate hack hrst hsyn hsend now hnegotiate hdecode hfits hadopt
        (hearly hnegotiate)
    · apply harmless_of_normal hack hrst hsyn hsend now hnormal
      -- a SYN was adopted, so some sequence number is the one accepted last
      obtain ⟨earlier, before, link, other, later, htrace, -⟩ := hlast.adopted
      have hsome : (lastAccepted w.trace).isSome = true := by
        have hsplit : w.trace = (earlier ++ [⟨before, .packet header payload⟩] ++
            [⟨link, .synAdopted header other⟩]) ++ later := by
          rw [htrace]
          simp
        unfold lastAccepted
        rw [hsplit, lastOf_append, lastOf_append_singleton]
        cases lastOf (fun entry : Entry => entry.event.accepted?) later <;> rfl
      rw [hreceive.accepted] at hsome ⊢
      split at hsome
      · rename_i hvalid
        exact if_pos hvalid
      · cases hsome

/-- The last SYN is known from the events alone. -/
theorem lastSyn_of_events {trace : List Entry} {bytes : Bytes} {header : Header} {payload : Bytes}
    (earlier later : List Event) (received : Lsp) (hframe : FrameOf bytes header payload)
    (hevents : trace.map Entry.event =
      earlier ++ .packet header payload :: .synAdopted header received :: later)
    (hlater : ∀ event ∈ later, event.lsp? = none) : LastSyn bytes header payload trace := by
  refine ⟨hframe, ?_⟩
  obtain ⟨first, second, rfl, -, hsecond⟩ := List.map_eq_append_iff.mp hevents
  obtain ⟨⟨before, _⟩, third, rfl, rfl, hthird⟩ := List.map_eq_cons_iff.mp hsecond
  obtain ⟨⟨link, _⟩, rest, rfl, rfl, rfl⟩ := List.map_eq_cons_iff.mp hthird
  refine ⟨first, before, link, received, rest, rfl, ?_⟩
  intro entry hentry
  exact hlater entry.event (List.mem_map_of_mem hentry)

/-- A SYN that announces this maximum frame length. -/
def synPayload (maxLen : UInt16) : Bytes := encodeLsp { maxLen := maxLen }

def synFrame (maxLen : UInt16) : Bytes := encodeFrame kControlSyn 3 0 0 (synPayload maxLen)

theorem frameOf_synFrame (maxLen : UInt16) :
    FrameOf (synFrame maxLen) (headerOf kControlSyn 3 0 0 (synPayload maxLen)) (synPayload maxLen) :=
  frameOf_encodeFrame _ _ _ _ (show (19 : ℕ) ≤ 65525 by omega)

/-- A started link that received such a SYN. -/
def startThenSyn (maxLen : UInt16) : List Input := [.start 0, .receive (synFrame maxLen) 0]

theorem retransmittedSyn_harmless_full :
    Harmless (run (Env.accepting none) () (startThenSyn 65535))
      (receive (Env.accepting none) (synFrame 65535) 0
        (run (Env.accepting none) () (startThenSyn 65535))) := by
  have hlast : LastSyn (synFrame 65535) (headerOf kControlSyn 3 0 0 (synPayload 65535))
      (synPayload 65535) (run (Env.accepting none) () (startThenSyn 65535)).trace :=
    lastSyn_of_events
      (((run (Env.accepting none) () (startThenSyn 65535)).trace.map Entry.event).take 3)
      (((run (Env.accepting none) () (startThenSyn 65535)).trace.map Entry.event).drop 5)
      { maxLen := 65535 } (frameOf_synFrame 65535) (by decide +kernel) (by decide +kernel)
  have hdecode : decodeLsp (synPayload 65535) = some { maxLen := 65535 } := by decide +kernel
  exact (retransmittedSyn_harmless_iff (Env.accepting none) () (startThenSyn 65535) hlast
    (by decide +kernel) hdecode (Or.inl (by decide +kernel)) (by decide +kernel)
    (fun _ => rfl) 0).mpr (by decide +kernel)

/-- A SYN of 29 bytes that announces a maximum of 9 kills the link when it comes again. -/
theorem retransmittedSyn_kills :
    LastSyn (synFrame 9) (headerOf kControlSyn 3 0 0 (synPayload 9)) (synPayload 9)
        (run (Env.accepting none) () (startThenSyn 9)).trace ∧
      (headerOf kControlSyn 3 0 0 (synPayload 9)).control &&& kControlAck = 0 ∧
      (decodeLsp (synPayload 9)).isSome = true ∧
      (run (Env.accepting none) () (startThenSyn 9)).link.state = .negotiate ∧
      (run (Env.accepting none) () (startThenSyn 9)).link.receiveBuffer = [] ∧
      ¬ Harmless (run (Env.accepting none) () (startThenSyn 9))
        (receive (Env.accepting none) (synFrame 9) 0 (run (Env.accepting none) () (startThenSyn 9))) := by
  refine ⟨?_, by decide +kernel, by decide +kernel, by decide +kernel, by decide +kernel, ?_⟩
  · exact lastSyn_of_events
      (((run (Env.accepting none) () (startThenSyn 9)).trace.map Entry.event).take 3)
      (((run (Env.accepting none) () (startThenSyn 9)).trace.map Entry.event).drop 5)
      { maxLen := 9 } (frameOf_synFrame 9) (by decide +kernel) (by decide +kernel)
  · intro hharmless
    have hstate := hharmless.state
    exact absurd hstate (by decide +kernel)

end Iap2
end Aa2acp
