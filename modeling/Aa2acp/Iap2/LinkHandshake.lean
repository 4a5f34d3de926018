import Aa2acp.Iap2.LinkSteps

/-!
# Handshake safety

The handshake consists of two halves: the peer's SYN brings the link parameters, and
the peer's ACK of the own SYN makes the link Normal.  `handle_packet` tests nothing
about the first half when it takes the second, so an ACK that comes first leaves an
established link with the parameters it was constructed with.  Under the condition
that the halves come in order the established link has the peer's parameters.
-/

namespace Aa2acp
namespace Iap2

variable {σ : Type} (env : Env σ)

/-! ## What a link in Normal should look back on -/

/-- A SYN frame of the peer whose parameters, after the clamps, are `lsp`. -/
def Adopted (lsp : Lsp) (trace : List Entry) : Prop :=
  ∃ link header payload received, ⟨link, .packet header payload⟩ ∈ trace ∧
    header.control &&& kControlSyn ≠ 0 ∧ decodeLsp payload = some received ∧
      lsp = clampLsp received

/-- A frame of the peer with this sequence number. -/
def FromPeer (sequence : UInt8) (trace : List Entry) : Prop :=
  ∃ link header payload, ⟨link, .packet header payload⟩ ∈ trace ∧ header.sequence = sequence

/-- An ACK frame of the peer that acknowledges the own SYN while it is outstanding. -/
def SynAcknowledged (syn : UInt8) (trace : List Entry) : Prop :=
  ∃ link header payload, ⟨link, .packet header payload⟩ ∈ trace ∧
    header.control &&& kControlAck ≠ 0 ∧ link.synOutstanding = true ∧
      link.synSequence = syn ∧ acknowledgedBy syn header.acknowledgement = true

/-- The limits that the clamps establish. -/
structure Clamped (lsp : Lsp) : Prop where
  retransmissionTimeout : 100 ≤ lsp.retransmissionTimeout
  maxOutgoing : 1 ≤ lsp.maxOutgoing ∧ lsp.maxOutgoing ≤ 128
  maxRetransmissions : 1 ≤ lsp.maxRetransmissions
  ackTimeout : 50 ≤ lsp.ackTimeout
  maxLen : 9 ≤ lsp.maxLen

structure HandshakeSafe (w : World σ) : Prop where
  adopted : w.link.state = .normal → Adopted w.link.lsp w.trace
  clamped : w.link.state = .normal → Clamped w.link.lsp
  fromPeer : w.link.state = .normal → FromPeer w.link.lastReceivedSequence w.trace
  acknowledged : w.link.state = .normal → SynAcknowledged w.link.synSequence w.trace

/-- A frame on which `handle_packet` makes the link Normal. -/
def CompletesHandshake (link : PhoneLink) (header : Header) : Prop :=
  header.control &&& kControlRst = 0 ∧ header.control &&& kControlSyn = 0 ∧
    header.control &&& kControlAck ≠ 0 ∧ link.state = .negotiate ∧
      link.synOutstanding = true ∧
        acknowledgedBy link.synSequence header.acknowledgement = true

instance (link : PhoneLink) (header : Header) : Decidable (CompletesHandshake link header) := by
  unfold CompletesHandshake
  infer_instance

/-- A frame that acknowledges the own SYN in Negotiate finds the peer's SYN adopted. -/
def Event.inHandshakeOrder (link : PhoneLink) : Event → Bool
  | .packet header _ => decide (CompletesHandshake link header → link.lastSequenceValid = true)
  | _ => true

/-- The peer's ACK of the own SYN never comes before the peer's SYN. -/
def PeerSynFirst (trace : List Entry) : Prop :=
  ∀ entry ∈ trace, entry.event.inHandshakeOrder entry.link = true

instance : DecidablePred PeerSynFirst := fun _ => List.decidableBAll _ _

/-! ## The clamps -/

theorem le_max_u16 (a b : UInt16) : b ≤ max a b := by
  show b ≤ if a ≤ b then b else a
  by_cases h : a ≤ b
  · rw [if_pos h]
    exact UInt16.le_refl b
  · rw [if_neg h]
    exact UInt16.le_of_lt (UInt16.not_le.mp h)

theorem le_max_u8 (a b : UInt8) : b ≤ max a b := by
  show b ≤ if a ≤ b then b else a
  by_cases h : a ≤ b
  · rw [if_pos h]
    exact UInt8.le_refl b
  · rw [if_neg h]
    exact UInt8.le_of_lt (UInt8.not_le.mp h)

theorem clamped_clampLsp {received : Lsp} (h : 9 ≤ received.maxLen) :
    Clamped (clampLsp received) where
  retransmissionTimeout := le_max_u16 _ _
  maxOutgoing :=
    ⟨Std.le_min_iff.mpr ⟨le_max_u8 _ _, by decide⟩, Std.min_le_right⟩
  maxRetransmissions := le_max_u8 _ _
  ackTimeout := le_max_u16 _ _
  maxLen := h

theorem Adopted.clamped {lsp : Lsp} {trace : List Entry} (h : Adopted lsp trace) :
    Clamped lsp := by
  obtain ⟨link, header, payload, received, -, -, hdecode, rfl⟩ := h
  exact clamped_clampLsp (decodeLsp_maxLen hdecode)

/-! ## Growth of the history -/

theorem Adopted.append {lsp : Lsp} {trace : List Entry} (h : Adopted lsp trace)
    (added : List Entry) : Adopted lsp (trace ++ added) := by
  obtain ⟨link, header, payload, received, hmem, hrest⟩ := h
  exact ⟨link, header, payload, received, List.mem_append_left _ hmem, hrest⟩

theorem FromPeer.append {sequence : UInt8} {trace : List Entry} (h : FromPeer sequence trace)
    (added : List Entry) : FromPeer sequence (trace ++ added) := by
  obtain ⟨link, header, payload, hmem, hsequence⟩ := h
  exact ⟨link, header, payload, List.mem_append_left _ hmem, hsequence⟩

theorem SynAcknowledged.append {syn : UInt8} {trace : List Entry} (h : SynAcknowledged syn trace)
    (added : List Entry) : SynAcknowledged syn (trace ++ added) := by
  obtain ⟨link, header, payload, hmem, hrest⟩ := h
  exact ⟨link, header, payload, List.mem_append_left _ hmem, hrest⟩

theorem PeerSynFirst.of_append {trace added : List Entry} (h : PeerSynFirst (trace ++ added)) :
    PeerSynFirst trace :=
  fun entry hentry => h entry (List.mem_append_left _ hentry)

/-! ## The invariant -/

/-- While the receive state is valid it is the peer's, and so are the parameters;
in Normal it is valid and the own SYN was acknowledged. -/
structure HandshakeInvariant (w : World σ) : Prop where
  adopted : w.link.lastSequenceValid = true → Adopted w.link.lsp w.trace
  fromPeer : w.link.lastSequenceValid = true → FromPeer w.link.lastReceivedSequence w.trace
  valid : w.link.state = .normal → w.link.lastSequenceValid = true
  acknowledged : w.link.state = .normal → SynAcknowledged w.link.synSequence w.trace

/-- A step that leaves the receive state, the parameters and the own SYN alone and
does not establish the link. -/
theorem HandshakeInvariant.keep {w w' : World σ} (h : HandshakeInvariant w)
    (htrace : ∃ added, w'.trace = w.trace ++ added)
    (hlsp : w'.link.lsp = w.link.lsp)
    (hvalid : w'.link.lastSequenceValid = w.link.lastSequenceValid)
    (hlast : w'.link.lastReceivedSequence = w.link.lastReceivedSequence)
    (hstate : w'.link.state = .normal →
      w.link.state = .normal ∧ w'.link.synSequence = w.link.synSequence) :
    HandshakeInvariant w' := by
  obtain ⟨added, htrace⟩ := htrace
  refine ⟨?_, ?_, ?_, ?_⟩
  · intro hv
    rw [hvalid] at hv
    rw [htrace, hlsp]
    exact (h.adopted hv).append added
  · intro hv
    rw [hvalid] at hv
    rw [htrace, hlast]
    exact (h.fromPeer hv).append added
  · intro hnormal
    rw [hvalid]
    exact h.valid (hstate hnormal).1
  · intro hnormal
    obtain ⟨hbefore, hsyn⟩ := hstate hnormal
    rw [htrace, hsyn]
    exact (h.acknowledged hbefore).append added

theorem HandshakeInvariant.of_adopt {w : World σ} {header : Header}
    {payload : Bytes} {received : Lsp} (hstate : w.link.state ≠ .normal)
    (hsyn : header.control &&& kControlSyn ≠ 0) (hlsp : decodeLsp payload = some received)
    (hhandling : Handling header payload w) :
    HandshakeInvariant
      ((w.record (.synAdopted header received)).update (.adopt header received)) := by
  obtain ⟨before, hmem, -⟩ := hhandling.mem
  have hmem' : (⟨before, .packet header payload⟩ : Entry) ∈
      w.trace ++ [⟨w.link, .synAdopted header received⟩] := List.mem_append_left _ hmem
  refine ⟨?_, ?_, ?_, ?_⟩
  · intro _
    exact ⟨before, header, payload, received, hmem', hsyn, hlsp, rfl⟩
  · intro _
    exact ⟨before, header, payload, hmem', rfl⟩
  · intro _
    rfl
  · intro hnormal
    exact absurd hnormal hstate

theorem HandshakeInvariant.establish {w : World σ} (h : HandshakeInvariant w)
    (hfirst : PeerSynFirst w.trace) {header : Header} {payload : Bytes}
    (hstate : w.link.state = .negotiate) (hack : header.control &&& kControlAck ≠ 0)
    (hsyn : header.control &&& kControlSyn = 0) (hrst : header.control &&& kControlRst = 0)
    (hopen : w.link.synOutstanding = true)
    (hnumber : acknowledgedBy w.link.synSequence header.acknowledgement = true)
    (hhandling : Handling header payload w) :
    HandshakeInvariant ((w.record .established).update .establish) := by
  obtain ⟨before, hmem, hlink⟩ := hhandling.mem
  obtain ⟨pending, hpending⟩ := acknowledge_fields header before
  rw [hpending] at hlink
  have horder := hfirst _ hmem
  rw [hlink] at hstate hopen hnumber
  have hvalid : before.lastSequenceValid = true := by
    simp only [Event.inHandshakeOrder, decide_eq_true_eq] at horder
    exact horder ⟨hrst, hsyn, hack, hstate, hopen, hnumber⟩
  have hvalid' : w.link.lastSequenceValid = true := by rw [hlink]; exact hvalid
  refine ⟨?_, ?_, ?_, ?_⟩
  · intro _
    exact (h.adopted hvalid').append _
  · intro _
    exact (h.fromPeer hvalid').append _
  · intro _
    exact hvalid'
  · intro _
    refine ⟨before, header, payload, List.mem_append_left _ hmem, hack, hopen, ?_, ?_⟩
    · show before.synSequence = w.link.synSequence
      rw [hlink]
    · show acknowledgedBy w.link.synSequence header.acknowledgement = true
      rw [hlink]
      exact hnumber

theorem HandshakeInvariant.advance {w : World σ} (h : HandshakeInvariant w) {header : Header}
    {payload : Bytes} (hstate : w.link.state = .normal) (hhandling : Handling header payload w) :
    HandshakeInvariant (acceptData env header payload w) := by
  obtain ⟨before, hmem, -⟩ := hhandling.mem
  rw [acceptData_eq]
  refine ⟨?_, ?_, ?_, ?_⟩
  · intro _
    exact (h.adopted (h.valid hstate)).append _
  · intro _
    exact ⟨before, header, payload, List.mem_append_left _ hmem, rfl⟩
  · intro _
    rfl
  · intro _
    exact (h.acknowledged hstate).append _

/-! ## Runs -/

theorem HandshakeInvariant.step {w w' : World σ}
    (hbefore : PeerSynFirst w.trace → HandshakeInvariant w) (hstep : Step env w w')
    (hfirst' : PeerSynFirst w'.trace) : HandshakeInvariant w' := by
  have hgrows := hstep.grows
  have hfirst : PeerSynFirst w.trace := by
    obtain ⟨added, htrace⟩ := hgrows
    rw [htrace] at hfirst'
    exact hfirst'.of_append
  have h := hbefore hfirst
  cases hstep with
  | bookkeeping buffer nextMarker nextSyn app =>
      exact h.keep hgrows rfl rfl rfl fun hnormal => ⟨hnormal, rfl⟩
  | die buffer => exact h.keep hgrows rfl rfl rfl fun hnormal => by cases hnormal
  | abandon => exact h.keep hgrows rfl rfl rfl fun hnormal => by cases hnormal
  | reset header payload hrst => exact h.keep hgrows rfl rfl rfl fun hnormal => by cases hnormal
  | packet header payload hrst =>
      -- an acknowledgement touches the pending messages only
      obtain ⟨pending, hpending⟩ := acknowledge_fields header w.link
      have hlink : ((w.record (.packet header payload)).update (.acknowledge header)).link =
          { w.link with pending := pending } := hpending
      refine h.keep hgrows ?_ ?_ ?_ ?_
      · rw [hlink]
      · rw [hlink]
      · rw [hlink]
      · intro hnormal
        rw [hlink] at hnormal ⊢
        exact ⟨hnormal, rfl⟩
  | openSyn hstate =>
      -- Negotiate is entered again; the last SYN stays the last
      refine h.keep hgrows ?_ ?_ ?_ ?_
      · exact openSyn_lsp _
      · exact openSyn_lastSequenceValid _
      · exact openSyn_lastReceivedSequence _
      · intro hnormal
        rw [World.update_link, openSyn_state] at hnormal
        cases hnormal
  | encodeSyn control hstate hopen hcontrol =>
      exact h.keep hgrows rfl rfl rfl fun hnormal => ⟨hnormal, rfl⟩
  | encodeAck hstate => exact h.keep hgrows rfl rfl rfl fun hnormal => ⟨hnormal, rfl⟩
  | transmit frame hoffered halive =>
      exact h.keep hgrows rfl rfl rfl fun hnormal => ⟨hnormal, rfl⟩
  | queue payload hrefuses =>
      rcases queueControl_cases env payload w with
        ⟨frame, deadline, -, hqueue⟩ | ⟨frame, sent, -, -, hqueue⟩
      · rw [hqueue] at hgrows ⊢
        exact h.keep hgrows rfl rfl rfl fun hnormal => ⟨hnormal, rfl⟩
      · rw [hqueue] at hgrows ⊢
        exact h.keep hgrows rfl rfl rfl fun hnormal => by cases hnormal
  | answer accepted haccepted => exact h.keep hgrows rfl rfl rfl fun hnormal => ⟨hnormal, rfl⟩
  | retime pending hpending => exact h.keep hgrows rfl rfl rfl fun hnormal => ⟨hnormal, rfl⟩
  | adopt header payload received hstate hsyn hlsp hhandling =>
      exact HandshakeInvariant.of_adopt hstate hsyn hlsp hhandling
  | establish header payload hstate hack hsyn hrst hopen hnumber hhandling =>
      exact h.establish hfirst hstate hack hsyn hrst hopen hnumber hhandling
  | advance header payload hstate hnext hdata hhandling =>
      exact h.advance env hstate hhandling
  | callbackReturned => exact h.keep hgrows rfl rfl rfl fun hnormal => ⟨hnormal, rfl⟩

theorem handshakeInvariant_run (app : σ) (inputs : List Input)
    (hfirst : PeerSynFirst (run env app inputs).trace) :
    HandshakeInvariant (run env app inputs) := by
  have hfresh : PeerSynFirst (World.fresh app).trace → HandshakeInvariant (World.fresh app) :=
    fun _ => ⟨by simp [World.fresh], by simp [World.fresh], by simp [World.fresh],
      by simp [World.fresh]⟩
  exact run_invariant env (I := fun w => PeerSynFirst w.trace → HandshakeInvariant w) hfresh
    (fun _ _ h hstep hfirst' => HandshakeInvariant.step env h hstep hfirst') inputs hfirst

/-- When the peer's SYN comes before its ACK of the own SYN, an established link has
the peer's parameters, clamped, and a receive state of the peer. -/
theorem handshakeSafe_of_synFirst (app : σ) (inputs : List Input)
    (hfirst : PeerSynFirst (run env app inputs).trace) :
    HandshakeSafe (run env app inputs) := by
  have h := handshakeInvariant_run env app inputs hfirst
  refine ⟨?_, ?_, ?_, h.acknowledged⟩
  · exact fun hnormal => h.adopted (h.valid hnormal)
  · exact fun hnormal => (h.adopted (h.valid hnormal)).clamped
  · exact fun hnormal => h.fromPeer (h.valid hnormal)

theorem handshakeSafe_handshakeThenData :
    (run (Env.accepting (some replyOnce)) () handshakeThenData).link.state = .normal ∧
      HandshakeSafe (run (Env.accepting (some replyOnce)) () handshakeThenData) :=
  ⟨by decide +kernel, handshakeSafe_of_synFirst _ () handshakeThenData (by decide +kernel)⟩

/-- A started link whose peer acknowledges the own SYN, number 100, and sends no SYN. -/
def ackWithoutSyn : List Input :=
  [.start 0, .receive (encodeFrame kControlAck 3 100 0 []) 0]

/-- The link is Normal then, with the parameters it was constructed with. -/
theorem normal_without_peer_syn :
    ¬ HandshakeSafe (run (Env.accepting (some replyOnce)) () ackWithoutSyn) := by
  intro h
  have hclamped := h.clamped (by decide +kernel)
  exact absurd hclamped.retransmissionTimeout (by decide +kernel)

/-! ## The frame that breaks the handshake -/

/-- Before a SYN of the peer is adopted the link has its default parameters. -/
def DefaultUntilValid (w : World σ) : Prop :=
  w.link.lastSequenceValid = false → w.link.lsp = {}

theorem defaultUntilValid_run (app : σ) (inputs : List Input) :
    DefaultUntilValid (run env app inputs) := by
  refine run_invariant env (fun _ => rfl) ?_ inputs
  intro w w' h hstep hvalid
  cases hstep with
  | packet header payload hrst =>
      obtain ⟨pending, hpending⟩ := acknowledge_fields header w.link
      rw [World.update_link, World.record_link, hpending] at hvalid ⊢
      exact h hvalid
  | openSyn hstate =>
      rw [World.update_link, openSyn_lastSequenceValid] at hvalid
      rw [World.update_link, openSyn_lsp]
      exact h hvalid
  | queue payload hrefuses =>
      rcases queueControl_cases env payload w with
        ⟨frame, deadline, -, hqueue⟩ | ⟨frame, sent, -, -, hqueue⟩
      · rw [hqueue] at hvalid ⊢
        exact h hvalid
      · rw [hqueue] at hvalid ⊢
        exact h hvalid
  | adopt header payload received hstate hsyn hlsp hhandling => cases hvalid
  | advance header payload hstate hnext hdata hhandling =>
      rw [acceptData_eq] at hvalid
      cases hvalid
  | _ => exact h hvalid

/-- After any run, a frame that acknowledges the own SYN before a SYN of the peer was
adopted makes the link Normal with a retransmission timeout below the clamp. -/
theorem not_handshakeSafe_of_ack_first (app : σ) (inputs : List Input) {header : Header}
    (payload : Bytes) (now : TimePoint)
    (hack : CompletesHandshake (run env app inputs).link header)
    (hvalid : (run env app inputs).link.lastSequenceValid = false) :
    (handlePacket env header payload now (run env app inputs)).link.state = .normal ∧
      ¬ HandshakeSafe (handlePacket env header payload now (run env app inputs)) := by
  set w := run env app inputs with hw
  have hlsp : w.link.lsp = {} := defaultUntilValid_run env app inputs hvalid
  obtain ⟨hrst, hsyn, hflag, hstate, hopen, hnumber⟩ := hack
  obtain ⟨pending, hpending⟩ := acknowledge_fields header w.link
  have hlink : (handlePacket env header payload now w).link =
      PhoneLink.establish { w.link with pending := pending } := by
    unfold handlePacket
    dsimp only
    rw [if_neg (by simp [hrst]), if_neg (by simp [hsyn])]
    simp only [World.update_link, World.record_link, hpending]
    rw [if_pos ⟨hflag, hstate⟩, if_pos ⟨hopen, hnumber⟩]
    simp only [World.update_link, World.record_link, hpending]
  have hnormal : (handlePacket env header payload now w).link.state = .normal := by
    rw [hlink]
    rfl
  refine ⟨hnormal, fun hsafe => ?_⟩
  have hclamped := (hsafe.clamped hnormal).retransmissionTimeout
  have hdefault : (handlePacket env header payload now w).link.lsp = {} := by
    rw [hlink]
    exact hlsp
  rw [hdefault] at hclamped
  exact absurd hclamped (by decide)

end Iap2
end Aa2acp
