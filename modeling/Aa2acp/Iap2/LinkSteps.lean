import Aa2acp.Iap2.PhoneLink
import Mathlib.Logic.Relation

/-!
# What a single step of the link can do

Every function of the link is a sequence of a few elementary steps.  `Step` lists
them together with the guards under which the code takes them, and `run_steps`
shows that every run is such a sequence.  An invariant of the link is then proved
once per elementary step and holds in every state a run passes through, including
those inside a `receive` call and below a re-entrant `send_control`.
-/

namespace Aa2acp
namespace Iap2

variable {σ : Type}

namespace World

@[simp] theorem record_link (w : World σ) (event : Event) : (w.record event).link = w.link := rfl
@[simp] theorem record_app (w : World σ) (event : Event) : (w.record event).app = w.app := rfl
@[simp] theorem record_trace (w : World σ) (event : Event) :
    (w.record event).trace = w.trace ++ [⟨w.link, event⟩] := rfl
@[simp] theorem update_link (w : World σ) (f : PhoneLink → PhoneLink) :
    (w.update f).link = f w.link := rfl
@[simp] theorem update_app (w : World σ) (f : PhoneLink → PhoneLink) :
    (w.update f).app = w.app := rfl
@[simp] theorem update_trace (w : World σ) (f : PhoneLink → PhoneLink) :
    (w.update f).trace = w.trace := rfl

theorem transmit_eq (env : Env σ) (frame : Bytes) (w : World σ) :
    w.transmit env frame =
      (env.send w.sentFrames frame, w.record (.sent frame (env.send w.sentFrames frame))) := rfl

end World

/-! ## Refusals inside the callback -/

/-- Whether `control_data_` has been called and has not returned yet. -/
def insideCallback (trace : List Entry) : Bool :=
  trace.foldl
    (fun inside entry =>
      match entry.event with
      | .delivered _ => true
      | .callbackReturned => false
      | _ => inside)
    false

/-- The transport refused a frame of a `send_control` call that `control_data_`
made. -/
def RefusedInCallback (trace : List Entry) : Prop :=
  ∃ before link frame after,
    trace = before ++ ⟨link, .sent frame false⟩ :: after ∧ insideCallback before = true

theorem insideCallback_append (trace : List Entry) (entry : Entry) :
    insideCallback (trace ++ [entry]) =
      match entry.event with
      | .delivered _ => true
      | .callbackReturned => false
      | _ => insideCallback trace := by
  unfold insideCallback
  rw [List.foldl_append]
  cases entry with
  | mk link event => cases event <;> rfl

/-- A refusal inside the callback stays in the history. -/
theorem RefusedInCallback.append {trace : List Entry} (h : RefusedInCallback trace)
    (more : List Entry) : RefusedInCallback (trace ++ more) := by
  obtain ⟨before, link, frame, after, rfl, hinside⟩ := h
  exact ⟨before, link, frame, after ++ more, by simp, hinside⟩

/-- A refusal is new only when the new event is one. -/
theorem refusedInCallback_append_iff {trace : List Entry} {entry : Entry} :
    RefusedInCallback (trace ++ [entry]) ↔
      RefusedInCallback trace ∨
        (insideCallback trace = true ∧ ∃ frame, entry.event = .sent frame false) := by
  constructor
  · rintro ⟨before, link, frame, after, htrace, hinside⟩
    rcases List.eq_nil_or_concat after with rfl | ⟨init, last, rfl⟩
    · obtain ⟨rfl, hlast⟩ := List.append_inj' htrace rfl
      cases hlast
      exact Or.inr ⟨hinside, frame, rfl⟩
    · left
      have hsplit : trace ++ [entry] = (before ++ ⟨link, .sent frame false⟩ :: init) ++ [last] := by
        rw [htrace]
        simp
      obtain ⟨rfl, -⟩ := List.append_inj' hsplit rfl
      exact ⟨before, link, frame, init, rfl, hinside⟩
  · rintro (h | ⟨hinside, frame, hevent⟩)
    · exact h.append _
    · obtain ⟨link, event⟩ := entry
      dsimp only at hevent
      subst hevent
      exact ⟨trace, link, frame, [], rfl, hinside⟩

def Event.isRefusal : Event → Bool
  | .sent _ accepted => !accepted
  | _ => false

/-- The refusal sits at some index of the history, below an open callback. -/
theorem refusedInCallback_iff_index {entries : List Entry} :
    RefusedInCallback entries ↔
      ∃ index ∈ List.range entries.length,
        insideCallback (entries.take index) = true ∧
          ∃ entry ∈ entries[index]?, entry.event.isRefusal = true := by
  constructor
  · rintro ⟨before, link, frame, after, rfl, hinside⟩
    refine ⟨before.length, by simp, by simpa using hinside, ?_⟩
    exact ⟨⟨link, .sent frame false⟩, by simp, rfl⟩
  · rintro ⟨index, hindex, hinside, ⟨link, event⟩, hentry, hrefusal⟩
    rw [Option.mem_def, List.getElem?_eq_some_iff] at hentry
    obtain ⟨hlt, hentry⟩ := hentry
    cases event with
    | sent frame accepted =>
        cases accepted with
        | true => cases hrefusal
        | false =>
            refine ⟨entries.take index, link, frame, entries.drop (index + 1), ?_, hinside⟩
            rw [← hentry, ← List.drop_eq_getElem_cons hlt, List.take_append_drop]
    | _ => cases hrefusal

instance : DecidablePred RefusedInCallback := fun _ =>
  decidable_of_iff _ refusedInCallback_iff_index.symm

/-! ## Elementary steps -/

/-- A frame that `send_` may be offered outside `send_control`: the marker, the
frame just encoded, or, on a link that is not dead, that of a pending message. -/
def Offered (w : World σ) (frame : Bytes) : Prop :=
  frame = kMarker ∨ (∃ earlier, w.trace = earlier ++ [⟨w.link, .encoded frame⟩]) ∨
    w.link.state ≠ .dead ∧ ∃ message ∈ w.link.pending, message.frame = frame

/-- What of a pending message a retransmission leaves alone. -/
def PendingMessage.identity (message : PendingMessage) : UInt8 × Bytes :=
  (message.sequence, message.frame)

/-- `handle_packet` has just been called with this frame: nothing but the cumulative
acknowledgement happened since. -/
def Handling (header : Header) (payload : Bytes) (w : World σ) : Prop :=
  ∃ earlier before, w.trace = earlier ++ [⟨before, .packet header payload⟩] ∧
    w.link = before.acknowledge header

/-- A data frame whose sequence number is the next one: the receive state
advances, and `control_data_` is called for the peer's control session. -/
def acceptData (env : Env σ) (header : Header) (payload : Bytes) (w : World σ) : World σ :=
  let w := (w.record (.advanced header payload)).update (.advance header.sequence)
  if env.controlData.isSome ∧ header.sessionId = w.link.peerControlSessionId then
    w.record (.delivered payload)
  else w

inductive Step (env : Env σ) : World σ → World σ → Prop
  /-- Buffer, timers and application state. -/
  | bookkeeping (w : World σ) (buffer : Bytes) (nextMarker nextSyn : TimePoint) (app : σ) :
      Step env w
        { w with
          link := { w.link with
            receiveBuffer := buffer, nextMarker := nextMarker, nextSyn := nextSyn }
          app := app }
  | die (w : World σ) (buffer : Bytes) :
      Step env w (w.update fun link => { link.die with receiveBuffer := buffer })
  | abandon (w : World σ) : Step env w (w.update .abandon)
  /-- A frame with the reset bit is handled. -/
  | reset (w : World σ) (header : Header) (payload : Bytes)
      (hrst : header.control &&& kControlRst ≠ 0) :
      Step env w ((w.record (.packet header payload)).update .reset)
  /-- Any other frame is handled, up to the cumulative acknowledgement. -/
  | packet (w : World σ) (header : Header) (payload : Bytes)
      (hrst : header.control &&& kControlRst = 0) :
      Step env w ((w.record (.packet header payload)).update (.acknowledge header))
  /-- The own SYN gets its sequence number. -/
  | openSyn (w : World σ) (hstate : w.link.state = .detect ∨ w.link.state = .negotiate) :
      Step env w (w.update fun link => PhoneLink.openSyn { link with state := .negotiate })
  | encodeSyn (w : World σ) (control : UInt8)
      (hstate : w.link.state = .negotiate) (hopen : w.link.synOutstanding = true)
      (hcontrol : control = kControlSyn ∨
        control = kControlSyn ||| kControlAck ∧ w.link.lastSequenceValid = true) :
      Step env w
        (w.record (.encoded
          (encodePacket w.link (encodeLsp w.link.lsp) w.link.synSequence control 0)))
  | encodeAck (w : World σ)
      (hstate : w.link.state = .normal ∨ w.link.lastSequenceValid = true) :
      Step env w
        (w.record (.encoded (encodePacket w.link [] w.link.sentSequence kControlAck 0)))
  | transmit (w : World σ) (frame : Bytes) (hoffered : Offered w frame)
      (halive : w.link.state ≠ .dead ∨ RefusedInCallback w.trace) :
      Step env w (w.transmit env frame).2
  | queue (w : World σ) (payload : Bytes) (h : refusesControl w.link payload = false) :
      Step env w (queueControl env payload w).2
  | answer (w : World σ) (accepted : Bool) (h : accepted = true → w.link.state = .normal) :
      Step env w (w.record (.answered accepted))
  /-- A pending message gets a new deadline and one more retry. -/
  | retime (w : World σ) (pending : List PendingMessage)
      (h : pending.map PendingMessage.identity = w.link.pending.map PendingMessage.identity) :
      Step env w (w.update fun link => { link with pending := pending })
  | adopt (w : World σ) (header : Header) (payload : Bytes) (received : Lsp)
      (hstate : w.link.state ≠ .normal) (hsyn : header.control &&& kControlSyn ≠ 0)
      (hlsp : decodeLsp payload = some received) (hhandling : Handling header payload w)
      (hrst : header.control &&& kControlRst = 0) :
      Step env w ((w.record (.synAdopted header received)).update (.adopt header received))
  | establish (w : World σ) (header : Header) (payload : Bytes)
      (hstate : w.link.state = .negotiate)
      (hack : header.control &&& kControlAck ≠ 0) (hsyn : header.control &&& kControlSyn = 0)
      (hrst : header.control &&& kControlRst = 0)
      (hopen : w.link.synOutstanding = true)
      (hnumber : acknowledgedBy w.link.synSequence header.acknowledgement = true)
      (hhandling : Handling header payload w) :
      Step env w ((w.record .established).update .establish)
  | advance (w : World σ) (header : Header) (payload : Bytes)
      (hstate : w.link.state = .normal)
      (hnext : w.link.lastSequenceValid = true →
        header.sequence = w.link.lastReceivedSequence + 1)
      (hdata : header.control &&& ~~~kControlAck = 0 ∧ payload ≠ [])
      (hhandling : Handling header payload w) :
      Step env w (acceptData env header payload w)
  | callbackReturned (w : World σ) : Step env w (w.record .callbackReturned)

/-- Any number of elementary steps. -/
abbrev Steps (env : Env σ) : World σ → World σ → Prop := Relation.ReflTransGen (Step env)

/-- An invariant of every elementary step is one of every sequence of them. -/
theorem Steps.invariant {env : Env σ} {I : World σ → Prop}
    (hstep : ∀ w w', I w → Step env w w' → I w') {w w' : World σ}
    (hsteps : Steps env w w') (h : I w) : I w' := by
  induction hsteps with
  | refl => exact h
  | tail _ hlast ih => exact hstep _ _ ih hlast

theorem Steps.single {env : Env σ} {w w' : World σ} (h : Step env w w') : Steps env w w' :=
  Relation.ReflTransGen.single h

/-! ## Sending -/

variable (env : Env σ)

theorem steps_setBuffer (w : World σ) (buffer : Bytes) : Steps env w (w.setBuffer buffer) :=
  .single (.bookkeeping w buffer w.link.nextMarker w.link.nextSyn w.app)

/-- Offering the frame just encoded, and dying when it is refused. -/
theorem steps_writePacket {payload : Bytes} {sequence control sessionId : UInt8} {w : World σ}
    (hencode : Step env w
      (w.record (.encoded (encodePacket w.link payload sequence control sessionId))))
    (halive : w.link.state ≠ .dead ∨ RefusedInCallback w.trace) :
    Steps env w (writePacket env payload sequence control sessionId w) := by
  unfold writePacket
  set packet := encodePacket w.link payload sequence control sessionId
  refine Relation.ReflTransGen.head hencode ?_
  dsimp only
  split
  · exact .single (.die _ _)
  · have hoffered : Offered (w.record (.encoded packet)) packet :=
      Or.inr (Or.inl ⟨w.trace, rfl⟩)
    have halive' : (w.record (.encoded packet)).link.state ≠ .dead ∨
        RefusedInCallback (w.record (.encoded packet)).trace :=
      halive.imp id fun h => h.append _
    refine Relation.ReflTransGen.head (Step.transmit _ packet hoffered halive') ?_
    split
    · exact .refl
    · exact .single (.die _ _)

@[simp] theorem openSyn_state (link : PhoneLink) : link.openSyn.state = link.state := by
  unfold PhoneLink.openSyn
  split <;> rfl

@[simp] theorem openSyn_synOutstanding (link : PhoneLink) :
    link.openSyn.synOutstanding = true := by
  unfold PhoneLink.openSyn
  split
  · assumption
  · rfl

@[simp] theorem openSyn_lsp (link : PhoneLink) : link.openSyn.lsp = link.lsp := by
  unfold PhoneLink.openSyn
  split <;> rfl

@[simp] theorem openSyn_lastSequenceValid (link : PhoneLink) :
    link.openSyn.lastSequenceValid = link.lastSequenceValid := by
  unfold PhoneLink.openSyn
  split <;> rfl

@[simp] theorem openSyn_pending (link : PhoneLink) : link.openSyn.pending = link.pending := by
  unfold PhoneLink.openSyn
  split <;> rfl

@[simp] theorem openSyn_lastReceivedSequence (link : PhoneLink) :
    link.openSyn.lastReceivedSequence = link.lastReceivedSequence := by
  unfold PhoneLink.openSyn
  split <;> rfl

/-- A refused frame costs the link its life and nothing else. -/
theorem writePacket_link (payload : Bytes) (sequence control sessionId : UInt8) (w : World σ) :
    (writePacket env payload sequence control sessionId w).link = w.link ∨
      (writePacket env payload sequence control sessionId w).link = w.link.die := by
  unfold writePacket
  dsimp only
  split
  · exact Or.inr rfl
  · split
    · exact Or.inl rfl
    · exact Or.inr rfl

theorem sendSyn_pending (now : TimePoint) (acknowledgePeer : Bool) (w : World σ) :
    (sendSyn env now acknowledgePeer w).link.pending = w.link.pending := by
  unfold sendSyn
  split
  · rfl
  · dsimp only
    set opened := w.update .openSyn with hopened
    have hpending : opened.link.pending = w.link.pending := openSyn_pending w.link
    rw [World.update_link, ← hpending]
    rcases writePacket_link env (encodeLsp w.link.lsp) opened.link.synSequence
      (kControlSyn ||| if acknowledgePeer then kControlAck else 0) 0 opened with h | h <;>
      simp only [h, PhoneLink.die]

theorem steps_sendMarker (w : World σ) (halive : w.link.state ≠ .dead) :
    Steps env w (sendMarker env w).2 := by
  unfold sendMarker
  refine Relation.ReflTransGen.head
    (Step.transmit w kMarker (Or.inl rfl) (Or.inl halive)) ?_
  dsimp only
  split
  · exact .refl
  · exact .single (.die _ _)

/-- `send_syn` of a link that has just entered Negotiate or is in it. -/
theorem steps_sendSyn_of_negotiate (now : TimePoint) {w : World σ} {acknowledgePeer : Bool}
    (hstate : w.link.state = .detect ∨ w.link.state = .negotiate)
    (hvalid : acknowledgePeer = true → w.link.lastSequenceValid = true) :
    Steps env w (sendSyn env now acknowledgePeer
      (w.update fun link => { link with state := .negotiate })) := by
  unfold sendSyn
  rw [if_neg (by simp)]
  refine Relation.ReflTransGen.head (Step.openSyn w hstate) ?_
  set opened := w.update fun link => PhoneLink.openSyn { link with state := .negotiate } with hopened
  have hcontrol : (kControlSyn ||| if acknowledgePeer then kControlAck else 0) = kControlSyn ∨
      (kControlSyn ||| if acknowledgePeer then kControlAck else 0) = kControlSyn ||| kControlAck ∧
        opened.link.lastSequenceValid = true := by
    cases acknowledgePeer with
    | false => exact Or.inl (by decide)
    | true => exact Or.inr ⟨rfl, by simpa [hopened] using hvalid rfl⟩
  have hencode : Step env opened _ :=
    .encodeSyn opened _ (by simp [hopened]) (by simp [hopened]) hcontrol
  have hwrite := steps_writePacket env hencode (Or.inl (by simp [hopened]))
  have hlsp : opened.link.lsp = w.link.lsp := by simp [hopened]
  rw [hlsp] at hwrite
  exact hwrite.trans (.single (.bookkeeping _ _ _ _ _))

theorem steps_sendSyn (now : TimePoint) {w : World σ} {acknowledgePeer : Bool}
    (hvalid : acknowledgePeer = true → w.link.lastSequenceValid = true) :
    Steps env w (sendSyn env now acknowledgePeer w) := by
  by_cases hstate : w.link.state = .negotiate
  · have hsame : (w.update fun link => { link with state := .negotiate }) = w := by
      obtain ⟨link, app, trace⟩ := w
      cases link
      dsimp only at hstate
      subst hstate
      rfl
    have h := steps_sendSyn_of_negotiate env now (Or.inr hstate) hvalid
    rwa [hsame] at h
  · unfold sendSyn
    rw [if_pos hstate]

theorem steps_sendAck {w : World σ}
    (hstate : w.link.state = .normal ∨
      (w.link.lastSequenceValid = true ∧
        (w.link.state ≠ .dead ∨ RefusedInCallback w.trace))) :
    Steps env w (sendAck env w) := by
  unfold sendAck
  rcases hstate with hnormal | ⟨hvalid, halive⟩
  · exact steps_writePacket env (.encodeAck w (Or.inl hnormal)) (Or.inl (by simp [hnormal]))
  · exact steps_writePacket env (.encodeAck w (Or.inr hvalid)) halive

/-- What `send_control` does once its checks passed: it takes the next sequence
number and the message is either queued or kills the link. -/
theorem queueControl_cases (env : Env σ) (payload : Bytes) (w : World σ) :
    (∃ frame deadline,
      frame = encodePacket w.link payload (w.link.sentSequence + 1) kControlAck
        w.link.peerControlSessionId ∧
      queueControl env payload w =
        (true,
          { w with
            link := { w.link with
              sentSequence := w.link.sentSequence + 1
              pending := w.link.pending ++ [⟨w.link.sentSequence + 1, frame, deadline, 0⟩] }
            trace := w.trace ++
              [⟨{ w.link with sentSequence := w.link.sentSequence + 1 }, .encoded frame⟩,
                ⟨{ w.link with sentSequence := w.link.sentSequence + 1 }, .sent frame true⟩] })) ∨
    (∃ frame sent,
      frame = encodePacket w.link payload (w.link.sentSequence + 1) kControlAck
        w.link.peerControlSessionId ∧
      (frame = [] ∧ sent = [] ∨ frame ≠ [] ∧
        sent = [⟨{ w.link with sentSequence := w.link.sentSequence + 1 }, .sent frame false⟩]) ∧
      queueControl env payload w =
        (false,
          { w with
            link := { w.link with
              sentSequence := w.link.sentSequence + 1, state := .dead, pending := [] }
            trace := w.trace ++
              ⟨{ w.link with sentSequence := w.link.sentSequence + 1 }, .encoded frame⟩ ::
                sent })) := by
  have hframe : encodePacket { w.link with sentSequence := w.link.sentSequence + 1 } payload
      (w.link.sentSequence + 1) kControlAck w.link.peerControlSessionId =
      encodePacket w.link payload (w.link.sentSequence + 1) kControlAck
        w.link.peerControlSessionId := rfl
  set frame := encodePacket w.link payload (w.link.sentSequence + 1) kControlAck
    w.link.peerControlSessionId with hdef
  unfold queueControl
  simp only [World.update_link, hframe, World.transmit_eq]
  split
  -- a payload that cannot be encoded is treated as one that was refused
  · rename_i hempty
    right
    exact ⟨frame, [], rfl, Or.inl ⟨hempty, rfl⟩, by
      simp [World.record, World.update, PhoneLink.abandon]⟩
  · rename_i hne
    split
    · rename_i haccepted
      left
      exact ⟨frame, _, rfl, by rw [haccepted]; simp [World.record, World.update]; rfl⟩
    · rename_i hrefused
      right
      refine ⟨frame, _, rfl, Or.inr ⟨hne, rfl⟩, ?_⟩
      simp only [Bool.not_eq_true] at hrefused
      rw [hrefused]
      simp [World.record, World.update, PhoneLink.abandon]

theorem steps_sendControl (payload : Bytes) (w : World σ) :
    Steps env w (sendControl env payload w).2 := by
  unfold sendControl
  cases hrefuses : refusesControl w.link payload with
  | true => exact .single (.answer w false (by simp))
  | false =>
      simp only [Bool.false_eq_true, if_false]
      refine Relation.ReflTransGen.head (Step.queue w payload hrefuses) ?_
      refine .single (.answer _ _ ?_)
      have hnormal : w.link.state = .normal := by
        have h := hrefuses
        simp only [refusesControl, decide_eq_false_iff_not, not_or, ne_eq, not_not] at h
        exact h.1
      rcases queueControl_cases env payload w with ⟨frame, deadline, -, h⟩ | ⟨frame, sent, -, -, h⟩
      · intro _
        rw [h]
        exact hnormal
      · intro haccepted
        rw [h] at haccepted
        cases haccepted

/-! ## Frames and their sizes -/

theorem encodePacket_of_fits (link : PhoneLink) {payload : Bytes}
    (hfits : payload.length ≤ 65525) (sequence control sessionId : UInt8) :
    encodePacket link payload sequence control sessionId =
      encodeFrame control sequence link.lastReceivedSequence sessionId payload := by
  unfold encodePacket
  rw [if_neg (by omega)]

@[simp] theorem encodePacket_nil (link : PhoneLink) (sequence control sessionId : UInt8) :
    encodePacket link [] sequence control sessionId =
      encodeFrame control sequence link.lastReceivedSequence sessionId [] := rfl

/-- The checks that `send_control` makes on a payload it goes on to send. -/
theorem refusesControl_eq_false {link : PhoneLink} {payload : Bytes}
    (h : refusesControl link payload = false) :
    link.state = .normal ∧ payload ≠ [] ∧ 10 ≤ link.lsp.maxLen.toNat ∧
      payload.length ≤ link.lsp.maxLen.toNat - 10 ∧
      link.pending.length < link.lsp.maxOutgoing.toNat := by
  simp only [refusesControl, decide_eq_false_iff_not, not_or, ne_eq, not_not, not_lt,
    ge_iff_le, not_le, gt_iff_lt] at h
  obtain ⟨hstate, hne, hmin, hlen, hwindow⟩ := h
  exact ⟨hstate, hne, UInt16.le_iff_toNat_le.mp (UInt16.not_lt.mp hmin), hlen, hwindow⟩

theorem length_encodePacket (link : PhoneLink) {payload : Bytes} (hne : payload ≠ [])
    (hfits : payload.length ≤ 65525) (sequence control sessionId : UInt8) :
    (encodePacket link payload sequence control sessionId).length = payload.length + 10 := by
  rw [encodePacket_of_fits link hfits, length_encodeFrame _ _ _ _ hne]

/-- What `send_control` goes on to send always fits a frame. -/
theorem refusesControl_fits {link : PhoneLink} {payload : Bytes}
    (h : refusesControl link payload = false) : payload.length ≤ 65525 := by
  obtain ⟨-, -, -, hlen, -⟩ := refusesControl_eq_false h
  have hmax := link.lsp.maxLen.toNat_lt
  omega

/-! ## Delivery -/

/-- The state of a link below `control_data_`. -/
structure Calling (w : World σ) : Prop where
  inside : insideCallback w.trace = true
  valid : w.link.lastSequenceValid = true
  alive : w.link.state = .normal ∨ w.link.state = .dead ∧ RefusedInCallback w.trace

/-- A `send_control` call of the callback leaves the link established, or dead
because the transport refused the frame. -/
theorem Calling.sendControl {w : World σ} (h : Calling w) (payload : Bytes) :
    Calling (sendControl env payload w).2 := by
  unfold Iap2.sendControl
  have hanswer (w : World σ) (accepted : Bool) (h : Calling w) :
      Calling (w.record (.answered accepted)) := by
    refine ⟨?_, h.valid, h.alive.imp id fun hdead => ⟨hdead.1, hdead.2.append _⟩⟩
    rw [World.record_trace, insideCallback_append]
    exact h.inside
  cases hrefuses : refusesControl w.link payload with
  | true => exact hanswer w false h
  | false =>
      simp only [Bool.false_eq_true, if_false]
      apply hanswer
      obtain ⟨hnormal, hne, -, -, -⟩ := refusesControl_eq_false hrefuses
      have hlength := length_encodePacket w.link hne (refusesControl_fits hrefuses)
        (w.link.sentSequence + 1) kControlAck w.link.peerControlSessionId
      set sending : PhoneLink := { w.link with sentSequence := w.link.sentSequence + 1 }
      have hencoded (frame : Bytes) :
          insideCallback (w.trace ++ [⟨sending, .encoded frame⟩]) = true := by
        rw [insideCallback_append]
        exact h.inside
      rcases queueControl_cases env payload w with
        ⟨frame, deadline, -, hqueue⟩ | ⟨frame, sent, hframe, hsent, hqueue⟩
      · rw [hqueue]
        refine ⟨?_, h.valid, Or.inl hnormal⟩
        change insideCallback (w.trace ++ ([⟨sending, .encoded frame⟩] ++
          [⟨sending, .sent frame true⟩])) = true
        rw [← List.append_assoc, insideCallback_append]
        exact hencoded frame
      · rcases hsent with ⟨hempty, -⟩ | ⟨-, rfl⟩
        · rw [hframe] at hempty
          rw [hempty] at hlength
          simp at hlength
        · rw [hqueue]
          refine ⟨?_, h.valid, Or.inr ⟨rfl, ?_⟩⟩
          · change insideCallback (w.trace ++ ([⟨sending, .encoded frame⟩] ++
              [⟨sending, .sent frame false⟩])) = true
            rw [← List.append_assoc, insideCallback_append]
            exact hencoded frame
          · exact ⟨w.trace ++ [⟨sending, .encoded frame⟩], sending, frame, [], by simp [sending],
              hencoded frame⟩

/-- Running the callback is a sequence of `send_control` calls. -/
theorem steps_runCallback (computation : Sends σ) (w : World σ) :
    Steps env w (computation.run (sendControl env) w).2 :=
  by
  have hstep (payload : Bytes) (w' : World σ) (h : Steps env w w') :
      Steps env w (sendControl env payload w').2 :=
    h.trans (steps_sendControl env payload w')
  exact Interaction.run_invariant hstep computation .refl

theorem steps_deliver (callback : Bytes → σ → Sends σ) (payload : Bytes) (w : World σ) :
    Steps env (w.record (.delivered payload)) (deliver env callback payload w) := by
  unfold deliver
  refine (steps_runCallback env (callback payload w.app) (w.record (.delivered payload))).trans ?_
  set called := (callback payload w.app).run (sendControl env) (w.record (.delivered payload))
  have happ : Step env called.2 { called.2 with app := called.1 } :=
    .bookkeeping called.2 called.2.link.receiveBuffer called.2.link.nextMarker
      called.2.link.nextSyn called.1
  exact .head happ (.single (.callbackReturned _))

/-- After the callback of a data frame returned, the link is established, or dead
because the transport refused a frame of the callback. -/
theorem deliver_alive (callback : Bytes → σ → Sends σ) (payload : Bytes) {w : World σ}
    (hstate : w.link.state = .normal) (hvalid : w.link.lastSequenceValid = true) :
    (deliver env callback payload w).link.lastSequenceValid = true ∧
      ((deliver env callback payload w).link.state ≠ .dead ∨
        RefusedInCallback (deliver env callback payload w).trace) := by
  have hstart : Calling (w.record (.delivered payload)) := by
    refine ⟨?_, hvalid, Or.inl hstate⟩
    rw [World.record_trace, insideCallback_append]
  have hstep (payload : Bytes) (w : World σ) (h : Calling w) :
      Calling (sendControl env payload w).2 := h.sendControl env payload
  have hend := Interaction.run_invariant hstep (callback payload w.app) hstart
  refine ⟨hend.valid, ?_⟩
  rcases hend.alive with hnormal | ⟨-, hrefused⟩
  · left
    change ((callback payload w.app).run (sendControl env)
      (w.record (.delivered payload))).2.link.state ≠ .dead
    rw [hnormal]
    decide
  · exact Or.inr (hrefused.append _)

/-! ## Receiving -/

/-- Neither too old nor behind a gap nor a repetition: the sequence number is the
next one. -/
theorem next_of_not_dropped {sequence last : UInt8} (hgap : ¬ sequence - last > 1)
    (hdup : sequence ≠ last) : sequence = last + 1 := by
  grind

theorem steps_handleData {header : Header} {payload : Bytes} {w : World σ}
    (hdata : header.control &&& ~~~kControlAck = 0 ∧ payload ≠ [])
    (hhandling : Handling header payload w) :
    Steps env w (handleData env header payload w) := by
  unfold handleData
  dsimp only
  split
  · exact .refl
  rename_i hstate
  rw [ne_eq, not_not] at hstate
  split
  · exact steps_sendAck env (Or.inl hstate)
  split
  · exact steps_sendAck env (Or.inl hstate)
  rename_i hgap
  split
  · exact steps_sendAck env (Or.inl hstate)
  rename_i hdup
  have hnext : w.link.lastSequenceValid = true →
      header.sequence = w.link.lastReceivedSequence + 1 := fun hvalid =>
    next_of_not_dropped (fun h => hgap ⟨hvalid, h⟩) (fun h => hdup ⟨hvalid, h⟩)
  have hadvance : Step env w (acceptData env header payload w) :=
    .advance w header payload hstate hnext hdata hhandling
  unfold acceptData at hadvance
  set w' := (w.record (.advanced header payload)).update (.advance header.sequence) with hw'
  have hstate' : w'.link.state = .normal := by simpa [hw', PhoneLink.advance] using hstate
  have hvalid' : w'.link.lastSequenceValid = true := by simp [hw', PhoneLink.advance]
  cases hcallback : env.controlData with
  | none =>
      rw [if_neg (by simp [hcallback])] at hadvance
      exact .head hadvance (steps_sendAck env (Or.inl hstate'))
  | some callback =>
      dsimp only
      split
      · rename_i hsession
        rw [if_pos ⟨by simp [hcallback], hsession⟩] at hadvance
        have halive := deliver_alive env callback payload hstate' hvalid'
        exact .head hadvance ((steps_deliver env callback payload w').trans (steps_sendAck env (Or.inr halive)))
      · rename_i hsession
        rw [if_neg (fun h => hsession h.2)] at hadvance
        exact .head hadvance (steps_sendAck env (Or.inl hstate'))

@[simp] theorem acknowledge_state (header : Header) (link : PhoneLink) :
    (link.acknowledge header).state = link.state := by
  unfold PhoneLink.acknowledge
  split <;> rfl

theorem Handling.mem {header : Header} {payload : Bytes} {w : World σ}
    (h : Handling header payload w) :
    ∃ before, ⟨before, .packet header payload⟩ ∈ w.trace ∧
      w.link = before.acknowledge header := by
  obtain ⟨earlier, before, htrace, hlink⟩ := h
  exact ⟨before, by simp [htrace], hlink⟩

/-- The cumulative acknowledgement touches `pending_` only. -/
theorem acknowledge_fields (header : Header) (link : PhoneLink) :
    ∃ pending, link.acknowledge header = { link with pending := pending } := by
  unfold PhoneLink.acknowledge
  by_cases h : header.control &&& kControlAck ≠ 0 ∧ link.pending ≠ []
  · rw [if_pos h]
    exact ⟨_, rfl⟩
  · rw [if_neg h]
    exact ⟨link.pending, rfl⟩

theorem steps_handlePacket (header : Header) (payload : Bytes) (now : TimePoint) (w : World σ) :
    Steps env w (handlePacket env header payload now w) := by
  unfold handlePacket
  dsimp only
  split
  · rename_i hrst
    exact .single (.reset w header payload hrst)
  rename_i hrst
  rw [ne_eq, not_not] at hrst
  refine .head (Step.packet w header payload hrst) ?_
  set w' := (w.record (.packet header payload)).update (.acknowledge header) with hw'
  have hhandling : Handling header payload w' := ⟨w.trace, w.link, rfl, rfl⟩
  split
  · rename_i hsyn
    split
    · rename_i hnormal
      exact steps_sendAck env (Or.inl hnormal)
    · rename_i hstate
      split
      · rename_i received hlsp
        refine .head (Step.adopt w' header payload received hstate hsyn hlsp hhandling hrst) ?_
        exact steps_sendSyn env now (fun _ => rfl)
      · exact .refl
  · rename_i hsyn
    rw [ne_eq, not_not] at hsyn
    split
    · rename_i hack
      split
      · rename_i hours
        exact .single (.establish w' header payload hack.2 hack.1 hsyn hrst hours.1 hours.2
          hhandling)
      · exact .refl
    · split
      · rename_i hdata
        exact steps_handleData env hdata hhandling
      · exact .refl

theorem steps_processFrame (now : TimePoint) (w : World σ) :
    Steps env w (processFrame env now w).2 := by
  unfold processFrame
  dsimp only
  split
  · exact .refl
  split
  · exact steps_setBuffer env _ _
  split
  · exact .single (.die _ _)
  split
  · exact .refl
  split
  · exact steps_setBuffer env _ _
  · exact Relation.ReflTransGen.trans (steps_setBuffer env _ _) (steps_handlePacket env _ _ _ _)

theorem steps_processOnce (now : TimePoint) (w : World σ) :
    Steps env w (processOnce env now w).2 := by
  unfold processOnce
  dsimp only
  split
  · exact steps_setBuffer env _ _
  split
  · exact steps_setBuffer env _ _
  · exact Relation.ReflTransGen.trans (steps_setBuffer env _ _) (steps_processFrame env _ _)

theorem steps_processLoop (now : TimePoint) (fuel : Nat) (w : World σ) :
    Steps env w (processLoop env now fuel w) := by
  induction fuel generalizing w with
  | zero => exact .refl
  | succ fuel ih =>
      unfold processLoop
      split
      · exact .refl
      · have honce := steps_processOnce env now w
        split
        · rename_i w' heq
          rw [heq] at honce
          exact honce.trans (ih w')
        · rename_i w' heq
          rw [heq] at honce
          exact honce

theorem steps_scanBuffer (now : TimePoint) (w : World σ) :
    Steps env w (scanBuffer env now w) := by
  unfold scanBuffer
  dsimp only
  split
  · rename_i hdetect
    split
    · exact steps_setBuffer env _ _
    · rename_i index hindex
      set found := w.setBuffer (w.link.receiveBuffer.drop (index + kMarker.length)) with hfound
      have hsyn : Steps env found (sendSyn env now false
          (found.update fun link => { link with state := .negotiate })) :=
        steps_sendSyn_of_negotiate env now (Or.inl hdetect) (by simp)
      exact (steps_setBuffer env w _).trans (hsyn.trans (steps_processLoop env _ _ _))
  · exact steps_processLoop env _ _ _

theorem steps_receive (bytes : Bytes) (now : TimePoint) (w : World σ) :
    Steps env w (receive env bytes now w) := by
  unfold receive
  split
  · exact .single (.die _ _)
  · exact (steps_setBuffer env _ _).trans (steps_scanBuffer env _ _)

/-! ## Driving -/

theorem sendMarker_link_of_true (w : World σ) (h : (sendMarker env w).1 = true) :
    (sendMarker env w).2.link = w.link := by
  unfold sendMarker at h ⊢
  dsimp only at h ⊢
  split at h
  · rename_i haccepted
    rw [if_pos haccepted]
    rfl
  · cases h

theorem steps_start (now : TimePoint) (w : World σ) : Steps env w (start env now w) := by
  unfold start
  split
  · exact .refl
  rename_i hdetect
  rw [ne_eq, not_not] at hdetect
  have hmarker := steps_sendMarker env w (by simp [hdetect])
  split
  · rename_i w' heq
    rw [heq] at hmarker
    exact hmarker
  · rename_i w' heq
    rw [heq] at hmarker
    have hlink := sendMarker_link_of_true env w (by rw [heq])
    rw [heq] at hlink
    refine hmarker.trans (steps_sendSyn_of_negotiate env now (Or.inl ?_) (by simp))
    rw [hlink]
    exact hdetect

/-- The retransmission loop, over what is left of `pending_`. -/
theorem steps_retransmit (now : TimePoint) (visited rest : List PendingMessage) (w : World σ)
    (hpending : w.link.pending = visited ++ rest) (halive : w.link.state ≠ .dead) :
    Steps env w (retransmit env now visited rest w) := by
  induction rest generalizing visited w with
  | nil => exact .refl
  | cons message rest ih =>
      unfold retransmit
      split
      · exact ih (visited ++ [message]) w (by simp [hpending]) halive
      split
      · exact .single (.abandon w)
      · dsimp only
        set again : PendingMessage :=
          { message with
            retries := message.retries + 1
            deadline := now + milliseconds w.link.lsp.retransmissionTimeout.toNat }
        have hretime : Step env w
            (w.update fun link => { link with pending := visited ++ again :: rest }) :=
          .retime w _ (by simp [hpending, again, PendingMessage.identity])
        refine .head hretime ?_
        set w' := w.update fun link => { link with pending := visited ++ again :: rest } with hw'
        have hoffered : Offered w' again.frame :=
          Or.inr (Or.inr ⟨halive, again, by simp [hw'], rfl⟩)
        refine .head (Step.transmit w' again.frame hoffered (Or.inl halive)) ?_
        split
        · exact ih (visited ++ [again]) _ (by simp [hw', World.transmit_eq]) halive
        · exact .single (.abandon _)

theorem steps_tickMarker (now : TimePoint) (w : World σ) :
    Steps env w (tickMarker env now w).2 := by
  unfold tickMarker
  split
  · rename_i hmarker
    have hsteps := steps_sendMarker env w (by simp [hmarker.1])
    split
    · rename_i w' heq
      rw [heq] at hsteps
      exact hsteps
    · rename_i w' heq
      rw [heq] at hsteps
      exact hsteps.trans (.single (.bookkeeping w' _ _ _ _))
  · exact .refl

/-- When `tick` goes on after its marker part, only the marker timer moved. -/
theorem tickMarker_link_of_true (now : TimePoint) (w : World σ)
    (h : (tickMarker env now w).1 = true) :
    (tickMarker env now w).2.link.state = w.link.state ∧
      (tickMarker env now w).2.link.pending = w.link.pending := by
  have hmarker := sendMarker_link_of_true env w
  unfold tickMarker at h ⊢
  split at h
  · rename_i hdue
    rw [if_pos hdue]
    split at h
    · cases h
    · rename_i w' heq
      rw [heq] at hmarker
      have hlink : w'.link = w.link := hmarker rfl
      dsimp only
      rw [World.update_link, hlink]
      exact ⟨rfl, rfl⟩
  · rename_i hdue
    rw [if_neg hdue]
    exact ⟨rfl, rfl⟩

/-- Messages wait for an acknowledgement only once the link was established. -/
def PendingEstablished (w : World σ) : Prop :=
  w.link.state = .detect ∨ w.link.state = .negotiate → w.link.pending = []

/-- Accepting a data frame moves the receive state and adds the acceptance and, for
the control session, the delivery to the history. -/
theorem acceptData_eq (header : Header) (payload : Bytes) (w : World σ) :
    acceptData env header payload w =
      { w with
        link := w.link.advance header.sequence
        trace := w.trace ++ ⟨w.link, .advanced header payload⟩ ::
          if env.controlData.isSome ∧ header.sessionId = w.link.peerControlSessionId then
            [⟨w.link.advance header.sequence, .delivered payload⟩]
          else [] } := by
  unfold acceptData
  simp only [World.update_link, World.record_link, PhoneLink.advance]
  by_cases hsession :
      env.controlData.isSome = true ∧ header.sessionId = w.link.peerControlSessionId
  · simp only [if_pos hsession]
    simp [World.record, World.update, PhoneLink.advance]
    exact hsession
  · simp only [if_neg hsession]
    simp [World.record, World.update, PhoneLink.advance]
    exact fun hinstalled hid => hsession ⟨hinstalled, hid⟩

@[simp] theorem acceptData_state (header : Header) (payload : Bytes) (w : World σ) :
    (acceptData env header payload w).link.state = w.link.state := by
  rw [acceptData_eq]
  rfl

@[simp] theorem acceptData_pending (header : Header) (payload : Bytes) (w : World σ) :
    (acceptData env header payload w).link.pending = w.link.pending := by
  rw [acceptData_eq]
  rfl

/-- Steps only add to the history. -/
theorem Step.grows {w w' : World σ} (hstep : Step env w w') :
    ∃ added, w'.trace = w.trace ++ added := by
  cases hstep with
  | queue payload hrefuses =>
      rcases queueControl_cases env payload w with
        ⟨frame, deadline, -, hqueue⟩ | ⟨frame, sent, -, -, hqueue⟩
      · exact ⟨_, by rw [hqueue]⟩
      · exact ⟨_, by rw [hqueue]⟩
  | advance header payload hstate hnext hdata hhandling =>
      exact ⟨_, by rw [acceptData_eq]⟩
  | bookkeeping buffer nextMarker nextSyn app => exact ⟨[], (List.append_nil _).symm⟩
  | die buffer => exact ⟨[], (List.append_nil _).symm⟩
  | abandon => exact ⟨[], (List.append_nil _).symm⟩
  | openSyn hstate => exact ⟨[], (List.append_nil _).symm⟩
  | retime pending hpending => exact ⟨[], (List.append_nil _).symm⟩
  | _ => exact ⟨_, rfl⟩

/-- `send_control` leaves a link that passed its checks established or dead. -/
theorem queueControl_state {payload : Bytes} {w : World σ}
    (h : refusesControl w.link payload = false) :
    (queueControl env payload w).2.link.state = .normal ∨
      (queueControl env payload w).2.link.state = .dead := by
  obtain ⟨hnormal, -⟩ := refusesControl_eq_false h
  rcases queueControl_cases env payload w with ⟨frame, deadline, -, hq⟩ | ⟨frame, sent, -, -, hq⟩
  · rw [hq]
    exact Or.inl hnormal
  · rw [hq]
    exact Or.inr rfl

theorem PendingEstablished.step {w w' : World σ} (h : PendingEstablished w)
    (hstep : Step env w w') : PendingEstablished w' := by
  intro hstate
  cases hstep with
  | bookkeeping buffer nextMarker nextSyn app => exact h hstate
  | die buffer => simp [PhoneLink.die] at hstate
  | abandon => rfl
  | reset header payload hrst => rfl
  | packet header payload hrst =>
      simp only [World.update_link, World.record_link, acknowledge_state] at hstate ⊢
      unfold PhoneLink.acknowledge
      rw [if_neg (fun hack => hack.2 (h hstate))]
      exact h hstate
  | openSyn hbefore =>
      rw [World.update_link, openSyn_pending]
      exact h hbefore
  | encodeSyn control hbefore hopen hcontrol => exact h hstate
  | encodeAck hbefore => exact h hstate
  | transmit frame hoffered halive => exact h hstate
  | queue payload hrefuses =>
      rcases queueControl_state env hrefuses with hq | hq <;> simp [hq] at hstate
  | answer accepted haccepted => exact h hstate
  | retime pending hpending =>
      simp only [World.update_link] at hstate ⊢
      rw [h hstate] at hpending
      exact List.map_eq_nil_iff.mp hpending
  | adopt header payload received hbefore hsyn hlsp hhandling => exact h hstate
  | establish header payload hbefore =>
      simp [PhoneLink.establish] at hstate
  | advance header payload hbefore hnext hdata hhandling =>
      rw [acceptData_state, hbefore] at hstate
      simp at hstate
  | callbackReturned => exact h hstate

theorem steps_tick (now : TimePoint) {w : World σ} (h : PendingEstablished w) :
    Steps env w (tick env now w) := by
  unfold tick
  split
  · exact .refl
  rename_i halive
  have hmarker := steps_tickMarker env now w
  have hlink := tickMarker_link_of_true env now w
  split
  · rename_i w' heq
    rw [heq] at hmarker
    exact hmarker
  · rename_i w' heq
    rw [heq] at hmarker hlink
    obtain ⟨hstate, hpending⟩ := hlink rfl
    dsimp only at hstate hpending ⊢
    refine hmarker.trans ?_
    split
    · -- in Negotiate nothing is pending, so the loop after `send_syn` is empty
      rename_i hdue
      have hnone : w'.link.pending = [] := by
        rw [hpending]
        exact h (Or.inr (by rw [← hstate]; exact hdue.1))
      have hafter : (sendSyn env now false w').link.pending = [] := by
        rw [sendSyn_pending]
        exact hnone
      rw [hafter]
      exact steps_sendSyn env now (by simp)
    · exact steps_retransmit env now [] _ w' (by simp) (by rw [hstate]; exact halive)

theorem steps_apply (input : Input) {w : World σ} (h : PendingEstablished w) :
    Steps env w (apply env w input) := by
  cases input with
  | start now => exact steps_start env now w
  | receive bytes now => exact steps_receive env bytes now w
  | tick now => exact steps_tick env now h
  | sendControl payload => exact steps_sendControl env payload w

/-- A new link has nothing pending. -/
theorem pendingEstablished_fresh (app : σ) : PendingEstablished (World.fresh app) :=
  fun _ => rfl

theorem PendingEstablished.steps {w w' : World σ} (h : PendingEstablished w)
    (hsteps : Steps env w w') : PendingEstablished w' :=
  hsteps.invariant (fun _ _ hinv hstep => hinv.step env hstep) h

/-- Calls of the owner are a sequence of elementary steps. -/
theorem steps_foldl_apply (inputs : List Input) {w : World σ} (h : PendingEstablished w) :
    Steps env w (inputs.foldl (apply env) w) := by
  induction inputs generalizing w with
  | nil => exact .refl
  | cons input inputs ih =>
      have hfirst := steps_apply env input h
      exact hfirst.trans (ih (h.steps env hfirst))

/-- Every run is a sequence of elementary steps. -/
theorem steps_run (app : σ) (inputs : List Input) :
    Steps env (World.fresh app) (run env app inputs) :=
  steps_foldl_apply env inputs (pendingEstablished_fresh app)

/-- What a new link satisfies and every elementary step preserves holds after
every run. -/
theorem run_invariant {I : World σ → Prop} {app : σ} (hfresh : I (World.fresh app))
    (hstep : ∀ w w', I w → Step env w w' → I w') (inputs : List Input) :
    I (run env app inputs) :=
  (steps_run env app inputs).invariant hstep hfresh

end Iap2
end Aa2acp
