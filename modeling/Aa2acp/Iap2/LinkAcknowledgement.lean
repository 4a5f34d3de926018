import Aa2acp.Iap2.LinkWindow

/-!
# What an acknowledgement outside the window removes

`acknowledged_by` looks at the distance between two numbers only, so an
acknowledgement that names no pending message may still remove some: every message
whose number is not one to 128 past the acknowledged one goes, also when that number
was never sent.  This file follows the pending messages through `handle_packet` and
states exactly when a frame of an established link removes none.
-/

namespace Aa2acp
namespace Iap2

open SerialNumber

variable {σ : Type} (env : Env σ)

/-- A message whose number lies one to 128 past the acknowledged one, modulo 256. -/
def AheadOf (acknowledgement : UInt8) (message : PendingMessage) : Prop :=
  1 ≤ (message.sequence - acknowledgement).toNat ∧
    (message.sequence - acknowledgement).toNat ≤ 128

/-- The messages ahead of the acknowledged number are those that stay. -/
theorem aheadOf_iff (acknowledgement : UInt8) (message : PendingMessage) :
    AheadOf acknowledgement message ↔
      acknowledgedBy message.sequence acknowledgement = false := by
  set distance := message.sequence - acknowledgement with hdistance
  have hsum : message.sequence = acknowledgement + number (value distance) := by
    rw [number_value, hdistance]
    abel
  have hlt : value distance < 256 := distance.toNat_lt
  rw [acknowledgedBy_eq_reached]
  constructor
  · rintro ⟨hpos, hle⟩
    rw [hsum]
    exact not_reached_add _ hpos hle
  · intro hnot
    by_contra hbehind
    have hback : acknowledgement = message.sequence + number (2 * 128 - value distance) := by
      have hneg : (number (2 * 128 - value distance) : UInt8) = - number (value distance) :=
        (neg_number (show value distance ≤ 2 * 128 by omega)).symm
      rw [hneg, number_value, hdistance]
      abel
    by_cases hzero : value distance = 0
    · have hsame : message.sequence = acknowledgement + number 0 := by rw [hsum, hzero]
      rw [number_zero, add_zero] at hsame
      have hreached : reached acknowledgement (acknowledgement + number 0) = true :=
        reached_add acknowledgement (show 0 < 128 by omega)
      rw [number_zero, add_zero] at hreached
      rw [hsame, hreached] at hnot
      cases hnot
    · have hfar : ¬ value distance ≤ 128 := fun hle => hbehind ⟨show 1 ≤ value distance by omega, hle⟩
      have hreached : reached message.sequence
          (message.sequence + number (2 * 128 - value distance)) = true :=
        reached_add _ (show 2 * 128 - value distance < 128 by omega)
      rw [← hback, hnot] at hreached
      cases hreached

/-! ## The pending messages below `handle_packet` -/

def Event.isAcceptance : Event → Bool
  | .answered accepted => accepted
  | _ => false

/-- How many messages `send_control` took. -/
def acceptances (trace : List Entry) : ℕ := trace.countP fun entry => entry.event.isAcceptance

/-- The queue is what it was, followed by the messages taken meanwhile. -/
def Extended (before : List PendingMessage) (added : List Entry) (w : World σ) : Prop :=
  ∃ queued, w.link.pending = before ++ queued ∧ queued.length = acceptances added

/-- What a stretch of events that started with the pending messages `before` did to
them: they are still there, or a refusal inside the callback cost them all. -/
def Kept (before : List PendingMessage) (added : List Entry) (w : World σ) : Prop :=
  Extended before added w ∧ ¬ RefusedInCallback added ∨
    w.link.state = .dead ∧ w.link.pending = [] ∧ RefusedInCallback added

/-- A stretch of events since the history was `base`, with the callback running or
not. -/
def Follows (base : List Entry) (before : List PendingMessage) (inside : Bool)
    (w : World σ) : Prop :=
  ∃ added, w.trace = base ++ added ∧ insideCallback added = inside ∧ Kept before added w

/-- Whether the callback runs after an event. -/
def Event.insideAfter : Event → Bool → Bool
  | .delivered _, _ => true
  | .callbackReturned, _ => false
  | _, inside => inside

theorem insideCallback_snoc (trace : List Entry) (entry : Entry) :
    insideCallback (trace ++ [entry]) = entry.event.insideAfter (insideCallback trace) := by
  rw [insideCallback_append]
  obtain ⟨link, event⟩ := entry
  cases event <;> rfl

theorem acceptances_snoc (trace : List Entry) (entry : Entry) :
    acceptances (trace ++ [entry]) =
      acceptances trace + if entry.event.isAcceptance then 1 else 0 := by
  unfold acceptances
  rw [List.countP_append, List.countP_singleton]

/-- One more event, which is not a refusal inside the callback and takes no message. -/
theorem Follows.record {base : List Entry} {before : List PendingMessage} {inside : Bool}
    {w : World σ} (h : Follows base before inside w) (event : Event)
    (hevent : inside = true → ∀ frame, event ≠ .sent frame false)
    (hacceptance : event.isAcceptance = false) :
    Follows base before (event.insideAfter inside) (w.record event) := by
  obtain ⟨added, htrace, hinside, hkept⟩ := h
  refine ⟨added ++ [⟨w.link, event⟩], ?_, ?_, ?_⟩
  · rw [World.record_trace, htrace, List.append_assoc]
  · rw [insideCallback_snoc, hinside]
  · have hrefused : RefusedInCallback (added ++ [⟨w.link, event⟩]) ↔ RefusedInCallback added := by
      rw [refusedInCallback_append_iff, or_iff_left]
      rintro ⟨hrunning, frame, hframe⟩
      exact hevent (hinside.symm.trans hrunning) frame hframe
    unfold Kept Extended
    rw [hrefused, acceptances_snoc, if_neg (by simp [hacceptance])]
    exact hkept

/-- An update that leaves the pending messages alone and brings nothing back to life. -/
theorem Follows.update {base : List Entry} {before : List PendingMessage} {inside : Bool}
    {w : World σ} (h : Follows base before inside w) {f : PhoneLink → PhoneLink}
    (hpending : (f w.link).pending = w.link.pending)
    (hdead : w.link.state = .dead → (f w.link).state = .dead) :
    Follows base before inside (w.update f) := by
  obtain ⟨added, htrace, hinside, hkept⟩ := h
  refine ⟨added, htrace, hinside, ?_⟩
  unfold Kept Extended
  rw [World.update_link, hpending]
  rcases hkept with hleft | ⟨hstate, hright⟩
  · exact Or.inl hleft
  · exact Or.inr ⟨hdead hstate, hright⟩

/-- A `send_control` call of the callback adds a message, or its refusal removes all. -/
theorem Follows.sendControl {base : List Entry} {before : List PendingMessage} {w : World σ}
    (h : Follows base before true w) (payload : Bytes) :
    Follows base before true (sendControl env payload w).2 := by
  unfold Iap2.sendControl
  cases hrefuses : refusesControl w.link payload with
  | true => exact h.record (.answered false) (by simp) rfl
  | false =>
      rw [if_neg (by simp)]
      obtain ⟨added, htrace, hinside, hkept⟩ := h
      obtain ⟨hnormal, hne, -⟩ := refusesControl_eq_false hrefuses
      have hlength := length_encodePacket w.link hne (refusesControl_fits hrefuses)
        (w.link.sentSequence + 1) kControlAck w.link.peerControlSessionId
      -- a link that takes messages is not dead
      have hleft : Extended before added w ∧ ¬ RefusedInCallback added := by
        rcases hkept with hleft | ⟨hdead, -⟩
        · exact hleft
        · rw [hnormal] at hdead
          cases hdead
      obtain ⟨⟨queued, hqueued, hcount⟩, hnot⟩ := hleft
      set sending : PhoneLink := { w.link with sentSequence := w.link.sentSequence + 1 }
      have hencoded (frame : Bytes) :
          insideCallback (added ++ [⟨sending, .encoded frame⟩]) = true := by
        rw [insideCallback_snoc]
        exact hinside
      have hnotEncoded (frame : Bytes) :
          ¬ RefusedInCallback (added ++ [⟨sending, .encoded frame⟩]) := by
        rw [refusedInCallback_append_iff]
        simp [hnot]
      rcases queueControl_cases env payload w with
        ⟨frame, deadline, -, hqueue⟩ | ⟨frame, sent, hframe, hsent, hqueue⟩
      · rw [hqueue]
        set after : PhoneLink := { sending with
          pending := w.link.pending ++ [⟨w.link.sentSequence + 1, frame, deadline, 0⟩] }
        refine ⟨added ++ [⟨sending, .encoded frame⟩] ++ [⟨sending, .sent frame true⟩] ++
          [⟨after, .answered true⟩], ?_, ?_, ?_⟩
        · simp [World.record, htrace, sending, after]
        · rw [insideCallback_snoc, insideCallback_snoc]
          exact hencoded frame
        · left
          refine ⟨⟨queued ++ [⟨w.link.sentSequence + 1, frame, deadline, 0⟩], ?_, ?_⟩, ?_⟩
          · show w.link.pending ++ _ = _
            rw [hqueued, List.append_assoc]
          · rw [acceptances_snoc, acceptances_snoc, acceptances_snoc, ← hcount,
              List.length_append]
            rfl
          · rw [refusedInCallback_append_iff, refusedInCallback_append_iff]
            simp [hnotEncoded frame]
      · rcases hsent with ⟨hempty, -⟩ | ⟨-, rfl⟩
        · rw [hframe] at hempty
          rw [hempty] at hlength
          simp at hlength
        · rw [hqueue]
          set after : PhoneLink := { sending with state := .dead, pending := [] }
          refine ⟨added ++ [⟨sending, .encoded frame⟩] ++ [⟨sending, .sent frame false⟩] ++
            [⟨after, .answered false⟩], ?_, ?_, ?_⟩
          · simp [World.record, htrace, sending, after]
          · rw [insideCallback_snoc, insideCallback_snoc]
            exact hencoded frame
          · right
            refine ⟨rfl, rfl, ?_⟩
            rw [refusedInCallback_append_iff, refusedInCallback_append_iff]
            exact Or.inl (Or.inr ⟨hencoded frame, frame, rfl⟩)

theorem Follows.deliver {base : List Entry} {before : List PendingMessage} {w : World σ}
    (h : Follows base before false w) (callback : Bytes → σ → Sends σ) (payload : Bytes) :
    Follows base before false (deliver env callback payload w) := by
  have hcalled : Follows base before true (w.record (.delivered payload)) :=
    h.record (.delivered payload) (by simp) rfl
  have hstep (payload : Bytes) (w : World σ) (h : Follows base before true w) :
      Follows base before true (Iap2.sendControl env payload w).2 := h.sendControl env payload
  have hend := Interaction.run_invariant hstep (callback payload w.app) hcalled
  unfold Iap2.deliver
  set called := (callback payload w.app).run (Iap2.sendControl env) (w.record (.delivered payload))
  have happ : Follows base before true { called.2 with app := called.1 } := hend
  exact happ.record .callbackReturned (by simp) rfl

/-- The acknowledgement that `handle_packet` sends itself costs no message. -/
theorem Follows.sendAck {base : List Entry} {before : List PendingMessage} {w : World σ}
    (h : Follows base before false w) : Follows base before false (sendAck env w) := by
  unfold Iap2.sendAck writePacket
  set packet := encodePacket w.link [] w.link.sentSequence kControlAck 0
  have hencoded : Follows base before false (w.record (.encoded packet)) :=
    h.record (.encoded packet) (by simp) rfl
  have hdie {w : World σ} (h : Follows base before false w) :
      Follows base before false (w.update .die) := h.update rfl fun _ => rfl
  dsimp only
  by_cases hempty : packet = []
  · rw [if_pos hempty]
    exact hdie hencoded
  · rw [if_neg hempty, World.transmit_eq]
    have hsent : Follows base before false
        ((w.record (.encoded packet)).record
          (.sent packet (env.send (w.record (.encoded packet)).sentFrames packet))) :=
      hencoded.record (.sent packet _) (by simp) rfl
    dsimp only
    split
    · exact hsent
    · exact hdie hsent

theorem Follows.handleData {base : List Entry} {before : List PendingMessage} {w : World σ}
    (h : Follows base before false w) (header : Header) (payload : Bytes) :
    Follows base before false (handleData env header payload w) := by
  unfold Iap2.handleData
  dsimp only
  split
  · exact h
  split
  · exact h.sendAck env
  split
  · exact h.sendAck env
  split
  · exact h.sendAck env
  · have hadvanced : Follows base before false
        ((w.record (.advanced header payload)).update (.advance header.sequence)) :=
      (h.record (.advanced header payload) (by simp) rfl).update rfl id
    split
    · split
      · exact (hadvanced.deliver env _ payload).sendAck env
      · exact hadvanced.sendAck env
    · exact hadvanced.sendAck env

/-- Handling a frame without RST on an established link: after the cumulative
acknowledgement nothing but a refusal inside the callback takes messages away. -/
theorem follows_handlePacket {w : World σ} {header : Header} (payload : Bytes) (now : TimePoint)
    (hstate : w.link.state = .normal) (hrst : header.control &&& kControlRst = 0) :
    Follows w.trace (w.link.acknowledge header).pending false
      (handlePacket env header payload now w) := by
  unfold handlePacket
  dsimp only
  rw [if_neg (by simp [hrst])]
  set w' := (w.record (.packet header payload)).update (.acknowledge header) with hw'
  have hstart : Follows w.trace (w.link.acknowledge header).pending false w' := by
    refine ⟨[⟨w.link, .packet header payload⟩], rfl, rfl, Or.inl ⟨⟨[], ?_, rfl⟩, ?_⟩⟩
    · rw [List.append_nil]
      rfl
    · rintro ⟨earlier, link, frame, after, hsplit, hinside⟩
      rcases List.append_eq_singleton_iff.mp hsplit.symm with ⟨rfl, hcons⟩ | ⟨_, hcons⟩
      · cases hcons
      · cases hcons
  have hnormal : w'.link.state = .normal := (acknowledge_state header w.link).trans hstate
  by_cases hsyn : header.control &&& kControlSyn ≠ 0
  · rw [if_pos hsyn, if_pos hnormal]
    exact hstart.sendAck env
  · rw [if_neg hsyn, if_neg (by simp [hnormal])]
    split
    · exact hstart.handleData env header payload
    · exact hstart

/-! ## When nothing is removed -/

/-- From `w` to `w'` no pending message was removed: the queue is what it was,
followed by the messages taken meanwhile. -/
def RemovesNone (w w' : World σ) : Prop :=
  Extended w.link.pending (w'.trace.drop w.trace.length) w'

/-- From `w` to `w'` the transport refused a message of the callback. -/
def RefusedMeanwhile (w w' : World σ) : Prop :=
  RefusedInCallback (w'.trace.drop w.trace.length)

instance (w w' : World σ) : Decidable (RefusedMeanwhile w w') := by
  unfold RefusedMeanwhile
  infer_instance

instance (acknowledgement : UInt8) : DecidablePred (AheadOf acknowledgement) := fun _ => by
  unfold AheadOf
  infer_instance

/-- An ACK-flagged frame that an established link receives removes no pending message
if and only if it is no reset, every pending number is one to 128 past the one it
names, and the transport refuses no message of the callback while it is handled. -/
theorem removesNone_iff {w : World σ} {header : Header} (payload : Bytes) (now : TimePoint)
    (hstate : w.link.state = .normal) (hpending : w.link.pending ≠ [])
    (hack : header.control &&& kControlAck ≠ 0) :
    RemovesNone w (handlePacket env header payload now w) ↔
      header.control &&& kControlRst = 0 ∧
        (∀ message ∈ w.link.pending, AheadOf header.acknowledgement message) ∧
          ¬ RefusedMeanwhile w (handlePacket env header payload now w) := by
  -- with everything removed, something was
  have hempty {w' : World σ} (hnone : w'.link.pending = []) : ¬ RemovesNone w w' := by
    rintro ⟨queued, hqueue, -⟩
    rw [hnone] at hqueue
    exact hpending (List.append_eq_nil_iff.mp hqueue.symm).1
  by_cases hrst : header.control &&& kControlRst = 0
  · obtain ⟨added, htrace, -, hkept⟩ := follows_handlePacket env payload now hstate hrst
    set w' := handlePacket env header payload now w
    have hadded : w'.trace.drop w.trace.length = added := by
      rw [htrace]
      exact List.drop_left
    rcases hkept with ⟨⟨queued, hqueue, hcount⟩, hnot⟩ | ⟨-, hnone, hrefused⟩
    -- the filter keeps all of them exactly if all are ahead of the number
    · have hfilter : (w.link.acknowledge header).pending = w.link.pending ↔
          ∀ message ∈ w.link.pending, AheadOf header.acknowledgement message := by
        rw [acknowledge_pending hack, List.filter_eq_self]
        simp only [aheadOf_iff, Bool.not_eq_true']
      unfold RemovesNone RefusedMeanwhile Extended
      rw [hadded, hqueue, ← hfilter]
      constructor
      · rintro ⟨other, hother, hotherCount⟩
        have hlength : queued.length = other.length := hcount.trans hotherCount.symm
        exact ⟨hrst, (List.append_inj' hother hlength).1, hnot⟩
      · rintro ⟨-, hsame, -⟩
        exact ⟨queued, by rw [hsame], hcount⟩
    · constructor
      · exact fun hkeeps => absurd hkeeps (hempty hnone)
      · rintro ⟨-, -, hnot⟩
        unfold RefusedMeanwhile at hnot
        rw [hadded] at hnot
        exact absurd hrefused hnot
  · have hreset : handlePacket env header payload now w =
        (w.record (.packet header payload)).update .reset := by
      unfold handlePacket
      exact if_pos hrst
    rw [hreset]
    constructor
    · exact fun hkeeps => absurd hkeeps (hempty rfl)
    · exact fun hcondition => absurd hcondition.1 hrst

theorem removesNone_stale_ack :
    RemovesNone (run (Env.accepting (some replyOnce)) () handshakeThenData)
      (handlePacket (Env.accepting (some replyOnce)) ⟨9, kControlAck, 4, 100, 0⟩ [] 0
        (run (Env.accepting (some replyOnce)) () handshakeThenData)) :=
  (removesNone_iff _ [] 0 (by decide +kernel) (by decide +kernel) (by decide)).mpr
    ⟨by decide, by decide +kernel, by decide +kernel⟩

/-- An ACK frame of the number after the last one sent. -/
def futureAck : Bytes := encodeFrame kControlAck 4 102 0 []

/-- One message, number 101, is pending, and the acknowledgement of 102 removes it. -/
theorem future_ack_removes_pending :
    (run (Env.accepting (some replyOnce)) () handshakeThenData).link.state = .normal ∧
      (run (Env.accepting (some replyOnce)) () handshakeThenData).link.pendingSequences = [101] ∧
      ¬ RemovesNone (run (Env.accepting (some replyOnce)) () handshakeThenData)
        (receive (Env.accepting (some replyOnce)) futureAck 0
          (run (Env.accepting (some replyOnce)) () handshakeThenData)) := by
  refine ⟨by decide +kernel, by decide +kernel, ?_⟩
  rintro ⟨queued, hqueue, -⟩
  have hlength := congrArg List.length hqueue
  rw [List.length_append] at hlength
  have hbefore :
      (run (Env.accepting (some replyOnce)) () handshakeThenData).link.pending.length = 1 := by
    decide +kernel
  have hafter : (receive (Env.accepting (some replyOnce)) futureAck 0
      (run (Env.accepting (some replyOnce)) () handshakeThenData)).link.pending.length = 0 := by
    decide +kernel
  omega

end Iap2
end Aa2acp
