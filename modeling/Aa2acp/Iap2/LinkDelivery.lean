import Aa2acp.Iap2.LinkSteps
import Aa2acp.Lib.History

/-!
# In-order, exactly-once delivery and truthful acknowledgements

Stated on the history of a run.  The data frames that advance the receive state
carry consecutive sequence numbers from the peer's SYN on; each of them is handed
to `control_data_` right then if it belongs to the peer's control session, and
nothing else is; and every frame encoded with the ACK bit names the sequence
number accepted last.
-/

namespace Aa2acp
namespace Iap2

open History

variable {σ : Type} (env : Env σ)

/-! ## What the history says -/

/-- The sequence number of a frame whose receipt moved the receive state. -/
def Event.accepted? : Event → Option UInt8
  | .synAdopted header _ => some header.sequence
  | .advanced header _ => some header.sequence
  | _ => none

/-- The sequence number of an adopted SYN. -/
def Event.syn? : Event → Option UInt8
  | .synAdopted header _ => some header.sequence
  | _ => none

/-- The sequence number of a data frame that advanced the receive state. -/
def Event.advanced? : Event → Option UInt8
  | .advanced header _ => some header.sequence
  | _ => none

/-- The control session that an adopted SYN announces. -/
def Event.controlSession? : Event → Option UInt8
  | .synAdopted _ lsp =>
      (lsp.sessions.find? fun session => session.type == 0).map Session.id
  | _ => none

def Event.isEstablished : Event → Bool
  | .established => true
  | _ => false

/-- The sequence number accepted last. -/
def lastAccepted (trace : List Entry) : Option UInt8 :=
  lastOf (fun entry => entry.event.accepted?) trace

/-- The sequence number of the last SYN adopted before the link became Normal. -/
def handshakeSyn (trace : List Entry) : Option UInt8 :=
  lastOf (fun entry => entry.event.syn?) (upTo (fun entry => entry.event.isEstablished) trace)

/-- The sequence numbers of the data frames that advanced the receive state. -/
def advancedSequences (trace : List Entry) : List UInt8 :=
  trace.filterMap fun entry => entry.event.advanced?

/-- The peer's control session. -/
def peerControlSession (trace : List Entry) : UInt8 :=
  (lastOf (fun entry => entry.event.controlSession?) trace).getD kControlSessionId

def Established (trace : List Entry) : Prop :=
  ∃ entry ∈ trace, entry.event.isEstablished = true

/-- The `count` sequence numbers after `s`, modulo 256. -/
def sequencesAfter (s : UInt8) (count : Nat) : List UInt8 :=
  (List.range count).map fun index => s + UInt8.ofNat (index + 1)

/-- A frame with the ACK bit names the last accepted sequence number. -/
def TruthfulAt (before : List Entry) (entry : Entry) (_after : List Entry) : Prop :=
  ∀ frame, entry.event = .encoded frame → frame.getD 4 0 &&& kControlAck ≠ 0 →
    lastAccepted before = some (frame.getD 6 0)

/-- A data frame advances the receive state as it is handled, and is then handed
over if it belongs to the peer's control session. -/
def HandedOverAt (before : List Entry) (entry : Entry) (after : List Entry) : Prop :=
  ∀ header payload, entry.event = .advanced header payload →
    (∃ earlier link, before = earlier ++ [⟨link, .packet header payload⟩]) ∧
      (header.sessionId = peerControlSession before →
        ∃ link rest, after = ⟨link, .delivered payload⟩ :: rest)

/-- Only a data frame of the peer's control session is handed over, as it advances
the receive state. -/
def DeliveredAt (before : List Entry) (entry : Entry) (_after : List Entry) : Prop :=
  ∀ payload, entry.event = .delivered payload →
    ∃ earlier link header, before = earlier ++ [⟨link, .advanced header payload⟩] ∧
      header.sessionId = peerControlSession earlier

/-- The payload of a data frame of the peer's control session that advanced the
receive state. -/
def Entry.controlPayload? (entry : Entry) : Option Bytes :=
  match entry.event with
  | .advanced header payload =>
      if header.sessionId = entry.link.peerControlSessionId then some payload else none
  | _ => none

/-- The payloads of the control session among the data frames that advanced the
receive state. -/
def controlPayloads (trace : List Entry) : List Bytes :=
  trace.filterMap Entry.controlPayload?

/-- The receive state advances on an established link only. -/
def AdvancedNormalAt (_before : List Entry) (entry : Entry) (_after : List Entry) : Prop :=
  entry.event.advanced?.isSome = true → entry.link.state = .normal

/-! ## Growth of the history -/

theorem advancedSequences_append (trace added : List Entry) :
    advancedSequences (trace ++ added) = advancedSequences trace ++ advancedSequences added :=
  List.filterMap_append

theorem sequencesAfter_succ (s : UInt8) (count : Nat) :
    sequencesAfter s (count + 1) = sequencesAfter s count ++ [s + UInt8.ofNat (count + 1)] := by
  unfold sequencesAfter
  rw [List.range_succ, List.map_append]
  rfl

@[simp] theorem length_sequencesAfter (s : UInt8) (count : Nat) :
    (sequencesAfter s count).length = count := by
  simp [sequencesAfter]

theorem Established.append {trace : List Entry} (h : Established trace) (added : List Entry) :
    Established (trace ++ added) := by
  obtain ⟨entry, hentry, hevent⟩ := h
  exact ⟨entry, List.mem_append_left _ hentry, hevent⟩

theorem established_append_iff {trace added : List Entry} :
    Established (trace ++ added) ↔ Established trace ∨ Established added := by
  unfold Established
  simp only [List.mem_append, or_and_right, exists_or]

theorem handshakeSyn_append_of_established {trace : List Entry} (h : Established trace)
    (added : List Entry) : handshakeSyn (trace ++ added) = handshakeSyn trace := by
  unfold handshakeSyn
  rw [upTo_append_of_stopped h]

theorem handshakeSyn_of_not_established {trace : List Entry} (h : ¬ Established trace) :
    handshakeSyn trace = lastOf (fun entry => entry.event.syn?) trace := by
  unfold handshakeSyn
  rw [upTo_of_not_stopped]
  intro entry hentry
  by_contra hstop
  exact h ⟨entry, hentry, by simpa using hstop⟩

/-! ## The invariant -/

/-- How the receive state hangs together with the history. -/
structure ReceiveInvariant (w : World σ) : Prop where
  accepted : lastAccepted w.trace =
    if w.link.lastSequenceValid then some w.link.lastReceivedSequence else none
  session : peerControlSession w.trace = w.link.peerControlSessionId
  early : w.link.state = .detect ∨ w.link.state = .negotiate → ¬ Established w.trace
  normal : w.link.state = .normal → Established w.trace
  before : ¬ Established w.trace →
    advancedSequences w.trace = [] ∧ handshakeSyn w.trace = lastAccepted w.trace
  inOrder : ∀ s, Established w.trace → handshakeSyn w.trace = some s →
    advancedSequences w.trace = sequencesAfter s (advancedSequences w.trace).length ∧
      (w.link.state = .normal → lastAccepted w.trace =
        some (s + UInt8.ofNat (advancedSequences w.trace).length))
  truthful : (Established w.trace → handshakeSyn w.trace ≠ none) → AtEach TruthfulAt w.trace
  handedOver : env.controlData.isSome = true → AtEach HandedOverAt w.trace
  exactlyOnce : env.controlData.isSome = true → w.deliveries = controlPayloads w.trace
  delivered : AtEach DeliveredAt w.trace
  advancedNormal : AtEach AdvancedNormalAt w.trace

theorem receiveInvariant_fresh (app : σ) : ReceiveInvariant env (World.fresh app) where
  accepted := rfl
  session := rfl
  early := by simp [World.fresh, Established]
  normal := by simp [World.fresh]
  before := fun _ => ⟨rfl, rfl⟩
  inOrder := by simp [World.fresh, Established]
  truthful := fun _ => atEach_nil _
  handedOver := fun _ => atEach_nil _
  exactlyOnce := fun _ => rfl
  delivered := atEach_nil _
  advancedNormal := atEach_nil _

/-- An event that has no part in the receive state. -/
def Event.neutral : Event → Bool
  | .encoded _ | .delivered _ | .synAdopted _ _ | .established | .advanced _ _ => false
  | _ => true

/-- What an event that is not about receiving says about receiving. -/
structure Event.Unrelated (event : Event) : Prop where
  accepted : event.accepted? = none
  syn : event.syn? = none
  advanced : event.advanced? = none
  session : event.controlSession? = none
  established : event.isEstablished = false
  delivered : event.payload? = none

theorem Event.unrelated_of_neutral {event : Event} (h : event.neutral = true) :
    event.Unrelated := by
  cases event with
  | encoded frame => cases h
  | delivered payload => cases h
  | synAdopted header lsp => cases h
  | established => cases h
  | advanced header payload => cases h
  | _ => exact ⟨rfl, rfl, rfl, rfl, rfl, rfl⟩

theorem Event.unrelated_encoded (frame : Bytes) : (Event.encoded frame).Unrelated :=
  ⟨rfl, rfl, rfl, rfl, rfl, rfl⟩

section Unrelated

variable {trace added : List Entry} (hadded : ∀ entry ∈ added, entry.event.Unrelated)

include hadded

theorem lastAccepted_append_unrelated : lastAccepted (trace ++ added) = lastAccepted trace :=
  lastOf_append_of_none fun entry hentry => (hadded entry hentry).accepted

theorem peerControlSession_append_unrelated :
    peerControlSession (trace ++ added) = peerControlSession trace := by
  unfold peerControlSession
  rw [lastOf_append_of_none fun entry hentry => (hadded entry hentry).session]

theorem advancedSequences_append_unrelated :
    advancedSequences (trace ++ added) = advancedSequences trace := by
  have hnone : advancedSequences added = [] := by
    unfold advancedSequences
    rw [List.filterMap_eq_nil_iff]
    exact fun entry hentry => (hadded entry hentry).advanced
  rw [advancedSequences_append, hnone, List.append_nil]

theorem established_append_unrelated : Established (trace ++ added) ↔ Established trace := by
  rw [established_append_iff, or_iff_left]
  rintro ⟨entry, hentry, hevent⟩
  rw [(hadded entry hentry).established] at hevent
  cases hevent

theorem handshakeSyn_append_unrelated : handshakeSyn (trace ++ added) = handshakeSyn trace := by
  by_cases h : Established trace
  · exact handshakeSyn_append_of_established h added
  · have h' : ¬ Established (trace ++ added) := fun hlater =>
      h ((established_append_unrelated hadded).mp hlater)
    rw [handshakeSyn_of_not_established h, handshakeSyn_of_not_established h']
    exact lastOf_append_of_none fun entry hentry => (hadded entry hentry).syn

end Unrelated

/-! ## What was handed over -/

/-- The part of the invariant that is about the data frames handed over. -/
structure HandedOverOnce (trace : List Entry) : Prop where
  handedOver : env.controlData.isSome = true → AtEach HandedOverAt trace
  exactlyOnce : env.controlData.isSome = true →
    (trace.filterMap fun entry => entry.event.payload?) = controlPayloads trace
  delivered : AtEach DeliveredAt trace
  advancedNormal : AtEach AdvancedNormalAt trace

theorem ReceiveInvariant.handedOverOnce {w : World σ} (h : ReceiveInvariant env w) :
    HandedOverOnce env w.trace :=
  ⟨h.handedOver, h.exactlyOnce, h.delivered, h.advancedNormal⟩

/-- A later event does not undo what a frame that advanced the receive state was
followed by. -/
theorem HandedOverAt.append {before after : List Entry} {entry : Entry}
    (h : HandedOverAt before entry after) (added : List Entry) :
    HandedOverAt before entry (after ++ added) := by
  intro header payload hevent
  obtain ⟨hpacket, hdelivered⟩ := h header payload hevent
  refine ⟨hpacket, fun hsession => ?_⟩
  obtain ⟨link, rest, rfl⟩ := hdelivered hsession
  exact ⟨link, rest ++ added, rfl⟩

theorem Entry.controlPayload?_of_not_advanced {entry : Entry} (h : entry.event.advanced? = none) :
    entry.controlPayload? = none := by
  obtain ⟨link, event⟩ := entry
  cases event with
  | advanced header payload => cases h
  | _ => rfl

section HandedOverOnce

variable {env} {trace added : List Entry}

/-- Events that neither advance the receive state nor hand anything over change nothing. -/
theorem HandedOverOnce.append_aside (h : HandedOverOnce env trace)
    (hpayload : ∀ entry ∈ added, entry.event.payload? = none)
    (hadvanced : ∀ entry ∈ added, entry.event.advanced? = none) :
    HandedOverOnce env (trace ++ added) := by
  -- none of the requirements speaks of such an event
  have hmem {start after : List Entry} {entry : Entry} (hsplit : added = start ++ entry :: after) :
      entry ∈ added := by
    rw [hsplit]
    exact List.mem_append_right _ List.mem_cons_self
  constructor
  · intro hinstalled
    apply (h.handedOver hinstalled).append (fun _ _ _ _ hold => hold.append added)
    intro start entry after hsplit header payload hevent
    have hnone := hadvanced entry (hmem hsplit)
    rw [hevent] at hnone
    cases hnone
  · intro hinstalled
    have hnothing : added.filterMap (fun entry => entry.event.payload?) = [] :=
      List.filterMap_eq_nil_iff.mpr hpayload
    have hnone : added.filterMap Entry.controlPayload? = [] :=
      List.filterMap_eq_nil_iff.mpr fun entry hentry =>
        Entry.controlPayload?_of_not_advanced (hadvanced entry hentry)
    have honce := h.exactlyOnce hinstalled
    unfold controlPayloads at honce ⊢
    rw [List.filterMap_append, List.filterMap_append, hnothing, hnone, honce]
  · apply h.delivered.append (fun _ _ _ _ hold => hold)
    intro start entry after hsplit payload hevent
    have hnone := hpayload entry (hmem hsplit)
    rw [hevent] at hnone
    cases hnone
  · apply h.advancedNormal.append (fun _ _ _ _ hold => hold)
    intro start entry after hsplit hevent
    rw [hadvanced entry (hmem hsplit)] at hevent
    cases hevent

variable {link later : PhoneLink} {header : Header} {payload : Bytes}

/-- A frame of the control session advances the receive state and is handed over. -/
theorem HandedOverOnce.append_delivered (h : HandedOverOnce env trace)
    (hpacket : ∃ earlier before, trace = earlier ++ [⟨before, .packet header payload⟩])
    (hlink : peerControlSession trace = link.peerControlSessionId) (hnormal : link.state = .normal)
    (hsession : header.sessionId = link.peerControlSessionId) :
    HandedOverOnce env (trace ++ [⟨link, .advanced header payload⟩, ⟨later, .delivered payload⟩]) := by
  constructor
  · intro hinstalled
    apply (h.handedOver hinstalled).append_pair (fun _ _ _ _ hold => hold.append _)
    · intro header' payload' hevent
      cases hevent
      exact ⟨hpacket, fun _ => ⟨later, [], rfl⟩⟩
    · intro header' payload' hevent
      cases hevent
  · intro hinstalled
    have honce := h.exactlyOnce hinstalled
    unfold controlPayloads at honce ⊢
    rw [List.filterMap_append, List.filterMap_append, honce]
    simp [Event.payload?, Entry.controlPayload?, hsession]
  · apply h.delivered.append_pair (fun _ _ _ _ hold => hold)
    · intro payload' hevent
      cases hevent
    · intro payload' hevent
      cases hevent
      exact ⟨trace, link, header, rfl, by rw [hlink]; exact hsession⟩
  · apply h.advancedNormal.append_pair (fun _ _ _ _ hold => hold)
    · intro _
      exact hnormal
    · intro hadvanced
      cases hadvanced

/-- A frame of another session, or one that nobody takes, only advances the receive state. -/
theorem HandedOverOnce.append_advanced (h : HandedOverOnce env trace)
    (hpacket : ∃ earlier before, trace = earlier ++ [⟨before, .packet header payload⟩])
    (hlink : peerControlSession trace = link.peerControlSessionId) (hnormal : link.state = .normal)
    (hother : ¬ (env.controlData.isSome ∧ header.sessionId = link.peerControlSessionId)) :
    HandedOverOnce env (trace ++ [⟨link, .advanced header payload⟩]) := by
  constructor
  · intro hinstalled
    apply (h.handedOver hinstalled).append_singleton (fun _ _ _ _ hold => hold.append _)
    intro header' payload' hevent
    cases hevent
    refine ⟨hpacket, fun hsession => absurd ⟨hinstalled, ?_⟩ hother⟩
    rw [hsession, hlink]
  · intro hinstalled
    have hsession : header.sessionId ≠ link.peerControlSessionId := fun hsession =>
      hother ⟨hinstalled, hsession⟩
    have honce := h.exactlyOnce hinstalled
    unfold controlPayloads at honce ⊢
    rw [List.filterMap_append, List.filterMap_append, honce]
    simp [Event.payload?, Entry.controlPayload?, hsession]
  · apply h.delivered.append_singleton (fun _ _ _ _ hold => hold)
    intro payload' hevent
    cases hevent
  · apply h.advancedNormal.append_singleton (fun _ _ _ _ hold => hold)
    intro _
    exact hnormal

end HandedOverOnce

/-- Only a frame that is encoded can acknowledge anything. -/
theorem truthful_append_aside {trace added : List Entry} (h : AtEach TruthfulAt trace)
    (hadded : ∀ entry ∈ added, ∀ frame, entry.event ≠ .encoded frame) :
    AtEach TruthfulAt (trace ++ added) := by
  apply h.append (fun _ _ _ _ hold => hold)
  intro start entry after hsplit frame hevent
  refine absurd hevent (hadded entry ?_ frame)
  rw [hsplit]
  exact List.mem_append_right _ List.mem_cons_self

/-- The handshake of an established link does not change. -/
theorem handshakeSyn_ne_none_of_append {trace added : List Entry}
    (h : Established (trace ++ added) → handshakeSyn (trace ++ added) ≠ none) :
    Established trace → handshakeSyn trace ≠ none := by
  intro hest
  have hlater := h (hest.append added)
  rwa [handshakeSyn_append_of_established hest] at hlater

/-! ## Steps that do not receive -/

/-- On a link that is established the receive state is known. -/
theorem ReceiveInvariant.valid {w : World σ} (h : ReceiveInvariant env w)
    (hsyn : Established w.trace → handshakeSyn w.trace ≠ none)
    (hstate : w.link.state = .normal) : w.link.lastSequenceValid = true := by
  have hestablished := h.normal hstate
  obtain ⟨s, hs⟩ := Option.ne_none_iff_exists'.mp (hsyn hestablished)
  have hlast := (h.inOrder s hestablished hs).2 hstate
  rw [h.accepted] at hlast
  by_contra hvalid
  rw [if_neg hvalid] at hlast
  cases hlast

/-- A step that adds only unrelated events, leaves the receive state alone and
encodes truthful acknowledgements. -/
structure Quiet (w w' : World σ) (added : List Entry) : Prop where
  trace : w'.trace = w.trace ++ added
  unrelated : ∀ entry ∈ added, entry.event.Unrelated
  acks : ∀ entry ∈ added, ∀ frame, entry.event = .encoded frame →
    frame.getD 4 0 &&& kControlAck ≠ 0 →
      frame.getD 6 0 = w.link.lastReceivedSequence ∧
        (w.link.lastSequenceValid = true ∨ w.link.state = .normal)
  valid : w'.link.lastSequenceValid = w.link.lastSequenceValid
  last : w'.link.lastReceivedSequence = w.link.lastReceivedSequence
  session : w'.link.peerControlSessionId = w.link.peerControlSessionId
  state : w'.link.state = w.link.state ∨ w'.link.state = .dead ∨
    w.link.state ≠ .normal ∧ w.link.state ≠ .dead ∧ w'.link.state = .negotiate

theorem ReceiveInvariant.quiet {w w' : World σ} {added : List Entry}
    (h : ReceiveInvariant env w) (hquiet : Quiet w w' added) : ReceiveInvariant env w' := by
  have hun := hquiet.unrelated
  have hestablished : Established (w.trace ++ added) ↔ Established w.trace :=
    established_append_unrelated hun
  have hsyn : handshakeSyn (w.trace ++ added) = handshakeSyn w.trace :=
    handshakeSyn_append_unrelated hun
  have hnormal (hstate : w'.link.state = .normal) : w.link.state = .normal := by
    rcases hquiet.state with hs | hs | ⟨-, -, hs⟩
    · rw [← hs]
      exact hstate
    · rw [hs] at hstate
      cases hstate
    · rw [hs] at hstate
      cases hstate
  -- what was handed over is not touched
  have hhands := h.handedOverOnce.append_aside (fun entry hentry => (hun entry hentry).delivered)
    fun entry hentry => (hun entry hentry).advanced
  refine ⟨?_, ?_, ?_, ?_, ?_, ?_, ?_, ?_, ?_, ?_, ?_⟩
  · rw [hquiet.trace, lastAccepted_append_unrelated hun, hquiet.valid, hquiet.last]
    exact h.accepted
  · rw [hquiet.trace, peerControlSession_append_unrelated hun, hquiet.session]
    exact h.session
  · intro hstate
    rw [hquiet.trace, hestablished]
    apply h.early
    rcases hquiet.state with hs | hs | ⟨hnot, halive, -⟩
    · rwa [← hs]
    · rw [hs] at hstate
      simp at hstate
    · cases hw : w.link.state with
      | detect => exact Or.inl rfl
      | negotiate => exact Or.inr rfl
      | normal => exact absurd hw hnot
      | dead => exact absurd hw halive
  · intro hstate
    rw [hquiet.trace, hestablished]
    exact h.normal (hnormal hstate)
  · rw [hquiet.trace, hestablished, hsyn, advancedSequences_append_unrelated hun,
      lastAccepted_append_unrelated hun]
    exact h.before
  · intro s hest hs
    rw [hquiet.trace] at hest hs ⊢
    rw [hestablished] at hest
    rw [hsyn] at hs
    rw [advancedSequences_append_unrelated hun, lastAccepted_append_unrelated hun]
    obtain ⟨hsequences, hlast⟩ := h.inOrder s hest hs
    exact ⟨hsequences, fun hstate => hlast (hnormal hstate)⟩
  · intro hhandshake
    rw [hquiet.trace] at hhandshake ⊢
    rw [hestablished, hsyn] at hhandshake
    refine (h.truthful hhandshake).append (fun _ _ _ _ hold => hold) ?_
    intro start entry after hsplit frame hevent hack
    have hmem : entry ∈ added := by simp [hsplit]
    obtain ⟨hnumber, hknown⟩ := hquiet.acks entry hmem frame hevent hack
    have hvalid : w.link.lastSequenceValid = true :=
      hknown.elim id fun hstate => h.valid env hhandshake hstate
    have hstart : ∀ entry ∈ start, entry.event.Unrelated := fun entry hentry =>
      hun entry (by simp [hsplit, hentry])
    rw [lastAccepted_append_unrelated hstart, h.accepted, if_pos hvalid, hnumber]
  · rw [hquiet.trace]
    exact hhands.handedOver
  · unfold World.deliveries
    rw [hquiet.trace]
    exact hhands.exactlyOnce
  · rw [hquiet.trace]
    exact hhands.delivered
  · rw [hquiet.trace]
    exact hhands.advancedNormal

/-- A step without any event. -/
theorem Quiet.still {w w' : World σ} (htrace : w'.trace = w.trace)
    (hvalid : w'.link.lastSequenceValid = w.link.lastSequenceValid)
    (hlast : w'.link.lastReceivedSequence = w.link.lastReceivedSequence)
    (hsession : w'.link.peerControlSessionId = w.link.peerControlSessionId)
    (hstate : w'.link.state = w.link.state ∨ w'.link.state = .dead ∨
      w.link.state ≠ .normal ∧ w.link.state ≠ .dead ∧ w'.link.state = .negotiate) :
    Quiet w w' [] where
  trace := by rw [htrace, List.append_nil]
  unrelated := by simp
  acks := by simp
  valid := hvalid
  last := hlast
  session := hsession
  state := hstate

/-- One event that has no part in receiving. -/
theorem Quiet.neutral {w w' : World σ} (event : Event) (hneutral : event.neutral = true)
    (htrace : w'.trace = w.trace ++ [⟨w.link, event⟩])
    (hvalid : w'.link.lastSequenceValid = w.link.lastSequenceValid)
    (hlast : w'.link.lastReceivedSequence = w.link.lastReceivedSequence)
    (hsession : w'.link.peerControlSessionId = w.link.peerControlSessionId)
    (hstate : w'.link.state = w.link.state ∨ w'.link.state = .dead) :
    Quiet w w' [⟨w.link, event⟩] where
  trace := htrace
  unrelated := by simpa using Event.unrelated_of_neutral hneutral
  acks := by
    intro entry hentry frame hevent
    rw [List.mem_singleton] at hentry
    rw [hentry] at hevent
    dsimp only at hevent
    rw [hevent] at hneutral
    cases hneutral
  valid := hvalid
  last := hlast
  session := hsession
  state := hstate.imp id Or.inl

/-- The acknowledgement number of a frame with the ACK bit is the one the link
holds as the last received. -/
theorem encodePacket_ack {link : PhoneLink} {payload : Bytes}
    {sequence control sessionId : UInt8}
    (hack : (encodePacket link payload sequence control sessionId).getD 4 0 &&& kControlAck ≠ 0) :
    control &&& kControlAck ≠ 0 ∧
      (encodePacket link payload sequence control sessionId).getD 6 0 =
        link.lastReceivedSequence := by
  by_cases hfits : payload.length ≤ 65525
  · rw [encodePacket_of_fits link hfits] at hack ⊢
    obtain ⟨hcontrol, -, hnumber⟩ := encodeFrame_fields control sequence
      link.lastReceivedSequence sessionId payload
    rw [hcontrol] at hack
    exact ⟨hack, hnumber⟩
  -- a payload that does not fit gives no frame at all
  · have hempty : encodePacket link payload sequence control sessionId = [] := by
      unfold encodePacket
      rw [if_pos]
      refine ⟨?_, by omega⟩
      rintro rfl
      simp at hfits
    rw [hempty] at hack
    exact absurd (by decide) hack

/-- Encoding a frame that names the last received sequence number. -/
theorem Quiet.encoded {w : World σ} {payload : Bytes} {sequence control sessionId : UInt8}
    (hknown : control &&& kControlAck ≠ 0 →
      w.link.lastSequenceValid = true ∨ w.link.state = .normal) :
    Quiet w (w.record (.encoded (encodePacket w.link payload sequence control sessionId)))
      [⟨w.link, .encoded (encodePacket w.link payload sequence control sessionId)⟩] where
  trace := rfl
  unrelated := by simpa using Event.unrelated_encoded _
  acks := by
    intro entry hentry frame hevent hack
    rw [List.mem_singleton] at hentry
    rw [hentry] at hevent
    cases hevent
    obtain ⟨hcontrol, hnumber⟩ := encodePacket_ack hack
    exact ⟨hnumber, hknown hcontrol⟩
  valid := rfl
  last := rfl
  session := rfl
  state := Or.inl rfl

/-- `send_control` on an established link receives nothing. -/
theorem Quiet.queue {payload : Bytes} {w : World σ} (h : refusesControl w.link payload = false) :
    ∃ added, Quiet w (queueControl env payload w).2 added := by
  obtain ⟨hnormal, -⟩ := refusesControl_eq_false h
  have hacks (frame : Bytes) (hframe : frame = encodePacket w.link payload
      (w.link.sentSequence + 1) kControlAck w.link.peerControlSessionId)
      (hack : frame.getD 4 0 &&& kControlAck ≠ 0) :
      frame.getD 6 0 = w.link.lastReceivedSequence ∧
        (w.link.lastSequenceValid = true ∨ w.link.state = .normal) := by
    rw [hframe] at hack ⊢
    exact ⟨(encodePacket_ack hack).2, Or.inr hnormal⟩
  have hunrelated (frame : Bytes) (accepted : Bool) : (Event.sent frame accepted).Unrelated :=
    Event.unrelated_of_neutral rfl
  rcases queueControl_cases env payload w with
    ⟨frame, deadline, hframe, hqueue⟩ | ⟨frame, sent, hframe, hsent, hqueue⟩
  · refine ⟨_, by rw [hqueue], ?_, ?_, ?_, ?_, ?_, ?_⟩
    · intro entry hentry
      simp only [List.mem_cons, List.not_mem_nil, or_false] at hentry
      rcases hentry with rfl | rfl
      · exact Event.unrelated_encoded _
      · exact hunrelated _ _
    · intro entry hentry other hevent hack
      simp only [List.mem_cons, List.not_mem_nil, or_false] at hentry
      rcases hentry with rfl | rfl
      · cases hevent
        exact hacks frame hframe hack
      · cases hevent
    all_goals rw [hqueue]
    exact Or.inl rfl
  · have hrest (entry : Entry) (hentry : entry ∈ sent) : ∃ other accepted,
        entry.event = .sent other accepted := by
      rcases hsent with ⟨-, rfl⟩ | ⟨-, rfl⟩
      · simp at hentry
      · rw [List.mem_singleton] at hentry
        rw [hentry]
        exact ⟨_, _, rfl⟩
    refine ⟨_, by rw [hqueue], ?_, ?_, ?_, ?_, ?_, ?_⟩
    · intro entry hentry
      rw [List.mem_cons] at hentry
      rcases hentry with rfl | hentry
      · exact Event.unrelated_encoded _
      · obtain ⟨other, accepted, hevent⟩ := hrest entry hentry
        rw [hevent]
        exact hunrelated _ _
    · intro entry hentry other hevent hack
      rw [List.mem_cons] at hentry
      rcases hentry with rfl | hentry
      · cases hevent
        exact hacks frame hframe hack
      · obtain ⟨_, _, hsentEvent⟩ := hrest entry hentry
        rw [hsentEvent] at hevent
        cases hevent
    all_goals rw [hqueue]
    exact Or.inr (Or.inl rfl)

/-! ## Steps that receive -/

/-- A SYN of the peer is adopted: it becomes the last accepted number, and the one
the handshake started from while the link is not established. -/
theorem ReceiveInvariant.adopt {w : World σ} (h : ReceiveInvariant env w) (header : Header)
    (received : Lsp) (hstate : w.link.state ≠ .normal) :
    ReceiveInvariant env
      ((w.record (.synAdopted header received)).update (.adopt header received)) := by
  set event : Event := .synAdopted header received
  set entry : Entry := ⟨w.link, event⟩
  have hestablished : Established (w.trace ++ [entry]) ↔ Established w.trace := by
    rw [established_append_iff, or_iff_left]
    rintro ⟨other, hother, hevent⟩
    rw [List.mem_singleton.mp hother] at hevent
    cases hevent
  have hadvanced : advancedSequences (w.trace ++ [entry]) = advancedSequences w.trace := by
    rw [advancedSequences_append]
    exact List.append_nil _
  -- the number of the SYN is the one accepted last
  have hlast : lastAccepted (w.trace ++ [entry]) = some header.sequence := by
    unfold lastAccepted
    rw [lastOf_append_singleton]
    rfl
  have hhands : HandedOverOnce env (w.trace ++ [entry]) :=
    h.handedOverOnce.append_aside (by simp [entry, event, Event.payload?])
      (by simp [entry, event, Event.advanced?])
  refine ⟨?_, ?_, ?_, ?_, ?_, ?_, ?_, ?_, ?_, ?_, ?_⟩
  · exact hlast
  · have hsession := h.session
    change peerControlSession (w.trace ++ [entry]) =
      (w.link.adopt header received).peerControlSessionId
    unfold peerControlSession at hsession ⊢
    rw [lastOf_append_singleton]
    simp only [PhoneLink.adopt, entry, event, Event.controlSession?]
    cases received.sessions.find? fun session => session.type == 0 with
    | none => exact hsession
    | some session => rfl
  · intro hearly hlater
    exact h.early hearly (hestablished.mp hlater)
  · intro hnormal
    exact absurd hnormal hstate
  · intro hnot
    change ¬ Established (w.trace ++ [entry]) at hnot
    change advancedSequences (w.trace ++ [entry]) = [] ∧
      handshakeSyn (w.trace ++ [entry]) = lastAccepted (w.trace ++ [entry])
    rw [hadvanced, hlast, handshakeSyn_of_not_established hnot, lastOf_append_singleton]
    exact ⟨(h.before fun hbefore => hnot (hestablished.mpr hbefore)).1, rfl⟩
  · intro s hest hs
    replace hest : Established w.trace := hestablished.mp hest
    change handshakeSyn (w.trace ++ [entry]) = some s at hs
    rw [handshakeSyn_append_of_established hest] at hs
    change advancedSequences (w.trace ++ [entry]) =
        sequencesAfter s (advancedSequences (w.trace ++ [entry])).length ∧ _
    rw [hadvanced]
    exact ⟨(h.inOrder s hest hs).1, fun hnormal => absurd hnormal hstate⟩
  · intro hsyn
    apply truthful_append_aside (h.truthful (handshakeSyn_ne_none_of_append hsyn))
    intro other hother frame hevent
    rw [List.mem_singleton.mp hother] at hevent
    cases hevent
  · exact hhands.handedOver
  · exact hhands.exactlyOnce
  · exact hhands.delivered
  · exact hhands.advancedNormal

/-- The link becomes Normal: the SYN accepted last is the one of the handshake. -/
theorem ReceiveInvariant.establish {w : World σ} (h : ReceiveInvariant env w)
    (hstate : w.link.state = .negotiate) :
    ReceiveInvariant env ((w.record .established).update .establish) := by
  set entry : Entry := ⟨w.link, .established⟩
  have hnot : ¬ Established w.trace := h.early (Or.inr hstate)
  obtain ⟨hnone, hfirst⟩ := h.before hnot
  have hest : Established (w.trace ++ [entry]) := ⟨entry, by simp, rfl⟩
  have hadvanced : advancedSequences (w.trace ++ [entry]) = [] := by
    rw [advancedSequences_append, hnone]
    rfl
  have hlast : lastAccepted (w.trace ++ [entry]) = lastAccepted w.trace := by
    unfold lastAccepted
    rw [lastOf_append_singleton]
    rfl
  -- the history up to this event is all there was before it
  have hsyn : handshakeSyn (w.trace ++ [entry]) = handshakeSyn w.trace := by
    unfold handshakeSyn
    have hbefore : ∀ other ∈ w.trace, (!other.event.isEstablished) = true := by
      intro other hother
      by_contra hstop
      exact hnot ⟨other, hother, by simpa using hstop⟩
    unfold upTo
    rw [List.takeWhile_append_of_pos hbefore, List.takeWhile_eq_self_iff.mpr hbefore]
    simp [entry, Event.isEstablished]
  have hhands : HandedOverOnce env (w.trace ++ [entry]) :=
    h.handedOverOnce.append_aside (by simp [entry, Event.payload?]) (by simp [entry, Event.advanced?])
  refine ⟨?_, ?_, ?_, ?_, ?_, ?_, ?_, ?_, ?_, ?_, ?_⟩
  · exact hlast.trans h.accepted
  · have hsession := h.session
    change peerControlSession (w.trace ++ [entry]) = w.link.peerControlSessionId
    unfold peerControlSession at hsession ⊢
    rw [lastOf_append_singleton]
    exact hsession
  · intro hearly
    simp [PhoneLink.establish] at hearly
  · exact fun _ => hest
  · exact fun hnever => absurd hest hnever
  · intro s _ hs
    change handshakeSyn (w.trace ++ [entry]) = some s at hs
    change advancedSequences (w.trace ++ [entry]) =
        sequencesAfter s (advancedSequences (w.trace ++ [entry])).length ∧
      (_ → lastAccepted (w.trace ++ [entry]) =
        some (s + UInt8.ofNat (advancedSequences (w.trace ++ [entry])).length))
    rw [hadvanced, hlast, ← hfirst, ← hsyn, hs]
    exact ⟨rfl, fun _ => by simp⟩
  · intro _
    apply truthful_append_aside (h.truthful fun hbefore => absurd hbefore hnot)
    intro other hother frame hevent
    rw [List.mem_singleton.mp hother] at hevent
    cases hevent
  · exact hhands.handedOver
  · exact hhands.exactlyOnce
  · exact hhands.delivered
  · exact hhands.advancedNormal

/-- The next number is the one behind those of the data frames so far. -/
theorem ReceiveInvariant.next_sequence {w : World σ} (h : ReceiveInvariant env w) {sequence s : UInt8}
    (hstate : w.link.state = .normal) (hs : handshakeSyn w.trace = some s)
    (hnext : w.link.lastSequenceValid = true → sequence = w.link.lastReceivedSequence + 1) :
    sequence = s + UInt8.ofNat ((advancedSequences w.trace).length + 1) := by
  have haccepted := h.accepted
  rw [(h.inOrder s (h.normal hstate) hs).2 hstate] at haccepted
  -- the receive state is known: a number was accepted last
  have hvalid : w.link.lastSequenceValid = true := by
    by_contra hvalid
    rw [if_neg hvalid] at haccepted
    cases haccepted
  rw [if_pos hvalid, Option.some.injEq] at haccepted
  rw [hnext hvalid, ← haccepted, UInt8.ofNat_add]
  exact UInt8.add_assoc _ _ _

/-- A data frame with the next number advances the receive state and is handed over
when it belongs to the control session. -/
theorem ReceiveInvariant.advance {w : World σ} (h : ReceiveInvariant env w) (header : Header)
    (payload : Bytes) (hstate : w.link.state = .normal)
    (hnext : w.link.lastSequenceValid = true →
      header.sequence = w.link.lastReceivedSequence + 1)
    (hhandling : Handling header payload w) :
    ReceiveInvariant env (acceptData env header payload w) := by
  rw [acceptData_eq]
  set handedOver : List Entry :=
    if env.controlData.isSome ∧ header.sessionId = w.link.peerControlSessionId then
      [⟨w.link.advance header.sequence, .delivered payload⟩]
    else [] with hhandedOver
  set advanced : Entry := ⟨w.link, .advanced header payload⟩
  have hest : Established w.trace := h.normal hstate
  -- either the callback gets the payload right away, or it is not meant for it
  have hcases : handedOver = [] ∧
        ¬ (env.controlData.isSome ∧ header.sessionId = w.link.peerControlSessionId) ∨
      handedOver = [⟨w.link.advance header.sequence, .delivered payload⟩] ∧
        header.sessionId = w.link.peerControlSessionId := by
    by_cases hsession : env.controlData.isSome ∧ header.sessionId = w.link.peerControlSessionId
    · rw [if_pos hsession] at hhandedOver
      exact Or.inr ⟨hhandedOver, hsession.2⟩
    · rw [if_neg hsession] at hhandedOver
      exact Or.inl ⟨hhandedOver, hsession⟩
  have hrest (entry : Entry) (hentry : entry ∈ handedOver) :
      entry.event = .delivered payload := by
    rcases hcases with ⟨hnone, -⟩ | ⟨hone, -⟩
    · simp [hnone] at hentry
    · simp only [hone, List.mem_singleton] at hentry
      rw [hentry]
  have hlast : lastAccepted (w.trace ++ advanced :: handedOver) = some header.sequence := by
    unfold lastAccepted
    change lastOf _ (w.trace ++ ([advanced] ++ handedOver)) = _
    rw [← List.append_assoc, lastOf_append_of_none, lastOf_append_singleton]
    · rfl
    · intro entry hentry
      rw [hrest entry hentry]
      rfl
  have hsequences : advancedSequences (w.trace ++ advanced :: handedOver) =
      advancedSequences w.trace ++ [header.sequence] := by
    rw [advancedSequences_append]
    rcases hcases with ⟨hnone, -⟩ | ⟨hone, -⟩
    · rw [hnone]
      rfl
    · rw [hone]
      rfl
  have hhands : HandedOverOnce env (w.trace ++ advanced :: handedOver) := by
    obtain ⟨earlier, before, htrace, -⟩ := hhandling
    rcases hcases with ⟨hnone, hother⟩ | ⟨hone, hsession⟩
    · rw [hnone]
      exact h.handedOverOnce.append_advanced ⟨earlier, before, htrace⟩ h.session hstate hother
    · rw [hone]
      exact h.handedOverOnce.append_delivered ⟨earlier, before, htrace⟩ h.session hstate hsession
  refine ⟨?_, ?_, ?_, ?_, ?_, ?_, ?_, ?_, ?_, ?_, ?_⟩
  · exact hlast
  · have hsession := h.session
    change peerControlSession (w.trace ++ advanced :: handedOver) =
      w.link.peerControlSessionId
    rw [← hsession]
    unfold peerControlSession
    rw [lastOf_append_of_none]
    intro entry hentry
    rcases List.mem_cons.mp hentry with rfl | hentry
    · rfl
    · rw [hrest entry hentry]
      rfl
  · intro hearly
    change w.link.state = .detect ∨ w.link.state = .negotiate at hearly
    simp [hstate] at hearly
  · exact fun _ => hest.append _
  · exact fun hnever => absurd (hest.append _) hnever
  · intro s _ hs
    change handshakeSyn (w.trace ++ advanced :: handedOver) = some s at hs
    rw [handshakeSyn_append_of_established hest] at hs
    have hold := (h.inOrder s hest hs).1
    have hsequence := h.next_sequence env hstate hs hnext
    set count := (advancedSequences w.trace).length with hcount
    have hlength : (advancedSequences w.trace ++ [header.sequence]).length = count + 1 := by
      rw [List.length_append]
      rfl
    change advancedSequences (w.trace ++ advanced :: handedOver) =
        sequencesAfter s (advancedSequences (w.trace ++ advanced :: handedOver)).length ∧
      (_ → lastAccepted (w.trace ++ advanced :: handedOver) =
        some (s + UInt8.ofNat (advancedSequences (w.trace ++ advanced :: handedOver)).length))
    rw [hlast, hsequences, hlength, sequencesAfter_succ, ← hold, ← hsequence]
    exact ⟨rfl, fun _ => rfl⟩
  · intro hsyn
    apply truthful_append_aside (h.truthful (handshakeSyn_ne_none_of_append hsyn))
    intro entry hentry frame hevent
    rcases List.mem_cons.mp hentry with rfl | hentry
    · cases hevent
    · rw [hrest entry hentry] at hevent
      cases hevent
  · exact hhands.handedOver
  · exact hhands.exactlyOnce
  · exact hhands.delivered
  · exact hhands.advancedNormal

/-! ## Runs -/

theorem ReceiveInvariant.step {w w' : World σ} (h : ReceiveInvariant env w)
    (hstep : Step env w w') : ReceiveInvariant env w' := by
  cases hstep with
  | bookkeeping buffer nextMarker nextSyn app =>
      exact h.quiet env (.still rfl rfl rfl rfl (Or.inl rfl))
  | die buffer => exact h.quiet env (.still rfl rfl rfl rfl (Or.inr (Or.inl rfl)))
  | abandon => exact h.quiet env (.still rfl rfl rfl rfl (Or.inr (Or.inl rfl)))
  | reset header payload hrst =>
      exact h.quiet env (.neutral (.packet header payload) rfl rfl rfl rfl rfl
        (Or.inr rfl))
  | packet header payload hrst =>
      have hlink : (w.link.acknowledge header).lastSequenceValid = w.link.lastSequenceValid ∧
          (w.link.acknowledge header).lastReceivedSequence = w.link.lastReceivedSequence ∧
          (w.link.acknowledge header).peerControlSessionId = w.link.peerControlSessionId := by
        unfold PhoneLink.acknowledge
        split <;> exact ⟨rfl, rfl, rfl⟩
      exact h.quiet env (.neutral (.packet header payload) rfl rfl hlink.1 hlink.2.1
        hlink.2.2 (Or.inl (acknowledge_state header w.link)))
  | openSyn hstate =>
      have hsession (link : PhoneLink) :
          link.openSyn.peerControlSessionId = link.peerControlSessionId := by
        unfold PhoneLink.openSyn
        split <;> rfl
      refine h.quiet env (.still rfl ?_ ?_ ?_ (Or.inr (Or.inr ⟨?_, ?_, ?_⟩)))
      · exact openSyn_lastSequenceValid _
      · exact openSyn_lastReceivedSequence _
      · exact hsession _
      · rcases hstate with hs | hs <;> simp [hs]
      · rcases hstate with hs | hs <;> simp [hs]
      · exact openSyn_state _
  | encodeSyn control hstate hopen hcontrol =>
      refine h.quiet env (.encoded fun hack => ?_)
      rcases hcontrol with rfl | ⟨-, hvalid⟩
      · exact absurd (by decide) hack
      · exact Or.inl hvalid
  | encodeAck hstate => exact h.quiet env (.encoded fun _ => hstate.symm)
  | transmit frame hoffered halive =>
      exact h.quiet env (.neutral (.sent frame _) rfl rfl rfl rfl rfl (Or.inl rfl))
  | queue payload hrefuses =>
      obtain ⟨added, hquiet⟩ := Quiet.queue env hrefuses
      exact h.quiet env hquiet
  | answer accepted haccepted =>
      exact h.quiet env (.neutral (.answered accepted) rfl rfl rfl rfl rfl (Or.inl rfl))
  | retime pending hpending => exact h.quiet env (.still rfl rfl rfl rfl (Or.inl rfl))
  | adopt header payload received hstate => exact h.adopt env header received hstate
  | establish header payload hstate => exact h.establish env hstate
  | advance header payload hstate hnext hdata hhandling =>
      exact h.advance env header payload hstate hnext hhandling
  | callbackReturned =>
      exact h.quiet env (.neutral .callbackReturned rfl rfl rfl rfl rfl (Or.inl rfl))

theorem receiveInvariant_run (app : σ) (inputs : List Input) :
    ReceiveInvariant env (run env app inputs) :=
  run_invariant env (receiveInvariant_fresh env app) (fun _ _ h hstep => h.step env hstep) inputs

/-- Reception on a link whose handshake started from the peer's number `s`. -/
structure InOrderDelivery (s : UInt8) (w : World σ) : Prop where
  /-- The receive state advances by the numbers after `s`, each once and in order. -/
  inOrder : advancedSequences w.trace = sequencesAfter s (advancedSequences w.trace).length
  /-- What is handed over is what advanced the receive state on the control session. -/
  exactlyOnce : env.controlData.isSome = true → w.deliveries = controlPayloads w.trace
  handedOver : env.controlData.isSome = true → AtEach HandedOverAt w.trace
  delivered : AtEach DeliveredAt w.trace
  advancedNormal : AtEach AdvancedNormalAt w.trace
  truthful : AtEach TruthfulAt w.trace

theorem inOrderDelivery_run (app : σ) (inputs : List Input) (s : UInt8)
    (hsyn : handshakeSyn (run env app inputs).trace = some s) :
    InOrderDelivery env s (run env app inputs) := by
  have h := receiveInvariant_run env app inputs
  have hsome : handshakeSyn (run env app inputs).trace ≠ none := by simp [hsyn]
  refine ⟨?_, h.exactlyOnce, h.handedOver, h.delivered, h.advancedNormal,
    h.truthful fun _ => hsome⟩
  by_cases hest : Established (run env app inputs).trace
  · exact (h.inOrder s hest hsyn).1
  · rw [(h.before hest).1]
    rfl

theorem inOrderDelivery_handshakeThenData :
    handshakeSyn (run (Env.accepting (some replyOnce)) () handshakeThenData).trace = some 3 ∧
      InOrderDelivery (Env.accepting (some replyOnce)) 3
        (run (Env.accepting (some replyOnce)) () handshakeThenData) :=
  have hsyn : handshakeSyn (run (Env.accepting (some replyOnce)) () handshakeThenData).trace =
      some 3 := by decide +kernel
  ⟨hsyn, inOrderDelivery_run _ () handshakeThenData 3 hsyn⟩

/-- In that run the one data frame is handed over. -/
example : (run (Env.accepting (some replyOnce)) () handshakeThenData).deliveries = [[7]] := by
  decide +kernel

end Iap2
end Aa2acp
