import Aa2acp.Iap2.LinkSteps
import Aa2acp.Lib.SerialNumber
import Mathlib.Data.UInt

/-!
# The send window

While the peer's acknowledgements name numbers of the window, the messages that wait
for one form a contiguous run of sequence numbers that ends at the last one sent and
is at most half the number range long, so the signed comparison of `acknowledged_by`
removes exactly a prefix of them.
-/

namespace Aa2acp
namespace Iap2

open SerialNumber

variable {σ : Type} (env : Env σ)

/-! ## Sequence numbers -/

instance : SerialNumber UInt8 where
  half := 128
  number := UInt8.ofNat
  value := UInt8.toNat
  number_add := fun a b => UInt8.ofNat_add a b
  value_number := fun n => by simp
  number_value := fun s => by simp

theorem toInt8_nonneg_iff (x : UInt8) : 0 ≤ x.toInt8 ↔ x.toNat < 128 := by
  have hsigned : x.toInt8.toInt = x.toBitVec.toInt := rfl
  have hunsigned : x.toBitVec.toNat = x.toNat := rfl
  have hzero : (0 : Int8).toInt = 0 := rfl
  have hlt := x.toNat_lt
  rw [Int8.le_iff_toInt_le, hsigned, hzero, BitVec.toInt_eq_toNat_cond, hunsigned]
  by_cases h : 2 * x.toNat < 2 ^ 8
  · rw [if_pos h]
    omega
  · rw [if_neg h]
    omega

/-- The signed comparison is the half-range one. -/
theorem acknowledgedBy_eq_reached (sequence acknowledgement : UInt8) :
    acknowledgedBy sequence acknowledgement = reached sequence acknowledgement := by
  show decide (0 ≤ (acknowledgement - sequence).toInt8) =
    decide ((acknowledgement - sequence).toNat < 128)
  exact decide_eq_decide.mpr (toInt8_nonneg_iff _)

/-! ## Acknowledgements within the window -/

/-- The acknowledgement number lies between the one before the oldest pending message
and the last one sent, modulo 256. -/
def AckInWindow (link : PhoneLink) (header : Header) : Prop :=
  ∀ oldest ∈ link.pending.head?,
    header.acknowledgement - (oldest.sequence - 1) ≤ link.sentSequence - (oldest.sequence - 1)

instance (link : PhoneLink) (header : Header) : Decidable (AckInWindow link header) := by
  unfold AckInWindow
  infer_instance

/-- An ACK-flagged frame that finds messages pending names a number of the window. -/
def Entry.ackInWindow (entry : Entry) : Bool :=
  match entry.event with
  | .packet header _ =>
      decide (header.control &&& kControlAck ≠ 0 → AckInWindow entry.link header)
  | _ => true

def AcksInWindow (trace : List Entry) : Prop := ∀ entry ∈ trace, entry.ackInWindow = true

instance : DecidablePred AcksInWindow := fun _ => List.decidableBAll _ _

theorem AcksInWindow.of_append {trace added : List Entry} (h : AcksInWindow (trace ++ added)) :
    AcksInWindow trace :=
  fun entry hentry => h entry (List.mem_append_left _ hentry)

/-! ## The window -/

def PhoneLink.pendingSequences (link : PhoneLink) : List UInt8 :=
  link.pending.map PendingMessage.sequence

/-- The sequence number of the oldest of `count` messages up to the last one sent. -/
def PhoneLink.oldest (link : PhoneLink) : UInt8 :=
  link.sentSequence + 1 - number link.pending.length

/-- The messages that wait for an acknowledgement are the last ones sent, as many as
the peer's window allows and none longer than a frame may be. -/
structure Window (link : PhoneLink) : Prop where
  contiguous : link.pendingSequences = consecutive link.oldest link.pending.length
  bounded : link.pending.length ≤ link.lsp.maxOutgoing.toNat
  frames : ∀ message ∈ link.pending, message.frame.length ≤ link.lsp.maxLen.toNat

theorem window_of_empty {link : PhoneLink} (h : link.pending = []) : Window link where
  contiguous := by simp [PhoneLink.pendingSequences, h]
  bounded := by simp [h]
  frames := by simp [h]

/-- A link whose window and parameters are those of another. -/
theorem Window.congr {link link' : PhoneLink} (h : Window link)
    (hpending : link'.pending = link.pending) (hsent : link'.sentSequence = link.sentSequence)
    (hlsp : link'.lsp = link.lsp) : Window link' where
  contiguous := by
    unfold PhoneLink.pendingSequences PhoneLink.oldest
    rw [hpending, hsent]
    exact h.contiguous
  bounded := by
    rw [hpending, hlsp]
    exact h.bounded
  frames := by
    rw [hpending, hlsp]
    exact h.frames

theorem Window.length_le {link : PhoneLink} (h : Window link) (hlimit : link.lsp.maxOutgoing ≤ 128) :
    link.pending.length ≤ 128 :=
  h.bounded.trans (UInt8.le_iff_toNat_le.mp hlimit)

/-- One more message with the next sequence number. -/
theorem Window.queue {link : PhoneLink} (h : Window link) {frame : Bytes} (deadline : TimePoint)
    (hroom : link.pending.length < link.lsp.maxOutgoing.toNat)
    (hframe : frame.length ≤ link.lsp.maxLen.toNat) :
    Window { link with
      sentSequence := link.sentSequence + 1
      pending := link.pending ++ [⟨link.sentSequence + 1, frame, deadline, 0⟩] } := by
  have holdest : link.sentSequence + 1 + 1 - number (link.pending.length + 1) = link.oldest := by
    unfold PhoneLink.oldest
    rw [number_add]
    exact add_sub_add_right_eq_sub _ _ _
  refine ⟨?_, ?_, ?_⟩
  · unfold PhoneLink.pendingSequences PhoneLink.oldest
    have hcontiguous := h.contiguous
    unfold PhoneLink.pendingSequences at hcontiguous
    rw [List.map_append, List.length_append, List.length_singleton, hcontiguous, holdest,
      consecutive_succ]
    have hlast : link.oldest + number link.pending.length = link.sentSequence + 1 :=
      sub_add_cancel _ _
    rw [hlast]
    rfl
  · rw [List.length_append, List.length_singleton]
    exact hroom
  · intro message hmessage
    rcases List.mem_append.mp hmessage with hold | hnew
    · exact h.frames message hold
    · rw [List.mem_singleton.mp hnew]
      exact hframe

/-- Retransmissions change neither the sequence numbers nor the frames. -/
theorem Window.retime {link : PhoneLink} (h : Window link) {pending : List PendingMessage}
    (hidentity : pending.map PendingMessage.identity =
      link.pending.map PendingMessage.identity) :
    Window { link with pending := pending } := by
  have hlength : pending.length = link.pending.length := by
    have hlengths := congrArg List.length hidentity
    simpa using hlengths
  have hsequences : pending.map PendingMessage.sequence = link.pendingSequences := by
    have hfirst := congrArg (List.map Prod.fst) hidentity
    simpa [PendingMessage.identity, PhoneLink.pendingSequences, Function.comp_def] using hfirst
  refine ⟨?_, ?_, ?_⟩
  · show pending.map PendingMessage.sequence =
      consecutive (link.sentSequence + 1 - number pending.length) pending.length
    rw [hsequences, hlength]
    exact h.contiguous
  · show pending.length ≤ link.lsp.maxOutgoing.toNat
    rw [hlength]
    exact h.bounded
  · intro message hmessage
    have hmem : message.identity ∈ link.pending.map PendingMessage.identity := by
      rw [← hidentity]
      exact List.mem_map_of_mem hmessage
    obtain ⟨original, horiginal, heq⟩ := List.mem_map.mp hmem
    have hframe : original.frame = message.frame := congrArg Prod.snd heq
    rw [← hframe]
    exact h.frames original horiginal

/-! ## Cumulative acknowledgements -/

/-- The pending messages that `kept` lacks are those up to and including the one
`number` names. -/
def RemovesNamed (pending kept : List PendingMessage) (number : UInt8) : Prop :=
  ∃ removed, pending = removed ++ kept ∧
    (∀ last ∈ removed.getLast?, last.sequence = number) ∧
      ∀ message ∈ kept, message.sequence ≠ number

theorem acknowledge_pending {header : Header} (hack : header.control &&& kControlAck ≠ 0)
    (link : PhoneLink) :
    (link.acknowledge header).pending = link.pending.filter fun message =>
      !acknowledgedBy message.sequence header.acknowledgement := by
  unfold PhoneLink.acknowledge
  by_cases hpending : link.pending = []
  · rw [if_neg (fun h => h.2 hpending), hpending]
    rfl
  · rw [if_pos ⟨hack, hpending⟩]

theorem acknowledge_of_not_ack {header : Header} (hack : header.control &&& kControlAck = 0)
    (link : PhoneLink) : link.acknowledge header = link := by
  unfold PhoneLink.acknowledge
  rw [if_neg (fun h => h.1 hack)]

/-- The sequence number at an index of the window. -/
theorem Window.sequence_getElem {link : PhoneLink} (h : Window link) {index : ℕ}
    (hindex : index < link.pending.length) :
    link.pending[index].sequence = link.oldest + number index := by
  have hget := congrArg (·[index]?) h.contiguous
  simpa [PhoneLink.pendingSequences, consecutive, hindex] using hget

/-- A number of the window is some count of messages past the one before the oldest. -/
theorem Window.position {link : PhoneLink} (h : Window link)
    (hlimit : link.lsp.maxOutgoing ≤ 128) {header : Header} (hin : AckInWindow link header)
    (hpending : link.pending ≠ []) :
    ∃ m ≤ link.pending.length,
      header.acknowledgement + number 1 = link.oldest + number m := by
  have hlength := h.length_le hlimit
  obtain ⟨first, rest, hcons⟩ := List.exists_cons_of_ne_nil hpending
  have hfirst : first.sequence = link.oldest := by
    have hget := h.sequence_getElem (show 0 < link.pending.length by simp [hcons])
    simp only [hcons, List.getElem_cons_zero, number_zero, add_zero] at hget
    exact hget
  have hbetween := hin first (by simp [hcons])
  rw [hfirst] at hbetween
  set low := link.oldest - 1 with hlow
  have hspan : link.sentSequence - low = number link.pending.length := by
    have hone : link.oldest + number link.pending.length = link.sentSequence + 1 :=
      sub_add_cancel _ _
    calc link.sentSequence - low
        = link.sentSequence + 1 - link.oldest := by rw [hlow]; abel
      _ = link.oldest + number link.pending.length - link.oldest := by rw [hone]
      _ = number link.pending.length := add_sub_cancel_left _ _
  refine ⟨value (header.acknowledgement - low), ?_, ?_⟩
  · have hle : value (header.acknowledgement - low) ≤ value (link.sentSequence - low) :=
      UInt8.le_iff_toNat_le.mp hbetween
    rw [hspan, value_number_of_lt (show link.pending.length < 2 * 128 by omega)] at hle
    exact hle
  · rw [number_value, hlow]
    show header.acknowledgement + 1 = link.oldest + (header.acknowledgement - (link.oldest - 1))
    abel

/-- An acknowledgement that names a number of the window leaves the rest of the
window. -/
theorem Window.acknowledge {link : PhoneLink} (h : Window link)
    (hlimit : link.lsp.maxOutgoing ≤ 128) {header : Header}
    (hin : header.control &&& kControlAck ≠ 0 → AckInWindow link header) :
    ∃ m ≤ link.pending.length, (link.acknowledge header).pending = link.pending.drop m ∧
      (header.control &&& kControlAck ≠ 0 → link.pending ≠ [] →
        header.acknowledgement + number 1 = link.oldest + number m) := by
  have hlength := h.length_le hlimit
  by_cases hack : header.control &&& kControlAck = 0
  · refine ⟨0, Nat.zero_le _, ?_, fun hack' => absurd hack hack'⟩
    rw [acknowledge_of_not_ack hack, List.drop_zero]
  · by_cases hpending : link.pending = []
    · refine ⟨0, Nat.zero_le _, ?_, fun _ hne => absurd hpending hne⟩
      rw [acknowledge_pending hack, hpending]
      rfl
    · obtain ⟨m, hm, hmark⟩ := h.position hlimit (hin hack) hpending
      refine ⟨m, hm, ?_, fun _ _ => hmark⟩
      rw [acknowledge_pending hack]
      simp only [acknowledgedBy_eq_reached]
      exact filter_not_reached PendingMessage.sequence h.contiguous hlength hm hmark

/-- The window after its first `m` messages were acknowledged. -/
theorem Window.drop {link : PhoneLink} (h : Window link) {m : ℕ}
    (hm : m ≤ link.pending.length) : Window { link with pending := link.pending.drop m } := by
  obtain ⟨rest, hrest⟩ := Nat.exists_eq_add_of_le hm
  have hlength : (link.pending.drop m).length = rest := by
    rw [List.length_drop]
    omega
  have holdest : link.sentSequence + 1 - number rest = link.oldest + number m := by
    unfold PhoneLink.oldest
    rw [hrest, number_add]
    abel
  refine ⟨?_, ?_, ?_⟩
  · show (link.pending.drop m).map PendingMessage.sequence =
      consecutive (link.sentSequence + 1 - number (link.pending.drop m).length)
        (link.pending.drop m).length
    have hcontiguous := h.contiguous
    unfold PhoneLink.pendingSequences at hcontiguous
    rw [List.map_drop, hcontiguous, hlength, holdest, hrest, consecutive_add]
    exact List.drop_left' (length_consecutive _ _)
  · show (link.pending.drop m).length ≤ link.lsp.maxOutgoing.toNat
    have hbounded := h.bounded
    omega
  · intro message hmessage
    exact h.frames message (List.mem_of_mem_drop hmessage)

/-- An acknowledgement removes the messages up to the one it names. -/
theorem Window.removesNamed {link : PhoneLink} (h : Window link)
    (hlimit : link.lsp.maxOutgoing ≤ 128) {header : Header}
    (hack : header.control &&& kControlAck ≠ 0) (hin : AckInWindow link header) :
    RemovesNamed link.pending (link.acknowledge header).pending header.acknowledgement := by
  have hlength := h.length_le hlimit
  obtain ⟨m, hm, hkept, hmark⟩ := h.acknowledge hlimit fun _ => hin
  rw [hkept]
  refine ⟨link.pending.take m, (List.take_append_drop m _).symm, ?_, ?_⟩
  · intro last hlast
    have hlast' : (link.pending.take m)[m - 1]? = some last := by
      have hcount : (link.pending.take m).length = m := by
        rw [List.length_take]
        omega
      rw [Option.mem_def, List.getLast?_eq_getElem?, hcount] at hlast
      exact hlast
    obtain ⟨hindex, hget⟩ := List.getElem?_eq_some_iff.mp hlast'
    rw [List.length_take] at hindex
    rw [List.getElem_take] at hget
    have hpending : link.pending ≠ [] := by
      intro hnil
      simp [hnil] at hindex
    have hsequence : last.sequence = link.oldest + number (m - 1) := by
      rw [← hget]
      exact h.sequence_getElem (by omega)
    have hnext : last.sequence + number 1 = header.acknowledgement + number 1 := by
      rw [hmark hack hpending, hsequence, add_assoc, ← number_add]
      congr 2
      omega
    exact add_right_cancel hnext
  · intro message hmessage
    obtain ⟨index, hindex, rfl⟩ := List.getElem_of_mem hmessage
    rw [List.length_drop] at hindex
    have hpending : link.pending ≠ [] := by
      intro hnil
      simp [hnil] at hindex
    have hsequence : (link.pending.drop m)[index].sequence =
        header.acknowledgement + number (index + 1) := by
      rw [List.getElem_drop, h.sequence_getElem (by omega), number_add, ← add_assoc,
        ← hmark hack hpending, number_add]
      abel
    rw [hsequence]
    exact add_number_ne _ (by omega) (show index + 1 < 2 * 128 by omega)

/-! ## The invariant -/

/-- A frame with a payload and neither SYN nor RST. -/
def isDataFrame (frame : Bytes) : Bool :=
  decide (frame.length > 9 ∧ frame.getD 4 0 &&& ~~~kControlAck = 0)

/-- The data frames that an entry encodes or sends respect the peer's frame limit. -/
def Entry.WithinMaxLen (entry : Entry) : Prop :=
  ∀ frame, (entry.event = .encoded frame ∨ ∃ accepted, entry.event = .sent frame accepted) →
    isDataFrame frame = true → frame.length ≤ entry.link.lsp.maxLen.toNat

/-- An acknowledgement that a live link handles removes exactly the messages up to and
including the one it names. -/
def Entry.RemovesNamed (entry : Entry) : Prop :=
  ∀ header payload, entry.event = .packet header payload →
    header.control &&& kControlAck ≠ 0 → header.control &&& kControlRst = 0 →
      entry.link.state ≠ .dead →
        Iap2.RemovesNamed entry.link.pending (entry.link.acknowledge header).pending
          header.acknowledgement

structure WindowInvariant (w : World σ) : Prop where
  early : PendingEstablished w
  limit : w.link.lsp.maxOutgoing ≤ 128
  window : w.link.state ≠ .dead → Window w.link
  fits : ∀ entry ∈ w.trace, entry.WithinMaxLen
  removes : ∀ entry ∈ w.trace, entry.RemovesNamed

theorem WindowInvariant.keep {w w' : World σ} (h : WindowInvariant w) {added : List Entry}
    (htrace : w'.trace = w.trace ++ added) (hearly : PendingEstablished w')
    (hlimit : w'.link.lsp.maxOutgoing ≤ 128)
    (hwindow : w'.link.state ≠ .dead → Window w'.link)
    (hfits : ∀ entry ∈ added, entry.WithinMaxLen)
    (hremoves : ∀ entry ∈ added, entry.RemovesNamed) : WindowInvariant w' := by
  refine ⟨hearly, hlimit, hwindow, ?_, ?_⟩
  · rw [htrace]
    intro entry hentry
    rcases List.mem_append.mp hentry with hold | hnew
    · exact h.fits entry hold
    · exact hfits entry hnew
  · rw [htrace]
    intro entry hentry
    rcases List.mem_append.mp hentry with hold | hnew
    · exact h.removes entry hold
    · exact hremoves entry hnew

/-- An event that neither carries a frame nor handles one. -/
def Event.frameless : Event → Bool
  | .encoded _ | .sent _ _ | .packet _ _ => false
  | _ => true

theorem Event.frameless_within {event : Event} (h : event.frameless = true) (link : PhoneLink) :
    (⟨link, event⟩ : Entry).WithinMaxLen := by
  rintro frame (hevent | ⟨accepted, hevent⟩) _
  · dsimp only at hevent
    rw [hevent] at h
    cases h
  · dsimp only at hevent
    rw [hevent] at h
    cases h

theorem removesNamed_of_not_packet {entry : Entry}
    (h : ∀ header payload, entry.event ≠ .packet header payload) : entry.RemovesNamed :=
  fun header payload hevent => absurd hevent (h header payload)

/-- A frame without data that is encoded. -/
theorem within_encoded {link : PhoneLink} {frame : Bytes} (h : isDataFrame frame = false) :
    (⟨link, .encoded frame⟩ : Entry).WithinMaxLen := by
  rintro other (hevent | ⟨accepted, hevent⟩) hdata
  · cases hevent
    rw [h] at hdata
    cases hdata
  · cases hevent

theorem isDataFrame_encodePacket {link : PhoneLink} {payload : Bytes}
    {sequence control sessionId : UInt8}
    (h : isDataFrame (encodePacket link payload sequence control sessionId) = true) :
    payload ≠ [] ∧ control &&& ~~~kControlAck = 0 := by
  simp only [isDataFrame, decide_eq_true_eq] at h
  obtain ⟨hlength, hcontrol⟩ := h
  by_cases hfits : payload.length ≤ 65525
  · rw [encodePacket_of_fits link hfits] at hlength hcontrol
    rw [(encodeFrame_fields control sequence link.lastReceivedSequence sessionId payload).1]
      at hcontrol
    refine ⟨?_, hcontrol⟩
    rintro rfl
    rw [length_encodeFrame_nil] at hlength
    omega
  · have hempty : encodePacket link payload sequence control sessionId = [] := by
      unfold encodePacket
      rw [if_pos]
      refine ⟨?_, by omega⟩
      rintro rfl
      simp at hfits
    rw [hempty] at hlength
    simp at hlength

theorem not_isDataFrame_syn {link : PhoneLink} {payload : Bytes} {sequence control : UInt8}
    (hcontrol : control = kControlSyn ∨ control = kControlSyn ||| kControlAck) :
    isDataFrame (encodePacket link payload sequence control 0) = false := by
  by_contra hdata
  rw [Bool.not_eq_false] at hdata
  have hsyn := (isDataFrame_encodePacket hdata).2
  rcases hcontrol with rfl | rfl
  · exact absurd hsyn (by decide)
  · exact absurd hsyn (by decide)

theorem not_isDataFrame_ack {link : PhoneLink} {sequence : UInt8} :
    isDataFrame (encodePacket link [] sequence kControlAck 0) = false := by
  by_contra hdata
  rw [Bool.not_eq_false] at hdata
  exact (isDataFrame_encodePacket hdata).1 rfl

/-- What a live or dead link may offer outside `send_control` respects the limit. -/
theorem WindowInvariant.offered {w : World σ} (h : WindowInvariant w) {frame : Bytes}
    (hoffered : Offered w frame) (accepted : Bool) :
    (⟨w.link, .sent frame accepted⟩ : Entry).WithinMaxLen := by
  rintro other (hevent | ⟨accepted', hevent⟩) hdata
  · cases hevent
  · cases hevent
    rcases hoffered with rfl | ⟨earlier, htrace⟩ | ⟨halive, message, hmessage, rfl⟩
    · exact absurd hdata (by decide)
    · have hmem : (⟨w.link, .encoded frame⟩ : Entry) ∈ w.trace := by simp [htrace]
      exact h.fits _ hmem frame (Or.inl rfl) hdata
    · exact (h.window halive).frames message hmessage

/-- The frame of a message that `send_control` takes respects the limit. -/
theorem length_queued {link : PhoneLink} {payload : Bytes} (h : refusesControl link payload = false)
    (sequence control sessionId : UInt8) :
    (encodePacket link payload sequence control sessionId).length ≤ link.lsp.maxLen.toNat := by
  obtain ⟨-, hne, hmin, hlen, -⟩ := refusesControl_eq_false h
  rw [length_encodePacket link hne (refusesControl_fits h)]
  omega

theorem WindowInvariant.queue {payload : Bytes} {w : World σ} (h : WindowInvariant w)
    (hrefuses : refusesControl w.link payload = false)
    (hearly : PendingEstablished (queueControl env payload w).2) :
    WindowInvariant (queueControl env payload w).2 := by
  obtain ⟨hnormal, -, -, -, hroom⟩ := refusesControl_eq_false hrefuses
  have hlength := length_queued hrefuses (w.link.sentSequence + 1) kControlAck
    w.link.peerControlSessionId
  have hwithin (link : PhoneLink) (frame : Bytes) (event : Event) (hlsp : link.lsp = w.link.lsp)
      (hframe : frame.length ≤ w.link.lsp.maxLen.toNat)
      (hevent : event = .encoded frame ∨ ∃ accepted, event = .sent frame accepted) :
      (⟨link, event⟩ : Entry).WithinMaxLen := by
    rintro other hother _
    -- both events carry the frame that was encoded
    have hsame : other = frame := by
      rcases hevent with rfl | ⟨accepted, rfl⟩ <;> rcases hother with hother | ⟨_, hother⟩ <;>
        cases hother
      · rfl
      · rfl
    rw [hsame]
    show frame.length ≤ link.lsp.maxLen.toNat
    rw [hlsp]
    exact hframe
  have halive : w.link.state ≠ .dead := by simp [hnormal]
  rcases queueControl_cases env payload w with
    ⟨frame, deadline, hframe, hqueue⟩ | ⟨frame, sent, hframe, hsent, hqueue⟩
  · rw [hqueue] at hearly ⊢
    rw [← hframe] at hlength
    refine h.keep rfl hearly h.limit ?_ ?_ ?_
    · intro _
      exact (h.window halive).queue deadline hroom hlength
    · intro entry hentry
      simp only [List.mem_cons, List.not_mem_nil, or_false] at hentry
      rcases hentry with rfl | rfl
      · exact hwithin _ frame _ rfl hlength (Or.inl rfl)
      · exact hwithin _ frame _ rfl hlength (Or.inr ⟨true, rfl⟩)
    · intro entry hentry
      simp only [List.mem_cons, List.not_mem_nil, or_false] at hentry
      refine removesNamed_of_not_packet fun header payload hevent => ?_
      rcases hentry with rfl | rfl <;> cases hevent
  · rw [hqueue] at hearly ⊢
    rw [← hframe] at hlength
    refine h.keep rfl hearly h.limit ?_ ?_ ?_
    -- the transport refused, and the link is dead
    · exact fun hnot => absurd rfl hnot
    · intro entry hentry
      rcases List.mem_cons.mp hentry with rfl | hentry
      · exact hwithin _ frame _ rfl hlength (Or.inl rfl)
      · rcases hsent with ⟨-, rfl⟩ | ⟨-, rfl⟩
        · simp at hentry
        · rw [List.mem_singleton.mp hentry]
          exact hwithin _ frame _ rfl hlength (Or.inr ⟨false, rfl⟩)
    · intro entry hentry
      refine removesNamed_of_not_packet fun header payload hevent => ?_
      rcases List.mem_cons.mp hentry with rfl | hentry
      · cases hevent
      · rcases hsent with ⟨-, rfl⟩ | ⟨-, rfl⟩
        · simp at hentry
        · rw [List.mem_singleton.mp hentry] at hevent
          cases hevent

/-- A frame that is handled is not one that is sent. -/
theorem packet_within (link : PhoneLink) (header : Header) (payload : Bytes) :
    (⟨link, .packet header payload⟩ : Entry).WithinMaxLen := by
  rintro frame (hevent | ⟨accepted, hevent⟩) _
  · cases hevent
  · cases hevent

/-- A frame is handled: its acknowledgement takes a prefix off the window. -/
theorem WindowInvariant.packet {w : World σ} (h : WindowInvariant w) {header : Header}
    {payload : Bytes}
    (hin : header.control &&& kControlAck ≠ 0 → AckInWindow w.link header)
    (hearly : PendingEstablished
      ((w.record (.packet header payload)).update (.acknowledge header))) :
    WindowInvariant ((w.record (.packet header payload)).update (.acknowledge header)) := by
  obtain ⟨pending, hpending⟩ := acknowledge_fields header w.link
  refine h.keep rfl hearly ?_ ?_ ?_ ?_
  · rw [World.update_link, World.record_link, hpending]
    exact h.limit
  · intro halive
    rw [World.update_link, World.record_link, acknowledge_state] at halive
    have hwindow := h.window halive
    obtain ⟨m, hm, hkept, -⟩ := hwindow.acknowledge h.limit hin
    rw [World.update_link, World.record_link, hpending]
    rw [hpending] at hkept
    have hkept : pending = w.link.pending.drop m := hkept
    rw [hkept]
    exact hwindow.drop hm
  · intro entry hentry
    rw [List.mem_singleton.mp hentry]
    exact packet_within w.link header payload
  · intro entry hentry
    rw [List.mem_singleton.mp hentry]
    intro header' payload' hevent hack _ halive
    cases hevent
    exact (h.window halive).removesNamed h.limit hack (hin hack)

/-! ## Runs -/

/-- A step with at most one event, which carries no frame. -/
theorem WindowInvariant.quiet {w w' : World σ} (h : WindowInvariant w) {added : List Entry}
    (hearly : PendingEstablished w') (htrace : w'.trace = w.trace ++ added)
    (hadded : ∀ entry ∈ added, entry.event.frameless = true)
    (hlink : w'.link.state ≠ .dead → w.link.state ≠ .dead ∧ w'.link.pending = w.link.pending ∧
      w'.link.sentSequence = w.link.sentSequence)
    (hlsp : w'.link.lsp = w.link.lsp) : WindowInvariant w' := by
  refine h.keep htrace hearly ?_ ?_ ?_ ?_
  · rw [hlsp]
    exact h.limit
  · intro halive
    obtain ⟨hbefore, hpending, hsent⟩ := hlink halive
    exact (h.window hbefore).congr hpending hsent hlsp
  · intro entry hentry
    exact Event.frameless_within (hadded entry hentry) entry.link
  · intro entry hentry
    refine removesNamed_of_not_packet fun header payload hevent => ?_
    have hframeless := hadded entry hentry
    rw [hevent] at hframeless
    cases hframeless

/-- A step that encodes or sends one frame and leaves the window alone. -/
theorem WindowInvariant.frame {w : World σ} (h : WindowInvariant w) {event : Event}
    (hearly : PendingEstablished (w.record event))
    (hwithin : (⟨w.link, event⟩ : Entry).WithinMaxLen)
    (hevent : ∀ header payload, event ≠ .packet header payload) :
    WindowInvariant (w.record event) := by
  refine h.keep rfl hearly h.limit h.window ?_ ?_
  · intro entry hentry
    rw [List.mem_singleton.mp hentry]
    exact hwithin
  · intro entry hentry
    rw [List.mem_singleton.mp hentry]
    exact removesNamed_of_not_packet hevent

theorem WindowInvariant.step {w w' : World σ} (hbefore : AcksInWindow w.trace → WindowInvariant w)
    (hstep : Step env w w') (hacks' : AcksInWindow w'.trace) : WindowInvariant w' := by
  have hacks : AcksInWindow w.trace := by
    obtain ⟨added, htrace⟩ := hstep.grows
    rw [htrace] at hacks'
    exact hacks'.of_append
  have h := hbefore hacks
  -- without the named acknowledgements nothing is said about the window
  have hearly := h.early.step env hstep
  cases hstep with
  | bookkeeping buffer nextMarker nextSyn app =>
      exact h.quiet hearly (List.append_nil _).symm (by simp) (fun halive => ⟨halive, rfl, rfl⟩) rfl
  | die buffer =>
      exact h.quiet hearly (List.append_nil _).symm (by simp) (fun hnot => absurd rfl hnot) rfl
  | abandon =>
      exact h.quiet hearly (List.append_nil _).symm (by simp) (fun hnot => absurd rfl hnot) rfl
  | reset header payload hrst =>
      refine h.keep rfl hearly h.limit (fun hnot => absurd rfl hnot) ?_ ?_
      · intro entry hentry
        rw [List.mem_singleton.mp hentry]
        exact packet_within w.link header payload
      · intro entry hentry
        rw [List.mem_singleton.mp hentry]
        intro header' payload' hevent _ hnone _
        cases hevent
        exact absurd hnone hrst
  | packet header payload hrst =>
      refine h.packet ?_ hearly
      have hin := hacks' ⟨w.link, .packet header payload⟩ (by simp)
      simp only [Entry.ackInWindow, decide_eq_true_eq] at hin
      exact hin
  | openSyn hstate =>
      -- nothing is pending before the link is established
      have hnone : w.link.pending = [] := h.early hstate
      have hpending : (PhoneLink.openSyn { w.link with state := .negotiate }).pending = [] := by
        rw [openSyn_pending]
        exact hnone
      have hlsp : (PhoneLink.openSyn { w.link with state := .negotiate }).lsp = w.link.lsp :=
        openSyn_lsp _
      refine h.keep (List.append_nil _).symm hearly ?_ ?_ (by simp) (by simp)
      · rw [World.update_link, hlsp]
        exact h.limit
      · exact fun _ => window_of_empty hpending
  | encodeSyn control hstate hopen hcontrol =>
      refine h.frame hearly (within_encoded (not_isDataFrame_syn ?_)) (by simp)
      exact hcontrol.imp id And.left
  | encodeAck hstate =>
      exact h.frame hearly (within_encoded not_isDataFrame_ack) (by simp)
  | transmit frame hoffered halive =>
      exact h.frame hearly (h.offered hoffered _) (by simp)
  | queue payload hrefuses => exact h.queue env hrefuses hearly
  | answer accepted haccepted =>
      exact h.quiet hearly rfl (by simp [Event.frameless]) (fun halive => ⟨halive, rfl, rfl⟩) rfl
  | retime pending hpending =>
      refine h.keep (List.append_nil _).symm hearly h.limit ?_ (by simp) (by simp)
      exact fun halive => (h.window halive).retime hpending
  | adopt header payload received hstate hsyn hlsp hhandling =>
      refine h.keep rfl hearly Std.min_le_right ?_ ?_ ?_
      · intro halive
        refine window_of_empty (h.early ?_)
        cases hcases : w.link.state with
        | detect => exact Or.inl rfl
        | negotiate => exact Or.inr rfl
        | normal => exact absurd hcases hstate
        | dead => exact absurd hcases halive
      · intro entry hentry
        rw [List.mem_singleton.mp hentry]
        exact Event.frameless_within rfl _
      · intro entry hentry
        rw [List.mem_singleton.mp hentry]
        exact removesNamed_of_not_packet (by simp)
  | establish header payload hstate =>
      have halive : w.link.state ≠ .dead := by simp [hstate]
      exact h.quiet hearly rfl (by simp [Event.frameless]) (fun _ => ⟨halive, rfl, rfl⟩) rfl
  | advance header payload hstate hnext hdata hhandling =>
      have halive : w.link.state ≠ .dead := by simp [hstate]
      -- neither event carries a frame
      rw [acceptData_eq] at hearly ⊢
      refine h.quiet hearly rfl ?_ (fun _ => ⟨halive, rfl, rfl⟩) rfl
      intro entry hentry
      rcases List.mem_cons.mp hentry with rfl | hentry
      · rfl
      · by_cases hsession :
            env.controlData.isSome = true ∧ header.sessionId = w.link.peerControlSessionId
        · rw [if_pos hsession, List.mem_singleton] at hentry
          rw [hentry]
          rfl
        · rw [if_neg hsession] at hentry
          simp at hentry
  | callbackReturned =>
      exact h.quiet hearly rfl (by simp [Event.frameless]) (fun halive => ⟨halive, rfl, rfl⟩) rfl

end Iap2
end Aa2acp
