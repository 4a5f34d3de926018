import Aa2acp.Iap2.LinkSteps

/-!
# What waits in the receive buffer

Between two calls of its owner a link holds at most the start of one frame, or of the
marker while it is in Detect.  So the buffer never holds more than 65534 bytes, and
chunks of at most 65536 bytes never reach the overflow test of `receive`.
-/

namespace Aa2acp
namespace Iap2

variable {σ : Type} (env : Env σ)

/-! ## Sending leaves the buffer alone -/

/-- From `link` to `link'` nothing was received: the buffer and the parameters are the
same, and the state moved only by starting the handshake or by dying. -/
structure Undisturbed (link link' : PhoneLink) : Prop where
  buffer : link'.receiveBuffer = link.receiveBuffer
  lsp : link'.lsp = link.lsp
  state : link'.state = link.state ∨ link'.state = .dead ∨
    link.state = .detect ∧ link'.state = .negotiate

theorem Undisturbed.refl (link : PhoneLink) : Undisturbed link link := ⟨rfl, rfl, Or.inl rfl⟩

theorem Undisturbed.trans {link link' link'' : PhoneLink} (h : Undisturbed link link')
    (h' : Undisturbed link' link'') : Undisturbed link link'' := by
  refine ⟨h'.buffer.trans h.buffer, h'.lsp.trans h.lsp, ?_⟩
  rcases h'.state with hsame | hdead | ⟨hdetect, hnegotiate⟩
  · rw [hsame]
    exact h.state
  · exact Or.inr (Or.inl hdead)
  · rcases h.state with hsame | hdead | ⟨-, hlater⟩
    · exact Or.inr (Or.inr ⟨hsame.symm.trans hdetect, hnegotiate⟩)
    · rw [hdetect] at hdead
      cases hdead
    · rw [hdetect] at hlater
      cases hlater

theorem undisturbed_die (link : PhoneLink) : Undisturbed link link.die :=
  ⟨rfl, rfl, Or.inr (Or.inl rfl)⟩

theorem undisturbed_abandon (link : PhoneLink) : Undisturbed link link.abandon :=
  ⟨rfl, rfl, Or.inr (Or.inl rfl)⟩

theorem undisturbed_openSyn (link : PhoneLink) : Undisturbed link link.openSyn := by
  unfold PhoneLink.openSyn
  split
  · exact .refl link
  · exact ⟨rfl, rfl, Or.inl rfl⟩

theorem undisturbed_writePacket (payload : Bytes) (sequence control sessionId : UInt8)
    (w : World σ) :
    Undisturbed w.link (writePacket env payload sequence control sessionId w).link := by
  rcases writePacket_link env payload sequence control sessionId w with h | h
  · rw [h]
    exact .refl _
  · rw [h]
    exact undisturbed_die _

theorem undisturbed_sendMarker (w : World σ) :
    Undisturbed w.link (sendMarker env w).2.link := by
  unfold sendMarker
  rw [World.transmit_eq]
  dsimp only
  split
  · exact .refl _
  · exact undisturbed_die _

theorem undisturbed_sendSyn (now : TimePoint) (acknowledgePeer : Bool) (w : World σ) :
    Undisturbed w.link (sendSyn env now acknowledgePeer w).link := by
  unfold sendSyn
  split
  · exact .refl _
  · dsimp only
    have hopen : Undisturbed w.link (w.update .openSyn).link := undisturbed_openSyn w.link
    have hwrite := hopen.trans (undisturbed_writePacket env (encodeLsp w.link.lsp)
      (w.update .openSyn).link.synSequence
      (kControlSyn ||| if acknowledgePeer then kControlAck else 0) 0 (w.update .openSyn))
    exact ⟨hwrite.buffer, hwrite.lsp, hwrite.state⟩

theorem undisturbed_sendAck (w : World σ) : Undisturbed w.link (sendAck env w).link :=
  undisturbed_writePacket env [] w.link.sentSequence kControlAck 0 w

theorem undisturbed_sendControl (payload : Bytes) (w : World σ) :
    Undisturbed w.link (sendControl env payload w).2.link := by
  unfold sendControl
  cases hrefuses : refusesControl w.link payload with
  | true => exact .refl _
  | false =>
      rw [if_neg (by simp)]
      rcases queueControl_cases env payload w with ⟨frame, deadline, -, h⟩ | ⟨frame, sent, -, -, h⟩
      · rw [h]
        exact ⟨rfl, rfl, Or.inl rfl⟩
      · rw [h]
        exact ⟨rfl, rfl, Or.inr (Or.inl rfl)⟩

theorem undisturbed_deliver (callback : Bytes → σ → Sends σ) (payload : Bytes) (w : World σ) :
    Undisturbed w.link (deliver env callback payload w).link := by
  have hstep (payload : Bytes) (w' : World σ) (h : Undisturbed w.link w'.link) :
      Undisturbed w.link (sendControl env payload w').2.link :=
    h.trans (undisturbed_sendControl env payload w')
  have hstart : Undisturbed w.link (w.record (.delivered payload)).link := .refl _
  exact Interaction.run_invariant hstep (callback payload w.app) hstart

theorem undisturbed_handleData (header : Header) (payload : Bytes) (w : World σ) :
    Undisturbed w.link (handleData env header payload w).link := by
  unfold handleData
  dsimp only
  split
  · exact .refl _
  split
  · exact undisturbed_sendAck env w
  split
  · exact undisturbed_sendAck env w
  split
  · exact undisturbed_sendAck env w
  · set advanced := (w.record (.advanced header payload)).update (.advance header.sequence)
    have hadvanced : Undisturbed w.link advanced.link := ⟨rfl, rfl, Or.inl rfl⟩
    split
    · split
      · exact (hadvanced.trans (undisturbed_deliver env _ payload advanced)).trans
          (undisturbed_sendAck env _)
      · exact hadvanced.trans (undisturbed_sendAck env _)
    · exact hadvanced.trans (undisturbed_sendAck env _)

theorem undisturbed_acknowledge (header : Header) (link : PhoneLink) :
    Undisturbed link (link.acknowledge header) := by
  obtain ⟨pending, hpending⟩ := acknowledge_fields header link
  rw [hpending]
  exact ⟨rfl, rfl, Or.inl rfl⟩

/-- Handling a frame without the reset bit leaves the buffer alone and never goes back to
Detect. -/
theorem handlePacket_buffer_of_no_reset {header : Header} (hrst : header.control &&& kControlRst = 0)
    (payload : Bytes) (now : TimePoint) (w : World σ) :
    (handlePacket env header payload now w).link.receiveBuffer = w.link.receiveBuffer ∧
      (w.link.state ≠ .detect → (handlePacket env header payload now w).link.state ≠ .detect) := by
  have hback {link link' : PhoneLink} (h : Undisturbed link link') (hstate : link.state ≠ .detect) :
      link'.state ≠ .detect := by
    rcases h.state with hs | hs | ⟨hs, -⟩
    · rwa [hs]
    · simp [hs]
    · exact absurd hs hstate
  unfold handlePacket
  dsimp only
  rw [if_neg (not_not.mpr hrst)]
  set w' := (w.record (.packet header payload)).update (.acknowledge header)
  have hstart : Undisturbed w.link w'.link := undisturbed_acknowledge header w.link
  have hdone {w'' : World σ} (h : Undisturbed w'.link w''.link) :
      w''.link.receiveBuffer = w.link.receiveBuffer ∧
        (w.link.state ≠ .detect → w''.link.state ≠ .detect) :=
    ⟨(hstart.trans h).buffer, hback (hstart.trans h)⟩
  split
  · split
    · exact hdone (undisturbed_sendAck env w')
    · split
      · rename_i received _
        have hsyn := undisturbed_sendSyn env now true
          ((w'.record (.synAdopted header received)).update (.adopt header received))
        refine ⟨hsyn.buffer.trans hstart.buffer, fun hstate => ?_⟩
        have hstart' : w'.link.state ≠ .detect := hback hstart hstate
        exact hback hsyn hstart'
      · exact hdone (.refl _)
  · split
    · split
      · exact ⟨hstart.buffer, fun _ => by simp [PhoneLink.establish]⟩
      · exact hdone (.refl _)
    · split
      · exact hdone (undisturbed_handleData env header payload w')
      · exact hdone (.refl _)

/-- Handling a frame leaves the buffer alone or, for a reset, empties it with the link
dead, and never goes back to Detect. -/
theorem handlePacket_buffer (header : Header) (payload : Bytes) (now : TimePoint) (w : World σ) :
    ((handlePacket env header payload now w).link.receiveBuffer = w.link.receiveBuffer ∨
        (handlePacket env header payload now w).link.receiveBuffer = [] ∧
          (handlePacket env header payload now w).link.state = .dead) ∧
      (w.link.state ≠ .detect → (handlePacket env header payload now w).link.state ≠ .detect) := by
  by_cases hrst : header.control &&& kControlRst = 0
  · obtain ⟨hbuffer, hstate⟩ := handlePacket_buffer_of_no_reset env hrst payload now w
    exact ⟨Or.inl hbuffer, hstate⟩
  · unfold handlePacket
    dsimp only
    rw [if_pos hrst]
    exact ⟨Or.inr ⟨rfl, rfl⟩, fun _ => by simp [PhoneLink.reset]⟩

/-! ## What is left after a loop of `process_packets` -/

/-- The buffer is too short for a header, or holds the start of one frame of an
acceptable length that is not complete. -/
def Waiting (maxLen : UInt16) (buffer : Bytes) : Prop :=
  buffer.length < 9 ∨
    ∃ header, buffer.getD 0 0 = 0xff ∧ buffer.getD 1 0 = 0x5a ∧
      decodeHeader (buffer.take 9) = some header ∧ header.length ≤ maxLen ∧
        buffer.length < header.length.toNat

/-- What a link holds between two calls. -/
def Inert (link : PhoneLink) : Prop :=
  if link.state = .detect then link.receiveBuffer.length ≤ 5
  else Waiting link.lsp.maxLen link.receiveBuffer

theorem Waiting.length_le {maxLen : UInt16} {buffer : Bytes} (h : Waiting maxLen buffer) :
    buffer.length ≤ 65534 := by
  rcases h with hshort | ⟨header, -, -, -, -, hlength⟩
  · omega
  · have hmax := header.length.toNat_lt
    omega

theorem Inert.length_le {link : PhoneLink} (h : Inert link) :
    link.receiveBuffer.length ≤ 65534 := by
  unfold Inert at h
  by_cases hdetect : link.state = .detect
  · rw [if_pos hdetect] at h
    omega
  · rw [if_neg hdetect] at h
    exact h.length_le

/-- Calls that receive nothing leave what waits in the buffer. -/
theorem Inert.undisturbed {link link' : PhoneLink} (h : Inert link)
    (hundisturbed : Undisturbed link link') : Inert link' := by
  unfold Inert at h ⊢
  rw [hundisturbed.buffer, hundisturbed.lsp]
  by_cases hdetect : link.state = .detect
  · rw [if_pos hdetect] at h
    split
    · exact h
    · exact Or.inl (by omega)
  · rw [if_neg hdetect] at h
    have hlater : link'.state ≠ .detect := by
      rcases hundisturbed.state with hs | hs | ⟨hs, -⟩
      · rwa [hs]
      · simp [hs]
      · exact absurd hs hdetect
    rw [if_neg hlater]
    exact h

@[simp] theorem setBuffer_link (buffer : Bytes) (w : World σ) :
    (w.setBuffer buffer).link = { w.link with receiveBuffer := buffer } := rfl

/-- The byte that `find_if` stops at. -/
theorem getD_idxOf_dropLast {buffer : Bytes}
    (h : buffer.dropLast.idxOf 0xff ≠ buffer.length - 1) :
    buffer.dropLast.idxOf 0xff + 1 < buffer.length ∧
      buffer.getD (buffer.dropLast.idxOf 0xff) 0 = 0xff := by
  have hle : buffer.dropLast.idxOf 0xff ≤ buffer.dropLast.length := List.idxOf_le_length
  rw [List.length_dropLast] at hle
  have hlt : buffer.dropLast.idxOf 0xff < buffer.dropLast.length := by
    rw [List.length_dropLast]
    omega
  have hget : buffer.dropLast[buffer.dropLast.idxOf 0xff] = 0xff := List.getElem_idxOf hlt
  rw [List.length_dropLast] at hlt
  refine ⟨by omega, ?_⟩
  rw [List.getElem_dropLast] at hget
  rw [List.getD_eq_getElem?_getD, List.getElem?_eq_getElem (by omega)]
  exact hget

/-- Before the byte that `find_if` stops at there is no `ff`. -/
theorem ne_ff_of_lt_idxOf {buffer : Bytes} {index : ℕ}
    (hindex : index < buffer.dropLast.idxOf 0xff) : buffer.getD index 0 ≠ 0xff := by
  have hle : buffer.dropLast.idxOf 0xff ≤ buffer.dropLast.length := List.idxOf_le_length
  have hnot := List.not_of_lt_findIdx (show index < buffer.dropLast.findIdx (· == 0xff) from hindex)
  rw [List.getElem_dropLast] at hnot
  rw [List.length_dropLast] at hle
  rw [List.getD_eq_getElem?_getD, List.getElem?_eq_getElem (by omega)]
  simpa using hnot

/-- A turn of the loop that starts with `ff 5a` either stops with what waits, or goes
on with a shorter buffer. -/
theorem processFrame_buffer (now : TimePoint) {w : World σ} (hstate : w.link.state ≠ .detect)
    (hstart : w.link.receiveBuffer.getD 0 0 = 0xff ∧ w.link.receiveBuffer.getD 1 0 = 0x5a) :
    (processFrame env now w).2.link.state ≠ .detect ∧
      ((processFrame env now w).1 = false →
        Waiting (processFrame env now w).2.link.lsp.maxLen
          (processFrame env now w).2.link.receiveBuffer) ∧
      ((processFrame env now w).1 = true →
        (processFrame env now w).2.link.receiveBuffer.length < w.link.receiveBuffer.length) := by
  unfold processFrame
  dsimp only
  split
  · rename_i hshort
    exact ⟨hstate, fun _ => Or.inl hshort, by simp⟩
  rename_i hlong
  split
  · refine ⟨hstate, by simp, fun _ => ?_⟩
    rw [setBuffer_link, List.length_drop]
    omega
  · rename_i header hdecode
    have hheader := UInt16.le_iff_toNat_le.mp (decodeHeader_length hdecode)
    have hnine : (9 : UInt16).toNat = 9 := rfl
    split
    · refine ⟨by simp [PhoneLink.die, PhoneLink.clearBuffer], fun _ => Or.inl ?_, by simp⟩
      simp [PhoneLink.clearBuffer]
    · rename_i hallowed
      split
      -- the frame waits for its end
      · rename_i hincomplete
        refine ⟨hstate, fun _ => Or.inr ⟨header, hstart.1, hstart.2, hdecode, ?_, hincomplete⟩,
          by simp⟩
        exact UInt16.not_lt.mp hallowed
      · split
        · refine ⟨hstate, by simp, fun _ => ?_⟩
          rw [setBuffer_link, List.length_drop]
          omega
        · set taken := w.setBuffer (w.link.receiveBuffer.drop header.length.toNat)
          obtain ⟨hbuffer, hlater⟩ := handlePacket_buffer env header
            ((w.link.receiveBuffer.drop 9).take (header.length.toNat - 9)).dropLast now taken
          refine ⟨hlater hstate, by simp, fun _ => ?_⟩
          -- a whole frame leaves the buffer, unless the link is reset with it
          have htaken : taken.link.receiveBuffer.length < w.link.receiveBuffer.length := by
            rw [setBuffer_link, List.length_drop]
            omega
          rcases hbuffer with hb | ⟨hb, -⟩
          · rw [hb]
            exact htaken
          · rw [hb, List.length_nil]
            omega

theorem processOnce_buffer (now : TimePoint) {w : World σ} (hstate : w.link.state ≠ .detect)
    (hlong : ¬ w.link.receiveBuffer.length < 9) :
    (processOnce env now w).2.link.state ≠ .detect ∧
      ((processOnce env now w).1 = false →
        Waiting (processOnce env now w).2.link.lsp.maxLen
          (processOnce env now w).2.link.receiveBuffer) ∧
      ((processOnce env now w).1 = true →
        (processOnce env now w).2.link.receiveBuffer.length < w.link.receiveBuffer.length) := by
  unfold processOnce
  dsimp only
  set buffer := w.link.receiveBuffer with hbuffer
  set start := buffer.dropLast.idxOf 0xff
  by_cases hnone : start = buffer.length - 1
  · rw [if_pos hnone]
    refine ⟨hstate, fun _ => Or.inl ?_, by simp⟩
    rw [setBuffer_link, List.length_drop]
    omega
  · rw [if_neg hnone]
    obtain ⟨hlt, hff⟩ := getD_idxOf_dropLast hnone
    by_cases hother : buffer.getD (start + 1) 0 ≠ 0x5a
    · rw [if_pos hother]
      refine ⟨hstate, by simp, fun _ => ?_⟩
      rw [setBuffer_link, List.length_drop]
      omega
    · rw [if_neg hother]
      rw [ne_eq, not_not] at hother
      set found := w.setBuffer (buffer.drop start) with hfound
      have hdropped : found.link.receiveBuffer = buffer.drop start := rfl
      have hmarks : found.link.receiveBuffer.getD 0 0 = 0xff ∧
          found.link.receiveBuffer.getD 1 0 = 0x5a := by
        rw [hdropped, List.getD_eq_getElem?_getD, List.getD_eq_getElem?_getD,
          List.getElem?_drop, List.getElem?_drop, ← List.getD_eq_getElem?_getD,
          ← List.getD_eq_getElem?_getD]
        exact ⟨hff, hother⟩
      have hfoundState : found.link.state ≠ .detect := hstate
      obtain ⟨hlater, hwaits, hshorter⟩ := processFrame_buffer env now hfoundState hmarks
      refine ⟨hlater, hwaits, fun hgoes => ?_⟩
      have hframe := hshorter hgoes
      rw [hdropped, List.length_drop] at hframe
      omega

theorem processLoop_waiting (now : TimePoint) (fuel : ℕ) {w : World σ}
    (hstate : w.link.state ≠ .detect) (hfuel : w.link.receiveBuffer.length ≤ fuel) :
    (processLoop env now fuel w).link.state ≠ .detect ∧
      Waiting (processLoop env now fuel w).link.lsp.maxLen
        (processLoop env now fuel w).link.receiveBuffer := by
  induction fuel generalizing w with
  | zero => exact ⟨hstate, Or.inl (show w.link.receiveBuffer.length < 9 by omega)⟩
  | succ fuel ih =>
      unfold processLoop
      by_cases hshort : w.link.receiveBuffer.length < 9
      · rw [if_pos hshort]
        exact ⟨hstate, Or.inl hshort⟩
      · rw [if_neg hshort]
        obtain ⟨hlater, hwaits, hshorter⟩ := processOnce_buffer env now hstate hshort
        split
        · rename_i w' heq
          rw [heq] at hlater hshorter
          have hlength := hshorter rfl
          dsimp only at hlater hlength
          exact ih hlater (by omega)
        · rename_i w' heq
          rw [heq] at hlater hwaits
          exact ⟨hlater, hwaits rfl⟩

/-! ## Every call -/

theorem inert_scanBuffer (now : TimePoint) (w : World σ) :
    Inert (scanBuffer env now w).link := by
  have hloop {w' : World σ} (hstate : w'.link.state ≠ .detect) :
      Inert (processPackets env now w').link := by
    obtain ⟨hlater, hwaits⟩ := processLoop_waiting env now _ hstate (Nat.le_refl _)
    unfold Inert
    rw [processPackets, if_neg hlater]
    exact hwaits
  unfold scanBuffer
  dsimp only
  by_cases hdetect : w.link.state = .detect
  · rw [if_pos hdetect]
    cases hmarker : searchMarker w.link.receiveBuffer with
    | none =>
        unfold Inert
        dsimp only
        rw [setBuffer_link, if_pos hdetect]
        show (w.link.receiveBuffer.drop (w.link.receiveBuffer.length - (6 - 1))).length ≤ 5
        rw [List.length_drop]
        omega
    | some index =>
        apply hloop
        set found := (w.setBuffer (w.link.receiveBuffer.drop (index + kMarker.length))).update
          fun link => { link with state := .negotiate } with hfound
        have hstate : found.link.state = .negotiate := rfl
        rcases (undisturbed_sendSyn env now false found).state with hs | hs | ⟨hs, -⟩
        · simp [hs, hstate]
        · simp [hs]
        · rw [hstate] at hs
          cases hs
  · rw [if_neg hdetect]
    exact hloop hdetect

/-- Chunks of at most 65536 bytes do not overflow what waits. -/
theorem Inert.not_overflows {link : PhoneLink} (h : Inert link) {bytes : Bytes}
    (hbytes : bytes.length ≤ 65536) : overflows link bytes = false := by
  have hlength := h.length_le
  have hmax : kMaxReceiveBuffer = 131072 := rfl
  unfold overflows
  rw [hmax]
  exact decide_eq_false (by omega)

theorem inert_receive {bytes : Bytes} (now : TimePoint) {w : World σ} (h : Inert w.link)
    (hbytes : bytes.length ≤ 65536) : Inert (receive env bytes now w).link := by
  unfold receive
  rw [if_neg (by simp [h.not_overflows hbytes])]
  exact inert_scanBuffer env now _

theorem undisturbed_start (now : TimePoint) (w : World σ) :
    Undisturbed w.link (start env now w).link := by
  unfold start
  by_cases hdetect : w.link.state ≠ .detect
  · rw [if_pos hdetect]
    exact .refl _
  · rw [if_neg hdetect]
    rw [ne_eq, not_not] at hdetect
    have hmarker := undisturbed_sendMarker env w
    have hlink := sendMarker_link_of_true env w
    split
    · rename_i w' heq
      rw [heq] at hmarker
      exact hmarker
    · rename_i w' heq
      rw [heq] at hlink
      have hlink' : w'.link = w.link := hlink rfl
      have hnegotiate : Undisturbed w.link
          (w'.update fun link => { link with state := .negotiate }).link := by
        rw [World.update_link, hlink']
        exact ⟨rfl, rfl, Or.inr (Or.inr ⟨hdetect, rfl⟩)⟩
      exact hnegotiate.trans (undisturbed_sendSyn env now false _)

theorem undisturbed_retransmit (now : TimePoint) (visited rest : List PendingMessage)
    (w : World σ) : Undisturbed w.link (retransmit env now visited rest w).link := by
  induction rest generalizing visited w with
  | nil => exact .refl _
  | cons message rest ih =>
      unfold retransmit
      split
      · exact ih _ w
      split
      · exact undisturbed_abandon _
      · dsimp only
        set again : PendingMessage :=
          { message with
            retries := message.retries + 1
            deadline := now + milliseconds w.link.lsp.retransmissionTimeout.toNat }
        set retimed := w.update fun link => { link with pending := visited ++ again :: rest }
        rw [World.transmit_eq]
        dsimp only
        split
        · have hrest := ih (visited ++ [again])
            (retimed.record (.sent again.frame (env.send retimed.sentFrames again.frame)))
          exact ⟨hrest.buffer, hrest.lsp, hrest.state⟩
        · exact ⟨rfl, rfl, Or.inr (Or.inl rfl)⟩

theorem undisturbed_tickMarker (now : TimePoint) (w : World σ) :
    Undisturbed w.link (tickMarker env now w).2.link := by
  unfold tickMarker
  split
  · have hmarker := undisturbed_sendMarker env w
    split
    · rename_i w' heq
      rw [heq] at hmarker
      exact hmarker
    · rename_i w' heq
      rw [heq] at hmarker
      exact ⟨hmarker.buffer, hmarker.lsp, hmarker.state⟩
  · exact .refl _

theorem undisturbed_tick (now : TimePoint) (w : World σ) :
    Undisturbed w.link (tick env now w).link := by
  unfold tick
  split
  · exact .refl _
  · have hmarker := undisturbed_tickMarker env now w
    split
    · rename_i w' heq
      rw [heq] at hmarker
      exact hmarker
    · rename_i w' heq
      rw [heq] at hmarker
      refine Undisturbed.trans ?_ (undisturbed_retransmit env now [] _ _)
      split
      · exact hmarker.trans (undisturbed_sendSyn env now false w')
      · exact hmarker

/-- The received chunks of a run. -/
def Input.chunkFits : Input → Bool
  | .receive bytes _ => decide (bytes.length ≤ 65536)
  | _ => true

theorem inert_apply {w : World σ} (h : Inert w.link) {input : Input}
    (hinput : input.chunkFits = true) : Inert (apply env w input).link := by
  cases input with
  | start now => exact h.undisturbed (undisturbed_start env now w)
  | receive bytes now => exact inert_receive env now h (of_decide_eq_true hinput)
  | tick now => exact h.undisturbed (undisturbed_tick env now w)
  | sendControl payload => exact h.undisturbed (undisturbed_sendControl env payload w)

theorem inert_foldl_apply {inputs : List Input} (hinputs : ∀ input ∈ inputs, input.chunkFits = true)
    {w : World σ} (h : Inert w.link) : Inert (inputs.foldl (apply env) w).link := by
  induction inputs generalizing w with
  | nil => exact h
  | cons input inputs ih =>
      rw [List.foldl_cons]
      exact ih (fun other hother => hinputs other (List.mem_cons_of_mem _ hother))
        (inert_apply env h (hinputs input List.mem_cons_self))

/-- After any run with chunks of at most 65536 bytes only the start of a frame or of
the marker waits. -/
theorem inert_run (app : σ) {inputs : List Input}
    (hinputs : ∀ input ∈ inputs, input.chunkFits = true) : Inert (run env app inputs).link :=
  inert_foldl_apply env hinputs (show (0 : ℕ) ≤ 5 by omega)

end Iap2
end Aa2acp
