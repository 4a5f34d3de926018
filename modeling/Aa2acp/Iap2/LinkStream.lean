import Aa2acp.Iap2.FrameScan
import Aa2acp.Iap2.LinkSimilar
import Aa2acp.Lib.Framing

/-!
# Frames between filler

A stream of frames with link markers and other bytes between them, cut into chunks.
`process_packets` handles each frame once, in order, with the header and the payload it
was encoded from, up to a reset.

At any moment the buffer and what has not arrived yet make up the rest of the stream
(`Reading`): bytes that start nothing, and then frames and markers with such bytes behind
them.  A turn of the loop either drops bytes that start nothing, or turns a marker into
such bytes by dropping its `ff`, or handles the next frame.
-/

namespace Aa2acp
namespace Iap2

/-! ## Streams -/

/-- A frame that `encode_packet` of some link builds. -/
structure WireFrame where
  sender : PhoneLink
  control : UInt8
  sequence : UInt8
  sessionId : UInt8
  payload : Bytes
  /-- For a longer payload `encode_packet` builds nothing. -/
  fits : payload.length ≤ 65525

namespace WireFrame

def bytes (frame : WireFrame) : Bytes :=
  encodePacket frame.sender frame.payload frame.sequence frame.control frame.sessionId

/-- The fields the frame was encoded from. -/
def header (frame : WireFrame) : Header :=
  headerOf frame.control frame.sequence frame.sender.lastReceivedSequence frame.sessionId
    frame.payload

/-- What `handle_packet` is called with. -/
def packet (frame : WireFrame) : Header × Bytes := (frame.header, frame.payload)

def isReset (frame : WireFrame) : Bool := frame.control &&& kControlRst ≠ 0

theorem frameOf (frame : WireFrame) : FrameOf frame.bytes frame.header frame.payload := by
  unfold bytes
  rw [encodePacket_of_fits _ frame.fits]
  exact frameOf_encodeFrame _ _ _ _ frame.fits

end WireFrame

/-- Bytes with which neither a marker nor a frame begins. -/
abbrev Noise := { bytes : Bytes // (0xff : UInt8) ∉ bytes }

inductive Item where
  | marker
  | frame (wire : WireFrame)

def Item.bytes : Item → Bytes
  | .marker => kMarker
  | .frame wire => wire.bytes

/-- Markers and frames with noise behind each. -/
def itemsBytes : List (Item × Noise) → Bytes
  | [] => []
  | (item, after) :: items => item.bytes ++ (after.1 ++ itemsBytes items)

def streamBytes (noise : Noise) (items : List (Item × Noise)) : Bytes :=
  noise.1 ++ itemsBytes items

def framesOf : List (Item × Noise) → List WireFrame
  | [] => []
  | (.marker, _) :: items => framesOf items
  | (.frame wire, _) :: items => wire :: framesOf items

/-- The frames up to the first reset. -/
def upToReset : List WireFrame → List WireFrame
  | [] => []
  | frame :: frames => if frame.isReset then [frame] else frame :: upToReset frames

theorem upToReset_eq {frames : List WireFrame} (h : ∀ frame ∈ frames, frame.isReset = false) :
    upToReset frames = frames := by
  induction frames with
  | nil => rfl
  | cons frame frames ih =>
      unfold upToReset
      rw [h frame List.mem_cons_self, if_neg (by simp),
        ih fun other hother => h other (List.mem_cons_of_mem _ hother)]

/-- A frame in the stream takes at least a header's bytes. -/
theorem nine_le_itemsBytes {items : List (Item × Noise)} (hframes : framesOf items ≠ []) :
    9 ≤ (itemsBytes items).length := by
  induction items with
  | nil => exact absurd rfl hframes
  | cons item items ih =>
      obtain ⟨item, after⟩ := item
      unfold itemsBytes
      rw [List.length_append, List.length_append]
      cases item with
      | marker =>
          have hrest := ih hframes
          omega
      | frame wire =>
          have hnine := wire.frameOf.nine_le
          have hbytes : (Item.frame wire).bytes = wire.bytes := rfl
          rw [hbytes]
          omega

open Framing

variable {σ : Type} (env : Env σ)

/-- Each frame, up to a reset, is no longer than the link allows when its turn comes.  The
time does not matter for that (`Alike.handlePacket`). -/
def FitInTurn : World σ → List WireFrame → Prop
  | _, [] => True
  | w, frame :: frames =>
      frame.bytes.length ≤ w.link.lsp.maxLen.toNat ∧
        (frame.isReset = false →
          FitInTurn (handlePacket env frame.header frame.payload 0 w) frames)

/-! ## The calls of `handle_packet` -/

def Event.packet? : Event → Option (Header × Bytes)
  | .packet header payload => some (header, payload)
  | _ => none

/-- The header and the payload of every `handle_packet` call, in order. -/
def World.packets (w : World σ) : List (Header × Bytes) :=
  w.trace.filterMap fun entry => entry.event.packet?

section Packets

variable {env}

@[simp] theorem packets_update (w : World σ) (f : PhoneLink → PhoneLink) :
    (w.update f).packets = w.packets := rfl

@[simp] theorem packets_setBuffer (w : World σ) (buffer : Bytes) :
    (w.setBuffer buffer).packets = w.packets := rfl

@[simp] theorem packets_record (w : World σ) (event : Event) :
    (w.record event).packets = w.packets ++ event.packet?.toList := by
  unfold World.packets
  rw [World.record_trace, List.filterMap_append]
  cases hevent : event.packet? <;> simp [hevent]

@[simp] theorem packets_transmit (w : World σ) (frame : Bytes) :
    (w.transmit env frame).2.packets = w.packets := by
  rw [World.transmit_eq, packets_record]
  simp [Event.packet?]

@[simp] theorem packets_writePacket (payload : Bytes) (sequence control sessionId : UInt8)
    (w : World σ) : (writePacket env payload sequence control sessionId w).packets = w.packets := by
  unfold writePacket
  dsimp only
  split
  · simp [Event.packet?]
  · split <;> simp [Event.packet?]

@[simp] theorem packets_sendAck (w : World σ) : (sendAck env w).packets = w.packets :=
  packets_writePacket _ _ _ _ w

@[simp] theorem packets_sendSyn (now : TimePoint) (acknowledgePeer : Bool) (w : World σ) :
    (sendSyn env now acknowledgePeer w).packets = w.packets := by
  unfold sendSyn
  split
  · rfl
  · simp

@[simp] theorem packets_sendControl (payload : Bytes) (w : World σ) :
    (sendControl env payload w).2.packets = w.packets := by
  unfold sendControl
  cases refusesControl w.link payload with
  | true => simp [Event.packet?]
  | false =>
      dsimp only
      rw [if_neg (by simp), packets_record]
      unfold queueControl
      dsimp only
      split
      · simp [Event.packet?]
      · split <;> simp [Event.packet?]

@[simp] theorem packets_deliver (callback : Bytes → σ → Sends σ) (payload : Bytes) (w : World σ) :
    (deliver env callback payload w).packets = w.packets := by
  have hstep (payload : Bytes) (w' : World σ) (h : w'.packets = w.packets) :
      (sendControl env payload w').2.packets = w.packets := by
    rw [packets_sendControl, h]
  have hstart : (w.record (.delivered payload)).packets = w.packets := by simp [Event.packet?]
  -- the callback may send, which handles nothing
  have hrun := Interaction.run_invariant hstep (callback payload w.app) hstart
  unfold deliver
  rw [packets_record]
  exact (List.append_nil _).trans hrun

@[simp] theorem packets_handleData (header : Header) (payload : Bytes) (w : World σ) :
    (handleData env header payload w).packets = w.packets := by
  unfold handleData
  dsimp only
  split
  · rfl
  split
  · simp
  split
  · simp
  split
  · simp
  -- the next data frame: it is recorded as advanced and perhaps handed over
  · split
    · split <;> simp [Event.packet?]
    · simp [Event.packet?]

/-- A call of `handle_packet` is one call. -/
theorem packets_handlePacket (header : Header) (payload : Bytes) (now : TimePoint) (w : World σ) :
    (handlePacket env header payload now w).packets = w.packets ++ [(header, payload)] := by
  have hcall : (w.record (.packet header payload)).packets = w.packets ++ [(header, payload)] := by
    simp [Event.packet?]
  unfold handlePacket
  dsimp only
  split
  · exact hcall
  -- ACK, SYN and data, in the order of the source; none of them handles a frame of its own
  · split
    · split
      · rw [packets_sendAck]
        exact hcall
      · split
        · rw [packets_sendSyn, packets_update, packets_record, packets_update, hcall]
          simp [Event.packet?]
        · exact hcall
    · split
      · split
        · rw [packets_update, packets_record, packets_update, hcall]
          simp [Event.packet?]
        · exact hcall
      · split
        · rw [packets_handleData]
          exact hcall
        · exact hcall

/-- What was handled stays handled. -/
theorem packets_extend {w w' : World σ} (hsteps : Steps env w w') : w.packets <+: w'.packets := by
  apply hsteps.invariant (I := fun v => w.packets <+: v.packets) _ (List.prefix_refl _)
  intro v v' hv hstep
  obtain ⟨added, htrace⟩ := hstep.grows
  refine hv.trans ?_
  unfold World.packets
  rw [htrace, List.filterMap_append]
  exact List.prefix_append _ _

end Packets

/-! ## Reading the stream -/

/-- The buffer and what arrives `later` are the rest of the stream, whose frames will
complete the calls of `handle_packet` to `total`.  The canonical world `c` has handled the
same frames. -/
def Reading (frames : List WireFrame) (total : List (Header × Bytes)) (later : Bytes)
    (w : World σ) : Prop :=
  ∃ c noise items, Alike w c ∧ w.link.receiveBuffer ++ later = streamBytes noise items ∧
    FitInTurn env c (framesOf items) ∧ (∀ frame ∈ framesOf items, frame ∈ frames) ∧
      w.packets ++ (upToReset (framesOf items)).map WireFrame.packet = total

/-- A reset was among the frames, and those up to it have been handled. -/
def ResetRead (frames : List WireFrame) (total : List (Header × Bytes)) (w : World σ) : Prop :=
  (∃ frame ∈ frames, frame.isReset = true) ∧ total <+: w.packets

section Turns

variable {env} {now : TimePoint} {frames : List WireFrame} {total : List (Header × Bytes)}
  {later : Bytes} {w : World σ}

theorem ResetRead.steps {w' : World σ} (h : ResetRead frames total w) (hsteps : Steps env w w') :
    ResetRead frames total w' := ⟨h.1, h.2.trans (packets_extend hsteps)⟩

/-- A turn at the head of a frame. -/
theorem Reading.processFrame {c : World σ} {wire : WireFrame} {after : Noise}
    {items : List (Item × Noise)} (halike : Alike w c)
    (hfit : FitInTurn env c (wire :: framesOf items))
    (hframes : ∀ frame ∈ wire :: framesOf items, frame ∈ frames)
    (htotal : w.packets ++ (upToReset (wire :: framesOf items)).map WireFrame.packet = total)
    (hbuffer : w.link.receiveBuffer ++ later = wire.bytes ++ streamBytes after items) :
    Reading env frames total later (processFrame env now w).2 ∨
      ResetRead frames total (processFrame env now w).2 := by
  obtain ⟨hallowed, hrest⟩ := hfit
  rw [← halike.lsp] at hallowed
  rcases whole_or_part hbuffer with ⟨rest, hwhole, htail⟩ | ⟨more, hmore, hpart, -⟩
  · -- the frame is there as a whole
    rw [processFrame_whole env now wire.frameOf hwhole hallowed]
    have hpackets : (handlePacket env wire.header wire.payload now (w.setBuffer rest)).packets = _ :=
      packets_handlePacket wire.header wire.payload now (w.setBuffer rest)
    -- a reset ends the reading, any other frame moves it on
    by_cases hreset : wire.isReset = true
    · right
      refine ⟨⟨wire, hframes wire List.mem_cons_self, hreset⟩, ?_⟩
      unfold upToReset at htotal
      rw [if_pos hreset] at htotal
      rw [hpackets, ← htotal]
      exact List.prefix_refl _
    · left
      rw [Bool.not_eq_true] at hreset
      have hrst : wire.header.control &&& kControlRst = 0 := by
        have hbit : wire.isReset = decide (wire.control &&& kControlRst ≠ 0) := rfl
        rw [hreset] at hbit
        have hclear := of_decide_eq_false hbit.symm
        rwa [ne_eq, not_not] at hclear
      refine ⟨_, after, items, (halike.setBuffer_left rest).handlePacket ⟨rfl, rfl⟩ wire.header
        wire.payload now 0, ?_, hrest hreset, ?_, ?_⟩
      · rw [(handlePacket_buffer_of_no_reset env hrst wire.payload now (w.setBuffer rest)).1]
        exact htail
      · exact fun other hother => hframes other (List.mem_cons_of_mem _ hother)
      · unfold upToReset at htotal
        rw [hreset, if_neg (by simp), List.map_cons] at htotal
        rw [hpackets, ← htotal, List.append_assoc]
        rfl
  · -- a part of the frame is there
    left
    rw [processFrame_incomplete env now wire.frameOf hpart hmore hallowed]
    exact ⟨c, ⟨[], List.not_mem_nil⟩, (.frame wire, after) :: items, halike, hbuffer,
      ⟨by rwa [← halike.lsp], hrest⟩, hframes, htotal⟩

/-- What a turn takes off the front of the buffer. -/
theorem Reading.processOnce (h : Reading env frames total later w) :
    Reading env frames total later (processOnce env now w).2 ∨
      ResetRead frames total (processOnce env now w).2 := by
  obtain ⟨c, ⟨noise, hnoise⟩, items, halike, hbuffer, hfit, hframes, htotal⟩ := h
  set buffer := w.link.receiveBuffer with hdef
  have hstream : buffer ++ later = noise ++ itemsBytes items := hbuffer
  by_cases hshort : buffer.length ≤ noise.length + 1
  · -- there is no `ff` but perhaps the last byte
    left
    have htake : buffer.dropLast = noise.take (buffer.length - 1) := by
      rw [List.dropLast_eq_take, ← List.take_append_of_le_length (Nat.sub_le _ _), hstream,
        List.take_append_of_le_length (by omega)]
    have hnone : 0xff ∉ buffer.dropLast := by
      rw [htake]
      exact fun hmem => hnoise (List.mem_of_mem_take hmem)
    rw [processOnce_noise env now hnone]
    refine ⟨c, ⟨noise.drop (buffer.length - 1), fun hmem => hnoise (List.mem_of_mem_drop hmem)⟩,
      items, halike.setBuffer_left _, ?_, hfit, hframes, htotal⟩
    show buffer.drop (buffer.length - 1) ++ later =
      noise.drop (buffer.length - 1) ++ itemsBytes items
    rw [← List.drop_append_of_le_length (Nat.sub_le _ _), hstream,
      List.drop_append_of_le_length (by omega)]
  -- otherwise the noise is there as a whole, and two bytes of what follows
  · rcases whole_or_part hstream with ⟨front, hfront, hitems⟩ | ⟨more, -, hpart, -⟩
    · have hlength := congrArg List.length hfront
      rw [List.length_append] at hlength
      match front, hlength with
      | [], hlength => exact absurd hlength (by simp; omega)
      | [_], hlength => exact absurd hlength (by simp; omega)
      | first :: second :: tail, _ =>
          match items with
          | [] => cases hitems
          | (.marker, after) :: items =>
              -- the marker loses its `ff`, and the rest of it starts nothing
              left
              have hmarker : first :: second :: (tail ++ later) =
                  0xff :: 0x55 :: ([0x02, 0x00, 0xee, 0x10] ++ (after.1 ++ itemsBytes items)) := hitems
              rw [List.cons.injEq, List.cons.injEq] at hmarker
              obtain ⟨rfl, rfl, htail⟩ := hmarker
              rw [processOnce_other env now hnoise (by decide) hfront]
              refine ⟨c, ⟨[0x55, 0x02, 0x00, 0xee, 0x10] ++ after.1, ?_⟩, items,
                halike.setBuffer_left _, ?_, hfit, hframes, htotal⟩
              · rw [List.mem_append, not_or]
                exact ⟨by decide, after.2⟩
              · show 0x55 :: (tail ++ later) = _
                rw [htail]
                exact (List.append_assoc [0x55, 0x02, 0x00, 0xee, 0x10] after.1 (itemsBytes items)).symm
          | (.frame wire, after) :: items =>
              obtain ⟨more, hmarks⟩ := wire.frameOf.eq_marks
              have hwire : first :: second :: (tail ++ later) =
                  0xff :: 0x5a :: (more ++ (after.1 ++ itemsBytes items)) := by
                have hbytes : first :: second :: tail ++ later =
                    wire.bytes ++ (after.1 ++ itemsBytes items) := hitems
                rw [hmarks] at hbytes
                exact hbytes
              rw [List.cons.injEq, List.cons.injEq] at hwire
              obtain ⟨rfl, rfl, -⟩ := hwire
              rw [processOnce_marks env now hnoise hfront]
              exact Reading.processFrame (halike.setBuffer_left _) hfit hframes htotal hitems
    · have hlength := congrArg List.length hpart
      rw [List.length_append] at hlength
      omega

theorem Reading.processLoop (h : Reading env frames total later w) (fuel : ℕ) :
    Reading env frames total later (processLoop env now fuel w) ∨
      ResetRead frames total (processLoop env now fuel w) := by
  induction fuel generalizing w with
  | zero => exact Or.inl h
  | succ fuel ih =>
      unfold Iap2.processLoop
      by_cases hshort : w.link.receiveBuffer.length < 9
      · rw [if_pos hshort]
        exact Or.inl h
      · rw [if_neg hshort]
        have honce : Reading env frames total later (Iap2.processOnce env now w).2 ∨ _ :=
          h.processOnce
        split
        · rename_i w' heq
          rw [heq] at honce
          rcases honce with hreading | hreset
          · exact ih hreading
          · exact Or.inr (hreset.steps (steps_processLoop env now fuel w'))
        · rename_i w' heq
          rw [heq] at honce
          exact honce

end Turns

/-! ## Chunks -/

/-- Chunks passed to `receive` one after the other, each at its own time. -/
def receiveAll (chunks : List (Bytes × TimePoint)) (w : World σ) : World σ :=
  chunks.foldl (fun w chunk => receive env chunk.1 chunk.2 w) w

section Chunks

variable {env} {frames : List WireFrame} {total : List (Header × Bytes)} {w : World σ}

theorem Reading.receive {chunk later : Bytes} (now : TimePoint)
    (h : Reading env frames total (chunk ++ later) w) (hdetect : w.link.state ≠ .detect)
    (hinert : Inert w.link) (hchunk : chunk.length ≤ 65536) :
    Reading env frames total later (receive env chunk now w) ∨
      ResetRead frames total (receive env chunk now w) := by
  obtain ⟨c, noise, items, halike, hbuffer, hfit, hframes, htotal⟩ := h
  have hreading : Reading env frames total later (w.setBuffer (w.link.receiveBuffer ++ chunk)) := by
    refine ⟨c, noise, items, halike.setBuffer_left _, ?_, hfit, hframes, htotal⟩
    rw [← hbuffer]
    exact List.append_assoc _ _ _
  rw [receive_eq_processPackets env now hdetect (hinert.not_overflows hchunk)]
  exact hreading.processLoop _

theorem receive_state {chunk : Bytes} (now : TimePoint) (hdetect : w.link.state ≠ .detect)
    (hinert : Inert w.link) (hchunk : chunk.length ≤ 65536) :
    (receive env chunk now w).link.state ≠ .detect := by
  have hstate : (w.setBuffer (w.link.receiveBuffer ++ chunk)).link.state ≠ .detect := hdetect
  rw [receive_eq_processPackets env now hdetect (hinert.not_overflows hchunk)]
  exact (processLoop_waiting env now _ hstate (Nat.le_refl _)).1

/-- A link that has left Detect, and what it holds between two calls. -/
structure Listening (link : PhoneLink) : Prop where
  detect : link.state ≠ .detect
  inert : Inert link

theorem Listening.receive {chunk : Bytes} (now : TimePoint) (h : Listening w.link)
    (hchunk : chunk.length ≤ 65536) : Listening (receive env chunk now w).link :=
  ⟨receive_state now h.detect h.inert hchunk, inert_receive env now h.inert hchunk⟩

theorem receiveAll_listening {chunks : List (Bytes × TimePoint)}
    (hchunks : ∀ chunk ∈ chunks, chunk.1.length ≤ 65536) (h : Listening w.link) :
    Listening (receiveAll env chunks w).link := by
  induction chunks generalizing w with
  | nil => exact h
  | cons chunk chunks ih =>
      exact ih (fun other hother => hchunks other (List.mem_cons_of_mem _ hother))
        (h.receive chunk.2 (hchunks chunk List.mem_cons_self))

theorem steps_receiveAll (chunks : List (Bytes × TimePoint)) (w : World σ) :
    Steps env w (receiveAll env chunks w) := by
  induction chunks generalizing w with
  | nil => exact .refl
  | cons chunk chunks ih => exact (steps_receive env chunk.1 chunk.2 w).trans (ih _)

/-- After the chunks what waits is the rest of the stream, or a reset was read. -/
theorem Reading.receiveAll {chunks : List (Bytes × TimePoint)} {later : Bytes}
    (hchunks : ∀ chunk ∈ chunks, chunk.1.length ≤ 65536)
    (h : Reading env frames total ((chunks.map Prod.fst).flatten ++ later) w)
    (hlistening : Listening w.link) :
    Reading env frames total later (receiveAll env chunks w) ∨
      ResetRead frames total (receiveAll env chunks w) := by
  induction chunks generalizing w with
  | nil => exact Or.inl h
  | cons chunk chunks ih =>
      have hchunk := hchunks chunk List.mem_cons_self
      rw [List.map_cons, List.flatten_cons, List.append_assoc] at h
      rcases h.receive chunk.2 hlistening.detect hlistening.inert hchunk with hreading | hreset
      · exact ih (fun other hother => hchunks other (List.mem_cons_of_mem _ hother)) hreading
          (hlistening.receive chunk.2 hchunk)
      · exact Or.inr (hreset.steps (steps_receiveAll chunks _))

/-- When everything has arrived no frame is left. -/
theorem Reading.complete (h : Reading env frames total [] w) (hlistening : Listening w.link) :
    w.packets = total := by
  obtain ⟨c, ⟨noise, hnoise⟩, items, halike, hbuffer, hfit, -, htotal⟩ := h
  rw [List.append_nil] at hbuffer
  have hstream : w.link.receiveBuffer = noise ++ itemsBytes items := hbuffer
  have hinert := hlistening.inert
  unfold Inert at hinert
  rw [if_neg hlistening.detect] at hinert
  have hnone : framesOf items = [] := by
    by_contra hframes
    rcases hinert with hshort | ⟨header, hff, h5a, hdecode, -, hlength⟩
    · have hnine := nine_le_itemsBytes hframes
      rw [hstream, List.length_append] at hshort
      omega
    · -- the buffer starts with a frame, and that is the next frame of the stream
      rw [hstream] at hff h5a hdecode hlength
      match noise, hnoise with
      | first :: noise, hnoise =>
          -- noise does not begin with `ff`
          have hfirst : first = 0xff := hff
          exact hnoise (by rw [hfirst]; exact List.mem_cons_self)
      | [], _ =>
          match items with
          | [] => exact hframes rfl
          | (.marker, after) :: items =>
              -- neither does a marker begin a frame
              have hmarker : (0x55 : UInt8) = 0x5a := h5a
              exact absurd hmarker (by decide)
          | (.frame wire, after) :: items =>
              -- a frame does not fit into the few bytes that are left
              have hnine := wire.frameOf.nine_le
              have hwire := wire.frameOf.decoded
              have htake : (wire.bytes ++ (after.1 ++ itemsBytes items)).take 9 =
                  wire.bytes.take 9 := List.take_append_of_le_length hnine
              have hdecode' : decodeHeader ((wire.bytes ++ (after.1 ++ itemsBytes items)).take 9) =
                  some header := hdecode
              rw [htake, hwire] at hdecode'
              cases hdecode'
              have hlength' : (wire.bytes ++ (after.1 ++ itemsBytes items)).length <
                  wire.header.length.toNat := hlength
              rw [List.length_append, wire.frameOf.length] at hlength'
              omega
  rw [hnone] at htotal
  rw [← htotal]
  exact (List.append_nil _).symm

end Chunks

/-- A link past Detect with an empty buffer handles each frame of a stream once, in order,
with the header and the payload it was encoded from, up to the first reset; wherever the
stream is cut into chunks, and whenever they arrive. -/
theorem frameStream_handled (w : World σ) (noise : Noise) (items : List (Item × Noise))
    (chunks : List (Bytes × TimePoint)) (hdetect : w.link.state ≠ .detect)
    (hbuffer : w.link.receiveBuffer = []) (hfit : FitInTurn env w (framesOf items))
    (hchunks : ∀ chunk ∈ chunks, chunk.1.length ≤ 65536)
    (hstream : (chunks.map Prod.fst).flatten = streamBytes noise items) :
    w.packets ++ (upToReset (framesOf items)).map WireFrame.packet <+:
        (receiveAll env chunks w).packets ∧
      ((∀ frame ∈ framesOf items, frame.isReset = false) →
        (receiveAll env chunks w).packets = w.packets ++ (framesOf items).map WireFrame.packet) := by
  have hlistening : Listening w.link := by
    refine ⟨hdetect, ?_⟩
    unfold Inert
    rw [if_neg hdetect, hbuffer]
    exact Or.inl (by decide)
  -- nothing has been read: the canonical world is the world itself
  have hstart : Reading env (framesOf items)
      (w.packets ++ (upToReset (framesOf items)).map WireFrame.packet)
      ((chunks.map Prod.fst).flatten ++ []) w := by
    refine ⟨w, noise, items, .refl w, ?_, hfit, fun _ hframe => hframe, rfl⟩
    rw [hbuffer, List.nil_append, List.append_nil, hstream]
  rcases hstart.receiveAll hchunks hlistening with hreading | ⟨⟨frame, hframe, hreset⟩, hread⟩
  · have hall := hreading.complete (receiveAll_listening hchunks hlistening)
    constructor
    · rw [hall]
    · intro hnone
      rw [hall, upToReset_eq hnone]
  · constructor
    · exact hread
    · intro hnone
      rw [hnone frame hframe] at hreset
      cases hreset

/-- A data frame whose payload looks like the start of another frame. -/
def nestedFrame : WireFrame where
  sender := {}
  control := kControlAck
  sequence := 4
  sessionId := kControlSessionId
  payload := [0xff, 0x5a, 0x00, 0x09]
  fits := by decide

/-- Noise, a marker, that frame and one without a payload, cut inside the marker and inside
the frame. -/
theorem frameStream_handled_nested :
    (receiveAll (Env.accepting none) [([0x07, 0xff, 0x55], 0), ([0x02, 0x00, 0xee, 0x10, 0xff], 1),
        (nestedFrame.bytes.tail ++ encodePacket {} [] 5 kControlAck 0, 2)]
      ⟨{ state := .normal }, (), []⟩).packets =
      [nestedFrame.packet, (headerOf kControlAck 5 0 0 [], [])] := by
  have h := (frameStream_handled (Env.accepting none) ⟨{ state := .normal }, (), []⟩
    ⟨[0x07], by decide⟩
    [(.marker, ⟨[], by decide⟩), (.frame nestedFrame, ⟨[], by decide⟩),
      (.frame ⟨{}, kControlAck, 5, 0, [], by decide⟩, ⟨[], by decide⟩)]
    [([0x07, 0xff, 0x55], 0), ([0x02, 0x00, 0xee, 0x10, 0xff], 1),
      (nestedFrame.bytes.tail ++ encodePacket {} [] 5 kControlAck 0, 2)]
    (by decide) rfl ⟨by decide +kernel, fun _ => ⟨by decide +kernel, fun _ => trivial⟩⟩
    (by decide +kernel) (by decide +kernel)).2
  exact h (by decide +kernel)

end Iap2
end Aa2acp
