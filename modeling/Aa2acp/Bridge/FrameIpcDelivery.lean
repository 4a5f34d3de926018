import Aa2acp.Bridge.FrameIpc

/-!
# Delivery of frames at most once and in order

Every connection carries whole frames and at most a part of the next one (`carries`),
because a frame counts as sent only when its last byte was written.  A frame that breaks
off goes back in front of the newer ones, so the frames in the connections, the one in
the writer's hands and the queue together are a part of what `send` accepted, in order
(`order`).  The receiver follows the connections from the first to the last and hands out
whole frames only (`ReaderAt`).
-/

namespace Aa2acp
namespace Bridge
namespace FrameIpc

open LengthPrefix

/-! ## The queue -/

/-- The sizes that `send` lets through. -/
def Sendable (frame : Bytes) : Prop := frame ≠ [] ∧ frame.length ≤ kMaximumFrameSize

theorem Sendable.fits {frame : Bytes} (h : Sendable frame) : Fits frame := by
  have hlength := h.2
  simp only [Fits, kMaximumFrameSize] at hlength ⊢
  omega

/-- The bytes of all the frames in the queue. -/
def totalBytes (frames : List Bytes) : ℕ := (frames.map List.length).sum

structure FrameQueue.Sound (queue : FrameQueue) : Prop where
  count : queue.frames.length ≤ kMaximumQueuedFrames
  bytes : queue.queuedBytes ≤ kMaximumQueuedBytes
  sum : queue.queuedBytes = totalBytes queue.frames
  sendable : ∀ frame ∈ queue.frames, Sendable frame

theorem sound_empty : FrameQueue.Sound {} where
  count := Nat.zero_le _
  bytes := Nat.zero_le _
  sum := rfl
  sendable := by simp

namespace FrameQueue

/-- What `send` does: it refuses, or the frame is at the end of the queue. -/
theorem send_cases (frame : Bytes) (queue : FrameQueue) :
    queue.send frame = (false, queue) ∨
      Sendable frame ∧ queue.HasRoom frame ∧
        queue.send frame =
          (true, ⟨queue.frames ++ [frame], queue.queuedBytes + frame.length⟩) := by
  unfold send
  split
  · exact Or.inl rfl
  · rename_i hframe
    split
    · exact Or.inl rfl
    · rename_i hroom
      simp only [not_or, not_lt, ge_iff_le, not_le, gt_iff_lt] at hframe hroom
      exact Or.inr ⟨⟨hframe.1, hframe.2.1⟩, hroom, rfl⟩

theorem Sound.send {queue : FrameQueue} (h : queue.Sound) (frame : Bytes) :
    (queue.send frame).2.Sound := by
  rcases queue.send_cases frame with heq | ⟨hframe, hroom, heq⟩
  · rw [heq]
    exact h
  · rw [heq]
    refine ⟨?_, hroom.2, ?_, ?_⟩
    · have hcount := hroom.1
      simp only [List.length_append, List.length_singleton]
      omega
    · simp [totalBytes, h.sum]
    · intro other hother
      rcases List.mem_append.mp hother with hqueued | hnew
      · exact h.sendable other hqueued
      · rw [List.mem_singleton.mp hnew]
        exact hframe

theorem take_eq_some {queue rest : FrameQueue} {frame : Bytes}
    (h : queue.take = some (frame, rest)) :
    queue.frames = frame :: rest.frames ∧
      rest.queuedBytes = queue.queuedBytes - frame.length := by
  unfold take at h
  split at h
  · cases h
  · rename_i hframes
    cases h
    exact ⟨hframes, rfl⟩

theorem Sound.take {queue rest : FrameQueue} {frame : Bytes} (h : queue.Sound)
    (htake : queue.take = some (frame, rest)) : rest.Sound ∧ Sendable frame := by
  obtain ⟨hframes, hbytes⟩ := take_eq_some htake
  have hcount := h.count
  have hle := h.bytes
  have hsum := h.sum
  have hsendable := h.sendable
  rw [hframes] at hcount hsum hsendable
  simp only [totalBytes, List.map_cons, List.sum_cons, List.length_cons] at hsum hcount
  refine ⟨⟨by omega, by omega, by rw [hbytes, hsum, totalBytes]; omega, fun other hother => ?_⟩,
    hsendable frame List.mem_cons_self⟩
  exact hsendable other (List.mem_cons_of_mem _ hother)

theorem Sound.requeue {queue : FrameQueue} {frame : Bytes} (h : queue.Sound)
    (hframe : Sendable frame) : (queue.requeue frame).Sound := by
  unfold FrameQueue.requeue
  split
  · rename_i hroom
    refine ⟨hroom.1, hroom.2, ?_, ?_⟩
    · simp [totalBytes, h.sum, Nat.add_comm]
    · exact List.forall_mem_cons.mpr ⟨hframe, h.sendable⟩
  · exact h

/-- The frame is back in front of the others, or it is dropped. -/
theorem requeue_sublist (frame : Bytes) (queue : FrameQueue) :
    (queue.requeue frame).frames.Sublist (frame :: queue.frames) := by
  unfold requeue
  split
  · exact List.Sublist.refl _
  · exact List.sublist_cons_self _ _

end FrameQueue

/-! ## The connections -/

theorem getD_append_nil (streams : List Bytes) (index : ℕ) :
    (streams ++ [[]]).getD index [] = streams.getD index [] := by
  simp only [List.getD_eq_getElem?_getD, List.getElem?_append]
  split
  · rfl
  · rename_i h
    rw [List.getElem?_eq_none (not_lt.mp h)]
    cases index - streams.length <;> rfl

theorem getD_write (s : IpcState) (bytes : Bytes) (index : ℕ) (hpos : 0 < s.streams.length) :
    (s.write bytes).streams.getD index [] =
      s.streams.getD index [] ++ if index = s.streams.length - 1 then bytes else [] := by
  simp only [IpcState.write, List.getD_eq_getElem?_getD, List.getElem?_modify]
  by_cases hlast : index = s.streams.length - 1
  · subst hlast
    have hlt : s.streams.length - 1 < s.streams.length := by omega
    simp [List.getElem?_eq_getElem hlt]
  · simp [hlast, Ne.symm hlast]

@[simp] theorem length_streams_write (s : IpcState) (bytes : Bytes) :
    (s.write bytes).streams.length = s.streams.length := by
  simp [IpcState.write]

/-- The frames that went through the first connections as a whole. -/
def framesBefore (count : ℕ) (frames : ℕ → List Bytes) : List Bytes :=
  (List.range count).flatMap frames

@[simp] theorem framesBefore_succ (count : ℕ) (frames : ℕ → List Bytes) :
    framesBefore (count + 1) frames = framesBefore count frames ++ frames count := by
  simp [framesBefore, List.range_succ]

theorem framesBefore_congr {count : ℕ} {frames frames' : ℕ → List Bytes}
    (h : ∀ index < count, frames' index = frames index) :
    framesBefore count frames' = framesBefore count frames := by
  induction count with
  | zero => rfl
  | succ count ih =>
      rw [framesBefore_succ, framesBefore_succ, ih fun index hindex => h index (by omega),
        h count (by omega)]

theorem framesBefore_sublist {frames frames' : ℕ → List Bytes}
    (h : ∀ index, frames index <+: frames' index) (count : ℕ) :
    (framesBefore count frames).Sublist (framesBefore count frames') := by
  induction count with
  | zero => exact List.Sublist.refl _
  | succ count ih =>
      rw [framesBefore_succ, framesBefore_succ]
      exact ih.append (h count).sublist

/-! ## The invariant -/

/-- The frame that the writer has taken and not yet sent. -/
def WriterStage.inHand : WriterStage → List Bytes
  | .waiting | .stopped => []
  | .connecting frame | .failed frame => [frame]
  | .sendingHeader frame _ | .sendingFrame frame _ => [frame]

/-- The connection made last stands behind whole frames and a part of the next one. -/
def EndsIn (streams : List Bytes) (frames : ℕ → List Bytes) (part : Bytes) : Prop :=
  0 < streams.length ∧
    streams.getD (streams.length - 1) [] = prefixedAll (frames (streams.length - 1)) ++ part

/-- A part of `frame` was written into the connection made last; `remaining` was not. -/
structure Sending (connected : Bool) (streams : List Bytes) (frames : ℕ → List Bytes)
    (frame remaining : Bytes) : Prop where
  sendable : Sendable frame
  connected : connected = true
  unfinished : remaining ≠ []
  written : ∃ part, part ++ remaining = prefixed frame ∧ EndsIn streams frames part

def WriterAt (stage : WriterStage) (connected : Bool) (streams : List Bytes)
    (frames : ℕ → List Bytes) : Prop :=
  match stage with
  | .waiting => connected = true → EndsIn streams frames []
  | .connecting frame | .failed frame => connected = false ∧ Sendable frame
  | .sendingHeader frame rest => Sending connected streams frames frame (rest ++ frame)
  | .sendingFrame frame rest => Sending connected streams frames frame rest
  | .stopped => True

/-- What has been read of the frame that comes next. -/
def ClientStage.read : ClientStage → Bytes
  | .header got => got
  | .frame size got => bigEndian 4 size ++ got

def ClientStage.Valid : ClientStage → Prop
  | .header got => got.length < 4
  | .frame size got => got.length < size ∧ size ≤ kMaximumFrameSize

structure Reading (streams : List Bytes) (accepted : ℕ) (delivered : List Bytes)
    (frames : ℕ → List Bytes) (client : Client) : Prop where
  index : client.index + 1 = accepted
  valid : ClientStage.Valid client.stage
  consumed : client.consumed ≤ (streams.getD client.index []).length
  delivered : ∃ before now, delivered = before ++ now ∧
    before.Sublist (framesBefore client.index frames) ∧ now <+: frames client.index ∧
    (streams.getD client.index []).take client.consumed =
      prefixedAll now ++ ClientStage.read client.stage

def ReaderAt (streams : List Bytes) (accepted : ℕ) (client : Option Client)
    (delivered : List Bytes) (frames : ℕ → List Bytes) : Prop :=
  accepted ≤ streams.length ∧
    match client with
    | none => delivered.Sublist (framesBefore accepted frames)
    | some client => Reading streams accepted delivered frames client

/-- `frames index` are the frames that were written into a connection as a whole. -/
structure Flow (s : IpcState) (frames : ℕ → List Bytes) : Prop where
  queue : s.queue.Sound
  sendable : ∀ index, ∀ frame ∈ frames index, Sendable frame
  beyond : ∀ index, s.streams.length ≤ index → frames index = []
  carries : ∀ index, ∃ part, Part part ∧
    s.streams.getD index [] = prefixedAll (frames index) ++ part
  writer : WriterAt s.stage s.connected s.streams frames
  order : (framesBefore s.streams.length frames ++ (WriterStage.inHand s.stage ++
    s.queue.frames)).Sublist s.sent
  reader : ReaderAt s.streams s.accepted s.client s.delivered frames

theorem flow_fresh : Flow {} fun _ => [] where
  queue := sound_empty
  sendable := by simp
  beyond _ _ := rfl
  carries _ := ⟨[], part_nil, rfl⟩
  writer := by simp [WriterAt]
  order := by simp [framesBefore, WriterStage.inHand]
  reader := ⟨le_rfl, List.Sublist.refl _⟩

/-- The receiver does not notice when connections and their frames grow at the end. -/
theorem ReaderAt.grow {streams streams' : List Bytes} {accepted : ℕ} {client : Option Client}
    {delivered : List Bytes} {frames frames' : ℕ → List Bytes}
    (h : ReaderAt streams accepted client delivered frames)
    (hlength : streams.length ≤ streams'.length)
    (hstream : ∀ index, streams.getD index [] <+: streams'.getD index [])
    (hframes : ∀ index, frames index <+: frames' index) :
    ReaderAt streams' accepted client delivered frames' := by
  obtain ⟨haccepted, hclient⟩ := h
  refine ⟨haccepted.trans hlength, ?_⟩
  cases client with
  | none => exact hclient.trans (framesBefore_sublist hframes _)
  | some client =>
      obtain ⟨before, now, hsplit, hbefore, hnow, hread⟩ := hclient.delivered
      refine ⟨hclient.index, hclient.valid, hclient.consumed.trans (hstream _).length_le, before,
        now, hsplit, hbefore.trans (framesBefore_sublist hframes _), hnow.trans (hframes _), ?_⟩
      obtain ⟨more, hmore⟩ := hstream client.index
      rw [← hmore, List.take_append_of_le_length hclient.consumed, hread]

/-! ## The steps of the writer -/

section

variable {s s' : IpcState} {frames : ℕ → List Bytes}

theorem Flow.send (h : Flow s frames) (frame : Bytes) :
    Flow { s with
      queue := (s.queue.send frame).2
      sent := if (s.queue.send frame).1 then s.sent ++ [frame] else s.sent } frames where
  queue := h.queue.send frame
  sendable := h.sendable
  beyond := h.beyond
  carries := h.carries
  writer := h.writer
  order := by
    rcases s.queue.send_cases frame with heq | ⟨-, -, heq⟩
    · simp only [heq, Bool.false_eq_true, if_false]
      exact h.order
    · simp only [heq, if_true, ← List.append_assoc]
      have horder := h.order
      simp only [← List.append_assoc] at horder
      exact horder.append (List.Sublist.refl [frame])
  reader := h.reader

/-- A frame that is about to be sent over an open connection. -/
theorem sending_of_boundary {connected : Bool} {streams : List Bytes} {frame : Bytes}
    (hframe : Sendable frame) (hconnected : connected = true) (hends : EndsIn streams frames []) :
    Sending connected streams frames frame (bigEndian 4 frame.length ++ frame) where
  sendable := hframe
  connected := hconnected
  unfinished := by simp [hframe.1]
  written := ⟨[], rfl, hends⟩

theorem Flow.take (h : Flow s frames) (hstage : s.stage = .waiting) {frame : Bytes}
    {queue : FrameQueue} (htake : s.queue.take = some (frame, queue)) :
    Flow { s with
      queue := queue
      stage := if s.connected then .sendingHeader frame (bigEndian 4 frame.length)
        else .connecting frame } frames := by
  obtain ⟨hqueue, hframe⟩ := h.queue.take htake
  have hframes := (FrameQueue.take_eq_some htake).1
  have hwriter := h.writer
  have horder := h.order
  rw [hstage] at hwriter horder
  rw [hframes] at horder
  refine ⟨hqueue, h.sendable, h.beyond, h.carries, ?_, ?_, h.reader⟩
  · show WriterAt (if s.connected then _ else _) s.connected s.streams frames
    cases hconnected : s.connected with
    | true => exact sending_of_boundary hframe rfl (hwriter hconnected)
    | false => exact ⟨rfl, hframe⟩
  · cases hconnected : s.connected <;> simpa [WriterStage.inHand, hconnected] using horder

/-- A new connection, with nothing in it. -/
theorem Flow.carries_new (h : Flow s frames) (index : ℕ) : ∃ part, Part part ∧
    (s.streams ++ [[]]).getD index [] = prefixedAll (frames index) ++ part := by
  rw [getD_append_nil]
  exact h.carries index

theorem Flow.reader_new (h : Flow s frames) :
    ReaderAt (s.streams ++ [[]]) s.accepted s.client s.delivered frames :=
  h.reader.grow (by simp) (fun index => by rw [getD_append_nil]) fun _ => List.prefix_rfl

theorem Flow.framesBefore_new (h : Flow s frames) :
    framesBefore (s.streams ++ [[]]).length frames = framesBefore s.streams.length frames := by
  rw [List.length_append, List.length_singleton, framesBefore_succ, h.beyond _ le_rfl,
    List.append_nil]

theorem Flow.endsIn_new (h : Flow s frames) : EndsIn (s.streams ++ [[]]) frames [] := by
  refine ⟨by simp, ?_⟩
  rw [List.length_append, List.length_singleton, Nat.add_sub_cancel, h.beyond _ le_rfl,
    getD_append_nil]
  simp

theorem Flow.connect (h : Flow s frames) {frame : Bytes} (hstage : s.stage = .connecting frame)
    (outcome : ConnectOutcome) : Flow (s.connect outcome frame) frames := by
  have hwriter := h.writer
  have horder := h.order
  rw [hstage] at hwriter horder
  have hbeyond : ∀ index, (s.streams ++ [[]]).length ≤ index → frames index = [] := by
    intro index hindex
    rw [List.length_append] at hindex
    exact h.beyond index (by omega)
  cases outcome with
  | established =>
      refine ⟨h.queue, h.sendable, hbeyond, h.carries_new,
        sending_of_boundary hwriter.2 rfl h.endsIn_new, ?_, h.reader_new⟩
      show (framesBefore (s.streams ++ [[]]).length frames ++ _).Sublist _
      rw [h.framesBefore_new]
      exact horder
  | refused => exact ⟨h.queue, h.sendable, h.beyond, h.carries, hwriter, horder, h.reader⟩
  | abandoned =>
      refine ⟨h.queue, h.sendable, hbeyond, h.carries_new, hwriter, ?_, h.reader_new⟩
      show (framesBefore (s.streams ++ [[]]).length frames ++ _).Sublist _
      rw [h.framesBefore_new]
      exact horder

theorem EndsIn.write {part : Bytes} (h : EndsIn s.streams frames part) (bytes : Bytes) :
    EndsIn (s.write bytes).streams frames (part ++ bytes) := by
  obtain ⟨hopened, hlast⟩ := h
  refine ⟨by simpa using hopened, ?_⟩
  rw [length_streams_write, getD_write s bytes _ hopened, if_pos rfl, hlast, List.append_assoc]

theorem prefix_write (hopened : 0 < s.streams.length) (bytes : Bytes) (index : ℕ) :
    s.streams.getD index [] <+: (s.write bytes).streams.getD index [] := by
  rw [getD_write s bytes index hopened]
  exact List.prefix_append _ _

/-- The next bytes of a frame, but not the last ones. -/
theorem Sending.write {frame bytes more : Bytes}
    (h : Sending s.connected s.streams frames frame (bytes ++ more)) (hmore : more ≠ []) :
    Sending s.connected (s.write bytes).streams frames frame more := by
  obtain ⟨part, hpart, hends⟩ := h.written
  exact ⟨h.sendable, h.connected, hmore, part ++ bytes, by rw [List.append_assoc, hpart],
    hends.write bytes⟩

theorem Flow.write_part (h : Flow s frames) {frame bytes more : Bytes}
    (hsending : Sending s.connected s.streams frames frame (bytes ++ more)) (hmore : more ≠ [])
    {stage : WriterStage} (hhand : WriterStage.inHand s.stage = WriterStage.inHand stage)
    (hwriter : WriterAt stage s.connected (s.write bytes).streams frames) :
    Flow { s.write bytes with stage := stage } frames := by
  obtain ⟨part, hpart, hopened, hlast⟩ := hsending.written
  have hlength := length_streams_write s bytes
  refine ⟨h.queue, h.sendable, fun index hindex => h.beyond index (hlength ▸ hindex),
    fun index => ?_, hwriter, ?_, ?_⟩
  · show ∃ part, Part part ∧ (s.write bytes).streams.getD index [] = _
    rw [getD_write s bytes index hopened]
    by_cases hindex : index = s.streams.length - 1
    · refine ⟨part ++ bytes, ⟨frame, more, hsending.sendable.fits, hmore, ?_⟩, ?_⟩
      · rw [List.append_assoc, hpart]
      · rw [if_pos hindex, hindex, hlast, List.append_assoc]
    · rw [if_neg hindex, List.append_nil]
      exact h.carries index
  · show (framesBefore (s.write bytes).streams.length frames ++
      (WriterStage.inHand stage ++ s.queue.frames)).Sublist s.sent
    rw [hlength, ← hhand]
    exact h.order
  · exact h.reader.grow hlength.ge (prefix_write hopened bytes) fun _ => List.prefix_rfl

/-- The frames of the connections after `frame` went through the one made last. -/
def completed (streams : List Bytes) (frame : Bytes) (frames : ℕ → List Bytes) :
    ℕ → List Bytes :=
  Function.update frames (streams.length - 1) (frames (streams.length - 1) ++ [frame])

theorem framesBefore_completed {streams : List Bytes} (hopened : 0 < streams.length)
    (frame : Bytes) (frames : ℕ → List Bytes) :
    framesBefore streams.length (completed streams frame frames) =
      framesBefore streams.length frames ++ [frame] := by
  obtain ⟨last, hlast⟩ := Nat.exists_eq_succ_of_ne_zero hopened.ne'
  have hbefore : framesBefore last (completed streams frame frames) = framesBefore last frames := by
    refine framesBefore_congr fun index hindex => Function.update_of_ne ?_ _ _
    omega
  rw [hlast, Nat.succ_eq_add_one, framesBefore_succ, framesBefore_succ, hbefore]
  simp [completed, hlast]

theorem prefix_completed (streams : List Bytes) (frame : Bytes) (index : ℕ) :
    frames index <+: completed streams frame frames index := by
  unfold completed
  by_cases hindex : index = streams.length - 1
  · subst hindex
    simp
  · rw [Function.update_of_ne hindex]

/-- The last bytes of a frame. -/
theorem Flow.write_whole (h : Flow s frames) {frame bytes : Bytes}
    (hsending : Sending s.connected s.streams frames frame bytes)
    (hhand : WriterStage.inHand s.stage = [frame]) :
    Flow { s.write bytes with stage := .waiting } (completed s.streams frame frames) := by
  obtain ⟨part, hpart, hopened, hlast⟩ := hsending.written
  have hlength := length_streams_write s bytes
  have hwhole : (s.write bytes).streams.getD (s.streams.length - 1) [] =
      prefixedAll (completed s.streams frame frames (s.streams.length - 1)) := by
    rw [getD_write s bytes _ hopened, if_pos rfl, hlast, List.append_assoc, hpart]
    simp [completed]
  refine ⟨h.queue, fun index other hother => ?_, fun index hindex => ?_, fun index => ?_,
    fun _ => ⟨by simpa using hopened, ?_⟩, ?_, ?_⟩
  · by_cases hindex : index = s.streams.length - 1
    · subst hindex
      simp only [completed, Function.update_self, List.mem_append, List.mem_singleton] at hother
      rcases hother with hbefore | rfl
      · exact h.sendable _ other hbefore
      · exact hsending.sendable
    · rw [completed, Function.update_of_ne hindex] at hother
      exact h.sendable index other hother
  · have hindex' : s.streams.length ≤ index := hlength ▸ hindex
    rw [completed, Function.update_of_ne (by omega)]
    exact h.beyond index hindex'
  · show ∃ part, Part part ∧ (s.write bytes).streams.getD index [] = _
    by_cases hindex : index = s.streams.length - 1
    · subst hindex
      exact ⟨[], part_nil, by rw [hwhole, List.append_nil]⟩
    · rw [getD_write s bytes index hopened, if_neg hindex, List.append_nil, completed,
        Function.update_of_ne hindex]
      exact h.carries index
  · show (s.write bytes).streams.getD ((s.write bytes).streams.length - 1) [] = _
    rw [hlength, hwhole, List.append_nil]
  · show (framesBefore (s.write bytes).streams.length (completed s.streams frame frames) ++
      ([] ++ s.queue.frames)).Sublist s.sent
    have horder := h.order
    rw [hhand] at horder
    rw [hlength, framesBefore_completed hopened, List.nil_append, List.append_assoc]
    exact horder
  · exact h.reader.grow hlength.ge (prefix_write hopened bytes) (prefix_completed s.streams frame)

theorem Flow.transmit (h : Flow s frames) {count : ℕ} (hstep : s.transmit count = some s') :
    ∃ frames', Flow s' frames' := by
  have hwriter := h.writer
  unfold IpcState.transmit at hstep
  split at hstep
  · rename_i frame rest hstage
    rw [hstage] at hwriter
    split at hstep
    · cases hstep
      have hsending : Sending s.connected s.streams frames frame
          (rest.take count ++ (rest.drop count ++ frame)) := by
        rw [← List.append_assoc, List.take_append_drop]
        exact hwriter
      have hmore : rest.drop count ++ frame ≠ [] := by simp [hwriter.sendable.1]
      have hnext := hsending.write hmore
      refine ⟨frames, h.write_part hsending hmore ?_ ?_⟩
      · rw [hstage]
        split <;> rfl
      · split
        · rename_i hdone
          rw [hdone, List.nil_append] at hnext
          exact hnext
        · exact hnext
    · cases hstep
  · rename_i frame rest hstage
    rw [hstage] at hwriter
    split at hstep
    · cases hstep
      by_cases hdone : rest.drop count = []
      · have hall : rest.take count = rest := by
          have hsplit := List.take_append_drop count rest
          rwa [hdone, List.append_nil] at hsplit
        refine ⟨completed s.streams frame frames, ?_⟩
        simp only [hdone, if_true, hall]
        exact h.write_whole hwriter (by rw [hstage]; rfl)
      · have hsending : Sending s.connected s.streams frames frame
            (rest.take count ++ rest.drop count) := by
          rw [List.take_append_drop]
          exact hwriter
        refine ⟨frames, ?_⟩
        simp only [hdone, if_false]
        exact h.write_part hsending hdone (by rw [hstage]; rfl) (hsending.write hdone)
    · cases hstep
  · cases hstep

theorem Flow.lose (h : Flow s frames) {frame : Bytes}
    (hstage : WriterStage.inHand s.stage = [frame]) (hframe : Sendable frame) :
    Flow { s with connected := false, stage := .failed frame } frames where
  queue := h.queue
  sendable := h.sendable
  beyond := h.beyond
  carries := h.carries
  writer := ⟨rfl, hframe⟩
  order := by
    have horder := h.order
    rw [hstage] at horder
    exact horder
  reader := h.reader

theorem Flow.requeue (h : Flow s frames) {frame : Bytes} (hstage : s.stage = .failed frame) :
    Flow { s with
      queue := if s.stopping then s.queue else s.queue.requeue frame
      stage := .waiting } frames := by
  have hwriter := h.writer
  have horder := h.order
  rw [hstage] at hwriter horder
  have hconnected : s.connected = false := hwriter.1
  refine ⟨?_, h.sendable, h.beyond, h.carries, ?_, ?_, h.reader⟩
  · cases s.stopping
    · exact h.queue.requeue hwriter.2
    · exact h.queue
  · intro hopen
    rw [hconnected] at hopen
    cases hopen
  · refine List.Sublist.trans ?_ horder
    refine (List.Sublist.refl _).append ?_
    show (if s.stopping then s.queue else s.queue.requeue frame).frames.Sublist
      (frame :: s.queue.frames)
    cases s.stopping
    · exact s.queue.requeue_sublist frame
    · exact List.sublist_cons_self _ _

/-! ## The steps of the receiver -/

/-- What was read of a connection, when it is given up. -/
theorem Reading.closed {client : Client}
    (h : Reading s.streams s.accepted s.delivered frames client) :
    s.delivered.Sublist (framesBefore s.accepted frames) := by
  obtain ⟨before, now, hsplit, hbefore, hnow, -⟩ := h.delivered
  rw [hsplit, ← h.index, framesBefore_succ]
  exact hbefore.append hnow.sublist

/-- Every step of the receiver is one of these: the rest of the system stays. -/
theorem Flow.of_reader (h : Flow s frames) {accepted : ℕ} {client : Option Client}
    {delivered : List Bytes} (hreader : ReaderAt s.streams accepted client delivered frames) :
    Flow { s with accepted := accepted, client := client, delivered := delivered } frames where
  queue := h.queue
  sendable := h.sendable
  beyond := h.beyond
  carries := h.carries
  writer := h.writer
  order := h.order
  reader := hreader

theorem Flow.accept (h : Flow s frames) (hclient : s.client = none)
    (hmore : s.accepted < s.streams.length) :
    Flow { s with client := some { index := s.accepted }, accepted := s.accepted + 1 } frames := by
  have hdelivered := h.reader.2
  rw [hclient] at hdelivered
  have hreading : Reading s.streams (s.accepted + 1) s.delivered frames { index := s.accepted } :=
    ⟨rfl, by simp [ClientStage.Valid], Nat.zero_le _, s.delivered, [], by simp, hdelivered,
      List.nil_prefix, by simp [ClientStage.read]⟩
  exact h.of_reader ⟨hmore, hreading⟩

/-- The bytes that follow what was read of a string. -/
theorem take_add_length (stream : Bytes) (consumed count : ℕ) :
    stream.take (consumed + ((stream.drop consumed).take count).length) =
      stream.take consumed ++ (stream.drop consumed).take count := by
  rw [List.take_add]
  congr 1
  rw [List.length_take]
  rcases le_total count (stream.drop consumed).length with hle | hle
  · rw [Nat.min_eq_left hle]
  · rw [Nat.min_eq_right hle, List.take_length, List.take_of_length_le hle]

/-- What `recv` returned was read behind what had been read before. -/
structure Advanced (s : IpcState) (client : Client) (bytes : Bytes) : Prop where
  take : (s.streams.getD client.index []).take (client.consumed + bytes.length) =
    (s.streams.getD client.index []).take client.consumed ++ bytes
  consumed : client.consumed + bytes.length ≤ (s.streams.getD client.index []).length
  length : bytes.length ≤ client.stage.missing

theorem advanced_of_received {client : Client} {count : ℕ} {bytes : Bytes}
    (hconsumed : client.consumed ≤ (s.streams.getD client.index []).length)
    (hbytes : bytes = ((s.stream client.index).drop client.consumed).take
      (min count client.stage.missing)) : Advanced s client bytes := by
  have hlength := congrArg List.length hbytes
  rw [List.length_take, List.length_drop] at hlength
  refine ⟨?_, ?_, by omega⟩
  · rw [hbytes]
    exact take_add_length _ _ _
  · have hstream : (s.stream client.index).length = (s.streams.getD client.index []).length := rfl
    omega

/-- The receiver is still inside a frame. -/
theorem Reading.inside {client : Client} {bytes : Bytes} {stage : ClientStage}
    (h : Reading s.streams s.accepted s.delivered frames client) (hadvanced : Advanced s client bytes)
    (hvalid : stage.Valid) (hread : stage.read = client.stage.read ++ bytes) :
    Reading s.streams s.accepted s.delivered frames
      { client with consumed := client.consumed + bytes.length, stage := stage } := by
  obtain ⟨before, now, hsplit, hbefore, hnow, htake⟩ := h.delivered
  refine ⟨h.index, hvalid, hadvanced.consumed, before, now, hsplit, hbefore, hnow, ?_⟩
  rw [hadvanced.take, htake, hread, List.append_assoc]

/-- A frame that was read to its end is the next one that went through the connection. -/
theorem Flow.delivers (h : Flow s frames) {client : Client} {bytes frame : Bytes}
    (hreading : Reading s.streams s.accepted s.delivered frames client)
    (hadvanced : Advanced s client bytes) (hframe : Fits frame)
    (hread : client.stage.read ++ bytes = prefixed frame) :
    Reading s.streams s.accepted (s.delivered ++ [frame]) frames
      { client with consumed := client.consumed + bytes.length, stage := .header [] } := by
  obtain ⟨before, now, hsplit, hbefore, ⟨later, hlater⟩, htake⟩ := hreading.delivered
  obtain ⟨part, hpart, hcarries⟩ := h.carries client.index
  have hall := hadvanced.take
  rw [htake, List.append_assoc, hread] at hall
  have hstream := List.take_append_drop (client.consumed + bytes.length)
    (s.streams.getD client.index [])
  rw [hall, hcarries, ← hlater, prefixedAll_append, List.append_assoc, List.append_assoc,
    List.append_cancel_left_eq] at hstream
  have hfits : ∀ other ∈ later, Fits other := fun other hother =>
    (h.sendable client.index other (hlater ▸ List.mem_append_right _ hother)).fits
  obtain ⟨rest, hfirst, -⟩ := first_of_stream hfits hpart hframe hstream.symm
  refine ⟨hreading.index, by simp [ClientStage.Valid], hadvanced.consumed, before, now ++ [frame],
    by rw [hsplit, List.append_assoc], hbefore, ⟨rest, ?_⟩, ?_⟩
  · rw [List.append_assoc, List.singleton_append, ← hfirst, hlater]
  · simpa [ClientStage.read] using hall

theorem Flow.received (h : Flow s frames) {client : Client} (hclient : s.client = some client)
    {bytes : Bytes} (hadvanced : Advanced s client bytes) :
    Flow (s.received bytes client) frames := by
  have hreader := h.reader
  rw [hclient] at hreader
  obtain ⟨haccepted, hreading⟩ := hreader
  have hvalid := hreading.valid
  have hlength := hadvanced.length
  unfold IpcState.received
  cases hstage : client.stage with
  | header got =>
      rw [hstage] at hvalid hlength
      have hread : client.stage.read ++ bytes = got ++ bytes := by rw [hstage]; rfl
      dsimp only
      split
      · rename_i hshort
        exact h.of_reader ⟨haccepted, hreading.inside hadvanced hshort hread.symm⟩
      · rename_i hfull
        have hfour : (got ++ bytes).length = 4 := by
          simp only [ClientStage.missing, ClientStage.Valid, List.length_append] at hlength hvalid hfull ⊢
          omega
        split
        · exact h.of_reader ⟨haccepted, hreading.closed⟩
        · rename_i hsize
          refine h.of_reader ⟨haccepted, hreading.inside hadvanced ?_ ?_⟩
          · simp only [ClientStage.Valid, List.length_nil]
            omega
          · rw [hread, ClientStage.read, List.append_nil, ← hfour, bigEndian_ofBigEndian]
  | frame size got =>
      rw [hstage] at hvalid hlength
      obtain ⟨hshort, hsize⟩ := hvalid
      have hread : client.stage.read ++ bytes = bigEndian 4 size ++ (got ++ bytes) := by
        rw [hstage]
        exact List.append_assoc _ _ _
      dsimp only
      split
      · rename_i hmore
        exact h.of_reader ⟨haccepted, hreading.inside hadvanced ⟨hmore, hsize⟩ hread.symm⟩
      · rename_i hfull
        have hwhole : (got ++ bytes).length = size := by
          simp only [ClientStage.missing, List.length_append] at hlength hfull ⊢
          omega
        have hfits : Fits (got ++ bytes) := by
          simp only [Fits, hwhole, kMaximumFrameSize] at hsize ⊢
          omega
        refine h.of_reader ⟨haccepted, h.delivers hreading hadvanced hfits ?_⟩
        rw [hread, prefixed, hwhole]

/-! ## Runs -/

/-- Every step keeps the flow. -/
theorem Flow.step (h : Flow s frames) {event : IpcEvent} (hstep : s.step event = some s') :
    ∃ frames', Flow s' frames' := by
  unfold IpcState.step at hstep
  cases event with
  | send frame =>
      cases hstep
      exact ⟨frames, h.send frame⟩
  | take =>
      dsimp only at hstep
      split at hstep
      · rename_i frame queue hstage htake
        cases hstep
        exact ⟨frames, h.take hstage htake⟩
      · cases hstep
  | connect outcome =>
      dsimp only at hstep
      split at hstep
      · rename_i frame hstage
        cases hstep
        exact ⟨frames, h.connect hstage outcome⟩
      · cases hstep
  | transmit count => exact h.transmit hstep
  | lose =>
      have hwriter := h.writer
      dsimp only at hstep
      split at hstep
      · rename_i frame rest hstage
        cases hstep
        rw [hstage] at hwriter
        exact ⟨frames, h.lose (by rw [hstage]; rfl) hwriter.sendable⟩
      · rename_i frame rest hstage
        cases hstep
        rw [hstage] at hwriter
        exact ⟨frames, h.lose (by rw [hstage]; rfl) hwriter.sendable⟩
      · cases hstep
  | requeue =>
      dsimp only at hstep
      split at hstep
      · rename_i frame hstage
        cases hstep
        exact ⟨frames, h.requeue hstage⟩
      · cases hstep
  | stop =>
      cases hstep
      exact ⟨frames, ⟨h.queue, h.sendable, h.beyond, h.carries, h.writer, h.order, h.reader⟩⟩
  | exit =>
      dsimp only at hstep
      split at hstep
      · rename_i hstage hstopping
        cases hstep
        have horder := h.order
        rw [hstage] at horder
        exact ⟨frames, ⟨h.queue, h.sendable, h.beyond, h.carries, trivial, horder, h.reader⟩⟩
      · cases hstep
  | accept =>
      dsimp only at hstep
      split at hstep
      · rename_i hclient
        split at hstep
        · rename_i hmore
          cases hstep
          exact ⟨frames, h.accept hclient hmore⟩
        · cases hstep
      · cases hstep
  | receive count =>
      have hreader := h.reader
      simp only [IpcState.receive] at hstep
      split at hstep
      · cases hstep
      · rename_i client hclient
        rw [hclient] at hreader
        split at hstep
        · cases hstep
        · cases hstep
          exact ⟨frames, h.received hclient (advanced_of_received hreader.2.consumed rfl)⟩
  | abandon =>
      have hreader := h.reader
      dsimp only at hstep
      split at hstep
      · rename_i client hclient
        cases hstep
        rw [hclient] at hreader
        exact ⟨frames, h.of_reader ⟨hreader.1, hreader.2.closed⟩⟩
      · cases hstep

theorem Flow.run (h : Flow s frames) {events : List IpcEvent} (hrun : s.run events = some s') :
    ∃ frames', Flow s' frames' :=
  Machine.run_invariant (fun s => ∃ frames, Flow s frames)
    (fun _ _ _ ⟨_, hflow⟩ hstep => hflow.step hstep) ⟨frames, h⟩ hrun

/-- Everything that was handed out went through the connections. -/
theorem Flow.delivered_sublist (h : Flow s frames) :
    s.delivered.Sublist (framesBefore s.streams.length frames) := by
  obtain ⟨haccepted, hreader⟩ := h.reader
  have hbefore : s.delivered.Sublist (framesBefore s.accepted frames) := by
    cases hclient : s.client with
    | none =>
        rw [hclient] at hreader
        exact hreader
    | some client =>
        rw [hclient] at hreader
        exact hreader.closed
  obtain ⟨more, hmore⟩ := Nat.exists_eq_add_of_le haccepted
  refine hbefore.trans ?_
  rw [hmore, framesBefore, framesBefore, List.range_add, List.flatMap_append]
  exact List.sublist_append_left _ _

end

/-- In every run, the frames that the receiver hands out are frames that `send` accepted,
unaltered, each at most once and in order; and the queue keeps its bounds. -/
theorem delivered_atMostOnce {events : List IpcEvent} {s : IpcState}
    (h : IpcState.run events {} = some s) :
    s.delivered.Sublist s.sent ∧ s.queue.frames.length ≤ kMaximumQueuedFrames ∧
      totalBytes s.queue.frames ≤ kMaximumQueuedBytes ∧
      s.queue.queuedBytes = totalBytes s.queue.frames := by
  obtain ⟨frames, hflow⟩ := flow_fresh.run h
  have hsum := hflow.queue.sum
  refine ⟨?_, hflow.queue.count, hsum ▸ hflow.queue.bytes, hsum⟩
  exact (hflow.delivered_sublist.trans (List.sublist_append_left _ _)).trans hflow.order

/-- A frame breaks off in its middle, is sent again over a new connection behind its own
partial bytes, and is handed out once, before the newer one. -/
def brokenOff : List IpcEvent :=
  [.send [7, 8], .take, .connect .established, .accept, .transmit 4, .transmit 1, .send [9],
    .receive 4, .receive 2, .lose, .requeue, .take, .connect .established, .transmit 4,
    .transmit 2, .abandon, .accept, .receive 4, .receive 2, .take, .transmit 4, .transmit 1,
    .receive 3, .receive 1, .receive 1]

theorem delivered_atMostOnce_brokenOff :
    ∃ s, IpcState.run brokenOff {} = some s ∧ s.delivered = [[7, 8], [9]] ∧
      s.delivered.Sublist s.sent ∧ s.queue.frames.length ≤ kMaximumQueuedFrames ∧
      totalBytes s.queue.frames ≤ kMaximumQueuedBytes ∧
      s.queue.queuedBytes = totalBytes s.queue.frames := by
  have hsome : (IpcState.run brokenOff {}).isSome := by decide +kernel
  obtain ⟨s, hrun⟩ := Option.isSome_iff_exists.mp hsome
  have hdelivered : (IpcState.run brokenOff {}).map IpcState.delivered = some [[7, 8], [9]] := by
    decide +kernel
  rw [hrun] at hdelivered
  exact ⟨s, hrun, Option.some.inj hdelivered, delivered_atMostOnce hrun⟩

end FrameIpc
end Bridge
end Aa2acp
