import Aa2acp.Bridge.MediaQueue
import Aa2acp.Lib.Checked

/-!
# The accounts of a media forwarder's queue

The places of `src/bridge/media_forwarders.cpp` that change `frames_` and `queued_bytes_`,
once more, with every sum and every difference of `queued_bytes_` watched (`Monitor`).  A
word has `word` values.  In no order of pushes, pops and connections of clients does one of
them wrap, and the counter is the size of what is queued.
-/

namespace Aa2acp
namespace Bridge
namespace MediaForwarders

/-- What changes the queue: `push` of a producer, the worker when it takes a frame out, and
`on_client_connected`. -/
inductive QueueOp where
  | push (bytes : Bytes)
  | pop
  | connect
deriving DecidableEq, Repr

namespace Forwarder

/-- The worker waits on when the queue is empty. -/
def pop (f : Forwarder) : Forwarder :=
  match f.take with
  | none => f
  | some (_, rest) => rest

def apply (kind : MediaKind) : QueueOp → Forwarder → Forwarder
  | .push bytes, f => f.push kind bytes
  | .pop, f => f.pop
  | .connect, f => (f.onClientConnected kind).2

def applyAll (kind : MediaKind) (ops : List QueueOp) (f : Forwarder) : Forwarder :=
  ops.foldl (fun f op => f.apply kind op) f

end Forwarder

/-! ## The monitor -/

namespace Monitor

variable (word : ℕ)

/-- `VideoSocketForwarder::push`. -/
def pushVideo (accessUnit : Bytes) (f : Forwarder) : Checked Forwarder :=
  if accessUnit = [] then .ok f
  else if accessUnit.length > kMaximumQueuedBytes then .ok { f with pushed := f.pushed + 1 }
  else
    let frame : Frame := ⟨accessUnit, f.pushed + 1⟩
    if !(f.scanNalus accessUnit).keyframe then
      if f.frames.length < MediaKind.video.maximumQueuedFrames then do
        let needed ← Checked.add word f.queuedBytes accessUnit.length
        if needed ≤ kMaximumQueuedBytes then do
          let queued ← Checked.add word f.queuedBytes accessUnit.length
          .ok { f.noticed accessUnit with frames := f.frames ++ [frame], queuedBytes := queued }
        else .ok (f.noticed accessUnit)
      else .ok (f.noticed accessUnit)
    else
      .ok { f.noticed accessUnit with
        frames := [frame], queuedBytes := accessUnit.length, keyframe := frame }

/-- The loop of `enqueue`; the size is not looked at when there are too many frames. -/
def dropOldest (kind : MediaKind) (size : ℕ) : List Frame → ℕ → Checked (List Frame × ℕ)
  | [], bytes => .ok ([], bytes)
  | frame :: frames, bytes =>
      if (frame :: frames).length ≥ kind.maximumQueuedFrames then do
        let left ← Checked.sub bytes frame.bytes.length
        dropOldest kind size frames left
      else do
        let needed ← Checked.add word bytes size
        if needed > kMaximumQueuedBytes then do
          let left ← Checked.sub bytes frame.bytes.length
          dropOldest kind size frames left
        else .ok (frame :: frames, bytes)

/-- `MediaSocketForwarder::enqueue`. -/
def enqueue (kind : MediaKind) (frame : Frame) (f : Forwarder) : Checked Forwarder :=
  if frame.bytes = [] ∨ frame.bytes.length > kMaximumQueuedBytes then .ok f
  else do
    let (frames, bytes) ← dropOldest word kind frame.bytes.length f.frames f.queuedBytes
    let queued ← Checked.add word bytes frame.bytes.length
    .ok { f with frames := frames ++ [frame], queuedBytes := queued }

/-- `AudioSocketForwarder::push`. -/
def pushAudio (pcm : Bytes) (f : Forwarder) : Checked Forwarder :=
  if pcm = [] then .ok f
  else enqueue word .audio ⟨pcm, f.pushed + 1⟩ { f with pushed := f.pushed + 1 }

/-- The worker takes a frame out. -/
def pop (f : Forwarder) : Checked Forwarder :=
  match f.frames with
  | [] => .ok f
  | frame :: frames => do
      let left ← Checked.sub f.queuedBytes frame.bytes.length
      .ok { f with frames := frames, queuedBytes := left }

/-- A connection sets the counter, or leaves it alone. -/
def apply (kind : MediaKind) : QueueOp → Forwarder → Checked Forwarder
  | .push bytes, f =>
      match kind with
      | .video => pushVideo word bytes f
      | .audio => pushAudio word bytes f
  | .pop, f => pop f
  | .connect, f => .ok (f.onClientConnected kind).2

def applyAll (kind : MediaKind) : List QueueOp → Forwarder → Checked Forwarder
  | [], f => .ok f
  | op :: ops, f => do
      let next ← apply word kind op f
      applyAll kind ops next

variable {word} {kind : MediaKind} {f : Forwarder}

/-- While the queue is within its bounds, no sum of a push wraps. -/
theorem pushVideo_eq (hword : 2 ^ 32 ≤ word) (h : f.Sound .video) (accessUnit : Bytes) :
    pushVideo word accessUnit f = .ok (f.pushVideo accessUnit) := by
  have hqueued : f.queuedBytes ≤ kMaximumQueuedBytes := h.sum ▸ h.bytes
  unfold pushVideo Forwarder.pushVideo
  split
  · rfl
  · split
    · rfl
    · rename_i hsize
      have hroom : f.queuedBytes + accessUnit.length < word := by
        simp only [kMaximumQueuedBytes] at hqueued hsize
        omega
      dsimp only
      split
      · by_cases hcount : f.frames.length < MediaKind.video.maximumQueuedFrames
        · rw [if_pos hcount, Checked.add_eq hroom]
          simp only [Checked.ok_bind, Forwarder.HasRoom, hcount, true_and]
          split <;> rfl
        · rw [if_neg hcount, if_neg fun hroom => hcount hroom.1]
      · rfl

/-- The counter covers every frame that the loop of `enqueue` drops. -/
theorem dropOldest_eq (hword : 2 ^ 32 ≤ word) (kind : MediaKind) {size : ℕ}
    (hsize : size ≤ kMaximumQueuedBytes) (frames : List Frame)
    (hbytes : totalBytes frames ≤ kMaximumQueuedBytes) :
    dropOldest word kind size frames (totalBytes frames) =
      .ok (Forwarder.dropOldest kind size frames (totalBytes frames)) := by
  induction frames with
  | nil => rfl
  | cons frame frames ih =>
      have hroom : totalBytes (frame :: frames) + size < word := by
        simp only [kMaximumQueuedBytes] at hsize hbytes
        omega
      have hcovers : frame.bytes.length ≤ totalBytes (frame :: frames) := by
        rw [totalBytes_cons]
        exact Nat.le_add_right _ _
      have hleft : totalBytes (frame :: frames) - frame.bytes.length = totalBytes frames := by
        rw [totalBytes_cons, Nat.add_sub_cancel_left]
      have hrest := ih (by rw [totalBytes_cons] at hbytes; omega)
      rw [dropOldest, Forwarder.dropOldest, Checked.add_eq hroom, Checked.sub_eq hcovers, hleft]
      simp only [Checked.ok_bind, hrest]
      by_cases hmany : (frame :: frames).length ≥ kind.maximumQueuedFrames
      · rw [if_pos hmany, if_pos (Or.inl hmany)]
      · rw [if_neg hmany]
        by_cases hlarge : totalBytes (frame :: frames) + size > kMaximumQueuedBytes
        · rw [if_pos hlarge, if_pos (Or.inr hlarge)]
        · rw [if_neg hlarge, if_neg fun hfull => hfull.elim hmany hlarge]

theorem enqueue_eq (hword : 2 ^ 32 ≤ word) (h : f.Sound kind) (frame : Frame) :
    enqueue word kind frame f = .ok (f.enqueue kind frame) := by
  unfold enqueue Forwarder.enqueue
  split
  · rfl
  · rename_i hframe
    rw [not_or, not_lt] at hframe
    obtain ⟨rest, hdrop, hsuffix, -⟩ :=
      Forwarder.dropOldest_spec kind frame.bytes.length f.frames
    have hrest : totalBytes rest ≤ kMaximumQueuedBytes := by
      obtain ⟨dropped, hsplit⟩ := hsuffix
      have hbytes := h.bytes
      rw [← hsplit, totalBytes_append] at hbytes
      omega
    have hroom : totalBytes rest + frame.bytes.length < word := by
      have hsize := hframe.2
      simp only [kMaximumQueuedBytes] at hsize hrest
      omega
    rw [h.sum, dropOldest_eq hword kind hframe.2 f.frames h.bytes, hdrop]
    simp only [Checked.ok_bind, Checked.add_eq hroom]

theorem pushAudio_eq (hword : 2 ^ 32 ≤ word) (h : f.Sound .audio) (pcm : Bytes) :
    pushAudio word pcm f = .ok (f.pushAudio pcm) := by
  unfold pushAudio Forwarder.pushAudio
  split
  · rfl
  · have hcounted : Forwarder.Sound .audio { f with pushed := f.pushed + 1 } :=
      ⟨h.sum, h.bytes, h.count, h.nonempty, h.keyframe, h.parameters⟩
    exact enqueue_eq hword hcounted _

/-- The counter covers the frame that the worker takes out. -/
theorem pop_eq (h : f.Sound kind) : pop f = .ok f.pop := by
  unfold pop Forwarder.pop Forwarder.take
  cases hframes : f.frames with
  | nil => rfl
  | cons frame frames =>
      have hcovers : frame.bytes.length ≤ f.queuedBytes := by
        rw [h.sum, hframes, totalBytes_cons]
        exact Nat.le_add_right _ _
      dsimp only
      rw [Checked.sub_eq hcovers, Checked.ok_bind]

/-- No step of an operation wraps. -/
theorem apply_eq (hword : 2 ^ 32 ≤ word) (h : f.Sound kind) (op : QueueOp) :
    apply word kind op f = .ok (f.apply kind op) := by
  cases op with
  | push bytes =>
      cases kind with
      | video => exact pushVideo_eq hword h bytes
      | audio => exact pushAudio_eq hword h bytes
  | pop => exact pop_eq h
  | connect => rfl

end Monitor

/-! ## Any order of operations -/

variable {kind : MediaKind} {f : Forwarder}

theorem Forwarder.Sound.pop (h : f.Sound kind) : f.pop.Sound kind := by
  unfold Forwarder.pop
  split
  · exact h
  · exact (Forwarder.Sound.take h ‹_›).1

theorem Forwarder.Sound.apply (h : f.Sound kind) (op : QueueOp) : (f.apply kind op).Sound kind := by
  cases op with
  | push bytes => exact h.push bytes
  | pop => exact h.pop
  | connect => exact h.onClientConnected

theorem Forwarder.Sound.applyAll (h : f.Sound kind) (ops : List QueueOp) :
    (f.applyAll kind ops).Sound kind := by
  induction ops generalizing f with
  | nil => exact h
  | cons op ops ih => exact ih (h.apply op)

/-- The monitor finds nothing in any order of operations. -/
theorem Monitor.applyAll_eq {word : ℕ} (hword : 2 ^ 32 ≤ word) (h : f.Sound kind)
    (ops : List QueueOp) : applyAll word kind ops f = .ok (f.applyAll kind ops) := by
  induction ops generalizing f with
  | nil => rfl
  | cons op ops ih =>
      rw [applyAll, apply_eq hword h, Checked.ok_bind, ih (h.apply op)]
      rfl

/-- What an event of the system does to the queue. -/
def MediaEvent.queueOp? : MediaEvent → Option QueueOp
  | .push bytes => some (.push bytes)
  | .accept => some .connect
  | .take => some .pop
  | .written | .broken _ | .stop | .exit => none

theorem forwarder_of_step {event : MediaEvent} {s s' : MediaState}
    (h : s.step kind event = some s') :
    s'.forwarder = s.forwarder.applyAll kind event.queueOp?.toList := by
  cases step_cases h with
  | take f f' session frame stopping past htake =>
      show f' = f.pop
      rw [Forwarder.pop, htake]
  | _ => rfl

/-- The queue of a forwarder with its worker and its clients goes through operations. -/
theorem forwarder_of_run {events : List MediaEvent} {s s' : MediaState}
    (h : MediaState.run kind events s = some s') :
    s'.forwarder = s.forwarder.applyAll kind (events.filterMap MediaEvent.queueOp?) := by
  induction events generalizing s with
  | nil =>
      cases h
      rfl
  | cons event events ih =>
      obtain ⟨next, hstep, hrest⟩ := Machine.run_cons_eq_some.mp h
      rw [ih hrest, forwarder_of_step hstep]
      cases hop : event.queueOp? with
      | none => rw [List.filterMap_cons_none hop]; rfl
      | some op => rw [List.filterMap_cons_some hop]; rfl

/-- The counter is the size of what is queued, and the queue keeps its bounds. -/
structure Accounted (kind : MediaKind) (f : Forwarder) : Prop where
  sum : f.queuedBytes = (f.frames.map fun frame => frame.bytes.length).sum
  bytes : f.queuedBytes ≤ kMaximumQueuedBytes
  count : f.frames.length ≤ kind.maximumQueuedFrames
  nonempty : ∀ frame ∈ f.frames, frame.bytes ≠ []

theorem Forwarder.Sound.accounted (h : f.Sound kind) : Accounted kind f :=
  ⟨h.sum, h.sum ▸ h.bytes, h.count, h.nonempty⟩

/-- In words of 32 bits or more no sum and no difference of `queued_bytes_` wraps, in any
order of pushes, pops and connections, and the accounts are right after each of them; and
so they are in every run of the forwarder with its worker and its clients. -/
theorem queue_accounted (kind : MediaKind) (word : ℕ) (hword : 2 ^ 32 ≤ word) :
    (∀ ops : List QueueOp, ∃ f, Monitor.applyAll word kind ops {} = .ok f ∧ Accounted kind f) ∧
      ∀ (events : List MediaEvent) (s : MediaState), MediaState.run kind events {} = some s →
        Monitor.applyAll word kind (events.filterMap MediaEvent.queueOp?) {} = .ok s.forwarder ∧
          Accounted kind s.forwarder := by
  have hempty := Forwarder.sound_empty kind
  constructor
  · intro ops
    exact ⟨_, Monitor.applyAll_eq hword hempty ops, (hempty.applyAll ops).accounted⟩
  · intro events s hrun
    have hforwarder := forwarder_of_run hrun
    rw [hforwarder]
    exact ⟨Monitor.applyAll_eq hword hempty _, (hempty.applyAll _).accounted⟩

theorem queue_accounted_keyframe :
    ∃ f, Monitor.applyAll (2 ^ 64) .video
        [.push [0, 0, 1, 1], .push [0, 0, 1, 5, 7], .pop, .connect, .push [0, 0, 1, 1]] {} = .ok f ∧
      Accounted .video f :=
  (queue_accounted .video (2 ^ 64) (by norm_num)).1 _

end MediaForwarders
end Bridge
end Aa2acp
