import Aa2acp.Bridge.MediaQueue
import Aa2acp.Lib.DropOldest

/-!
# The queue of audio packets

What becomes of the packets that are pushed into an `AudioSocketForwarder`: a run records
every packet that enters the queue, that `enqueue` drops, and that the worker takes out.
The packets are given out in order, and the oldest one is dropped only when the queue is
too full for a new one.
-/

namespace Aa2acp
namespace Bridge
namespace MediaForwarders

open DropOldest Machine

/-- The condition of the loop in `enqueue`. -/
def TooFull (kind : MediaKind) (queue : List Frame) (incoming : Frame) : Prop :=
  kind.maximumQueuedFrames ≤ queue.length ∨
    kMaximumQueuedBytes < totalBytes queue + incoming.bytes.length

namespace Forwarder

/-- What the loop of `enqueue` pops from the front. -/
def droppedFor (kind : MediaKind) (size : ℕ) : List Frame → ℕ → List Frame
  | [], _ => []
  | frame :: frames, bytes =>
      if (frame :: frames).length ≥ kind.maximumQueuedFrames ∨
          bytes + size > kMaximumQueuedBytes then
        frame :: droppedFor kind size frames (bytes - frame.bytes.length)
      else []

/-- What `push` does to the queue of an audio forwarder. -/
def pushEntries (pcm : Bytes) (f : Forwarder) : List (Entry Frame) :=
  if Pushable pcm then
    let frame : Frame := ⟨pcm, f.pushed + 1⟩
    (droppedFor .audio pcm.length f.frames f.queuedBytes).map (fun old => .dropped old frame) ++
      [.pushed frame]
  else []

theorem tracks_dropOldest {kind : MediaKind} {history : List (Entry Frame)} {frames : List Frame}
    (h : Tracks (TooFull kind) history frames) (frame : Frame) :
    Tracks (TooFull kind)
      (history ++ (droppedFor kind frame.bytes.length frames (totalBytes frames)).map
        fun old => .dropped old frame)
      (dropOldest kind frame.bytes.length frames (totalBytes frames)).1 := by
  induction frames generalizing history with
  | nil =>
      rw [droppedFor, List.map_nil, List.append_nil]
      exact h
  | cons old frames ih =>
      rw [droppedFor, dropOldest]
      split
      · rename_i hfull
        have hrest : totalBytes (old :: frames) - old.bytes.length = totalBytes frames := by
          rw [totalBytes_cons, Nat.add_sub_cancel_left]
        rw [hrest, List.map_cons, List.append_cons]
        exact ih (h.dropped hfull)
      · rw [List.map_nil, List.append_nil]
        exact h

theorem pushAudio_of_not_pushable {pcm : Bytes} (f : Forwarder) (h : ¬ Pushable pcm) :
    (f.pushAudio pcm).frames = f.frames ∧ f.pushed ≤ (f.pushAudio pcm).pushed := by
  unfold pushAudio
  split
  · exact ⟨rfl, Nat.le_refl _⟩
  · rename_i hne
    have hlarge : pcm = [] ∨ pcm.length > kMaximumQueuedBytes :=
      Or.inr (Nat.lt_of_not_le fun hle => h ⟨hne, hle⟩)
    rw [enqueue, if_pos hlarge]
    exact ⟨rfl, Nat.le_succ _⟩

theorem pushAudio_of_pushable {pcm : Bytes} (f : Forwarder) (h : Pushable pcm) :
    (f.pushAudio pcm).frames =
        (dropOldest .audio pcm.length f.frames f.queuedBytes).1 ++ [⟨pcm, f.pushed + 1⟩] ∧
      (f.pushAudio pcm).pushed = f.pushed + 1 := by
  have hsize : ¬ (pcm = [] ∨ pcm.length > kMaximumQueuedBytes) := by
    rw [not_or, not_lt]
    exact h
  rw [pushAudio, if_neg h.1, enqueue, if_neg hsize]
  exact ⟨rfl, rfl⟩

end Forwarder

/-- What a step does to the queue of an audio forwarder. -/
def queueEntries : MediaEvent → MediaState → List (Entry Frame)
  | .push pcm, s => s.forwarder.pushEntries pcm
  | .take, s => (s.forwarder.take.map fun taken => Entry.popped taken.1).toList
  | _, _ => []

/-- What a run does to the queue of an audio forwarder. -/
def queueHistory (events : List MediaEvent) : List (Entry Frame) :=
  trace (MediaState.step .audio) queueEntries events {}

/-- What the history says about the forwarder. -/
structure Follows (history : List (Entry Frame)) (f : Forwarder) : Prop where
  sound : f.Sound .audio
  tracks : Tracks (TooFull .audio) history f.frames
  ordered : (arrived history).Pairwise fun frame other => frame.number < other.number
  numbered : ∀ frame ∈ arrived history, frame.number ≤ f.pushed

variable {history : List (Entry Frame)} {f f' : Forwarder}

theorem arrived_pushEntries (pcm : Bytes) (f : Forwarder) :
    arrived (f.pushEntries pcm) = if Pushable pcm then [⟨pcm, f.pushed + 1⟩] else [] := by
  unfold Forwarder.pushEntries
  split
  · have hdropped : ∀ (dropped : List Frame) (frame : Frame),
        arrived (dropped.map fun old => Entry.dropped old frame) = [] := by
      intro dropped frame
      induction dropped with
      | nil => rfl
      | cons old dropped ih => exact ih
    rw [arrived_append, hdropped, arrived_pushed, List.nil_append]
  · rfl

theorem Follows.pushAudio (h : Follows history f) (pcm : Bytes) :
    Follows (history ++ f.pushEntries pcm) (f.pushAudio pcm) := by
  have harrived := arrived_pushEntries pcm f
  by_cases hpcm : Pushable pcm
  · obtain ⟨hframes, hpushed⟩ := f.pushAudio_of_pushable hpcm
    rw [if_pos hpcm] at harrived
    refine ⟨h.sound.pushAudio pcm, ?_, ?_, ?_⟩
    · have hdropped := Forwarder.tracks_dropOldest h.tracks ⟨pcm, f.pushed + 1⟩
      rw [hframes, Forwarder.pushEntries, if_pos hpcm, h.sound.sum, ← List.append_assoc]
      exact hdropped.pushed _
    · rw [arrived_append, harrived]
      refine List.pairwise_append.mpr ⟨h.ordered, List.pairwise_singleton _ _, ?_⟩
      intro frame hframe new hnew
      rw [List.mem_singleton.mp hnew]
      exact Nat.lt_succ_of_le (h.numbered frame hframe)
    · intro frame hframe
      rw [arrived_append, harrived] at hframe
      rw [hpushed]
      rcases List.mem_append.mp hframe with hold | hnew
      · exact Nat.le_succ_of_le (h.numbered frame hold)
      · rw [List.mem_singleton.mp hnew]
  · obtain ⟨hframes, hpushed⟩ := f.pushAudio_of_not_pushable hpcm
    have hentries : f.pushEntries pcm = [] := if_neg hpcm
    rw [hentries, List.append_nil]
    refine ⟨h.sound.pushAudio pcm, ?_, h.ordered, fun frame hframe => ?_⟩
    · rw [hframes]
      exact h.tracks
    · exact (h.numbered frame hframe).trans hpushed

theorem Follows.take (h : Follows history f) {frame : Frame} (htake : f.take = some (frame, f')) :
    Follows (history ++ [.popped frame]) f' := by
  obtain ⟨hframes, hrest⟩ := Forwarder.take_eq_some htake
  have htracks := h.tracks
  rw [hframes] at htracks
  refine ⟨(h.sound.take htake).1, htracks.popped, ?_, ?_⟩
  · rw [arrived_append, arrived_popped, List.append_nil]
    exact h.ordered
  · rw [arrived_append, arrived_popped, List.append_nil, hrest]
    exact h.numbered

/-- The packet of a call of `push`. -/
def MediaEvent.packet? : MediaEvent → Option Bytes
  | .push pcm => some pcm
  | _ => none

/-- Only `push` and the worker touch the queue. -/
theorem step_forwarder {event : MediaEvent} {s s' : MediaState}
    (hstep : s.step .audio event = some s') :
    (∃ pcm, event = .push pcm ∧ s'.forwarder = s.forwarder.pushAudio pcm) ∨
      (∃ frame, event = .take ∧ s.forwarder.take = some (frame, s'.forwarder)) ∨
      event.packet? = none ∧ queueEntries event s = [] ∧ s'.forwarder = s.forwarder := by
  cases step_cases hstep with
  | push _ bytes => exact Or.inl ⟨bytes, rfl, rfl⟩
  | take f f' session frame stopping past htake => exact Or.inr (Or.inl ⟨frame, rfl, htake⟩)
  | greet => exact Or.inr (Or.inr ⟨rfl, rfl, rfl⟩)
  | enter => exact Or.inr (Or.inr ⟨rfl, rfl, rfl⟩)
  | writeConfig => exact Or.inr (Or.inr ⟨rfl, rfl, rfl⟩)
  | writeFrame => exact Or.inr (Or.inr ⟨rfl, rfl, rfl⟩)
  | breakConfig => exact Or.inr (Or.inr ⟨rfl, rfl, rfl⟩)
  | breakFrame => exact Or.inr (Or.inr ⟨rfl, rfl, rfl⟩)
  | stop => exact Or.inr (Or.inr ⟨rfl, rfl, rfl⟩)
  | leave => exact Or.inr (Or.inr ⟨rfl, rfl, rfl⟩)
  | close => exact Or.inr (Or.inr ⟨rfl, rfl, rfl⟩)

theorem Follows.step {event : MediaEvent} {s s' : MediaState} (h : Follows history s.forwarder)
    (hstep : s.step .audio event = some s') :
    Follows (history ++ queueEntries event s) s'.forwarder := by
  rcases step_forwarder hstep with ⟨pcm, rfl, hpush⟩ | ⟨frame, rfl, htake⟩ | ⟨-, hnone, hsame⟩
  · rw [hpush]
    exact h.pushAudio pcm
  · rw [queueEntries, htake]
    exact h.take htake
  · rw [hnone, List.append_nil, hsame]
    exact h

/-- The history of a run belongs to the queue at its end. -/
theorem follows_queueHistory {events : List MediaEvent} {s : MediaState}
    (h : MediaState.run .audio events {} = some s) : Follows (queueHistory events) s.forwarder := by
  have hempty : Follows [] ({} : MediaState).forwarder :=
    ⟨Forwarder.sound_empty .audio, tracks_nil, List.Pairwise.nil, by simp [arrived]⟩
  have hrun := trace_invariant (fun history s => Follows history s.forwarder)
    (fun _ _ _ _ hfollows hstep => hfollows.step hstep) hempty h
  rwa [List.nil_append] at hrun

/-! ## The packets of a run -/

/-- The packets of the calls of `push`, without those that `enqueue` refuses. -/
def pushedPackets (events : List MediaEvent) : List Bytes :=
  (events.filterMap MediaEvent.packet?).filter fun pcm => Pushable pcm

/-- The packets of a run have all arrived in the queue. -/
theorem arrived_trace {events : List MediaEvent} {s s' : MediaState}
    (h : MediaState.run .audio events s = some s') :
    (arrived (trace (MediaState.step .audio) queueEntries events s)).map Frame.bytes =
      pushedPackets events := by
  induction events generalizing s with
  | nil => rfl
  | cons event events ih =>
      obtain ⟨next, hstep, hrest⟩ := run_cons_eq_some.mp h
      rw [trace_cons_of_step hstep, arrived_append, List.map_append, ih hrest]
      rcases step_forwarder hstep with ⟨pcm, rfl, -⟩ | ⟨frame, rfl, htake⟩ | ⟨hother, hnone, -⟩
      · rw [queueEntries, arrived_pushEntries]
        by_cases hpcm : Pushable pcm <;> simp [pushedPackets, MediaEvent.packet?, hpcm]
      · rw [queueEntries, htake]
        rfl
      · have hpackets : pushedPackets (event :: events) = pushedPackets events := by
          rw [pushedPackets, List.filterMap_cons_none hother, pushedPackets]
        rw [hnone, hpackets]
        rfl

/-- The queue of audio packets: what the worker takes out is a part of what was pushed, in
order and none of it twice; a packet is dropped only when every older one is gone and the
queue is too full for a new one; and a packet that was pushed is the last one in the queue. -/
theorem audio_queue_drops_oldest (events : List MediaEvent) (s : MediaState)
    (h : MediaState.run .audio events {} = some s) :
    (arrived (queueHistory events)).map Frame.bytes = pushedPackets events ∧
      (arrived (queueHistory events)).Nodup ∧
      (popped (queueHistory events)).Sublist (arrived (queueHistory events)) ∧
      arrived (queueHistory events) = gone (queueHistory events) ++ s.forwarder.frames ∧
      Lawful (TooFull .audio) (queueHistory events) ∧
      ∀ pcm s', Pushable pcm → s.step .audio (.push pcm) = some s' →
        s'.forwarder.frames.getLast? = some ⟨pcm, s.forwarder.pushed + 1⟩ ∧
          arrived (queueHistory (events ++ [.push pcm])) =
            arrived (queueHistory events) ++ [⟨pcm, s.forwarder.pushed + 1⟩] := by
  have hfollows := follows_queueHistory h
  refine ⟨arrived_trace h, ?_, hfollows.tracks.popped_sublist, hfollows.tracks.split,
    hfollows.tracks.lawful, ?_⟩
  · exact hfollows.ordered.imp fun hlt hsame => Nat.ne_of_lt hlt (congrArg Frame.number hsame)
  · intro pcm s' hpcm hstep
    constructor
    · cases hstep
      have hframes := (s.forwarder.pushAudio_of_pushable hpcm).1
      change (s.forwarder.pushAudio pcm).frames.getLast? = _
      rw [hframes, List.getLast?_concat]
    · rw [queueHistory, trace_append h, trace_cons_of_step hstep, trace, List.append_nil,
        arrived_append, queueEntries, arrived_pushEntries, if_pos hpcm]
      rfl

theorem audio_queue_drops_oldest_taken :
    popped (queueHistory [.accept, .push [1, 2], .push [3], .take]) = [⟨[1, 2], 1⟩] ∧
      arrived (queueHistory [.accept, .push [1, 2], .push [3], .take]) =
        gone (queueHistory [.accept, .push [1, 2], .push [3], .take]) ++ [⟨[3], 2⟩] :=
  ⟨by decide, (audio_queue_drops_oldest [.accept, .push [1, 2], .push [3], .take] _ rfl).2.2.2.1⟩

end MediaForwarders
end Bridge
end Aa2acp
