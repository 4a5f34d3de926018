import Aa2acp.Bridge.AudioQueue
import Aa2acp.Bridge.MediaReadBack
import Aa2acp.Bridge.VideoContinuity

/-!
# What the clients of a forwarder get

Whatever the queue drops and however often the clients change, the frames of one client are
a part of those that were pushed, in the order in which they were pushed, each as it was
(`units_sublist_pushes`), and its reader returns the first of them (`received_spec`).
-/

namespace Aa2acp
namespace Bridge
namespace MediaForwarders

/-- What was pushed; an empty frame is refused at once. -/
def pushes (events : List MediaEvent) : List Bytes :=
  (events.filterMap MediaEvent.packet?).filter fun bytes => bytes ≠ []

/-- The frame is the one that was pushed under its number. -/
def Genuine (pushed : List Bytes) (frame : Frame) : Prop :=
  ∃ n, frame.number = n + 1 ∧ pushed[n]? = some frame.bytes

/-- Frames as they were pushed, and in that order. -/
structure InOrder (pushed : List Bytes) (frames : List Frame) : Prop where
  rising : frames.Pairwise fun earlier later => earlier.number < later.number
  genuine : ∀ frame ∈ frames, Genuine pushed frame

variable {pushed : List Bytes} {frames frames' : List Frame} {frame : Frame} {bytes : Bytes}

theorem Genuine.append (h : Genuine pushed frame) (more : List Bytes) : Genuine (pushed ++ more) frame := by
  obtain ⟨n, hnumber, hbytes⟩ := h
  have hlt := (List.getElem?_eq_some_iff.mp hbytes).1
  exact ⟨n, hnumber, by rw [List.getElem?_append_left hlt, hbytes]⟩

theorem Genuine.number_le (h : Genuine pushed frame) : frame.number ≤ pushed.length := by
  obtain ⟨n, hnumber, hbytes⟩ := h
  have hlt := (List.getElem?_eq_some_iff.mp hbytes).1
  omega

theorem genuine_concat (pushed : List Bytes) (bytes : Bytes) :
    Genuine (pushed ++ [bytes]) ⟨bytes, pushed.length + 1⟩ :=
  ⟨pushed.length, rfl, List.getElem?_concat_length⟩

theorem inOrder_nil (pushed : List Bytes) : InOrder pushed [] := ⟨List.Pairwise.nil, by simp⟩

theorem inOrder_singleton (h : Genuine pushed frame) : InOrder pushed [frame] :=
  ⟨List.pairwise_singleton _ _, by simpa using h⟩

theorem InOrder.sublist (h : InOrder pushed frames) (hsub : frames'.Sublist frames) : InOrder pushed frames' :=
  ⟨h.rising.sublist hsub, fun frame hmem => h.genuine frame (hsub.subset hmem)⟩

theorem InOrder.append (h : InOrder pushed frames) (more : List Bytes) : InOrder (pushed ++ more) frames :=
  ⟨h.rising, fun frame hmem => (h.genuine frame hmem).append more⟩

/-- The frame that was pushed last comes last. -/
theorem InOrder.concat (h : InOrder pushed frames) (bytes : Bytes) :
    InOrder (pushed ++ [bytes]) (frames ++ [⟨bytes, pushed.length + 1⟩]) where
  rising := by
    refine List.pairwise_append.mpr ⟨h.rising, List.pairwise_singleton _ _, ?_⟩
    intro frame hmem new hnew
    rw [List.mem_singleton.mp hnew]
    exact Nat.lt_succ_of_le (h.genuine frame hmem).number_le
  genuine := by
    intro frame hmem
    rcases List.mem_append.mp hmem with hold | hnew
    · exact (h.genuine frame hold).append _
    · rw [List.mem_singleton.mp hnew]
      exact genuine_concat pushed bytes

/-- Items found at rising places of a list are a part of it. -/
theorem InOrder.sublist_drop (h : InOrder pushed frames) {start : ℕ}
    (hstart : ∀ frame ∈ frames, start < frame.number) :
    (frames.map Frame.bytes).Sublist (pushed.drop start) := by
  induction frames generalizing start with
  | nil => exact List.nil_sublist _
  | cons frame frames ih =>
      obtain ⟨hfirst, hrising⟩ := List.pairwise_cons.mp h.rising
      obtain ⟨n, hnumber, hbytes⟩ := h.genuine frame List.mem_cons_self
      obtain ⟨hlt, hat⟩ := List.getElem?_eq_some_iff.mp hbytes
      have hrest : (frames.map Frame.bytes).Sublist (pushed.drop (n + 1)) := by
        refine ih ⟨hrising, fun other hmem => h.genuine other (List.mem_cons_of_mem _ hmem)⟩ ?_
        intro other hmem
        rw [← hnumber]
        exact hfirst other hmem
      have hle : start ≤ n := by
        have hbehind := hstart frame List.mem_cons_self
        omega
      have htail : (pushed.drop n).Sublist (pushed.drop start) := List.drop_sublist_drop_left pushed hle
      refine List.Sublist.trans ?_ htail
      rw [List.drop_eq_getElem_cons hlt, hat, List.map_cons]
      exact hrest.cons_cons _

theorem InOrder.sublist_pushed (h : InOrder pushed frames) : (frames.map Frame.bytes).Sublist pushed := by
  have hpositive : ∀ frame ∈ frames, 0 < frame.number := by
    intro frame hmem
    obtain ⟨n, hnumber, -⟩ := h.genuine frame hmem
    omega
  exact h.sublist_drop hpositive

/-! ## The operations -/

namespace Forwarder

theorem dropOldest_sublist (kind : MediaKind) (size : ℕ) (frames : List Frame) (queued : ℕ) :
    (dropOldest kind size frames queued).1.Sublist frames := by
  induction frames generalizing queued with
  | nil => exact List.Sublist.refl _
  | cons frame frames ih =>
      rw [dropOldest]
      split
      · exact (ih _).trans (List.sublist_cons_self _ _)
      · exact List.Sublist.refl _

/-- What `push` makes of the queue: a part of it, and the new frame if it is queued. -/
structure Pushed (bytes : Bytes) (f f' : Forwarder) : Prop where
  count : f'.pushed = f.pushed + 1
  frames : ∃ kept, kept.Sublist f.frames ∧
    (f'.frames = kept ∨ f'.frames = kept ++ [⟨bytes, f.pushed + 1⟩])
  keyframe : f'.keyframe = f.keyframe ∨ f'.keyframe = ⟨bytes, f.pushed + 1⟩

theorem pushed_pushVideo (f : Forwarder) (hne : bytes ≠ []) : Pushed bytes f (f.pushVideo bytes) := by
  by_cases hlarge : kMaximumQueuedBytes < bytes.length
  · rw [f.pushVideo_of_large hlarge]
    exact ⟨rfl, ⟨f.frames, List.Sublist.refl _, Or.inl rfl⟩, Or.inl rfl⟩
  have hsize : Pushable bytes := ⟨hne, not_lt.mp hlarge⟩
  by_cases hidr : ContainsIdr bytes
  · rw [f.pushVideo_of_idr hsize hidr]
    exact ⟨rfl, ⟨[], List.nil_sublist _, Or.inr rfl⟩, Or.inr rfl⟩
  · rw [f.pushVideo_of_dependent hsize hidr]
    split
    · exact ⟨rfl, ⟨f.frames, List.Sublist.refl _, Or.inr rfl⟩, Or.inl rfl⟩
    · exact ⟨rfl, ⟨f.frames, List.Sublist.refl _, Or.inl rfl⟩, Or.inl rfl⟩

theorem pushed_pushAudio (f : Forwarder) (hne : bytes ≠ []) : Pushed bytes f (f.pushAudio bytes) := by
  unfold pushAudio enqueue
  rw [if_neg hne]
  split
  · exact ⟨rfl, ⟨f.frames, List.Sublist.refl _, Or.inl rfl⟩, Or.inl rfl⟩
  · exact ⟨rfl, ⟨_, dropOldest_sublist _ _ _ _, Or.inr rfl⟩, Or.inl rfl⟩

theorem pushed_push (kind : MediaKind) (f : Forwarder) (hne : bytes ≠ []) :
    Pushed bytes f (f.push kind bytes) := by
  cases kind with
  | video => exact f.pushed_pushVideo hne
  | audio => exact f.pushed_pushAudio hne

theorem push_nil (kind : MediaKind) (f : Forwarder) : f.push kind [] = f := by
  cases kind <;> rfl

/-- What a new client finds in the queue. -/
theorem restart_frames (f : Forwarder) :
    f.restart.frames = [] ∨ f.keyframe.bytes ≠ [] ∧ f.restart.frames = [f.keyframe] ∨
      f.restart.frames = f.frames := by
  unfold restart
  split
  · exact Or.inl rfl
  · rename_i hkeyframe
    split
    · exact Or.inr (Or.inl ⟨hkeyframe, rfl⟩)
    · exact Or.inr (Or.inr rfl)

theorem restart_pushed (f : Forwarder) : f.restart.pushed = f.pushed := by
  unfold restart
  split
  · rfl
  · split <;> rfl

end Forwarder

/-! ## The runs -/

/-- The queue, the client and those that are gone, after these frames were pushed. -/
structure Ordered (pushed : List Bytes) (s : MediaState) : Prop where
  count : s.forwarder.pushed = pushed.length
  keyframe : s.forwarder.keyframe.bytes ≠ [] → Genuine pushed s.forwarder.keyframe
  stream : InOrder pushed s.stream
  past : ∀ session ∈ s.past, InOrder pushed session.units

variable {kind : MediaKind} {event : MediaEvent} {s s' : MediaState}

theorem ordered_fresh : Ordered [] {} where
  count := rfl
  keyframe h := absurd rfl h
  stream := inOrder_nil _
  past := by simp

theorem Ordered.units (h : Ordered pushed s) : InOrder pushed s.stage.units :=
  h.stream.sublist (List.sublist_append_left _ _)

theorem Ordered.queue (h : Ordered pushed s) : InOrder pushed s.forwarder.frames :=
  h.stream.sublist (List.sublist_append_right _ _)

theorem Ordered.past_append (h : Ordered pushed s) {session : Session} (hunits : InOrder pushed session.units) :
    ∀ other ∈ s.past ++ [session], InOrder pushed other.units := by
  intro other hother
  rcases List.mem_append.mp hother with hpast | hnew
  · exact h.past other hpast
  · rw [List.mem_singleton.mp hnew]
    exact hunits

theorem Ordered.push (h : Ordered pushed s) (kind : MediaKind) (hne : bytes ≠ []) :
    Ordered (pushed ++ [bytes]) { s with forwarder := s.forwarder.push kind bytes } := by
  obtain ⟨hcount, ⟨kept, hkept, hframes⟩, hkeyframe⟩ := s.forwarder.pushed_push kind hne
  rw [h.count] at hcount hframes hkeyframe
  have hstream : InOrder pushed (s.stage.units ++ kept) :=
    h.stream.sublist ((List.append_sublist_append_left _).mpr hkept)
  refine ⟨?_, ?_, ?_, fun session hpast => (h.past session hpast).append _⟩
  · rw [hcount, List.length_append, List.length_singleton]
  · rcases hkeyframe with hsame | hnew
    · rw [hsame]
      exact fun hbytes => (h.keyframe hbytes).append _
    · rw [hnew]
      exact fun _ => genuine_concat pushed bytes
  · rw [stream_of_forwarder]
    rcases hframes with hsame | hnew
    · rw [hsame]
      exact hstream.append _
    · rw [hnew, ← List.append_assoc]
      exact hstream.concat bytes

theorem Ordered.restart (h : Ordered pushed s) : InOrder pushed s.forwarder.restart.frames := by
  rcases s.forwarder.restart_frames with hnone | ⟨hkeyframe, hone⟩ | hsame
  · rw [hnone]
    exact inOrder_nil _
  · rw [hone]
    exact inOrder_singleton (h.keyframe hkeyframe)
  · rw [hsame]
    exact h.queue

theorem Ordered.onClientConnected (h : Ordered pushed s) (kind : MediaKind) :
    (s.forwarder.onClientConnected kind).2.pushed = pushed.length ∧
      ((s.forwarder.onClientConnected kind).2.keyframe.bytes ≠ [] →
        Genuine pushed (s.forwarder.onClientConnected kind).2.keyframe) ∧
      InOrder pushed (s.forwarder.onClientConnected kind).2.frames := by
  cases kind with
  | video =>
      refine ⟨?_, ?_, h.restart⟩
      · rw [Forwarder.onClientConnected, Forwarder.restart_pushed]
        exact h.count
      · rw [Forwarder.onClientConnected, restart_keyframe]
        exact h.keyframe
  | audio => exact ⟨h.count, h.keyframe, h.queue⟩

theorem pushes_concat (events : List MediaEvent) (event : MediaEvent) :
    pushes (events ++ [event]) = pushes events ++ pushes [event] := by
  rw [pushes, List.filterMap_append, List.filter_append]
  rfl

/-- A step of the worker leaves everything in order. -/
theorem Ordered.worker_step (h : Ordered pushed s) (hworker : event.packet? = none)
    (hstep : Step kind event s s') : Ordered pushed s' := by
  cases hstep with
  | push => cases hworker
  | greet f past hconfig =>
      obtain ⟨hcount, hkeyframe, hframes⟩ := h.onClientConnected kind
      exact ⟨hcount, hkeyframe, hframes, h.past⟩
  | enter f past hconfig =>
      obtain ⟨hcount, hkeyframe, hframes⟩ := h.onClientConnected kind
      exact ⟨hcount, hkeyframe, hframes, h.past⟩
  | take f f' session frame stopping past htake =>
      obtain ⟨hframes, hrest⟩ := Forwarder.take_eq_some htake
      have hstream := h.stream
      simp only [MediaState.stream, Stage.units, hframes] at hstream
      refine ⟨?_, ?_, ?_, h.past⟩
      · rw [hrest]
        exact h.count
      · rw [hrest]
        exact h.keyframe
      · simpa only [MediaState.stream, Stage.units, List.append_assoc, List.singleton_append] using hstream
  | writeConfig => exact ⟨h.count, h.keyframe, h.stream, h.past⟩
  | writeFrame => exact ⟨h.count, h.keyframe, h.stream, h.past⟩
  | breakConfig => exact ⟨h.count, h.keyframe, h.queue, h.past_append h.units⟩
  | breakFrame =>
      exact ⟨h.count, h.keyframe, h.queue, h.past_append (h.units.sublist (List.sublist_append_left _ _))⟩
  | stop => exact ⟨h.count, h.keyframe, h.stream, h.past⟩
  | leave => exact ⟨h.count, h.keyframe, h.stream, h.past⟩
  | close => exact ⟨h.count, h.keyframe, h.queue, h.past_append h.units⟩

theorem Ordered.step {events : List MediaEvent} (h : Ordered (pushes events) s)
    (hstep : Step kind event s s') : Ordered (pushes (events ++ [event])) s' := by
  rw [pushes_concat]
  cases hpacket : event.packet? with
  | none =>
      have hnone : pushes [event] = [] := by simp [pushes, hpacket]
      rw [hnone, List.append_nil]
      exact h.worker_step hpacket hstep
  | some bytes =>
      cases hstep with
      | push _ pushed =>
          cases hpacket
          by_cases hne : bytes = []
          · subst hne
            have hnone : pushes [.push []] = [] := rfl
            rw [hnone, List.append_nil, Forwarder.push_nil]
            exact h
          · have hone : pushes [.push bytes] = [bytes] := by simp [pushes, MediaEvent.packet?, hne]
            rw [hone]
            exact h.push kind hne
      | greet | enter | take | writeConfig | writeFrame | breakConfig | breakFrame | stop | leave | close =>
          cases hpacket

theorem Ordered.sessions (h : Ordered pushed s) : ∀ session ∈ s.sessions, InOrder pushed session.units := by
  intro session hsession
  rcases List.mem_append.mp hsession with hpast | hnow
  · exact h.past session hpast
  · have hstage : s.stage.session? = some session := by simpa using hnow
    refine h.units.sublist ?_
    cases hs : s.stage <;> rw [hs] at hstage <;> cases hstage
    · exact List.Sublist.refl _
    · exact List.Sublist.refl _
    · exact List.sublist_append_left _ _

theorem ordered_of_run {events : List MediaEvent} (h : MediaState.run kind events {} = some s) :
    Ordered (pushes events) s := by
  have hfresh : Ordered (pushes []) {} := ordered_fresh
  have hrun := Machine.history_invariant (fun events s => Ordered (pushes events) s)
    (fun _ _ _ _ hordered hstep => hordered.step (step_cases hstep)) hfresh h
  rwa [List.nil_append] at hrun

theorem units_sublist_pushes {events : List MediaEvent} (h : MediaState.run kind events {} = some s) :
    ∀ session ∈ s.sessions, (session.units.map Frame.bytes).Sublist (pushes events) :=
  fun session hsession => ((ordered_of_run h).sessions session hsession).sublist_pushed

/-- What a client's reader returns are the first of the frames that were written to it, and no frame is
too large. -/
theorem received_spec {events : List MediaEvent} (h : MediaState.run kind events {} = some s)
    {session : Session} (hsession : session ∈ s.sessions) :
    kind.received session.wire <+: session.frames ∧
      ∀ frame ∈ kind.received session.wire, frame.length ≤ kind.readerLimit := by
  have hcarried : Carried kind s :=
    Machine.run_invariant (Carried kind) (fun _ _ _ hs hstep => hs.step (step_cases hstep))
      (carried_fresh kind) h
  obtain ⟨part, hcarries⟩ := hcarried.sessions session hsession
  have hfuel : session.frames.length ≤ session.wire.length := by
    rw [hcarries.wire, List.length_append]
    exact (length_le_length_prefixedAll _).trans (Nat.le_add_right _ _)
  have hread := framesFrom_prefixedAll hcarries.frames hcarries.part kind.readerLimit hfuel
  rw [← hcarries.wire] at hread
  have hreceived : kind.received session.wire =
      session.frames.takeWhile fun frame => decide (frame.length ≤ kind.readerLimit) := by
    rw [MediaKind.received, kind.next_eq, hread]
  rw [hreceived]
  refine ⟨List.takeWhile_prefix _, fun frame hmem => ?_⟩
  have hwithin := List.mem_takeWhile_imp hmem
  exact of_decide_eq_true hwithin

end MediaForwarders
end Bridge
end Aa2acp
