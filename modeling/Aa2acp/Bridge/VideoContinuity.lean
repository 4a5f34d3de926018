import Aa2acp.Lib.EntryPoints
import Aa2acp.Bridge.MediaQueue

/-!
# What a video client can decode

The stream of a client are the access units it has got, the one under way and those in the
queue; while no client is served, a queue that begins with the keyframe is the stream of
the next one.  `push` never looks at that stream: it queues a dependent access unit
whenever there is room.  As long as each one that it queues was pushed directly after the
newest unit of the stream, every client gets a decodable sequence; and as soon as one was
not, some client may get one that is not decodable.
-/

namespace Aa2acp
namespace Bridge
namespace MediaForwarders

open EntryPoints LengthPrefix

/-- Two access units that were pushed one directly after the other. -/
def Consecutive (first second : Frame) : Prop := second.number = first.number + 1

instance : DecidableRel Consecutive :=
  fun first second => inferInstanceAs (Decidable (second.number = first.number + 1))

/-- The access units begin with an IDR slice, and one without such a slice was pushed
directly after the one before it. -/
def Decodable (units : List Frame) : Prop :=
  Unbroken (fun unit => ContainsIdr unit.bytes) Consecutive units

instance (units : List Frame) : Decidable (Decodable units) :=
  inferInstanceAs (Decidable (Unbroken _ _ _))

/-! ## The stream of a client -/

/-- The access units that the client has or that are under way to it. -/
def Stage.units : Stage → List Frame
  | .greeting session _ | .forwarding session => session.units
  | .sending session frame => session.units ++ [frame]
  | .listening | .stopped => []

def MediaState.stream (s : MediaState) : List Frame := s.stage.units ++ s.forwarder.frames

/-- A client is being served. -/
def Stage.Serving (stage : Stage) : Prop := stage.session? ≠ none

instance (stage : Stage) : Decidable stage.Serving := inferInstanceAs (Decidable (_ ≠ _))

/-- What is in the queue goes to the client that is served, or to the next one. -/
def MediaState.Lasting (s : MediaState) : Prop :=
  s.stage.Serving ∨ s.stage = .listening ∧ s.stopping = false ∧ s.forwarder.StartsWithKeyframe

instance (s : MediaState) : Decidable s.Lasting := inferInstanceAs (Decidable (_ ∨ _))

/-- `push` adds an access unit without an IDR slice to the stream. -/
def MediaState.Joins (accessUnit : Bytes) (s : MediaState) : Prop :=
  Pushable accessUnit ∧ ¬ ContainsIdr accessUnit ∧ s.forwarder.HasRoom accessUnit ∧ s.Lasting

instance (accessUnit : Bytes) (s : MediaState) : Decidable (s.Joins accessUnit) :=
  inferInstanceAs (Decidable (_ ∧ _))

/-- An access unit that joins the stream was pushed directly after its newest unit. -/
def KeepsSequence : MediaEvent → MediaState → Prop
  | .push accessUnit, s =>
      s.Joins accessUnit → ∃ last ∈ s.stream.getLast?, last.number = s.forwarder.pushed
  | _, _ => True

instance : ∀ (event : MediaEvent) (s : MediaState), Decidable (KeepsSequence event s)
  | .push accessUnit, s => inferInstanceAs (Decidable (s.Joins accessUnit →
      ∃ last ∈ s.stream.getLast?, last.number = s.forwarder.pushed))
  | .accept, _ | .take, _ | .written, _ | .broken _, _ | .stop, _ | .exit, _ => isTrue trivial

/-! ## The operations -/

section

variable {s : MediaState} {f f' : Forwarder} {accessUnit : Bytes}

theorem stream_of_forwarder (s : MediaState) (f : Forwarder) :
    MediaState.stream { s with forwarder := f } = s.stage.units ++ f.frames := rfl

/-- A dependent access unit goes behind the others. -/
theorem Forwarder.pushVideo_frames_of_joins (f : Forwarder) (hsize : Pushable accessUnit)
    (hidr : ¬ ContainsIdr accessUnit) (hroom : f.HasRoom accessUnit) :
    (f.pushVideo accessUnit).frames = f.frames ++ [⟨accessUnit, f.pushed + 1⟩] ∧
      (f.pushVideo accessUnit).keyframe = f.keyframe := by
  rw [f.pushVideo_of_dependent hsize hidr, if_pos hroom]
  exact ⟨rfl, rfl⟩

/-- Otherwise the queue stays as it is, or an access unit with an IDR slice takes its
place. -/
theorem Forwarder.pushVideo_frames (f : Forwarder)
    (h : ¬ (Pushable accessUnit ∧ ¬ ContainsIdr accessUnit ∧ f.HasRoom accessUnit)) :
    (f.pushVideo accessUnit).frames = f.frames ∧
        (f.pushVideo accessUnit).keyframe = f.keyframe ∨
      ContainsIdr accessUnit ∧
        (f.pushVideo accessUnit).frames = [⟨accessUnit, f.pushed + 1⟩] ∧
        (f.pushVideo accessUnit).keyframe = ⟨accessUnit, f.pushed + 1⟩ := by
  by_cases hempty : accessUnit = []
  · subst hempty
    exact Or.inl ⟨rfl, rfl⟩
  by_cases hlarge : kMaximumQueuedBytes < accessUnit.length
  · rw [f.pushVideo_of_large hlarge]
    exact Or.inl ⟨rfl, rfl⟩
  have hsize : Pushable accessUnit := ⟨hempty, not_lt.mp hlarge⟩
  by_cases hidr : ContainsIdr accessUnit
  · rw [f.pushVideo_of_idr hsize hidr]
    exact Or.inr ⟨hidr, rfl, rfl⟩
  · rw [f.pushVideo_of_dependent hsize hidr, if_neg fun hroom => h ⟨hsize, hidr, hroom⟩]
    exact Or.inl ⟨rfl, rfl⟩

/-- A queue that begins with the keyframe does so still with one more unit. -/
theorem Forwarder.StartsWithKeyframe.append {frame : Frame} (h : f.StartsWithKeyframe)
    (hframes : f'.frames = f.frames ++ [frame]) (hkeyframe : f'.keyframe = f.keyframe) :
    f'.StartsWithKeyframe := by
  unfold Forwarder.StartsWithKeyframe at h ⊢
  obtain ⟨first, hfirst, hbytes⟩ := Option.map_eq_some_iff.mp h
  rw [hframes, hkeyframe, List.head?_append, hfirst]
  exact congrArg some hbytes

/-- A queue that begins with the keyframe does so still without its newest unit. -/
theorem Forwarder.StartsWithKeyframe.of_append {frame : Frame}
    (h : f'.StartsWithKeyframe) (hframes : f'.frames = f.frames ++ [frame])
    (hkeyframe : f'.keyframe = f.keyframe) (hne : frame.bytes ≠ f.keyframe.bytes) :
    f.StartsWithKeyframe := by
  unfold Forwarder.StartsWithKeyframe at h ⊢
  rw [hframes, hkeyframe] at h
  cases hcases : f.frames with
  | nil =>
      rw [hcases] at h
      exact absurd (Option.some.inj h) hne
  | cons first frames =>
      rw [hcases] at h
      exact h

end

/-! ## The invariant -/

structure Linked (s : MediaState) : Prop where
  forwarder : s.forwarder.Sound .video
  keyframe : s.forwarder.keyframe.bytes ≠ [] → ContainsIdr s.forwarder.keyframe.bytes
  stream : s.Lasting → Decodable s.stream
  past : ∀ session ∈ s.past, Decodable session.units

theorem linked_fresh : Linked {} where
  forwarder := Forwarder.sound_empty .video
  keyframe h := absurd rfl h
  stream _ := unbroken_nil
  past := by simp

section

variable {event : MediaEvent} {s s' : MediaState}

theorem Linked.past_append (h : Linked s) {session : Session} (hunits : Decodable session.units) :
    ∀ other ∈ s.past ++ [session], Decodable other.units := by
  intro other hother
  rcases List.mem_append.mp hother with hpast | hnew
  · exact h.past other hpast
  · rw [List.mem_singleton.mp hnew]
    exact hunits

/-- A client is served, so what it has got is decodable. -/
theorem Linked.units (h : Linked s) (hlasting : s.Lasting) : Decodable s.stage.units :=
  (h.stream hlasting).left_of_append

/-- A queue that begins with the keyframe begins with an IDR slice. -/
theorem Linked.head (h : Linked s) (hstarts : s.forwarder.StartsWithKeyframe) :
    ∀ first ∈ s.forwarder.frames.head?, ContainsIdr first.bytes := by
  intro first hfirst
  have hmem : first ∈ s.forwarder.frames := List.mem_of_mem_head? hfirst
  have hbytes : first.bytes = s.forwarder.keyframe.bytes := by
    unfold Forwarder.StartsWithKeyframe at hstarts
    rw [Option.mem_def.mp hfirst] at hstarts
    exact Option.some.inj hstarts
  rw [hbytes]
  exact h.keyframe (hbytes ▸ h.forwarder.nonempty first hmem)

/-- A client that is gone leaves the rest of its stream to the next one. -/
theorem Linked.rest (h : Linked s) (hlasting : s.Lasting)
    (hstarts : s.forwarder.StartsWithKeyframe) : Decodable s.forwarder.frames :=
  (h.stream hlasting).right_of_append (h.head hstarts)

theorem Linked.push (h : Linked s) {accessUnit : Bytes}
    (hkeeps : KeepsSequence (.push accessUnit) s) :
    Linked { s with forwarder := s.forwarder.pushVideo accessUnit } := by
  have hforwarder := h.forwarder.pushVideo accessUnit
  by_cases hjoins : Pushable accessUnit ∧ ¬ ContainsIdr accessUnit ∧
      s.forwarder.HasRoom accessUnit
  · -- A dependent access unit is behind the others.
    obtain ⟨hsize, hidr, hroom⟩ := hjoins
    obtain ⟨hframes, hkeyframe⟩ := s.forwarder.pushVideo_frames_of_joins hsize hidr hroom
    refine ⟨hforwarder, ?_, ?_, h.past⟩
    · rw [hkeyframe]
      exact h.keyframe
    · intro hlasting
      have hother : accessUnit ≠ s.forwarder.keyframe.bytes := by
        rintro rfl
        exact hidr (h.keyframe hsize.1)
      have hbefore : s.Lasting := hlasting.imp_right fun ⟨hlistening, hstopping, hstarts⟩ =>
        ⟨hlistening, hstopping, hstarts.of_append hframes hkeyframe hother⟩
      obtain ⟨last, hlast, hnumber⟩ := hkeeps ⟨hsize, hidr, hroom, hbefore⟩
      rw [stream_of_forwarder, hframes, ← List.append_assoc]
      refine unbroken_append_singleton_iff.mpr ⟨h.stream hbefore, Or.inr ⟨last, hlast, ?_⟩⟩
      rw [Consecutive, hnumber]
  rcases s.forwarder.pushVideo_frames hjoins with ⟨hframes, hkeyframe⟩ | ⟨hidr, hframes, hkeyframe⟩
  · -- The queue is the one from before.
    refine ⟨hforwarder, ?_, ?_, h.past⟩
    · rw [hkeyframe]
      exact h.keyframe
    · intro hlasting
      rw [stream_of_forwarder, hframes]
      refine h.stream ?_
      simpa only [MediaState.Lasting, Forwarder.StartsWithKeyframe, hframes, hkeyframe]
        using hlasting
  · -- The keyframe is the queue, and an entry point of the stream.
    refine ⟨hforwarder, ?_, ?_, h.past⟩
    · rw [hkeyframe]
      exact fun _ => hidr
    · intro hlasting
      rw [stream_of_forwarder, hframes]
      refine unbroken_append_singleton_iff.mpr ⟨?_, Or.inl hidr⟩
      rcases hlasting with hserving | ⟨hlistening, -⟩
      · exact h.units (Or.inl hserving)
      · have hlistening : s.stage = .listening := hlistening
        rw [hlistening]
        exact unbroken_nil

/-- What a new client gets is decodable. -/
theorem Linked.restart (h : Linked s) (hlistening : s.stage = .listening)
    (hstopping : s.stopping = false) : Decodable s.forwarder.restart.frames := by
  unfold Forwarder.restart
  split
  · exact unbroken_nil
  · rename_i hkeyframe
    split
    · exact unbroken_singleton (h.keyframe hkeyframe)
    · rename_i hstarts
      rw [not_not] at hstarts
      exact h.rest (Or.inr ⟨hlistening, hstopping, hstarts⟩) hstarts

theorem restart_keyframe (f : Forwarder) : f.restart.keyframe = f.keyframe := by
  unfold Forwarder.restart
  split
  · rfl
  · split <;> rfl

/-- While a client is served, its stream is decodable. -/
theorem Linked.serving (h : Linked s) (hserving : s.stage.Serving) : Decodable s.stream :=
  h.stream (Or.inl hserving)

/-- When no client is served, the stream is the queue of the next one. -/
theorem lasting_of_listening (hlistening : s.stage = .listening) (h : s.Lasting) :
    s.forwarder.StartsWithKeyframe := by
  rcases h with hserving | ⟨-, -, hstarts⟩
  · exact absurd (hlistening ▸ rfl) hserving
  · exact hstarts

theorem not_lasting_of_stopped (hstopped : s.stage = .stopped) : ¬ s.Lasting := by
  rintro (hserving | ⟨hlistening, -⟩)
  · exact absurd (hstopped ▸ rfl) hserving
  · rw [hstopped] at hlistening
    cases hlistening

theorem Linked.step (h : Linked s) (hkeeps : KeepsSequence event s)
    (hstep : Step .video event s s') : Linked s' := by
  have hforwarder := h.forwarder.step hstep
  cases hstep with
  | push _ accessUnit => exact h.push hkeeps
  | greet f past hconfig =>
      refine ⟨hforwarder, ?_, fun _ => h.restart rfl rfl, h.past⟩
      rw [Forwarder.onClientConnected, restart_keyframe]
      exact h.keyframe
  | enter f past hconfig =>
      refine ⟨hforwarder, ?_, fun _ => h.restart rfl rfl, h.past⟩
      rw [Forwarder.onClientConnected, restart_keyframe]
      exact h.keyframe
  | take f f' session frame stopping past htake =>
      obtain ⟨hframes, hrest⟩ := Forwarder.take_eq_some htake
      have hstream := h.serving (by simp [Stage.Serving, Stage.session?])
      refine ⟨hforwarder, ?_, fun _ => ?_, h.past⟩
      · rw [hrest]
        exact h.keyframe
      · simp only [MediaState.stream, Stage.units, hframes] at hstream
        simpa [MediaState.stream, Stage.units] using hstream
  | writeConfig f session config stopping past =>
      have hstream := h.serving (by simp [Stage.Serving, Stage.session?])
      exact ⟨hforwarder, h.keyframe, fun _ => hstream, h.past⟩
  | writeFrame f session frame stopping past =>
      have hstream := h.serving (by simp [Stage.Serving, Stage.session?])
      exact ⟨hforwarder, h.keyframe, fun _ => hstream, h.past⟩
  | breakConfig f session config stopping past count hcount =>
      have hstream := h.serving (by simp [Stage.Serving, Stage.session?])
      refine ⟨hforwarder, h.keyframe, fun hlasting => ?_, h.past_append hstream.left_of_append⟩
      have hstarts : f.StartsWithKeyframe := lasting_of_listening rfl hlasting
      exact hstream.right_of_append (h.head hstarts)
  | breakFrame f session frame stopping past count hcount =>
      have hstream := h.serving (by simp [Stage.Serving, Stage.session?])
      refine ⟨hforwarder, h.keyframe, fun hlasting => ?_,
        h.past_append hstream.left_of_append.left_of_append⟩
      have hstarts : f.StartsWithKeyframe := lasting_of_listening rfl hlasting
      exact hstream.right_of_append (h.head hstarts)
  | stop =>
      refine ⟨hforwarder, h.keyframe, fun hlasting => h.stream ?_, h.past⟩
      exact hlasting.imp_right fun hlistening => by cases hlistening.2.1
  | leave f past =>
      exact ⟨hforwarder, h.keyframe, fun hlasting => absurd hlasting (not_lasting_of_stopped rfl),
        h.past⟩
  | close f session past =>
      have hstream := h.serving (by simp [Stage.Serving, Stage.session?])
      exact ⟨hforwarder, h.keyframe, fun hlasting => absurd hlasting (not_lasting_of_stopped rfl),
        h.past_append hstream.left_of_append⟩

theorem Linked.sessions (h : Linked s) : ∀ session ∈ s.sessions, Decodable session.units := by
  intro session hsession
  rcases List.mem_append.mp hsession with hpast | hnow
  · exact h.past session hpast
  · have hstage : s.stage.session? = some session := by simpa using hnow
    have hstream := h.serving (by simp [Stage.Serving, hstage])
    have hbegins : ∃ more, s.stage.units = session.units ++ more := by
      cases hs : s.stage <;> rw [hs] at hstage <;> cases hstage
      · exact ⟨[], (List.append_nil _).symm⟩
      · exact ⟨[], (List.append_nil _).symm⟩
      · exact ⟨_, rfl⟩
    obtain ⟨more, hmore⟩ := hbegins
    rw [MediaState.stream, hmore, List.append_assoc] at hstream
    exact hstream.left_of_append

end

/-- In every run in which each access unit that joins the stream was pushed directly after
the newest unit there, what each client has got is decodable. -/
theorem decodable_of_keepsSequence {events : List MediaEvent} {s : MediaState}
    (h : MediaState.run .video events {} = some s)
    (hkeeps : Machine.Each (MediaState.step .video) KeepsSequence events {}) :
    ∀ session ∈ s.sessions, Decodable session.units := by
  have hlinked : Linked s :=
    hkeeps.run_invariant Linked (fun _ _ _ hs hevent hstep => hs.step hevent (step_cases hstep))
      linked_fresh h
  exact hlinked.sessions

/-- A client that leaves in the middle, and one that takes over the queue. -/
def takenOver : List MediaEvent :=
  [.push [0, 0, 1, 0x65, 1], .push [0, 0, 1, 0x41, 2], .accept, .take, .written, .take,
    .push [0, 0, 1, 0x65, 3], .push [0, 0, 1, 0x41, 4], .broken 3, .accept, .take, .written,
    .take, .written]

theorem decodable_of_keepsSequence_takenOver :
    ∃ s, MediaState.run .video takenOver {} = some s ∧
      s.sessions.map (fun session => session.units.map Frame.number) = [[1], [3, 4]] ∧
      ∀ session ∈ s.sessions, Decodable session.units := by
  have hsome : (MediaState.run .video takenOver {}).isSome := by decide +kernel
  obtain ⟨s, hrun⟩ := Option.isSome_iff_exists.mp hsome
  have hnumbers : (MediaState.run .video takenOver {}).map (fun s =>
      s.sessions.map fun session => session.units.map Frame.number) = some [[1], [3, 4]] := by
    decide +kernel
  have hkeeps : Machine.Each (MediaState.step .video) KeepsSequence takenOver {} := by
    decide +kernel
  rw [hrun] at hnumbers
  exact ⟨s, hrun, Option.some.inj hnumbers, decodable_of_keepsSequence hrun hkeeps⟩

/-- A client that connects before any keyframe, and one that connects after another has
left and the access units between the keyframe and the newest one with it. -/
def joinedEarly : List MediaEvent := [.accept, .push [0, 0, 1, 0x41, 1], .take, .written]

def joinedLate : List MediaEvent :=
  [.push [0, 0, 1, 0x65, 1], .push [0, 0, 1, 0x41, 2], .accept, .take, .written, .take,
    .broken 0, .accept, .push [0, 0, 1, 0x41, 3], .take, .written, .take, .written]

theorem undecodable_clients :
    ¬ (∀ s, MediaState.run .video joinedEarly {} = some s →
        ∀ session ∈ s.sessions, Decodable session.units) ∧
      ¬ (∀ s, MediaState.run .video joinedLate {} = some s →
        ∀ session ∈ s.sessions, Decodable session.units) := by
  have hearly : (MediaState.run .video joinedEarly {}).any (fun s =>
      s.sessions.any fun session => !decide (Decodable session.units)) = true := by
    decide +kernel
  have hlate : (MediaState.run .video joinedLate {}).any (fun s =>
      s.sessions.any fun session => !decide (Decodable session.units)) = true := by
    decide +kernel
  simp only [Option.any_eq_true, List.any_eq_true, Bool.not_eq_true', decide_eq_false_iff_not]
    at hearly hlate
  obtain ⟨s, hrun, session, hsession, hunits⟩ := hearly
  obtain ⟨s', hrun', session', hsession', hunits'⟩ := hlate
  exact ⟨fun hclaim => hunits (hclaim s hrun session hsession),
    fun hclaim => hunits' (hclaim s' hrun' session' hsession')⟩

/-! ## Every other run can go wrong -/

section

variable {s : MediaState}

/-- The worker sends all that is queued. -/
theorem exists_drained (f : Forwarder) (session : Session) (stopping : Bool)
    (past : List Session) :
    ∃ events f' session', (∀ accessUnit, MediaEvent.push accessUnit ∉ events) ∧
      MediaState.run .video events ⟨f, .forwarding session, stopping, past⟩ =
        some ⟨f', .forwarding session', stopping, past⟩ ∧
      session'.units = session.units ++ f.frames := by
  induction hframes : f.frames generalizing f session with
  | nil => exact ⟨[], f, session, by simp, rfl, (List.append_nil _).symm⟩
  | cons frame frames ih =>
      let rest := { f with frames := frames, queuedBytes := f.queuedBytes - frame.bytes.length }
      have htake : MediaState.step .video .take ⟨f, .forwarding session, stopping, past⟩ =
          some ⟨rest, .sending session frame, stopping, past⟩ := by
        simp only [MediaState.step, Forwarder.take, hframes, rest]
      obtain ⟨events, f', session', hpushes, hrun, hunits⟩ := ih rest
        { session with
          wire := session.wire ++ prefixed frame.bytes, units := session.units ++ [frame] } rfl
      refine ⟨.take :: .written :: events, f', session', by simpa using hpushes, ?_, ?_⟩
      · exact Machine.run_cons_eq_some.mpr
          ⟨_, htake, Machine.run_cons_eq_some.mpr ⟨_, rfl, hrun⟩⟩
      · simp [hunits]

/-- A client that is served can get all of its stream. -/
theorem exists_delivered_of_serving (hserving : s.stage.Serving) :
    ∃ events s', (∀ accessUnit, MediaEvent.push accessUnit ∉ events) ∧
      MediaState.run .video events s = some s' ∧
      ∃ session ∈ s'.sessions, session.units = s.stream := by
  obtain ⟨f, stage, stopping, past⟩ := s
  have hwriting : ∀ session : Session, MediaState.step .video .written ⟨f, stage, stopping, past⟩ =
      some ⟨f, .forwarding session, stopping, past⟩ → stage.units = session.units →
      ∃ events s', (∀ accessUnit, MediaEvent.push accessUnit ∉ events) ∧
        MediaState.run .video events ⟨f, stage, stopping, past⟩ = some s' ∧
        ∃ session ∈ s'.sessions, session.units = MediaState.stream ⟨f, stage, stopping, past⟩ := by
    intro session hwritten hunits
    obtain ⟨events, f', session', hpushes, hrun, hdrained⟩ :=
      exists_drained f session stopping past
    refine ⟨.written :: events, _, by simpa using hpushes,
      Machine.run_cons_eq_some.mpr ⟨_, hwritten, hrun⟩, session', ?_, ?_⟩
    · simp [MediaState.sessions, Stage.session?]
    · rw [hdrained, MediaState.stream, hunits]
  cases stage with
  | listening => exact absurd rfl hserving
  | stopped => exact absurd rfl hserving
  | greeting session config => exact hwriting _ rfl rfl
  | sending session frame => exact hwriting _ rfl rfl
  | forwarding session =>
      obtain ⟨events, f', session', hpushes, hrun, hdrained⟩ :=
        exists_drained f session stopping past
      refine ⟨events, _, hpushes, hrun, session', ?_, hdrained⟩
      simp [MediaState.sessions, Stage.session?]

/-- So can the next client, when the queue begins with the keyframe. -/
theorem exists_delivered (hsound : s.forwarder.Sound .video) (hlasting : s.Lasting) :
    ∃ events s', (∀ accessUnit, MediaEvent.push accessUnit ∉ events) ∧
      MediaState.run .video events s = some s' ∧
      ∃ session ∈ s'.sessions, session.units = s.stream := by
  rcases hlasting with hserving | ⟨hlistening, hstopping, hstarts⟩
  · exact exists_delivered_of_serving hserving
  · obtain ⟨f, stage, stopping, past⟩ := s
    cases hlistening
    cases hstopping
    have hstarts : f.StartsWithKeyframe := hstarts
    have hrestart : f.restart = f := by
      have hkeyframe : f.keyframe.bytes ≠ [] := by
        intro hempty
        unfold Forwarder.StartsWithKeyframe at hstarts
        obtain ⟨first, hfirst, hbytes⟩ := Option.map_eq_some_iff.mp hstarts
        exact hsound.nonempty first (List.mem_of_mem_head? hfirst) (hbytes.trans hempty)
      rw [Forwarder.restart, if_neg hkeyframe, if_neg (not_not.mpr hstarts)]
    obtain ⟨s', haccept, hserving, hstream⟩ : ∃ s', MediaState.step .video .accept
        ⟨f, .listening, false, past⟩ = some s' ∧ s'.stage.Serving ∧ s'.stream = f.frames := by
      simp only [MediaState.step, Forwarder.onClientConnected, hrestart]
      by_cases hconfig : f.config = []
      · exact ⟨_, rfl, by simp [hconfig, Stage.Serving, Stage.session?],
          by simp [hconfig, MediaState.stream, Stage.units]⟩
      · exact ⟨_, rfl, by simp [hconfig, Stage.Serving, Stage.session?],
          by simp [hconfig, MediaState.stream, Stage.units]⟩
    obtain ⟨events, s'', hpushes, hrun, session, hsession, hunits⟩ :=
      exists_delivered_of_serving hserving
    refine ⟨.accept :: events, s'', by simpa using hpushes,
      Machine.run_cons_eq_some.mpr ⟨s', haccept, hrun⟩, session, hsession, ?_⟩
    rw [hunits, hstream]
    rfl

end

/-- When an access unit joins the stream and was not pushed directly after the newest unit
there, the worker alone can bring a client to a sequence that is not decodable. -/
theorem exists_undecodable {events : List MediaEvent} {s : MediaState} {accessUnit : Bytes}
    (h : MediaState.run .video events {} = some s)
    (hbreak : ¬ KeepsSequence (.push accessUnit) s) :
    ∃ more s', (∀ accessUnit, MediaEvent.push accessUnit ∉ more) ∧
      MediaState.run .video (events ++ .push accessUnit :: more) {} = some s' ∧
      ∃ session ∈ s'.sessions, ¬ Decodable session.units := by
  have hsound : s.forwarder.Sound .video :=
    Machine.run_invariant (fun s : MediaState => s.forwarder.Sound .video)
      (fun _ _ _ hs hstep => hs.step (step_cases hstep)) (Forwarder.sound_empty .video) h
  simp only [KeepsSequence, Classical.not_imp] at hbreak
  obtain ⟨⟨hsize, hidr, hroom, hlasting⟩, hlast⟩ := hbreak
  obtain ⟨hframes, hkeyframe⟩ := s.forwarder.pushVideo_frames_of_joins hsize hidr hroom
  have hbroken : ¬ Decodable (MediaState.stream
      { s with forwarder := s.forwarder.pushVideo accessUnit }) := by
    rw [stream_of_forwarder, hframes, ← List.append_assoc]
    intro hdecodable
    rcases (unbroken_append_singleton_iff.mp hdecodable).2 with hentry | ⟨last, hmem, hnumber⟩
    · exact hidr hentry
    · exact hlast ⟨last, hmem, (Nat.succ.inj hnumber).symm⟩
  have hlasting' : MediaState.Lasting
      { s with forwarder := s.forwarder.pushVideo accessUnit } :=
    hlasting.imp_right fun ⟨hlistening, hstopping, hstarts⟩ =>
      ⟨hlistening, hstopping, hstarts.append hframes hkeyframe⟩
  obtain ⟨more, s', hpushes, hrun, session, hsession, hunits⟩ :=
    exists_delivered (hsound.pushVideo accessUnit) hlasting'
  refine ⟨more, s', hpushes, ?_, session, hsession, hunits ▸ hbroken⟩
  exact Machine.run_append_eq_some.mpr ⟨s, h, Machine.run_cons_eq_some.mpr ⟨_, rfl, hrun⟩⟩

end MediaForwarders
end Bridge
end Aa2acp
