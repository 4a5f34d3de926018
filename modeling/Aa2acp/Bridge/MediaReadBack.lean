import Mathlib.Data.List.TakeWhile
import Aa2acp.Bridge.MediaQueue

/-!
# What the readers make of the frames

A client's bytes are the frames written to it, each with its size in front, and at most a
part of one more (`Session.Carries`).  Its reader returns these frames one after the
other and stops at the first that is larger than its limit.  The forwarder lets larger
frames through, so all frames come back exactly when no written frame exceeds the limit.
-/

namespace Aa2acp
namespace Bridge
namespace MediaForwarders

open LengthPrefix

/-! ## Reading -/

theorem readFrame_prefixed_append {frame : Bytes} (hne : frame ≠ []) (hfits : Fits frame)
    (limit : ℕ) (rest : Bytes) :
    readFrame limit (prefixed frame ++ rest) =
      if frame.length ≤ limit then some (frame, rest) else none := by
  have hheader : (prefixed frame ++ rest).take 4 = bigEndian 4 frame.length := by
    rw [prefixed, List.append_assoc]
    exact List.take_left' (length_bigEndian 4 _)
  have hbody : (prefixed frame ++ rest).drop 4 = frame ++ rest := by
    rw [prefixed, List.append_assoc]
    exact List.drop_left' (length_bigEndian 4 _)
  have hafter : (prefixed frame ++ rest).drop (4 + frame.length) = rest :=
    List.drop_left' (length_prefixed frame)
  have hpos : frame.length ≠ 0 := by simpa using hne
  simp only [readFrame, hheader, hbody, hafter, ofBigEndian_length hfits, length_bigEndian,
    List.take_left, lt_irrefl, if_false, hpos, false_or]
  by_cases hlimit : frame.length ≤ limit
  · rw [if_pos hlimit, if_neg (not_lt.mpr hlimit)]
  · rw [if_neg hlimit, if_pos (not_le.mp hlimit)]

/-- A frame that breaks off is not returned. -/
theorem readFrame_part {part : Bytes} (hpart : Part part) (limit : ℕ) :
    readFrame limit part = none := by
  obtain ⟨block, more, hfits, hmore, hsplit⟩ := hpart
  have hlength := congrArg List.length hsplit
  rw [List.length_append, length_prefixed] at hlength
  have hmissing := List.length_pos_iff.mpr hmore
  by_cases hshort : part.length < 4
  · simp [readFrame, hshort]
  · have hwithin : (part ++ more).take 4 = part.take 4 :=
      List.take_append_of_le_length (not_lt.mp hshort)
    have hheader : part.take 4 = bigEndian 4 block.length := by
      rw [← hwithin, hsplit, prefixed]
      exact List.take_left' (length_bigEndian 4 _)
    have hbreaks : ((part.drop 4).take block.length).length < block.length := by
      rw [List.length_take, List.length_drop]
      omega
    simp only [readFrame, hheader, ofBigEndian_length hfits, length_bigEndian, hbreaks, if_true]
    rw [if_neg (lt_irrefl 4)]
    split <;> rfl

/-- The reader returns the frames up to the first that is too large for it. -/
theorem framesFrom_prefixedAll {frames : List Bytes}
    (hframes : ∀ frame ∈ frames, frame ≠ [] ∧ Fits frame) {part : Bytes} (hpart : Part part)
    (limit : ℕ) {fuel : ℕ} (hfuel : frames.length ≤ fuel) :
    framesFrom (readFrame limit) fuel (prefixedAll frames ++ part) =
      frames.takeWhile fun frame => decide (frame.length ≤ limit) := by
  induction frames generalizing fuel with
  | nil =>
      cases fuel with
      | zero => rfl
      | succ fuel => simp [framesFrom, readFrame_part hpart]
  | cons frame frames ih =>
      cases fuel with
      | zero => cases hfuel
      | succ fuel =>
          obtain ⟨hne, hfits⟩ := hframes frame List.mem_cons_self
          have hlater := ih (fun other hother => hframes other (List.mem_cons_of_mem _ hother))
            (Nat.le_of_succ_le_succ hfuel)
          rw [prefixedAll_cons, List.append_assoc, framesFrom,
            readFrame_prefixed_append hne hfits, List.takeWhile_cons]
          by_cases hlimit : frame.length ≤ limit
          · simp [hlimit, hlater]
          · simp [hlimit]

theorem length_le_length_prefixedAll (frames : List Bytes) :
    frames.length ≤ (prefixedAll frames).length := by
  induction frames with
  | nil => rfl
  | cons frame frames ih =>
      rw [prefixedAll_cons, List.length_append, length_prefixed, List.length_cons]
      omega

theorem MediaKind.next_eq (kind : MediaKind) : kind.next = readFrame kind.readerLimit := by
  cases kind <;> rfl

/-! ## What the bytes of a client are -/

structure Session.Carries (session : Session) (part : Bytes) : Prop where
  wire : session.wire = prefixedAll session.frames ++ part
  frames : ∀ frame ∈ session.frames, frame ≠ [] ∧ Fits frame
  part : Part part

theorem carries_fresh : Session.Carries {} [] where
  wire := rfl
  frames := by simp [Session.frames]
  part := part_nil

/-- All frames come back when none of them exceeds the reader's limit, and only then. -/
theorem Session.Carries.received_iff {session : Session} {part : Bytes}
    (h : session.Carries part) (kind : MediaKind) :
    kind.received session.wire = session.frames ↔
      ∀ frame ∈ session.frames, frame.length ≤ kind.readerLimit := by
  have hfuel : session.frames.length ≤ session.wire.length := by
    rw [h.wire, List.length_append]
    exact (length_le_length_prefixedAll _).trans (Nat.le_add_right _ _)
  have hread := framesFrom_prefixedAll h.frames h.part kind.readerLimit hfuel
  rw [← h.wire] at hread
  rw [MediaKind.received, kind.next_eq, hread, List.takeWhile_eq_self_iff]
  simp

/-- The frame that is being written is whole only when all of it is. -/
theorem Session.Carries.breakOff {session : Session} (h : session.Carries []) {frame : Bytes}
    (hfits : Fits frame) {count : ℕ} (hcount : count < (prefixed frame).length) :
    Session.Carries { session with wire := session.wire ++ (prefixed frame).take count }
      ((prefixed frame).take count) where
  wire := by
    dsimp only
    rw [h.wire, List.append_nil]
    rfl
  frames := h.frames
  part := by
    refine ⟨frame, (prefixed frame).drop count, hfits, ?_, List.take_append_drop _ _⟩
    rw [ne_eq, List.drop_eq_nil_iff, not_le]
    exact hcount

/-- What each stage knows about the client it serves. -/
def Stage.Carries : Stage → Prop
  | .greeting session config => session = {} ∧ config ≠ [] ∧ Fits config
  | .forwarding session => session.Carries []
  | .sending session frame => session.Carries [] ∧ frame.bytes ≠ [] ∧ Fits frame.bytes
  | .listening | .stopped => True

structure Carried (kind : MediaKind) (s : MediaState) : Prop where
  forwarder : s.forwarder.Sound kind
  stage : s.stage.Carries
  past : ∀ session ∈ s.past, ∃ part, session.Carries part

theorem carried_fresh (kind : MediaKind) : Carried kind {} where
  forwarder := Forwarder.sound_empty kind
  stage := trivial
  past := by simp

section

variable {kind : MediaKind} {event : MediaEvent} {s s' : MediaState}

theorem Carried.past_append (h : Carried kind s) {session : Session} {part : Bytes}
    (hsession : session.Carries part) :
    ∀ other ∈ s.past ++ [session], ∃ part, other.Carries part := by
  intro other hother
  rcases List.mem_append.mp hother with hpast | hnew
  · exact h.past other hpast
  · rw [List.mem_singleton.mp hnew]
    exact ⟨part, hsession⟩

theorem Carried.step (h : Carried kind s) (hstep : Step kind event s s') : Carried kind s' := by
  have hforwarder := h.forwarder.step hstep
  have hstage := h.stage
  cases hstep with
  | push _ bytes => exact ⟨hforwarder, hstage, h.past⟩
  | greet f past hconfig =>
      exact ⟨hforwarder, ⟨rfl, hconfig, Forwarder.Sound.fits_config h.forwarder⟩, h.past⟩
  | enter f past => exact ⟨hforwarder, carries_fresh, h.past⟩
  | take f f' session frame stopping past htake =>
      obtain ⟨-, hframe⟩ := Forwarder.Sound.take h.forwarder htake
      exact ⟨hforwarder, ⟨hstage, hframe.1, hframe.fits⟩, h.past⟩
  | writeConfig f session config stopping past =>
      obtain ⟨rfl, hne, hfits⟩ := hstage
      refine ⟨hforwarder, ⟨?_, ?_, part_nil⟩, h.past⟩
      · simp [Session.frames]
      · simpa [Session.frames] using ⟨hne, hfits⟩
  | writeFrame f session frame stopping past =>
      obtain ⟨hcarries, hne, hfits⟩ := hstage
      refine ⟨hforwarder, ⟨?_, ?_, part_nil⟩, h.past⟩
      · have hwire := hcarries.wire
        simp only [Session.frames, List.append_nil] at hwire
        simp [Session.frames, hwire]
      · intro other hother
        simp only [Session.frames, List.map_append, List.map_cons, List.map_nil,
          ← List.append_assoc] at hother
        rcases List.mem_append.mp hother with hold | hnew
        · exact hcarries.frames other hold
        · rw [List.mem_singleton.mp hnew]
          exact ⟨hne, hfits⟩
  | breakConfig f session config stopping past count hcount =>
      obtain ⟨rfl, -, hfits⟩ := hstage
      exact ⟨hforwarder, trivial, h.past_append (carries_fresh.breakOff hfits hcount)⟩
  | breakFrame f session frame stopping past count hcount =>
      obtain ⟨hcarries, -, hfits⟩ := hstage
      exact ⟨hforwarder, trivial, h.past_append (hcarries.breakOff hfits hcount)⟩
  | stop => exact ⟨hforwarder, hstage, h.past⟩
  | leave f past => exact ⟨hforwarder, trivial, h.past⟩
  | close f session past => exact ⟨hforwarder, trivial, h.past_append hstage⟩

/-! ## All clients -/

/-- The bytes that `send_frame` is about. -/
def Stage.inHand? : Stage → Option Bytes
  | .greeting _ config => some config
  | .sending _ frame => some frame.bytes
  | .listening | .forwarding _ | .stopped => none

/-- All frames that were written, in order. -/
def MediaState.writtenFrames (s : MediaState) : List Bytes := s.sessions.flatMap Session.frames

/-- The frame in the hands of `send_frame`, when it is written completely, is one that the
reader takes. -/
def WritesWithinLimit (kind : MediaKind) : MediaEvent → MediaState → Prop
  | .written, s => ∀ frame ∈ s.stage.inHand?, frame.length ≤ kind.readerLimit
  | _, _ => True

/-- The frames that are written are those in the hands of `send_frame`. -/
theorem writtenFrames_step (h : Carried kind s) (hstep : Step kind event s s') :
    s'.writtenFrames = s.writtenFrames ++
      if event = .written then s.stage.inHand?.toList else [] := by
  have hstage := h.stage
  cases hstep with
  | writeConfig f session config stopping past =>
      obtain ⟨rfl, -⟩ := hstage
      simp [MediaState.writtenFrames, MediaState.sessions, Stage.session?, Stage.inHand?,
        Session.frames]
  | writeFrame f session frame stopping past =>
      simp [MediaState.writtenFrames, MediaState.sessions, Stage.session?, Stage.inHand?,
        Session.frames]
  | push | greet | enter | take | breakConfig | breakFrame | stop | leave | close =>
      simp [MediaState.writtenFrames, MediaState.sessions, Stage.session?, Session.frames]

/-- Between two calls of `send_frame` as within one, a client has whole frames and at most
a part of one. -/
theorem Carried.sessions (h : Carried kind s) :
    ∀ session ∈ s.sessions, ∃ part, session.Carries part := by
  have hstage := h.stage
  intro session hsession
  rcases List.mem_append.mp hsession with hpast | hnow
  · exact h.past session hpast
  · cases hs : s.stage <;> rw [hs] at hnow hstage <;>
      simp only [Stage.session?, Option.toList_some, Option.toList_none, List.mem_singleton,
        List.not_mem_nil] at hnow <;> subst hnow
    · obtain ⟨rfl, -⟩ := hstage
      exact ⟨[], carries_fresh⟩
    · exact ⟨[], hstage⟩
    · exact ⟨[], hstage.1⟩

theorem Carried.received_iff (h : Carried kind s) :
    (∀ session ∈ s.sessions, kind.received session.wire = session.frames) ↔
      ∀ frame ∈ s.writtenFrames, frame.length ≤ kind.readerLimit := by
  have hcarries := h.sessions
  constructor
  · intro hread frame hframe
    obtain ⟨session, hsession, hmem⟩ := List.mem_flatMap.mp hframe
    obtain ⟨part, hpart⟩ := hcarries session hsession
    exact (hpart.received_iff kind).mp (hread session hsession) frame hmem
  · intro hwithin session hsession
    obtain ⟨part, hpart⟩ := hcarries session hsession
    refine (hpart.received_iff kind).mpr fun frame hframe => ?_
    exact hwithin frame (List.mem_flatMap.mpr ⟨session, hsession, hframe⟩)

theorem writtenWithin_step (h : Carried kind s) (hstep : Step kind event s s') :
    (∀ frame ∈ s'.writtenFrames, frame.length ≤ kind.readerLimit) ↔
      (∀ frame ∈ s.writtenFrames, frame.length ≤ kind.readerLimit) ∧
        WritesWithinLimit kind event s := by
  rw [writtenFrames_step h hstep, List.forall_mem_append]
  cases event <;> simp [WritesWithinLimit]

end

/-- In every run, the reader of every client returns all the frames that were written to
it, unchanged, exactly when every frame was within the reader's limit when it was
written. -/
theorem received_iff_withinLimit (kind : MediaKind) {events : List MediaEvent} {s : MediaState}
    (h : MediaState.run kind events {} = some s) :
    (∀ session ∈ s.sessions, kind.received session.wire = session.frames) ↔
      Machine.Each (MediaState.step kind) (WritesWithinLimit kind) events {} := by
  have hcarried : Carried kind s :=
    Machine.run_invariant (Carried kind) (fun _ _ _ hs hstep => hs.step (step_cases hstep))
      (carried_fresh kind) h
  rw [hcarried.received_iff]
  have hiff := Machine.iff_each (Carried kind)
    (fun s : MediaState => ∀ frame ∈ s.writtenFrames, frame.length ≤ kind.readerLimit)
    (fun _ _ _ hs hstep => Carried.step hs (step_cases hstep))
    (fun _ _ _ hs hstep => writtenWithin_step hs (step_cases hstep)) (carried_fresh kind) h
  rw [hiff]
  simp [MediaState.writtenFrames, MediaState.sessions, Stage.session?]

/-- Two frames that come back: the configuration of a video client and its keyframe. -/
def keyframeAndConfig : List MediaEvent :=
  [.push [0, 0, 0, 1, 0x67, 0x64, 0, 0, 1, 0x68, 0xee, 0, 0, 1, 0x65, 1], .accept, .written,
    .take, .written]

theorem received_iff_withinLimit_keyframeAndConfig :
    ∃ s, MediaState.run .video keyframeAndConfig {} = some s ∧
      s.writtenFrames = [[0, 0, 0, 1, 0x67, 0x64, 0, 0, 0, 1, 0x68, 0xee],
        [0, 0, 0, 1, 0x67, 0x64, 0, 0, 1, 0x68, 0xee, 0, 0, 1, 0x65, 1]] ∧
      ((∀ session ∈ s.sessions, MediaKind.video.received session.wire = session.frames) ↔
        Machine.Each (MediaState.step .video) (WritesWithinLimit .video) keyframeAndConfig {}) := by
  have hsome : (MediaState.run .video keyframeAndConfig {}).isSome := by decide +kernel
  obtain ⟨s, hrun⟩ := Option.isSome_iff_exists.mp hsome
  have hwritten : (MediaState.run .video keyframeAndConfig {}).map MediaState.writtenFrames =
      some [[0, 0, 0, 1, 0x67, 0x64, 0, 0, 0, 1, 0x68, 0xee],
        [0, 0, 0, 1, 0x67, 0x64, 0, 0, 1, 0x68, 0xee, 0, 0, 1, 0x65, 1]] := by
    decide +kernel
  rw [hrun] at hwritten
  exact ⟨s, hrun, Option.some.inj hwritten, received_iff_withinLimit .video hrun⟩

/-- The client that gets one audio packet. -/
theorem run_one_packet {packet : Bytes} (h : Pushable packet) :
    MediaState.run .audio [.push packet, .accept, .take, .written] {} =
      some {
        forwarder := { pushed := 1 }
        stage := .forwarding { wire := prefixed packet, units := [⟨packet, 1⟩] } } := by
  have hlimit := not_lt.mpr h.2
  simp [MediaState.run, Machine.run, MediaState.step, Forwarder.push, Forwarder.pushAudio,
    Forwarder.enqueue, Forwarder.dropOldest, Forwarder.onClientConnected, Forwarder.take, h.1,
    hlimit]

/-- A packet of 65,537 bytes is queued and sent, and the reader gives up on it. -/
theorem large_packet_rejected :
    ¬ ∀ (kind : MediaKind) (events : List MediaEvent) (s : MediaState),
      (∀ count, MediaEvent.broken count ∉ events) → MediaState.run kind events {} = some s →
      ∀ session ∈ s.sessions, kind.received session.wire = session.frames := by
  intro hclaim
  obtain ⟨packet, hlength⟩ : ∃ packet : Bytes, packet.length = 65537 :=
    ⟨List.replicate 65537 0, List.length_replicate⟩
  have hpush : Pushable packet := by
    refine ⟨List.ne_nil_of_length_pos (by omega), ?_⟩
    rw [hlength]
    decide
  have hcarries : Session.Carries { wire := prefixed packet, units := [⟨packet, 1⟩] } [] := by
    refine ⟨by simp [Session.frames], ?_, part_nil⟩
    simpa [Session.frames] using ⟨hpush.1, hpush.fits⟩
  have hread := hclaim .audio _ _ (by simp) (run_one_packet hpush) _ List.mem_cons_self
  have hwithin := (hcarries.received_iff .audio).mp hread packet List.mem_cons_self
  rw [hlength] at hwithin
  exact absurd hwithin (by decide)

end MediaForwarders
end Bridge
end Aa2acp
