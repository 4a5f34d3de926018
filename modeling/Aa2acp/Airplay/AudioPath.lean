import Aa2acp.Aa.MediaSinks
import Aa2acp.Airplay.AudioStream
import Aa2acp.Bridge.PushOrder

/-!
# From the phone to the speakers

The daemon hands the audio frames of Android Auto to three `AudioSocketForwarder`s, one for each
stream.  A client of a forwarder reads them with an `AudioSocketReader`, and a sender of
`run_session` makes packets of them for the head unit.

The streams do not mix.  On the way of one stream frames are dropped, but what the head unit
plays are frames of the phone for this stream, each as it was and none twice
(`audio_arrives`).
-/

namespace Aa2acp
namespace Airplay
namespace AudioPath

open Aa (AudioStream ControlSession Message Channel Sink)
open Bridge.MediaForwarders Audio Microphone

/-! ## The audio of the daemon -/

/-- What the daemon has for audio. -/
structure AudioRoute where
  /-- The control sessions, one for each time that a phone was connected. -/
  controls : ℕ → ControlSession := fun _ => .started
  forwarders : AudioStream → MediaState := fun _ => {}

inductive RouteEvent where
  | control (phone : ℕ) (event : ControlSession.Event)
  /-- A step of the worker of a forwarder. -/
  | worker (stream : AudioStream) (event : MediaEvent)
deriving DecidableEq

namespace AudioRoute

/-- What a session has handed to the audio callback for a stream since. -/
def newFrames (stream : AudioStream) (before after : ControlSession) : List Bytes :=
  (after.sink (.audio stream)).frames.drop (before.sink (.audio stream)).frames.length

/-- The calls of `push` on a forwarder. -/
def pushAll (frames : List Bytes) (s : MediaState) : MediaState :=
  frames.foldl (fun s pcm => { s with forwarder := s.forwarder.push .audio pcm }) s

/-- The audio callback pushes each frame into the forwarder of its stream. -/
def step : RouteEvent → AudioRoute → Option AudioRoute
  | .control phone event, route =>
      (ControlSession.step event (route.controls phone)).map fun control =>
        { controls := Function.update route.controls phone control
          forwarders := fun stream =>
            pushAll (newFrames stream (route.controls phone) control) (route.forwarders stream) }
  | .worker stream event, route =>
      if event.packet?.isSome then none
      else
        (MediaState.step .audio event (route.forwarders stream)).map fun s =>
          { route with forwarders := Function.update route.forwarders stream s }

def run : List RouteEvent → AudioRoute → Option AudioRoute := Machine.run step

end AudioRoute

/-- The bytes of a frame in `airplay/session.cpp`: stereo for the media audio, mono for the others. -/
def frameSize : AudioStream → ℕ
  | .media => 4
  | .guidance | .system => 2

/-- The sender of a stream. -/
def sendAudio (aead : Aead) (key : Bytes) : AudioStream → List (Bytes × Bool) → List Bytes
  | .media => sendMediaAudio aead key
  | .guidance | .system => sendAuxiliaryAudio aead key

/-! ## The frames of the phone -/

/-- The frame that a message brings. -/
def frame? : Message → Option Bytes
  | .media pcm => some pcm
  | _ => none

/-- The frames that the phone has sent for a stream. -/
def sentOn (stream : AudioStream) (events : List RouteEvent) : List Bytes :=
  events.flatMap fun event =>
    match event with
    | .control _ event => (ControlSession.messagesOn (.audio stream) [event]).filterMap frame?
    | .worker _ _ => []

theorem frames_foldl (messages : List Message) (sink : Sink) :
    (messages.foldl Sink.after sink).frames = sink.frames ++ messages.filterMap frame? := by
  induction messages generalizing sink with
  | nil => simp
  | cons message messages ih =>
      rw [List.foldl_cons, ih, List.filterMap_cons]
      cases message <;> simp [Sink.after, frame?]

/-- The callback gets what the phone sends. -/
theorem newFrames_of_step {stream : AudioStream} {event : ControlSession.Event}
    {s s' : ControlSession} (hstep : ControlSession.step event s = some s') :
    AudioRoute.newFrames stream s s' =
      (ControlSession.messagesOn (.audio stream) [event]).filterMap frame? := by
  have hsink : (Channel.audio stream).IsSink := trivial
  rw [AudioRoute.newFrames, ControlSession.sink_step hsink hstep, frames_foldl, List.drop_left]

/-! ## The forwarders run on their own -/

theorem run_pushAll (frames : List Bytes) (s : MediaState) :
    MediaState.run .audio (frames.map .push) s = some (AudioRoute.pushAll frames s) := by
  induction frames generalizing s with
  | nil => rfl
  | cons pcm frames ih => exact Machine.run_cons_eq_some.mpr ⟨_, rfl, ih _⟩

/-- A forwarder has had a run of its own, in which the phone's frames were pushed. -/
def Fed (events : List RouteEvent) (stream : AudioStream) (s : MediaState) : Prop :=
  ∃ history, MediaState.run .audio history {} = some s ∧
    history.filterMap MediaEvent.packet? = sentOn stream events

variable {events : List RouteEvent} {event : RouteEvent} {stream : AudioStream} {route route' : AudioRoute}

theorem sentOn_concat (stream : AudioStream) (events : List RouteEvent) (event : RouteEvent) :
    sentOn stream (events ++ [event]) = sentOn stream events ++ sentOn stream [event] :=
  List.flatMap_append

/-- Frames are pushed. -/
theorem Fed.pushAll {s : MediaState} (h : Fed events stream s) :
    Fed (events ++ [event]) stream (AudioRoute.pushAll (sentOn stream [event]) s) := by
  obtain ⟨history, hrun, hpackets⟩ := h
  refine ⟨history ++ (sentOn stream [event]).map MediaEvent.push,
    Machine.run_append_eq_some.mpr ⟨s, hrun, run_pushAll _ _⟩, ?_⟩
  have hpushed : ((sentOn stream [event]).map MediaEvent.push).filterMap MediaEvent.packet? =
      sentOn stream [event] := by
    rw [List.filterMap_map]
    exact List.filterMap_some
  rw [List.filterMap_append, hpackets, hpushed, sentOn_concat]

/-- The worker makes a step. -/
theorem Fed.worker {s s' : MediaState} {step : MediaEvent} (h : Fed events stream s)
    (hstep : MediaState.step .audio step s = some s') (hpacket : step.packet? = none)
    (hnone : sentOn stream [event] = []) : Fed (events ++ [event]) stream s' := by
  obtain ⟨history, hrun, hpackets⟩ := h
  have hone : MediaState.run .audio [step] s = some s' := Machine.run_cons_eq_some.mpr ⟨s', hstep, rfl⟩
  refine ⟨history ++ [step], Machine.run_append_eq_some.mpr ⟨s, hrun, hone⟩, ?_⟩
  rw [List.filterMap_append, hpackets, sentOn_concat, hnone]
  simp [hpacket]

/-- Nothing happens to the forwarder. -/
theorem Fed.idle {s : MediaState} (h : Fed events stream s) (hnone : sentOn stream [event] = []) :
    Fed (events ++ [event]) stream s := by
  obtain ⟨history, hrun, hpackets⟩ := h
  exact ⟨history, hrun, by rw [hpackets, sentOn_concat, hnone, List.append_nil]⟩

theorem fed_step (h : ∀ stream, Fed events stream (route.forwarders stream))
    (hstep : AudioRoute.step event route = some route') :
    ∀ stream, Fed (events ++ [event]) stream (route'.forwarders stream) := by
  intro stream
  cases event with
  | control phone event =>
      obtain ⟨control, hcontrol, rfl⟩ := Option.map_eq_some_iff.mp hstep
      have hframes : AudioRoute.newFrames stream (route.controls phone) control =
          sentOn stream [.control phone event] := by
        rw [newFrames_of_step hcontrol, sentOn, List.flatMap_singleton]
      dsimp only
      rw [hframes]
      exact (h stream).pushAll
  | worker other event =>
      have hnone : ∀ stream, sentOn stream [.worker other event] = [] := fun _ => rfl
      simp only [AudioRoute.step] at hstep
      split at hstep
      · cases hstep
      · rename_i hpacket
        obtain ⟨s, hs, rfl⟩ := Option.map_eq_some_iff.mp hstep
        by_cases hsame : stream = other
        · subst hsame
          dsimp only
          rw [Function.update_self]
          exact (h stream).worker hs (Option.not_isSome_iff_eq_none.mp hpacket) (hnone stream)
        · dsimp only
          rw [Function.update_of_ne hsame]
          exact (h stream).idle (hnone stream)

theorem fed_of_run (hrun : AudioRoute.run events {} = some route) (stream : AudioStream) :
    Fed events stream (route.forwarders stream) := by
  have hnew : ∀ stream, Fed [] stream (({} : AudioRoute).forwarders stream) := fun _ => ⟨[], rfl, rfl⟩
  have hlast := Machine.history_invariant
    (fun events (route : AudioRoute) => ∀ stream, Fed events stream (route.forwarders stream))
    (fun _ _ _ _ hfed hstep => fed_step hfed hstep) hnew hrun
  exact hlast stream

/-! ## The clients of an audio forwarder -/

def StagePlain : Stage → Prop
  | .greeting _ _ => False
  | .forwarding session | .sending session _ => session.config = none
  | .listening | .stopped => True

/-- No client gets a configuration. -/
structure Plain (s : MediaState) : Prop where
  stage : StagePlain s.stage
  past : ∀ session ∈ s.past, session.config = none

theorem Plain.past_append {s : MediaState} (h : Plain s) {session : Session} (hsession : session.config = none) :
    ∀ other ∈ s.past ++ [session], other.config = none :=
  List.forall_mem_append.mpr ⟨h.past, List.forall_mem_singleton.mpr hsession⟩

theorem Plain.step {event : MediaEvent} {s s' : MediaState} (h : Plain s) (hstep : Step .audio event s s') :
    Plain s' := by
  have hstage := h.stage
  cases hstep with
  | push => exact ⟨hstage, h.past⟩
  | greet f past hconfig => exact absurd rfl hconfig
  | enter => exact ⟨rfl, h.past⟩
  | take => exact ⟨hstage, h.past⟩
  | writeConfig => exact hstage.elim
  | writeFrame => exact ⟨hstage, h.past⟩
  | breakConfig => exact hstage.elim
  | breakFrame => exact ⟨trivial, h.past_append hstage⟩
  | stop => exact ⟨hstage, h.past⟩
  | leave => exact ⟨trivial, h.past⟩
  | close => exact ⟨trivial, h.past_append hstage⟩

theorem config_eq_none {history : List MediaEvent} {s : MediaState}
    (hrun : MediaState.run .audio history {} = some s) : ∀ session ∈ s.sessions, session.config = none := by
  have hfresh : Plain {} := ⟨trivial, by simp⟩
  have hplain : Plain s :=
    Machine.run_invariant Plain (fun _ _ _ hs hstep => hs.step (step_cases hstep)) hfresh hrun
  have hstage := hplain.stage
  intro session hsession
  rcases List.mem_append.mp hsession with hpast | hnow
  · exact hplain.past session hpast
  · have hserved : s.stage.session? = some session := by simpa using hnow
    cases hs : s.stage <;> rw [hs] at hserved hstage <;> cases hserved
    · exact hstage.elim
    · exact hstage
    · exact hstage

/-- What a reader returns are frames of the phone, in their order. -/
theorem received_sublist (hrun : AudioRoute.run events {} = some route) {session : Session}
    (hsession : session ∈ (route.forwarders stream).sessions) :
    (MediaKind.audio.received session.wire).Sublist (sentOn stream events) := by
  obtain ⟨history, hhistory, hpackets⟩ := fed_of_run hrun stream
  have hunits : session.frames = session.units.map Frame.bytes := by
    rw [Session.frames, config_eq_none hhistory session hsession]
    rfl
  have hpushes : (pushes history).Sublist (sentOn stream events) := hpackets ▸ List.filter_sublist
  calc
    (MediaKind.audio.received session.wire).Sublist session.frames :=
      (received_spec hhistory hsession).1.sublist
    _ = session.units.map Frame.bytes := hunits
    List.Sublist _ (pushes history) := units_sublist_pushes hhistory session hsession
    List.Sublist _ (sentOn stream events) := hpushes

/-! ## The whole way -/

theorem sendAudio_eq (aead : Aead) (key : Bytes) (stream : AudioStream) (turns : List (Bytes × Bool)) :
    sendAudio aead key stream turns = Sender.run aead key (frameSize stream) {} turns := by
  cases stream <;> rfl

theorem two_dvd_frameSize (stream : AudioStream) : 2 ∣ frameSize stream := by
  cases stream <;> decide

/-- However often phones and clients come and go, whatever the other streams and the queues do, wherever the
sender stops and whatever the network loses, repeats and reorders: what the head unit plays of a stream are
chunks that the phone has sent for this stream, whole frames, each as it was and none twice, in the order in
which their packets came; and when no packet comes twice or 64 numbers late, it plays all that came. -/
theorem audio_arrives {aead : Aead} (hround : aead.RoundTrips) (key : Bytes) {events : List RouteEvent}
    {route : AudioRoute} (hrun : AudioRoute.run events {} = some route) {stream : AudioStream}
    {session : Session} (hsession : session ∈ (route.forwarders stream).sessions)
    {turns : List (Bytes × Bool)} (hturns : turns.map Prod.fst <+: MediaKind.audio.received session.wire)
    (hcount : (sendAudio aead key stream turns).length ≤ 2 ^ 64)
    (arrivals : List (Fin (sendAudio aead key stream turns).length)) :
    ∃ chunks : List Bytes, chunks.Sublist (sentOn stream events) ∧
      (∀ chunk ∈ chunks, chunk ≠ [] ∧ chunk.length % frameSize stream = 0) ∧
      ∃ passed : List ℕ, passed.Nodup ∧ passed.Sublist (arrivals.map Fin.val) ∧
        (receiveAll aead key (arrivals.map (sendAudio aead key stream turns).get)).received.map some =
          passed.map (fun n => chunks[n]?) ∧
        ((arrivals.map Fin.val).Nodup → OnTime (arrivals.map Fin.val) → passed = arrivals.map Fin.val) := by
  have hpart : (turns.map Prod.fst).Sublist (sentOn stream events) :=
    hturns.sublist.trans (received_sublist hrun hsession)
  refine ⟨playable (frameSize stream) turns, List.filter_sublist.trans hpart, ?_, ?_⟩
  · intro chunk hmem
    exact of_decide_eq_true (List.mem_filter.mp hmem).2
  · revert arrivals
    rw [sendAudio_eq] at hcount ⊢
    intro arrivals
    obtain ⟨passed, hsublist, hpassed, hall⟩ :=
      receiveAll_stream hround (two_dvd_frameSize stream) hcount arrivals
    exact ⟨passed, hpassed.nodup, hsublist, hpassed.received, hall⟩

/-- Music from two phones, with a voice between and half a frame. -/
def twoPhones : List RouteEvent :=
  [.worker .media .accept, .control 0 (.deliver (.audio .media) (.media [1, 2, 3, 4])),
    .worker .media .take, .worker .media .written,
    .control 0 (.deliver (.audio .guidance) (.media [9, 9])),
    .control 0 (.deliver (.audio .media) (.media [5, 6])), .worker .media .take,
    .worker .media .written, .control 1 (.deliver (.audio .media) (.media [5, 6, 7, 8])),
    .worker .media .take, .worker .media .written]

theorem audio_arrives_twoPhones :
    ∃ route session first second, AudioRoute.run twoPhones {} = some route ∧
      session ∈ (route.forwarders .media).sessions ∧
      MediaKind.audio.received session.wire = [[1, 2, 3, 4], [5, 6], [5, 6, 7, 8]] ∧
      sendAudio (.ofAnswers twoChunks) (List.replicate 32 0x42) .media
        [([1, 2, 3, 4], true), ([5, 6], true), ([5, 6, 7, 8], true)] = [first, second] ∧
      (receiveAll (.ofAnswers twoChunks) (List.replicate 32 0x42) [second, first]).received.length = 2 := by
  have hsome : (AudioRoute.run twoPhones {}).isSome := by decide +kernel
  obtain ⟨route, hrun⟩ := Option.isSome_iff_exists.mp hsome
  have hreceived : (AudioRoute.run twoPhones {}).map (fun route => (route.forwarders .media).sessions.map
      fun session => MediaKind.audio.received session.wire) =
        some [[[1, 2, 3, 4], [5, 6], [5, 6, 7, 8]]] := by
    decide +kernel
  rw [hrun, Option.map_some, Option.some.injEq] at hreceived
  obtain ⟨session, later, hsessions, hread, -⟩ := List.map_eq_cons_iff.mp hreceived
  have hsession : session ∈ (route.forwarders .media).sessions := hsessions ▸ List.mem_cons_self
  obtain ⟨first, second, hsent⟩ : ∃ first second, sendAudio (.ofAnswers twoChunks)
      (List.replicate 32 0x42) .media [([1, 2, 3, 4], true), ([5, 6], true), ([5, 6, 7, 8], true)] =
        [first, second] := ⟨_, _, rfl⟩
  refine ⟨route, session, first, second, hrun, hsession, hread, hsent, ?_⟩
  have hround : (Aead.ofAnswers twoChunks).RoundTrips :=
    Aead.ofAnswers_roundTrips (by decide) (by decide)
  have htwo := congrArg List.length hsent
  obtain ⟨chunks, -, -, passed, -, -, hplayed, hall⟩ := audio_arrives hround (List.replicate 32 0x42) hrun
    hsession (hread ▸ List.prefix_rfl) (htwo.trans_le (by norm_num)) [⟨1, htwo ▸ by decide⟩, ⟨0, htwo ▸ by decide⟩]
  have harrived : ∀ (packets : List Bytes) (hone : 1 < packets.length) (hzero : 0 < packets.length),
      packets = [first, second] → [⟨1, hone⟩, ⟨0, hzero⟩].map packets.get = [second, first] := by
    rintro packets hone hzero rfl
    rfl
  rw [hall (by simp) (by simp [OnTime]), harrived _ _ _ hsent] at hplayed
  have hlength := congrArg List.length hplayed
  rwa [List.length_map, List.length_map] at hlength

end AudioPath
end Airplay
end Aa2acp
