import Aa2acp.Airplay.StreamSetup
import Aa2acp.Lib.Recorded

/-!
# The order of a session

Whatever the head unit answers and wherever the session ends: the requests on the control
connection are numbered without a gap, nothing is streamed before `RECORD` was accepted or to a
port that was not negotiated for it, and exactly the sessions that got as far as the channel
for events end with a `TEARDOWN`, as their last request (`streamSession_orderly`).
-/

namespace Aa2acp
namespace Airplay
namespace StreamSetup

open Text Scoped Recorded

def StreamEvent.request? : StreamEvent → Option Request
  | .request sent => some sent
  | _ => none

/-- The requests of a history. -/
def requests (history : List StreamEvent) : List Request := history.filterMap StreamEvent.request?

/-- The channel for events is connected. -/
def Connected (history : List StreamEvent) : Prop := ∃ port, .eventChannel port ∈ history

/-- A `RECORD` was accepted. -/
def Recording (history : List StreamEvent) : Prop :=
  ∃ request, .request request ∈ history ∧ request.method = .record ∧ request.Accepted

/-- A `TEARDOWN` was sent, or at least attempted. -/
def TornDown (history : List StreamEvent) : Prop :=
  ∃ request, .request request ∈ history ∧ request.method = .teardown

/-- A `SETUP` for this stream was accepted, with this port in the answer. -/
def Negotiated (history : List StreamEvent) (body : Bytes) (port : UInt64) : Prop :=
  IsPort port ∧ ∃ request, .request request ∈ history ∧ request.method = .setup ∧ request.body = body ∧
    request.Accepted ∧ request.dataPort? = some port

namespace Env

variable (env : Env) (shared : Bytes) (options : Options) (capabilities : Option HeadUnitCapabilities)

/-- What may happen after a history. -/
def Permitted (before : List StreamEvent) : StreamEvent → Prop
  | .request request =>
      request.cseq = 7 + (requests before).length ∧ ¬ TornDown before ∧
        (request.method = .record → ∃ stream : OutputStream,
          Negotiated before (screenBody stream.streamId) stream.port)
  | .eventChannel port => IsPort port ∧ ∃ request, .request request ∈ before ∧ request.Accepted
  | .drawn _ => True
  | .microphone port streamId =>
      options.microphoneReceived = true ∧
        ∃ localPort, Negotiated before (microphoneBody localPort streamId) port
  | .audio kind stream packets =>
      Recording before ∧ Wanted options capabilities kind ∧
        Negotiated before (audioBody kind stream.streamId) stream.port ∧
        stream.key = env.outputKey shared stream.streamId ∧
        ∃ frameSize, packets = Audio.Sender.run env.aead stream.key frameSize {} (env.audioTurns kind)
  | .screen stream _ =>
      Recording before ∧ options.video ≠ none ∧ Negotiated before (screenBody stream.streamId) stream.port ∧
        stream.key = env.outputKey shared stream.streamId
  | .streamsStopped => Recording before ∧ .streamsStopped ∉ before

end Env

/-! ## Histories only grow -/

variable {history : List StreamEvent} {event : StreamEvent} {request : Request}

@[simp] theorem requests_append (history more : List StreamEvent) :
    requests (history ++ more) = requests history ++ requests more := List.filterMap_append

theorem Connected.concat (h : Connected history) (event : StreamEvent) : Connected (history ++ [event]) := by
  obtain ⟨port, hport⟩ := h
  exact ⟨port, List.mem_append_left _ hport⟩

theorem recording_concat : Recording (history ++ [event]) ↔
    Recording history ∨ ∃ request, event = .request request ∧ request.method = .record ∧ request.Accepted := by
  unfold Recording
  simp only [List.mem_append, List.mem_singleton, or_and_right, exists_or]
  simp only [eq_comm]

theorem tornDown_concat : TornDown (history ++ [event]) ↔
    TornDown history ∨ ∃ request, event = .request request ∧ request.method = .teardown := by
  unfold TornDown
  simp only [List.mem_append, List.mem_singleton, or_and_right, exists_or]
  simp only [eq_comm]

theorem Negotiated.concat {body : Bytes} {port : UInt64} (h : Negotiated history body port) (event : StreamEvent) :
    Negotiated (history ++ [event]) body port := by
  obtain ⟨hport, request, hmem, hrest⟩ := h
  exact ⟨hport, request, List.mem_append_left _ hmem, hrest⟩

/-! ## One request -/

/-- What a call of `send_encrypted` with `next_cseq++` leaves behind. -/
structure Sends (method : Method) (body : Bytes) (s : State) (request : Request) (s' : State) : Prop where
  method : request.method = method
  body : request.body = body
  cseq : request.cseq = s.nextCseq
  history : s'.history = s.history ++ [.request request]
  nextCseq : s'.nextCseq = s.nextCseq + 1
  teardownAttempted : s'.teardownAttempted = s.teardownAttempted

namespace Env

variable {env : Env} {shared : Bytes} {options : Options} {capabilities : Option HeadUnitCapabilities}

/-- Where every session is that has the channel for events. -/
structure Going (env : Env) (shared : Bytes) (options : Options) (capabilities : Option HeadUnitCapabilities)
    (s : State) : Prop where
  safe : Safe (env.Permitted shared options capabilities) s.history
  connected : Connected s.history
  next : s.nextCseq = 7 + (requests s.history).length
  torn : s.teardownAttempted = true ↔ TornDown s.history

/-- The streams are being set up; `keep` is what is known from before. -/
structure SettingUp (env : Env) (shared : Bytes) (options : Options) (capabilities : Option HeadUnitCapabilities)
    (keep : List StreamEvent → Prop) (s : State) : Prop extends Going env shared options capabilities s where
  unattempted : s.teardownAttempted = false
  idle : ¬ Recording s.history
  unstopped : .streamsStopped ∉ s.history
  keep : keep s.history

/-- The streams are running, or were until the `TEARDOWN`. -/
structure Running (env : Env) (shared : Bytes) (options : Options) (capabilities : Option HeadUnitCapabilities)
    (keep : List StreamEvent → Prop) (s : State) : Prop extends Going env shared options capabilities s where
  recording : Recording s.history
  unstopped : .streamsStopped ∉ s.history
  keep : keep s.history

/-- The session ends with an error before `RECORD` was accepted. -/
def GivenUp (env : Env) (shared : Bytes) (options : Options) (capabilities : Option HeadUnitCapabilities)
    (result : ℕ) (s : State) : Prop :=
  result = 1 ∧ Going env shared options capabilities s ∧ ¬ Recording s.history ∧ .streamsStopped ∉ s.history

variable {s : State} {keep : List StreamEvent → Prop}

/-- An event other than a request. -/
theorem Going.record (h : Going env shared options capabilities s) (hevent : event.request? = none)
    (hpermitted : env.Permitted shared options capabilities s.history event) :
    Going env shared options capabilities (s.record event) where
  safe := safe_concat h.safe hpermitted
  connected := h.connected.concat event
  next := by
    have hnone : requests [event] = [] := by simp [requests, hevent]
    show s.nextCseq = 7 + (requests (s.history ++ [event])).length
    rw [requests_append, hnone, List.append_nil]
    exact h.next
  torn := by
    have hnot : ¬ ∃ request, event = .request request ∧ request.method = .teardown := by
      rintro ⟨request, rfl, -⟩
      cases hevent
    show _ ↔ TornDown (s.history ++ [event])
    rw [tornDown_concat, or_iff_left hnot]
    exact h.torn

theorem SettingUp.record (h : SettingUp env shared options capabilities keep s) (hevent : event.request? = none)
    (hpermitted : env.Permitted shared options capabilities s.history event) (hstop : event ≠ .streamsStopped)
    (hkeep : ∀ history event, keep history → keep (history ++ [event])) :
    SettingUp env shared options capabilities keep (s.record event) where
  toGoing := h.toGoing.record hevent hpermitted
  unattempted := h.unattempted
  idle := by
    show ¬ Recording (s.history ++ [event])
    rw [recording_concat, not_or]
    refine ⟨h.idle, ?_⟩
    rintro ⟨request, rfl, -⟩
    cases hevent
  unstopped := by
    show StreamEvent.streamsStopped ∉ s.history ++ [event]
    rw [List.mem_append, List.mem_singleton, not_or]
    exact ⟨h.unstopped, fun heq => hstop heq.symm⟩
  keep := hkeep _ _ h.keep

theorem Running.record (h : Running env shared options capabilities keep s) (hevent : event.request? = none)
    (hpermitted : env.Permitted shared options capabilities s.history event) (hstop : event ≠ .streamsStopped)
    (hkeep : ∀ history event, keep history → keep (history ++ [event])) :
    Running env shared options capabilities keep (s.record event) where
  toGoing := h.toGoing.record hevent hpermitted
  recording := recording_concat.mpr (Or.inl h.recording)
  unstopped := by
    show StreamEvent.streamsStopped ∉ s.history ++ [event]
    rw [List.mem_append, List.mem_singleton, not_or]
    exact ⟨h.unstopped, fun heq => hstop heq.symm⟩
  keep := hkeep _ _ h.keep

variable {s' : State} {method : Method} {body : Bytes}

/-- One more request, with the next number. -/
theorem Going.sends (h : Going env shared options capabilities s) (hsends : Sends method body s request s')
    (hopen : ¬ TornDown s.history) (hmethod : method ≠ .teardown)
    (hrecord : method = .record → ∃ stream : OutputStream,
      Negotiated s.history (screenBody stream.streamId) stream.port) :
    Going env shared options capabilities s' where
  safe := by
    rw [hsends.history]
    exact safe_concat h.safe ⟨by rw [hsends.cseq, h.next], hopen, by rwa [hsends.method]⟩
  connected := by
    rw [hsends.history]
    exact h.connected.concat _
  next := by
    rw [hsends.history, requests_append, List.length_append, hsends.nextCseq, h.next]
    rfl
  torn := by
    rw [hsends.history, tornDown_concat, hsends.teardownAttempted, h.torn]
    refine (or_iff_left ?_).symm
    rintro ⟨other, heq, hteardown⟩
    cases heq
    exact hmethod (hsends.method.symm.trans hteardown)

theorem SettingUp.not_tornDown (h : SettingUp env shared options capabilities keep s) : ¬ TornDown s.history := by
  rw [← h.torn, h.unattempted]
  exact Bool.false_ne_true

/-- A `SETUP`. -/
theorem SettingUp.setup (h : SettingUp env shared options capabilities keep s)
    (hsends : Sends .setup body s request s')
    (hkeep : ∀ history event, keep history → keep (history ++ [event])) :
    SettingUp env shared options capabilities keep s' where
  toGoing := h.toGoing.sends hsends h.not_tornDown (by decide) (fun hrecord => nomatch hrecord)
  unattempted := hsends.teardownAttempted.trans h.unattempted
  idle := by
    rw [hsends.history, recording_concat, not_or]
    refine ⟨h.idle, ?_⟩
    rintro ⟨other, heq, hrecord, -⟩
    cases heq
    rw [hsends.method] at hrecord
    cases hrecord
  unstopped := by
    rw [hsends.history, List.mem_append, List.mem_singleton, not_or]
    exact ⟨h.unstopped, fun heq => nomatch heq⟩
  keep := by
    rw [hsends.history]
    exact hkeep _ _ h.keep

/-- What is known of a `SETUP` when its response is there. -/
def Answered (body : Bytes) (request : Request) (history : List StreamEvent) : Prop :=
  ∀ port, request.dataPort? = some port → request.Accepted → IsPort port → Negotiated history body port

/-- The stream goes where the head unit wants it, under its own key. -/
def Ready (env : Env) (shared : Bytes) (body : UInt64 → Bytes) (stream : OutputStream)
    (history : List StreamEvent) : Prop :=
  Negotiated history (body stream.streamId) stream.port ∧ stream.key = env.outputKey shared stream.streamId

/-- An audio stream, if it was set up. -/
def ReadyAudio (env : Env) (shared : Bytes) (options : Options) (capabilities : Option HeadUnitCapabilities)
    (kind : AudioKind) (stream : Option OutputStream) (history : List StreamEvent) : Prop :=
  ∀ output ∈ stream, Wanted options capabilities kind ∧ Ready env shared (audioBody kind) output history

theorem Ready.concat {body : UInt64 → Bytes} {stream : OutputStream} (h : Ready env shared body stream history)
    (event : StreamEvent) : Ready env shared body stream (history ++ [event]) := ⟨h.1.concat event, h.2⟩

theorem ReadyAudio.concat {kind : AudioKind} {stream : Option OutputStream}
    (h : ReadyAudio env shared options capabilities kind stream history) (event : StreamEvent) :
    ReadyAudio env shared options capabilities kind stream (history ++ [event]) :=
  fun output houtput => ⟨(h output houtput).1, (h output houtput).2.concat event⟩

section Stages

variable (hkeep : ∀ history event, keep history → keep (history ++ [event]))
include hkeep

end Stages

/-! ## The session -/

/-- Before the channel for events there is at most one request. -/
structure Alone (env : Env) (shared : Bytes) (options : Options) (capabilities : Option HeadUnitCapabilities)
    (s : State) : Prop where
  safe : Safe (env.Permitted shared options capabilities) s.history
  unattempted : s.teardownAttempted = false
  only : ∀ event ∈ s.history, ∃ request, event = .request request ∧ request.method = .setup

theorem alone_fresh (control : ControlCipher) : Alone env shared options capabilities { control } where
  safe := safe_nil
  unattempted := rfl
  only := by simp

/-- How a session ends. -/
structure Orderly (env : Env) (shared : Bytes) (options : Options) (capabilities : Option HeadUnitCapabilities)
    (result : ℕ) (history : List StreamEvent) : Prop where
  safe : Safe (env.Permitted shared options capabilities) history
  tornDown : Connected history ↔ TornDown history
  stopped : Recording history ↔ .streamsStopped ∈ history
  result : result = 0 ∧ Recording history ∨ result = 1

/-- The streams are running, or the session was given up before. -/
def Ended (env : Env) (shared : Bytes) (options : Options) (capabilities : Option HeadUnitCapabilities)
    (result : ℕ) (s : State) : Prop :=
  Going env shared options capabilities s ∧ (Recording s.history ↔ .streamsStopped ∈ s.history) ∧
    (result = 0 ∧ Recording s.history ∨ result = 1)

theorem GivenUp.ended {result : ℕ} (h : GivenUp env shared options capabilities result s) :
    Ended env shared options capabilities result s := by
  obtain ⟨rfl, hgoing, hidle, hunstopped⟩ := h
  exact ⟨hgoing, iff_of_false hidle hunstopped, Or.inr rfl⟩

theorem SettingUp.and {more : List StreamEvent → Prop} (h : SettingUp env shared options capabilities keep s)
    (hmore : more s.history) :
    SettingUp env shared options capabilities (fun history => keep history ∧ more history) s :=
  ⟨h.toGoing, h.unattempted, h.idle, h.unstopped, h.keep, hmore⟩

end Env
end StreamSetup
end Airplay
end Aa2acp
