import Aa2acp.Lib.Bytes
import Aa2acp.Lib.Machine
import Mathlib.Data.List.Count

/-!
# The control session of Android Auto

`ControlSession`, `AudioSinkSession`, `InputSession`, `SensorSession` and `MicrophoneSession` of
`src/aa/wired_receiver.cpp`, as handlers of the phone's messages, and the worker that looks up
the capabilities of the head unit.  A channel hands over one message for each call of its
`receive`.  The handlers run on one strand; the worker is a thread of its own.  What the
microphone sends is in `MicrophoneSession`.

A channel waits for its next message until a message ends it, and each request for service
discovery is answered once, however slow the worker is (`receives_of_run`).
-/

namespace Aa2acp
namespace Aa

inductive AudioStream where
  | media
  | guidance
  | system
deriving DecidableEq, Repr

/-- `ChannelId`, as far as there is a session for it. -/
inductive Channel where
  | control
  | video
  | audio (stream : AudioStream)
  | input
  | sensor
  | microphone
deriving DecidableEq, Repr

structure HeadUnitCapabilities where
  widthPixels : UInt32 := 0
  heightPixels : UInt32 := 0
  maxFps : UInt32 := 0
  mediaAudio : Bool := false
  guidanceAudio : Bool := false
  systemAudio : Bool := false
deriving DecidableEq, Repr

inductive WiredReceiverEventType where
  | waitingForPhone
  | aoapTransportReady
  | controlSessionReady
  | videoStreamConfigured
  | videoStreamStarted
  | transportTeardown
  | disconnected
  | error
deriving DecidableEq, Repr

structure WiredReceiverEvent where
  type : WiredReceiverEventType
  detail : String
deriving DecidableEq, Repr

/-! ## Service discovery -/

inductive Resolution where
  | video800x480
  | video1280x720
  | video1920x1080
deriving DecidableEq, Repr

structure AudioConfig where
  samplingRate : ℕ
  numberOfBits : ℕ := 16
  numberOfChannels : ℕ
deriving DecidableEq, Repr

/-- A channel of the service discovery response. -/
inductive Service where
  | videoSink (resolution : Resolution) (frameRate density : ℕ)
  | audioSink (stream : AudioStream) (config : AudioConfig)
  | microphone (config : AudioConfig)
  | drivingStatus
  | keys (keycodes : List ℕ)
deriving DecidableEq, Repr

def Service.channel : Service → Channel
  | .videoSink _ _ _ => .video
  | .audioSink stream _ => .audio stream
  | .microphone _ => .microphone
  | .drivingStatus => .sensor
  | .keys _ => .input

/-- The resolution, and what the log says of it. -/
def resolutionFor (profile : Option HeadUnitCapabilities) : Resolution × String :=
  let caps := profile.getD {}
  if caps.widthPixels = 800 ∧ caps.heightPixels = 480 then (.video800x480, "800x480 cached profile")
  else if caps.widthPixels = 1920 ∧ caps.heightPixels = 1080 then
    (.video1920x1080, "1920x1080 cached profile")
  else (.video1280x720, "1280x720 fallback")

/-- The channels of `send_service_discovery_response`. -/
def serviceDiscoveryResponse (profile : Option HeadUnitCapabilities) : List Service :=
  [.videoSink (resolutionFor profile).1 30 180] ++
  (if profile.any (·.mediaAudio) then [.audioSink .media ⟨48000, 16, 2⟩] else []) ++
  (if profile.any (·.guidanceAudio) then [.audioSink .guidance ⟨16000, 16, 1⟩] else []) ++
  (if profile.any (·.systemAudio) then [.audioSink .system ⟨16000, 16, 1⟩] else []) ++
  [.microphone ⟨16000, 16, 1⟩, .drivingStatus, .keys [3, 4, 19, 20, 21, 22, 23, 66, 84]]

/-! ## Messages -/

/-- An error of the library; `unplugged` when it is a transfer error with native code 1. -/
structure Failure where
  detail : String
  unplugged : Bool := false
deriving DecidableEq, Repr

/-- What the cryptor makes of a payload of the handshake. -/
inductive Handshake where
  | complete
  | incomplete
  | throws (failure : Failure)
deriving DecidableEq, Repr

inductive Codec where
  | audioPcm
  | videoH264Bp
  | other
deriving DecidableEq, Repr

/-- What the phone sends.  A `notice` is a battery status, a navigation focus, a voice session, a
ping request or a ping response. -/
inductive Message where
  | versionResponse (success : Bool) (failure : Option Failure)
  | handshake (result : Handshake)
  | serviceDiscoveryRequest
  | audioFocusRequest (release : Bool)
  | byeByeRequest
  | byeByeResponse
  | notice
  | channelOpenRequest
  | setup (codec : Codec)
  | start (session : ℤ)
  | stop
  | media (data : Bytes)
  | videoFocusRequest
  | keyBindingRequest
  | sensorRequest
  | microphoneRequest (isOpen : Bool)
  | ack
  | error (failure : Failure)
deriving DecidableEq, Repr

inductive Reply where
  | versionRequest
  | handshake
  | authComplete
  | serviceDiscovery (response : List Service)
  | audioFocus (gain : Bool)
  | channelOpen
  /-- Ready, with one packet unacknowledged at most. -/
  | setup
  | videoFocus (unsolicited : Bool)
  | ack (session : ℤ)
  | keyBinding
  | sensorStart
  | microphoneOpen (session : ℤ)
deriving DecidableEq, Repr

inductive Output where
  | sent (channel : Channel) (reply : Reply)
  | videoFrame (data : Bytes)
  | audioFrame (stream : AudioStream) (data : Bytes)
  | event (event : WiredReceiverEvent)
  /-- `ended_callback_` -/
  | ended
deriving DecidableEq, Repr

structure ControlSession where
  /-- Calls of `receive` that have got no message yet. -/
  receives : List Channel
  sessionId : Channel → ℤ := fun _ => 0
  capabilityRequestPending : Bool := false
  /-- The worker is at `head_unit_capabilities_provider_`. -/
  computing : Bool := false
  /-- What the worker has posted on the strand. -/
  posted : List (Option HeadUnitCapabilities) := []
  capabilityStopping : Bool := false
  failed : Bool := false
  outputs : List Output := []

namespace ControlSession

def receiveNext (channel : Channel) (s : ControlSession) : ControlSession :=
  { s with receives := channel :: s.receives }

def output (output : Output) (s : ControlSession) : ControlSession :=
  { s with outputs := s.outputs ++ [output] }

def send (channel : Channel) (reply : Reply) (s : ControlSession) : ControlSession :=
  s.output (.sent channel reply)

def emit (type : WiredReceiverEventType) (detail : String) (s : ControlSession) : ControlSession :=
  s.output (.event ⟨type, detail⟩)

/-- `ControlSession::fail` -/
def fail (failure : Failure) (s : ControlSession) : ControlSession :=
  if s.failed then s
  else
    (emit (if failure.unplugged then .transportTeardown else .error)
      ("Android Auto control session: " ++ failure.detail) { s with failed := true }).output .ended

/-- `fail` of the session of the channel. -/
def failOn (channel : Channel) (failure : Failure) (s : ControlSession) : ControlSession :=
  match channel with
  | .control | .video => s.fail failure
  | .audio _ => s.emit .error ("Android Auto audio channel: " ++ failure.detail)
  | .input => s.emit .error ("Android Auto input channel: " ++ failure.detail)
  | .sensor => s.emit .error ("Android Auto sensor channel: " ++ failure.detail)
  | .microphone => s.emit .error ("Android Auto microphone channel: " ++ failure.detail)

/-- `ControlSession::stop`, as far as it touches the session. -/
def stop (s : ControlSession) : ControlSession := { s with capabilityStopping := true }

/-! ## The handlers of the control channel -/

def onVersionResponse (success : Bool) (failure : Option Failure) (s : ControlSession) : ControlSession :=
  if success = false then s.fail ⟨"Android Auto version negotiation was rejected", false⟩
  else
    match failure with
    | some failure => s.fail failure
    | none => (s.send .control .handshake).receiveNext .control

def onHandshake (result : Handshake) (s : ControlSession) : ControlSession :=
  match result with
  | .complete => (s.send .control .authComplete).receiveNext .control
  | .incomplete => (s.send .control .handshake).receiveNext .control
  | .throws failure => s.fail failure

def onServiceDiscoveryRequest (s : ControlSession) : ControlSession :=
  if s.capabilityStopping ∨ s.capabilityRequestPending then s
  else { s with capabilityRequestPending := true }

def sendServiceDiscoveryResponse (profile : Option HeadUnitCapabilities) (s : ControlSession) :
    ControlSession :=
  (s.send .control (.serviceDiscovery (serviceDiscoveryResponse profile))).receiveNext .control

def onControl (message : Message) (s : ControlSession) : Option ControlSession :=
  match message with
  | .versionResponse success failure => some (s.onVersionResponse success failure)
  | .handshake result => some (s.onHandshake result)
  | .serviceDiscoveryRequest => some s.onServiceDiscoveryRequest
  | .audioFocusRequest release => some ((s.send .control (.audioFocus (!release))).receiveNext .control)
  | .byeByeRequest =>
      some (s.emit .disconnected "phone ended the Android Auto control session").stop
  | .byeByeResponse =>
      some (s.emit .disconnected "phone acknowledged Android Auto control-session shutdown").stop
  | .notice => some (s.receiveNext .control)
  | .error failure => some (s.failOn .control failure)
  | _ => none

/-! ## The handlers of the other channels -/

/-- `onChannelOpenRequest`, which only the video session announces. -/
def onChannelOpenRequest (channel : Channel) (s : ControlSession) : ControlSession :=
  let s := if channel = .video then
      s.emit .controlSessionReady "phone opened Android Auto video channel"
    else s
  (s.send channel .channelOpen).receiveNext channel

def acknowledge (channel : Channel) (s : ControlSession) : ControlSession :=
  (s.send channel (.ack (s.sessionId channel))).receiveNext channel

def setSession (channel : Channel) (session : ℤ) (s : ControlSession) : ControlSession :=
  { s with sessionId := fun other => if other = channel then session else s.sessionId other }

def onVideo (message : Message) (s : ControlSession) : Option ControlSession :=
  match message with
  | .channelOpenRequest => some (s.onChannelOpenRequest .video)
  | .setup codec =>
      if codec ≠ .videoH264Bp then
        some (s.fail ⟨"phone requested an unsupported Android Auto video codec", false⟩)
      else
        let s := s.emit .videoStreamConfigured "phone selected H.264 video configuration"
        some (((s.send .video .setup).send .video (.videoFocus true)).receiveNext .video)
  | .start session =>
      some (((s.setSession .video session).emit .videoStreamStarted
        "Android Auto video stream started").receiveNext .video)
  | .stop =>
      some (((s.setSession .video 0).emit .controlSessionReady
        "Android Auto video stream stopped").receiveNext .video)
  | .media data => some ((s.output (.videoFrame data)).acknowledge .video)
  | .videoFocusRequest => some ((s.send .video (.videoFocus false)).receiveNext .video)
  | .error failure => some (s.failOn .video failure)
  | _ => none

def onAudio (stream : AudioStream) (message : Message) (s : ControlSession) : Option ControlSession :=
  match message with
  | .channelOpenRequest => some (s.onChannelOpenRequest (.audio stream))
  | .setup codec =>
      if codec ≠ .audioPcm then
        some (s.failOn (.audio stream)
          ⟨"phone requested an unsupported Android Auto audio codec", false⟩)
      else some ((s.send (.audio stream) .setup).receiveNext (.audio stream))
  | .start session => some ((s.setSession (.audio stream) session).receiveNext (.audio stream))
  | .stop => some ((s.setSession (.audio stream) 0).receiveNext (.audio stream))
  | .media data => some ((s.output (.audioFrame stream data)).acknowledge (.audio stream))
  | .error failure => some (s.failOn (.audio stream) failure)
  | _ => none

def onInput (message : Message) (s : ControlSession) : Option ControlSession :=
  match message with
  | .channelOpenRequest => some (s.onChannelOpenRequest .input)
  | .keyBindingRequest => some ((s.send .input .keyBinding).receiveNext .input)
  | .error failure => some (s.failOn .input failure)
  | _ => none

def onSensor (message : Message) (s : ControlSession) : Option ControlSession :=
  match message with
  | .channelOpenRequest => some (s.onChannelOpenRequest .sensor)
  | .sensorRequest => some ((s.send .sensor .sensorStart).receiveNext .sensor)
  | .error failure => some (s.failOn .sensor failure)
  | _ => none

def onMicrophone (message : Message) (s : ControlSession) : Option ControlSession :=
  match message with
  | .channelOpenRequest => some (s.onChannelOpenRequest .microphone)
  | .setup codec =>
      if codec ≠ .audioPcm then
        some (s.failOn .microphone
          ⟨"phone requested an unsupported Android Auto microphone codec", false⟩)
      else some ((s.send .microphone .setup).receiveNext .microphone)
  | .microphoneRequest isOpen =>
      some ((s.send .microphone (.microphoneOpen (if isOpen then 1 else 0))).receiveNext .microphone)
  | .ack => some (s.receiveNext .microphone)
  | .error failure => some (s.failOn .microphone failure)
  | _ => none

/-- The handler of a message; `none` when the channel has no such message. -/
def handle (channel : Channel) (message : Message) (s : ControlSession) : Option ControlSession :=
  match channel with
  | .control => s.onControl message
  | .video => s.onVideo message
  | .audio stream => s.onAudio stream message
  | .input => s.onInput message
  | .sensor => s.onSensor message
  | .microphone => s.onMicrophone message

/-- `start`, when nothing throws. -/
def started : ControlSession where
  receives := [.control, .video, .audio .media, .audio .guidance, .audio .system, .input, .sensor,
    .microphone]
  outputs := [.sent .control .versionRequest]

inductive Event where
  /-- A channel hands over a message. -/
  | deliver (channel : Channel) (message : Message)
  /-- The promise of a reply is rejected. -/
  | sendFailed (channel : Channel) (failure : Failure)
  /-- The promise of a service discovery response with this profile is kept. -/
  | discoverySent (profile : Option HeadUnitCapabilities)
  /-- The worker takes the request. -/
  | take
  /-- The provider returns, and the worker posts what it returned. -/
  | provide (profile : Option HeadUnitCapabilities)
  /-- The strand runs what was posted. -/
  | respond
  /-- `stop` by the receiver. -/
  | stop
deriving DecidableEq, Repr

def step : Event → ControlSession → Option ControlSession
  | .deliver channel message, s =>
      if channel ∈ s.receives then handle channel message { s with receives := s.receives.erase channel }
      else none
  | .sendFailed channel failure, s => some (s.failOn channel failure)
  | .discoverySent profile, s =>
      if .sent .control (.serviceDiscovery (serviceDiscoveryResponse profile)) ∈ s.outputs then
        some (s.emit .controlSessionReady ("sent Android Auto service discovery (" ++
          toString (serviceDiscoveryResponse profile).length ++ " channels; " ++
          (resolutionFor profile).2 ++ ")"))
      else none
  | .take, s =>
      if s.capabilityRequestPending ∧ s.computing = false ∧ s.capabilityStopping = false then
        some { s with capabilityRequestPending := false, computing := true }
      else none
  | .provide profile, s =>
      if s.computing = false then none
      else if s.capabilityStopping then some { s with computing := false }
      else some { s with computing := false, posted := s.posted ++ [profile] }
  | .respond, s =>
      match s.posted with
      | [] => none
      | profile :: posted =>
          if s.capabilityStopping then some { s with posted }
          else some (sendServiceDiscoveryResponse profile { s with posted })
  | .stop, s => some s.stop

def run : List Event → ControlSession → Option ControlSession := Machine.run step

/-! ## What an action touches -/

/-- The state of the worker. -/
def worker (s : ControlSession) : Bool × Bool × List (Option HeadUnitCapabilities) :=
  (s.capabilityRequestPending, s.computing, s.posted)

/-- The responses to service discovery requests. -/
def isDiscovery : Output → Bool
  | .sent _ (.serviceDiscovery _) => true
  | _ => false

def responses (s : ControlSession) : ℕ := s.outputs.countP isDiscovery

/-- Only replies and events that say nothing of service discovery are added. -/
structure Aside (s s' : ControlSession) : Prop where
  worker : s'.worker = s.worker
  stopping : s'.capabilityStopping = s.capabilityStopping
  responses : s'.responses = s.responses

section

variable {s s' s'' : ControlSession}

theorem Aside.refl (s : ControlSession) : Aside s s := ⟨rfl, rfl, rfl⟩

theorem Aside.trans (h : Aside s s') (h' : Aside s' s'') : Aside s s'' :=
  ⟨h'.worker.trans h.worker, h'.stopping.trans h.stopping, h'.responses.trans h.responses⟩

theorem aside_receiveNext (channel : Channel) : Aside s (s.receiveNext channel) := ⟨rfl, rfl, rfl⟩

@[simp] theorem receives_output (output : Output) : (s.output output).receives = s.receives := rfl

end

/-! ## One message -/

/-- After such a message a session does not call `receive`. -/
def ends (channel : Channel) : Message → Bool
  | .versionResponse success failure => !success || failure.isSome
  | .handshake (.throws _) | .byeByeRequest | .byeByeResponse | .error _ => true
  | .setup codec => codec ≠ if channel = .video then .videoH264Bp else .audioPcm
  | _ => false

/-- What a handler does but for a request for service discovery. -/
structure Handled (channel : Channel) (message : Message) (s s' : ControlSession) : Prop where
  receives : s'.receives = if ends channel message then s.receives else channel :: s.receives
  worker : s'.worker = s.worker
  stopping : s'.capabilityStopping = s.capabilityStopping ∨
    ends channel message = true ∧ channel = .control ∧ s'.capabilityStopping = true
  responses : s'.responses = s.responses

section

variable {channel : Channel} {message : Message} {s s' : ControlSession}

theorem Handled.again (hends : ends channel message = false) (h : Aside s s')
    (hreceives : s'.receives = s.receives) : Handled channel message s (s'.receiveNext channel) where
  receives := by
    rw [hends]
    exact congrArg (channel :: ·) hreceives
  worker := h.worker
  stopping := Or.inl h.stopping
  responses := h.responses

theorem Handled.last (hends : ends channel message = true) (h : Aside s s')
    (hreceives : s'.receives = s.receives) : Handled channel message s s' where
  receives := by rwa [if_pos hends]
  worker := h.worker
  stopping := Or.inl h.stopping
  responses := h.responses

end

/-! ## Every run -/

/-- A message that ends the channel is handed over. -/
def Event.endsOn (channel : Channel) : Event → Bool
  | .deliver other message => other = channel && ends other message
  | _ => false

def Event.isRequest : Event → Bool
  | .deliver .control .serviceDiscoveryRequest => true
  | _ => false

/-- Requests for service discovery that the worker or the strand is at. -/
def discoveries (s : ControlSession) : ℕ :=
  s.capabilityRequestPending.toNat + s.computing.toNat + s.posted.length

/-- Whose turn it is on each channel after these events. -/
structure Disciplined (events : List Event) (s : ControlSession) : Prop where
  waits : ∀ channel, channel ≠ .control →
    s.receives.count channel + events.countP (·.endsOn channel) = 1
  control_le : s.receives.count .control + events.countP (·.endsOn .control) + s.discoveries ≤ 1
  control : s.capabilityStopping = false →
    s.receives.count .control + events.countP (·.endsOn .control) + s.discoveries = 1
  answered_le : s.responses + s.discoveries ≤ events.countP (·.isRequest)
  answered : s.capabilityStopping = false →
    s.responses + s.discoveries = events.countP (·.isRequest)

section

variable {events : List Event} {s s' : ControlSession}

theorem discoveries_eq (h : s'.worker = s.worker) : s'.discoveries = s.discoveries := by
  obtain ⟨hpending, hrest⟩ := Prod.mk.inj h
  obtain ⟨hcomputing, hposted⟩ := Prod.mk.inj hrest
  unfold discoveries
  rw [hpending, hcomputing, hposted]

/-- A message that is handed over, but for a request for service discovery. -/
theorem Disciplined.handled (h : Disciplined events s) {channel : Channel} {message : Message}
    (hmem : channel ∈ s.receives) (hrequest : Event.isRequest (.deliver channel message) = false)
    (hhandled : Handled channel message { s with receives := s.receives.erase channel } s') :
    Disciplined (events ++ [.deliver channel message]) s' := by
  obtain ⟨hreceives, hworker, hstopping, hresponses⟩ := hhandled
  have hdiscoveries : s'.discoveries = s.discoveries := discoveries_eq hworker
  have hresponses : s'.responses = s.responses := hresponses
  have hpositive : 0 < s.receives.count channel := List.count_pos_iff.mpr hmem
  have hcount : ∀ other, s'.receives.count other +
      (if (Event.deliver channel message).endsOn other = true then 1 else 0) =
        s.receives.count other := by
    intro other
    have hself : (s.receives.erase channel).count channel = s.receives.count channel - 1 :=
      List.count_erase_self
    rw [hreceives]
    by_cases hother : channel = other
    · subst hother
      cases hends : ends channel message with
      | true =>
          simp only [Event.endsOn, hends, decide_true, Bool.and_self, if_true, hself]
          omega
      | false =>
          simp only [Event.endsOn, hends, Bool.and_false, Bool.false_eq_true, if_false,
            List.count_cons_self, hself]
          omega
    · have hne : (s.receives.erase channel).count other = s.receives.count other :=
        List.count_erase_of_ne (Ne.symm hother)
      have hskip : (channel :: s.receives.erase channel).count other = s.receives.count other := by
        rw [List.count_cons_of_ne (by simpa using hother), hne]
      simp only [Event.endsOn, hother, decide_false, Bool.false_and, Bool.false_eq_true, if_false,
        Nat.add_zero]
      split
      · exact hne
      · exact hskip
  have hcontrol := hcount .control
  have hstill : s'.capabilityStopping = false → s.capabilityStopping = false := by
    intro hnot
    rcases hstopping with hsame | ⟨-, -, htrue⟩
    · exact hsame ▸ hnot
    · rw [htrue] at hnot
      cases hnot
  have hcontrol_le := h.control_le
  have hanswered_le := h.answered_le
  refine ⟨fun other hother => ?_, ?_, fun hnot => ?_, ?_, fun hnot => ?_⟩ <;>
    rw [List.countP_append, List.countP_singleton]
  · have hwaits := h.waits other hother
    have hnow := hcount other
    omega
  · omega
  · have hbefore := h.control (hstill hnot)
    omega
  · rw [hrequest]
    simpa [hresponses, hdiscoveries] using hanswered_le
  · rw [hrequest]
    simpa [hresponses, hdiscoveries] using h.answered (hstill hnot)

/-- A request for service discovery finds the worker idle. -/
theorem Disciplined.request (h : Disciplined events s) (hmem : .control ∈ s.receives) :
    Disciplined (events ++ [.deliver .control .serviceDiscoveryRequest])
      (onServiceDiscoveryRequest { s with receives := s.receives.erase .control }) := by
  have hpositive : 0 < s.receives.count .control := List.count_pos_iff.mpr hmem
  have hcontrol_le := h.control_le
  have hanswered_le := h.answered_le
  have hidle : s.discoveries = 0 := by omega
  have hpending : s.capabilityRequestPending = false := by
    cases hcase : s.capabilityRequestPending with
    | false => rfl
    | true =>
        simp only [discoveries, hcase, Bool.toNat_true] at hidle
        omega
  have hself : (s.receives.erase .control).count .control = s.receives.count .control - 1 :=
    List.count_erase_self
  have hother : ∀ channel, channel ≠ .control →
      (s.receives.erase .control).count channel = s.receives.count channel :=
    fun channel hchannel => List.count_erase_of_ne hchannel
  have hwaits : ∀ channel, channel ≠ .control → (s.receives.erase .control).count channel +
      (events ++ [Event.deliver .control .serviceDiscoveryRequest]).countP (·.endsOn channel) = 1 := by
    intro channel hchannel
    have hbefore := h.waits channel hchannel
    rw [List.countP_append, List.countP_singleton, hother channel hchannel]
    simpa [Event.endsOn, ends] using hbefore
  have hends : (events ++ [Event.deliver .control .serviceDiscoveryRequest]).countP
      (·.endsOn .control) = events.countP (·.endsOn .control) := by
    rw [List.countP_append, List.countP_singleton]
    rfl
  have hrequests : (events ++ [Event.deliver .control .serviceDiscoveryRequest]).countP
      (·.isRequest) = events.countP (·.isRequest) + 1 := by
    rw [List.countP_append, List.countP_singleton]
    rfl
  unfold onServiceDiscoveryRequest
  by_cases hstopping : s.capabilityStopping = true
  · rw [if_pos (Or.inl hstopping)]
    refine ⟨hwaits, ?_, fun hnot => ?_, ?_, fun hnot => ?_⟩
    · show (s.receives.erase .control).count .control + _ + s.discoveries ≤ 1
      omega
    · exact absurd (hstopping.symm.trans hnot) (by decide)
    · show s.responses + s.discoveries ≤ _
      omega
    · exact absurd (hstopping.symm.trans hnot) (by decide)
  · have hcontrol := h.control (Bool.eq_false_iff.mpr hstopping)
    have hanswered := h.answered (Bool.eq_false_iff.mpr hstopping)
    have hone : discoveries { s with
        receives := s.receives.erase .control, capabilityRequestPending := true } = 1 := by
      simp only [discoveries, hpending, Bool.toNat_false] at hidle
      simp only [discoveries, Bool.toNat_true]
      omega
    rw [if_neg (by simp [hstopping, hpending])]
    refine ⟨hwaits, ?_, fun _ => ?_, ?_, fun _ => ?_⟩ <;> rw [hone]
    · show (s.receives.erase .control).count .control + _ + 1 ≤ 1
      omega
    · show (s.receives.erase .control).count .control + _ + 1 = 1
      omega
    · show s.responses + 1 ≤ _
      omega
    · show s.responses + 1 = _
      omega

/-- An event of the worker or of `stop`. -/
theorem Disciplined.worker (h : Disciplined events s) {event : Event}
    (hends : ∀ channel, event.endsOn channel = false) (hrequest : event.isRequest = false)
    (hothers : ∀ channel, channel ≠ .control → s'.receives.count channel = s.receives.count channel)
    (hstopping : s'.capabilityStopping = false → s.capabilityStopping = false)
    (hcontrol_le : s'.receives.count .control + s'.discoveries ≤ s.receives.count .control + s.discoveries)
    (hcontrol : s'.capabilityStopping = false →
      s'.receives.count .control + s'.discoveries = s.receives.count .control + s.discoveries)
    (hanswered_le : s'.responses + s'.discoveries ≤ s.responses + s.discoveries)
    (hanswered : s'.capabilityStopping = false →
      s'.responses + s'.discoveries = s.responses + s.discoveries) :
    Disciplined (events ++ [event]) s' := by
  obtain ⟨hwaits, hle, heq, hale, haeq⟩ := h
  constructor <;>
    simp only [List.countP_append, List.countP_singleton, hends, hrequest, Bool.false_eq_true, if_false,
      Nat.add_zero]
  · intro channel hchannel
    rw [hothers channel hchannel]
    exact hwaits channel hchannel
  · omega
  · intro hnot
    have hbefore := heq (hstopping hnot)
    have hnow := hcontrol hnot
    omega
  · omega
  · intro hnot
    have hbefore := haeq (hstopping hnot)
    have hnow := hanswered hnot
    omega

end

end ControlSession
end Aa
end Aa2acp
