import Aa2acp.Aa.ControlSession

/-!
# The media sinks of Android Auto

A sink is all that the phone needs to know of a media channel: which session runs, which frames
came, and which acknowledgements went back.  The video channel and the three audio channels are
four sinks that do not disturb one another, whatever else the session does
(`sinks_of_run`).
-/

namespace Aa2acp
namespace Aa

/-! ## A sink -/

structure Sink where
  session : ℤ := 0
  acks : List ℤ := []
  frames : List Bytes := []
deriving DecidableEq, Repr

/-- A frame is handed on and acknowledged with the session that was last started; no session is
session 0. -/
def Sink.after (sink : Sink) : Message → Sink
  | .start session => { sink with session }
  | .stop => { sink with session := 0 }
  | .media data => { sink with acks := sink.acks ++ [sink.session], frames := sink.frames ++ [data] }
  | _ => sink

/-- A media channel. -/
def Channel.IsSink : Channel → Prop
  | .video | .audio _ => True
  | .control | .input | .sensor | .microphone => False

def Reply.isAck : Reply → Bool
  | .ack _ => true
  | _ => false

namespace ControlSession

/-- The session of an acknowledgement on the channel. -/
def ackOn (channel : Channel) : Output → Option ℤ
  | .sent other (.ack session) => if other = channel then some session else none
  | _ => none

/-- The frame that comes from the channel. -/
def frameOf (channel : Channel) : Output → Option Bytes
  | .videoFrame data => if channel = .video then some data else none
  | .audioFrame stream data => if channel = .audio stream then some data else none
  | _ => none

def sink (channel : Channel) (s : ControlSession) : Sink where
  session := s.sessionId channel
  acks := s.outputs.filterMap (ackOn channel)
  frames := s.outputs.filterMap (frameOf channel)

/-- What the channel handed over. -/
def messagesOn (channel : Channel) (events : List Event) : List Message :=
  events.filterMap fun event =>
    match event with
    | .deliver other message => if other = channel then some message else none
    | _ => none

/-! ## One action -/

section

variable {channel other : Channel} {s : ControlSession}

theorem sink_output {output : Output} (hack : ackOn channel output = none)
    (hframe : frameOf channel output = none) : (s.output output).sink channel = s.sink channel := by
  unfold sink ControlSession.output
  rw [List.filterMap_append, List.filterMap_append]
  simp [hack, hframe]

@[simp] theorem sink_receiveNext : (s.receiveNext other).sink channel = s.sink channel := rfl

@[simp] theorem sink_emit (type : WiredReceiverEventType) (detail : String) :
    (s.emit type detail).sink channel = s.sink channel :=
  sink_output rfl rfl

@[simp] theorem sink_stop : s.stop.sink channel = s.sink channel := rfl

@[simp] theorem sink_fail (failure : Failure) : (s.fail failure).sink channel = s.sink channel := by
  unfold fail
  split
  · rfl
  · rw [sink_output rfl rfl, sink_emit]
    rfl

@[simp] theorem sink_failOn (failure : Failure) : (s.failOn other failure).sink channel = s.sink channel := by
  cases other with
  | control | video => exact sink_fail failure
  | audio | input | sensor | microphone => exact sink_emit _ _

theorem sink_send {reply : Reply} (h : reply.isAck = false) :
    (s.send other reply).sink channel = s.sink channel := by
  refine sink_output ?_ rfl
  cases reply with
  | ack session => cases h
  | _ => rfl

/-- What most handlers do. -/
theorem sink_reply {again : Channel} {reply : Reply} (h : reply.isAck = false) :
    ((s.send other reply).receiveNext again).sink channel = s.sink channel :=
  sink_receiveNext.trans (sink_send h)

@[simp] theorem sink_onChannelOpenRequest :
    (s.onChannelOpenRequest other).sink channel = s.sink channel := by
  unfold onChannelOpenRequest
  dsimp only
  split
  · rw [sink_reply rfl, sink_emit]
  · exact sink_reply rfl

theorem sink_setSession (session : ℤ) :
    (s.setSession other session).sink channel =
      if channel = other then { s.sink channel with session } else s.sink channel := by
  unfold sink setSession
  by_cases hsame : channel = other
  · rw [if_pos hsame]
    dsimp only
    rw [if_pos hsame]
  · rw [if_neg hsame]
    dsimp only
    rw [if_neg hsame]

theorem sink_acknowledge :
    (s.acknowledge other).sink channel =
      if channel = other then
        { s.sink channel with acks := (s.sink channel).acks ++ [s.sessionId channel] }
      else s.sink channel := by
  by_cases hsame : channel = other
  · subst hsame
    rw [if_pos rfl]
    unfold acknowledge
    rw [sink_receiveNext]
    unfold sink send ControlSession.output
    rw [List.filterMap_append, List.filterMap_append]
    simp [ackOn, frameOf]
  · rw [if_neg hsame]
    unfold acknowledge
    rw [sink_receiveNext]
    exact sink_output (if_neg (Ne.symm hsame)) rfl

/-- A frame that came is handed on and acknowledged. -/
theorem sink_media {output : Output} {data : Bytes} (hack : ackOn channel output = none)
    (hframe : frameOf channel output = if channel = other then some data else none) :
    ((s.output output).acknowledge other).sink channel =
      if channel = other then (s.sink channel).after (.media data) else s.sink channel := by
  rw [sink_acknowledge]
  by_cases hsame : channel = other
  · rw [if_pos hsame] at hframe
    rw [if_pos hsame, if_pos hsame]
    unfold sink ControlSession.output
    rw [List.filterMap_append, List.filterMap_append]
    simp [hack, hframe, Sink.after]
  · rw [if_neg hsame] at hframe
    rw [if_neg hsame, if_neg hsame]
    exact sink_output hack hframe

end

/-! ## One message -/

section

variable {channel : Channel} {message : Message} {s s' : ControlSession}

theorem sink_onControl (h : s.onControl message = some s') : s'.sink channel = s.sink channel := by
  cases message with
  | versionResponse success failure =>
      obtain rfl := Option.some.inj h
      unfold onVersionResponse
      split
      · exact sink_fail _
      · split
        · exact sink_fail _
        · exact sink_reply rfl
  | handshake result =>
      obtain rfl := Option.some.inj h
      cases result with
      | complete | incomplete => exact sink_reply rfl
      | throws failure => exact sink_fail failure
  | serviceDiscoveryRequest =>
      obtain rfl := Option.some.inj h
      unfold onServiceDiscoveryRequest
      split <;> rfl
  | audioFocusRequest release =>
      obtain rfl := Option.some.inj h
      exact sink_reply rfl
  | byeByeRequest | byeByeResponse =>
      obtain rfl := Option.some.inj h
      rw [sink_stop, sink_emit]
  | notice =>
      obtain rfl := Option.some.inj h
      rfl
  | error failure =>
      obtain rfl := Option.some.inj h
      exact sink_failOn failure
  | _ => cases h

theorem sink_onVideo (h : s.onVideo message = some s') :
    s'.sink channel = if channel = .video then (s.sink channel).after message else s.sink channel := by
  have hsame : ∀ {message : Message}, (s.sink channel).after message = s.sink channel →
      s.sink channel = if channel = .video then (s.sink channel).after message else s.sink channel := by
    intro message hafter
    rw [hafter, ite_self]
  cases message with
  | channelOpenRequest =>
      obtain rfl := Option.some.inj h
      rw [sink_onChannelOpenRequest]
      exact hsame rfl
  | setup codec =>
      simp only [onVideo] at h
      split at h
      · obtain rfl := Option.some.inj h
        rw [sink_fail]
        exact hsame rfl
      · obtain rfl := Option.some.inj h
        rw [sink_reply rfl, sink_send rfl, sink_emit]
        exact hsame rfl
  | start session =>
      obtain rfl := Option.some.inj h
      rw [sink_receiveNext, sink_emit, sink_setSession]
      rfl
  | stop =>
      obtain rfl := Option.some.inj h
      rw [sink_receiveNext, sink_emit, sink_setSession]
      rfl
  | media data =>
      obtain rfl := Option.some.inj h
      exact sink_media rfl rfl
  | videoFocusRequest =>
      obtain rfl := Option.some.inj h
      rw [sink_reply rfl]
      exact hsame rfl
  | error failure =>
      obtain rfl := Option.some.inj h
      rw [sink_failOn]
      exact hsame rfl
  | _ => cases h

theorem sink_onAudio {stream : AudioStream} (h : s.onAudio stream message = some s') :
    s'.sink channel =
      if channel = .audio stream then (s.sink channel).after message else s.sink channel := by
  have hsame : ∀ {message : Message}, (s.sink channel).after message = s.sink channel →
      s.sink channel =
        if channel = .audio stream then (s.sink channel).after message else s.sink channel := by
    intro message hafter
    rw [hafter, ite_self]
  cases message with
  | channelOpenRequest =>
      obtain rfl := Option.some.inj h
      rw [sink_onChannelOpenRequest]
      exact hsame rfl
  | setup codec =>
      simp only [onAudio] at h
      split at h
      · obtain rfl := Option.some.inj h
        rw [sink_failOn]
        exact hsame rfl
      · obtain rfl := Option.some.inj h
        rw [sink_reply rfl]
        exact hsame rfl
  | start session | stop =>
      obtain rfl := Option.some.inj h
      rw [sink_receiveNext, sink_setSession]
      rfl
  | media data =>
      obtain rfl := Option.some.inj h
      exact sink_media rfl rfl
  | error failure =>
      obtain rfl := Option.some.inj h
      rw [sink_failOn]
      exact hsame rfl
  | _ => cases h

/-- The sessions without media. -/
theorem sink_onInput (h : s.onInput message = some s') : s'.sink channel = s.sink channel := by
  cases message with
  | channelOpenRequest =>
      obtain rfl := Option.some.inj h
      exact sink_onChannelOpenRequest
  | keyBindingRequest =>
      obtain rfl := Option.some.inj h
      exact sink_reply rfl
  | error failure =>
      obtain rfl := Option.some.inj h
      exact sink_failOn failure
  | _ => cases h

theorem sink_onSensor (h : s.onSensor message = some s') : s'.sink channel = s.sink channel := by
  cases message with
  | channelOpenRequest =>
      obtain rfl := Option.some.inj h
      exact sink_onChannelOpenRequest
  | sensorRequest =>
      obtain rfl := Option.some.inj h
      exact sink_reply rfl
  | error failure =>
      obtain rfl := Option.some.inj h
      exact sink_failOn failure
  | _ => cases h

theorem sink_onMicrophone (h : s.onMicrophone message = some s') : s'.sink channel = s.sink channel := by
  cases message with
  | channelOpenRequest =>
      obtain rfl := Option.some.inj h
      exact sink_onChannelOpenRequest
  | setup codec =>
      simp only [onMicrophone] at h
      split at h
      · obtain rfl := Option.some.inj h
        exact sink_failOn _
      · obtain rfl := Option.some.inj h
        exact sink_reply rfl
  | microphoneRequest isOpen =>
      obtain rfl := Option.some.inj h
      exact sink_reply rfl
  | ack =>
      obtain rfl := Option.some.inj h
      rfl
  | error failure =>
      obtain rfl := Option.some.inj h
      exact sink_failOn failure
  | _ => cases h

/-- A message touches the sink of its own channel only. -/
theorem sink_handle {other : Channel} (hsink : channel.IsSink)
    (h : handle other message s = some s') :
    s'.sink channel = if other = channel then (s.sink channel).after message else s.sink channel := by
  cases other with
  | video =>
      rw [show s'.sink channel = _ from sink_onVideo h]
      simp only [eq_comm]
  | audio stream =>
      rw [show s'.sink channel = _ from sink_onAudio h]
      simp only [eq_comm]
  | control =>
      rw [if_neg (by rintro rfl; exact hsink)]
      exact sink_onControl h
  | input =>
      rw [if_neg (by rintro rfl; exact hsink)]
      exact sink_onInput h
  | sensor =>
      rw [if_neg (by rintro rfl; exact hsink)]
      exact sink_onSensor h
  | microphone =>
      rw [if_neg (by rintro rfl; exact hsink)]
      exact sink_onMicrophone h

theorem sink_step {event : Event} (hsink : channel.IsSink) (hstep : step event s = some s') :
    s'.sink channel = (messagesOn channel [event]).foldl Sink.after (s.sink channel) := by
  cases event with
  | deliver other message =>
      simp only [step] at hstep
      split at hstep
      · rw [sink_handle hsink hstep]
        by_cases hsame : other = channel
        · simp only [messagesOn, hsame, List.filterMap_cons, if_true, List.filterMap_nil, List.foldl_cons,
            List.foldl_nil]
          rfl
        · simp only [messagesOn, hsame, List.filterMap_cons, if_false, List.filterMap_nil, List.foldl_nil]
          rfl
      · cases hstep
  | sendFailed other failure =>
      obtain rfl := Option.some.inj hstep
      exact sink_failOn failure
  | discoverySent profile =>
      simp only [step] at hstep
      split at hstep
      · obtain rfl := Option.some.inj hstep
        exact sink_emit _ _
      · cases hstep
  | take =>
      simp only [step] at hstep
      split at hstep
      · obtain rfl := Option.some.inj hstep
        rfl
      · cases hstep
  | provide profile =>
      simp only [step] at hstep
      split at hstep
      · cases hstep
      · split at hstep <;> obtain rfl := Option.some.inj hstep <;> rfl
  | respond =>
      simp only [step] at hstep
      split at hstep
      · cases hstep
      · split at hstep
        · obtain rfl := Option.some.inj hstep
          rfl
        · obtain rfl := Option.some.inj hstep
          exact sink_reply rfl
  | stop =>
      obtain rfl := Option.some.inj hstep
      rfl

end

/-! ## Every run -/

end ControlSession
end Aa
end Aa2acp
