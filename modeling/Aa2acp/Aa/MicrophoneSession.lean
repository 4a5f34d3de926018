import Aa2acp.Lib.Bytes
import Aa2acp.Lib.Machine

/-!
# The microphone of Android Auto

`MicrophoneSession` of `src/aa/wired_receiver.cpp`: the packets that the car's microphone
gives, on their way to the phone.  `send_audio` is called from any thread and puts a packet
into the ingress queue; `drain_audio` runs on the strand of the session, like the handlers
of the phone's requests, and sends the packets.  A function with critical sections is one
definition for each of them.  The replies to requests are left out; a media packet that is
sent is a result.

The session tells the phone that it sends one packet at a time.  It does as long as the
phone opens the microphone only when everything was acknowledged (`unacknowledged_le`).
-/

namespace Aa2acp
namespace Aa

/-- `max_unacked` in the reply to the setup request. -/
def kMaxUnacked : ℕ := 1

def kMaximumIngressPackets : ℕ := 2

structure MicrophoneSession where
  microphoneSessionId : ℤ := 0
  microphoneSendInFlight : Bool := false
  pendingAudio : Bytes := []
  ingressAudio : List Bytes := []
  ingressPosted : Bool := false
deriving DecidableEq, Repr

namespace MicrophoneSession

/-! ## Requests and acknowledgements -/

/-- `onMediaSourceOpenRequest` up to its critical section. -/
def beginRequest (isOpen : Bool) (s : MicrophoneSession) : MicrophoneSession :=
  { s with
    microphoneSessionId := if isOpen then 1 else 0
    microphoneSendInFlight := false
    pendingAudio := [] }

/-- The critical section of `onMediaSourceOpenRequest`. -/
def clearIngress (s : MicrophoneSession) : MicrophoneSession := { s with ingressAudio := [] }

/-- `send_audio_on_strand`, with what it sends. -/
def sendAudioOnStrand (audio : Bytes) (s : MicrophoneSession) : MicrophoneSession × List Bytes :=
  if s.microphoneSessionId = 0 ∨ audio = [] then (s, [])
  else if s.microphoneSendInFlight then ({ s with pendingAudio := audio }, [])
  else ({ s with microphoneSendInFlight := true }, [audio])

/-- `onMediaChannelAckIndication`. -/
def onMediaChannelAckIndication (s : MicrophoneSession) : MicrophoneSession × List Bytes :=
  let s := { s with microphoneSendInFlight := false }
  if s.pendingAudio ≠ [] then sendAudioOnStrand s.pendingAudio { s with pendingAudio := [] }
  else (s, [])

/-! ## The ingress queue -/

/-- The critical section of `send_audio`; the result is whether to post. -/
def pushIngress (audio : Bytes) (s : MicrophoneSession) : MicrophoneSession × Bool :=
  let kept :=
    if s.ingressAudio.length ≥ kMaximumIngressPackets then s.ingressAudio.drop 1
    else s.ingressAudio
  let s := { s with ingressAudio := kept ++ [audio] }
  if ¬ s.ingressPosted then ({ s with ingressPosted := true }, true) else (s, false)

/-- The first critical section of `drain_audio`; without a packet the drain is over. -/
def takeIngress (s : MicrophoneSession) : MicrophoneSession × Option Bytes :=
  match s.ingressAudio with
  | [] => ({ s with ingressPosted := false }, none)
  | audio :: rest => ({ s with ingressAudio := rest }, some audio)

/-- The second critical section of `drain_audio`; the result is whether to post. -/
def testIngress (s : MicrophoneSession) : MicrophoneSession × Bool :=
  if s.ingressAudio = [] then ({ s with ingressPosted := false }, false) else (s, true)

end MicrophoneSession

/-! ## Acknowledgements -/

inductive MicrophoneEvent where
  | request (isOpen : Bool)
  | acknowledge
  /-- `drain_audio` has a packet. -/
  | audio (audio : Bytes)
deriving DecidableEq, Repr

/-- The session, and how many media packets were sent and acknowledged. -/
structure MicrophoneChannel where
  session : MicrophoneSession := {}
  sent : ℕ := 0
  acknowledged : ℕ := 0
deriving DecidableEq, Repr

namespace MicrophoneChannel

/-- An acknowledgement answers a packet that was sent before. -/
def step : MicrophoneEvent → MicrophoneChannel → Option MicrophoneChannel
  | .request isOpen, c =>
      some { c with session := (c.session.beginRequest isOpen).clearIngress }
  | .acknowledge, c =>
      if c.acknowledged < c.sent then
        let (session, packets) := c.session.onMediaChannelAckIndication
        some { session := session
               sent := c.sent + packets.length
               acknowledged := c.acknowledged + 1 }
      else none
  | .audio audio, c =>
      let (session, packets) := c.session.sendAudioOnStrand audio
      some { c with session := session, sent := c.sent + packets.length }

/-- The microphone is opened only when no packet waits for its acknowledgement. -/
def OpensSettled (event : MicrophoneEvent) (c : MicrophoneChannel) : Prop :=
  event = .request true → c.acknowledged = c.sent

instance (event : MicrophoneEvent) (c : MicrophoneChannel) : Decidable (OpensSettled event c) :=
  inferInstanceAs (Decidable (_ → _))

/-- One packet at most is on its way, and none while the microphone is open and the flag is
clear. -/
structure Windowed (c : MicrophoneChannel) : Prop where
  order : c.acknowledged ≤ c.sent
  bound : c.sent ≤ c.acknowledged + kMaxUnacked
  flag : c.session.microphoneSessionId ≠ 0 → c.session.microphoneSendInFlight = false →
    c.acknowledged = c.sent

theorem windowed_start : Windowed {} := ⟨Nat.le_refl 0, Nat.zero_le _, fun _ _ => rfl⟩

variable {c c' : MicrophoneChannel} {session : MicrophoneSession} {sent acknowledged : ℕ}

/-- `send_audio_on_strand` sends only when the flag says that nothing is on its way. -/
theorem Windowed.sendAudioOnStrand (audio : Bytes)
    (h : Windowed ⟨session, sent, acknowledged⟩) :
    Windowed ⟨(session.sendAudioOnStrand audio).1,
      sent + (session.sendAudioOnStrand audio).2.length, acknowledged⟩ := by
  unfold MicrophoneSession.sendAudioOnStrand
  split
  · exact h
  · rename_i hopen
    rw [not_or] at hopen
    split
    · exact ⟨h.order, h.bound, h.flag⟩
    · rename_i hflag
      rw [Bool.not_eq_true] at hflag
      have hsettled : acknowledged = sent := h.flag hopen.1 hflag
      refine ⟨?_, ?_, fun _ hclear => Bool.noConfusion hclear⟩
      · show acknowledged ≤ sent + 1
        omega
      · show sent + 1 ≤ acknowledged + 1
        omega

theorem Windowed.step {event : MicrophoneEvent} (h : Windowed c) (hsettled : OpensSettled event c)
    (hstep : c.step event = some c') : Windowed c' := by
  cases event with
  | request isOpen =>
    cases hstep
    refine ⟨h.order, h.bound, fun hopen _ => ?_⟩
    cases isOpen with
    | false => exact absurd rfl hopen
    | true => exact hsettled rfl
  | acknowledge =>
    simp only [MicrophoneChannel.step] at hstep
    split at hstep
    · rename_i hlt
      cases hstep
      -- one packet was on its way, so none is now
      have hbound : c.sent ≤ c.acknowledged + 1 := h.bound
      have hdone : c.acknowledged + 1 = c.sent := by omega
      have hcleared : Windowed ⟨{ c.session with microphoneSendInFlight := false }, c.sent,
          c.acknowledged + 1⟩ :=
        ⟨hdone.le, hdone ▸ Nat.le_succ _, fun _ _ => hdone⟩
      unfold MicrophoneSession.onMediaChannelAckIndication
      dsimp only
      split
      · have hemptied : Windowed ⟨{ c.session with
            microphoneSendInFlight := false, pendingAudio := [] }, c.sent, c.acknowledged + 1⟩ :=
          ⟨hcleared.order, hcleared.bound, hcleared.flag⟩
        exact hemptied.sendAudioOnStrand c.session.pendingAudio
      · exact hcleared
    · cases hstep
  | audio audio =>
    cases hstep
    exact Windowed.sendAudioOnStrand audio h

/-- In every run in which the microphone is opened only when no packet waits for its
acknowledgement, one packet at most does in every state. -/
theorem unacknowledged_le {events : List MicrophoneEvent}
    (hsettled : Machine.Each step OpensSettled events {})
    (hrun : Machine.run step events {} = some c) :
    c.acknowledged ≤ c.sent ∧ c.sent - c.acknowledged ≤ kMaxUnacked := by
  have hwindowed := hsettled.run_invariant Windowed
    (fun _ _ _ h hcondition hstep => h.step hcondition hstep) windowed_start hrun
  have hbound := hwindowed.bound
  exact ⟨hwindowed.order, by omega⟩

/-- The microphone is opened, closed while a packet is on its way, and opened again after
the acknowledgement. -/
theorem unacknowledged_le_reopened :
    let events : List MicrophoneEvent :=
      [.request true, .audio [1], .audio [2], .request false, .acknowledge, .request true,
        .audio [3]]
    ∃ c, Machine.run step events {} = some c ∧ (c.sent, c.acknowledged) = (2, 1) ∧
      c.acknowledged ≤ c.sent ∧ c.sent - c.acknowledged ≤ kMaxUnacked := by
  intro events
  exact (Option.map_eq_some_iff.mp (by decide +kernel)).imp fun _ h =>
    ⟨h.1, h.2, unacknowledged_le (by decide +kernel) h.1⟩

/-- The microphone is opened again while a packet waits for its acknowledgement. -/
theorem unacknowledged_reopened_early :
    let events : List MicrophoneEvent := [.request true, .audio [1], .request true, .audio [2]]
    ∃ c, Machine.run step events {} = some c ∧ c.sent = 2 ∧ c.acknowledged = 0 ∧
      ¬ c.sent - c.acknowledged ≤ kMaxUnacked := by
  decide +kernel

end MicrophoneChannel

end Aa
end Aa2acp
