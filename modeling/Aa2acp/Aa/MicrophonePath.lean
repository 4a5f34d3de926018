import Aa2acp.Aa.InputPath
import Aa2acp.Aa.MicrophoneIngress
import Aa2acp.Airplay.AudioStream

/-!
# From the microphone of the head unit to the phone

The packets that pass the replay window of `run_session` go through a `FrameSocketWriter` to the
daemon, through the queue of the receiver to the control session of the phone, through the
ingress queue of its microphone session, and, while a packet waits for its acknowledgement,
through `pending_audio_`.  All of these drop packets when they are full.  What the phone gets are
packets of the head unit in the order in which they came, each as it was and at most once
(`microphone_arrives`).
-/

namespace Aa2acp
namespace Aa

open Fifo

namespace MicrophoneIngress

/-! ## What is sent to the phone -/

/-- The packets that a step sends. -/
def packets : IngressEvent → MicrophoneIngress → List Bytes
  | .advance index, w =>
      match w.drains[index]? with
      | some (.took audio) => (w.session.sendAudioOnStrand audio).2
      | _ => []
  | .acknowledge, w => w.session.onMediaChannelAckIndication.2
  | _, _ => []

def sentBy (events : List IngressEvent) : List Bytes := Machine.trace step packets events {}

/-- The packet that waits for an acknowledgement. -/
def pending (s : MicrophoneSession) : List Bytes := if s.pendingAudio = [] then [] else [s.pendingAudio]

theorem pending_of_eq_nil {s : MicrophoneSession} (h : s.pendingAudio = []) : pending s = [] := if_pos h

/-- What was sent and the packet that waits are some of those that the drains took, in order. -/
structure InTurn (sent : List Bytes) (s : MicrophoneSession) (passed : List Bytes) : Prop where
  waits : s.microphoneSendInFlight = false → s.pendingAudio = []
  order : (sent ++ pending s).Sublist passed

variable {sent passed : List Bytes} {s : MicrophoneSession} {w w' : MicrophoneIngress}

theorem InTurn.sublist (h : InTurn sent s passed) : sent.Sublist passed :=
  (List.sublist_append_left _ _).trans h.order

/-- A packet is sent, or waits in the place of the one before, or is left out. -/
theorem InTurn.sendAudioOnStrand (h : InTurn sent s passed) {audio : Bytes}
    (haudio : (sent ++ [audio]).Sublist passed) :
    InTurn (sent ++ (s.sendAudioOnStrand audio).2) (s.sendAudioOnStrand audio).1 passed := by
  unfold MicrophoneSession.sendAudioOnStrand
  split
  · refine ⟨h.waits, ?_⟩
    rw [List.append_nil]
    exact h.order
  · rename_i hopen
    rw [not_or] at hopen
    split
    · rename_i hflight
      refine ⟨fun hclear => absurd (hflight.symm.trans hclear) (by decide), ?_⟩
      have hpending : pending { s with pendingAudio := audio } = [audio] := if_neg hopen.2
      rw [hpending, List.append_nil]
      exact haudio
    · rename_i hclear
      have hnone : s.pendingAudio = [] := h.waits (Bool.not_eq_true _ ▸ hclear)
      have hpending : pending { s with microphoneSendInFlight := true } = [] := pending_of_eq_nil hnone
      refine ⟨fun _ => hnone, ?_⟩
      rw [hpending, List.append_nil]
      exact haudio

/-- The packet that waits is sent, and nothing waits any more. -/
theorem InTurn.acknowledge (h : InTurn sent s passed) :
    InTurn (sent ++ s.onMediaChannelAckIndication.2) s.onMediaChannelAckIndication.1 passed := by
  have horder := h.order
  unfold MicrophoneSession.onMediaChannelAckIndication
  dsimp only
  split
  · rename_i hpending
    have hone : pending s = [s.pendingAudio] := if_neg hpending
    rw [hone] at horder
    have hemptied : InTurn sent { s with microphoneSendInFlight := false, pendingAudio := [] } passed := by
      refine ⟨fun _ => rfl, ?_⟩
      rw [pending_of_eq_nil rfl, List.append_nil]
      exact h.sublist
    exact hemptied.sendAudioOnStrand horder
  · rename_i hpending
    have hnone : s.pendingAudio = [] := not_not.mp hpending
    have hpending : pending { s with microphoneSendInFlight := false } = [] := pending_of_eq_nil hnone
    refine ⟨fun _ => hnone, ?_⟩
    show (sent ++ [] ++ pending { s with microphoneSendInFlight := false }).Sublist passed
    rw [hpending, List.append_nil, List.append_nil]
    exact h.sublist

/-- A drain without a packet in its hand sends nothing. -/
theorem advance_keeps {index : ℕ} {drain : Drain} (hdrain : drain.inHand = none) :
    (w.advance index drain).session.microphoneSendInFlight = w.session.microphoneSendInFlight ∧
      (w.advance index drain).session.pendingAudio = w.session.pendingAudio ∧
      (w.advance index drain).passed = w.passed := by
  cases drain with
  | begun =>
      cases haudio : w.session.ingressAudio <;> simp [advance, MicrophoneSession.takeIngress, haudio]
  | took audio => cases hdrain
  | sent =>
      cases haudio : w.session.ingressAudio <;> simp [advance, MicrophoneSession.testIngress, haudio]
  | posting => exact ⟨rfl, rfl, rfl⟩

theorem InTurn.step {event : IngressEvent} (h : InTurn sent w.session w.passed)
    (hstep : w.step event = some w') :
    InTurn (sent ++ packets event w) w'.session w'.passed := by
  have hsame : ∀ {next : MicrophoneIngress},
      next.session.microphoneSendInFlight = w.session.microphoneSendInFlight ∧
        next.session.pendingAudio = w.session.pendingAudio ∧ next.passed = w.passed →
      InTurn (sent ++ []) next.session next.passed := by
    rintro next ⟨hflight, hpending, hpassed⟩
    refine ⟨by rw [hflight, hpending]; exact h.waits, ?_⟩
    rw [List.append_nil, hpassed, pending, hpending]
    exact h.order
  cases event with
  | sendAudio audio =>
      simp only [MicrophoneIngress.step] at hstep
      split at hstep <;> cases hstep
      · exact hsame ⟨rfl, rfl, rfl⟩
      · rw [pushIngress_eq]
        exact hsame ⟨rfl, rfl, rfl⟩
  | post | begin | clear =>
      simp only [MicrophoneIngress.step] at hstep
      split at hstep <;> cases hstep
      exact hsame ⟨rfl, rfl, rfl⟩
  | advance index =>
      obtain ⟨drain, hdrain, rfl⟩ := Option.map_eq_some_iff.mp hstep
      simp only [packets, hdrain]
      cases drain with
      | took audio =>
          have hlater : InTurn sent w.session (w.passed ++ [audio]) :=
            ⟨h.waits, h.order.trans (List.sublist_append_left _ _)⟩
          exact hlater.sendAudioOnStrand (h.sublist.append (List.Sublist.refl _))
      | begun | sent | posting => exact hsame (advance_keeps rfl)
  | request isOpen =>
      cases hstep
      refine ⟨fun _ => rfl, ?_⟩
      show (sent ++ [] ++ []).Sublist w.passed
      rw [List.append_nil, List.append_nil]
      exact h.sublist
  | acknowledge =>
      cases hstep
      exact h.acknowledge

/-! ## What the threads pass -/

/-- The calls of `send_audio`. -/
def calls (events : List IngressEvent) : List Bytes :=
  events.filterMap fun event =>
    match event with
    | .sendAudio audio => some audio
    | _ => none

theorem arrivals_step {event : IngressEvent} (hstep : w.step event = some w') :
    (arrivals w'.history).Sublist (arrivals w.history ++ calls [event]) := by
  cases event with
  | sendAudio audio =>
      simp only [MicrophoneIngress.step] at hstep
      split at hstep <;> cases hstep
      · exact List.sublist_append_left _ _
      · have hpush : arrivals (pushEntries audio w.session.ingressAudio) = [audio] := by
          unfold pushEntries
          split <;> rfl
        rw [pushIngress_eq]
        show (arrivals (w.history ++ pushEntries audio w.session.ingressAudio)).Sublist _
        rw [arrivals_append, hpush]
        exact List.Sublist.refl _
  | post | begin =>
      simp only [MicrophoneIngress.step] at hstep
      split at hstep <;> cases hstep
      exact List.sublist_append_left _ _
  | clear =>
      simp only [MicrophoneIngress.step] at hstep
      split at hstep <;> cases hstep
      show (arrivals (w.history ++ [.left w.session.ingressAudio .cleared])).Sublist _
      rw [arrivals_append]
      exact List.Sublist.refl _
  | advance index =>
      obtain ⟨drain, hdrain, rfl⟩ := Option.map_eq_some_iff.mp hstep
      have hkept : arrivals (w.advance index drain).history = arrivals w.history := by
        cases drain with
        | begun =>
            cases haudio : w.session.ingressAudio with
            | nil => simp [advance, MicrophoneSession.takeIngress, haudio]
            | cons audio rest =>
                simp only [advance, MicrophoneSession.takeIngress, haudio, arrivals_append]
                exact List.append_nil _
        | took audio => rfl
        | sent =>
            cases haudio : w.session.ingressAudio <;>
              simp [advance, MicrophoneSession.testIngress, haudio]
        | posting => rfl
      rw [hkept]
      exact List.sublist_append_left _ _
  | request | acknowledge =>
      cases hstep
      exact List.sublist_append_left _ _

theorem arrivals_sublist_calls {events : List IngressEvent} (hrun : Machine.run step events {} = some w) :
    (arrivals w.history).Sublist (calls events) := by
  have hnone : (arrivals ({} : MicrophoneIngress).history).Sublist (calls []) := List.Sublist.refl _
  refine Machine.history_invariant
    (fun events (w : MicrophoneIngress) => (arrivals w.history).Sublist (calls events)) ?_ hnone hrun
  intro history event w w' harrivals hstep
  have happend : calls (history ++ [event]) = calls history ++ calls [event] := List.filterMap_append
  rw [happend]
  exact (arrivals_step hstep).trans (harrivals.append (List.Sublist.refl _))

theorem sentBy_sublist_calls {events : List IngressEvent} (hrun : Machine.run step events {} = some w) :
    (sentBy events).Sublist (calls events) := by
  have hnew : InTurn [] ({} : MicrophoneIngress).session ({} : MicrophoneIngress).passed :=
    ⟨fun _ => rfl, List.Sublist.refl _⟩
  have hturn : InTurn ([] ++ sentBy events) w.session w.passed :=
    Machine.trace_invariant (fun sent (w : MicrophoneIngress) => InTurn sent w.session w.passed)
      (fun _ _ _ _ hbefore hstep => hbefore.step hstep) hnew hrun
  have hsound := sound_of_run hrun
  have htaken := hsound.tracks.departuresFor_sublist .taken
  rw [hsound.passed] at htaken
  calc
    (sentBy events).Sublist w.passed := hturn.sublist
    List.Sublist _ (w.passed ++ w.drains.filterMap Drain.inHand) := List.sublist_append_left _ _
    List.Sublist _ (arrivals w.history) := htaken
    List.Sublist _ (calls events) := arrivals_sublist_calls hrun

end MicrophoneIngress

/-! ## The whole way -/

namespace MicrophonePath

open Airplay Bridge.FrameIpc

/-- What the receiver handed to one of the control sessions. -/
def handedTo (session : ℕ) (queue : ReceiverQueue.State Bytes) : List Bytes :=
  (queue.handed.filter fun entry => entry.1 = some session).map Prod.snd

/-- What the microphone callback of the AirPlay attempts got, each with a key and packets of its own. -/
def heard (aead : Aead) (attempts : List (Bytes × List Bytes)) : List Bytes :=
  attempts.flatMap fun attempt => (Microphone.receiveAll aead attempt.1 attempt.2).received

/-- Whatever packets come, whatever the four queues drop, and wherever connections break off, sessions end
or the phone opens and closes the microphone: what a control session sends to the phone are packets that
passed the replay window of an AirPlay attempt, each as it was and at most once, in the order in which they
passed. -/
theorem microphone_arrives {aead : Aead} {attempts : List (Bytes × List Bytes)} {ipcEvents : List IpcEvent}
    {ipc : IpcState} (hipc : IpcState.run ipcEvents {} = some ipc)
    (hsent : InputPath.sends ipcEvents <+: heard aead attempts)
    {queueEvents : List (ReceiverQueue.Event Bytes)} {queue : ReceiverQueue.State Bytes}
    (hqueue : ReceiverQueue.run kMaximumMicrophonePackets queueEvents {} = some queue)
    (hpassed : ReceiverQueue.sends queueEvents <+: ipc.delivered.filter (· ≠ [])) {session : ℕ}
    {ingressEvents : List IngressEvent} {ingress : MicrophoneIngress}
    (hingress : Machine.run MicrophoneIngress.step ingressEvents {} = some ingress)
    (hcalls : MicrophoneIngress.calls ingressEvents <+: handedTo session queue) :
    (MicrophoneIngress.sentBy ingressEvents).Sublist (heard aead attempts) := by
  have hhanded : (handedTo session queue).Sublist (ReceiverQueue.sends queueEvents) :=
    (List.filter_sublist.map Prod.snd).trans (ReceiverQueue.handed_sublist_sends (by decide) hqueue)
  calc
    (MicrophoneIngress.sentBy ingressEvents).Sublist (MicrophoneIngress.calls ingressEvents) :=
      MicrophoneIngress.sentBy_sublist_calls hingress
    List.Sublist _ (handedTo session queue) := hcalls.sublist
    List.Sublist _ (ReceiverQueue.sends queueEvents) := hhanded
    List.Sublist _ (ipc.delivered.filter (· ≠ [])) := hpassed.sublist
    List.Sublist _ ipc.delivered := List.filter_sublist
    List.Sublist _ (InputPath.sends ipcEvents) := InputPath.delivered_sublist_sends hipc
    List.Sublist _ (heard aead attempts) := hsent.sublist

/-- Two packets come; the phone has closed the microphone again before the second. -/
theorem microphone_arrives_closed :
    ∃ ipc queue ingress,
      IpcState.run [.send [1, 2, 3, 4], .send [5, 6, 7, 8], .take, .connect .established, .accept,
        .transmit 4, .transmit 4, .take, .transmit 4, .transmit 4, .receive 4, .receive 4, .receive 4,
        .receive 4] {} = some ipc ∧
      ReceiverQueue.run kMaximumMicrophonePackets [.start, .connect (some 0),
        .send ([1, 2, 3, 4] : Bytes), .post, .begin, .advance, .advance, .send [5, 6, 7, 8], .advance,
        .advance, .begin, .advance, .advance] {} = some queue ∧
      Machine.run MicrophoneIngress.step [.request true, .clear, .sendAudio [1, 2, 3, 4], .post, .begin,
        .advance 0, .advance 0, .advance 0, .request false, .clear, .sendAudio [5, 6, 7, 8], .post,
        .begin, .advance 0, .advance 0] {} = some ingress ∧
      MicrophoneIngress.sentBy [.request true, .clear, .sendAudio [1, 2, 3, 4], .post, .begin,
        .advance 0, .advance 0, .advance 0, .request false, .clear, .sendAudio [5, 6, 7, 8], .post,
        .begin, .advance 0, .advance 0] = [[1, 2, 3, 4]] ∧
      [[1, 2, 3, 4]].Sublist (heard (.ofAnswers Audio.twoChunks) [(List.replicate 32 0x42,
        Audio.sendMediaAudio (.ofAnswers Audio.twoChunks) (List.replicate 32 0x42)
          [([1, 2, 3, 4], true), ([5, 6, 7, 8], true)])]) := by
  have hheard : heard (.ofAnswers Audio.twoChunks) [(List.replicate 32 0x42,
      Audio.sendMediaAudio (.ofAnswers Audio.twoChunks) (List.replicate 32 0x42)
        [([1, 2, 3, 4], true), ([5, 6, 7, 8], true)])] = [[1, 2, 3, 4], [5, 6, 7, 8]] := by
    decide +kernel
  have hipc : ∃ ipc, IpcState.run [.send [1, 2, 3, 4], .send [5, 6, 7, 8], .take, .connect .established,
      .accept, .transmit 4, .transmit 4, .take, .transmit 4, .transmit 4, .receive 4, .receive 4,
      .receive 4, .receive 4] {} = some ipc ∧ ipc.delivered = [[1, 2, 3, 4], [5, 6, 7, 8]] := by
    decide +kernel
  have hqueue : ∃ queue, ReceiverQueue.run kMaximumMicrophonePackets [.start, .connect (some 0),
      .send ([1, 2, 3, 4] : Bytes), .post, .begin, .advance, .advance, .send [5, 6, 7, 8], .advance,
      .advance, .begin, .advance, .advance] {} = some queue ∧
      handedTo 0 queue = [[1, 2, 3, 4], [5, 6, 7, 8]] := by
    decide +kernel
  have hingress : (Machine.run MicrophoneIngress.step [.request true, .clear,
      .sendAudio [1, 2, 3, 4], .post, .begin, .advance 0, .advance 0, .advance 0, .request false, .clear,
      .sendAudio [5, 6, 7, 8], .post, .begin, .advance 0, .advance 0] {}).isSome := by
    decide +kernel
  have hone : MicrophoneIngress.sentBy [.request true, .clear, .sendAudio [1, 2, 3, 4], .post, .begin,
      .advance 0, .advance 0, .advance 0, .request false, .clear, .sendAudio [5, 6, 7, 8], .post,
      .begin, .advance 0, .advance 0] = [[1, 2, 3, 4]] := by
    decide +kernel
  obtain ⟨ipc, hipc, hdelivered⟩ := hipc
  obtain ⟨queue, hqueue, hhanded⟩ := hqueue
  obtain ⟨ingress, hingress⟩ := Option.isSome_iff_exists.mp hingress
  refine ⟨ipc, queue, ingress, hipc, hqueue, hingress, hone, ?_⟩
  rw [← hone]
  exact microphone_arrives hipc (by rw [hheard]; exact List.prefix_refl _) hqueue
    (by rw [hdelivered]; exact List.prefix_refl _) hingress (by rw [hhanded]; exact List.prefix_refl _)

end MicrophonePath
end Aa
end Aa2acp
