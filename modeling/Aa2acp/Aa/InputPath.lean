import Aa2acp.Aa.ReceiverQueue
import Aa2acp.Bridge.FrameIpcDelivery
import Aa2acp.Bridge.InputFraming

/-!
# From a button of the head unit to the phone

An event of the head unit comes encrypted over the event channel of the CarPlay session, goes
through the queue and the socket of a `FrameSocketWriter` to the daemon, which makes an input
report of it, and through the queue of the receiver to the control session of the phone.
Events without a key are left out and reports may be displaced, but no key is pressed twice,
invented or moved before another one (`key_arrives`).
-/

namespace Aa2acp
namespace Aa
namespace InputPath

open Airplay Bridge Bridge.FrameIpc Fifo Text

/-! ## The key of an event -/

/-- The key that an event names, and whether it goes down. -/
def keyOf (request : Bytes) : Option (UInt32 × Bool) :=
  match inputBody request with
  | none => none
  | some (_, body) =>
      match decodeBplist body with
      | some (.dictionary entries) =>
          match plistInteger entries [ascii "androidKeyCode", ascii "android_key_code", ascii "keyCode"] with
          | none => none
          | some keycode =>
              if keycode.toNat > 0xFFFFFFFF then none
              else some (keycode.toUInt32,
                (plistBoolean entries [ascii "down", ascii "keyDown", ascii "pressed"]).getD true)
      | _ => none

/-- The report has the key, the time and nothing else. -/
theorem carplayInputReport_eq (env : InputEnv) (request : Bytes) :
    carplayInputReport env request =
      (keyOf request).bind fun key => env.serialize ⟨env.now, key.1, key.2, 0⟩ := by
  unfold carplayInputReport keyOf
  cases inputBody request with
  | none => rfl
  | some found =>
      dsimp only
      cases decodeBplist found.2 with
      | none => rfl
      | some value =>
          cases value with
          | dictionary entries =>
              dsimp only
              cases plistInteger entries [ascii "androidKeyCode", ascii "android_key_code",
                ascii "keyCode"] with
              | none => rfl
              | some keycode =>
                  dsimp only
                  split <;> rfl
          | _ => rfl

def InputReport.key (report : InputReport) : UInt32 × Bool := (report.keycode, report.down)

/-! ## The daemon -/

/-- The callback of the event receiver up to the queue of `send_input_report`; `parse` is
`ParseFromArray`. -/
def eventReceived (parse : Bytes → Option InputReport) (env : InputEnv) (bytes : Bytes) :
    Option InputReport :=
  (carplayInputReport env bytes).bind parse

/-- What is read back is what was written. -/
def ReadsBack (parse : Bytes → Option InputReport) (env : InputEnv) : Prop :=
  ∀ report serialized, env.serialize report = some serialized → parse serialized = some report

theorem eventReceived_key {parse : Bytes → Option InputReport} {env : InputEnv}
    (hparse : ReadsBack parse env) {bytes : Bytes} {report : InputReport}
    (h : eventReceived parse env bytes = some report) : keyOf bytes = some (InputReport.key report) := by
  obtain ⟨serialized, hreport, hread⟩ := Option.bind_eq_some_iff.mp h
  rw [carplayInputReport_eq] at hreport
  obtain ⟨key, hkey, hserialize⟩ := Option.bind_eq_some_iff.mp hreport
  rw [hparse _ _ hserialize] at hread
  cases hread
  exact hkey

/-- The reports of a series of events are those of some of their keys, in order. -/
theorem keys_sublist {parse : Bytes → Option InputReport} {calls : List (InputEnv × Bytes)}
    (hparse : ∀ call ∈ calls, ReadsBack parse call.1) :
    ((calls.filterMap fun call => eventReceived parse call.1 call.2).map InputReport.key).Sublist
      ((calls.map Prod.snd).filterMap keyOf) := by
  induction calls with
  | nil => exact List.Sublist.refl _
  | cons call calls ih =>
      obtain ⟨hcall, hcalls⟩ := List.forall_mem_cons.mp hparse
      have hrest := ih hcalls
      rw [List.map_cons, List.filterMap_cons, List.filterMap_cons]
      cases hreport : eventReceived parse call.1 call.2 with
      | none =>
          cases keyOf call.2 with
          | none => exact hrest
          | some key => exact hrest.cons _
      | some report =>
          rw [eventReceived_key hcall hreport, List.map_cons]
          exact hrest.cons_cons _

/-! ## The two queues on the way -/

/-- What the CarPlay worker sends. -/
def sends (events : List IpcEvent) : List Bytes :=
  events.filterMap fun event =>
    match event with
    | .send frame => some frame
    | _ => none

theorem sent_received (bytes : Bytes) (client : Client) (s : IpcState) :
    (s.received bytes client).sent = s.sent := by
  unfold IpcState.received
  dsimp only
  split
  · split
    · rfl
    · split <;> rfl
  · split <;> rfl

/-- Only a step in which something is sent adds to what was sent. -/
theorem sent_step {event : IpcEvent} {s s' : IpcState} (hstep : s.step event = some s') :
    s'.sent = s.sent ∨ ∃ frame, event = .send frame ∧ s'.sent = s.sent ++ [frame] := by
  cases event with
  | send frame =>
      obtain ⟨accepted, queue, hsend⟩ : ∃ accepted queue, s.queue.send frame = (accepted, queue) :=
        ⟨_, _, rfl⟩
      simp only [IpcState.step, hsend] at hstep
      cases hstep
      cases accepted with
      | true => exact Or.inr ⟨frame, rfl, rfl⟩
      | false => exact Or.inl rfl
  | take =>
      simp only [IpcState.step] at hstep
      split at hstep <;> cases hstep
      exact Or.inl rfl
  | connect outcome =>
      simp only [IpcState.step] at hstep
      split at hstep <;> cases hstep
      cases outcome <;> exact Or.inl rfl
  | transmit count =>
      simp only [IpcState.step, IpcState.transmit] at hstep
      split at hstep
      · split at hstep <;> cases hstep
        exact Or.inl rfl
      · split at hstep <;> cases hstep
        exact Or.inl rfl
      · cases hstep
  | receive count =>
      simp only [IpcState.step, IpcState.receive] at hstep
      split at hstep
      · cases hstep
      · split at hstep <;> cases hstep
        exact Or.inl (sent_received _ _ s)
  | lose | requeue | exit | abandon =>
      simp only [IpcState.step] at hstep
      split at hstep <;> cases hstep <;> exact Or.inl rfl
  | accept =>
      simp only [IpcState.step] at hstep
      split at hstep
      · split at hstep <;> cases hstep
        exact Or.inl rfl
      · cases hstep
  | stop =>
      cases hstep
      exact Or.inl rfl

theorem sent_sublist_sends {events : List IpcEvent} {s : IpcState} (hrun : IpcState.run events {} = some s) :
    s.sent.Sublist (sends events) := by
  have hnone : ({} : IpcState).sent.Sublist (sends []) := List.Sublist.refl _
  refine Machine.history_invariant (fun events (s : IpcState) => s.sent.Sublist (sends events)) ?_ hnone hrun
  intro history event s s' hsent hstep
  have happend : sends (history ++ [event]) = sends history ++ sends [event] := List.filterMap_append
  rw [happend]
  rcases sent_step hstep with hsame | ⟨frame, rfl, hframe⟩
  · rw [hsame]
    exact hsent.trans (List.sublist_append_left _ _)
  · rw [hframe]
    exact hsent.append (List.Sublist.refl _)

/-- What the callback of the daemon gets was sent. -/
theorem delivered_sublist_sends {events : List IpcEvent} {s : IpcState} (hrun : IpcState.run events {} = some s) :
    s.delivered.Sublist (sends events) := by
  obtain ⟨frames, hflow⟩ := flow_fresh.run hrun
  have hdelivered : s.delivered.Sublist s.sent :=
    (hflow.delivered_sublist.trans (List.sublist_append_left _ _)).trans hflow.order
  exact hdelivered.trans (sent_sublist_sends hrun)

/-! ## The whole way -/

/-- The keys that are handed over to the control sessions of the phone are keys of events that
came over the event channel of the CarPlay session, each at most once and in their order,
whatever the queues drop and wherever the connections break off. -/
theorem key_arrives {eventEnv : EventEnv} {cipher : ControlCipher} {chunks : List Bytes}
    {ipcEvents : List IpcEvent} {ipc : IpcState} (hipc : IpcState.run ipcEvents {} = some ipc)
    (hsent : sends ipcEvents <+: (EventChannel.serviceEventChannel eventEnv { cipher } chunks).received)
    {parse : Bytes → Option InputReport} {calls : List (InputEnv × Bytes)}
    (hcalls : calls.map Prod.snd <+: ipc.delivered) (hparse : ∀ call ∈ calls, ReadsBack parse call.1)
    {queueEvents : List (ReceiverQueue.Event InputReport)} {queue : ReceiverQueue.State InputReport}
    (hqueue : ReceiverQueue.run kMaximumInputReports queueEvents {} = some queue)
    (hpassed : ReceiverQueue.sends queueEvents =
      calls.filterMap fun call => eventReceived parse call.1 call.2) :
    (queue.handed.map fun entry => InputReport.key entry.2).Sublist
      ((EventChannel.serviceEventChannel eventEnv { cipher } chunks).received.filterMap keyOf) := by
  have hhanded := ReceiverQueue.handed_sublist_sends (by decide) hqueue
  rw [hpassed] at hhanded
  have hkeys := (hhanded.map InputReport.key).trans (keys_sublist hparse)
  rw [List.map_map] at hkeys
  have hevents : (calls.map Prod.snd).Sublist
      (EventChannel.serviceEventChannel eventEnv { cipher } chunks).received :=
    hcalls.sublist.trans ((delivered_sublist_sends hipc).trans hsent.sublist)
  exact hkeys.trans (hevents.filterMap keyOf)

/-- A request with one key, and the answer to it, as ChaCha20-Poly1305 encrypts them. -/
def keyRequest : Bytes :=
  ascii "POST /command RTSP/1.0\r\nContent-Length: 63\r\n\r\n" ++
    [98, 112, 108, 105, 115, 116, 48, 48, 209, 1, 2, 94, 97, 110, 100, 114, 111, 105, 100, 75, 101,
      121, 67, 111, 100, 101, 16, 66, 8, 11, 26, 0, 0, 0, 0, 0, 0, 1, 1, 0, 0, 0, 0, 0, 0, 0, 3, 0, 0,
      0, 0, 0, 0, 0, 0, 0, 0, 0, 0, 0, 0, 0, 28]

def keyAnswers : List Aead.Answer :=
  [⟨List.replicate 32 0x42, List.replicate 12 0, keyRequest, [109, 0],
      [9, 41, 183, 127, 61, 155, 80, 162, 129, 204, 53, 90, 155, 15, 250, 236, 237, 247, 139, 232, 132,
        165, 169, 22, 188, 162, 97, 161, 41, 222, 84, 226, 207, 202, 70, 141, 46, 176, 57, 21, 220, 123,
        164, 83, 45, 70, 244, 3, 90, 84, 186, 185, 12, 241, 63, 247, 113, 40, 122, 54, 178, 103, 25, 16,
        222, 198, 44, 169, 107, 111, 73, 114, 28, 96, 19, 99, 4, 143, 66, 154, 47, 3, 125, 210, 94, 18,
        200, 26, 4, 85, 13, 79, 61, 114, 87, 46, 113, 36, 135, 50, 219, 94, 235, 195, 186, 9, 158, 114,
        41],
      [49, 10, 117, 114, 51, 123, 145, 53, 125, 177, 133, 170, 29, 104, 87, 168]⟩,
    ⟨List.replicate 32 0x24, List.replicate 12 0, eventResponse [], [56, 0],
      [172, 216, 55, 141, 31, 104, 183, 145, 5, 5, 16, 81, 25, 237, 178, 208, 96, 247, 104, 185,
        113, 174, 127, 102, 95, 128, 180, 33, 209, 237, 143, 191, 126, 85, 141, 41, 157, 49, 190,
        203, 15, 10, 181, 207, 122, 218, 219, 174, 117, 155, 54, 168, 213, 62, 146, 102],
      [81, 98, 140, 159, 253, 99, 21, 10, 104, 178, 52, 55, 147, 101, 202, 107]⟩]

/-- What protobuf makes of the report. -/
def keyReport : Bytes := [8, 1, 34, 8, 10, 6, 8, 66, 16, 1, 24, 0]

/-- A key of the head unit gets to the first control session. -/
theorem key_arrives_once :
    ∃ ipc queue,
      IpcState.run [.send keyRequest, .take, .connect .established, .accept, .transmit 4,
        .transmit 109, .receive 4, .receive 109] {} = some ipc ∧
      ReceiverQueue.run kMaximumInputReports [.start, .connect (some 0), .send ⟨1, 66, true, 0⟩, .post,
        .begin, .advance, .advance] {} = some queue ∧
      queue.handed = [(some 0, ⟨1, 66, true, 0⟩)] ∧
      (queue.handed.map fun entry => InputReport.key entry.2).Sublist
        ((EventChannel.serviceEventChannel ⟨.ofAnswers keyAnswers, fun _ => true⟩
          { cipher := ⟨List.replicate 32 0x42, List.replicate 32 0x24, 0, 0⟩ }
          (keyAnswers.take 1 |>.map Aead.Answer.frame)).received.filterMap keyOf) := by
  have hipc : ∃ ipc, IpcState.run [.send keyRequest, .take, .connect .established, .accept, .transmit 4,
      .transmit 109, .receive 4, .receive 109] {} = some ipc ∧ ipc.delivered = [keyRequest] := by
    decide +kernel
  have hqueue : ∃ queue, ReceiverQueue.run kMaximumInputReports [.start, .connect (some 0),
      .send (⟨1, 66, true, 0⟩ : InputReport), .post, .begin, .advance, .advance] {} = some queue ∧
      queue.handed = [(some 0, ⟨1, 66, true, 0⟩)] := by
    decide
  have hreceived : (EventChannel.serviceEventChannel ⟨.ofAnswers keyAnswers, fun _ => true⟩
      { cipher := ⟨List.replicate 32 0x42, List.replicate 32 0x24, 0, 0⟩ }
      (keyAnswers.take 1 |>.map Aead.Answer.frame)).received = [keyRequest] := by
    decide +kernel
  obtain ⟨ipc, hipc, hdelivered⟩ := hipc
  obtain ⟨queue, hqueue, hhanded⟩ := hqueue
  let serialize : InputReport → Option Bytes :=
    fun report => if report = ⟨1, 66, true, 0⟩ then some keyReport else none
  let parse : Bytes → Option InputReport :=
    fun bytes => if bytes = keyReport then some ⟨1, 66, true, 0⟩ else none
  have hparse : ∀ call ∈ [((⟨1, serialize⟩ : InputEnv), keyRequest)], ReadsBack parse call.1 := by
    rw [List.forall_mem_singleton]
    intro report serialized hserialized
    simp only [serialize] at hserialized
    split at hserialized
    · next hreport =>
        obtain rfl := Option.some.inj hserialized
        exact hreport ▸ if_pos rfl
    · simp at hserialized
  have hsent : sends [.send keyRequest, .take, .connect .established, .accept, .transmit 4,
      .transmit 109, .receive 4, .receive 109] <+:
      (EventChannel.serviceEventChannel ⟨.ofAnswers keyAnswers, fun _ => true⟩
        { cipher := ⟨List.replicate 32 0x42, List.replicate 32 0x24, 0, 0⟩ }
        (keyAnswers.take 1 |>.map Aead.Answer.frame)).received := by
    rw [hreceived]
    exact List.prefix_refl _
  have hcalls : [((⟨1, serialize⟩ : InputEnv), keyRequest)].map Prod.snd <+: ipc.delivered := by
    rw [hdelivered]
    exact List.prefix_refl _
  have hpassed : ReceiverQueue.sends [.start, .connect (some 0), .send (⟨1, 66, true, 0⟩ : InputReport),
      .post, .begin, .advance, .advance] =
      [((⟨1, serialize⟩ : InputEnv), keyRequest)].filterMap fun call =>
        eventReceived parse call.1 call.2 := by
    decide +kernel
  exact ⟨ipc, queue, hipc, hqueue, hhanded, key_arrives hipc hsent hcalls hparse hqueue hpassed⟩

end InputPath
end Aa
end Aa2acp
