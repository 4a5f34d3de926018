import Aa2acp.Iap2.CarPlayProbe

/-!
# The outcome of the CarPlay probe

The caller of `CarPlayProbe` stops at `done()` or `failed()`, but looks at them only
between two `receive` calls.  `handle` looks at neither of them, so a message that shares
a call with the one that decided can decide again.  Whether it does depends on the
message, on the state before it and on the answers to its calls; the outcome is decided
once exactly when no message that comes after the decision is of that kind.
-/

namespace Aa2acp
namespace Iap2

open Csm Interaction

/-! ## The promise -/

/-- What the later of two states of a probe must keep of a decision in the earlier one. -/
structure DecisionKept (earlier later : CarPlayProbe) : Prop where
  done : earlier.failed = true → later.done = true → earlier.done = true
  failed : earlier.done = true → later.failed = true → earlier.failed = true
  endpoint : earlier.done = true →
    later.airplayHost = earlier.airplayHost ∧ later.airplayPort = earlier.airplayPort

instance (earlier later : CarPlayProbe) : Decidable (DecisionKept earlier later) :=
  decidable_of_iff
    ((earlier.failed = true → later.done = true → earlier.done = true) ∧
      (earlier.done = true → later.failed = true → earlier.failed = true) ∧
      (earlier.done = true →
        later.airplayHost = earlier.airplayHost ∧ later.airplayPort = earlier.airplayPort))
    ⟨fun h => ⟨h.1, h.2.1, h.2.2⟩, fun h => ⟨h.done, h.failed, h.endpoint⟩⟩

/-- No flag is taken back. -/
def FlagsKept (earlier later : CarPlayProbe) : Prop :=
  (earlier.done = true → later.done = true) ∧ (earlier.failed = true → later.failed = true)

theorem DecisionKept.trans {first second third : CarPlayProbe} (h : DecisionKept first second)
    (h' : DecisionKept second third) (hflags : FlagsKept first second) :
    DecisionKept first third where
  done hfailed hdone := h.done hfailed (h'.done (hflags.2 hfailed) hdone)
  failed hdone hfailed := h.failed hdone (h'.failed (hflags.1 hdone) hfailed)
  endpoint hdone := by
    obtain ⟨hhost, hport⟩ := h.endpoint hdone
    obtain ⟨hhost', hport'⟩ := h'.endpoint (hflags.1 hdone)
    exact ⟨hhost'.trans hhost, hport'.trans hport⟩

/-- Along a run that takes no flag back, it is enough to look at neighbours. -/
theorem pairwise_decisionKept_iff {probes : List CarPlayProbe}
    (hflags : probes.IsChain FlagsKept) :
    probes.Pairwise DecisionKept ↔ probes.IsChain DecisionKept := by
  refine ⟨List.Pairwise.isChain, fun h => ?_⟩
  have hboth : probes.IsChain fun earlier later =>
      DecisionKept earlier later ∧ FlagsKept earlier later := by
    rw [List.isChain_iff_getElem] at h hflags ⊢
    exact fun index hindex => ⟨h index hindex, hflags index hindex⟩
  have htrans : Trans (fun earlier later => DecisionKept earlier later ∧ FlagsKept earlier later)
      (fun earlier later => DecisionKept earlier later ∧ FlagsKept earlier later)
      (fun earlier later => DecisionKept earlier later ∧ FlagsKept earlier later) :=
    ⟨fun h h' => ⟨h.1.trans h'.1 h.2, fun hdone => h'.2.1 (h.2.1 hdone),
      fun hfailed => h'.2.2 (h.2.2 hfailed)⟩⟩
  exact hboth.pairwise.imp fun h => h.1

/-! ## Runs -/

/-- The probe, and the state of the link that answers its `send_control` calls. -/
abbrev ProbeMoment (S : Type) := ProbeWorld × S

section

variable (env : ProbeEnv) {S : Type} (respond : Bytes → S → Bool × S)

def handleAt (message : Message) (moment : ProbeMoment S) : ProbeMoment S :=
  (handleProbe env message moment.1).run respond moment.2

/-- The moments between the `handle` calls of one `receive` call, the first and the last
one included. -/
def handledMoments : List Message → ProbeMoment S → List (ProbeMoment S)
  | [], moment => [moment]
  | message :: messages, moment =>
      moment :: handledMoments messages (handleAt env respond message moment)

/-- The `handle` calls of one `receive` call, each with the moment before it. -/
def handledSteps : List Message → ProbeMoment S → List (Message × ProbeMoment S)
  | [], _ => []
  | message :: messages, moment =>
      (message, moment) :: handledSteps messages (handleAt env respond message moment)

def receiveAt (bytes : Bytes) (moment : ProbeMoment S) : ProbeMoment S :=
  (receiveProbe env bytes moment.1).run respond moment.2

/-- The messages that a `receive` call gets out of the decoder. -/
def messagesOf (bytes : Bytes) (moment : ProbeMoment S) : List Message :=
  (moment.1.probe.decoder.push bytes).drain.1

/-- The moment at which a `receive` call begins to handle them. -/
def pushedAt (bytes : Bytes) (moment : ProbeMoment S) : ProbeMoment S :=
  (moment.1.setDecoder (moment.1.probe.decoder.push bytes).drain.2, moment.2)

/-- All moments of the `receive` calls with these payloads. -/
def receivedMoments : List Bytes → ProbeMoment S → List (ProbeMoment S)
  | [], moment => [moment]
  | bytes :: payloads, moment =>
      moment :: (handledMoments env respond (messagesOf bytes moment) (pushedAt bytes moment) ++
        receivedMoments payloads (receiveAt env respond bytes moment))

/-- All `handle` calls of the `receive` calls with these payloads. -/
def receivedSteps : List Bytes → ProbeMoment S → List (Message × ProbeMoment S)
  | [], _ => []
  | bytes :: payloads, moment =>
      handledSteps env respond (messagesOf bytes moment) (pushedAt bytes moment) ++
        receivedSteps payloads (receiveAt env respond bytes moment)

theorem head?_receivedMoments (payloads : List Bytes) (moment : ProbeMoment S) :
    (receivedMoments env respond payloads moment).head? = some moment := by
  cases payloads <;> rfl

theorem handledMoments_eq_cons (messages : List Message) (moment : ProbeMoment S) :
    ∃ rest, handledMoments env respond messages moment = moment :: rest := by
  cases messages with
  | nil => exact ⟨[], rfl⟩
  | cons message messages => exact ⟨_, rfl⟩

theorem getLast?_handledMoments (messages : List Message) (moment : ProbeMoment S) :
    (handledMoments env respond messages moment).getLast? =
      some ((handleProbeAll env messages moment.1).run respond moment.2) := by
  induction messages generalizing moment with
  | nil => rfl
  | cons message messages ih =>
      obtain ⟨rest, hrest⟩ := handledMoments_eq_cons env respond messages
        (handleAt env respond message moment)
      have hlast := ih (handleAt env respond message moment)
      rw [hrest] at hlast
      simp only [handledMoments, hrest, List.getLast?_cons_cons, hlast, handleProbeAll, run_bind]
      rfl

section Chains

variable {R : ProbeMoment S → ProbeMoment S → Prop}

theorem isChain_handledMoments (messages : List Message) (moment : ProbeMoment S) :
    (handledMoments env respond messages moment).IsChain R ↔
      ∀ step ∈ handledSteps env respond messages moment,
        R step.2 (handleAt env respond step.1 step.2) := by
  induction messages generalizing moment with
  | nil => simp [handledMoments, handledSteps]
  | cons message messages ih =>
      obtain ⟨rest, hrest⟩ := handledMoments_eq_cons env respond messages
        (handleAt env respond message moment)
      have hlater := ih (handleAt env respond message moment)
      rw [hrest] at hlater
      simp only [handledMoments, handledSteps, hrest, List.isChain_cons_cons, hlater,
        List.forall_mem_cons]

/-- A relation that does not look at the decoder holds between neighbours when every
`handle` call keeps it. -/
theorem isChain_receivedMoments (hrefl : ∀ moment, R moment moment)
    (hpushed : ∀ bytes moment, R moment (pushedAt bytes moment)) (payloads : List Bytes)
    (moment : ProbeMoment S) :
    (receivedMoments env respond payloads moment).IsChain R ↔
      ∀ step ∈ receivedSteps env respond payloads moment,
        R step.2 (handleAt env respond step.1 step.2) := by
  induction payloads generalizing moment with
  | nil => simp [receivedMoments, receivedSteps]
  | cons bytes payloads ih =>
      obtain ⟨rest, hrest⟩ := handledMoments_eq_cons env respond (messagesOf bytes moment)
        (pushedAt bytes moment)
      have hlast := getLast?_handledMoments env respond (messagesOf bytes moment)
        (pushedAt bytes moment)
      have hhead := head?_receivedMoments env respond payloads (receiveAt env respond bytes moment)
      have hhandled := isChain_handledMoments env respond (R := R) (messagesOf bytes moment)
        (pushedAt bytes moment)
      have hseam : R ((handleProbeAll env (messagesOf bytes moment) (pushedAt bytes moment).1).run
          respond (pushedAt bytes moment).2) (receiveAt env respond bytes moment) := hrefl _
      rw [receivedMoments, hrest, List.cons_append, List.isChain_cons_cons, ← List.cons_append,
        ← hrest, List.isChain_append, hhandled, ih, hlast, hhead, receivedSteps,
        List.forall_mem_append]
      constructor
      · rintro ⟨-, hcall, hlater, -⟩
        exact ⟨hcall, hlater⟩
      · rintro ⟨hcall, hlater⟩
        refine ⟨hpushed bytes moment, hcall, hlater, ?_⟩
        intro earlier hearlier later hlater'
        rw [← Option.mem_some_iff.mp hearlier, ← Option.mem_some_iff.mp hlater']
        exact hseam

end Chains

/-! ## What one message does -/

/-- The endpoint after the call of `wifi_join_handler_` for this message. -/
def joinedEndpoint (message : Message) (w : ProbeWorld) : Bytes × UInt32 :=
  (env.join (w.trace ++ [.handled message]) (wifiConfiguration message)).2.getD
    (w.probe.airplayHost, w.probe.airplayPort)

/-- `wifi_join_handler_` returns true for this message, and the update goes out. -/
def JoinsAndSends (message : Message) (moment : ProbeMoment S) : Prop :=
  (env.join (moment.1.trace ++ [.handled message]) (wifiConfiguration message)).1 = true ∧
    moment.1.probe.attached = true ∧
    (respond (encodeBytesParameter kWirelessCarPlayUpdate 0 [1]) moment.2).1 = true

instance (message : Message) (moment : ProbeMoment S) :
    Decidable (JoinsAndSends env respond message moment) := inferInstanceAs (Decidable (_ ∧ _ ∧ _))

/-- The request for a Wi-Fi configuration goes out. -/
def Requests (moment : ProbeMoment S) : Prop :=
  moment.1.probe.attached = true ∧
    (respond (encode kRequestAccessoryWifiConfiguration []) moment.2).1 = true

instance (moment : ProbeMoment S) : Decidable (Requests respond moment) :=
  inferInstanceAs (Decidable (_ ∧ _))

/-- An AccessoryWifiConfiguration that `handle` looks at. -/
def Configures (message : Message) (probe : CarPlayProbe) : Prop :=
  message.id = kAccessoryWifiConfiguration ∧ probe.awaitingWifiConfiguration = true

/-- `handle` takes an exit that sets `done_`. -/
def Finishes (message : Message) (moment : ProbeMoment S) : Prop :=
  (message.id = kCarPlayStartSession ∧ moment.1.probe.requestWifi = false) ∨
    (Configures message moment.1.probe ∧ stringParameter message 1 ≠ [] ∧
      (moment.1.probe.joinHandler = true → JoinsAndSends env respond message moment ∧
        (joinedEndpoint env message moment.1).1 ≠ [] ∧ (joinedEndpoint env message moment.1).2 ≠ 0))

/-- `handle` takes an exit that calls `fail`. -/
def Fails (message : Message) (moment : ProbeMoment S) : Prop :=
  (message.id = kCarPlayStartSession ∧ moment.1.probe.requestWifi = true ∧
      ¬ Requests respond moment) ∨
    (Configures message moment.1.probe ∧ (stringParameter message 1 = [] ∨
      moment.1.probe.joinHandler = true ∧ ¬ JoinsAndSends env respond message moment))

/-- `handle` sets another endpoint. -/
def Redirects (message : Message) (w : ProbeWorld) : Prop :=
  (message.id = kCarPlayStartSession ∧
      (stringParameter message 3, u32Parameter message 2) ≠
        (w.probe.airplayHost, w.probe.airplayPort)) ∨
    (Configures message w.probe ∧ stringParameter message 1 ≠ [] ∧ w.probe.joinHandler = true ∧
      joinedEndpoint env message w ≠ (w.probe.airplayHost, w.probe.airplayPort))

/-- The message does not decide again: after a failure it takes no exit that finishes,
after the end no exit that fails, and the endpoint of the end stays. -/
structure Agreeable (message : Message) (moment : ProbeMoment S) : Prop where
  finish : moment.1.probe.failed = true → moment.1.probe.done = false →
    ¬ Finishes env respond message moment
  fail : moment.1.probe.done = true → moment.1.probe.failed = false →
    ¬ Fails env respond message moment
  endpoint : moment.1.probe.done = true → ¬ Redirects env message moment.1

variable {env respond}

theorem run_sendOrFail (bytes : Bytes) (onSuccess : CarPlayProbe → CarPlayProbe) (w : ProbeWorld)
    (s : S) :
    ((sendOrFail bytes onSuccess w).run respond s).1.probe =
      if w.probe.attached = true ∧ (respond bytes s).1 = true then onSuccess w.probe
      else w.probe.fail := by
  unfold sendOrFail
  by_cases hattached : w.probe.attached = true
  · cases haccepted : (respond bytes s).1 <;>
      simp [hattached, haccepted, ProbeWorld.update, ProbeWorld.record]
  · simp [hattached, ProbeWorld.update]

theorem callJoinHandler_eq (message : Message) (w : ProbeWorld) :
    (callJoinHandler env (wifiConfiguration message) (w.record (.handled message))).1 =
        (env.join (w.trace ++ [.handled message]) (wifiConfiguration message)).1 ∧
      (callJoinHandler env (wifiConfiguration message) (w.record (.handled message))).2.probe =
        w.probe.setAirplayEndpoint (joinedEndpoint env message w).1
          (joinedEndpoint env message w).2 := by
  rcases hjoin : env.join (w.trace ++ [.handled message]) (wifiConfiguration message) with
    ⟨joined, _ | ⟨host, port⟩⟩ <;>
    simp [callJoinHandler, joinedEndpoint, hjoin, ProbeWorld.record, ProbeWorld.update,
    CarPlayProbe.setAirplayEndpoint]

/-- `handle` of a CarPlayStartSession. -/
theorem probe_of_startSession {message : Message} (hid : message.id = kCarPlayStartSession)
    (moment : ProbeMoment S) :
    (handleAt env respond message moment).1.probe =
      let probe := moment.1.probe.setAirplayEndpoint (stringParameter message 3)
        (u32Parameter message 2)
      if moment.1.probe.requestWifi = false then probe.finish
      else if Requests respond moment then probe.awaitWifi else probe.fail := by
  by_cases hwifi : moment.1.probe.requestWifi = false
  · simp [handleAt, handleProbe, handleStartSession, hid, hwifi, ProbeWorld.update,
      ProbeWorld.record, CarPlayProbe.setAirplayEndpoint]
  · simp [handleAt, handleProbe, handleStartSession, hid, hwifi, ProbeWorld.update,
      ProbeWorld.record, CarPlayProbe.setAirplayEndpoint, run_sendOrFail, Requests]

/-- `handle` of an AccessoryWifiConfiguration that is awaited. -/
theorem probe_of_configures {message : Message} {moment : ProbeMoment S}
    (h : Configures message moment.1.probe) :
    (handleAt env respond message moment).1.probe =
      let endpoint := joinedEndpoint env message moment.1
      let probe := moment.1.probe.setAirplayEndpoint endpoint.1 endpoint.2
      if stringParameter message 1 = [] then moment.1.probe.fail
      else if moment.1.probe.joinHandler = true then
        if JoinsAndSends env respond message moment then
          if endpoint.1 ≠ [] ∧ endpoint.2 ≠ 0 then probe.finish else probe
        else probe.fail
      else moment.1.probe.finish := by
  have hid : message.id = kAccessoryWifiConfiguration ∧
      (moment.1.record (.handled message)).probe.awaitingWifiConfiguration = true := h
  have hssid : (wifiConfiguration message).ssid = stringParameter message 1 := rfl
  have hhandler : (moment.1.record (.handled message)).probe.joinHandler =
      moment.1.probe.joinHandler := rfl
  obtain ⟨hjoined, hprobe⟩ := @callJoinHandler_eq env message moment.1
  have hother : ¬ kAccessoryWifiConfiguration = kCarPlayStartSession := by decide
  simp only [handleAt, handleProbe, hid, hother, and_self, if_true, if_false,
    handleWifiConfiguration, hssid, hhandler]
  by_cases hempty : stringParameter message 1 = []
  · rw [if_pos hempty, if_pos hempty]
    rfl
  rw [if_neg hempty, if_neg hempty]
  by_cases hjoin : moment.1.probe.joinHandler = true
  · rw [if_pos hjoin, if_pos hjoin]
    rcases hcall : callJoinHandler env (wifiConfiguration message)
      (moment.1.record (.handled message)) with ⟨joined, w⟩
    rw [hcall] at hjoined hprobe
    dsimp only at hjoined hprobe
    have hattached : w.probe.attached = moment.1.probe.attached := by
      rw [hprobe]
      rfl
    cases joined with
    | false =>
        have hnot : ¬ JoinsAndSends env respond message moment := fun hboth =>
          Bool.false_ne_true (hjoined.trans hboth.1)
        rw [if_neg hnot, ← hprobe]
        rfl
    | true =>
        have hiff : JoinsAndSends env respond message moment ↔ w.probe.attached = true ∧
            (respond (encodeBytesParameter kWirelessCarPlayUpdate 0 [1]) moment.2).1 = true := by
          rw [JoinsAndSends, ← hjoined, hattached]
          exact and_iff_right rfl
        simp only [Bool.true_eq_false, if_false, run_sendOrFail, hiff]
        rw [hprobe]
        rfl
  · rw [if_neg hjoin, if_neg hjoin]
    rfl

theorem probe_of_other {message : Message} {moment : ProbeMoment S}
    (hid : message.id ≠ kCarPlayStartSession) (h : ¬ Configures message moment.1.probe) :
    (handleAt env respond message moment).1.probe = moment.1.probe := by
  have hother : ¬ (message.id = kAccessoryWifiConfiguration ∧
      (moment.1.record (.handled message)).probe.awaitingWifiConfiguration = true) := h
  simp only [handleAt, handleProbe, hid, hother, if_false]
  rfl

theorem message_cases (message : Message) (probe : CarPlayProbe) :
    (message.id = kCarPlayStartSession ∧ ¬ Configures message probe) ∨
      (message.id ≠ kCarPlayStartSession ∧ Configures message probe) ∨
        (message.id ≠ kCarPlayStartSession ∧ ¬ Configures message probe) := by
  by_cases hstart : message.id = kCarPlayStartSession
  · exact Or.inl ⟨hstart, fun h => absurd (hstart.symm.trans h.1) (by decide)⟩
  · exact Or.inr ((em (Configures message probe)).imp (⟨hstart, ·⟩) (⟨hstart, ·⟩))

theorem done_handleAt (message : Message) (moment : ProbeMoment S) :
    (handleAt env respond message moment).1.probe.done = true ↔
      moment.1.probe.done = true ∨ Finishes env respond message moment := by
  rcases message_cases message moment.1.probe with
    ⟨hstart, hnot⟩ | ⟨hother, hconfigures⟩ | ⟨hother, hnot⟩
  · rw [probe_of_startSession hstart]
    simp only [Finishes, hstart, hnot]
    split_ifs with hwifi hrequests <;>
      simp [CarPlayProbe.finish, CarPlayProbe.awaitWifi, CarPlayProbe.fail,
        CarPlayProbe.setAirplayEndpoint, hwifi]
  · rw [probe_of_configures hconfigures]
    simp only [Finishes, hother, hconfigures]
    split_ifs with hempty hjoin hsends hcomplete <;>
      simp_all [CarPlayProbe.finish, CarPlayProbe.fail, CarPlayProbe.setAirplayEndpoint]
  · rw [probe_of_other hother hnot]
    simp [Finishes, hother, hnot]

theorem failed_handleAt (message : Message) (moment : ProbeMoment S) :
    (handleAt env respond message moment).1.probe.failed = true ↔
      moment.1.probe.failed = true ∨ Fails env respond message moment := by
  rcases message_cases message moment.1.probe with
    ⟨hstart, hnot⟩ | ⟨hother, hconfigures⟩ | ⟨hother, hnot⟩
  · rw [probe_of_startSession hstart]
    simp only [Fails, hstart, hnot]
    split_ifs with hwifi hrequests <;>
      simp_all [CarPlayProbe.finish, CarPlayProbe.awaitWifi, CarPlayProbe.fail,
        CarPlayProbe.setAirplayEndpoint]
  · rw [probe_of_configures hconfigures]
    simp only [Fails, hother, hconfigures]
    split_ifs with hempty hjoin hsends hcomplete <;>
      simp_all [CarPlayProbe.finish, CarPlayProbe.fail, CarPlayProbe.setAirplayEndpoint]
  · rw [probe_of_other hother hnot]
    simp [Fails, hother, hnot]

theorem endpoint_handleAt (message : Message) (moment : ProbeMoment S) :
    ((handleAt env respond message moment).1.probe.airplayHost = moment.1.probe.airplayHost ∧
        (handleAt env respond message moment).1.probe.airplayPort = moment.1.probe.airplayPort) ↔
      ¬ Redirects env message moment.1 := by
  rcases message_cases message moment.1.probe with
    ⟨hstart, hnot⟩ | ⟨hother, hconfigures⟩ | ⟨hother, hnot⟩
  · rw [probe_of_startSession hstart]
    simp only [Redirects, hstart, hnot, ne_eq, Prod.mk.injEq]
    split_ifs with hwifi hrequests <;>
      simp [CarPlayProbe.finish, CarPlayProbe.awaitWifi, CarPlayProbe.fail,
        CarPlayProbe.setAirplayEndpoint]
  · rw [probe_of_configures hconfigures]
    simp only [Redirects, hother, hconfigures, ne_eq, Prod.ext_iff]
    split_ifs with hempty hjoin hsends hcomplete <;>
      simp_all [CarPlayProbe.finish, CarPlayProbe.fail, CarPlayProbe.setAirplayEndpoint]
  · rw [probe_of_other hother hnot]
    simp [Redirects, hother, hnot]

theorem flagsKept_handleAt (message : Message) (moment : ProbeMoment S) :
    FlagsKept moment.1.probe (handleAt env respond message moment).1.probe :=
  ⟨fun h => (done_handleAt message moment).mpr (Or.inl h),
    fun h => (failed_handleAt message moment).mpr (Or.inl h)⟩

/-- One `handle` call keeps the decision exactly when its message is harmless. -/
theorem decisionKept_handleAt_iff (message : Message) (moment : ProbeMoment S) :
    DecisionKept moment.1.probe (handleAt env respond message moment).1.probe ↔
      Agreeable env respond message moment := by
  have hdone := @done_handleAt env S respond message moment
  have hfailed := @failed_handleAt env S respond message moment
  have hendpoint := @endpoint_handleAt env S respond message moment
  constructor
  · intro h
    refine ⟨fun hf hd hfinish => ?_, fun hd hf hfail => ?_, fun hd => ?_⟩
    · have hbecame := h.done hf (hdone.mpr (Or.inr hfinish))
      simp [hd] at hbecame
    · have hbecame := h.failed hd (hfailed.mpr (Or.inr hfail))
      simp [hf] at hbecame
    · exact hendpoint.mp (h.endpoint hd)
  · intro h
    refine ⟨fun hf hd => ?_, fun hd hf => ?_, fun hd => hendpoint.mpr (h.endpoint hd)⟩
    · by_contra hnot
      have hbefore : moment.1.probe.done = false := Bool.eq_false_iff.mpr hnot
      exact h.finish hf hbefore ((hdone.mp hd).resolve_left hnot)
    · by_contra hnot
      have hbefore : moment.1.probe.failed = false := Bool.eq_false_iff.mpr hnot
      exact h.fail hd hbefore ((hfailed.mp hf).resolve_left hnot)

end

/-- In every sequence of `receive` calls, whatever the link and the join handler answer:
the outcome is decided once exactly when every message that is handled is harmless. -/
theorem decidedOnce_iff {S : Type} (env : ProbeEnv) (respond : Bytes → S → Bool × S)
    (payloads : List Bytes) (moment : ProbeMoment S) :
    ((receivedMoments env respond payloads moment).map fun moment => moment.1.probe).Pairwise
        DecisionKept ↔
      ∀ step ∈ receivedSteps env respond payloads moment,
        Agreeable env respond step.1 step.2 := by
  have hflags : ((receivedMoments env respond payloads moment).map fun moment =>
      moment.1.probe).IsChain FlagsKept := by
    rw [List.isChain_map]
    refine (isChain_receivedMoments env respond (fun _ => ⟨id, id⟩) (fun _ _ => ⟨id, id⟩)
      payloads moment).mpr fun step _ => flagsKept_handleAt step.1 step.2
  rw [pairwise_decisionKept_iff hflags, List.isChain_map,
    isChain_receivedMoments env respond (fun _ => ⟨fun _ => id, fun _ => id, fun _ => ⟨rfl, rfl⟩⟩)
      (fun _ _ => ⟨fun _ => id, fun _ => id, fun _ => ⟨rfl, rfl⟩⟩) payloads moment]
  exact forall₂_congr fun step _ => decisionKept_handleAt_iff step.1 step.2

/-- A join handler that knows one network only. -/
def joinsNetwork (ssid : Bytes) : ProbeEnv where
  join _ configuration :=
    if configuration.ssid = ssid then (true, some (ascii "10.0.0.1", 7000)) else (false, none)

/-- A probe that has asked for the Wi-Fi configuration and awaits it. -/
def awaitingProbe : CarPlayProbe where
  attached := true
  joinHandler := true
  requestWifi := true
  awaitingWifiConfiguration := true
  started := true

/-- The first of two configurations in one payload cannot be joined, the second one can:
the probe has failed and is done, and the caller starts a session. -/
theorem outcome_overturned :
    let payload := encodeBytesParameter kAccessoryWifiConfiguration 1 (ascii "car") ++
      encodeBytesParameter kAccessoryWifiConfiguration 1 (ascii "bus")
    let moments := receivedMoments (joinsNetwork (ascii "bus")) (fun _ s => (true, s)) [payload]
      (⟨awaitingProbe, []⟩, ())
    ¬ (moments.map fun moment => moment.1.probe).Pairwise DecisionKept ∧
      moments.getLast?.map (fun moment => (moment.1.probe.failed, moment.1.probe.done)) =
        some (true, true) := by
  decide +kernel

end Iap2
end Aa2acp
