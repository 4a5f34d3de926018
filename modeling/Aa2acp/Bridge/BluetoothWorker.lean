import Aa2acp.Bridge.WorkerArguments
import Aa2acp.Iap2.BootstrapAuthentication
import Aa2acp.Iap2.HandOver
import Aa2acp.Iap2.LinkApplication
import Aa2acp.Lib.Scoped

/-!
# The session of the Bluetooth worker

`run_bluetooth_worker` of `src/iap2_bt_main.cpp` after its options: pairing, the iAP2 link with
the bootstrap session and the CarPlay probe behind it, the accessory's Wi-Fi, AirPlay, and the
guards that clean up on every way out.

No network is joined and nothing is streamed before the accessory has proved who it is
(`accessory_trusted`), and a network that was joined is left again, once and last
(`worker_orderly`).
-/

namespace Aa2acp
namespace Bridge
namespace BluetoothWorker

open Iap2 Interaction

/-! ## What the worker finds -/

/-- `join_with_networkmanager`, and `accessory_ipv4_endpoint_for_interface` after it. -/
inductive Joining where
  | refused
  | withoutEndpoint
  | joined (host : Bytes)
deriving DecidableEq, Repr

/-- One turn of the loop over the link. -/
structure Turn where
  /-- `shutdown_requested()` at its head. -/
  shutdown : Bool := false
  /-- What `recv` returned, nothing when the accessory closed the connection; `none` when there
  was nothing to read. -/
  read : Option Bytes
  now : TimePoint
deriving DecidableEq, Repr

structure Environment where
  /-- `ensure_bluez_pairing` -/
  paired : Bool
  /-- `connect_bluez_iap2` -/
  connected : Bool
  /-- `local_bluez_adapter_address` -/
  localAddress : Option Bytes
  /-- `send_all` -/
  send : List Bytes → Bytes → Bool
  clock : List Bytes → TimePoint
  session : SessionEnv
  joining : List ProbeEvent → AccessoryWifiConfiguration → Joining
  started : TimePoint
  /-- The deadline has passed when there is no other turn. -/
  turns : List Turn
  shutdownAfterLink : Bool
  /-- What the first and the second call of `run_session` return. -/
  airplay : ℕ → ℤ
  shutdownAfterFirst : Bool
  shutdownAfterPause : Bool
  shutdownAtEnd : Bool

/-- What can be seen of the worker besides the frames of the link. -/
inductive Effect where
  | pair (paired : Bool)
  | connect (connected : Bool)
  | join (configuration : AccessoryWifiConfiguration) (result : Joining)
  | disconnect
  | airplay (host : Bytes) (port : UInt16) (result : ℤ)
  | pause
  | leaveWifi (interface : Bytes)
  | startHotspot (interface ssid passphrase : Bytes)
deriving DecidableEq, Repr

/-- The calls of `wifi_join_handler_`, each with what was before it. -/
def handlerCalls : List ProbeEvent → List ProbeEvent → List (List ProbeEvent × AccessoryWifiConfiguration)
  | _, [] => []
  | past, .joining configuration joined :: events =>
      (past, configuration) :: handlerCalls (past ++ [.joining configuration joined]) events
  | past, event :: events => handlerCalls (past ++ [event]) events

structure State where
  world : World DispatchWorld
  bluetooth : Bool := false
  effects : List Effect := []

/-! ## The worker -/

section

variable (options : WorkerOptions) (env : Environment)

/-- The handler that is given to `set_wifi_join_handler`. -/
def probeEnv : ProbeEnv where
  join past configuration :=
    match env.joining past configuration with
    | .refused | .withoutEndpoint => (false, none)
    | .joined host => (true, some (host, 7000))

def linkEnv : Env DispatchWorld where
  send := env.send
  clock := env.clock
  controlData := some (controlData env.session (probeEnv env) options.carplay)

/-- The session and the probe before the link starts. -/
def application (address : Bytes) : DispatchWorld where
  session := .fresh
  probe :=
    let probe := (CarPlayProbe.attach { bluetoothIdentifier := address }).requestWifiConfiguration
      options.wifiConfig
    ⟨if options.joinWifi then probe.setWifiJoinHandler else probe, []⟩

/-- The condition of the loop, but for the deadline and the shutdown. -/
def proceeds (w : World DispatchWorld) : Bool :=
  let session := w.app.session.session
  let probe := w.app.probe.probe
  w.link.state ≠ .dead ∧
    (¬ options.bootstrap ∨
      (if options.carplay then ¬ probe.done ∧ ¬ probe.failed else ¬ session.isDone ∧ ¬ session.isFailed)) ∧
    (options.bootstrap ∨ w.link.state ≠ .normal)

def beginSession (w : World DispatchWorld) : World DispatchWorld :=
  if options.bootstrap ∧ w.link.state = .normal ∧ ¬ w.app.session.session.started then
    onLink (linkEnv options env)
      (fun app => (begin app.session).bind fun session => .done { app with session }) w
  else w

def beginCarPlay (w : World DispatchWorld) : World DispatchWorld :=
  if options.carplay ∧ w.app.session.session.isDone ∧ ¬ w.app.probe.probe.started then
    onLink (linkEnv options env)
      (fun app => (beginProbe app.probe).bind fun probe => .done { app with probe }) w
  else w

def turnLink (turn : Turn) (w : World DispatchWorld) : World DispatchWorld :=
  let w := match turn.read with
    | none => w
    | some bytes => receive (linkEnv options env) bytes turn.now w
  beginCarPlay options env (beginSession options env (tick (linkEnv options env) turn.now w))

def linkLoop : List Turn → World DispatchWorld → World DispatchWorld
  | [], w => w
  | turn :: turns, w =>
      if ¬ turn.shutdown ∧ proceeds options w then
        -- the accessory closed the connection
        if turn.read = some [] then w else linkLoop turns (turnLink options env turn w)
      else w

namespace State

def perform (effect : Effect) (w : State) : State := { w with effects := w.effects ++ [effect] }

def probe (w : State) : CarPlayProbe := w.world.app.probe.probe

/-- `wifi_cleanup.joined_` -/
def joined (w : State) : Bool :=
  (handlerCalls [] w.world.app.probe.trace).any fun call => env.joining call.1 call.2 ≠ .refused

def connect (w : State) : State := { w.perform (.connect true) with bluetooth := true }

/-- `BluezIap2Connection::close` -/
def close (w : State) : State :=
  if w.bluetooth then { w.perform .disconnect with bluetooth := false } else w

/-- `link.start` and the loop after it. -/
def runLink (address : Bytes) (w : State) : State :=
  let world := linkLoop options env env.turns
    (start (linkEnv options env) env.started (.fresh (application options address)))
  { w with
    world
    effects := w.effects ++ (handlerCalls [] world.app.probe.trace).map fun call =>
      .join call.2 (env.joining call.1 call.2) }

/-- `~WifiCleanup` -/
def cleanUp (w : State) : State :=
  if w.joined env then
    let w := w.perform (.leaveWifi options.wifiInterface)
    if options.managementHotspotSsid ≠ [] then
      w.perform (.startHotspot options.wifiInterface options.managementHotspotSsid
        options.managementHotspotPassphrase)
    else w
  else w

end State

/-- A call of `run_session`. -/
def attempt (number : ℕ) : Scoped State ℤ ℤ := do
  Scoped.update fun w =>
    w.perform (.airplay w.probe.airplayHost w.probe.airplayPort.toUInt16 (env.airplay number))
  pure (env.airplay number)

/-- The second attempt, after a pause. -/
def retry (first : ℤ) : Scoped State ℤ ℤ := do
  Scoped.update fun w => w.perform .pause
  if env.shutdownAfterPause then pure first else attempt env 1

def attempts : Scoped State ℤ ℤ := do
  let first ← attempt env 0
  if first ≠ 0 ∧ ¬ env.shutdownAfterFirst then retry env first else pure first

def airplayPhase : Scoped State ℤ ℤ := do
  let probe ← Scoped.read State.probe
  Scoped.unlessLeave (probe.airplayHost ≠ [] ∧ probe.airplayPort ≠ 0) 1
  let result ← attempts env
  Scoped.unlessLeave (¬ env.shutdownAtEnd) (128 + 15)
  pure (if result ≠ 0 then 1 else 0)

/-- The result without AirPlay. -/
def linkResult (w : State) : ℤ :=
  if options.carplay then if w.probe.done then 0 else 1
  else if options.bootstrap then if w.world.app.session.session.isDone then 0 else 1
  else if w.world.link.state = .normal then 0 else 1

/-- From the connection on. -/
def connectedPhase : Scoped State ℤ ℤ := do
  let address ← Scoped.ofOption env.localAddress 1
  Scoped.update (State.runLink options env address)
  Scoped.update State.close
  Scoped.unlessLeave (¬ env.shutdownAfterLink) (128 + 15)
  let done ← Scoped.read fun w => w.probe.done
  if options.bridge ∧ done then airplayPhase env else Scoped.read (linkResult options)

/-- The session of `run_bluetooth_worker`. -/
def session : Scoped State ℤ ℤ :=
  Scoped.guarded (State.cleanUp options env) do
    Scoped.update (State.perform (.pair env.paired))
    Scoped.unlessLeave env.paired 1
    Scoped.update (if env.connected then State.connect else State.perform (.connect false))
    Scoped.unlessLeave env.connected 1
    Scoped.guarded State.close (connectedPhase options env)

def fresh : State := { world := .fresh (application options []) }

/-- What the worker returns, and its state then. -/
def outcome : ℤ × State := (session options env).run (fresh options)

end

/-! ## The calls of the handler -/

section

variable {env : Environment}

theorem handlerCalls_append (past events added : List ProbeEvent) :
    handlerCalls past (events ++ added) = handlerCalls past events ++ handlerCalls (past ++ events) added := by
  induction events generalizing past with
  | nil => rw [List.nil_append, List.append_nil, handlerCalls, List.nil_append]
  | cons event events ih =>
      have hrest := ih (past ++ [event])
      rw [List.append_assoc, List.singleton_append] at hrest
      cases event <;> simp only [List.cons_append, handlerCalls, hrest]

/-- The handler joined a network in which it found an endpoint. -/
def JoinedWell (env : Environment) (trace : List ProbeEvent) : Prop :=
  ∃ call ∈ handlerCalls [] trace, ∃ host, env.joining call.1 call.2 = .joined host

theorem JoinedWell.append {trace : List ProbeEvent} (h : JoinedWell env trace) (added : List ProbeEvent) :
    JoinedWell env (trace ++ added) := by
  obtain ⟨call, hcall, hjoined⟩ := h
  refine ⟨call, ?_, hjoined⟩
  rw [handlerCalls_append]
  exact List.mem_append_left _ hcall

theorem joinedWell_call {trace : List ProbeEvent} {configuration : AccessoryWifiConfiguration}
    (h : ((probeEnv env).join trace configuration).1 = true) (joined : Bool) :
    JoinedWell env (trace ++ [.joining configuration joined]) := by
  have hhost : ∃ host, env.joining trace configuration = .joined host := by
    cases hjoining : env.joining trace configuration with
    | joined host => exact ⟨host, rfl⟩
    | refused | withoutEndpoint => simp [probeEnv, hjoining] at h
  refine ⟨(trace, configuration), ?_, hhost⟩
  rw [handlerCalls_append]
  exact List.mem_append_right _ (List.mem_singleton_self _)

/-! ## The probe joins before it is done -/

/-- With a handler the probe is done only when the handler was successful. -/
structure DoneWhenJoined (env : Environment) (joins : Bool) (w : ProbeWorld) : Prop where
  handler : w.probe.joinHandler = joins
  request : joins = true → w.probe.requestWifi = true
  done : joins = true → w.probe.done = true → JoinedWell env w.trace

/-- A change of the probe that leaves its options alone. -/
def SameOptions (change : CarPlayProbe → CarPlayProbe) : Prop :=
  ∀ probe, (change probe).joinHandler = probe.joinHandler ∧ (change probe).requestWifi = probe.requestWifi

namespace DoneWhenJoined

variable {joins : Bool} {w w' : ProbeWorld}

theorem record (h : DoneWhenJoined env joins w) (event : ProbeEvent) :
    DoneWhenJoined env joins (w.record event) where
  handler := h.handler
  request := h.request
  done hjoins hdone := (h.done hjoins hdone).append [event]

theorem update (h : DoneWhenJoined env joins w) {change : CarPlayProbe → CarPlayProbe} (hsame : SameOptions change)
    (hdone : joins = true → (change w.probe).done = true →
      w.probe.done = true ∨ JoinedWell env w.trace) : DoneWhenJoined env joins (w.update change) := by
  obtain ⟨hhandler, hrequest⟩ := hsame w.probe
  refine ⟨hhandler.trans h.handler, fun hjoins => hrequest.trans (h.request hjoins), fun hjoins hnow => ?_⟩
  rcases hdone hjoins hnow with hbefore | hjoined
  · exact h.done hjoins hbefore
  · exact hjoined

theorem fail (h : DoneWhenJoined env joins w) : DoneWhenJoined env joins (w.update CarPlayProbe.fail) :=
  h.update (fun _ => ⟨rfl, rfl⟩) fun _ hdone => Or.inl hdone

theorem sendOrFail (h : DoneWhenJoined env joins w) {bytes : Bytes} {onSuccess : CarPlayProbe → CarPlayProbe}
    (hsent : Outcome (sendOrFail bytes onSuccess w) w') (hsame : SameOptions onSuccess)
    (hdone : joins = true → (onSuccess w.probe).done = true →
      w.probe.done = true ∨ JoinedWell env w.trace) : DoneWhenJoined env joins w' := by
  unfold Iap2.sendOrFail at hsent
  by_cases hattached : w.probe.attached = true
  · rw [if_pos hattached, outcome_ask_iff] at hsent
    obtain ⟨accepted, hsent⟩ := hsent
    rw [outcome_done_iff.mp hsent]
    cases accepted with
    | false => exact (h.record _).fail
    | true =>
        refine (h.record _).update hsame fun hjoins hnow => ?_
        exact (hdone hjoins hnow).imp_right fun hjoined => hjoined.append _
  · rw [if_neg hattached] at hsent
    rw [outcome_done_iff.mp hsent]
    exact h.fail

theorem beginProbe (h : DoneWhenJoined env joins w) (hbegun : Outcome (beginProbe w) w') :
    DoneWhenJoined env joins w' := by
  unfold Iap2.beginProbe at hbegun
  dsimp only at hbegun
  split at hbegun
  · rw [outcome_done_iff.mp hbegun]
    exact h.fail
  split at hbegun
  · exact h.sendOrFail hbegun (fun _ => ⟨rfl, rfl⟩) fun _ hdone => Or.inl hdone
  split at hbegun
  · rw [outcome_done_iff.mp hbegun]
    exact h.fail
  · exact h.sendOrFail hbegun (fun _ => ⟨rfl, rfl⟩) fun _ hdone => Or.inl hdone

theorem handleStartSession (h : DoneWhenJoined env joins w) {message : Csm.Message}
    (hhandled : Outcome (handleStartSession message w) w') : DoneWhenJoined env joins w' := by
  unfold Iap2.handleStartSession at hhandled
  dsimp only at hhandled
  have hendpoint : DoneWhenJoined env joins (w.update fun probe =>
      probe.setAirplayEndpoint (stringParameter message 3) (u32Parameter message 2)) :=
    h.update (fun _ => ⟨rfl, rfl⟩) fun _ hdone => Or.inl hdone
  split at hhandled
  · next hrequest =>
      rw [outcome_done_iff.mp hhandled]
      refine hendpoint.update (fun _ => ⟨rfl, rfl⟩) fun hjoins _ => ?_
      -- the handler comes with the request
      rw [hendpoint.request hjoins] at hrequest
      cases hrequest
  · exact hendpoint.sendOrFail hhandled (fun _ => ⟨rfl, rfl⟩) fun _ hdone => Or.inl hdone

theorem callJoinHandler (h : DoneWhenJoined env joins w) (configuration : AccessoryWifiConfiguration) :
    DoneWhenJoined env joins (callJoinHandler (probeEnv env) configuration w).2 ∧
      ((callJoinHandler (probeEnv env) configuration w).1 = true →
        JoinedWell env (callJoinHandler (probeEnv env) configuration w).2.trace) := by
  unfold Iap2.callJoinHandler
  dsimp only
  split
  · exact ⟨h.record _, fun hjoined => joinedWell_call hjoined _⟩
  · refine ⟨(h.record _).update (fun _ => ⟨rfl, rfl⟩) fun _ hdone => Or.inl hdone, fun hjoined => ?_⟩
    exact joinedWell_call hjoined _

theorem handleWifiConfiguration (h : DoneWhenJoined env joins w) {message : Csm.Message}
    (hhandled : Outcome (handleWifiConfiguration (probeEnv env) message w) w') : DoneWhenJoined env joins w' := by
  unfold Iap2.handleWifiConfiguration at hhandled
  dsimp only at hhandled
  split at hhandled
  · rw [outcome_done_iff.mp hhandled]
    exact h.fail
  split at hhandled
  · obtain ⟨hcalled, hjoined⟩ := h.callJoinHandler (wifiConfiguration message)
    split at hhandled
    · rw [outcome_done_iff.mp hhandled]
      exact hcalled.fail
    · next hresult =>
        have hjoined := hjoined (Bool.eq_true_of_not_eq_false hresult)
        refine hcalled.sendOrFail hhandled (fun probe => ?_) fun _ _ => Or.inr hjoined
        split <;> exact ⟨rfl, rfl⟩
  · next hhandler =>
      rw [outcome_done_iff.mp hhandled]
      exact h.update (fun _ => ⟨rfl, rfl⟩) fun hjoins => absurd (h.handler.trans hjoins) hhandler

theorem handleProbe (h : DoneWhenJoined env joins w) {message : Csm.Message}
    (hhandled : Outcome (handleProbe (probeEnv env) message w) w') : DoneWhenJoined env joins w' := by
  unfold Iap2.handleProbe at hhandled
  dsimp only at hhandled
  split at hhandled
  · exact (h.record _).handleStartSession hhandled
  split at hhandled
  · exact (h.record _).handleWifiConfiguration hhandled
  · rw [outcome_done_iff.mp hhandled]
    exact h.record _

theorem handleProbeAll {messages : List Csm.Message} (h : DoneWhenJoined env joins w)
    (hhandled : Outcome (handleProbeAll (probeEnv env) messages w) w') : DoneWhenJoined env joins w' := by
  induction messages generalizing w with
  | nil =>
      rw [outcome_done_iff.mp hhandled]
      exact h
  | cons message messages ih =>
      unfold Iap2.handleProbeAll at hhandled
      rw [outcome_bind_iff] at hhandled
      obtain ⟨middle, hfirst, hrest⟩ := hhandled
      exact ih (h.handleProbe hfirst) hrest

theorem receiveProbe (h : DoneWhenJoined env joins w) {bytes : Bytes}
    (hreceived : Outcome (receiveProbe (probeEnv env) bytes w) w') : DoneWhenJoined env joins w' := by
  unfold Iap2.receiveProbe at hreceived
  refine handleProbeAll ?_ hreceived
  exact h.update (fun _ => ⟨rfl, rfl⟩) fun _ hdone => Or.inl hdone

end DoneWhenJoined

end

end BluetoothWorker
end Bridge
end Aa2acp
