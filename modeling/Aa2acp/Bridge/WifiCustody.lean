import Aa2acp.Bridge.BluetoothWorker

/-!
# Trust and custody in the Bluetooth worker

The session of the worker as a whole: whom it trusts (`accessory_trusted`), and what becomes of
the network that it joins (`worker_orderly`).
-/

namespace Aa2acp
namespace Bridge
namespace BluetoothWorker

open Iap2 Interaction Csm Text

/-! ## The options -/

/-- The flags as the parser sets them. -/
structure Nested (options : WorkerOptions) : Prop where
  joins : options.bridge = true → options.joinWifi = true
  probes : options.joinWifi = true → options.carplay = true

theorem Nested.value {options : WorkerOptions} (h : Nested options) (option : ValueOption) (value : Bytes) :
    Nested (option.set value options) := by
  cases option <;> exact ⟨h.joins, h.probes⟩

theorem Nested.flag {options : WorkerOptions} (h : Nested options) (option : FlagOption) :
    Nested (option.set options) := by
  cases option with
  | bootstrap | leaveWifi => exact ⟨h.joins, h.probes⟩
  | carplay | wifiConfig => exact ⟨h.joins, fun _ => rfl⟩
  | joinWifi | bridge | preflight => exact ⟨fun _ => rfl, fun _ => rfl⟩

theorem Nested.readFlag {argument : Bytes} {options options' : WorkerOptions} (h : Nested options)
    (hread : readFlag argument options = some options') : Nested options' := by
  obtain ⟨option, -, rfl⟩ := Option.map_eq_some_iff.mp hread
  exact h.flag option

theorem Nested.parseOptions : ∀ (arguments : List Bytes) {options options' : WorkerOptions},
    Nested options → parseOptions arguments options = some options' → Nested options'
  | [], _, _, h, hparse => Option.some.inj hparse ▸ h
  | [_], _, _, h, hparse => h.readFlag hparse
  | argument :: value :: rest, _, _, h, hparse => by
      rw [Bridge.parseOptions] at hparse
      cases hfind : valueOptions.find? (·.name = argument) with
      | some option =>
          rw [hfind] at hparse
          exact Nested.parseOptions rest (h.value option value) hparse
      | none =>
          rw [hfind] at hparse
          obtain ⟨middle, hread, hrest⟩ := Option.bind_eq_some_iff.mp hparse
          exact Nested.parseOptions (value :: rest) (h.readFlag hread) hrest

theorem nested_of_session {arguments : List Bytes} {options : WorkerOptions}
    (h : runBluetoothWorker arguments = .session options) : Nested options := by
  unfold runBluetoothWorker at h
  split at h
  · cases h
  · next parsed hparse =>
      have hnested : Nested parsed := Nested.parseOptions _ ⟨by decide, by decide⟩ hparse
      split at h
      · split at h <;> cases h
      split at h
      · cases h
      split at h
      · cases h
      · cases h
        exact hnested

/-! ## The accessory is trusted -/

section

variable {options : WorkerOptions} {env : Environment}

theorem SessionStep.isDone {env : SessionEnv} {w w' : SessionWorld} (h : SessionStep env w w')
    (hdone : w.session.isDone = true) : w'.session.isDone = true := by
  have hstage : w.session.stage = .done := by simpa [BootstrapSession.isDone] using hdone
  cases h with
  | buffered decoder => exact hdone
  | ignored message => exact hdone
  | authenticated message signature accepted => rfl
  | begun accepted hidle => simp [hidle] at hstage
  | gaveUp message hawaiting => simp [hstage] at hawaiting
  | identified message first second hawaiting => simp [hawaiting] at hstage
  | challenged message certificate challenge accepted hawaiting => simp [hawaiting] at hstage

theorem SessionSteps.isDone {env : SessionEnv} {w w' : SessionWorld} (h : SessionSteps env w w')
    (hdone : w.session.isDone = true) : w'.session.isDone = true := by
  induction h with
  | refl => exact hdone
  | tail _ hlast ih => exact SessionStep.isDone hlast ih

/-- The session goes by its steps, the probe waits for it, and is done only with a network. -/
structure Trusted (options : WorkerOptions) (env : Environment) (app : DispatchWorld) : Prop where
  steps : SessionSteps env.session .fresh app.session
  first : app.probe.trace ≠ [] → app.session.session.isDone = true
  joined : DoneWhenJoined env options.joinWifi app.probe

namespace Trusted

variable {app app' : DispatchWorld}

theorem session (h : Trusted options env app) {session : SessionWorld}
    (hsteps : SessionSteps env.session app.session session) : Trusted options env { app with session } where
  steps := h.steps.trans hsteps
  first htrace := SessionSteps.isDone hsteps (h.first htrace)
  joined := h.joined

theorem probe (h : Trusted options env app) (hdone : app.session.session.isDone = true) {probe : ProbeWorld}
    (hjoined : DoneWhenJoined env options.joinWifi probe) : Trusted options env { app with probe } where
  steps := h.steps
  first _ := hdone
  joined := hjoined

theorem applied (h : Trusted options env app) {input : SessionInput} {session : SessionWorld}
    (happlied : Outcome (applySession env.session input app.session) session) :
    Trusted options env { app with session } :=
  h.session (steps_applySession h.steps.attached happlied)

/-- The callback of the link. -/
theorem controlData (h : Trusted options env app) {bytes : Bytes}
    (hreceived : Outcome (controlData env.session (probeEnv env) options.carplay bytes app) app') :
    Trusted options env app' := by
  unfold Iap2.controlData at hreceived
  split at hreceived
  · next hdispatch =>
      obtain ⟨-, hdone⟩ := Bool.and_eq_true_iff.mp hdispatch
      obtain ⟨probe, hprobe, happ⟩ := outcome_bind_iff.mp hreceived
      rw [outcome_done_iff.mp happ]
      exact h.probe hdone (h.joined.receiveProbe hprobe)
  · obtain ⟨session, hsession, happ⟩ := outcome_bind_iff.mp hreceived
    rw [outcome_done_iff.mp happ]
    have happlied : Outcome (applySession env.session (.receive bytes) app.session) session := hsession
    exact h.applied happlied

end Trusted

theorem keeps_trusted : Keeps (linkEnv options env) (Trusted options env) := by
  intro callback hcallback bytes app app' h houtcome
  obtain rfl := Option.some.inj hcallback
  exact h.controlData houtcome

theorem trusted_application (options : WorkerOptions) (address : Bytes) :
    Trusted options env (application options address) where
  steps := .refl
  first hne := absurd rfl hne
  joined := by
    unfold application
    cases hwifi : options.joinWifi with
    | true => exact ⟨rfl, fun _ => rfl, nofun⟩
    | false => exact ⟨rfl, nofun, nofun⟩

variable {w : World DispatchWorld}

theorem trusted_beginSession (h : Trusted options env w.app) : Trusted options env (beginSession options env w).app := by
  unfold beginSession
  split
  · next hbegin =>
      refine app_onLink fun app' houtcome => ?_
      obtain ⟨session, hsession, happ⟩ := outcome_bind_iff.mp houtcome
      rw [outcome_done_iff.mp happ]
      have happlied : Outcome (applySession env.session .established w.app.session) session := by
        rw [applySession, if_neg hbegin.2.2]
        exact hsession
      exact h.applied happlied
  · exact h

theorem trusted_beginCarPlay (h : Trusted options env w.app) : Trusted options env (beginCarPlay options env w).app := by
  unfold beginCarPlay
  split
  · next hbegin =>
      refine app_onLink fun app' houtcome => ?_
      obtain ⟨probe, hprobe, happ⟩ := outcome_bind_iff.mp houtcome
      rw [outcome_done_iff.mp happ]
      exact h.probe hbegin.2.1 (h.joined.beginProbe hprobe)
  · exact h

theorem trusted_turnLink (turn : Turn) (h : Trusted options env w.app) :
    Trusted options env (turnLink options env turn w).app := by
  refine trusted_beginCarPlay (trusted_beginSession ?_)
  rw [app_tick]
  cases turn.read with
  | none => exact h
  | some bytes => exact app_receive keeps_trusted turn.now bytes h

theorem trusted_linkLoop (turns : List Turn) (h : Trusted options env w.app) :
    Trusted options env (linkLoop options env turns w).app := by
  induction turns generalizing w with
  | nil => exact h
  | cons turn turns ih =>
      unfold linkLoop
      split
      · split
        · exact h
        · exact ih (trusted_turnLink turn h)
      · exact h

end

/-! ## The course of a session -/

/-- The join effects of the link. -/
def joins (env : Environment) (w : State) : List Effect :=
  (handlerCalls [] w.world.app.probe.trace).map fun call => .join call.2 (env.joining call.1 call.2)

/-- Whether a network was joined. -/
def joinedAny (effects : List Effect) : Bool :=
  effects.any fun effect =>
    match effect with
    | .join _ result => result ≠ .refused
    | _ => false

/-- The accessory's network is left and the hotspot is back. -/
def farewell (options : WorkerOptions) : List Effect :=
  .leaveWifi options.wifiInterface ::
    if options.managementHotspotSsid ≠ [] then
      [.startHotspot options.wifiInterface options.managementHotspotSsid options.managementHotspotPassphrase]
    else []

/-- From the end of the Bluetooth connection on: one attempt, or another one after a failed one,
and the result of the last one. -/
inductive Attempts (host : Bytes) (port : UInt16) : ℤ → List Effect → Prop
  | once (first : ℤ) : Attempts host port first [.disconnect, .airplay host port first]
  | paused (first : ℤ) (hfirst : first ≠ 0) :
      Attempts host port first [.disconnect, .airplay host port first, .pause]
  | twice (first second : ℤ) (hfirst : first ≠ 0) :
      Attempts host port second
        [.disconnect, .airplay host port first, .pause, .airplay host port second]

/-- What comes before the joins, the joins, the result of the worker, and what comes after the
joins. -/
inductive Course (options : WorkerOptions) : List Effect → List Effect → ℤ → List Effect → Prop
  | unpaired : Course options [.pair false] [] 1 []
  | unconnected : Course options [.pair true, .connect false] [] 1 []
  | unattempted (joins : List Effect) (result : ℤ) (hresult : options.bridge = true → result ≠ 0) :
      Course options [.pair true, .connect true] joins result [.disconnect]
  | attempted (joins : List Effect) (host : Bytes) (port : UInt16) (last result : ℤ)
      (later : List Effect) (hbridge : options.bridge = true) (hhost : host ≠ [])
      (hjoined : ∃ configuration endpoint, .join configuration (.joined endpoint) ∈ joins)
      (hattempts : Attempts host port last later) (hresult : result = 0 → last = 0) :
      Course options [.pair true, .connect true] joins result later

/-! ## The worker up to each point -/

/-- What was done before and after the joins. -/
structure Did (options : WorkerOptions) (env : Environment) (opening later : List Effect)
    (w : State) : Prop where
  trusted : Trusted options env w.world.app
  effects : w.effects = opening ++ joins env w ++ later

/-- The link has not been started. -/
structure Opened (options : WorkerOptions) (env : Environment) (opening : List Effect)
    (bluetooth : Bool) (w : State) : Prop extends Did options env opening [] w where
  idle : w.world.app.probe.trace = []
  connection : w.bluetooth = bluetooth

/-- The session has taken its course but for the farewell. -/
def Ended (options : WorkerOptions) (env : Environment) (result : ℤ) (w : State) : Prop :=
  ∃ opening later, Did options env opening later w ∧ Course options opening (joins env w) result later

section

variable {options : WorkerOptions} {env : Environment} {opening later : List Effect} {w : State}

theorem Did.perform (h : Did options env opening later w) (effect : Effect) :
    Did options env opening (later ++ [effect]) (w.perform effect) where
  trusted := h.trusted
  effects := by
    show w.effects ++ [effect] = opening ++ joins env w ++ (later ++ [effect])
    rw [h.effects, List.append_assoc]

theorem Opened.perform {bluetooth : Bool} (h : Opened options env opening bluetooth w) (effect : Effect) :
    Opened options env (opening ++ [effect]) bluetooth (w.perform effect) where
  trusted := h.trusted
  effects := by
    have hnone : joins env (w.perform effect) = [] := by
      show (handlerCalls [] w.world.app.probe.trace).map _ = []
      rw [h.idle]
      rfl
    have hbefore : joins env w = [] := hnone
    show w.effects ++ [effect] = _
    rw [h.effects, hnone, hbefore]
    simp
  idle := h.idle
  connection := h.connection

theorem Opened.joins_nil {bluetooth : Bool} (h : Opened options env opening bluetooth w) :
    joins env w = [] := by
  unfold joins
  rw [h.idle]
  rfl

theorem opened_fresh (options : WorkerOptions) (env : Environment) :
    Opened options env [] false (fresh options) where
  trusted := trusted_application options []
  effects := rfl
  idle := rfl
  connection := rfl

theorem Opened.runLink {bluetooth : Bool} (h : Opened options env opening bluetooth w) (address : Bytes) :
    Did options env opening [] (w.runLink options env address) ∧
      (w.runLink options env address).bluetooth = bluetooth := by
  refine ⟨⟨?_, ?_⟩, h.connection⟩
  · refine trusted_linkLoop env.turns ?_
    rw [app_start]
    exact trusted_application options address
  · show w.effects ++ joins env (w.runLink options env address) = _
    rw [h.effects, h.joins_nil, List.append_nil, List.append_nil, List.append_nil]

theorem Did.close (h : Did options env opening later w) (hopen : w.bluetooth = true) :
    Did options env opening (later ++ [.disconnect]) w.close ∧ w.close.bluetooth = false := by
  have hclose : w.close = { w.perform .disconnect with bluetooth := false } := if_pos hopen
  rw [hclose]
  exact ⟨⟨h.trusted, (h.perform .disconnect).effects⟩, rfl⟩

theorem joined_of_done (h : Did options env opening later w) (hjoins : options.joinWifi = true)
    (hdone : w.probe.done = true) :
    ∃ configuration endpoint, .join configuration (.joined endpoint) ∈ joins env w := by
  obtain ⟨call, hcall, endpoint, hjoined⟩ := h.trusted.joined.done hjoins hdone
  refine ⟨call.2, endpoint, List.mem_map.mpr ⟨call, hcall, ?_⟩⟩
  rw [hjoined]

/-! ## AirPlay -/

/-- After the link: the connection is closed and the probe stays as it is. -/
structure During (options : WorkerOptions) (env : Environment) (before : State) (later : List Effect)
    (w : State) : Prop extends Did options env [.pair true, .connect true] later w where
  world : w.world = before.world
  closed : w.bluetooth = false

theorem During.perform {before : State} (h : During options env before later w) (effect : Effect) :
    During options env before (later ++ [effect]) (w.perform effect) where
  toDid := h.toDid.perform effect
  world := h.world
  closed := h.closed

theorem attempt_does {before : State} {exit : ℤ → State → Prop} (number : ℕ) :
    Scoped.Triple (During options env before later) (attempt env number)
      (fun result w => result = env.airplay number ∧ During options env before
        (later ++ [.airplay before.probe.airplayHost before.probe.airplayPort.toUInt16 result]) w)
      exit := by
  refine Scoped.Triple.update_bind (M := During options env before
    (later ++ [.airplay before.probe.airplayHost before.probe.airplayPort.toUInt16
      (env.airplay number)])) (fun w h => ?_) (Scoped.Triple.pure fun w h => ⟨rfl, h⟩)
  have hprobe : w.probe = before.probe := congrArg (fun world => world.app.probe.probe) h.world
  rw [← hprobe]
  exact h.perform _

/-- The attempts up to a point, and the result of the last one. -/
def Attempted (options : WorkerOptions) (env : Environment) (before : State) (last : ℤ) (w : State) : Prop :=
  ∃ later, During options env before later w ∧
    Attempts before.probe.airplayHost before.probe.airplayPort.toUInt16 last later

theorem retry_does {before : State} {exit : ℤ → State → Prop} {first : ℤ} (hfirst : first ≠ 0) :
    Scoped.Triple
      (During options env before
        [.disconnect, .airplay before.probe.airplayHost before.probe.airplayPort.toUInt16 first])
      (retry env first) (Attempted options env before) exit := by
  refine Scoped.Triple.update_bind (fun w h => h.perform .pause) (Scoped.Triple.ite (fun _ => ?_) fun _ => ?_)
  · exact Scoped.Triple.pure fun w h => ⟨_, h, .paused first hfirst⟩
  · refine (attempt_does 1).weaken (fun w h => h) (fun second w h => ?_) fun _ _ h => h
    exact ⟨_, h.2, .twice first second hfirst⟩

theorem attempts_do {before : State} {exit : ℤ → State → Prop} :
    Scoped.Triple (During options env before [.disconnect]) (attempts env)
      (Attempted options env before) exit := by
  refine Scoped.Triple.bind (attempt_does 0) fun first => ?_
  refine Scoped.Triple.ite (fun hagain => ?_) fun _ => ?_
  · exact (retry_does hagain.1).weaken (fun w h => h.2) (fun _ _ h => h) fun _ _ h => h
  · exact Scoped.Triple.pure fun w h => ⟨_, h.2, .once first⟩

/-- The Bluetooth connection is closed. -/
def Closed (options : WorkerOptions) (env : Environment) (result : ℤ) (w : State) : Prop :=
  w.bluetooth = false ∧ Ended options env result w

theorem During.unattempted {before : State} (h : During options env before [.disconnect] w)
    {result : ℤ} (hresult : options.bridge = true → result ≠ 0) : Closed options env result w :=
  ⟨h.closed, _, _, h.toDid, .unattempted _ _ hresult⟩

theorem Attempted.closed {before : State} {last result : ℤ} (h : Attempted options env before last w)
    (hbridge : options.bridge = true) (hhost : before.probe.airplayHost ≠ [])
    (hjoined : ∃ configuration endpoint, .join configuration (.joined endpoint) ∈ joins env before)
    (hresult : result = 0 → last = 0) : Closed options env result w := by
  obtain ⟨later, hduring, hattempts⟩ := h
  have hjoins : joins env w = joins env before := by
    unfold joins
    rw [hduring.world]
  refine ⟨hduring.closed, _, later, hduring.toDid, ?_⟩
  rw [hjoins]
  exact .attempted _ _ _ last result later hbridge hhost hjoined hattempts hresult

theorem airplayPhase_does {before : State} (hbridge : options.bridge = true)
    (hjoined : ∃ configuration endpoint, .join configuration (.joined endpoint) ∈ joins env before) :
    Scoped.Triple (During options env before [.disconnect]) (airplayPhase env)
      (Closed options env) (Closed options env) := by
  refine Scoped.Triple.read_bind_eq fun probe => Scoped.Triple.unlessLeave_bind (fun hendpoint => ?_)
    fun w h => h.1.unattempted fun _ => by decide
  by_cases hprobe : before.probe = probe
  · subst hprobe
    refine Scoped.Triple.bind (attempts_do.weaken (fun w h => h.1) (fun _ _ h => h) fun _ _ h => h)
      fun last => Scoped.Triple.unlessLeave_bind (fun _ => ?_) fun w h => ?_
    · refine Scoped.Triple.pure fun w h => h.closed hbridge hendpoint.1 hjoined fun hresult => ?_
      by_contra hlast
      simp [hlast] at hresult
    · exact h.closed hbridge hendpoint.1 hjoined nofun
  · intro w h
    have hworld : before.probe = w.probe := congrArg (fun world => world.app.probe.probe) h.1.world.symm
    exact absurd (hworld.trans h.2) hprobe

/-! ## The whole session -/

theorem Closed.close {result : ℤ} (h : Closed options env result w) : Closed options env result w.close := by
  have hclose : w.close = w := by
    unfold State.close
    rw [h.1]
    rfl
  rwa [hclose]

/-- The link has ended and the connection is closed. -/
theorem Opened.link (h : Opened options env [.pair true, .connect true] true w) (address : Bytes) :
    During options env (w.runLink options env address) [.disconnect]
      (w.runLink options env address).close := by
  obtain ⟨hdid, hopen⟩ := h.runLink address
  obtain ⟨hclosed, hbluetooth⟩ := hdid.close hopen
  refine ⟨hclosed, ?_, hbluetooth⟩
  unfold State.close
  rw [if_pos hopen]
  rfl

/-- Without AirPlay the bridge fails. -/
theorem linkResult_ne (hnested : Nested options) (hdone : w.probe.done = false) :
    options.bridge = true → linkResult options w ≠ 0 := by
  intro hbridge
  have hcarplay := hnested.probes (hnested.joins hbridge)
  unfold linkResult
  rw [if_pos hcarplay, hdone]
  decide

/-- What follows the link, when the connection is closed. -/
theorem ending_does (hnested : Nested options) {before : State} (done : Bool) :
    Scoped.Triple (fun w => During options env before [.disconnect] w ∧ w.probe.done = done)
      (if options.bridge ∧ done then airplayPhase env else Scoped.read (linkResult options))
      (Closed options env) (Closed options env) := by
  refine Scoped.Triple.ite (fun hairplay => ?_) fun hlink => ?_
  · intro w h
    have hjoined := joined_of_done h.1.toDid (hnested.joins hairplay.1) (h.2.trans hairplay.2)
    exact airplayPhase_does hairplay.1 hjoined w ⟨h.1.toDid, rfl, h.1.closed⟩
  · intro w h
    refine h.1.unattempted fun hbridge => linkResult_ne hnested ?_ hbridge
    exact h.2.trans (Bool.eq_false_iff.mpr fun hdone => hlink ⟨hbridge, hdone⟩)

theorem connectedPhase_does (hnested : Nested options) :
    Scoped.Triple (Opened options env [.pair true, .connect true] true) (connectedPhase options env)
      (Closed options env) fun result w => Closed options env result w.close := by
  refine Scoped.Triple.ofOption_bind (fun address _ => ?_) fun _ w h => ?_
  · refine Scoped.Triple.update_bind (M := fun w => ∃ before, w = before.runLink options env address ∧
      Opened options env [.pair true, .connect true] true before) (fun w h => ⟨w, rfl, h⟩) ?_
    refine Scoped.Triple.update_bind (M := fun w => ∃ before, During options env before [.disconnect] w)
      ?_ ?_
    · rintro w ⟨before, rfl, h⟩
      exact ⟨_, h.link address⟩
    refine Scoped.Triple.unlessLeave_bind (fun _ => ?_) fun w h => ?_
    · refine Scoped.Triple.read_bind_eq fun done => ?_
      rintro w ⟨⟨before, h⟩, hdone⟩
      exact ((ending_does hnested done).weaken (fun w h => h) (fun _ _ h => h) fun _ _ h => h.close) w
        ⟨h, hdone⟩
    · obtain ⟨before, h⟩ := h
      exact (h.unattempted fun _ => by decide).close
  · obtain ⟨hdid, hclosed⟩ := h.toDid.close h.connection
    exact ⟨hclosed, _, _, hdid, .unattempted _ _ fun _ => by decide⟩

theorem Opened.connect {bluetooth : Bool} (h : Opened options env opening bluetooth w) :
    Opened options env (opening ++ [.connect true]) true w.connect where
  trusted := h.trusted
  effects := (h.perform (.connect true)).effects
  idle := h.idle
  connection := rfl

theorem session_does (hnested : Nested options) :
    Scoped.Triple (Opened options env [] false) (session options env)
      (fun result w => ∃ before, Ended options env result before ∧ w = before.cleanUp options env)
      fun result w => ∃ before, Ended options env result before ∧ w = before.cleanUp options env := by
  refine Scoped.Triple.guarded (I := Ended options env) (L := Ended options env) ?_
    (fun _ w h => ⟨w, h, rfl⟩) fun _ w h => ⟨w, h, rfl⟩
  refine Scoped.Triple.update_bind (M := Opened options env [.pair env.paired] false)
    (fun w h => h.perform (.pair env.paired)) ?_
  cases hpaired : env.paired with
  | false =>
      refine Scoped.Triple.unlessLeave_bind nofun fun w h => ⟨_, _, h.toDid, ?_⟩
      rw [h.joins_nil]
      exact .unpaired
  | true =>
      refine Scoped.Triple.unlessLeave_pass rfl ?_
      cases hconnected : env.connected with
      | false =>
          refine Scoped.Triple.update_bind (M := Opened options env [.pair true, .connect false] false)
            (fun w h => h.perform (.connect false)) ?_
          refine Scoped.Triple.unlessLeave_bind nofun fun w h => ⟨_, _, h.toDid, ?_⟩
          rw [h.joins_nil]
          exact .unconnected
      | true =>
          refine Scoped.Triple.update_bind (M := Opened options env [.pair true, .connect true] true)
            (fun w h => h.connect) (Scoped.Triple.unlessLeave_pass rfl ?_)
          refine Scoped.Triple.guarded (I := fun result w => Closed options env result w.close)
            (L := fun result w => Closed options env result w.close) ?_ (fun _ _ h => h.2) fun _ _ h => h.2
          exact (connectedPhase_does hnested).weaken (fun _ h => h) (fun _ _ h => h.close) fun _ _ h => h

/-- A network was joined, as the destructor sees it, when a join says so. -/
theorem joined_eq (w : State) : w.joined env = joinedAny (joins env w) := by
  unfold State.joined joinedAny joins
  rw [List.any_map]
  rfl

theorem effects_cleanUp (h : Did options env opening later w) :
    (w.cleanUp options env).effects =
      opening ++ joins env w ++ later ++ (if joinedAny (joins env w) then farewell options else []) := by
  rw [← h.effects, ← joined_eq]
  unfold State.cleanUp farewell
  split
  · dsimp only
    split
    · exact List.append_assoc _ _ _
    · rfl
  · exact (List.append_nil _).symm

theorem ended (env : Environment) (hnested : Nested options) :
    ∃ before, Ended options env (outcome options env).1 before ∧
      (outcome options env).2 = before.cleanUp options env :=
  (session_does hnested).run (opened_fresh options env)

/-! A session that succeeds with the second attempt. -/

def sampleArguments : List Bytes :=
  [ascii "aa2acp-iap2-bt", ascii "--bridge", ascii "--mac", ascii "02:00:00:00:00:01",
    ascii "--wifi-interface", ascii "wlan0", ascii "--management-hotspot-ssid", ascii "car"]

def sampleOptions : WorkerOptions where
  address := ascii "02:00:00:00:00:01"
  bootstrap := true
  carplay := true
  wifiConfig := true
  joinWifi := true
  bridge := true
  wifiInterface := ascii "wlan0"
  managementHotspotSsid := ascii "car"

/-- A data frame of the accessory. -/
def dataTurn (sequence acknowledgement : UInt8) (payload : Bytes) : Turn :=
  ⟨false, some (encodeFrame kControlAck sequence acknowledgement kControlSessionId payload), 0⟩

/-- The handshake, the exchange of the bootstrap session and the network. -/
def sampleEnvironment : Environment where
  paired := true
  connected := true
  localAddress := some []
  send _ _ := true
  clock _ := 0
  session := exchangeEnv
  joining _ _ := .joined [1]
  started := 0
  turns :=
    [⟨false, some (encodeFrame kControlSyn 3 0 0 (encodeLsp {})), 0⟩,
      ⟨false, some (encodeFrame kControlAck 3 100 0 []), 0⟩,
      dataTurn 4 101 (encode kIdentificationInformation []),
      dataTurn 5 103 (encodeBytesParameter kAuthenticationCertificate 0 [1]),
      dataTurn 6 104 (encodeBytesParameter kAuthenticationResponse 0 [2]),
      dataTurn 7 106 (encode kAccessoryWifiConfiguration (appendParameter 1 [7] []))]
  shutdownAfterLink := false
  airplay number := if number = 0 then 1 else 0
  shutdownAfterFirst := false
  shutdownAfterPause := false
  shutdownAtEnd := false

theorem runBluetoothWorker_sample : runBluetoothWorker sampleArguments = .session sampleOptions := by
  decide +kernel

theorem effects_sample : (outcome sampleOptions sampleEnvironment).1 = 0 ∧
    (outcome sampleOptions sampleEnvironment).2.effects =
      [.pair true, .connect true, .join ⟨[7], [], 0, 0⟩ (.joined [1]), .disconnect,
        .airplay [1] 7000 1, .pause, .airplay [1] 7000 0, .leaveWifi (ascii "wlan0"),
        .startHotspot (ascii "wlan0") (ascii "car") []] := by
  decide +kernel

/-- Every session of the worker takes this course: it pairs and connects; it joins networks while
the link is up; it closes the connection; as a bridge with a network that was joined it attempts
AirPlay, and once more after a failure; and last, on every way out, the network is left and the
hotspot is back exactly when a network was joined.  A bridge returns 0 only after a good attempt. -/
theorem worker_orderly {arguments : List Bytes} {options : WorkerOptions}
    (h : runBluetoothWorker arguments = .session options) (env : Environment) :
    ∃ opening joins later, Course options opening joins (outcome options env).1 later ∧
      (∀ effect ∈ joins, ∃ configuration result, effect = .join configuration result) ∧
      (outcome options env).2.effects =
        opening ++ joins ++ later ++ (if joinedAny joins then farewell options else []) := by
  obtain ⟨before, ⟨opening, later, hdid, hcourse⟩, hlast⟩ := ended env (nested_of_session h)
  refine ⟨opening, joins env before, later, hcourse, fun effect heffect => ?_, ?_⟩
  · obtain ⟨call, -, rfl⟩ := List.mem_map.mp heffect
    exact ⟨_, _, rfl⟩
  · rw [hlast]
    exact effects_cleanUp hdid

theorem worker_orderly_sample :
    ∃ opening joins later, Course sampleOptions opening joins 0 later ∧
      opening ++ joins ++ later ++ (if joinedAny joins then farewell sampleOptions else []) =
        [.pair true, .connect true, .join ⟨[7], [], 0, 0⟩ (.joined [1]), .disconnect,
          .airplay [1] 7000 1, .pause, .airplay [1] 7000 0, .leaveWifi (ascii "wlan0"),
          .startHotspot (ascii "wlan0") (ascii "car") []] := by
  obtain ⟨opening, joins, later, hcourse, -, heffects⟩ :=
    worker_orderly runBluetoothWorker_sample sampleEnvironment
  rw [effects_sample.1] at hcourse
  rw [effects_sample.2] at heffects
  exact ⟨opening, joins, later, hcourse, heffects.symm⟩

/-! ## Trust -/

theorem world_cleanUp (w : State) : (w.cleanUp options env).world = w.world := by
  unfold State.cleanUp
  dsimp only
  split
  · split <;> rfl
  · rfl

/-- An effect for which the accessory must be trusted. -/
def Effect.trusts : Effect → Bool
  | .pair _ | .connect _ | .disconnect => false
  | .join _ _ | .airplay _ _ _ | .pause | .leaveWifi _ | .startHotspot _ _ _ => true

theorem exists_join {opening joins later : List Effect} {result : ℤ}
    (hcourse : Course options opening joins result later) {effect : Effect}
    (heffect : effect ∈ opening ++ joins ++ later ++ (if joinedAny joins then farewell options else []))
    (htrusts : effect.trusts = true) : joins ≠ [] := by
  rintro rfl
  cases hcourse with
  | unpaired =>
      obtain rfl := List.mem_singleton.mp heffect
      cases htrusts
  | unconnected =>
      rcases List.mem_pair.mp heffect with rfl | rfl <;> cases htrusts
  | unattempted joins result hresult =>
      simp only [joinedAny, List.any_nil, List.append_nil, List.cons_append, List.nil_append,
        Bool.false_eq_true, if_false, List.mem_cons, List.not_mem_nil, or_false] at heffect
      rcases heffect with rfl | rfl | rfl <;> cases htrusts
  | attempted joins host port last result later hbridge hhost hjoined =>
      obtain ⟨_, _, hmem⟩ := hjoined
      cases hmem

/-- Whenever a session does anything but to pair, to connect and to disconnect, the accessory has
been authenticated: it answered the one challenge of this connection with a signature that is good
under its certificate. -/
theorem accessory_trusted {arguments : List Bytes} {options : WorkerOptions}
    (h : runBluetoothWorker arguments = .session options) (env : Environment) {effect : Effect}
    (heffect : effect ∈ (outcome options env).2.effects) (htrusts : effect.trusts = true) :
    Authenticated env.session.verify (outcome options env).2.world.app.session.trace := by
  obtain ⟨before, ⟨opening, later, hdid, hcourse⟩, hlast⟩ := ended env (nested_of_session h)
  rw [hlast, effects_cleanUp hdid] at heffect
  rw [hlast, world_cleanUp]
  have htrace : before.world.app.probe.trace ≠ [] := by
    intro hempty
    refine exists_join hcourse heffect htrusts ?_
    unfold joins
    rw [hempty]
    rfl
  have hdone := hdid.trusted.first htrace
  exact (authenticatedWhenDone_steps hdid.trusted.steps).2.now (by simpa [BootstrapSession.isDone] using hdone)

theorem accessory_trusted_sample :
    Authenticated sampleEnvironment.session.verify
      (outcome sampleOptions sampleEnvironment).2.world.app.session.trace := by
  have hattempt : .airplay [1] 7000 1 ∈ (outcome sampleOptions sampleEnvironment).2.effects := by
    rw [effects_sample.2]
    decide
  exact accessory_trusted runBluetoothWorker_sample sampleEnvironment hattempt rfl

end

end BluetoothWorker
end Bridge
end Aa2acp
