import Aa2acp.Bridge.DaemonHandlers

/-!
# The preflight and its state

The daemon with the workers that it starts: `run_carplay_preflight`, `run_bluetooth_scan`, the
Wi-Fi inventory, and the CarPlay sessions of a preflight or of Android Auto, which
`CarPlayWorker::run` lets in one at a time and which call the hooks of `run_carplay_session`.
Two writers make the preflight state active with no worker to leave it again:
`POST /carplay-prepare` with an incomplete configuration, and the pairing hook in a session
for Android Auto.  In a run without these two the state is active exactly while a preflight
is under way (`preflight_truthful`).
-/

namespace Aa2acp
namespace Bridge
namespace Preflight

open Text Management Thread

/-! ## The workers -/

/-- Where `run_carplay_preflight` is; its session returned a result. -/
inductive Phase where
  | queued
  | searching
  | inSession
  | returned (result : ℤ)
  | finished
deriving DecidableEq, Repr

/-- Whose session it is; a preflight worker has its number. -/
inductive SessionOwner where
  | androidAuto
  | preflight (index : ℕ)
deriving DecidableEq, Repr

/-- The daemon, its preflight workers by the number of their start, how many sections the scan
workers did, and the session that holds the mutex of `CarPlayWorker::run`. -/
structure System where
  pool : Pool Outcome Daemon (Option Response)
  phases : List Phase := []
  scanSections : ℕ := 0
  session : Option SessionOwner := none

/-- What `CarPlayWorker::run` does next. -/
inductive SessionEvent where
  | pairingConfirmation (confirmation : PairingConfirmation)
  | connectionLost
  | returned (result : ℤ)
  /-- A message that it does not know, or none can be sent. -/
  | failed
deriving DecidableEq, Repr

/-- The hook that is called. -/
def SessionEvent.hook : SessionEvent → Snapshot → Snapshot
  | .pairingConfirmation confirmation, snapshot => { snapshot with
      pairingConfirmation := some confirmation
      preflightState := .pairingPrompt
      preflightDetail := ascii "compare the Bluetooth pairing code in the management UI"
      preflightRevision := snapshot.preflightRevision + 1 }
  | .connectionLost, snapshot => { snapshot with pairingConfirmation := none }
  | .returned _, snapshot => { snapshot with pairingConfirmation := none }
  | .failed, snapshot => snapshot

/-- What it returns, if the session is over. -/
def SessionEvent.result? : SessionEvent → Option ℤ
  | .pairingConfirmation _ => none
  | .connectionLost => some 1
  | .returned result => some result
  | .failed => some 1

/-- `set_preflight`. -/
def setPreflight (state : PreflightState) (detail : String) (snapshot : Snapshot) : Snapshot :=
  { snapshot with
    preflightState := state
    preflightDetail := ascii detail
    preflightRevision := snapshot.preflightRevision + 1 }

/-- A section of `run_bluetooth_scan`. -/
def scanSection (number : ℕ) (outcome : Outcome) (snapshot : Snapshot) : Snapshot :=
  match number with
  | 0 => { snapshot with
      bluetoothScanPhaseId := 3, bluetoothScanPhase := ascii "classic discovery in progress" }
  | 1 => snapshot.refreshed outcome.devices outcome.error
  | _ => { snapshot with
      bluetoothScanRunning := false
      bluetoothScanPhaseId := 4
      bluetoothScanPhase := ascii "last discovery completed" }

inductive Event where
  /-- A request, or the next section of one. -/
  | request (event : PoolEvent Bytes Outcome)
  | scan (outcome : Outcome)
  | refreshWifi (interfaces : List Bytes)
  /-- The next section of a preflight worker. -/
  | preflight (index : ℕ)
  /-- A session for Android Auto, with the configuration that was read for it. -/
  | androidAuto (config : Config)
  | session (event : SessionEvent)

namespace System

variable (p : System)

def snapshot : Snapshot := p.pool.state.snapshot

def modify (f : Snapshot → Snapshot) : System :=
  { p with pool := { p.pool with state := { p.pool.state with snapshot := f p.pool.state.snapshot } } }

def setPhase (index : ℕ) (phase : Phase) : System := { p with phases := p.phases.set index phase }

/-- The mutex is free again, and a preflight worker has the result. -/
def endSession (result : ℤ) : System :=
  match p.session with
  | some (.preflight index) => { p.setPhase index (.returned result) with session := none }
  | _ => { p with session := none }

def step (env : DaemonEnv) : Event → System → Option System
  | .request event, p =>
      (p.pool.step (handleClient env) event).bind fun pool =>
        if pool.state.preflights.length = p.phases.length then some { p with pool := pool }
        -- the thread object is assigned to after `join`
        else if ∀ phase ∈ p.phases, phase = .finished then
          some { p with pool := pool, phases := p.phases ++ [.queued] }
        else none
  | .scan outcome, p =>
      if p.scanSections < 3 * p.pool.state.scans then
        some (({ p with scanSections := p.scanSections + 1 } : System).modify
          (scanSection (p.scanSections % 3) outcome))
      else none
  | .refreshWifi interfaces, p =>
      some (p.modify fun snapshot =>
        if interfaces = [] then snapshot else { snapshot with wifiInterfaces := interfaces })
  | .preflight index, p =>
      match p.phases[index]?, p.pool.state.preflights[index]? with
      | some .queued, some _ =>
          some ((p.setPhase index .searching).modify
            (setPreflight .discovering "searching for the head unit over Bluetooth"))
      | some .searching, some config =>
          if config.headUnitMac = [] then some (p.setPhase index (.returned 2))
          else if p.session = none then
            some { p.setPhase index .inSession with session := some (.preflight index) }
          else none
      | some (.returned result), some _ =>
          some ((p.setPhase index .finished).modify
            (if result = 0 then setPreflight .succeeded "display test completed"
            else setPreflight .failed "failed (see daemon log for details)"))
      | _, _ => none
  | .androidAuto config, p =>
      if p.session = none ∧ config.headUnitMac ≠ [] ∧ config.wifiInterface ≠ [] then
        some { p with session := some .androidAuto }
      else none
  | .session event, p =>
      if p.session = none then none
      else
        match event.result? with
        | none => some (p.modify event.hook)
        | some result => some ((p.modify event.hook).endSession result)

/-- The daemon when it begins to serve requests. -/
def start (s : Daemon) : System := { pool := ⟨s, []⟩ }

/-- `preflight_active` of the snapshot. -/
def Active : Prop := p.snapshot.preflightState.Active

instance : Decidable p.Active := inferInstanceAs (Decidable (PreflightState.Active _))

/-- A preflight worker was started and has not finished. -/
def Running : Prop := ∃ phase ∈ p.phases, phase ≠ .finished

instance : Decidable p.Running := inferInstanceAs (Decidable (∃ phase ∈ p.phases, phase ≠ .finished))

end System

/-! ## The request that starts a preflight -/

/-- What `POST /carplay-prepare` does once it has told the snapshot, or not. -/
def prepareAfter (selected : Config) (start : Bool) : Handler Response := do
  if start ∧ selected.headUnitMac ≠ [] ∧ selected.wifiInterface ≠ [] then
    startPreflight selected
    pure (.seeOther "/")
  else
    showDetail fun snapshot =>
      if snapshot.bluetoothScanRunning then "wait for Bluetooth scanning to finish first"
      else "configure a head-unit MAC and Wi-Fi interface first"
    if selected.headUnitMac = [] ∨ selected.wifiInterface = [] then
      pure (.seeOther "/?carplay_error=1")
    else pure (.seeOther "/")

/-- The same request with the configuration that it has read. -/
def prepareWith (selected : Config) : Handler Response :=
  withSnapshot beginPreflight >>= prepareAfter selected

theorem handleCarplayPrepare_eq : handleCarplayPrepare = readConfig >>= prepareWith := rfl

/-- A request that is about to tell the snapshot. -/
def preparing (selected : Config) : Handler (Option Response) :=
  prepareWith selected >>= fun response => pure (some response)

/-- A request that has told the snapshot and is about to start the worker. -/
def starting (selected : Config) : Handler (Option Response) :=
  startPreflight selected >>= fun _ => pure (some (.seeOther "/"))

/-- A request is about to start a worker. -/
def System.Starting (p : System) : Prop :=
  ∃ (index : ℕ) (selected : Config), p.pool.threads[index]? = some (starting selected)

/-- The step does not make the state active with no worker to leave it: a request that finds it
not active, and no scan running, has a complete configuration, and in a session for Android Auto
the hook finds it active. -/
def Meets (event : Event) (p : System) : Prop :=
  match event with
  | .request (.advance index _) => ∀ selected, p.pool.threads[index]? = some (preparing selected) →
      ¬ p.Active → ¬ p.snapshot.bluetoothScanRunning →
        selected.headUnitMac ≠ [] ∧ selected.wifiInterface ≠ []
  | .session (.pairingConfirmation _) => p.session = some .androidAuto → p.Active
  | _ => True

/-! ## What the requests do to it -/

theorem ignoresUpdates_samePreflight : IgnoresUpdates SamePreflight where
  settings _ _ _ _ _ _ := ⟨rfl, rfl⟩
  updates _ _ _ _ _ _ _ _ _ := ⟨rfl, rfl⟩

/-! ## The request that begins a preflight -/

theorem withinUntil_dispatchSetUp (env : DaemonEnv) (id : ℕ) (request body : Bytes) :
    WithinUntil SamePreflight (fun t => ∃ selected, t = prepareWith selected)
      (dispatchSetUp env id request body) := by
  unfold dispatchSetUp
  split
  · rw [handleCarplayPrepare_eq]
    refine ((within_readConfig SamePreflight.refl).until fun _ => False).bind (fun _ h => h.elim) ?_
    exact fun selected => withinUntil_of_goal ⟨selected, rfl⟩
  split
  · exact (preflight_of_unaffected (within_handleBluetoothConfirm body)).until _
  split
  · exact (preflight_of_unaffected (within_handleHeadUnitForget env)).until _
  split
  · exact (preflight_of_unaffected within_handleScan).until _
  split
  · exact (preflight_of_unaffected (within_handleDisplay body)).until _
  split
  · exact (ignoresUpdates_samePreflight.within_handleConfig env id body fun _ _ =>
      preflight_of_unaffected (within_configSaved env _ _)).until _
  · exact (within_pure _).until _

theorem withinUntil_dispatch (env : DaemonEnv) (id : ℕ) (request body : Bytes) :
    WithinUntil SamePreflight (fun t => ∃ selected, t = prepareWith selected)
      (dispatch env id request body) := by
  refine dispatch_cases (fun t hread => (hread.mono samePreflight_of_eq).until _)
    (fun _ => (ignoresUpdates_samePreflight.within_handleManagementHotspot id body).until _)
    (fun _ => (ignoresUpdates_samePreflight.within_handleManagementHotspotApply id).until _) ?_
  refine ((within_readConfig SamePreflight.refl).until fun _ => False).bind (fun _ h => h.elim) ?_
  intro config
  split
  · exact (within_pure _).until _
  · exact withinUntil_dispatchSetUp env id request body

/-- The request has not told the snapshot that a preflight begins, or has nothing more to do
with it. -/
def Apart (t : Handler (Option Response)) : Prop :=
  WithinUntil SamePreflight (fun t => ∃ selected, t = preparing selected) t

theorem apart_handleClient (env : DaemonEnv) (id : ℕ) (request : Bytes) :
    Apart (handleClient env id request) := by
  unfold handleClient
  split
  · refine (withinUntil_dispatch env id request _).bind ?_ fun response => (within_pure _).until _
    rintro _ ⟨selected, rfl⟩
    exact ⟨selected, rfl⟩
  · exact (within_pure _).until _
  · exact (within_pure _).until _

theorem preparing_eq (selected : Config) :
    preparing selected =
      .atomic (fun _ => true) (fun _ s => { s with snapshot := (beginPreflight s.snapshot).2 })
        (fun _ s => prepareAfter selected (beginPreflight s.snapshot).1 >>= fun response =>
          pure (some response)) := rfl

theorem starting_eq (selected : Config) :
    starting selected =
      .atomic (fun _ => true) (fun _ s => { s with preflights := s.preflights ++ [selected] })
        (fun _ _ => .done (some (.seeOther "/"))) := rfl

theorem prepareAfter_of_complete {selected : Config}
    (h : selected.headUnitMac ≠ [] ∧ selected.wifiInterface ≠ []) :
    (prepareAfter selected true >>= fun response => pure (some response)) = starting selected := by
  rw [prepareAfter, if_pos ⟨rfl, h⟩]
  rfl

theorem within_prepareAfter {selected : Config} {start : Bool}
    (h : ¬ (start = true ∧ selected.headUnitMac ≠ [] ∧ selected.wifiInterface ≠ [])) :
    Within SamePreflight (prepareAfter selected start >>= fun response => pure (some response)) := by
  rw [prepareAfter, if_neg h]
  refine Within.bind ((preflight_of_unaffected (within_showDetail _)).bind fun _ => ?_)
    fun _ => within_pure _
  split <;> exact within_pure _

theorem beginPreflight_of_true {snapshot : Snapshot} (h : (beginPreflight snapshot).1 = true) :
    (¬ snapshot.preflightState.Active ∧ ¬ snapshot.bluetoothScanRunning) ∧
      (beginPreflight snapshot).2.preflightState = .discovering := by
  unfold beginPreflight at h ⊢
  split at h
  · rename_i hidle
    rw [if_pos hidle]
    exact ⟨hidle, rfl⟩
  · cases h

theorem beginPreflight_of_false {snapshot : Snapshot} (h : (beginPreflight snapshot).1 = false) :
    (beginPreflight snapshot).2 = snapshot := by
  unfold beginPreflight at h ⊢
  split at h
  · cases h
  · rename_i hbusy
    rw [if_neg hbusy]

/-! ## Who leaves the active state -/

inductive Keeper where
  | request (index : ℕ)
  | worker (index : ℕ)
deriving DecidableEq

/-- While the state is active there is one keeper who will leave it: a request that is about to
start a worker, or a worker that has not finished. -/
structure Kept (keeper : Option Keeper) (p : System) : Prop where
  started : p.phases.length = p.pool.state.preflights.length
  active : p.Active ↔ keeper ≠ none
  request : ∀ index, keeper = some (.request index) →
    ∃ selected, p.pool.threads[index]? = some (starting selected)
  apart : ∀ index t, p.pool.threads[index]? = some t → keeper ≠ some (.request index) → Apart t
  worker : ∀ index, keeper = some (.worker index) →
    ∃ phase, p.phases[index]? = some phase ∧ phase ≠ .finished
  finished : ∀ index phase, p.phases[index]? = some phase → keeper ≠ some (.worker index) →
    phase = .finished

/-- A worker is in its session exactly when the session is its own. -/
def InTurn (p : System) : Prop :=
  ∀ index, p.session = some (.preflight index) ↔ p.phases[index]? = some .inSession

section

variable {env : DaemonEnv} {keeper : Option Keeper} {p p' : System}

theorem kept_start {s : Daemon} (hidle : ¬ s.snapshot.preflightState.Active) (hnone : s.preflights = []) :
    Kept none (System.start s) where
  started := by rw [System.start, hnone]; rfl
  active := ⟨fun hactive => absurd hactive hidle, fun h => absurd rfl h⟩
  request index h := by cases h
  apart index t h := by cases h
  worker index h := by cases h
  finished index phase h := by cases h

theorem Kept.modify (h : Kept keeper p) {f : Snapshot → Snapshot}
    (hf : (f p.snapshot).preflightState.Active ↔ p.Active) : Kept keeper (p.modify f) :=
  { h with active := hf.trans h.active }

/-- A worker that is not finished is the keeper. -/
theorem Kept.keeper_eq (h : Kept keeper p) {index : ℕ} {phase : Phase}
    (hphase : p.phases[index]? = some phase) (hne : phase ≠ .finished) :
    keeper = some (.worker index) := by
  by_contra hkeeper
  exact hne (h.finished index phase hphase hkeeper)

/-- A section of a request that has nothing to do with the preflight. -/
theorem Kept.advance_apart (h : Kept keeper p) {index : ℕ} {s : Daemon} {t : Handler (Option Response)}
    (hkeeper : keeper ≠ some (.request index)) (hsame : SamePreflight p.pool.state s) (ht : Apart t) :
    Kept keeper { p with pool := ⟨s, p.pool.threads.set index t⟩ } where
  started := by rw [h.started, hsame.2]
  active := by
    rw [← h.active]
    show s.snapshot.preflightState.Active ↔ p.pool.state.snapshot.preflightState.Active
    rw [hsame.1]
  request other hother := by
    obtain ⟨selected, hthread⟩ := h.request other hother
    have hne : index ≠ other := by
      rintro rfl
      exact hkeeper hother
    exact ⟨selected, by rw [List.getElem?_set_ne hne, hthread]⟩
  apart other t' hother hne := by
    rw [List.getElem?_set] at hother
    split at hother
    · split at hother
      · cases hother
        exact ht
      · cases hother
    · exact h.apart other t' hother hne
  worker := h.worker
  finished := h.finished

/-- The section that tells the snapshot that a preflight begins. -/
theorem Kept.advance_begin (h : Kept keeper p) {index : ℕ} {selected : Config} {snapshot : Snapshot}
    (hidle : ¬ p.Active) (hlt : index < p.pool.threads.length) (hactive : snapshot.preflightState.Active) :
    Kept (some (.request index)) { p with
      pool := ⟨{ p.pool.state with snapshot := snapshot }, p.pool.threads.set index (starting selected)⟩ } := by
  obtain rfl : keeper = none := by
    by_contra hne
    exact hidle (h.active.mpr hne)
  exact {
    started := h.started
    active := ⟨fun _ => by simp, fun _ => hactive⟩
    request := by
      rintro other hother
      cases hother
      exact ⟨selected, List.getElem?_set_self hlt⟩
    apart := by
      intro other t hother hne
      rw [List.getElem?_set_ne (by rintro rfl; exact hne rfl)] at hother
      exact h.apart other t hother (by simp)
    worker := by
      intro other hother
      cases hother
    finished := fun other phase hphase _ => h.finished other phase hphase (by simp) }

/-- The section that starts the worker. -/
theorem Kept.advance_start {index : ℕ} (h : Kept (some (.request index)) p) (selected : Config)
    (response : Option Response) :
    Kept (some (.worker p.phases.length)) { p with
      pool := ⟨{ p.pool.state with preflights := p.pool.state.preflights ++ [selected] },
        p.pool.threads.set index (.done response)⟩
      phases := p.phases ++ [.queued] } where
  started := by simp [h.started]
  active := ⟨fun _ => by simp, fun _ => h.active.mpr (by simp)⟩
  request other hother := by cases hother
  apart other t hother _ := by
    rw [List.getElem?_set] at hother
    split at hother
    · split at hother
      · cases hother
        exact trivial
      · cases hother
    · rename_i hne
      refine h.apart other t hother ?_
      rintro ⟨⟩
      exact hne rfl
  worker other hother := by
    cases hother
    exact ⟨.queued, by simp, by simp⟩
  finished other phase hphase hne := by
    have hlt : other < p.phases.length := by
      have hle := (List.getElem?_eq_some_iff.mp hphase).1
      rw [List.length_append, List.length_singleton] at hle
      have hother : other ≠ p.phases.length := by
        rintro rfl
        exact hne rfl
      omega
    rw [List.getElem?_append_left hlt] at hphase
    exact h.finished other phase hphase (by simp)

theorem Kept.arrive (h : Kept keeper p) (request : Bytes) :
    Kept keeper { p with pool := { p.pool with
      threads := p.pool.threads ++ [handleClient env p.pool.threads.length request] } } where
  started := h.started
  active := h.active
  request index hindex := by
    obtain ⟨selected, hthread⟩ := h.request index hindex
    exact ⟨selected, by rw [List.getElem?_append_left (List.getElem?_eq_some_iff.mp hthread).1, hthread]⟩
  apart index t ht hne := by
    rcases Nat.lt_or_ge index p.pool.threads.length with hlt | hge
    · rw [List.getElem?_append_left hlt] at ht
      exact h.apart index t ht hne
    · rw [List.getElem?_append_right hge] at ht
      obtain rfl := List.mem_singleton.mp (List.mem_of_getElem? ht)
      exact apart_handleClient env _ request
  worker := h.worker
  finished := h.finished

/-- The section in which `POST /carplay-prepare` looks whether a preflight can begin. -/
theorem Kept.prepare (h : Kept keeper p) {index : ℕ} {selected : Config}
    (hlt : index < p.pool.threads.length) (hkeeper : keeper ≠ some (.request index))
    (hcomplete : ¬ p.Active → ¬ p.snapshot.bluetoothScanRunning →
      selected.headUnitMac ≠ [] ∧ selected.wifiInterface ≠ []) :
    ∃ keeper', Kept keeper' { p with
      pool := ⟨{ p.pool.state with snapshot := (beginPreflight p.snapshot).2 },
        p.pool.threads.set index (prepareAfter selected (beginPreflight p.snapshot).1 >>= fun response =>
          pure (some response))⟩ } := by
  cases hstart : (beginPreflight p.snapshot).1 with
  | true =>
      obtain ⟨⟨hidle, hscan⟩, hdiscovering⟩ := beginPreflight_of_true hstart
      rw [prepareAfter_of_complete (hcomplete hidle hscan)]
      exact ⟨_, h.advance_begin hidle hlt (Or.inl hdiscovering)⟩
  | false =>
      rw [beginPreflight_of_false hstart]
      refine ⟨keeper, h.advance_apart hkeeper (SamePreflight.refl _) ?_⟩
      exact (within_prepareAfter (by simp)).until _

/-- The section of a request. -/
theorem Kept.advance (h : Kept keeper p) {index : ℕ} {answer : Outcome}
    (hmeets : Meets (.request (.advance index answer)) p)
    (hstep : System.step env (.request (.advance index answer)) p = some p') :
    ∃ keeper', Kept keeper' p' := by
  obtain ⟨pool, hpool, hstep⟩ := Option.bind_eq_some_iff.mp hstep
  obtain ⟨ready, effect, next, hthread, -, rfl⟩ := Pool.step_advance hpool
  have hlt : index < p.pool.threads.length := (List.getElem?_eq_some_iff.mp hthread).1
  -- the workers are looked at once it is known which section it is
  have hsame : (effect answer p.pool.state).preflights = p.pool.state.preflights →
      p' = { p with pool :=
        ⟨effect answer p.pool.state, p.pool.threads.set index (next answer p.pool.state)⟩ } := by
    intro hpreflights
    rw [if_pos (by rw [hpreflights, h.started])] at hstep
    exact (Option.some.inj hstep).symm
  by_cases hkeeper : keeper = some (.request index)
  · subst hkeeper
    obtain ⟨selected, hselected⟩ := h.request index rfl
    rw [hthread, starting_eq] at hselected
    cases hselected
    rw [if_neg (by simp [h.started])] at hstep
    split at hstep
    · cases hstep
      exact ⟨_, h.advance_start selected _⟩
    · cases hstep
  · rcases h.apart index _ hthread hkeeper with ⟨selected, hselected⟩ | hapart
    · have hbegins := hmeets selected (hselected ▸ hthread)
      rw [preparing_eq] at hselected
      cases hselected
      rw [hsame rfl]
      exact h.prepare hlt hkeeper hbegins
    · obtain ⟨hpreflight, hnext⟩ := hapart p.pool.state answer
      rw [hsame hpreflight.2]
      exact ⟨keeper, h.advance_apart hkeeper hpreflight hnext⟩

/-- A worker goes on without coming to its end. -/
theorem Kept.setPhase {index : ℕ} {phase : Phase} (h : Kept (some (.worker index)) p)
    (hphase : phase ≠ .finished) : Kept (some (.worker index)) (p.setPhase index phase) where
  started := by rw [System.setPhase, List.length_set, h.started]
  active := h.active
  request := h.request
  apart := h.apart
  worker other hother := by
    cases hother
    obtain ⟨before, hbefore, -⟩ := h.worker index rfl
    exact ⟨phase, List.getElem?_set_self (List.getElem?_eq_some_iff.mp hbefore).1, hphase⟩
  finished other phase' hother hne := by
    rw [System.setPhase, List.getElem?_set_ne (by rintro rfl; exact hne rfl)] at hother
    exact h.finished other phase' hother hne

/-- A worker comes to its end. -/
theorem Kept.finish {index : ℕ} {f : Snapshot → Snapshot} (h : Kept (some (.worker index)) p)
    (hf : ¬ (f p.snapshot).preflightState.Active) :
    Kept none ((p.setPhase index .finished).modify f) where
  started := by
    rw [System.modify, System.setPhase, List.length_set, h.started]
  active := ⟨fun hactive => absurd hactive hf, fun hne => absurd rfl hne⟩
  request other hother := by cases hother
  apart other t hother _ := h.apart other t hother (by simp)
  worker other hother := by cases hother
  finished other phase hother _ := by
    rw [System.modify, System.setPhase, List.getElem?_set] at hother
    split at hother
    · split at hother
      · exact (Option.some.inj hother).symm
      · cases hother
    · rename_i hne
      refine h.finished other phase hother ?_
      rintro ⟨⟩
      exact hne rfl

/-- The section of a worker. -/
theorem Kept.preflight (h : Kept keeper p) {index : ℕ}
    (hstep : System.step env (.preflight index) p = some p') : ∃ keeper', Kept keeper' p' := by
  simp only [System.step] at hstep
  split at hstep
  · rename_i hphase hconfig
    obtain rfl := h.keeper_eq hphase (by simp)
    cases hstep
    refine ⟨_, (h.setPhase (by simp)).modify ?_⟩
    exact iff_of_true (Or.inl rfl) (h.active.mpr (by simp))
  · rename_i hphase hconfig
    obtain rfl := h.keeper_eq hphase (by simp)
    split at hstep
    · cases hstep
      exact ⟨_, h.setPhase (by simp)⟩
    · split at hstep
      · cases hstep
        exact ⟨_, { h.setPhase (show Phase.inSession ≠ .finished by simp) with }⟩
      · cases hstep
  · rename_i result _ hphase hconfig
    obtain rfl := h.keeper_eq hphase (by simp)
    cases hstep
    refine ⟨_, h.finish ?_⟩
    split <;> simp [setPreflight, PreflightState.Active]
  · cases hstep

theorem scanSection_preflightState (number : ℕ) (outcome : Outcome) (snapshot : Snapshot) :
    (scanSection number outcome snapshot).preflightState = snapshot.preflightState := by
  unfold scanSection
  split
  · rfl
  · exact leavesPreflight_refreshed _ _ _
  · rfl

/-- A session ends; a preflight worker goes on with the result. -/
theorem Kept.endSession (h : Kept keeper p) (hturn : InTurn p) (result : ℤ) :
    Kept keeper (p.endSession result) := by
  unfold System.endSession
  split
  · rename_i index hsession
    obtain rfl := h.keeper_eq ((hturn index).mp hsession) (by simp)
    exact { h.setPhase (show Phase.returned result ≠ .finished by simp) with }
  · exact { h with }

/-- A hook keeps the state active or not, but for the pairing hook, which makes it active. -/
theorem SessionEvent.hook_active (event : SessionEvent) (snapshot : Snapshot)
    (h : ∀ confirmation, event = .pairingConfirmation confirmation → snapshot.preflightState.Active) :
    (event.hook snapshot).preflightState.Active ↔ snapshot.preflightState.Active := by
  cases event with
  | pairingConfirmation confirmation => exact iff_of_true (Or.inr (Or.inl rfl)) (h confirmation rfl)
  | connectionLost => exact Iff.rfl
  | returned result => exact Iff.rfl
  | failed => exact Iff.rfl

/-- What a session does. -/
theorem Kept.session (h : Kept keeper p) (hturn : InTurn p) {event : SessionEvent}
    (hmeets : Meets (.session event) p) (hstep : System.step env (.session event) p = some p') :
    Kept keeper p' := by
  have hhook : Kept keeper (p.modify event.hook) := by
    refine h.modify (event.hook_active p.snapshot ?_)
    rintro confirmation rfl
    cases howner : p.session with
    | none => simp [System.step, howner] at hstep
    | some owner =>
        cases owner with
        | androidAuto => exact hmeets howner
        | preflight index =>
            refine h.active.mpr ?_
            rw [h.keeper_eq ((hturn index).mp howner) (by simp)]
            simp
  simp only [System.step] at hstep
  split at hstep
  · cases hstep
  · split at hstep
    · cases hstep
      exact hhook
    · cases hstep
      exact hhook.endSession hturn _

theorem Kept.step (h : Kept keeper p) (hturn : InTurn p) {event : Event} (hmeets : Meets event p)
    (hstep : System.step env event p = some p') : ∃ keeper', Kept keeper' p' := by
  cases event with
  | request event =>
      cases event with
      | arrive request =>
          simp only [System.step, Pool.step, Option.bind_some, h.started, if_pos] at hstep
          cases hstep
          exact ⟨keeper, h.arrive request⟩
      | advance index answer => exact h.advance hmeets hstep
  | scan outcome =>
      simp only [System.step] at hstep
      split at hstep
      · cases hstep
        have hnext : Kept keeper { p with scanSections := p.scanSections + 1 } := { h with }
        refine ⟨keeper, hnext.modify ?_⟩
        rw [scanSection_preflightState]
        exact Iff.rfl
      · cases hstep
  | refreshWifi interfaces =>
      cases hstep
      refine ⟨keeper, h.modify ?_⟩
      split <;> exact Iff.rfl
  | preflight index => exact h.preflight hstep
  | androidAuto config =>
      simp only [System.step] at hstep
      split at hstep
      · cases hstep
        exact ⟨keeper, { h with }⟩
      · cases hstep
  | session event => exact ⟨keeper, h.session hturn hmeets hstep⟩

/-! ## Whose turn it is -/

theorem inTurn_start (s : Daemon) : InTurn (System.start s) := by
  intro index
  simp [System.start]

theorem InTurn.setPhase (h : InTurn p) {index : ℕ} {before phase : Phase}
    (hbefore : p.phases[index]? = some before) (hturn : before ≠ .inSession) (hphase : phase ≠ .inSession) :
    InTurn (p.setPhase index phase) := by
  intro other
  have hlt : index < p.phases.length := (List.getElem?_eq_some_iff.mp hbefore).1
  rw [System.setPhase, h other]
  by_cases heq : index = other
  · subst heq
    rw [List.getElem?_set_self hlt, hbefore]
    simp [hturn, hphase]
  · rw [List.getElem?_set_ne heq]

/-- A worker begins its session. -/
theorem InTurn.enter (h : InTurn p) (hfree : p.session = none) {index : ℕ} (hlt : index < p.phases.length) :
    InTurn { p.setPhase index .inSession with session := some (.preflight index) } := by
  intro other
  by_cases heq : index = other
  · subst heq
    simp [System.setPhase, hlt]
  · have hnot := (h other).not.mp (by simp [hfree])
    simp [System.setPhase, heq, hnot]

theorem InTurn.endSession (h : InTurn p) (result : ℤ) : InTurn (p.endSession result) := by
  unfold System.endSession
  split
  · rename_i index hsession
    intro other
    by_cases heq : index = other
    · subst heq
      simp [System.setPhase, List.getElem?_set]
    · have hnot := (h other).not.mp (by simp [hsession, heq])
      simp [System.setPhase, heq, hnot]
  · rename_i hnot
    intro other
    have hother := (h other).not.mp (hnot other)
    simp [hother]

theorem InTurn.step (h : InTurn p) {event : Event} (hstep : System.step env event p = some p') :
    InTurn p' := by
  cases event with
  | request event =>
      obtain ⟨pool, -, hstep⟩ := Option.bind_eq_some_iff.mp hstep
      split at hstep
      · cases hstep
        exact h
      · split at hstep
        · cases hstep
          intro index
          rw [h index, List.getElem?_append]
          split
          · exact Iff.rfl
          · rename_i hge
            rw [List.getElem?_eq_none (not_lt.mp hge)]
            refine iff_of_false (by simp) fun hlast => ?_
            cases List.mem_singleton.mp (List.mem_of_getElem? hlast)
        · cases hstep
  | scan outcome =>
      simp only [System.step] at hstep
      split at hstep
      · cases hstep
        exact h
      · cases hstep
  | refreshWifi interfaces =>
      cases hstep
      exact h
  | preflight index =>
      simp only [System.step] at hstep
      split at hstep
      · rename_i hphase hconfig
        cases hstep
        exact h.setPhase hphase (by simp) (by simp)
      · rename_i hphase hconfig
        split at hstep
        · cases hstep
          exact h.setPhase hphase (by simp) (by simp)
        · split at hstep
          · rename_i hfree
            cases hstep
            exact h.enter hfree (List.getElem?_eq_some_iff.mp hphase).1
          · cases hstep
      · rename_i hphase hconfig
        cases hstep
        exact h.setPhase hphase (by simp) (by simp)
      · cases hstep
  | androidAuto config =>
      simp only [System.step] at hstep
      split at hstep
      · rename_i hfree
        cases hstep
        intro index
        have hnot := (h index).not.mp (by simp [hfree.1])
        simp [hnot]
      · cases hstep
  | session event =>
      simp only [System.step] at hstep
      split at hstep
      · cases hstep
      · split at hstep
        · cases hstep
          exact h
        · cases hstep
          exact InTurn.endSession (p := p.modify event.hook) h _

/-! ## The way out of the active state -/

/-- A step of a worker or of a session. -/
def Event.IsWork (event : Event) : Prop :=
  (∃ index, event = .preflight index) ∨ ∃ session, event = .session session

/-- The workers and the sessions can get to a state that is not active. -/
def Leaves (env : DaemonEnv) (p : System) : Prop :=
  ∃ events p', (∀ event ∈ events, Event.IsWork event) ∧
    Machine.run (System.step env) events p = some p' ∧ ¬ p'.Active

theorem Leaves.of_step {event : Event} (h : Leaves env p') (hwork : event.IsWork)
    (hstep : System.step env event p = some p') : Leaves env p := by
  obtain ⟨events, last, hevents, hrun, hleft⟩ := h
  exact ⟨event :: events, last, List.forall_mem_cons.mpr ⟨hwork, hevents⟩,
    Machine.run_cons_eq_some.mpr ⟨p', hstep, hrun⟩, hleft⟩

theorem Leaves.of_preflight (h : Leaves env p') {index : ℕ}
    (hstep : System.step env (.preflight index) p = some p') : Leaves env p :=
  h.of_step (Or.inl ⟨index, rfl⟩) hstep

theorem Leaves.of_session (h : Leaves env p') {event : SessionEvent}
    (hstep : System.step env (.session event) p = some p') : Leaves env p :=
  h.of_step (Or.inr ⟨event, rfl⟩) hstep

/-- The worker with this number and configuration is there. -/
structure At (p : System) (index : ℕ) (config : Config) (phase : Phase) : Prop where
  config : p.pool.state.preflights[index]? = some config
  phase : p.phases[index]? = some phase

section Worker

variable {index : ℕ} {config : Config} {phase : Phase} {result : ℤ}

theorem At.setPhase (h : At p index config phase) (next : Phase) :
    At (p.setPhase index next) index config next where
  config := h.config
  phase := List.getElem?_set_self (List.getElem?_eq_some_iff.mp h.phase).1

theorem At.endSession_self (h : At p index config phase) (hsession : p.session = some (.preflight index))
    (result : ℤ) : At (p.endSession result) index config (.returned result) := by
  have hnext := h.setPhase (.returned result)
  rw [System.endSession, hsession]
  exact ⟨hnext.config, hnext.phase⟩

theorem At.endSession_other (h : At p index config phase) (hsession : p.session ≠ some (.preflight index))
    (result : ℤ) : At (p.endSession result) index config phase := by
  unfold System.endSession
  split
  · rename_i other hother
    refine ⟨h.config, ?_⟩
    show (p.phases.set other (.returned result))[index]? = some phase
    rw [List.getElem?_set_ne (by rintro rfl; exact hsession hother), h.phase]
  · exact ⟨h.config, h.phase⟩

theorem endSession_session (p : System) (result : ℤ) : (p.endSession result).session = none := by
  unfold System.endSession
  split <;> rfl

theorem step_failed (h : p.session ≠ none) :
    System.step env (.session .failed) p = some (p.endSession 1) := if_neg h

theorem At.leaves_returned (h : At p index config (.returned result)) : Leaves env p := by
  let f := if result = 0 then setPreflight .succeeded "display test completed"
    else setPreflight .failed "failed (see daemon log for details)"
  have hstep : System.step env (.preflight index) p = some ((p.setPhase index .finished).modify f) := by
    simp only [System.step, h.phase, h.config]
    rfl
  have hleft : ¬ ((p.setPhase index .finished).modify f).Active := by
    show ¬ (f p.snapshot).preflightState.Active
    simp only [f]
    split <;> simp [setPreflight, PreflightState.Active]
  exact Leaves.of_preflight ⟨[], _, by simp, rfl, hleft⟩ hstep

theorem At.leaves_inSession (h : At p index config .inSession)
    (hsession : p.session = some (.preflight index)) : Leaves env p :=
  (h.endSession_self hsession 1).leaves_returned.of_session (step_failed (by simp [hsession]))

theorem At.leaves_searching (h : At p index config .searching)
    (hsession : p.session ≠ some (.preflight index)) : Leaves env p := by
  -- once nobody else has a session, the worker goes on
  have hfree : ∀ p : System, At p index config .searching → p.session = none → Leaves env p := by
    intro p h hnone
    by_cases hmac : config.headUnitMac = []
    · have hstep : System.step env (.preflight index) p = some (p.setPhase index (.returned 2)) := by
        simp only [System.step, h.phase, h.config]
        rw [if_pos hmac]
      exact (h.setPhase (.returned 2)).leaves_returned.of_preflight hstep
    · have hnext := h.setPhase .inSession
      have hstep : System.step env (.preflight index) p =
          some { p.setPhase index .inSession with session := some (.preflight index) } := by
        simp only [System.step, h.phase, h.config]
        rw [if_neg hmac, if_pos hnone]
      have hleaves : Leaves env
          { p.setPhase index .inSession with session := some (.preflight index) } :=
        At.leaves_inSession ⟨hnext.config, hnext.phase⟩ rfl
      exact hleaves.of_preflight hstep
  by_cases hnone : p.session = none
  · exact hfree p h hnone
  · exact (hfree _ (h.endSession_other hsession 1) (endSession_session p 1)).of_session (step_failed hnone)

theorem At.leaves_queued (h : At p index config .queued) (hsession : p.session ≠ some (.preflight index)) :
    Leaves env p := by
  have hnext := h.setPhase .searching
  have hstep : System.step env (.preflight index) p = some ((p.setPhase index .searching).modify
      (setPreflight .discovering "searching for the head unit over Bluetooth")) := by
    simp only [System.step, h.phase, h.config]
  have hleaves : Leaves env ((p.setPhase index .searching).modify
      (setPreflight .discovering "searching for the head unit over Bluetooth")) :=
    At.leaves_searching ⟨hnext.config, hnext.phase⟩ hsession
  exact hleaves.of_preflight hstep

/-- Whatever a worker that has not finished is at, it can go on to its end. -/
theorem At.leaves (h : At p index config phase) (hturn : InTurn p) (hphase : phase ≠ .finished) :
    Leaves env p := by
  have hsession : phase ≠ .inSession → p.session ≠ some (.preflight index) := by
    intro hne hsession
    have hin := (hturn index).mp hsession
    rw [h.phase] at hin
    exact hne (Option.some.inj hin)
  cases phase with
  | queued => exact h.leaves_queued (hsession (by simp))
  | searching => exact h.leaves_searching (hsession (by simp))
  | inSession => exact h.leaves_inSession ((hturn index).mpr h.phase)
  | returned result => exact h.leaves_returned
  | finished => exact absurd rfl hphase

end Worker

/-! ## The state tells the truth -/

/-- While the state is active, a worker runs or is about to be started. -/
theorem Kept.active_cases (h : Kept keeper p) (hactive : p.Active) :
    (∃ index config phase, At p index config phase ∧ phase ≠ .finished) ∨ p.Starting := by
  match keeper, h, h.active.mp hactive with
  | some (.request index), h, _ => exact Or.inr ⟨index, h.request index rfl⟩
  | some (.worker index), h, _ =>
      obtain ⟨phase, hphase, hne⟩ := h.worker index rfl
      have hlt : index < p.pool.state.preflights.length := by
        rw [← h.started]
        exact (List.getElem?_eq_some_iff.mp hphase).1
      exact Or.inl ⟨index, _, phase, ⟨List.getElem?_eq_getElem hlt, hphase⟩, hne⟩

theorem Kept.active_of_running (h : Kept keeper p) (hrunning : p.Running) : p.Active := by
  obtain ⟨phase, hmem, hne⟩ := hrunning
  obtain ⟨index, hphase⟩ := List.mem_iff_getElem?.mp hmem
  rw [h.active, h.keeper_eq hphase hne]
  simp

theorem not_quiet_of_starting (h : p.Starting) : ¬ p.pool.Quiet := by
  obtain ⟨index, selected, h⟩ := h
  intro hquiet
  obtain ⟨value, hvalue⟩ := hquiet _ (List.mem_of_getElem? h)
  cases hvalue

end

/-- In a run whose steps all meet the condition, and with no request being handled, the state
is active exactly while a worker runs, and it can be left then; at any time it is active
only while a worker runs or a request is about to start one. -/
theorem preflight_truthful {env : DaemonEnv} {s : Daemon} {events : List Event} {p : System}
    (hidle : s.snapshot.preflightState = .idle) (hnone : s.preflights = [])
    (hmeets : Machine.Each (System.step env) Meets events (System.start s))
    (hrun : Machine.run (System.step env) events (System.start s) = some p) :
    (p.pool.Quiet → (p.Active ↔ p.Running)) ∧ (p.pool.Quiet → p.Active → Leaves env p) ∧
      (p.Active → p.Running ∨ p.Starting) := by
  have hstart : (∃ keeper, Kept keeper (System.start s)) ∧ InTurn (System.start s) :=
    ⟨⟨none, kept_start (by rw [hidle]; decide) hnone⟩, inTurn_start s⟩
  obtain ⟨⟨keeper, hkept⟩, hturn⟩ := hmeets.run_invariant
    (fun p => (∃ keeper, Kept keeper p) ∧ InTurn p)
    (fun event p p' ⟨⟨keeper, hkept⟩, hturn⟩ hmeets hstep =>
      ⟨hkept.step hturn hmeets hstep, hturn.step hstep⟩) hstart hrun
  have hworker : p.pool.Quiet → p.Active → ∃ index config phase, At p index config phase ∧ phase ≠ .finished := by
    intro hquiet hactive
    exact (hkept.active_cases hactive).resolve_right fun hstarting =>
      not_quiet_of_starting hstarting hquiet
  refine ⟨fun hquiet => ⟨fun hactive => ?_, hkept.active_of_running⟩, fun hquiet hactive => ?_,
    fun hactive => ?_⟩
  · obtain ⟨index, config, phase, hat, hne⟩ := hworker hquiet hactive
    exact ⟨phase, List.mem_of_getElem? hat.phase, hne⟩
  · obtain ⟨index, config, phase, hat, hne⟩ := hworker hquiet hactive
    exact hat.leaves hturn hne
  · rcases hkept.active_cases hactive with ⟨index, config, phase, hat, hne⟩ | hstarting
    · exact Or.inl ⟨phase, List.mem_of_getElem? hat.phase, hne⟩
    · exact Or.inr hstarting

/-- A condition that can be computed: what the next two sections of the request do to an idle
daemon shows whether it begins a preflight and has a complete configuration. -/
def MeetsSurely (event : Event) (p : System) : Prop :=
  match event with
  | .request (.advance index _) => ∀ t ∈ p.pool.threads[index]?,
      (t.run [{}] { config := ⟨[], [], [], [], []⟩ }).2.snapshot.preflightState = .discovering →
        (t.run [{}, {}] { config := ⟨[], [], [], [], []⟩ }).2.preflights ≠ []
  | .session (.pairingConfirmation _) => p.session = some .androidAuto → p.Active
  | _ => True

instance : ∀ event p, Decidable (MeetsSurely event p)
  | .request (.advance index _), p => inferInstanceAs (Decidable (∀ t ∈ p.pool.threads[index]?,
      (Thread.run t [{}] { config := ⟨[], [], [], [], []⟩ }).2.snapshot.preflightState = .discovering →
        (Thread.run t [{}, {}] { config := ⟨[], [], [], [], []⟩ }).2.preflights ≠ []))
  | .request (.arrive _), _ => isTrue trivial
  | .scan _, _ => isTrue trivial
  | .refreshWifi _, _ => isTrue trivial
  | .preflight _, _ => isTrue trivial
  | .androidAuto _, _ => isTrue trivial
  | .session (.pairingConfirmation _), p =>
      inferInstanceAs (Decidable (p.session = some .androidAuto → p.Active))
  | .session .connectionLost, _ => isTrue trivial
  | .session (.returned _), _ => isTrue trivial
  | .session .failed, _ => isTrue trivial

theorem meets_of_meetsSurely (event : Event) (p : System) (h : MeetsSurely event p) : Meets event p := by
  match event, h with
  | .request (.advance index _), h =>
      intro selected hthread _ _
      by_contra hincomplete
      have hbegins : ((preparing selected).run [{}] { config := ⟨[], [], [], [], []⟩ }).2.snapshot.preflightState =
          .discovering := by
        rw [preparing_eq, run_atomic rfl, run_nil]
        rfl
      refine h _ hthread hbegins ?_
      rw [preparing_eq, run_atomic rfl]
      have hsame : Within SamePreflight
          (prepareAfter selected true >>= fun response => pure (some response)) :=
        within_prepareAfter fun hand => hincomplete hand.2
      exact (hsame.run SamePreflight.refl (fun _ _ _ h h' => ⟨h'.1.trans h.1, h'.2.trans h.2⟩) _ _).2
  | .session (.pairingConfirmation _), h => exact h
  | .request (.arrive _), _ => trivial
  | .scan _, _ => trivial
  | .refreshWifi _, _ => trivial
  | .preflight _, _ => trivial
  | .androidAuto _, _ => trivial
  | .session .connectionLost, _ => trivial
  | .session (.returned _), _ => trivial
  | .session .failed, _ => trivial

/-- A preflight in which the user is asked to confirm a pairing. -/
theorem preflight_truthful_pairing :
    let config : Config := ⟨ascii "AA:BB", ascii "wlan0", ascii "car", ascii "12345678", []⟩
    let prepare := ascii "POST /carplay-prepare HTTP/1.1\r\nContent-Length: 6\r\n\r\ncsrf=t"
    let events : List Event := .request (.arrive prepare) ::
      List.replicate 4 (.request (.advance 0 {})) ++
        [.preflight 0, .preflight 0, .session (.pairingConfirmation ⟨1, 123456, []⟩)]
    ∃ p, Machine.run (System.step ⟨ascii "t", []⟩) events (System.start { config }) = some p ∧
      (p.pool.Quiet ∧ p.snapshot.preflightState = .pairingPrompt) ∧
      p.Running ∧ Leaves ⟨ascii "t", []⟩ p := by
  intro config prepare events
  obtain ⟨p, hrun, hquiet, hprompt⟩ : ∃ p,
      Machine.run (System.step ⟨ascii "t", []⟩) events (System.start { config }) = some p ∧
        p.pool.Quiet ∧ p.snapshot.preflightState = .pairingPrompt := by
    decide +kernel
  have hmeets : Machine.Each (System.step ⟨ascii "t", []⟩) MeetsSurely events (System.start { config }) := by
    decide +kernel
  obtain ⟨htruth, hleaves, -⟩ :=
    preflight_truthful rfl rfl (hmeets.mono meets_of_meetsSurely) hrun
  have hactive : p.Active := Or.inr (Or.inl hprompt)
  exact ⟨p, hrun, ⟨hquiet, hprompt⟩, (htruth hquiet).mp hactive, hleaves hquiet hactive⟩

/-- Two runs that end in an active state with no worker: the configuration has no MAC, and a
session for Android Auto asks to confirm a pairing. -/
theorem preflight_stuck :
    let config : Config := ⟨ascii "AA:BB", ascii "wlan0", ascii "car", ascii "12345678", []⟩
    let prepare := ascii "POST /carplay-prepare HTTP/1.1\r\nContent-Length: 6\r\n\r\ncsrf=t"
    let run := fun (config : Config) (events : List Event) =>
      Machine.run (System.step ⟨ascii "t", []⟩) events (System.start { config })
    (∃ p, run { config with headUnitMac := [] }
        (.request (.arrive prepare) :: List.replicate 4 (.request (.advance 0 {}))) = some p ∧
      p.pool.Quiet ∧ ¬ (p.Active ↔ p.Running)) ∧
    ∃ p, run config [.androidAuto config, .session (.pairingConfirmation ⟨1, 123456, []⟩),
        .session (.returned 0)] = some p ∧
      p.pool.Quiet ∧ ¬ (p.Active ↔ p.Running) := by
  refine ⟨?_, ?_⟩
  · decide +kernel
  · decide +kernel

end Preflight
end Bridge
end Aa2acp
