import Aa2acp.Lib.Thread
import Aa2acp.Bridge.Config
import Aa2acp.Bridge.ManagementUi

/-!
# The management daemon

`handle_client` of `src/bridge_daemon_main.cpp`: how a request changes the configuration,
the staged update of the hotspot, the snapshot that the pages show, the stores and the
workers.  A handler is a thread whose sections are its critical sections and its calls of
the outside world; `Outcome` is what these calls return.  Four handlers run at a time, the
model lets any number run.

`start_management_hotspot` is its effect: it succeeds exactly when the radio then runs what
was asked for.  The pages, the logs and the client sockets are left out; of a page there is
what it is rendered from.

The last fields of `Daemon` are histories, which the code does not see: they number the
updates, say which requests are in the middle of a change and with what, and list what was
put back and committed.
-/

namespace Aa2acp
namespace Bridge

open Text Management

/-! ## The state -/

/-- The network that the radio runs. -/
structure Hotspot where
  interfaceName : Bytes
  ssid : Bytes
  passphrase : Bytes
deriving DecidableEq, Repr

def Config.hotspot (config : Config) : Hotspot :=
  ⟨config.wifiInterface, config.managementHotspotSsid, config.managementHotspotPassphrase⟩

structure PendingManagementHotspotUpdate where
  passphrase : Bytes
  ssid : Bytes
deriving DecidableEq, Repr

/-- A staged update, its number among all that were staged, and whether the user asked for
a new SSID. -/
structure Staged where
  update : PendingManagementHotspotUpdate
  number : ℕ
  changesSsid : Bool
deriving DecidableEq, Repr

/-- An update that was put back, and the number of the one that it replaced. -/
structure PutBack where
  number : ℕ
  replaced : Option ℕ
deriving DecidableEq, Repr

/-- A configuration that was committed: by which request, and the SSID before and after. -/
inductive Commit where
  | config (before after : Bytes)
  | apply (changesSsid : Bool) (before after : Bytes)
deriving DecidableEq, Repr

structure Daemon where
  config : Config
  staged : Option Staged := none
  snapshot : Snapshot := {}
  /-- The bytes of the configuration file. -/
  file : Bytes := []
  /-- The pairing and capability stores that there are. -/
  stores : List Bytes := []
  /-- The devices that BlueZ has a bond with. -/
  bonds : List Bytes := []
  hotspot : Option Hotspot := none
  /-- Who holds `config_transaction_mutex`. -/
  transaction : Option ℕ := none
  /-- The preflight workers that were started, by their configurations. -/
  preflights : List Config := []
  /-- The scan workers that were started. -/
  scans : ℕ := 0
  /-- The answers that were sent to the CarPlay worker. -/
  answered : List (PairingConfirmation × Bool) := []
  rebindRequested : Bool := false
  /-- How many updates were staged. -/
  stagings : ℕ := 0
  /-- The requests that are about to stage an update which keeps the SSID that they read. -/
  preparing : List (ℕ × Bytes) := []
  /-- The requests that staged an update and are about to show its SSID. -/
  showing : List (ℕ × Bytes) := []
  /-- The requests that took an update out and are not done with it. -/
  applying : List (ℕ × Staged) := []
  putBacks : List PutBack := []
  commits : List Commit := []
deriving DecidableEq, Repr

/-- What the outside world returns. -/
structure Outcome where
  /-- The network that runs after `start_management_hotspot`. -/
  hotspot : Option Hotspot := none
  /-- A file operation or another call succeeds. -/
  ok : Bool := true
  devices : List BluetoothDevice := []
  error : Bytes := []
deriving DecidableEq, Repr

/-- What does not change while the daemon runs. -/
structure DaemonEnv where
  csrfToken : Bytes
  /-- `default_head_unit_capabilities_store()`. -/
  capabilitiesStore : Bytes

inductive Page where
  | text (body : Bytes)
  | management (config : Config) (snapshot : Snapshot)
      (needsSetup saved carplayError : Bool) (csrfToken : Bytes)
  | logs
  | passwordUpdated (ssid : Bytes)
deriving DecidableEq, Repr

structure Response where
  status : ℕ
  page : Page
  location : Bytes := []
deriving DecidableEq, Repr

abbrev Handler := Thread Outcome Daemon

def Response.text (status : ℕ) (body : String) : Response := ⟨status, .text (ascii body), []⟩

/-- A redirection. -/
def Response.seeOther (location : String) : Response := ⟨303, .text [], ascii location⟩

/-! ## Small functions -/

/-- The counter of `next_management_hotspot_ssid`; `none` when there is none. -/
def ssidCounter : ℕ → Bytes → Option ℕ
  | counter, [] => some counter
  | counter, character :: rest =>
      if ¬ isDigit character ∨ counter > 99999999 then none
      else ssidCounter (counter * 10 + (character.toNat - 0x30)) rest

/-- `next_management_hotspot_ssid`. -/
def nextManagementHotspotSsid (ssid : Bytes) : Bytes :=
  let suffix := (ssid.reverse.takeWhile (· ≠ 0x2D)).reverse
  if 0x2D ∉ ssid ∨ suffix = [] then ssid ++ ascii "-2"
  else
    match ssidCounter 0 suffix with
    | none => ssid ++ ascii "-2"
    | some counter => ssid.take (ssid.length - suffix.length) ++ ascii (toString (counter + 1))

/-- `management_hotspot_needs_setup`. -/
def Config.NeedsSetup (config : Config) : Prop :=
  config.managementHotspotPassphrase = kDefaultHotspotPassphrase

instance (config : Config) : Decidable config.NeedsSetup := inferInstanceAs (Decidable (_ = _))

/-- The order in which devices are shown. -/
def shownBefore (left right : BluetoothDevice) : Bool :=
  if left.paired ≠ right.paired then left.paired else decide (left.address ≤ right.address)

/-- The critical section of `refresh_bluetooth_inventory`. -/
def Management.Snapshot.refreshed (devices : List BluetoothDevice) (error : Bytes)
    (snapshot : Snapshot) : Snapshot :=
  if error ≠ [] then { snapshot with bluetoothError := error }
  else
    let emplaced := snapshot.bluetoothDevices.foldl
      (fun merged device =>
        if merged.any (·.address = device.address) then merged else merged ++ [device]) []
    let merged := devices.foldl
      (fun merged device => merged.filter (·.address ≠ device.address) ++ [device]) emplaced
    { snapshot with bluetoothDevices := merged.mergeSort shownBefore, bluetoothError := [] }

/-! ## Sections -/

section

open Thread

def readConfig : Handler Config := atomically fun _ s => (s.config, s)

def managementSnapshot : Handler Snapshot := atomically fun _ s => (s.snapshot, s)

/-- A critical section under `management_state.mutex`. -/
def withSnapshot {α : Type} (f : Snapshot → α × Snapshot) : Handler α :=
  atomically fun _ s => ((f s.snapshot).1, { s with snapshot := (f s.snapshot).2 })

def modifySnapshot (f : Snapshot → Snapshot) : Handler Unit := withSnapshot fun s => ((), f s)

/-- `start_management_hotspot` with the credentials of a configuration. -/
def startManagementHotspot (config : Config) : Handler Bool :=
  atomically fun outcome s =>
    (decide (outcome.hotspot = some config.hotspot), { s with hotspot := outcome.hotspot })

/-- `save_config`. -/
def saveConfigFile (config : Config) : Handler Bool :=
  atomically fun outcome s =>
    ((saveConfig config outcome.ok s.file).1,
      { s with file := (saveConfig config outcome.ok s.file).2 })

/-- `std::filesystem::remove` of a store; false when it reports an error. -/
def removeStore (path : Bytes) : Handler Bool :=
  atomically fun outcome s =>
    (outcome.ok, if outcome.ok then { s with stores := s.stores.filter (· ≠ path) } else s)

def lockTransaction (id : ℕ) : Handler Unit :=
  atomicallyWhen (fun s => s.transaction.isNone) fun _ s => ((), { s with transaction := some id })

def unlockTransaction : Handler Unit := atomically fun _ s => ((), { s with transaction := none })

/-! ## Staging an update -/

/-- The configuration from which the SSID of a new update is taken. -/
def readConfigForUpdate (id : ℕ) (changesSsid : Bool) : Handler Config :=
  atomically fun _ s =>
    (s.config, { s with
      preparing := if changesSsid then s.preparing
        else (id, s.config.managementHotspotSsid) :: s.preparing })

def stageUpdate (id : ℕ) (update : PendingManagementHotspotUpdate) (changesSsid : Bool) :
    Handler Unit :=
  atomically fun _ s => ((), { s with
    staged := some ⟨update, s.stagings + 1, changesSsid⟩
    stagings := s.stagings + 1
    preparing := s.preparing.filter (·.1 ≠ id)
    showing := (id, update.ssid) :: s.showing })

def showPending (id : ℕ) (ssid : Bytes) : Handler Unit :=
  atomically fun _ s => ((), { s with
    snapshot := { s.snapshot with
      managementHotspotPasswordPending := true, pendingManagementHotspotSsid := ssid }
    showing := s.showing.filter (·.1 ≠ id) })

/-- `POST /management-hotspot`. -/
def handleManagementHotspot (id : ℕ) (body : Bytes) : Handler Response :=
  let passphrase := formField body (ascii "management_hotspot_passphrase")
  let confirmation := formField body (ascii "management_hotspot_passphrase_confirm")
  let changeSsid := (formField body (ascii "management_hotspot_change_ssid")).isSome
  match passphrase, confirmation with
  | some passphrase, some confirmation =>
      if passphrase ≠ confirmation then pure (.text 400 "Passwords do not match\n")
      else if ¬ ValidHotspotPassphrase passphrase then
        pure (.text 400 "Choose a different valid password\n")
      else do
        let current ← readConfigForUpdate id changeSsid
        let ssid :=
          if changeSsid then nextManagementHotspotSsid current.managementHotspotSsid
          else current.managementHotspotSsid
        stageUpdate id ⟨passphrase, ssid⟩ changeSsid
        showPending id ssid
        pure (.seeOther "/")
  | _, _ => pure (.text 400 "Passwords do not match\n")

/-! ## Changing the settings -/

/-- How a transaction ended. -/
structure TransactionOutcome where
  saved : Bool := false
  applyFailed : Bool := false
  rollbackFailed : Bool := false
deriving DecidableEq, Repr

/-- `restore_previous_hotspot`, with the attempts that are left. -/
def restorePreviousHotspot (previous : Config) : ℕ → Handler Bool
  | 0 => pure false
  | attempts + 1 => do
      if ← startManagementHotspot previous then pure true
      else restorePreviousHotspot previous attempts

/-- After a failure the previous hotspot is started again. -/
def rollBack (applyFailed : Bool) (previous : Config) : Handler TransactionOutcome := do
  let restored ← restorePreviousHotspot previous 2
  pure { applyFailed := applyFailed, rollbackFailed := !restored }

/-- The staged update is taken out. -/
def takeStaged (id : ℕ) : Handler (Option Staged) :=
  atomically fun _ s =>
    match s.staged with
    | none => (none, s)
    | some staged => (some staged, { s with
        staged := none, applying := (id, staged) :: s.applying })

/-- An update that could not be applied is staged again. -/
def putBackStaged (id : ℕ) (staged : Staged) : Handler Unit :=
  atomically fun _ s => ((), { s with
    staged := some staged
    applying := s.applying.filter (·.1 ≠ id)
    putBacks := s.putBacks ++ [⟨staged.number, s.staged.map Staged.number⟩] })

def commitApply (changesSsid : Bool) (updated : Config) : Handler Unit :=
  atomically fun _ s => ((), { s with
    config := updated
    commits := s.commits ++
      [.apply changesSsid s.config.managementHotspotSsid updated.managementHotspotSsid] })

def clearPending (id : ℕ) : Handler Unit :=
  atomically fun _ s => ((), { s with
    snapshot := { s.snapshot with
      managementHotspotPasswordPending := false, pendingManagementHotspotSsid := [] }
    applying := s.applying.filter (·.1 ≠ id) })

def PendingManagementHotspotUpdate.applied (update : PendingManagementHotspotUpdate)
    (previous : Config) : Config :=
  { previous with
    managementHotspotPassphrase := update.passphrase, managementHotspotSsid := update.ssid }

/-- The transaction of `POST /management-hotspot/apply`. -/
def applyUpdate (changesSsid : Bool) (previous updated : Config) :
    Handler TransactionOutcome := do
  if ← startManagementHotspot updated then
    if ← saveConfigFile updated then
      commitApply changesSsid updated
      pure { saved := true }
    else rollBack false previous
  else rollBack true previous

/-- The reply to a failed `POST /management-hotspot/apply`. -/
def applyFailure (outcome : TransactionOutcome) : Response :=
  .text (if outcome.applyFailed ∨ outcome.rollbackFailed then 503 else 400)
    (if outcome.rollbackFailed then "Hotspot update failed; runtime state needs recovery\n"
    else if outcome.applyFailed then
      "Unable to apply hotspot settings; configuration unchanged\n"
    else "Invalid hotspot password\n")

/-- `POST /management-hotspot/apply`. -/
def handleManagementHotspotApply (id : ℕ) : Handler Response := do
  match ← takeStaged id with
  | none => pure (.text 400 "No password update is pending\n")
  | some staged =>
      lockTransaction id
      let previous ← readConfig
      let updated := staged.update.applied previous
      let outcome ← applyUpdate staged.changesSsid previous updated
      if outcome.saved then
        clearPending id
        unlockTransaction
        pure ⟨200, .passwordUpdated updated.managementHotspotSsid, []⟩
      else
        putBackStaged id staged
        unlockTransaction
        pure (applyFailure outcome)

/-- What the form of `POST /config` asks for; `none` when it is refused. -/
structure ConfigForm where
  mac : Option Bytes
  wifi : Bytes
  hotspotSsid : Bytes
  hotspotPassphrase : Option Bytes
deriving DecidableEq, Repr

/-- A field that is there and not empty. -/
def nonEmpty (field : Option Bytes) : Option Bytes := field.filter (· ≠ [])

def readConfigForm (body : Bytes) : Option ConfigForm :=
  let manual := formField body (ascii "manual_mac")
  let selected := formField body (ascii "head_unit_mac")
  let passphrase := nonEmpty (formField body (ascii "management_hotspot_passphrase"))
  let confirmation := formField body (ascii "management_hotspot_passphrase_confirm")
  match formField body (ascii "wifi_interface"),
      formField body (ascii "management_hotspot_ssid") with
  | some wifi, some ssid =>
      if passphrase.all (fun passphrase =>
          confirmation = some passphrase ∧ ValidHotspotPassphrase passphrase) then
        some ⟨(nonEmpty selected).or (nonEmpty manual), wifi, ssid, passphrase⟩
      else none
  | _, _ => none

/-- The configuration that is asked for. -/
def ConfigForm.updated (form : ConfigForm) (previous : Config) : Config where
  headUnitMac := form.mac.getD previous.headUnitMac
  wifiInterface := form.wifi
  managementHotspotSsid := form.hotspotSsid
  managementHotspotPassphrase := form.hotspotPassphrase.getD previous.managementHotspotPassphrase
  airplayPairingStore := previous.airplayPairingStore

def commitConfig (updated : Config) : Handler Unit :=
  atomically fun _ s => ((), { s with
    config := updated
    commits := s.commits ++
      [.config s.config.managementHotspotSsid updated.managementHotspotSsid] })

/-- The transaction of `POST /config`; the hotspot is left alone when its settings stay. -/
def applyConfig (previous updated : Config) : Handler TransactionOutcome := do
  let hotspotChanged := decide (previous.hotspot ≠ updated.hotspot)
  let applied ← if hotspotChanged then startManagementHotspot updated else pure true
  if applied then
    if ← saveConfigFile updated then
      commitConfig updated
      pure { saved := true }
    else if hotspotChanged then rollBack false previous
    else pure {}
  else rollBack true previous

/-- The reply to a failed `POST /config`. -/
def configFailure (outcome : TransactionOutcome) : Response :=
  if outcome.rollbackFailed then .text 503 "Hotspot update failed; runtime state needs recovery\n"
  else if outcome.applyFailed then
    .text 503 "Unable to apply Wi-Fi settings; configuration unchanged\n"
  else .text 400 "Invalid configuration\n"

def requestRebind : Handler Unit := atomically fun _ s => ((), { s with rebindRequested := true })

/-- What follows when the configuration was saved. -/
def configSaved (env : DaemonEnv) (previous updated : Config) : Handler Response := do
  if updated.headUnitMac ≠ previous.headUnitMac then
    let _ ← removeStore env.capabilitiesStore
  if previous.wifiInterface ≠ updated.wifiInterface then
    requestRebind
  pure (.seeOther "/?saved=1")

/-- `POST /config`. -/
def handleConfig (env : DaemonEnv) (id : ℕ) (body : Bytes) : Handler Response :=
  match readConfigForm body with
  | none => pure (configFailure {})
  | some form => do
      lockTransaction id
      let previous ← readConfig
      let updated := form.updated previous
      let outcome ← applyConfig previous updated
      unlockTransaction
      if outcome.saved then configSaved env previous updated
      else pure (configFailure outcome)

/-! ## The other endpoints -/

/-- The snapshot is told that a preflight begins, unless one is under way or a scan is. -/
def beginPreflight (snapshot : Snapshot) : Bool × Snapshot :=
  if ¬ snapshot.preflightState.Active ∧ ¬ snapshot.bluetoothScanRunning then
    (true, { snapshot with
      preflightState := .discovering
      preflightDetail := ascii "queued"
      preflightRevision := snapshot.preflightRevision + 1 })
  else (false, snapshot)

def startPreflight (config : Config) : Handler Unit :=
  atomically fun _ s => ((), { s with preflights := s.preflights ++ [config] })

/-- A change of the preflight's detail, which the page is to show. -/
def showDetail (detail : Snapshot → String) : Handler Unit :=
  modifySnapshot fun snapshot => { snapshot with
    preflightRevision := snapshot.preflightRevision + 1
    preflightDetail := ascii (detail snapshot) }

/-- `POST /carplay-prepare`. -/
def handleCarplayPrepare : Handler Response := do
  let selected ← readConfig
  let start ← withSnapshot beginPreflight
  if start ∧ selected.headUnitMac ≠ [] ∧ selected.wifiInterface ≠ [] then
    startPreflight selected
    pure (.seeOther "/")
  else
    showDetail fun snapshot =>
      if snapshot.bluetoothScanRunning then "wait for Bluetooth scanning to finish first"
      else "configure a head-unit MAC and Wi-Fi interface first"
    if selected.headUnitMac = [] ∨ selected.wifiInterface = [] then
      pure (.seeOther "/?carplay_error=1")
    else pure (.seeOther "/")

/-- The confirmation with this id is taken out of the snapshot. -/
def takeConfirmation (id : Bytes) (snapshot : Snapshot) :
    Option PairingConfirmation × Snapshot :=
  match snapshot.pairingConfirmation with
  | some confirmation =>
      if id = ascii (toString confirmation.id) then
        (some confirmation, { snapshot with pairingConfirmation := none })
      else (none, snapshot)
  | none => (none, snapshot)

/-- `CarPlayWorker::answer_pairing_confirmation`. -/
def answerConfirmation (confirmation : PairingConfirmation) (confirmed : Bool) : Handler Bool :=
  atomically fun outcome s =>
    (outcome.ok, if outcome.ok then { s with answered := s.answered ++ [(confirmation, confirmed)] }
      else s)

/-- The answer to a confirmation that was not accepted. -/
def refuseConfirmation : Handler Response := do
  modifySnapshot fun snapshot =>
    { snapshot with preflightRevision := snapshot.preflightRevision + 1 }
  pure (.text 409 "No matching Bluetooth confirmation is pending\n")

/-- `POST /bluetooth-confirm`. -/
def handleBluetoothConfirm (body : Bytes) : Handler Response := do
  match formField body (ascii "id"), formField body (ascii "decision") with
  | some id, some decision =>
      if decision = ascii "confirm" ∨ decision = ascii "reject" then
        match ← withSnapshot (takeConfirmation id) with
        | none => refuseConfirmation
        | some confirmation =>
            if ← answerConfirmation confirmation (decide (decision = ascii "confirm")) then
              pure (.seeOther "/")
            else
              modifySnapshot fun snapshot =>
                if snapshot.pairingConfirmation = none then
                  { snapshot with pairingConfirmation := some confirmation }
                else snapshot
              refuseConfirmation
      else refuseConfirmation
  | _, _ => refuseConfirmation

/-- `forget_bluez_device`. -/
def forgetBluezDevice (mac : Bytes) : Handler Bool :=
  atomically fun outcome s =>
    (outcome.ok, if outcome.ok then { s with bonds := s.bonds.filter (· ≠ mac) } else s)

def refreshBluetoothInventory : Handler Unit :=
  atomically fun outcome s =>
    ((), { s with snapshot := s.snapshot.refreshed outcome.devices outcome.error })

/-- `POST /head-unit-forget`. -/
def handleHeadUnitForget (env : DaemonEnv) : Handler Response := do
  let selected ← readConfig
  let snapshot ← managementSnapshot
  if selected.headUnitMac = [] then
    showDetail fun _ => "configure a head unit before clearing its local state"
    pure (.seeOther "/")
  else if snapshot.preflightState.Active then
    showDetail fun _ => "cannot clear head-unit state while CarPlay preparation is running"
    pure (.seeOther "/")
  else
    let _ ← forgetBluezDevice selected.headUnitMac
    let pairingRemoved ← removeStore selected.airplayPairingStore
    let capabilitiesRemoved ← removeStore env.capabilitiesStore
    refreshBluetoothInventory
    showDetail fun _ =>
      if pairingRemoved ∧ capabilitiesRemoved then
        "local Bluetooth, AirPlay, and capability state cleared; " ++
          "start fresh pairing on the head unit"
      else "some local head-unit state could not be cleared; see daemon log"
    pure (.seeOther "/")

/-- The snapshot is told that a scan begins, unless one is running. -/
def beginScan (snapshot : Snapshot) : Bool × Snapshot :=
  if ¬ snapshot.bluetoothScanRunning then
    (true, { snapshot with
      bluetoothScanRunning := true
      bluetoothScanPhaseId := 1
      bluetoothScanPhase := ascii "queued" })
  else (false, snapshot)

def startScan : Handler Unit := atomically fun _ s => ((), { s with scans := s.scans + 1 })

/-- `POST /scan`. -/
def handleScan : Handler Response := do
  if ← withSnapshot beginScan then startScan
  pure (.seeOther "/")

/-- `POST /display`. -/
def handleDisplay (body : Bytes) : Handler Response := do
  modifySnapshot fun snapshot => { snapshot with
    showUnnamedBluetoothDevices := (formField body (ascii "show_unnamed")).isSome }
  pure (.seeOther "/")

/-- `GET /`. -/
def handlePage (env : DaemonEnv) (request : Bytes) : Handler Response := do
  let snapshot ← managementSnapshot
  let configuration ← readConfig
  pure ⟨200, .management configuration snapshot (decide configuration.NeedsSetup)
    (find (ascii "saved=1") request).isSome (find (ascii "carplay_error=1") request).isSome
    env.csrfToken, []⟩

/-- `GET /scan-status`. -/
def handleScanStatus (request : Bytes) : Handler Response := do
  let snapshot ← managementSnapshot
  let current := snapshot.bluetoothScanRunning ∧
    queryField request (ascii "phase") = some (ascii (toString snapshot.bluetoothScanPhaseId))
  pure (.text (if current then 204 else 205) "")

/-- `GET /carplay-prepare-status`. -/
def handlePrepareStatus (request : Bytes) : Handler Response := do
  let snapshot ← managementSnapshot
  let current := snapshot.preflightState.Active ∧
    queryField request (ascii "state") = some (ascii (toString snapshot.preflightState.number)) ∧
    queryField request (ascii "rev") = some (ascii (toString snapshot.preflightRevision))
  pure ⟨if current then 204 else 205, .text snapshot.preflightDetail, []⟩

/-! ## Dispatch -/

/-- `std::string::starts_with`. -/
def StartsWith (start : String) (request : Bytes) : Prop := ascii start <+: request

instance (start : String) (request : Bytes) : Decidable (StartsWith start request) :=
  inferInstanceAs (Decidable (_ <+: _))

/-- The endpoints behind the default password. -/
def dispatchSetUp (env : DaemonEnv) (id : ℕ) (request body : Bytes) : Handler Response :=
  if StartsWith "POST /carplay-prepare " request then handleCarplayPrepare
  else if StartsWith "POST /bluetooth-confirm " request then handleBluetoothConfirm body
  else if StartsWith "POST /head-unit-forget " request then handleHeadUnitForget env
  else if StartsWith "POST /scan " request then handleScan
  else if StartsWith "POST /display " request then handleDisplay body
  else if StartsWith "POST /config " request then handleConfig env id body
  else pure (.text 400 "Unknown endpoint\n")

/-- The chain of tests in `handle_client`. -/
def dispatch (env : DaemonEnv) (id : ℕ) (request body : Bytes) : Handler Response :=
  if StartsWith "GET / " request ∨ StartsWith "GET /?" request then handlePage env request
  else if StartsWith "GET /logs" request then pure ⟨200, .logs, []⟩
  else if StartsWith "POST " request ∧ formField body (ascii "csrf") ≠ some env.csrfToken then
    pure (.text 403 "Invalid CSRF token\n")
  else if StartsWith "GET /scan-status" request then handleScanStatus request
  else if StartsWith "GET /carplay-prepare-status" request then handlePrepareStatus request
  else if StartsWith "POST /management-hotspot " request then handleManagementHotspot id body
  else if StartsWith "POST /management-hotspot/apply " request then
    handleManagementHotspotApply id
  else do
    let config ← readConfig
    if config.NeedsSetup then
      pure (.text 403 "Change the default management hotspot password first\n")
    else dispatchSetUp env id request body

/-- `handle_client`, for the bytes that were received when its read loop ends; no response
when they are not a complete request. -/
def handleClient (env : DaemonEnv) (id : ℕ) (request : Bytes) : Handler (Option Response) :=
  match frameHttpRequest request (16 * 1024) (16 * 1024) with
  | .complete body => do
      let response ← dispatch env id request body
      pure (some response)
  | .incomplete | .invalid => pure none

end

end Bridge
end Aa2acp
