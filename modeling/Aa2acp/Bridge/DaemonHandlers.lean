import Aa2acp.Bridge.Daemon

/-!
# What the handlers leave alone

Most handlers of the daemon have nothing to do with the configuration and the staged
update: some only read (`Within Eq`), the others change neither of them
(`SameSettings`), nor the preflight (`Unaffected`), whatever else happens in between.
-/

namespace Aa2acp
namespace Bridge

open Text Management Thread

/-! ## Sections -/

section

variable {r : Daemon → Daemon → Prop} {α β : Type}

/-- A section that yields a value and only reads. -/
theorem within_read (hrefl : ∀ s, r s s) (f : Daemon → α) :
    Within r (atomically fun _ s => (f s, s) : Handler α) :=
  within_atomically fun s _ => hrefl s

theorem within_readConfig (hrefl : ∀ s, r s s) : Within r readConfig := within_read hrefl _

theorem within_managementSnapshot (hrefl : ∀ s, r s s) : Within r managementSnapshot :=
  within_read hrefl _

theorem within_startManagementHotspot (h : ∀ s hotspot, r s { s with hotspot := hotspot })
    (config : Config) : Within r (startManagementHotspot config) :=
  within_atomically fun s outcome => h s outcome.hotspot

theorem within_restorePreviousHotspot (h : ∀ s hotspot, r s { s with hotspot := hotspot })
    (previous : Config) (attempts : ℕ) : Within r (restorePreviousHotspot previous attempts) := by
  induction attempts with
  | zero => exact within_pure _
  | succ attempts ih =>
      refine (within_startManagementHotspot h previous).bind fun started => ?_
      split
      · exact within_pure _
      · exact ih

theorem within_rollBack (h : ∀ s hotspot, r s { s with hotspot := hotspot })
    (applyFailed : Bool) (previous : Config) : Within r (rollBack applyFailed previous) :=
  (within_restorePreviousHotspot h previous 2).bind fun _ => within_pure _

theorem within_lockTransaction (h : ∀ s holder, r s { s with transaction := holder }) (id : ℕ) :
    Within r (lockTransaction id) := within_atomicallyWhen fun s _ => h s (some id)

theorem within_unlockTransaction (h : ∀ s holder, r s { s with transaction := holder }) :
    Within r unlockTransaction := within_atomically fun s _ => h s none

theorem within_unlock_reply (h : ∀ s holder, r s { s with transaction := holder })
    (response : Response) : Within r (unlockTransaction >>= fun _ => pure response) :=
  (within_unlockTransaction h).bind fun _ => within_pure response

end

/-! ## Handlers that only read -/

theorem within_handlePage (env : DaemonEnv) (request : Bytes) :
    Within Eq (handlePage env request) :=
  (within_managementSnapshot Eq.refl).bind fun _ =>
    (within_readConfig Eq.refl).bind fun _ => within_pure _

theorem within_handleScanStatus (request : Bytes) : Within Eq (handleScanStatus request) :=
  (within_managementSnapshot Eq.refl).bind fun _ => within_pure _

theorem within_handlePrepareStatus (request : Bytes) : Within Eq (handlePrepareStatus request) :=
  (within_managementSnapshot Eq.refl).bind fun _ => within_pure _

/-! ## Handlers that leave the settings alone -/

/-- The configuration, the staged update and what the snapshot says of it are the same. -/
structure SameSettings (s s' : Daemon) : Prop where
  config : s'.config = s.config
  file : s'.file = s.file
  staged : s'.staged = s.staged
  pending : s'.snapshot.managementHotspotPasswordPending =
    s.snapshot.managementHotspotPasswordPending
  pendingSsid : s'.snapshot.pendingManagementHotspotSsid = s.snapshot.pendingManagementHotspotSsid
  transaction : s'.transaction = s.transaction
  stagings : s'.stagings = s.stagings
  preparing : s'.preparing = s.preparing
  showing : s'.showing = s.showing
  applying : s'.applying = s.applying
  putBacks : s'.putBacks = s.putBacks
  commits : s'.commits = s.commits

theorem SameSettings.refl (s : Daemon) : SameSettings s s :=
  ⟨rfl, rfl, rfl, rfl, rfl, rfl, rfl, rfl, rfl, rfl, rfl, rfl⟩

/-- The state of the preflight and the workers that were started are the same. -/
def SamePreflight (s s' : Daemon) : Prop :=
  s'.snapshot.preflightState = s.snapshot.preflightState ∧ s'.preflights = s.preflights

theorem samePreflight_of_eq (s s' : Daemon) (h : s = s') : SamePreflight s s' := by
  subst h
  exact ⟨rfl, rfl⟩

theorem SamePreflight.refl (s : Daemon) : SamePreflight s s := ⟨rfl, rfl⟩

/-- Neither the settings nor the preflight are affected. -/
structure Unaffected (s s' : Daemon) : Prop where
  settings : SameSettings s s'
  preflight : SamePreflight s s'

theorem Unaffected.refl (s : Daemon) : Unaffected s s := ⟨SameSettings.refl s, SamePreflight.refl s⟩

section

variable {α : Type} {t : Handler α}

theorem settings_of_unaffected (h : Within Unaffected t) : Within SameSettings t :=
  h.mono fun _ _ => Unaffected.settings

theorem preflight_of_unaffected (h : Within Unaffected t) : Within SamePreflight t :=
  h.mono fun _ _ => Unaffected.preflight

/-- What the snapshot says of the staged update stays. -/
def LeavesPending (f : Snapshot → Snapshot) : Prop :=
  ∀ snapshot, (f snapshot).managementHotspotPasswordPending =
      snapshot.managementHotspotPasswordPending ∧
    (f snapshot).pendingManagementHotspotSsid = snapshot.pendingManagementHotspotSsid

/-- What the snapshot says of the preflight stays. -/
def LeavesPreflight (f : Snapshot → Snapshot) : Prop :=
  ∀ snapshot, (f snapshot).preflightState = snapshot.preflightState

/-- A critical section of the snapshot that does not touch the pending update. -/
theorem sameSettings_withSnapshot {f : Snapshot → α × Snapshot}
    (h : LeavesPending fun snapshot => (f snapshot).2) : Within SameSettings (withSnapshot f) :=
  within_atomically fun s _ =>
    { SameSettings.refl s with pending := (h s.snapshot).1, pendingSsid := (h s.snapshot).2 }

theorem within_withSnapshot {f : Snapshot → α × Snapshot}
    (h : LeavesPending fun snapshot => (f snapshot).2)
    (hpreflight : LeavesPreflight fun snapshot => (f snapshot).2) : Within Unaffected (withSnapshot f) :=
  within_atomically fun s _ =>
    { settings := { SameSettings.refl s with
        pending := (h s.snapshot).1, pendingSsid := (h s.snapshot).2 }
      preflight := ⟨hpreflight s.snapshot, rfl⟩ }

theorem within_modifySnapshot {f : Snapshot → Snapshot} (h : LeavesPending f)
    (hpreflight : LeavesPreflight f) : Within Unaffected (modifySnapshot f) :=
  within_withSnapshot h hpreflight

end

theorem within_showDetail (detail : Snapshot → String) :
    Within Unaffected (showDetail detail) :=
  within_modifySnapshot (fun _ => ⟨rfl, rfl⟩) fun _ => rfl

theorem within_removeStore (path : Bytes) : Within Unaffected (removeStore path) :=
  within_atomically fun s outcome => by
    cases outcome.ok <;> exact ⟨{ SameSettings.refl s with }, ⟨rfl, rfl⟩⟩

theorem within_requestRebind : Within Unaffected requestRebind :=
  within_atomically fun s _ => ⟨{ SameSettings.refl s with }, ⟨rfl, rfl⟩⟩

theorem within_configSaved (env : DaemonEnv) (previous updated : Config) :
    Within Unaffected (configSaved env previous updated) := by
  have hreply : Within Unaffected (do
      if previous.wifiInterface ≠ updated.wifiInterface then
        requestRebind
      pure (Response.seeOther "/?saved=1")) := by
    split
    · exact within_requestRebind.bind fun _ => within_pure _
    · exact within_pure _
  simp only [configSaved]
  split
  · exact (within_removeStore env.capabilitiesStore).bind fun _ => hreply
  · exact hreply

theorem within_startPreflight (config : Config) : Within SameSettings (startPreflight config) :=
  within_atomically fun s _ => { SameSettings.refl s with }

theorem within_startScan : Within Unaffected startScan :=
  within_atomically fun s _ => ⟨{ SameSettings.refl s with }, ⟨rfl, rfl⟩⟩

theorem within_answerConfirmation (confirmation : PairingConfirmation) (confirmed : Bool) :
    Within Unaffected (answerConfirmation confirmation confirmed) :=
  within_atomically fun s outcome => by
    cases outcome.ok <;> exact ⟨{ SameSettings.refl s with }, ⟨rfl, rfl⟩⟩

theorem within_forgetBluezDevice (mac : Bytes) : Within Unaffected (forgetBluezDevice mac) :=
  within_atomically fun s outcome => by
    cases outcome.ok <;> exact ⟨{ SameSettings.refl s with }, ⟨rfl, rfl⟩⟩

theorem leavesPending_refreshed (devices : List BluetoothDevice) (error : Bytes) :
    LeavesPending (Snapshot.refreshed devices error) := by
  intro snapshot
  simp only [Snapshot.refreshed]
  split <;> exact ⟨rfl, rfl⟩

theorem leavesPreflight_refreshed (devices : List BluetoothDevice) (error : Bytes) :
    LeavesPreflight (Snapshot.refreshed devices error) := by
  intro snapshot
  simp only [Snapshot.refreshed]
  split <;> rfl

theorem within_refreshBluetoothInventory : Within Unaffected refreshBluetoothInventory :=
  within_atomically fun s outcome =>
    have hpending := leavesPending_refreshed outcome.devices outcome.error s.snapshot
    { settings := { SameSettings.refl s with pending := hpending.1, pendingSsid := hpending.2 }
      preflight := ⟨leavesPreflight_refreshed outcome.devices outcome.error s.snapshot, rfl⟩ }

theorem leavesPending_beginPreflight :
    LeavesPending fun snapshot => (beginPreflight snapshot).2 := by
  intro snapshot
  simp only [beginPreflight]
  split <;> exact ⟨rfl, rfl⟩

theorem within_beginScan : Within Unaffected (withSnapshot beginScan) := by
  refine within_withSnapshot (fun snapshot => ?_) fun snapshot => ?_
  · simp only [beginScan]
    split <;> exact ⟨rfl, rfl⟩
  · simp only [beginScan]
    split <;> rfl

theorem within_takeConfirmation (id : Bytes) : Within Unaffected (withSnapshot (takeConfirmation id)) := by
  refine within_withSnapshot (fun snapshot => ?_) fun snapshot => ?_
  · simp only [takeConfirmation]
    split
    · split <;> exact ⟨rfl, rfl⟩
    · exact ⟨rfl, rfl⟩
  · simp only [takeConfirmation]
    split
    · split <;> rfl
    · rfl

theorem within_handleCarplayPrepare : Within SameSettings handleCarplayPrepare := by
  refine (within_readConfig SameSettings.refl).bind fun selected => ?_
  refine (sameSettings_withSnapshot leavesPending_beginPreflight).bind fun start => ?_
  split
  · exact (within_startPreflight selected).bind fun _ => within_pure _
  · refine (settings_of_unaffected (within_showDetail _)).bind fun _ => ?_
    split <;> exact within_pure _

theorem within_refuseConfirmation : Within Unaffected refuseConfirmation := by
  refine (within_modifySnapshot ?_ ?_).bind fun _ => within_pure _
  · exact fun _ => ⟨rfl, rfl⟩
  · exact fun _ => rfl

theorem within_handleBluetoothConfirm (body : Bytes) :
    Within Unaffected (handleBluetoothConfirm body) := by
  unfold handleBluetoothConfirm
  split
  · split
    · refine (within_takeConfirmation _).bind fun confirmation => ?_
      split
      · exact within_refuseConfirmation
      · refine (within_answerConfirmation _ _).bind fun accepted => ?_
        split
        · exact within_pure _
        · refine (within_modifySnapshot (fun snapshot => ?_) fun snapshot => ?_).bind fun _ =>
            within_refuseConfirmation
          · split <;> exact ⟨rfl, rfl⟩
          · split <;> rfl
    · exact within_refuseConfirmation
  · exact within_refuseConfirmation

theorem within_handleHeadUnitForget (env : DaemonEnv) :
    Within Unaffected (handleHeadUnitForget env) := by
  refine (within_readConfig Unaffected.refl).bind fun selected => ?_
  refine (within_managementSnapshot Unaffected.refl).bind fun snapshot => ?_
  split
  · exact (within_showDetail _).bind fun _ => within_pure _
  · split
    · exact (within_showDetail _).bind fun _ => within_pure _
    · refine (within_forgetBluezDevice _).bind fun _ => ?_
      refine (within_removeStore _).bind fun _ => ?_
      refine (within_removeStore _).bind fun _ => ?_
      refine within_refreshBluetoothInventory.bind fun _ => ?_
      exact (within_showDetail _).bind fun _ => within_pure _

theorem within_handleScan : Within Unaffected handleScan := by
  refine within_beginScan.bind fun start => ?_
  split
  · exact within_startScan.bind fun _ => within_pure _
  · exact within_pure _

theorem within_handleDisplay (body : Bytes) : Within Unaffected (handleDisplay body) := by
  refine (within_modifySnapshot ?_ ?_).bind fun _ => within_pure _
  · exact fun _ => ⟨rfl, rfl⟩
  · exact fun _ => rfl

/-! ## The transaction of `POST /config` -/

section

variable {previous updated : Config}

/-- With the same hotspot only the file is written. -/
theorem applyConfig_of_same (h : previous.hotspot = updated.hotspot) :
    applyConfig previous updated = saveConfigFile updated >>= fun saved =>
      if saved = true then commitConfig updated >>= fun _ => pure { saved := true }
      else pure {} := by
  simp only [applyConfig, h, ne_eq, not_true_eq_false, decide_false, Bool.false_eq_true, if_false]
  rfl

/-- With another hotspot the transaction is that of `POST /management-hotspot/apply`. -/
theorem applyConfig_of_changed (h : previous.hotspot ≠ updated.hotspot) :
    applyConfig previous updated = startManagementHotspot updated >>= fun started =>
      if started = true then
        saveConfigFile updated >>= fun saved =>
          if saved = true then commitConfig updated >>= fun _ => pure { saved := true }
          else rollBack false previous
      else rollBack true previous := by
  simp only [applyConfig, h, ne_eq, not_false_eq_true, decide_true, if_true]

end

/-! ## Relations that ignore the settings -/

/-- The relation ignores the settings, and what a transaction does to them. -/
structure IgnoresSettings (r : Daemon → Daemon → Prop) : Prop where
  settings : ∀ s config file hotspot transaction commits, r s { s with
    config := config, file := file, hotspot := hotspot, transaction := transaction
    commits := commits }

/-- It ignores the staged update as well, and what the snapshot says of it. -/
structure IgnoresUpdates (r : Daemon → Daemon → Prop) : Prop extends IgnoresSettings r where
  updates : ∀ s staged stagings preparing showing applying putBacks pending ssid, r s { s with
    staged := staged, stagings := stagings, preparing := preparing, showing := showing
    applying := applying, putBacks := putBacks
    snapshot := { s.snapshot with
      managementHotspotPasswordPending := pending, pendingManagementHotspotSsid := ssid } }

namespace IgnoresSettings

variable {r : Daemon → Daemon → Prop}

theorem refl (h : IgnoresSettings r) (s : Daemon) : r s s :=
  h.settings s s.config s.file s.hotspot s.transaction s.commits

theorem hotspot (h : IgnoresSettings r) (s : Daemon) (hotspot : Option Hotspot) :
    r s { s with hotspot := hotspot } :=
  h.settings s s.config s.file hotspot s.transaction s.commits

theorem transaction (h : IgnoresSettings r) (s : Daemon) (holder : Option ℕ) :
    r s { s with transaction := holder } :=
  h.settings s s.config s.file s.hotspot holder s.commits

/-- The new settings are saved and committed. -/
theorem within_saveAndCommit (h : IgnoresSettings r) (updated : Config) {commit : Handler Unit}
    (hcommit : Within r commit) {otherwise : Handler TransactionOutcome}
    (hotherwise : Within r otherwise) :
    Within r (saveConfigFile updated >>= fun saved =>
      if saved = true then commit >>= fun _ => pure { saved := true } else otherwise) := by
  have hsave : Within r (saveConfigFile updated) := within_atomically fun s _ =>
    h.settings s s.config _ s.hotspot s.transaction s.commits
  refine hsave.bind fun saved => ?_
  split
  · exact hcommit.bind fun _ => within_pure _
  · exact hotherwise

/-- The new hotspot is started and saved, or what was done is taken back. -/
theorem within_startAndSave (h : IgnoresSettings r) {commit : Handler Unit}
    (hcommit : Within r commit) (previous updated : Config) :
    Within r (startManagementHotspot updated >>= fun started =>
      if started = true then
        saveConfigFile updated >>= fun saved =>
          if saved = true then commit >>= fun _ => pure { saved := true }
          else rollBack false previous
      else rollBack true previous) := by
  refine (within_startManagementHotspot h.hotspot updated).bind fun started => ?_
  split
  · exact h.within_saveAndCommit updated hcommit (within_rollBack h.hotspot false previous)
  · exact within_rollBack h.hotspot true previous

theorem within_applyUpdate (h : IgnoresSettings r) (changesSsid : Bool)
    (previous updated : Config) : Within r (applyUpdate changesSsid previous updated) :=
  h.within_startAndSave (within_atomically fun s _ =>
    h.settings s updated s.file s.hotspot s.transaction _) previous updated

theorem within_applyConfig (h : IgnoresSettings r) (previous updated : Config) :
    Within r (applyConfig previous updated) := by
  have hcommit : Within r (commitConfig updated) := within_atomically fun s _ =>
    h.settings s updated s.file s.hotspot s.transaction _
  by_cases hsame : previous.hotspot = updated.hotspot
  · rw [applyConfig_of_same hsame]
    exact h.within_saveAndCommit updated hcommit (within_pure _)
  · rw [applyConfig_of_changed hsame]
    exact h.within_startAndSave hcommit previous updated

theorem within_handleConfig (h : IgnoresSettings r) (env : DaemonEnv) (id : ℕ) (body : Bytes)
    (hsaved : ∀ previous updated, Within r (configSaved env previous updated)) :
    Within r (handleConfig env id body) := by
  unfold handleConfig
  split
  · exact within_pure _
  · refine (within_lockTransaction h.transaction id).bind fun _ => ?_
    refine (within_readConfig h.refl).bind fun previous => ?_
    refine (h.within_applyConfig previous _).bind fun outcome => ?_
    refine (within_unlockTransaction h.transaction).bind fun _ => ?_
    split
    · exact hsaved _ _
    · exact within_pure _

end IgnoresSettings

namespace IgnoresUpdates

variable {r : Daemon → Daemon → Prop}

theorem within_handleManagementHotspot (h : IgnoresUpdates r) (id : ℕ) (body : Bytes) :
    Within r (handleManagementHotspot id body) := by
  simp only [handleManagementHotspot]
  split
  · split
    · exact within_pure _
    split
    · exact within_pure _
    have hread (changesSsid : Bool) : Within r (readConfigForUpdate id changesSsid) :=
      within_atomically fun s _ => h.updates s s.staged s.stagings _ s.showing s.applying
        s.putBacks s.snapshot.managementHotspotPasswordPending
        s.snapshot.pendingManagementHotspotSsid
    have hstage (update : PendingManagementHotspotUpdate) (changesSsid : Bool) :
        Within r (stageUpdate id update changesSsid) :=
      within_atomically fun s _ => h.updates s _ _ _ _ s.applying s.putBacks
        s.snapshot.managementHotspotPasswordPending s.snapshot.pendingManagementHotspotSsid
    have hshow (ssid : Bytes) : Within r (showPending id ssid) :=
      within_atomically fun s _ => h.updates s s.staged s.stagings s.preparing _ s.applying
        s.putBacks true ssid
    refine (hread _).bind fun current => ?_
    exact (hstage _ _).bind fun _ => (hshow _).bind fun _ => within_pure _
  · exact within_pure _

theorem within_takeStaged (h : IgnoresUpdates r) (id : ℕ) : Within r (takeStaged id) :=
  within_atomically fun s _ => by
    cases s.staged with
    | none => exact h.refl s
    | some staged =>
        exact h.updates s none s.stagings s.preparing s.showing _ s.putBacks
          s.snapshot.managementHotspotPasswordPending s.snapshot.pendingManagementHotspotSsid

theorem within_handleManagementHotspotApply (h : IgnoresUpdates r) (id : ℕ) :
    Within r (handleManagementHotspotApply id) := by
  refine (h.within_takeStaged id).bind fun staged => ?_
  split
  · exact within_pure _
  · refine (within_lockTransaction h.transaction id).bind fun _ => ?_
    refine (within_readConfig h.refl).bind fun previous => ?_
    refine (h.within_applyUpdate _ _ _).bind fun outcome => ?_
    split
    · have hclear : Within r (clearPending id) := within_atomically fun s _ =>
        h.updates s s.staged s.stagings s.preparing s.showing _ s.putBacks false []
      exact hclear.bind fun _ => within_unlock_reply h.transaction _
    · have hback (staged : Staged) : Within r (putBackStaged id staged) :=
        within_atomically fun s _ => h.updates s _ s.stagings s.preparing s.showing _ _
          s.snapshot.managementHotspotPasswordPending s.snapshot.pendingManagementHotspotSsid
      exact (hback _).bind fun _ => within_unlock_reply h.transaction _

end IgnoresUpdates

/-! ## Dispatch -/

section

variable {env : DaemonEnv} {id : ℕ} {request body : Bytes} {motive : Handler Response → Prop}

/-- The arms of the chain that need care. -/
@[elab_as_elim]
theorem dispatch_cases (hread : ∀ t, Within Eq t → motive t)
    (hstage : StartsWith "POST /management-hotspot " request →
      motive (handleManagementHotspot id body))
    (happly : StartsWith "POST /management-hotspot/apply " request →
      motive (handleManagementHotspotApply id))
    (hgate : motive (readConfig >>= fun config =>
      if config.NeedsSetup then
        pure (.text 403 "Change the default management hotspot password first\n")
      else dispatchSetUp env id request body)) : motive (dispatch env id request body) := by
  unfold dispatch
  split
  · exact hread _ (within_handlePage env request)
  split
  · exact hread _ (within_pure _)
  split
  · exact hread _ (within_pure _)
  split
  · exact hread _ (within_handleScanStatus request)
  split
  · exact hread _ (within_handlePrepareStatus request)
  split
  · exact hstage ‹_›
  split
  · exact happly ‹_›
  · exact hgate

@[elab_as_elim]
theorem dispatchSetUp_cases (hsame : ∀ t, Within SameSettings t → motive t)
    (hconfig : motive (handleConfig env id body)) :
    motive (dispatchSetUp env id request body) := by
  unfold dispatchSetUp
  split
  · exact hsame _ within_handleCarplayPrepare
  split
  · exact hsame _ (settings_of_unaffected (within_handleBluetoothConfirm body))
  split
  · exact hsame _ (settings_of_unaffected (within_handleHeadUnitForget env))
  split
  · exact hsame _ (settings_of_unaffected within_handleScan)
  split
  · exact hsame _ (settings_of_unaffected (within_handleDisplay body))
  split
  · exact hconfig
  · exact hsame _ (within_pure _)

end

end Bridge
end Aa2acp
