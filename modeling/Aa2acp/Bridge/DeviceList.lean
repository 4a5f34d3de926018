import Aa2acp.Bridge.DaemonHandlers
import Aa2acp.Lib.Keyed

/-!
# The list of Bluetooth devices

What the management page lists after `refresh_bluetooth_inventory` and
`POST /head-unit-forget`: the inventory of BlueZ is merged into the list from before.  So
the list holds, for every address that was ever reported, the device as it was reported
last.  It is BlueZ's current state exactly when no device that was last reported as paired
or connected has disappeared from the inventory, and a head unit that was forgotten has.

The other requests leave the list alone.  A reply of BlueZ is the list of the devices in it;
how they are read out of the D-Bus message is left out.
-/

namespace Aa2acp
namespace Bridge

open Management Thread Keyed

/-- `list_bluez_devices`, for the devices of the reply. -/
def listBluezDevices (reported : List BluetoothDevice) : List BluetoothDevice :=
  (reported.filter (·.address ≠ [])).mergeSort shownBefore

/-! ## The order of the list -/

/-- Paired devices come first, and then the address decides. -/
def ShownInOrder (left right : BluetoothDevice) : Prop :=
  left.paired = true ∧ right.paired = false ∨
    left.paired = right.paired ∧ left.address < right.address

instance (left right : BluetoothDevice) : Decidable (ShownInOrder left right) :=
  inferInstanceAs (Decidable (_ ∨ _))

theorem shownBefore_iff (left right : BluetoothDevice) : shownBefore left right = true ↔
    left.paired = true ∧ right.paired = false ∨
      left.paired = right.paired ∧ left.address ≤ right.address := by
  unfold shownBefore
  cases left.paired <;> cases right.paired <;> simp

theorem shownBefore_trans (left middle right : BluetoothDevice)
    (hleft : shownBefore left middle = true) (hright : shownBefore middle right = true) :
    shownBefore left right = true := by
  rw [shownBefore_iff] at hleft hright ⊢
  rcases hleft with ⟨hpaired, hnot⟩ | ⟨hsame, hle⟩
  · rcases hright with ⟨hpaired', -⟩ | ⟨hsame', -⟩
    · rw [hnot] at hpaired'
      cases hpaired'
    · exact Or.inl ⟨hpaired, hsame' ▸ hnot⟩
  · rcases hright with ⟨hpaired', hnot'⟩ | ⟨hsame', hle'⟩
    · exact Or.inl ⟨hsame.trans hpaired', hnot'⟩
    · exact Or.inr ⟨hsame.trans hsame', List.le_trans hle hle'⟩

theorem shownBefore_total (left right : BluetoothDevice) :
    (shownBefore left right || shownBefore right left) = true := by
  rw [Bool.or_eq_true, shownBefore_iff, shownBefore_iff]
  have htotal := List.le_total left.address right.address
  cases left.paired <;> cases right.paired <;> simp [htotal]

/-- Devices with different addresses have one order. -/
theorem shownInOrder_mergeSort {devices : List BluetoothDevice}
    (h : Distinct BluetoothDevice.address devices) :
    (devices.mergeSort shownBefore).Pairwise ShownInOrder := by
  have hsorted := List.pairwise_mergeSort shownBefore_trans shownBefore_total devices
  have hdistinct : (devices.mergeSort shownBefore).Pairwise
      fun left right => left.address ≠ right.address :=
    List.pairwise_map.mp (((List.mergeSort_perm devices shownBefore).map _).nodup_iff.mpr h)
  refine (hsorted.and hdistinct).imp fun {left right} hboth => ?_
  obtain ⟨hbefore, hne⟩ := hboth
  rw [shownBefore_iff] at hbefore
  rcases hbefore with hpaired | ⟨hsame, hle⟩
  · exact Or.inl hpaired
  · refine Or.inr ⟨hsame, List.not_le.mp fun hge => hne (List.le_antisymm hle hge)⟩

/-! ## One refresh -/

/-- The list shows the inventory, and nothing as paired or connected that is not so in it. -/
structure Current (inventory shown : List BluetoothDevice) : Prop where
  distinct : Distinct BluetoothDevice.address shown
  ordered : shown.Pairwise ShownInOrder
  complete : ∀ device ∈ inventory, device ∈ shown
  paired : ∀ device ∈ shown, device.paired = true →
    ∃ reported ∈ inventory, reported.address = device.address ∧ reported.paired = true
  connected : ∀ device ∈ shown, device.connected = true →
    ∃ reported ∈ inventory, reported.address = device.address ∧ reported.connected = true

/-- The list is a table of devices, to which the inventory is assigned. -/
theorem bluetoothDevices_refreshed {snapshot : Snapshot}
    (h : Distinct BluetoothDevice.address snapshot.bluetoothDevices)
    (inventory : List BluetoothDevice) :
    (snapshot.refreshed inventory []).bluetoothDevices =
      (assignAll BluetoothDevice.address snapshot.bluetoothDevices inventory).mergeSort
        shownBefore := by
  have hold : snapshot.bluetoothDevices.foldl (emplace BluetoothDevice.address) [] =
      snapshot.bluetoothDevices := foldl_emplace h
  have hmerged : (snapshot.refreshed inventory []).bluetoothDevices =
      (assignAll BluetoothDevice.address
        (snapshot.bluetoothDevices.foldl (emplace BluetoothDevice.address) [])
        inventory).mergeSort shownBefore := rfl
  rw [hmerged, hold]

/-- With an error the list stays as it was. -/
theorem bluetoothDevices_refreshed_of_error (snapshot : Snapshot)
    (inventory : List BluetoothDevice) {error : Bytes} (h : error ≠ []) :
    (snapshot.refreshed inventory error).bluetoothDevices = snapshot.bluetoothDevices := by
  unfold Snapshot.refreshed
  rw [if_pos h]

/-- After the inventory was assigned to a table the list is current exactly when nothing in
the table that was paired or connected is missing from the inventory. -/
theorem current_merged_iff {table inventory : List BluetoothDevice}
    (htable : Distinct BluetoothDevice.address table)
    (hinventory : Distinct BluetoothDevice.address inventory) :
    Current inventory ((assignAll BluetoothDevice.address table inventory).mergeSort shownBefore) ↔
      ∀ device ∈ table, device.paired = true ∨ device.connected = true →
        device.address ∈ inventory.map BluetoothDevice.address := by
  have hmerged := htable.assignAll inventory
  have hmem (device : BluetoothDevice) :
      device ∈ (assignAll BluetoothDevice.address table inventory).mergeSort shownBefore ↔
        device ∈ inventory ∨
          device ∈ table ∧ device.address ∉ inventory.map BluetoothDevice.address := by
    rw [List.mem_mergeSort, mem_assignAll hinventory]
  constructor
  · intro hcurrent device hdevice hstate
    by_contra hlost
    have hshown := (hmem device).mpr (Or.inr ⟨hdevice, hlost⟩)
    have hreported : ∃ reported ∈ inventory, reported.address = device.address := by
      rcases hstate with hpaired | hconnected
      · obtain ⟨reported, hin, haddress, -⟩ := hcurrent.paired device hshown hpaired
        exact ⟨reported, hin, haddress⟩
      · obtain ⟨reported, hin, haddress, -⟩ := hcurrent.connected device hshown hconnected
        exact ⟨reported, hin, haddress⟩
    obtain ⟨reported, hin, haddress⟩ := hreported
    exact hlost (haddress ▸ List.mem_map_of_mem hin)
  · intro hkept
    refine ⟨((List.mergeSort_perm _ shownBefore).map _).nodup_iff.mpr hmerged,
      shownInOrder_mergeSort hmerged, fun device hdevice => (hmem device).mpr (Or.inl hdevice), ?_, ?_⟩
    · intro device hshown hpaired
      rcases (hmem device).mp hshown with hin | ⟨hold, hlost⟩
      · exact ⟨device, hin, rfl, hpaired⟩
      · exact absurd (hkept device hold (Or.inl hpaired)) hlost
    · intro device hshown hconnected
      rcases (hmem device).mp hshown with hin | ⟨hold, hlost⟩
      · exact ⟨device, hin, rfl, hconnected⟩
      · exact absurd (hkept device hold (Or.inr hconnected)) hlost

/-! ## Refreshes and forget requests -/

/-- What BlueZ answers: its devices, or an error. -/
structure BluezReply where
  reported : List BluetoothDevice := []
  error : Bytes := []
deriving DecidableEq, Repr

/-- What `list_bluez_devices` makes of it. -/
def BluezReply.outcome (reply : BluezReply) : Outcome where
  devices := if reply.error = [] then listBluezDevices reply.reported else []
  error := reply.error

/-- The inventory, if there was no error. -/
def BluezReply.inventory? (reply : BluezReply) : Option (List BluetoothDevice) :=
  if reply.error = [] then some (listBluezDevices reply.reported) else none

/-- What the calls of `POST /head-unit-forget` return. -/
structure ForgetOutcome where
  bluetoothRemoved : Bool := true
  pairingRemoved : Bool := true
  capabilitiesRemoved : Bool := true
  reply : BluezReply
deriving DecidableEq, Repr

/-- The answers to the sections of the handler, in their order. -/
def ForgetOutcome.answers (outcome : ForgetOutcome) : List Outcome :=
  [{}, {}, { ok := outcome.bluetoothRemoved }, { ok := outcome.pairingRemoved },
    { ok := outcome.capabilitiesRemoved }, outcome.reply.outcome, {}]

inductive InventoryEvent where
  /-- `refresh_bluetooth_inventory` when the daemon starts or a scan is over. -/
  | refresh (reply : BluezReply)
  | forget (outcome : ForgetOutcome)
  /-- Anything else that is done to the daemon; it leaves the list alone. -/
  | other (daemon : Daemon)

namespace InventoryEvent

variable (env : DaemonEnv)

def apply : InventoryEvent → Daemon → Daemon
  | .refresh reply, s => (refreshBluetoothInventory.run [reply.outcome] s).2
  | .forget outcome, s => ((handleHeadUnitForget env).run outcome.answers s).2
  | .other daemon, s =>
      { daemon with
        snapshot := { daemon.snapshot with bluetoothDevices := s.snapshot.bluetoothDevices } }

def step (event : InventoryEvent) (s : Daemon) : Option Daemon := some (event.apply env s)

def run : List InventoryEvent → Daemon → Option Daemon := Machine.run (step env)

/-- The inventory that is merged into the list, if one is.  A head unit is not forgotten
when there is none, or during a preflight. -/
def inventory? : InventoryEvent → Daemon → Option (List BluetoothDevice)
  | .refresh reply, _ => reply.inventory?
  | .forget outcome, s =>
      if s.config.headUnitMac ≠ [] ∧ ¬ s.snapshot.preflightState.Active then
        outcome.reply.inventory?
      else none
  | .other _, _ => none

/-- The inventories that were merged in a run, in order. -/
def inventories (events : List InventoryEvent) (s : Daemon) : List (List BluetoothDevice) :=
  Machine.trace (step env) (fun event s => (event.inventory? s).toList) events s

/-- A reply is merged, or an error is shown. -/
theorem bluetoothDevices_reply (reply : BluezReply) {snapshot : Snapshot}
    (h : Distinct BluetoothDevice.address snapshot.bluetoothDevices) :
    (snapshot.refreshed reply.outcome.devices reply.outcome.error).bluetoothDevices =
      match reply.inventory? with
      | some inventory => (assignAll BluetoothDevice.address snapshot.bluetoothDevices
          inventory).mergeSort shownBefore
      | none => snapshot.bluetoothDevices := by
  obtain ⟨reported, error⟩ := reply
  by_cases herror : error = []
  · subst herror
    exact bluetoothDevices_refreshed h _
  · have hnone : (BluezReply.mk reported error).inventory? = none := if_neg herror
    rw [hnone]
    exact bluetoothDevices_refreshed_of_error snapshot _ herror

/-- Without a head unit there is nothing to forget. -/
theorem handleHeadUnitForget_of_unset (outcome : ForgetOutcome) {s : Daemon}
    (h : s.config.headUnitMac = []) :
    ((handleHeadUnitForget env).run outcome.answers s).2.snapshot.bluetoothDevices =
      s.snapshot.bluetoothDevices := by
  show ((if s.config.headUnitMac = [] then _ else _ : Handler Response).run _ _).2.snapshot.bluetoothDevices = _
  rw [if_pos h]
  rfl

/-- During a preflight nothing is forgotten. -/
theorem handleHeadUnitForget_of_active (outcome : ForgetOutcome) {s : Daemon}
    (h : s.config.headUnitMac ≠ []) (hactive : s.snapshot.preflightState.Active) :
    ((handleHeadUnitForget env).run outcome.answers s).2.snapshot.bluetoothDevices =
      s.snapshot.bluetoothDevices := by
  show ((if s.config.headUnitMac = [] then _ else if s.snapshot.preflightState.Active then _ else _ :
    Handler Response).run _ _).2.snapshot.bluetoothDevices = _
  rw [if_neg h, if_pos hactive]
  rfl

/-- Otherwise the inventory is merged once BlueZ and the stores were asked. -/
theorem handleHeadUnitForget_of_ready (outcome : ForgetOutcome) {s : Daemon}
    (h : s.config.headUnitMac ≠ []) (hactive : ¬ s.snapshot.preflightState.Active) :
    ((handleHeadUnitForget env).run outcome.answers s).2.snapshot.bluetoothDevices =
      (s.snapshot.refreshed outcome.reply.outcome.devices
        outcome.reply.outcome.error).bluetoothDevices := by
  show ((if s.config.headUnitMac = [] then _ else if s.snapshot.preflightState.Active then _ else _ :
    Handler Response).run _ _).2.snapshot.bluetoothDevices = _
  rw [if_neg h, if_neg hactive]
  obtain ⟨bluetoothRemoved, pairingRemoved, capabilitiesRemoved, reply⟩ := outcome
  cases bluetoothRemoved <;> cases pairingRemoved <;> cases capabilitiesRemoved <;> rfl

/-- What an event does to the list. -/
theorem bluetoothDevices_apply (event : InventoryEvent) {s : Daemon}
    (h : Distinct BluetoothDevice.address s.snapshot.bluetoothDevices) :
    (event.apply env s).snapshot.bluetoothDevices =
      match event.inventory? s with
      | some inventory => (assignAll BluetoothDevice.address s.snapshot.bluetoothDevices
          inventory).mergeSort shownBefore
      | none => s.snapshot.bluetoothDevices := by
  cases event with
  | refresh reply => exact bluetoothDevices_reply reply h
  | forget outcome =>
      by_cases hmac : s.config.headUnitMac = []
      · have hnone : (InventoryEvent.forget outcome).inventory? s = none :=
          if_neg fun hboth => hboth.1 hmac
        rw [hnone, apply, handleHeadUnitForget_of_unset env outcome hmac]
      · by_cases hactive : s.snapshot.preflightState.Active
        · have hnone : (InventoryEvent.forget outcome).inventory? s = none :=
            if_neg fun hboth => hboth.2 hactive
          rw [hnone, apply, handleHeadUnitForget_of_active env outcome hmac hactive]
        · have hsome : (InventoryEvent.forget outcome).inventory? s = outcome.reply.inventory? :=
            if_pos ⟨hmac, hactive⟩
          rw [hsome, apply, handleHeadUnitForget_of_ready env outcome hmac hactive]
          exact bluetoothDevices_reply outcome.reply h
  | other daemon => rfl

end InventoryEvent

/-! ## The other requests -/

/-- The list is left alone. -/
def SameList (s s' : Daemon) : Prop := s'.snapshot.bluetoothDevices = s.snapshot.bluetoothDevices

theorem ignoresUpdates_sameList : IgnoresUpdates SameList where
  settings _ _ _ _ _ _ := rfl
  updates _ _ _ _ _ _ _ _ _ := rfl

section

variable {α : Type}

theorem sameList_withSnapshot {f : Snapshot → α × Snapshot}
    (h : ∀ snapshot, (f snapshot).2.bluetoothDevices = snapshot.bluetoothDevices) :
    Within SameList (withSnapshot f) :=
  within_atomically fun s _ => h s.snapshot

theorem sameList_modifySnapshot {f : Snapshot → Snapshot}
    (h : ∀ snapshot, (f snapshot).bluetoothDevices = snapshot.bluetoothDevices) :
    Within SameList (modifySnapshot f) := sameList_withSnapshot h

end

theorem sameList_configSaved (env : DaemonEnv) (previous updated : Config) :
    Within SameList (configSaved env previous updated) := by
  have hremove : Within SameList (removeStore env.capabilitiesStore) :=
    within_atomically fun _ outcome => by cases outcome.ok <;> rfl
  have hrebind : Within SameList requestRebind := within_atomically fun _ _ => rfl
  simp only [configSaved]
  split
  · refine hremove.bind fun _ => ?_
    split
    · exact hrebind.bind fun _ => within_pure _
    · exact within_pure _
  · split
    · exact hrebind.bind fun _ => within_pure _
    · exact within_pure _

theorem sameList_handleCarplayPrepare : Within SameList handleCarplayPrepare := by
  have hbegin : Within SameList (withSnapshot beginPreflight) :=
    sameList_withSnapshot fun snapshot => by
      unfold beginPreflight
      split <;> rfl
  refine (within_readConfig ignoresUpdates_sameList.refl).bind fun selected => ?_
  refine hbegin.bind fun start => ?_
  split
  · have hstart : Within SameList (startPreflight selected) := within_atomically fun _ _ => rfl
    exact hstart.bind fun _ => within_pure _
  · refine (sameList_modifySnapshot fun _ => rfl).bind fun _ => ?_
    split <;> exact within_pure _

theorem sameList_refuseConfirmation : Within SameList refuseConfirmation :=
  (sameList_modifySnapshot fun _ => rfl).bind fun _ => within_pure _

theorem sameList_handleBluetoothConfirm (body : Bytes) :
    Within SameList (handleBluetoothConfirm body) := by
  unfold handleBluetoothConfirm
  split
  · split
    · have htake (id : Bytes) : Within SameList (withSnapshot (takeConfirmation id)) :=
        sameList_withSnapshot fun snapshot => by
          unfold takeConfirmation
          split
          · split <;> rfl
          · rfl
      refine (htake _).bind fun confirmation => ?_
      split
      · exact sameList_refuseConfirmation
      · refine (within_atomically fun _ outcome => ?_).bind fun accepted => ?_
        · cases outcome.ok <;> rfl
        · split
          · exact within_pure _
          · refine (sameList_modifySnapshot fun snapshot => ?_).bind fun _ =>
              sameList_refuseConfirmation
            split <;> rfl
    · exact sameList_refuseConfirmation
  · exact sameList_refuseConfirmation

theorem sameList_handleScan : Within SameList handleScan := by
  have hbegin : Within SameList (withSnapshot beginScan) :=
    sameList_withSnapshot fun snapshot => by
      unfold beginScan
      split <;> rfl
  have hstart : Within SameList startScan := within_atomically fun _ _ => rfl
  refine hbegin.bind fun start => ?_
  split
  · exact hstart.bind fun _ => within_pure _
  · exact within_pure _

theorem sameList_handleDisplay (body : Bytes) : Within SameList (handleDisplay body) :=
  (sameList_modifySnapshot fun _ => rfl).bind fun _ => within_pure _

/-- The endpoints behind the default password, but for `POST /head-unit-forget`. -/
theorem sameList_dispatchSetUp (env : DaemonEnv) (id : ℕ) (request body : Bytes)
    (h : ¬ StartsWith "POST /head-unit-forget " request) :
    Within SameList (dispatchSetUp env id request body) := by
  unfold dispatchSetUp
  split
  · exact sameList_handleCarplayPrepare
  split
  · exact sameList_handleBluetoothConfirm body
  split
  · exact sameList_handleScan
  split
  · exact sameList_handleDisplay body
  split
  · exact ignoresUpdates_sameList.within_handleConfig env id body (sameList_configSaved env)
  · exact within_pure _

/-- To the list every section of any other request is an event of the kind `other`. -/
theorem other_requests (env : DaemonEnv) (id : ℕ) (request body : Bytes)
    (h : ¬ StartsWith "POST /head-unit-forget " request) :
    Within (fun s s' => (InventoryEvent.other s').apply env s = s')
      (dispatch env id request body) := by
  have hsame : Within SameList (dispatch env id request body) := by
    refine dispatch_cases (fun t hread => hread.mono fun s s' heq => ?_)
      (fun _ => ignoresUpdates_sameList.within_handleManagementHotspot id body)
      (fun _ => ignoresUpdates_sameList.within_handleManagementHotspotApply id) ?_
    · rw [heq]
      exact ignoresUpdates_sameList.refl s'
    · refine (within_readConfig ignoresUpdates_sameList.refl).bind fun config => ?_
      split
      · exact within_pure _
      · exact sameList_dispatchSetUp env id request body h
  refine hsame.mono fun s s' hlist => ?_
  change { s' with snapshot := { s'.snapshot with
    bluetoothDevices := s.snapshot.bluetoothDevices } } = s'
  rw [← hlist]

/-! ## Whole runs -/

/-- The list shows every address that was ever reported, as it was reported last. -/
structure ShowsLast (history : List (List BluetoothDevice)) (shown : List BluetoothDevice) :
    Prop where
  distinct : Distinct BluetoothDevice.address shown
  last : ∀ device, device ∈ shown ↔ LastReported BluetoothDevice.address history device

variable {env : DaemonEnv} {events : List InventoryEvent} {s s' : Daemon}
  {history : List (List BluetoothDevice)}

theorem showsLast_start (h : s.snapshot.bluetoothDevices = []) :
    ShowsLast [] s.snapshot.bluetoothDevices := by
  rw [h]
  refine ⟨List.nodup_nil, fun device => ?_⟩
  simp [not_lastReported_nil]

theorem ShowsLast.apply (h : ShowsLast history s.snapshot.bluetoothDevices) (event : InventoryEvent)
    (hdistinct : ∀ inventory ∈ event.inventory? s, Distinct BluetoothDevice.address inventory) :
    ShowsLast (history ++ (event.inventory? s).toList)
      (event.apply env s).snapshot.bluetoothDevices := by
  rw [event.bluetoothDevices_apply env h.distinct]
  cases hinventory : event.inventory? s with
  | none =>
      rw [Option.toList_none, List.append_nil]
      exact h
  | some inventory =>
      refine ⟨((List.mergeSort_perm _ shownBefore).map _).nodup_iff.mpr (h.distinct.assignAll _),
        fun device => ?_⟩
      rw [List.mem_mergeSort, mem_assignAll_of_lastReported h.last (hdistinct inventory hinventory)]
      rfl

/-- The list after a run. -/
theorem showsLast_run (hstart : s.snapshot.bluetoothDevices = [])
    (hdistinct : ∀ inventory ∈ InventoryEvent.inventories env events s,
      Distinct BluetoothDevice.address inventory)
    (hrun : InventoryEvent.run env events s = some s') :
    ShowsLast (InventoryEvent.inventories env events s) s'.snapshot.bluetoothDevices := by
  have hinvariant := Machine.trace_invariant
    (fun history (s : Daemon) => (∀ inventory ∈ history, Distinct BluetoothDevice.address inventory) →
      ShowsLast history s.snapshot.bluetoothDevices)
    (fun history event before after hshows hstep hall => by
      cases hstep
      refine (hshows fun inventory hin => hall inventory (List.mem_append_left _ hin)).apply event
        fun inventory hin => hall inventory (List.mem_append_right _ ?_)
      rw [Option.mem_toList]
      exact hin)
    (fun _ => showsLast_start hstart) hrun
  rw [List.nil_append] at hinvariant
  exact hinvariant hdistinct

/-- No device that was last reported as paired or connected is missing from the inventory. -/
def NothingLost (history : List (List BluetoothDevice)) (inventory : List BluetoothDevice) : Prop :=
  ∀ device, LastReported BluetoothDevice.address history device →
    device.paired = true ∨ device.connected = true →
      device.address ∈ inventory.map BluetoothDevice.address

/-- In every run, after a refresh without error the list is BlueZ's current state exactly when
no device that an earlier inventory reported last, and as paired or connected, is missing
from the new one. -/
theorem device_list_current_iff (env : DaemonEnv) (start s s' : Daemon)
    (events : List InventoryEvent) (event : InventoryEvent) (inventory : List BluetoothDevice)
    (hstart : start.snapshot.bluetoothDevices = [])
    (hrun : InventoryEvent.run env events start = some s)
    (hstep : event.step env s = some s') (hinventory : event.inventory? s = some inventory)
    (hdistinct : ∀ inventory ∈ InventoryEvent.inventories env (events ++ [event]) start,
      Distinct BluetoothDevice.address inventory) :
    Current inventory s'.snapshot.bluetoothDevices ↔
      NothingLost (InventoryEvent.inventories env events start) inventory := by
  have hhistory : InventoryEvent.inventories env (events ++ [event]) start =
      InventoryEvent.inventories env events start ++ [inventory] := by
    unfold InventoryEvent.inventories
    rw [Machine.trace_append hrun, Machine.trace_cons_of_step hstep, hinventory]
    rfl
  rw [hhistory] at hdistinct
  have hshows := showsLast_run hstart
    (fun earlier hin => hdistinct earlier (List.mem_append_left _ hin)) hrun
  have hlist := event.bluetoothDevices_apply env hshows.distinct
  rw [hinventory] at hlist
  cases hstep
  rw [hlist, current_merged_iff hshows.distinct (hdistinct inventory (by simp))]
  exact forall_congr' fun device => by rw [hshows.last]

theorem inventory_single {device : BluetoothDevice} (h : device.address ≠ []) :
    BluezReply.inventory? { reported := [device] } = some [device] := by
  have hlisted : listBluezDevices [device] = [device] := by
    simp [listBluezDevices, h]
  exact congrArg some hlisted

/-- A paired phone that is still reported, now connected. -/
theorem device_list_current_iff_kept :
    Current [⟨[0x41], [], true, true⟩]
      ((InventoryEvent.refresh { reported := [⟨[0x41], [], true, true⟩] }).apply ⟨[], []⟩
        ((InventoryEvent.refresh { reported := [⟨[0x41], [], true, false⟩] }).apply ⟨[], []⟩
          { config := {} })).snapshot.bluetoothDevices := by
  have hbefore : BluezReply.inventory? { reported := [⟨[0x41], [], true, false⟩] } =
      some [⟨[0x41], [], true, false⟩] := inventory_single (by simp)
  have hafter : BluezReply.inventory? { reported := [⟨[0x41], [], true, true⟩] } =
      some [⟨[0x41], [], true, true⟩] := inventory_single (by simp)
  have hdistinct : ∀ inventory ∈ InventoryEvent.inventories ⟨[], []⟩
      ([.refresh { reported := [⟨[0x41], [], true, false⟩] }] ++
        [.refresh { reported := [⟨[0x41], [], true, true⟩] }]) { config := {} },
      Distinct BluetoothDevice.address inventory := by
    simp [InventoryEvent.inventories, Machine.trace, InventoryEvent.step,
      InventoryEvent.inventory?, hbefore, hafter, Distinct]
  have hiff := device_list_current_iff ⟨[], []⟩ { config := {} } _ _
    [.refresh { reported := [⟨[0x41], [], true, false⟩] }]
    (.refresh { reported := [⟨[0x41], [], true, true⟩] }) _ rfl rfl rfl hafter hdistinct
  refine hiff.mpr fun device hlast _ => ?_
  have hhistory : InventoryEvent.inventories ⟨[], []⟩
      [.refresh { reported := [⟨[0x41], [], true, false⟩] }] { config := {} } =
        [] ++ [[⟨[0x41], [], true, false⟩]] := by
    simp [InventoryEvent.inventories, Machine.trace, InventoryEvent.step,
      InventoryEvent.inventory?, hbefore]
  rw [hhistory, lastReported_concat] at hlast
  rcases hlast with hin | ⟨hnever, -⟩
  · rw [List.mem_singleton.mp hin]
    simp
  · exact absurd hnever not_lastReported_nil

/-- A paired head unit is forgotten: BlueZ removes it and reports nothing any more, and the
list shows it as paired. -/
theorem forgotten_still_paired :
    ∃ start s s' : Daemon, start.snapshot.bluetoothDevices = [] ∧
      start.config.headUnitMac = ascii "AA:BB:CC:DD:EE:FF" ∧
      InventoryEvent.run ⟨[], []⟩
        [.refresh { reported := [⟨ascii "AA:BB:CC:DD:EE:FF", [], true, false⟩] }] start =
          some s ∧
      InventoryEvent.step ⟨[], []⟩ (.forget { reply := {} }) s = some s' ∧
      (InventoryEvent.forget { reply := {} }).inventory? s = some [] ∧
      ⟨ascii "AA:BB:CC:DD:EE:FF", [], true, false⟩ ∈ s'.snapshot.bluetoothDevices ∧
      ¬ Current [] s'.snapshot.bluetoothDevices := by
  let headUnit : BluetoothDevice := ⟨ascii "AA:BB:CC:DD:EE:FF", [], true, false⟩
  let start : Daemon := { config := { headUnitMac := headUnit.address } }
  let s := (InventoryEvent.refresh { reported := [headUnit] }).apply ⟨[], []⟩ start
  have hreported : (InventoryEvent.refresh { reported := [headUnit] }).inventory? start =
      some [headUnit] := inventory_single (by decide)
  have hnone : (InventoryEvent.forget { reply := {} }).inventory? s = some [] := by
    have hready : s.config.headUnitMac ≠ [] ∧ ¬ s.snapshot.preflightState.Active :=
      ⟨by decide, by decide⟩
    have hempty : BluezReply.inventory? {} = some [] := by
      simp [BluezReply.inventory?, listBluezDevices]
    rw [InventoryEvent.inventory?, if_pos hready, hempty]
  have hshows : ShowsLast [[headUnit]] s.snapshot.bluetoothDevices := by
    have hstart : ShowsLast [] start.snapshot.bluetoothDevices := showsLast_start rfl
    have hfirst : ShowsLast ([] ++ _) s.snapshot.bluetoothDevices :=
      hstart.apply (InventoryEvent.refresh { reported := [headUnit] })
        (by simp [hreported, Distinct])
    rwa [hreported] at hfirst
  have hlisted : headUnit ∈ s.snapshot.bluetoothDevices :=
    (hshows.last headUnit).mpr ⟨[], [headUnit], [], rfl, by simp, by simp⟩
  have hstill : headUnit ∈ ((InventoryEvent.forget { reply := {} }).apply ⟨[], []⟩
      s).snapshot.bluetoothDevices := by
    rw [InventoryEvent.bluetoothDevices_apply _ _ hshows.distinct, hnone]
    exact List.mem_mergeSort.mpr hlisted
  refine ⟨start, s, _, rfl, rfl, rfl, rfl, hnone, hstill, fun hcurrent => ?_⟩
  obtain ⟨reported, hin, -⟩ := hcurrent.paired headUnit hstill rfl
  cases hin

end Bridge
end Aa2acp
