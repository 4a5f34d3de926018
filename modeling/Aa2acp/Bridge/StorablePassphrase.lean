import Aa2acp.Bridge.DaemonHandlers

/-!
# Passphrases that can be stored

Two functions say what a passphrase may be.  `valid_hotspot_passphrase` guards the staged
update, `validate_config` the file, and the second one refuses a zero byte which the first
one lets through.  By then the hotspot was already started with it.
-/

namespace Aa2acp
namespace Bridge

open Text Management Thread

def Config.withPassphrase (passphrase : Bytes) (config : Config) : Config :=
  { config with managementHotspotPassphrase := passphrase }

/-- The updates that are staged or being applied. -/
def Daemon.updates (s : Daemon) : List PendingManagementHotspotUpdate :=
  (s.staged.toList ++ s.applying.map Prod.snd).map Staged.update

/-! ## The two validators -/

theorem validateConfig_false_iff (config : Config) :
    validateConfig config false = true ↔
      config.wifiInterface ≠ [] ∧ ValidSerializedValue config.headUnitMac ∧
        ValidSerializedValue config.wifiInterface ∧
        ValidSerializedValue config.managementHotspotSsid ∧
        ValidSerializedValue config.managementHotspotPassphrase ∧
        ValidSerializedValue config.airplayPairingStore ∧
        config.managementHotspotSsid ≠ [] ∧ config.managementHotspotPassphrase.length ≥ 8 := by
  unfold validateConfig
  split
  · rename_i hrefused
    constructor
    · intro h
      cases h
    · rintro ⟨hwifi, hmac, hinterface, hssid, hpassphrase, hstore, -⟩
      rcases hrefused with h | h | h | h | h | h
      · exact absurd h hwifi
      · exact absurd hmac h
      · exact absurd hinterface h
      · exact absurd hssid h
      · exact absurd hpassphrase h
      · exact absurd hstore h
  · rename_i haccepted
    simp only [not_or, not_not] at haccepted
    obtain ⟨hwifi, hmac, hinterface, hssid, hpassphrase, hstore⟩ := haccepted
    simp [hwifi, hmac, hinterface, hssid, hpassphrase, hstore]

/-- Of a passphrase that the form accepts, the file refuses a zero byte and nothing else. -/
theorem validSerializedValue_iff {passphrase : Bytes} (h : ValidHotspotPassphrase passphrase) :
    ValidSerializedValue passphrase ↔ 0x00 ∉ passphrase := by
  obtain ⟨-, -, hreturn, hnewline, hequals⟩ := h
  constructor
  · exact fun hvalid => hvalid.2.2.2
  · exact fun hzero => ⟨hreturn, hnewline, hequals, hzero⟩

/-- Where another passphrase is accepted, this one is exactly when it has no zero byte. -/
theorem validateConfig_withPassphrase {passphrase other : Bytes} {config : Config}
    (h : ValidHotspotPassphrase passphrase)
    (hother : validateConfig (config.withPassphrase other) false = true) :
    validateConfig (config.withPassphrase passphrase) false = true ↔ 0x00 ∉ passphrase := by
  rw [← validSerializedValue_iff h]
  rw [validateConfig_false_iff] at hother ⊢
  obtain ⟨hwifi, hmac, hinterface, hssid, -, hstore, hnonempty, -⟩ := hother
  constructor
  · exact fun hvalid => hvalid.2.2.2.2.1
  · exact fun hvalid => ⟨hwifi, hmac, hinterface, hssid, hvalid, hstore, hnonempty, h.2.1⟩

theorem validateConfig_replaced {passphrase : Bytes} {config : Config}
    (h : ValidHotspotPassphrase passphrase) (hconfig : validateConfig config false = true) :
    validateConfig (config.withPassphrase passphrase) false = true ↔ 0x00 ∉ passphrase := by
  have hother : validateConfig
      (config.withPassphrase config.managementHotspotPassphrase) false = true := hconfig
  exact validateConfig_withPassphrase h hother

theorem saveConfig_fst (config : Config) (file : Bytes) :
    (saveConfig config true file).1 = validateConfig config false := by
  unfold saveConfig
  cases validateConfig config false <;> rfl

/-! ## The updates of the daemon -/

/-- The form accepted the passphrase of every update. -/
def UpdatesAccepted (s : Daemon) : Prop :=
  ∀ update ∈ s.updates, ValidHotspotPassphrase update.passphrase

theorem updatesAccepted_iff (s : Daemon) :
    UpdatesAccepted s ↔
      (∀ staged, s.staged = some staged → ValidHotspotPassphrase staged.update.passphrase) ∧
        ∀ entry ∈ s.applying, ValidHotspotPassphrase entry.2.update.passphrase := by
  unfold UpdatesAccepted Daemon.updates
  simp only [List.forall_mem_map, List.forall_mem_append, Option.mem_toList]

theorem UpdatesAccepted.of_same {s s' : Daemon} (h : UpdatesAccepted s)
    (hstaged : s'.staged = s.staged) (happlying : s'.applying = s.applying) :
    UpdatesAccepted s' := by
  unfold UpdatesAccepted Daemon.updates at h ⊢
  rwa [hstaged, happlying]

/-- Of the other requests nothing is assumed. -/
def acceptedDiscipline : Discipline Daemon where
  inv := UpdatesAccepted
  allowed := fun _ _ => True
  rely := fun _ _ _ => True
  guarantee := fun _ _ _ => True
  fresh := fun _ _ => True
  rely_refl := fun _ _ => trivial
  rely_trans := fun _ _ => trivial
  rely_of_guarantee := fun _ _ _ => trivial
  fresh_of_rely := fun _ _ => trivial

/-- The section leaves the updates alone. -/
def SameUpdates (s s' : Daemon) : Prop := s'.staged = s.staged ∧ s'.applying = s.applying

theorem ignoresSettings_sameUpdates : IgnoresSettings SameUpdates where
  settings _ _ _ _ _ _ := ⟨rfl, rfl⟩

namespace Storable

section

variable {α : Type} {env : DaemonEnv} {id : ℕ} {body : Bytes} {s : Daemon} {t : Handler α}

theorem guarded_sameUpdates (h : Within SameUpdates t) :
    Guarded (acceptedDiscipline.contract id) t (fun _ _ => True) s :=
  h.guarded (fun _ => True) (fun _ _ _ _ => trivial)
    (fun _ _ (hinv : UpdatesAccepted _) _ hsame => ⟨hinv.of_same hsame.1 hsame.2, trivial, trivial⟩)
    (fun _ _ _ => trivial) trivial

theorem sameUpdates_of_sameSettings (s s' : Daemon) (h : SameSettings s s') : SameUpdates s s' :=
  ⟨h.staged, h.applying⟩

/-- An update is staged with a passphrase that was looked at. -/
theorem accepted_handleManagementHotspot :
    Guarded (acceptedDiscipline.contract id) (handleManagementHotspot id body)
      (fun _ _ => True) s := by
  unfold handleManagementHotspot
  dsimp only
  split
  · rename_i passphrase confirmation _ _
    split
    · exact guarded_pure fun _ _ => trivial
    split
    · exact guarded_pure fun _ _ => trivial
    · rename_i hvalid
      rw [not_not] at hvalid
      refine guarded_atomically fun s₁ _ (hinv : UpdatesAccepted s₁) _ _ => ?_
      refine ⟨hinv.of_same rfl rfl, trivial, ?_⟩
      refine guarded_atomically fun s₂ _ hinv₂ _ _ => ⟨?_, trivial, ?_⟩
      · have hothers := (updatesAccepted_iff s₂).mp hinv₂
        refine (updatesAccepted_iff _).mpr ⟨?_, hothers.2⟩
        intro staged hstaged
        cases hstaged
        exact hvalid
      · exact guarded_sameUpdates ((within_atomically fun _ _ => ⟨rfl, rfl⟩).bind
          fun _ => within_pure _)
  · exact guarded_pure fun _ _ => trivial

/-- An update that is taken out, or put back, was staged before. -/
theorem accepted_handleManagementHotspotApply :
    Guarded (acceptedDiscipline.contract id) (handleManagementHotspotApply id)
      (fun _ _ => True) s := by
  refine guarded_atomically fun s₁ _ hinv _ _ => ?_
  have haccepted := (updatesAccepted_iff s₁).mp hinv
  cases hstaged : s₁.staged with
  | none => exact ⟨hinv, trivial, guarded_pure fun _ _ => trivial⟩
  | some staged =>
      have hvalid := haccepted.1 staged hstaged
      refine ⟨(updatesAccepted_iff _).mpr ⟨by simp, ?_⟩, trivial, ?_⟩
      · intro entry hentry
        rcases List.mem_cons.mp hentry with rfl | hmem
        · exact hvalid
        · exact haccepted.2 entry hmem
      refine Guarded.bind ((guarded_sameUpdates
        (within_lockTransaction ignoresSettings_sameUpdates.transaction id)).mono fun _ s₂ _ => ?_)
      refine Guarded.bind ((guarded_sameUpdates
        (within_readConfig ignoresSettings_sameUpdates.refl)).mono fun previous s₃ _ => ?_)
      refine Guarded.bind ((guarded_sameUpdates
        (ignoresSettings_sameUpdates.within_applyUpdate _ previous _)).mono fun outcome s₄ _ => ?_)
      split
      · refine guarded_atomically fun s₅ _ hinv₅ _ _ => ⟨?_, trivial, ?_⟩
        · have hothers := (updatesAccepted_iff s₅).mp hinv₅
          exact (updatesAccepted_iff _).mpr ⟨hothers.1, fun entry hentry =>
            hothers.2 entry (List.mem_of_mem_filter hentry)⟩
        · exact guarded_sameUpdates (within_unlock_reply ignoresSettings_sameUpdates.transaction _)
      · refine guarded_atomically fun s₅ _ hinv₅ _ _ => ⟨?_, trivial, ?_⟩
        · have hothers := (updatesAccepted_iff s₅).mp hinv₅
          refine (updatesAccepted_iff _).mpr ⟨?_, fun entry hentry =>
            hothers.2 entry (List.mem_of_mem_filter hentry)⟩
          intro staged' hstaged'
          cases hstaged'
          exact hvalid
        · exact guarded_sameUpdates (within_unlock_reply ignoresSettings_sameUpdates.transaction _)

theorem accepted_dispatch {request : Bytes} :
    Guarded (acceptedDiscipline.contract id) (dispatch env id request body)
      (fun _ _ => True) s := by
  refine dispatch_cases (fun t hread => guarded_sameUpdates (hread.mono ?_))
    (fun _ => accepted_handleManagementHotspot)
    (fun _ => accepted_handleManagementHotspotApply) ?_
  · intro s s' hsame
    rw [hsame]
    exact ⟨rfl, rfl⟩
  refine guarded_sameUpdates ((within_readConfig ignoresSettings_sameUpdates.refl).bind fun config => ?_)
  split
  · exact within_pure _
  · exact dispatchSetUp_cases (fun t hsame => hsame.mono sameUpdates_of_sameSettings)
      (ignoresSettings_sameUpdates.within_handleConfig env id body fun _ _ =>
        (settings_of_unaffected (within_configSaved env _ _)).mono sameUpdates_of_sameSettings)

theorem accepted_handleClient {request : Bytes} :
    Guarded (acceptedDiscipline.contract id) (handleClient env id request)
      (fun _ _ => True) s := by
  unfold handleClient
  split
  · exact Guarded.bind (accepted_dispatch.mono fun _ _ _ => guarded_pure fun _ _ => trivial)
  · exact guarded_pure fun _ _ => trivial
  · exact guarded_pure fun _ _ => trivial

end

end Storable

/-! ## All orders -/

section

variable {env : DaemonEnv} {s : Daemon} {events : List (PoolEvent Bytes Outcome)}
  {p : Pool Outcome Daemon (Option Response)}

theorem updatesAccepted_run (hstart : s.updates = [])
    (hrun : Machine.run (Pool.step (handleClient env)) events ⟨s, []⟩ = some p) :
    UpdatesAccepted p.state := by
  have hfirst : acceptedDiscipline.Governed (fun _ _ _ => True)
      (⟨s, []⟩ : Pool Outcome Daemon (Option Response)) := by
    refine Discipline.governed_start ?_ fun _ => trivial
    intro update hupdate
    rw [hstart] at hupdate
    cases hupdate
  have hgoverned := Machine.run_invariant
    (acceptedDiscipline.Governed fun _ _ _ => True)
    (fun _ _ _ h hstep => h.step (fun _ _ _ _ _ => Storable.accepted_handleClient) trivial hstep)
    hfirst hrun
  exact hgoverned.inv

/-- A passphrase that the form accepts can take the place of any other one in a valid
configuration exactly when it has no zero byte; and in every order of any requests
`save_config` takes an update that is staged or being applied exactly then, where it takes
that update with any other passphrase. -/
theorem passphrase_storable_iff (hstart : s.updates = [])
    (hrun : Machine.run (Pool.step (handleClient env)) events ⟨s, []⟩ = some p) :
    (∀ passphrase, ValidHotspotPassphrase passphrase →
      ((∀ config, validateConfig config false = true →
        validateConfig (config.withPassphrase passphrase) false = true) ↔ 0x00 ∉ passphrase)) ∧
    ∀ update ∈ p.state.updates, ∀ config other file,
      (saveConfig ((update.applied config).withPassphrase other) true file).1 = true →
      ((saveConfig (update.applied config) true file).1 = true ↔ 0x00 ∉ update.passphrase) := by
  constructor
  · intro passphrase hvalid
    constructor
    · intro hreplaced
      let config : Config := ⟨[], [0x77], [0x63], List.replicate 8 0x31, []⟩
      have hconfig : validateConfig config false = true := by decide
      exact (validateConfig_replaced hvalid hconfig).mp (hreplaced config hconfig)
    · intro hzero config hconfig
      exact (validateConfig_replaced hvalid hconfig).mpr hzero
  · intro update hupdate config other file hother
    have hvalid := updatesAccepted_run hstart hrun update hupdate
    rw [saveConfig_fst] at hother ⊢
    exact validateConfig_withPassphrase hvalid hother

end

/-- A passphrase without a zero byte is staged, and can be saved. -/
theorem passphrase_storable_iff_staged :
    let c : Config := ⟨[], ascii "wlan0", ascii "car", ascii "12345678", []⟩
    let stage := ascii "POST /management-hotspot HTTP/1.1\r\nContent-Length: 92\r\n\r\n" ++
      ascii "csrf=t&management_hotspot_passphrase=secret-1" ++
      ascii "&management_hotspot_passphrase_confirm=secret-1"
    let events : List (PoolEvent Bytes Outcome) := .arrive stage :: List.replicate 3 (.advance 0 {})
    ∃ p, Machine.run (Pool.step (handleClient ⟨ascii "t", []⟩)) events
        ⟨{ config := c, file := content c, hotspot := some c.hotspot }, []⟩ = some p ∧
      p.state.updates = [⟨ascii "secret-1", ascii "car"⟩] ∧
      ((∀ passphrase, ValidHotspotPassphrase passphrase →
        ((∀ config, validateConfig config false = true →
          validateConfig (config.withPassphrase passphrase) false = true) ↔
          0x00 ∉ passphrase)) ∧
      ∀ update ∈ p.state.updates, ∀ config other file,
        (saveConfig ((update.applied config).withPassphrase other) true file).1 = true →
        ((saveConfig (update.applied config) true file).1 = true ↔ 0x00 ∉ update.passphrase)) := by
  dsimp only
  repeat rw [ascii_ofList]
  exact (Option.map_eq_some_iff.mp (by decide +kernel)).imp fun _ h =>
    ⟨h.1, h.2, passphrase_storable_iff rfl h.1⟩

/-- A passphrase with a zero byte at its end: the form accepts it and the radio runs it,
then the configuration with it is refused and the update with it. -/
theorem passphrase_refused_after_restart :
    let c : Config := ⟨[], ascii "wlan0", ascii "car", ascii "12345678", []⟩
    let passphrase : Bytes := ascii "87654321" ++ [0x00]
    let body := ascii "csrf=t&management_hotspot_passphrase=87654321%00" ++
      ascii "&management_hotspot_passphrase_confirm=87654321%00"
    let stage := ascii "POST /management-hotspot HTTP/1.1\r\nContent-Length: 98\r\n\r\n" ++ body
    let apply :=
      ascii "POST /management-hotspot/apply HTTP/1.1\r\nContent-Length: 6\r\n\r\ncsrf=t"
    let restarted : List (PoolEvent Bytes Outcome) :=
      .arrive stage :: List.replicate 3 (.advance 0 {}) ++
        .arrive apply :: List.replicate 4
          (.advance 1 { hotspot := some (c.withPassphrase passphrase).hotspot })
    let run := fun events => Machine.run (Pool.step (handleClient ⟨ascii "t", []⟩)) events
      ⟨{ config := c, file := content c, hotspot := some c.hotspot }, []⟩
    formField body (ascii "management_hotspot_passphrase") = some passphrase ∧
      ValidHotspotPassphrase passphrase ∧ validateConfig c false = true ∧
      validateConfig (c.withPassphrase passphrase) false = false ∧
      (∃ p, run restarted = some p ∧
        p.state.hotspot = some (c.withPassphrase passphrase).hotspot) ∧
      ∃ p, run (restarted ++ List.replicate 4 (.advance 1 { hotspot := some c.hotspot })) = some p ∧
        p.state.updates = [⟨passphrase, ascii "car"⟩] ∧ p.Quiet ∧ p.state.config = c := by
  dsimp only
  repeat rw [ascii_ofList]
  refine ⟨?_, ?_, ?_, ?_, ?_, ?_⟩
  · decide +kernel
  · decide +kernel
  · decide +kernel
  · decide +kernel
  · decide +kernel
  · decide +kernel

end Bridge
end Aa2acp
