import Aa2acp.Bridge.DaemonHandlers

/-!
# The default passphrase

Until the user has chosen a passphrase the daemon does nothing but take one.  A passphrase
reaches the configuration by an update that was staged, which may have been long ago, or by
`POST /config`, which keeps the one it finds when none is given.  In every order of any
number of requests the default never comes back, and as long as it is there no head unit is
chosen, prepared or forgotten.
-/

namespace Aa2acp
namespace Bridge

open Text Management Thread

/-! ## What all requests respect -/

/-- The passphrase in memory is not the default. -/
def Secured (s : Daemon) : Prop := ¬ s.config.NeedsSetup

/-- The passphrase in the file is not the default. -/
def FileSecured (s : Daemon) : Prop :=
  ∃ config, loadConfig s.file = some config ∧ ¬ config.NeedsSetup

/-- Two configurations are for the same head unit, in the same way. -/
structure SameHeadUnit (config config' : Config) : Prop where
  headUnitMac : config'.headUnitMac = config.headUnitMac
  wifiInterface : config'.wifiInterface = config.wifiInterface
  airplayPairingStore : config'.airplayPairingStore = config.airplayPairingStore

theorem SameHeadUnit.refl (config : Config) : SameHeadUnit config config := ⟨rfl, rfl, rfl⟩

theorem SameHeadUnit.symm {config config' : Config} (h : SameHeadUnit config config') :
    SameHeadUnit config' config :=
  ⟨h.headUnitMac.symm, h.wifiInterface.symm, h.airplayPairingStore.symm⟩

theorem SameHeadUnit.trans {config middle config' : Config} (h : SameHeadUnit config middle)
    (h' : SameHeadUnit middle config') : SameHeadUnit config config' :=
  ⟨h'.headUnitMac.trans h.headUnitMac, h'.wifiInterface.trans h.wifiInterface,
    h'.airplayPairingStore.trans h.airplayPairingStore⟩

/-- What nobody may change while the default is set. -/
structure Untouched (s s' : Daemon) : Prop where
  headUnit : SameHeadUnit s.config s'.config
  preflights : s'.preflights = s.preflights
  scans : s'.scans = s.scans
  bonds : s'.bonds = s.bonds
  stores : s'.stores = s.stores

theorem Untouched.refl (s : Daemon) : Untouched s s := ⟨.refl s.config, rfl, rfl, rfl, rfl⟩

theorem Untouched.trans {s middle s' : Daemon} (h : Untouched s middle)
    (h' : Untouched middle s') : Untouched s s' where
  headUnit := h.headUnit.trans h'.headUnit
  preflights := h'.preflights.trans h.preflights
  scans := h'.scans.trans h.scans
  bonds := h'.bonds.trans h.bonds
  stores := h'.stores.trans h.stores

/-- What a request may rely on between two of its sections. -/
structure Respected (s s' : Daemon) : Prop where
  secured : Secured s → Secured s'
  fileSecured : FileSecured s → FileSecured s'
  untouched : ¬ Secured s' → Untouched s s'

/-- What a section of a request does. -/
structure Careful (s s' : Daemon) : Prop where
  secured : Secured s → Secured s'
  fileSecured : FileSecured s → FileSecured s'
  untouched : ¬ Secured s → Untouched s s'

theorem Careful.respected {s s' : Daemon} (h : Careful s s') : Respected s s' where
  secured := h.secured
  fileSecured := h.fileSecured
  untouched hdefault := h.untouched (mt h.secured hdefault)

theorem Respected.trans {s middle s' : Daemon} (h : Respected s middle)
    (h' : Respected middle s') : Respected s s' where
  secured := h'.secured ∘ h.secured
  fileSecured := h'.fileSecured ∘ h.fileSecured
  untouched hdefault :=
    (h.untouched (mt h'.secured hdefault)).trans (h'.untouched hdefault)

/-- No staged update has the default passphrase, and the file is changed before memory. -/
structure Guarding (s : Daemon) : Prop where
  staged : ∀ staged, s.staged = some staged →
    staged.update.passphrase ≠ kDefaultHotspotPassphrase
  file : Secured s → FileSecured s

def passphraseDiscipline : Discipline Daemon where
  inv := Guarding
  allowed := fun _ _ => True
  rely := fun _ => Respected
  guarantee := fun _ => Careful
  fresh := fun _ _ => True
  rely_refl := fun _ s => ⟨id, id, fun _ => .refl s⟩
  rely_trans := Respected.trans
  rely_of_guarantee := fun _ _ hcareful => hcareful.respected
  fresh_of_rely := fun _ _ => trivial

/-! ## Facts that stay -/

/-- No other request destroys the fact. -/
def Stays (fact : Daemon → Prop) : Prop := ∀ s s', Respected s s' → fact s → fact s'

theorem stays_true : Stays fun _ => True := fun _ _ _ _ => trivial

theorem stays_secured : Stays Secured := fun _ _ hrespected => hrespected.secured

/-- The head unit is the one of a configuration that was read, unless the default is gone. -/
def Remembers (previous : Config) (s : Daemon) : Prop :=
  Secured s ∨ SameHeadUnit previous s.config

theorem stays_remembers (previous : Config) : Stays (Remembers previous) := by
  intro s s' hrespected hremembers
  by_cases hsecured : Secured s'
  · exact .inl hsecured
  · rcases hremembers with hwas | hsame
    · exact absurd (hrespected.secured hwas) hsecured
    · exact .inr (hsame.trans (hrespected.untouched hsecured).headUnit)

/-! ## Sections -/

/-- The section has nothing to do with passphrases or head units. -/
structure Neutral (s s' : Daemon) : Prop where
  config : s'.config = s.config
  file : s'.file = s.file
  staged : s'.staged = s.staged
  preflights : s'.preflights = s.preflights
  scans : s'.scans = s.scans
  bonds : s'.bonds = s.bonds
  stores : s'.stores = s.stores

theorem Neutral.refl (s : Daemon) : Neutral s s := ⟨rfl, rfl, rfl, rfl, rfl, rfl, rfl⟩

theorem neutral_hotspot (s : Daemon) (hotspot : Option Hotspot) :
    Neutral s { s with hotspot := hotspot } := { Neutral.refl s with }

theorem neutral_transaction (s : Daemon) (holder : Option ℕ) :
    Neutral s { s with transaction := holder } := { Neutral.refl s with }

section

variable {s s' : Daemon}

theorem Secured.of_config (h : Secured s) (hconfig : s'.config = s.config) : Secured s' := by
  rwa [Secured, hconfig]

theorem FileSecured.of_file (h : FileSecured s) (hfile : s'.file = s.file) : FileSecured s' := by
  rwa [FileSecured, hfile]

theorem careful_of_same (hconfig : s'.config = s.config) (hfile : s'.file = s.file)
    (huntouched : Untouched s s') : Careful s s' where
  secured hsecured := hsecured.of_config hconfig
  fileSecured hsecured := hsecured.of_file hfile
  untouched _ := huntouched

theorem Neutral.careful (h : Neutral s s') : Careful s s' :=
  careful_of_same h.config h.file
    ⟨h.config ▸ .refl s.config, h.preflights, h.scans, h.bonds, h.stores⟩

theorem Guarding.of_same (h : Guarding s) (hconfig : s'.config = s.config)
    (hfile : s'.file = s.file)
    (hstaged : ∀ staged, s'.staged = some staged →
      staged.update.passphrase ≠ kDefaultHotspotPassphrase) : Guarding s' where
  staged := hstaged
  file hsecured := (h.file (hsecured.of_config hconfig.symm)).of_file hfile

theorem Guarding.of_neutral (h : Guarding s) (hneutral : Neutral s s') : Guarding s' :=
  h.of_same hneutral.config hneutral.file fun staged hstaged =>
    h.staged staged (hneutral.staged ▸ hstaged)

/-- Behind the gate, what leaves the settings alone is careful. -/
theorem SameSettings.careful (h : SameSettings s s') (hsecured : Secured s) : Careful s s' where
  secured hsecured := hsecured.of_config h.config
  fileSecured hfile := hfile.of_file h.file
  untouched hdefault := absurd hsecured hdefault

end

section

variable {α : Type} {id : ℕ} {s : Daemon} {t : Handler α} {fact : Daemon → Prop}

theorem guarded_neutral (h : Within Neutral t) (hstays : Stays fact) (hs : fact s) :
    Guarded (passphraseDiscipline.contract id) t (fun _ => fact) s :=
  h.guarded fact hstays
    (fun s s' hinv hfact hneutral => ⟨Guarding.of_neutral hinv hneutral, hneutral.careful,
      hstays s s' hneutral.careful.respected hfact⟩)
    (fun _ _ hfact => hfact) hs

theorem guarded_sameSettings (h : Within SameSettings t) (hs : Secured s) :
    Guarded (passphraseDiscipline.contract id) t (fun _ => Secured) s :=
  h.guarded Secured stays_secured
    (fun _ _ hinv hsecured hsame => ⟨Guarding.of_same hinv hsame.config hsame.file
        fun staged hstaged => hinv.staged staged (hsame.staged ▸ hstaged),
      hsame.careful hsecured, hsecured.of_config hsame.config⟩)
    (fun _ _ hsecured => hsecured) hs

theorem guarded_read (h : Within Eq t) :
    Guarded (passphraseDiscipline.contract id) t (fun _ _ => True) s :=
  guarded_neutral (h.mono fun s _ hsame => hsame ▸ Neutral.refl s) stays_true trivial

/-- A configuration that was read, with what is known at that time. -/
theorem guarded_readConfig {g : Config → Handler α} {post : α → Daemon → Prop}
    (h : ∀ s', Respected s s' → Guarding s' →
      Guarded (passphraseDiscipline.contract id) (g s'.config) post s') :
    Guarded (passphraseDiscipline.contract id) (readConfig >>= g) post s :=
  guarded_atomically fun s' hrely hinv _ _ =>
    ⟨hinv, (Neutral.refl s').careful, h s' hrely hinv⟩

end

theorem within_readConfigForUpdate (id : ℕ) (changesSsid : Bool) :
    Within Neutral (readConfigForUpdate id changesSsid) :=
  within_atomically fun s _ => { Neutral.refl s with }

theorem within_showPending (id : ℕ) (ssid : Bytes) : Within Neutral (showPending id ssid) :=
  within_atomically fun s _ => { Neutral.refl s with }

theorem within_clearPending (id : ℕ) : Within Neutral (clearPending id) :=
  within_atomically fun s _ => { Neutral.refl s with }

/-! ## Changing the settings -/

/-- A valid passphrase is not the default. -/
theorem readConfigForm_passphrase {body : Bytes} {form : ConfigForm}
    (h : readConfigForm body = some form) :
    ∀ passphrase, form.hotspotPassphrase = some passphrase →
      passphrase ≠ kDefaultHotspotPassphrase := by
  unfold readConfigForm at h
  dsimp only at h
  split at h
  · split at h
    · rename_i hvalid
      cases h
      intro passphrase hsome
      rw [Option.all_eq_true] at hvalid
      have hpassphrase := hvalid passphrase hsome
      rw [decide_eq_true_eq] at hpassphrase
      exact hpassphrase.2.1
    · cases h
  · cases h

theorem ConfigForm.updated_secured {form : ConfigForm} {previous : Config}
    (hform : ∀ passphrase, form.hotspotPassphrase = some passphrase →
      passphrase ≠ kDefaultHotspotPassphrase)
    (hprevious : ¬ previous.NeedsSetup) : ¬ (form.updated previous).NeedsSetup := by
  unfold ConfigForm.updated Config.NeedsSetup
  cases hpassphrase : form.hotspotPassphrase with
  | none => exact hprevious
  | some passphrase => exact hform passphrase hpassphrase

section

variable {id : ℕ} {s : Daemon} {previous updated : Config} {fact : Daemon → Prop}

/-- The file is written with a passphrase that is not the default. -/
theorem guarded_saveConfigFile (hnew : ¬ updated.NeedsSetup) (hstays : Stays fact)
    (hs : fact s) :
    Guarded (passphraseDiscipline.contract id) (saveConfigFile updated)
      (fun saved s' => fact s' ∧ (saved = true → FileSecured s')) s := by
  intro s₁ hrely hinv _ outcome _
  have hfact := hstays s s₁ hrely hs
  by_cases hvalid : validateConfig updated false ∧ outcome.ok
  · have hsave : saveConfig updated outcome.ok s₁.file = (true, content updated) := if_pos hvalid
    simp only [hsave]
    have hfile : FileSecured { s₁ with file := content updated } :=
      ⟨updated, loadConfig_content hvalid.1, hnew⟩
    have hcareful : Careful s₁ { s₁ with file := content updated } :=
      ⟨fun hsecured => hsecured, fun _ => hfile, fun _ => ⟨.refl _, rfl, rfl, rfl, rfl⟩⟩
    exact ⟨⟨hinv.staged, fun _ => hfile⟩, hcareful, fun s₂ hrely' =>
      ⟨hstays _ s₂ hrely' (hstays s₁ _ hcareful.respected hfact),
        fun _ => hrely'.fileSecured hfile⟩⟩
  · have hsave : saveConfig updated outcome.ok s₁.file = (false, s₁.file) := if_neg hvalid
    simp only [hsave]
    exact ⟨hinv, (Neutral.refl s₁).careful, fun s₂ hrely' =>
      ⟨hstays s₁ s₂ hrely' hfact, fun hsaved => absurd hsaved (by decide)⟩⟩

theorem guarded_rollBack (applyFailed : Bool) (hstays : Stays fact) (hs : fact s) :
    Guarded (passphraseDiscipline.contract id) (rollBack applyFailed previous) (fun _ => fact) s :=
  guarded_neutral (within_rollBack neutral_hotspot applyFailed previous) hstays hs

theorem guarded_applyUpdate (changesSsid : Bool) (hnew : ¬ updated.NeedsSetup)
    (hsame : SameHeadUnit updated previous) (hs : Remembers previous s) :
    Guarded (passphraseDiscipline.contract id) (applyUpdate changesSsid previous updated)
      (fun _ _ => True) s := by
  refine Guarded.bind ((guarded_neutral (within_startManagementHotspot neutral_hotspot updated)
    (stays_remembers previous) hs).mono fun started s₁ hs₁ => ?_)
  split
  · refine Guarded.bind ((guarded_saveConfigFile hnew (stays_remembers previous) hs₁).mono
      fun saved s₂ hs₂ => ?_)
    split
    · -- Either the default is still there, and then nobody changed the head unit, or it is gone.
      rename_i hsaved
      refine guarded_atomically fun s₃ hrely hinv _ _ => ?_
      have hfile : FileSecured s₃ := hrely.fileSecured (hs₂.2 hsaved)
      refine ⟨⟨hinv.staged, fun _ => hfile⟩, ⟨fun _ => hnew, fun _ => hfile, ?_⟩,
        guarded_pure fun _ _ => trivial⟩
      intro hdefault
      rcases stays_remembers previous _ _ hrely hs₂.1 with hsecured | hread
      · exact absurd hsecured hdefault
      · exact ⟨(hsame.trans hread).symm, rfl, rfl, rfl, rfl⟩
    · exact guarded_rollBack false stays_true trivial
  · exact guarded_rollBack true stays_true trivial

/-- The end of the transaction of `POST /config`. -/
theorem guarded_saveAndCommit {otherwise : Handler TransactionOutcome}
    (hnew : ¬ updated.NeedsSetup) (hs : Secured s)
    (hotherwise : ∀ s', Secured s' →
      Guarded (passphraseDiscipline.contract id) otherwise (fun _ => Secured) s') :
    Guarded (passphraseDiscipline.contract id)
      (saveConfigFile updated >>= fun saved =>
        if saved = true then commitConfig updated >>= fun _ => pure { saved := true }
        else otherwise) (fun _ => Secured) s := by
  refine Guarded.bind ((guarded_saveConfigFile hnew stays_secured hs).mono
    fun saved s₁ hs₁ => ?_)
  split
  · rename_i hsaved
    refine guarded_atomically fun s₂ hrely hinv _ _ => ?_
    have hsecured : Secured s₂ := hrely.secured hs₁.1
    have hfile : FileSecured s₂ := hrely.fileSecured (hs₁.2 hsaved)
    exact ⟨⟨hinv.staged, fun _ => hfile⟩,
      ⟨fun _ => hnew, fun _ => hfile, fun hdefault => absurd hsecured hdefault⟩,
      guarded_pure fun s₃ hrely' => hrely'.secured hnew⟩
  · exact hotherwise s₁ hs₁.1

theorem guarded_applyConfig (hnew : ¬ updated.NeedsSetup) (hs : Secured s) :
    Guarded (passphraseDiscipline.contract id) (applyConfig previous updated)
      (fun _ => Secured) s := by
  by_cases hsame : previous.hotspot = updated.hotspot
  · rw [applyConfig_of_same hsame]
    exact guarded_saveAndCommit hnew hs fun s' => guarded_neutral (within_pure _) stays_secured
  · rw [applyConfig_of_changed hsame]
    refine Guarded.bind ((guarded_neutral (within_startManagementHotspot neutral_hotspot updated)
      stays_secured hs).mono fun started s₁ hs₁ => ?_)
    split
    · exact guarded_saveAndCommit hnew hs₁ fun s₂ hs₂ => guarded_rollBack false stays_secured hs₂
    · exact guarded_rollBack true stays_secured hs₁

end

/-! ## The requests -/

section

variable {env : DaemonEnv} {id : ℕ} {body : Bytes} {s : Daemon}

theorem guarded_handleManagementHotspot :
    Guarded (passphraseDiscipline.contract id) (handleManagementHotspot id body)
      (fun _ _ => True) s := by
  unfold handleManagementHotspot
  dsimp only
  split
  · rename_i passphrase confirmation _ _
    split
    · exact guarded_pure fun _ _ => trivial
    split
    · exact guarded_pure fun _ _ => trivial
    · rename_i hvalid
      rw [not_not] at hvalid
      refine Guarded.bind ((guarded_neutral (within_readConfigForUpdate id _) stays_true
        trivial).mono fun current s₁ _ => ?_)
      refine guarded_atomically fun s₂ _ hinv _ _ => ?_
      refine ⟨hinv.of_same rfl rfl ?_, careful_of_same rfl rfl ⟨.refl _, rfl, rfl, rfl, rfl⟩, ?_⟩
      · intro staged hstaged
        cases hstaged
        exact hvalid.1
      · exact guarded_neutral ((within_showPending id _).bind fun _ => within_pure _) stays_true
          trivial
  · exact guarded_pure fun _ _ => trivial

theorem guarded_handleManagementHotspotApply :
    Guarded (passphraseDiscipline.contract id) (handleManagementHotspotApply id)
      (fun _ _ => True) s := by
  refine guarded_atomically fun s₁ _ hinv _ _ => ?_
  cases hstaged : s₁.staged with
  | none =>
      exact ⟨hinv, (Neutral.refl s₁).careful, guarded_pure fun _ _ => trivial⟩
  | some staged =>
      have hpassphrase := hinv.staged staged hstaged
      have hnew : ∀ previous, ¬ (staged.update.applied previous).NeedsSetup := fun _ => hpassphrase
      refine ⟨hinv.of_same rfl rfl (by simp),
        careful_of_same rfl rfl ⟨.refl _, rfl, rfl, rfl, rfl⟩, ?_⟩
      refine Guarded.bind ((guarded_neutral (within_lockTransaction neutral_transaction id)
        stays_true trivial).mono fun _ s₂ _ => ?_)
      refine guarded_readConfig fun s₃ _ _ => ?_
      have happlied : SameHeadUnit (staged.update.applied s₃.config) s₃.config := ⟨rfl, rfl, rfl⟩
      refine Guarded.bind ((guarded_applyUpdate staged.changesSsid (hnew _) happlied
        (.inr (.refl _))).mono fun outcome s₄ _ => ?_)
      split
      · exact guarded_neutral ((within_clearPending id).bind fun _ =>
          within_unlock_reply neutral_transaction _) stays_true trivial
      · refine guarded_atomically fun s₅ _ hinv' _ _ => ?_
        refine ⟨hinv'.of_same rfl rfl ?_,
          careful_of_same rfl rfl ⟨.refl _, rfl, rfl, rfl, rfl⟩, ?_⟩
        · intro staged' hstaged'
          cases hstaged'
          exact hpassphrase
        · exact guarded_neutral (within_unlock_reply neutral_transaction _) stays_true trivial

theorem guarded_handleConfig (hs : Secured s) :
    Guarded (passphraseDiscipline.contract id) (handleConfig env id body)
      (fun _ _ => True) s := by
  unfold handleConfig
  split
  · exact guarded_pure fun _ _ => trivial
  · rename_i form hform
    refine Guarded.bind ((guarded_neutral (within_lockTransaction neutral_transaction id)
      stays_secured hs).mono fun _ s₁ hs₁ => ?_)
    refine guarded_readConfig fun s₂ hrely _ => ?_
    have hs₂ : Secured s₂ := hrely.secured hs₁
    have hnew := ConfigForm.updated_secured (readConfigForm_passphrase hform) hs₂
    refine Guarded.bind ((guarded_applyConfig hnew hs₂).mono fun outcome s₃ hs₃ => ?_)
    refine Guarded.bind ((guarded_neutral (within_unlockTransaction neutral_transaction)
      stays_secured hs₃).mono fun _ s₄ hs₄ => ?_)
    split
    · exact (guarded_sameSettings (settings_of_unaffected (within_configSaved env _ _)) hs₄).mono
        fun _ _ _ => trivial
    · exact guarded_pure fun _ _ => trivial

theorem guarded_dispatch {request : Bytes} :
    Guarded (passphraseDiscipline.contract id) (dispatch env id request body)
      (fun _ _ => True) s := by
  refine dispatch_cases (fun t hread => guarded_read hread)
    (fun _ => guarded_handleManagementHotspot) (fun _ => guarded_handleManagementHotspotApply) ?_
  refine guarded_readConfig fun s₁ _ _ => ?_
  split
  · exact guarded_pure fun _ _ => trivial
  · rename_i hsecured
    refine dispatchSetUp_cases (fun t hsame => ?_) (guarded_handleConfig hsecured)
    exact (guarded_sameSettings hsame hsecured).mono fun _ _ _ => trivial

theorem guarded_handleClient {request : Bytes} :
    Guarded (passphraseDiscipline.contract id) (handleClient env id request)
      (fun _ _ => True) s := by
  unfold handleClient
  split
  · exact Guarded.bind (guarded_dispatch.mono fun _ _ _ => guarded_pure fun _ _ => trivial)
  · exact guarded_pure fun _ _ => trivial
  · exact guarded_pure fun _ _ => trivial

end

/-! ## All orders -/

section

variable {env : DaemonEnv} {c : Config} {s : Daemon}
  {events : List (PoolEvent Bytes Outcome)} {event : PoolEvent Bytes Outcome}
  {p p' : Pool Outcome Daemon (Option Response)}

/-- Memory and file have the same configuration, and no update is staged. -/
structure Started (c : Config) (s : Daemon) : Prop where
  config : s.config = c
  file : loadConfig s.file = some c
  staged : s.staged = none

theorem Started.governed (h : Started c s) :
    passphraseDiscipline.Governed (fun _ _ _ => True)
      (⟨s, []⟩ : Pool Outcome Daemon (Option Response)) := by
  refine Discipline.governed_start ⟨?_, ?_⟩ fun _ => trivial
  · intro staged hstaged
    rw [h.staged] at hstaged
    cases hstaged
  · intro hsecured
    rw [Secured, h.config] at hsecured
    exact ⟨c, h.file, hsecured⟩

/-- One step of the pool. -/
theorem governed_step
    (h : passphraseDiscipline.Governed (fun _ _ _ => True) p)
    (hstep : p.step (handleClient env) event = some p') :
    Careful p.state p'.state ∧ passphraseDiscipline.Governed (fun _ _ _ => True) p' := by
  have hgoverned := h.step (fun _ _ _ _ _ => guarded_handleClient) trivial hstep
  refine ⟨?_, hgoverned⟩
  cases event with
  | arrive request =>
      cases hstep
      exact (Neutral.refl _).careful
  | advance index answer => exact (h.advance hstep trivial).1

theorem Started.run (h : Started c s)
    (hrun : Machine.run (Pool.step (handleClient env)) events ⟨s, []⟩ = some p) :
    passphraseDiscipline.Governed (fun _ _ _ => True) p :=
  Machine.run_invariant (passphraseDiscipline.Governed fun _ _ _ => True)
    (fun _ _ _ hgoverned hstep => (governed_step hgoverned hstep).2) h.governed hrun

/-- In every order of any requests: once the passphrase in memory is not the default, it is
not the default in memory or in the file at any later time; and while it is, no step chooses
another head unit, interface or pairing store, starts a preflight or a scan, or forgets a
head unit. -/
theorem default_never_returns (h : Started c s)
    (hrun : Machine.run (Pool.step (handleClient env)) events ⟨s, []⟩ = some p) :
    (¬ p.state.config.NeedsSetup →
      ∀ more p', Machine.run (Pool.step (handleClient env)) more p = some p' →
        ¬ p'.state.config.NeedsSetup ∧
          ∃ config, loadConfig p'.state.file = some config ∧ ¬ config.NeedsSetup) ∧
    (p.state.config.NeedsSetup →
      ∀ event p', p.step (handleClient env) event = some p' → Untouched p.state p'.state) := by
  have hgoverned := h.run hrun
  constructor
  · intro hsecured more p' hmore
    have hlater : passphraseDiscipline.Governed (fun _ _ _ => True) p' ∧ Secured p'.state :=
      Machine.run_invariant
        (fun p => passphraseDiscipline.Governed (fun _ _ _ => True) p ∧ Secured p.state)
        (fun _ _ _ hboth hstep =>
          have hnext := governed_step hboth.1 hstep
          ⟨hnext.2, hnext.1.secured hboth.2⟩)
        ⟨hgoverned, hsecured⟩ hmore
    exact ⟨hlater.2, hlater.1.inv.file hlater.2⟩
  · intro hdefault event p' hstep
    exact (governed_step hgoverned hstep).1.untouched fun hsecured => hsecured hdefault

end

/-- A passphrase is staged and applied. -/
theorem default_never_returns_applied :
    let c : Config := ⟨[], ascii "wlan0", ascii "car", kDefaultHotspotPassphrase, []⟩
    let applied : Config := { c with managementHotspotPassphrase := ascii "secret-1" }
    let stage := ascii "POST /management-hotspot HTTP/1.1\r\nContent-Length: 92\r\n\r\n" ++
      ascii "csrf=t&management_hotspot_passphrase=secret-1" ++
      ascii "&management_hotspot_passphrase_confirm=secret-1"
    let apply :=
      ascii "POST /management-hotspot/apply HTTP/1.1\r\nContent-Length: 6\r\n\r\ncsrf=t"
    let events : List (PoolEvent Bytes Outcome) :=
      .arrive stage :: List.replicate 3 (.advance 0 {}) ++
        .arrive apply :: List.replicate 8 (.advance 1 { hotspot := some applied.hotspot })
    let handle := handleClient ⟨ascii "t", []⟩
    ∃ p, Machine.run (Pool.step handle) events
        ⟨{ config := c, file := content c, hotspot := some c.hotspot }, []⟩ = some p ∧
      p.state.config = applied ∧
      (¬ p.state.config.NeedsSetup →
        ∀ more p', Machine.run (Pool.step handle) more p = some p' →
          ¬ p'.state.config.NeedsSetup ∧
            ∃ config, loadConfig p'.state.file = some config ∧ ¬ config.NeedsSetup) ∧
      (p.state.config.NeedsSetup →
        ∀ event p', p.step handle event = some p' → Untouched p.state p'.state) := by
  dsimp only
  repeat rw [ascii_ofList]
  exact (Option.map_eq_some_iff.mp (by decide +kernel)).imp fun _ h =>
    ⟨h.1, h.2, default_never_returns ⟨rfl, by decide +kernel, rfl⟩ h.1⟩

end Bridge
end Aa2acp
