import Aa2acp.Bridge.DaemonHandlers

/-!
# A change of the settings

`POST /management-hotspot/apply` and `POST /config` change three things one after another:
the hotspot that runs, the file, and the configuration in memory.  Each call on the way can
fail.  Whatever fails, in the end all three are what was asked for, or all three are what
they were, or the reply says that the hotspot needs recovery while memory and file are what
they were.
-/

namespace Aa2acp
namespace Bridge

open Text Management Thread

/-! ## Which arm takes a request -/

theorem StartsWith.not_of {taken other : String} {request : Bytes} (h : StartsWith taken request)
    (hshorter : ¬ ascii other <+: ascii taken) (hlonger : ¬ ascii taken <+: ascii other) :
    ¬ StartsWith other request := by
  intro hother
  rcases List.prefix_or_prefix_of_prefix h hother with htaken | hbegins
  · exact hlonger htaken
  · exact hshorter hbegins

section

variable {env : DaemonEnv} {id : ℕ} {request body : Bytes}

theorem dispatch_apply (h : StartsWith "POST /management-hotspot/apply " request) :
    dispatch env id request body =
      if formField body (ascii "csrf") ≠ some env.csrfToken then
        pure (.text 403 "Invalid CSRF token\n")
      else handleManagementHotspotApply id := by
  have hpost : StartsWith "POST " request := List.IsPrefix.trans (by decide) h
  simp only [dispatch, hpost, true_and]
  rw [if_neg (not_or.mpr ⟨h.not_of (by decide) (by decide), h.not_of (by decide) (by decide)⟩),
    if_neg (h.not_of (by decide) (by decide)), if_neg (h.not_of (by decide) (by decide)),
    if_neg (h.not_of (by decide) (by decide)), if_neg (h.not_of (by decide) (by decide)),
    if_pos h]

theorem dispatch_config (h : StartsWith "POST /config " request) :
    dispatch env id request body =
      if formField body (ascii "csrf") ≠ some env.csrfToken then
        pure (.text 403 "Invalid CSRF token\n")
      else readConfig >>= fun config =>
        if config.NeedsSetup then
          pure (.text 403 "Change the default management hotspot password first\n")
        else handleConfig env id body := by
  have hpost : StartsWith "POST " request := List.IsPrefix.trans (by decide) h
  simp only [dispatch, dispatchSetUp, hpost, true_and]
  rw [if_neg (not_or.mpr ⟨h.not_of (by decide) (by decide), h.not_of (by decide) (by decide)⟩),
    if_neg (h.not_of (by decide) (by decide)), if_neg (h.not_of (by decide) (by decide)),
    if_neg (h.not_of (by decide) (by decide)), if_neg (h.not_of (by decide) (by decide)),
    if_neg (h.not_of (by decide) (by decide)), if_neg (h.not_of (by decide) (by decide)),
    if_neg (h.not_of (by decide) (by decide)), if_neg (h.not_of (by decide) (by decide)),
    if_neg (h.not_of (by decide) (by decide)), if_neg (h.not_of (by decide) (by decide)),
    if_pos h]

end

/-! ## The calls on the way -/

section

variable {s : Daemon} {config : Config}
  {post : Bool → Daemon → Prop}

/-- The radio runs what was asked for, or something else. -/
theorem ends_startManagementHotspot
    (hstarted : post true { s with hotspot := some config.hotspot })
    (hfailed : ∀ hotspot, post false { s with hotspot := hotspot }) :
    Ends post (startManagementHotspot config) s := by
  refine ends_atomically fun outcome => ?_
  by_cases hruns : outcome.hotspot = some config.hotspot
  · simpa only [hruns, decide_true] using hstarted
  · simpa only [hruns, decide_false] using hfailed outcome.hotspot

/-- The file holds the configuration, or what it held. -/
theorem ends_saveConfigFile
    (hsaved : ∀ file, loadConfig file = some config → post true { s with file := file })
    (hfailed : post false s) : Ends post (saveConfigFile config) s := by
  refine ends_atomically fun outcome => ?_
  unfold saveConfig
  split
  · rename_i hvalid
    exact hsaved _ (loadConfig_content hvalid.1)
  · exact hfailed

/-- The radio runs the previous network again, or that failed. -/
theorem ends_restorePreviousHotspot (attempts : ℕ)
    (hrestored : post true { s with hotspot := some config.hotspot })
    (hfailed : ∀ hotspot, post false { s with hotspot := hotspot }) :
    Ends post (restorePreviousHotspot config attempts) s := by
  induction attempts generalizing s with
  | zero => exact hfailed s.hotspot
  | succ attempts ih =>
      refine Ends.bind (ends_startManagementHotspot hrestored fun hotspot => ?_)
      exact ih hrestored hfailed

end

/-! ## The transactions -/

/-- Memory, file and radio have the same settings. -/
structure Agree (p : Config) (s : Daemon) : Prop where
  config : s.config = p
  file : loadConfig s.file = some p
  hotspot : s.hotspot = some p.hotspot

/-- How a transaction from `p` to `u` ended. -/
inductive Concluded (p u : Config) (outcome : TransactionOutcome) (s : Daemon) : Prop where
  | saved (hsaved : outcome.saved = true) (hagree : Agree u s)
  | restored (hsaved : outcome.saved = false) (hagree : Agree p s)
  | lost (hsaved : outcome.saved = false) (hlost : outcome.rollbackFailed = true)
      (hconfig : s.config = p) (hfile : loadConfig s.file = some p)

section

variable {p u : Config} {s : Daemon}

theorem ends_rollBack (hconfig : s.config = p) (hfile : loadConfig s.file = some p)
    (applyFailed : Bool) : Ends (Concluded p u) (rollBack applyFailed p) s := by
  refine Ends.bind (ends_restorePreviousHotspot 2 ?_ fun hotspot => ?_)
  · exact .restored rfl ⟨hconfig, hfile, rfl⟩
  · exact .lost rfl rfl hconfig hfile

theorem ends_applyUpdate (changesSsid : Bool) (h : Agree p s) :
    Ends (Concluded p u) (applyUpdate changesSsid p u) s := by
  refine Ends.bind (ends_startManagementHotspot ?_ fun hotspot => ?_)
  · refine Ends.bind (ends_saveConfigFile (fun file hfile => ?_) ?_)
    · exact ⟨rfl, fun _ => .saved rfl ⟨rfl, hfile, rfl⟩⟩
    · exact ends_rollBack h.config h.file false
  · exact ends_rollBack h.config h.file true

theorem ends_applyConfig (h : Agree p s) : Ends (Concluded p u) (applyConfig p u) s := by
  by_cases hsame : p.hotspot = u.hotspot
  · rw [applyConfig_of_same hsame]
    refine Ends.bind (ends_saveConfigFile (fun file hfile => ?_) ?_)
    · exact ⟨rfl, fun _ => .saved rfl ⟨rfl, hfile, hsame ▸ h.hotspot⟩⟩
    · exact .restored rfl h
  · rw [applyConfig_of_changed hsame]
    refine Ends.bind (ends_startManagementHotspot ?_ fun hotspot => ?_)
    · refine Ends.bind (ends_saveConfigFile (fun file hfile => ?_) ?_)
      · exact ⟨rfl, fun _ => .saved rfl ⟨rfl, hfile, rfl⟩⟩
      · exact ends_rollBack h.config h.file false
    · exact ends_rollBack h.config h.file true

end

/-! ## The requests -/

/-- The configuration that a request asks for, and the reply when it gets it. -/
inductive Asks (s : Daemon) (request body : Bytes) : Config → Response → Prop where
  | config {form : ConfigForm} (hrequest : StartsWith "POST /config " request)
      (hform : readConfigForm body = some form) :
      Asks s request body (form.updated s.config) (.seeOther "/?saved=1")
  | apply {staged : Staged} (hrequest : StartsWith "POST /management-hotspot/apply " request)
      (hstaged : s.staged = some staged) :
      Asks s request body (staged.update.applied s.config)
        ⟨200, .passwordUpdated (staged.update.applied s.config).managementHotspotSsid, []⟩

/-- How a request ended that asked for `u` where `p` was. -/
inductive Settled (p u : Config) (success response : Response) (s : Daemon) : Prop where
  | changed (hagree : Agree u s) (hresponse : response = success)
  | unchanged (hagree : Agree p s) (hresponse : 400 ≤ response.status)
  | needsRecovery (hconfig : s.config = p) (hfile : loadConfig s.file = some p)
      (hresponse : response = .text 503 "Hotspot update failed; runtime state needs recovery\n")

section

variable {p u : Config} {success : Response} {s : Daemon}

/-- Nothing that the section changes concerns the settings. -/
theorem Settled.of_eq {response : Response} {s' : Daemon} (h : Settled p u success response s)
    (hconfig : s'.config = s.config) (hfile : s'.file = s.file)
    (hhotspot : s'.hotspot = s.hotspot) : Settled p u success response s' := by
  cases h with
  | changed hagree hresponse =>
      exact .changed ⟨hconfig ▸ hagree.config, hfile ▸ hagree.file, hhotspot ▸ hagree.hotspot⟩
        hresponse
  | unchanged hagree hresponse =>
      exact .unchanged ⟨hconfig ▸ hagree.config, hfile ▸ hagree.file, hhotspot ▸ hagree.hotspot⟩
        hresponse
  | needsRecovery hsame hholds hresponse =>
      exact .needsRecovery (hconfig ▸ hsame) (hfile ▸ hholds) hresponse

theorem applyFailure_status (outcome : TransactionOutcome) :
    400 ≤ (applyFailure outcome).status := by
  unfold applyFailure Response.text
  dsimp only
  split <;> decide

theorem configFailure_status (outcome : TransactionOutcome) :
    400 ≤ (configFailure outcome).status := by
  unfold configFailure Response.text
  split
  · decide
  split <;> decide

theorem Concluded.settled_apply {outcome : TransactionOutcome} (h : Concluded p u outcome s)
    (hfailed : outcome.saved = false) : Settled p u success (applyFailure outcome) s := by
  cases h with
  | saved hsaved => exact absurd (hfailed.symm.trans hsaved) (by decide)
  | restored _ hagree => exact .unchanged hagree (applyFailure_status outcome)
  | lost _ hlost hconfig hfile =>
      exact .needsRecovery hconfig hfile (by simp [applyFailure, hlost])

theorem Concluded.settled_config {outcome : TransactionOutcome} (h : Concluded p u outcome s)
    (hfailed : outcome.saved = false) : Settled p u success (configFailure outcome) s := by
  cases h with
  | saved hsaved => exact absurd (hfailed.symm.trans hsaved) (by decide)
  | restored _ hagree => exact .unchanged hagree (configFailure_status outcome)
  | lost _ hlost hconfig hfile =>
      exact .needsRecovery hconfig hfile (by simp [configFailure, hlost])

theorem Concluded.agree {outcome : TransactionOutcome} (h : Concluded p u outcome s)
    (hsaved : outcome.saved = true) : Agree u s := by
  cases h with
  | saved _ hagree => exact hagree
  | restored hfailed => exact absurd (hfailed.symm.trans hsaved) (by decide)
  | lost hfailed => exact absurd (hfailed.symm.trans hsaved) (by decide)

theorem ends_handleManagementHotspotApply (id : ℕ) {staged : Staged}
    (hstaged : s.staged = some staged) (hagree : Agree p s) (hfree : s.transaction = none) :
    Ends (Settled p (staged.update.applied p)
        ⟨200, .passwordUpdated (staged.update.applied p).managementHotspotSsid, []⟩)
      (handleManagementHotspotApply id) s := by
  refine Ends.bind (ends_atomically fun _ => ?_)
  simp only [hstaged]
  refine Ends.bind ⟨by simp [hfree], fun _ => ?_⟩
  refine Ends.bind (ends_atomically fun _ => ?_)
  simp only [hagree.config]
  refine Ends.bind ((ends_applyUpdate _ ?_).mono fun outcome later hconcluded => ?_)
  · exact ⟨rfl, hagree.file, hagree.hotspot⟩
  split
  · rename_i hsaved
    have hchanged := hconcluded.agree hsaved
    exact ⟨rfl, fun _ => ⟨rfl, fun _ =>
      .changed ⟨hchanged.config, hchanged.file, hchanged.hotspot⟩ rfl⟩⟩
  · rename_i hfailed
    rw [Bool.not_eq_true] at hfailed
    exact ⟨rfl, fun _ => ⟨rfl, fun _ =>
      (hconcluded.settled_apply hfailed).of_eq rfl rfl rfl⟩⟩

theorem ends_configSaved (env : DaemonEnv) {previous updated : Config}
    (h : Settled p u success (.seeOther "/?saved=1") s) :
    Ends (Settled p u success) (configSaved env previous updated) s := by
  have hreply : ∀ s', Settled p u success (.seeOther "/?saved=1") s' →
      Ends (Settled p u success) (do
        if previous.wifiInterface ≠ updated.wifiInterface then
          requestRebind
        pure (Response.seeOther "/?saved=1")) s' := by
    intro s' hs'
    split
    · exact ⟨rfl, fun _ => hs'.of_eq rfl rfl rfl⟩
    · exact hs'
  simp only [configSaved]
  split
  · refine Ends.bind (ends_atomically fun removed => hreply _ ?_)
    cases removed.ok with
    | false => exact h
    | true => exact h.of_eq rfl rfl rfl
  · exact hreply s h

theorem ends_handleConfig (env : DaemonEnv) (id : ℕ) {body : Bytes} {form : ConfigForm}
    (hform : readConfigForm body = some form) (hagree : Agree p s)
    (hfree : s.transaction = none) :
    Ends (Settled p (form.updated p) (.seeOther "/?saved=1")) (handleConfig env id body) s := by
  simp only [handleConfig, hform]
  refine Ends.bind ⟨by simp [hfree], fun _ => ?_⟩
  refine Ends.bind (ends_atomically fun _ => ?_)
  simp only [hagree.config]
  refine Ends.bind ((ends_applyConfig ?_).mono fun outcome later hconcluded => ?_)
  · exact ⟨rfl, hagree.file, hagree.hotspot⟩
  refine Ends.bind (ends_atomically fun _ => ?_)
  split
  · rename_i hsaved
    exact ends_configSaved env ((Settled.changed (hconcluded.agree hsaved) rfl).of_eq rfl rfl rfl)
  · rename_i hfailed
    rw [Bool.not_eq_true] at hfailed
    exact (hconcluded.settled_config hfailed).of_eq rfl rfl rfl

/-- A reply that does not touch the state. -/
theorem ends_refused {response : Response} (hagree : Agree p s) (hstatus : 400 ≤ response.status) :
    Ends (Settled p u success) (pure response : Handler Response) s := .unchanged hagree hstatus

theorem ends_dispatch (env : DaemonEnv) (id : ℕ) {request body : Bytes}
    (hasks : Asks s request body u success) (hagree : Agree p s) (hfree : s.transaction = none) :
    Ends (Settled p u success) (dispatch env id request body) s := by
  have hsame : s.config = p := hagree.config
  cases hasks with
  | config hrequest hform =>
      rw [dispatch_config hrequest]
      split
      · exact ends_refused hagree (by decide)
      refine Ends.bind (ends_atomically fun _ => ?_)
      split
      · exact ends_refused hagree (by decide)
      rw [hsame]
      exact ends_handleConfig env id hform hagree hfree
  | apply hrequest hstaged =>
      rw [dispatch_apply hrequest]
      split
      · exact ends_refused hagree (by decide)
      rw [hsame]
      exact ends_handleManagementHotspotApply id hstaged hagree hfree

end

/-- A change of the settings is all or nothing, or reported.  Memory, file and radio agree
on `p` and no other transaction is under way; then, whatever the calls on the way return,
the request that asks for `u` comes to its end, and it has changed all three and says so,
or none and says that it failed, or it says that the hotspot needs recovery. -/
theorem settled_of_asks {env : DaemonEnv} {id : ℕ} {request body : Bytes} {s : Daemon}
    {p u : Config} {success : Response}
    (hframing : frameHttpRequest request (16 * 1024) (16 * 1024) = .complete body)
    (hasks : Asks s request body u success) (hagree : Agree p s) (hfree : s.transaction = none)
    (answers : ℕ → Outcome) :
    ∃ count response s',
      (handleClient env id request).run ((List.range count).map answers) s =
        (.done (some response), s') ∧
      Settled p u success response s' := by
  have hends : Ends (fun response s' => ∃ reply, response = some reply ∧
      Settled p u success reply s') (handleClient env id request) s := by
    simp only [handleClient, hframing]
    exact Ends.bind ((ends_dispatch env id hasks hagree hfree).mono
      fun reply s' hsettled => ⟨reply, rfl, hsettled⟩)
  obtain ⟨count, _, s', hrun, response, rfl, hsettled⟩ := hends.run answers
  exact ⟨count, response, s', hrun, hsettled⟩

/-- A new SSID, while the radio and the file do what they are asked for. -/
theorem settled_of_asks_ssid :
    let p : Config := ⟨ascii "aa", ascii "wlan0", ascii "car", ascii "12345678", []⟩
    let s : Daemon := { config := p, file := content p, hotspot := some p.hotspot }
    let request :=
      ascii "POST /config HTTP/1.1\r\nContent-Length: 62\r\n\r\n" ++
        ascii "csrf=t&wifi_interface=wlan0&management_hotspot_ssid=automobile"
    let u : Config := { p with managementHotspotSsid := ascii "automobile" }
    ∃ count response s',
      (handleClient ⟨ascii "t", []⟩ 0 request).run
          ((List.range count).map fun _ => { hotspot := some u.hotspot }) s =
        (.done (some response), s') ∧
      Settled p u (.seeOther "/?saved=1") response s' :=
  @settled_of_asks _ _ _ (ascii "csrf=t&wifi_interface=wlan0&management_hotspot_ssid=automobile")
    _ _ _ _ (by decide +kernel)
    (@Asks.config _ _ _ ⟨none, ascii "wlan0", ascii "automobile", none⟩ (by decide)
      (by decide +kernel))
    ⟨rfl, by decide +kernel, rfl⟩ rfl _

end Bridge
end Aa2acp
