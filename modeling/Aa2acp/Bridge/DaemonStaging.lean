import Aa2acp.Bridge.DaemonHandlers

/-!
# The staged update

Requests that overlap change the staged update, what the snapshot says of it and the
configuration in sections of their own.  An update is shown after it was staged, it is out
of its place while it is applied, and the SSID of one that keeps the SSID was read when it
was staged.

In orderly runs nothing is lost (`NoneLost`): an update is staged or taken out only when no
request is in the middle of a change that this would upset, and the SSID is changed only
while no update depends on it.
-/

namespace Aa2acp
namespace Bridge

open Text Management Thread

/-! ## What is in order -/

/-- An update that keeps the SSID is being staged, staged or being applied. -/
def Keeping (s : Daemon) : Prop :=
  s.preparing ≠ [] ∨ s.staged.any (!·.changesSsid) = true ∨
    s.applying.any (!·.2.changesSsid) = true

instance (s : Daemon) : Decidable (Keeping s) := inferInstanceAs (Decidable (_ ∨ _ ∨ _))

/-- The SSID is changed, and that was asked for. -/
def Commit.Moves : Commit → Prop
  | .config before after => after ≠ before
  | .apply changesSsid before after => changesSsid = true ∧ after ≠ before

instance : ∀ commit : Commit, Decidable commit.Moves
  | .config .. => inferInstanceAs (Decidable (_ ≠ _))
  | .apply .. => inferInstanceAs (Decidable (_ ∧ _))

/-- The step does not upset a change that another request is in the middle of. -/
structure Orderly (s s' : Daemon) : Prop where
  stage : s.stagings < s'.stagings → s.applying = [] ∧
    ∀ entry ∈ s.showing, s'.staged.map (·.update.ssid) = some entry.2
  take : s.applying.length < s'.applying.length → s.showing = []
  commit : ∀ commit ∈ s'.commits.drop s.commits.length, commit.Moves → ¬ Keeping s

instance (s s' : Daemon) : Decidable (Orderly s s') :=
  decidable_of_iff
    ((s.stagings < s'.stagings → s.applying = [] ∧
        ∀ entry ∈ s.showing, s'.staged.map (·.update.ssid) = some entry.2) ∧
      (s.applying.length < s'.applying.length → s.showing = []) ∧
      ∀ commit ∈ s'.commits.drop s.commits.length, commit.Moves → ¬ Keeping s)
    ⟨fun h => ⟨h.1, h.2.1, h.2.2⟩, fun h => ⟨h.stage, h.take, h.commit⟩⟩

theorem Orderly.not_keeping {s s' : Daemon} {commit : Commit} (h : Orderly s s')
    (hcommits : s'.commits = s.commits ++ [commit]) (hmoves : commit.Moves) : ¬ Keeping s :=
  h.commit commit (by rw [hcommits, List.drop_left]; exact List.mem_singleton_self commit) hmoves

/-- The snapshot says that an update is staged exactly when one is, and with its SSID. -/
def ShowsStaged (s : Daemon) : Prop :=
  (s.snapshot.managementHotspotPasswordPending = true ↔ s.staged.isSome = true) ∧
    ∀ staged, s.staged = some staged →
      s.snapshot.pendingManagementHotspotSsid = staged.update.ssid

instance (s : Daemon) : Decidable (ShowsStaged s) :=
  inferInstanceAs (Decidable (_ ∧ ∀ staged ∈ s.staged,
    s.snapshot.pendingManagementHotspotSsid = staged.update.ssid))

/-- An update that keeps the SSID was applied and it did. -/
def Commit.Keeps : Commit → Prop
  | .apply false before after => after = before
  | _ => True

instance : ∀ commit : Commit, Decidable commit.Keeps
  | .apply false _ _ => inferInstanceAs (Decidable (_ = _))
  | .apply true .. => isTrue trivial
  | .config .. => isTrue trivial

/-- No update of the hotspot was lost. -/
structure NoneLost (p : Pool Outcome Daemon (Option Response)) : Prop where
  putBacks : ∀ putBack ∈ p.state.putBacks, ∀ replaced ∈ putBack.replaced,
    replaced ≤ putBack.number
  shown : p.Quiet → ShowsStaged p.state
  commits : ∀ commit ∈ p.state.commits, commit.Keeps

instance (p : Pool Outcome Daemon (Option Response)) : Decidable (NoneLost p) :=
  decidable_of_iff
    ((∀ putBack ∈ p.state.putBacks, ∀ replaced ∈ putBack.replaced, replaced ≤ putBack.number) ∧
      (p.Quiet → ShowsStaged p.state) ∧ ∀ commit ∈ p.state.commits, commit.Keeps)
    ⟨fun h => ⟨h.1, h.2.1, h.2.2⟩, fun h => ⟨h.putBacks, h.shown, h.commits⟩⟩

/-! ## What a request has in hand -/

section

variable {α : Type} {i j : ℕ} {entry : α} {entries : List (ℕ × α)}

/-- The entries of one request. -/
def own (i : ℕ) (entries : List (ℕ × α)) : List α := (entries.filter (·.1 = i)).map Prod.snd

theorem mem_of_own {rest : List α} (h : own i entries = entry :: rest) : (i, entry) ∈ entries := by
  have hmem : entry ∈ own i entries := h ▸ List.mem_cons_self
  simp only [own, List.mem_map, List.mem_filter, decide_eq_true_eq] at hmem
  obtain ⟨⟨_, _⟩, ⟨hentry, rfl⟩, rfl⟩ := hmem
  exact hentry

theorem eq_nil_of_own (h : ∀ i, own i entries = []) : entries = [] := by
  cases entries with
  | nil => rfl
  | cons first rest =>
      have hfirst := h first.1
      simp [own] at hfirst

theorem own_cons_self : own i ((i, entry) :: entries) = entry :: own i entries := by
  simp [own]

theorem own_cons_of_ne (h : j ≠ i) : own j ((i, entry) :: entries) = own j entries := by
  simp [own, Ne.symm h]

theorem own_erase_self : own i (entries.filter (·.1 ≠ i)) = [] := by
  simp [own, List.filter_filter]

theorem own_erase_of_ne (h : j ≠ i) : own j (entries.filter (·.1 ≠ i)) = own j entries := by
  have hkept : ∀ entry : ℕ × α, (decide (entry.1 = j) && decide (entry.1 ≠ i)) =
      decide (entry.1 = j) := by
    intro entry
    by_cases hj : entry.1 = j <;> simp [hj, h]
  simp only [own, List.filter_filter, hkept]

end

/-- The SSIDs that a request is about to stage and to show, and the updates it applies. -/
def hand (i : ℕ) (s : Daemon) : List Bytes × List Bytes × List Staged :=
  (own i s.preparing, own i s.showing, own i s.applying)

/-! ## The invariant -/

structure InStep (s : Daemon) : Prop where
  preparing : ∀ entry ∈ s.preparing, entry.2 = s.config.managementHotspotSsid
  staged : ∀ staged, s.staged = some staged → staged.changesSsid = false →
    staged.update.ssid = s.config.managementHotspotSsid
  applying : ∀ entry ∈ s.applying, entry.2.changesSsid = false →
    entry.2.update.ssid = s.config.managementHotspotSsid
  /-- What is about to be shown is staged. -/
  showing : ∀ entry ∈ s.showing, s.applying = [] ∧
    s.staged.map (·.update.ssid) = some entry.2
  /-- What is being applied was staged last, and is shown. -/
  taken : ∀ entry ∈ s.applying, s.applying = [entry] ∧ s.showing = [] ∧ s.staged = none ∧
    s.snapshot.managementHotspotPasswordPending = true ∧
    s.snapshot.pendingManagementHotspotSsid = entry.2.update.ssid
  settled : s.showing = [] → s.applying = [] → ShowsStaged s
  putBacks : ∀ putBack ∈ s.putBacks, putBack.replaced = none
  commits : ∀ commit ∈ s.commits, commit.Keeps

/-- Nobody has an update in hand, so the snapshot is to show the one that is staged. -/
theorem inStep_of_idle {s : Daemon} (hshown : s.showing = []) (hnone : s.applying = [])
    (hpreparing : ∀ entry ∈ s.preparing, entry.2 = s.config.managementHotspotSsid)
    (hstaged : ∀ staged, s.staged = some staged → staged.changesSsid = false →
      staged.update.ssid = s.config.managementHotspotSsid)
    (hshows : ShowsStaged s) (hputBacks : ∀ putBack ∈ s.putBacks, putBack.replaced = none)
    (hcommits : ∀ commit ∈ s.commits, commit.Keeps) : InStep s where
  preparing := hpreparing
  staged := hstaged
  applying := by simp [hnone]
  showing := by simp [hshown]
  taken := by simp [hnone]
  settled _ _ := hshows
  putBacks := hputBacks
  commits := hcommits

def stagingDiscipline : Discipline Daemon where
  inv := InStep
  allowed := Orderly
  rely := fun i s s' => hand i s' = hand i s
  guarantee := fun i s s' => ∀ j, j ≠ i → hand j s' = hand j s
  fresh := fun i s => hand i s = ([], [], [])
  rely_refl := fun _ _ => rfl
  rely_trans := fun h h' => h'.trans h
  rely_of_guarantee := fun hne _ h => h _ hne
  fresh_of_rely := fun h hfresh => h.trans hfresh

instance (s s' : Daemon) : Decidable (stagingDiscipline.allowed s s') :=
  inferInstanceAs (Decidable (Orderly s s'))

/-! ## Sections that leave all of this alone -/

structure SameStaging (s s' : Daemon) : Prop where
  ssid : s'.config.managementHotspotSsid = s.config.managementHotspotSsid
  staged : s'.staged = s.staged
  pending : s'.snapshot.managementHotspotPasswordPending =
    s.snapshot.managementHotspotPasswordPending
  pendingSsid : s'.snapshot.pendingManagementHotspotSsid = s.snapshot.pendingManagementHotspotSsid
  preparing : s'.preparing = s.preparing
  showing : s'.showing = s.showing
  applying : s'.applying = s.applying
  putBacks : s'.putBacks = s.putBacks
  commits : s'.commits = s.commits

theorem SameStaging.refl (s : Daemon) : SameStaging s s :=
  ⟨rfl, rfl, rfl, rfl, rfl, rfl, rfl, rfl, rfl⟩

theorem SameSettings.sameStaging {s s' : Daemon} (h : SameSettings s s') : SameStaging s s' :=
  ⟨h.config ▸ rfl, h.staged, h.pending, h.pendingSsid, h.preparing, h.showing, h.applying,
    h.putBacks, h.commits⟩

theorem SameStaging.hand {s s' : Daemon} (h : SameStaging s s') (i : ℕ) :
    hand i s' = hand i s := by
  simp only [Bridge.hand, h.preparing, h.showing, h.applying]

theorem InStep.of_same {s s' : Daemon} (h : InStep s) (hsame : SameStaging s s') : InStep s' where
  preparing := by rw [hsame.preparing, hsame.ssid]; exact h.preparing
  staged := by rw [hsame.staged, hsame.ssid]; exact h.staged
  applying := by rw [hsame.applying, hsame.ssid]; exact h.applying
  showing := by rw [hsame.showing, hsame.applying, hsame.staged]; exact h.showing
  taken := by
    rw [hsame.applying, hsame.showing, hsame.staged, hsame.pending, hsame.pendingSsid]
    exact h.taken
  settled := by
    rw [hsame.showing, hsame.applying, ShowsStaged, hsame.staged, hsame.pending,
      hsame.pendingSsid]
    exact h.settled
  putBacks := by rw [hsame.putBacks]; exact h.putBacks
  commits := by rw [hsame.commits]; exact h.commits

section

variable {α : Type} {id : ℕ} {s : Daemon} {t : Handler α}
  {mine : List Bytes × List Bytes × List Staged}

theorem guarded_sameStaging (h : Within SameStaging t) (hs : hand id s = mine) :
    Guarded (stagingDiscipline.contract id) t (fun _ s' => hand id s' = mine) s :=
  h.guarded (fun s => hand id s = mine) (fun _ _ hrely hmine => hrely.trans hmine)
    (fun _ _ hinv hmine hsame =>
      ⟨hinv.of_same hsame, fun j _ => hsame.hand j, (hsame.hand id).trans hmine⟩)
    (fun _ _ hmine => hmine) hs

end

/-! ## Sections that do not -/

section

variable {id : ℕ} {s : Daemon} {ssid : Bytes} {staged : Staged}

theorem mem_preparing {rest : List Bytes × List Staged}
    (h : hand id s = (ssid :: [], rest)) : (id, ssid) ∈ s.preparing :=
  mem_of_own (congrArg Prod.fst h)

theorem mem_showing {preparing : List Bytes} {applying : List Staged}
    (h : hand id s = (preparing, [ssid], applying)) : (id, ssid) ∈ s.showing :=
  mem_of_own (congrArg (·.2.1) h)

theorem mem_applying {preparing showing : List Bytes}
    (h : hand id s = (preparing, showing, [staged])) : (id, staged) ∈ s.applying :=
  mem_of_own (congrArg (·.2.2) h)

theorem hand_eq_iff {preparing showing : List Bytes} {applying : List Staged} :
    hand id s = (preparing, showing, applying) ↔
      own id s.preparing = preparing ∧ own id s.showing = showing ∧
        own id s.applying = applying := by
  simp [hand]

theorem guarded_readConfigForUpdate (changesSsid : Bool) (hs : hand id s = ([], [], [])) :
    Guarded (stagingDiscipline.contract id) (readConfigForUpdate id changesSsid)
      (fun current s' => hand id s' =
        (if changesSsid then [] else [current.managementHotspotSsid], [], [])) s := by
  intro s₁ hrely (hinv : InStep s₁) _ _ _
  have hmine : hand id s₁ = ([], [], []) := Eq.trans hrely hs
  cases changesSsid with
  | true =>
      exact ⟨hinv.of_same { SameStaging.refl s₁ with }, fun _ _ => rfl,
        fun s₂ hrely' => Eq.trans hrely' hmine⟩
  | false =>
      refine ⟨{ hinv with preparing := ?_ }, fun j hj => ?_, fun s₂ hrely' => Eq.trans hrely' ?_⟩
      · intro entry hentry
        rcases List.mem_cons.mp hentry with rfl | hmem
        · rfl
        · exact hinv.preparing entry hmem
      · exact Prod.ext (own_cons_of_ne hj) rfl
      · obtain ⟨hpreparing, hshowing, happlying⟩ := hand_eq_iff.mp hmine
        exact hand_eq_iff.mpr ⟨by rw [← hpreparing]; exact own_cons_self, hshowing, happlying⟩

theorem guarded_stageUpdate {update : PendingManagementHotspotUpdate} {changesSsid : Bool}
    {current : Config} (hssid : changesSsid = false → update.ssid = current.managementHotspotSsid)
    (hs : hand id s = (if changesSsid then [] else [current.managementHotspotSsid], [], [])) :
    Guarded (stagingDiscipline.contract id) (stageUpdate id update changesSsid)
      (fun _ s' => hand id s' = ([], [update.ssid], [])) s := by
  intro s₁ hrely (hinv : InStep s₁) _ _ hallowed
  have hmine := Eq.trans hrely hs
  obtain ⟨hnone, hothers⟩ := Orderly.stage hallowed (Nat.lt_succ_self _)
  have hread : changesSsid = false → update.ssid = s₁.config.managementHotspotSsid := by
    intro hkeeps
    rw [hssid hkeeps]
    rw [hkeeps] at hmine
    exact hinv.preparing _ (mem_preparing hmine)
  refine ⟨{ hinv with preparing := ?_, staged := ?_, showing := ?_, taken := ?_, settled := ?_ },
    fun j hj => ?_, fun s₂ hrely' => Eq.trans hrely' ?_⟩
  · intro entry hentry
    exact hinv.preparing entry (List.mem_of_mem_filter hentry)
  · intro staged hstaged hkeeps
    cases hstaged
    exact hread hkeeps
  · intro entry hentry
    rcases List.mem_cons.mp hentry with rfl | hmem
    · exact ⟨hnone, rfl⟩
    · exact ⟨hnone, hothers entry hmem⟩
  · intro entry hentry
    exact absurd hentry (List.eq_nil_iff_forall_not_mem.mp hnone entry)
  · intro hempty
    cases hempty
  · simp only [hand, own_erase_of_ne hj, own_cons_of_ne hj]
  · obtain ⟨-, hshowing, happlying⟩ := hand_eq_iff.mp hmine
    exact hand_eq_iff.mpr ⟨own_erase_self, by rw [← hshowing]; exact own_cons_self, happlying⟩

theorem guarded_showPending (hs : hand id s = ([], [ssid], [])) :
    Guarded (stagingDiscipline.contract id) (showPending id ssid)
      (fun _ s' => hand id s' = ([], [], [])) s := by
  intro s₁ hrely (hinv : InStep s₁) _ _ _
  have hmine := Eq.trans hrely hs
  obtain ⟨hnone, hstaged⟩ := hinv.showing _ (mem_showing hmine)
  refine ⟨{ hinv with showing := ?_, taken := ?_, settled := ?_ }, fun j hj => ?_,
    fun s₂ hrely' => Eq.trans hrely' ?_⟩
  · intro entry hentry
    exact hinv.showing entry (List.mem_of_mem_filter hentry)
  · intro entry hentry
    exact absurd hentry (List.eq_nil_iff_forall_not_mem.mp hnone entry)
  · -- What is shown is what is staged, whoever staged it.
    intro _ _
    obtain ⟨staged, hsome, rfl⟩ := Option.map_eq_some_iff.mp hstaged
    refine ⟨by simp [hsome], fun staged' hstaged' => ?_⟩
    cases hsome.symm.trans hstaged'
    rfl
  · simp only [hand, own_erase_of_ne hj]
  · obtain ⟨hpreparing, -, happlying⟩ := hand_eq_iff.mp hmine
    exact hand_eq_iff.mpr ⟨hpreparing, own_erase_self, happlying⟩

theorem guarded_takeStaged (hs : hand id s = ([], [], [])) :
    Guarded (stagingDiscipline.contract id) (takeStaged id)
      (fun staged s' => hand id s' = ([], [], staged.toList)) s := by
  intro s₁ hrely (hinv : InStep s₁) _ _ hallowed
  have hmine : hand id s₁ = ([], [], []) := Eq.trans hrely hs
  cases hstaged : s₁.staged with
  | none =>
      simp only [hstaged]
      exact ⟨hinv, fun _ _ => rfl, fun s₂ hrely' => Eq.trans hrely' hmine⟩
  | some staged =>
      simp only [hstaged] at hallowed ⊢
      have hshown : s₁.showing = [] := Orderly.take hallowed (Nat.lt_succ_self _)
      have hnone : s₁.applying = [] := by
        by_contra hne
        obtain ⟨entry, hentry⟩ := List.exists_mem_of_ne_nil _ hne
        have hempty := (hinv.taken entry hentry).2.2.1
        cases hstaged.symm.trans hempty
      obtain ⟨hpending, hssid⟩ := hinv.settled hshown hnone
      refine ⟨{ hinv with staged := ?_, applying := ?_, showing := ?_, taken := ?_, settled := ?_ },
        fun j hj => ?_, fun s₂ hrely' => Eq.trans hrely' ?_⟩
      · intro staged' hstaged'
        cases hstaged'
      · intro entry hentry hkeeps
        rw [hnone, List.mem_singleton] at hentry
        cases hentry
        exact hinv.staged staged hstaged hkeeps
      · intro entry hentry
        exact absurd hentry (List.eq_nil_iff_forall_not_mem.mp hshown entry)
      · intro entry hentry
        rw [hnone, List.mem_singleton] at hentry
        cases hentry
        exact ⟨by rw [hnone], hshown, rfl, hpending.mpr (by rw [hstaged]; rfl),
          hssid staged hstaged⟩
      · intro _ hempty
        cases hempty
      · simp only [hand, own_cons_of_ne hj]
      · obtain ⟨hpreparing, hshowing, happlying⟩ := hand_eq_iff.mp hmine
        exact hand_eq_iff.mpr ⟨hpreparing, hshowing, by rw [own_cons_self, happlying]; rfl⟩

/-- A configuration is committed that has the SSID that was there, or nobody keeps that. -/
theorem InStep.commit {updated : Config} {commit : Commit} (h : InStep s)
    (hmoves : updated.managementHotspotSsid ≠ s.config.managementHotspotSsid → ¬ Keeping s)
    (hcommit : commit.Keeps) :
    InStep { s with config := updated, commits := s.commits ++ [commit] } := by
  have hcommits : ∀ commit' ∈ s.commits ++ [commit], commit'.Keeps := by
    intro commit' hmem
    rcases List.mem_append.mp hmem with hmem | hmem
    · exact h.commits commit' hmem
    · rwa [List.mem_singleton.mp hmem]
  by_cases hsame : updated.managementHotspotSsid = s.config.managementHotspotSsid
  · exact { h with
      preparing := by rw [hsame]; exact h.preparing
      staged := by rw [hsame]; exact h.staged
      applying := by rw [hsame]; exact h.applying
      commits := hcommits }
  · have hnone := hmoves hsame
    simp only [Keeping, not_or, not_not, List.any_eq_true, Bool.not_eq_true', not_exists,
      not_and, Option.any_eq_true] at hnone
    obtain ⟨hpreparing, hstaged, happlying⟩ := hnone
    refine { h with preparing := ?_, staged := ?_, applying := ?_, commits := hcommits }
    · intro entry hentry
      exact absurd hentry (List.eq_nil_iff_forall_not_mem.mp hpreparing entry)
    · intro staged hsome hkeeps
      exact absurd hkeeps (hstaged staged hsome)
    · intro entry hentry hkeeps
      exact absurd hkeeps (happlying entry hentry)

theorem guarded_commitApply {updated : Config}
    (hssid : updated.managementHotspotSsid = staged.update.ssid)
    (hs : hand id s = ([], [], [staged])) :
    Guarded (stagingDiscipline.contract id) (commitApply staged.changesSsid updated)
      (fun _ s' => hand id s' = ([], [], [staged])) s := by
  intro s₁ hrely (hinv : InStep s₁) _ _ hallowed
  have hmine := Eq.trans hrely hs
  have hread : staged.changesSsid = false →
      updated.managementHotspotSsid = s₁.config.managementHotspotSsid := fun hkeeps =>
    hssid.trans (hinv.applying _ (mem_applying hmine) hkeeps)
  refine ⟨hinv.commit (fun hmoves => ?_) ?_, fun _ _ => rfl,
    fun s₂ hrely' => Eq.trans hrely' hmine⟩
  · have hasked : staged.changesSsid = true := by
      by_contra hkeeps
      exact hmoves (hread (Bool.not_eq_true _ ▸ hkeeps))
    have hmoved : (Commit.apply staged.changesSsid s₁.config.managementHotspotSsid
        updated.managementHotspotSsid).Moves := ⟨hasked, hmoves⟩
    exact Orderly.not_keeping hallowed rfl hmoved
  · cases hasked : staged.changesSsid with
    | false => exact hread hasked
    | true => trivial

theorem guarded_commitConfig {updated : Config} (hs : hand id s = ([], [], [])) :
    Guarded (stagingDiscipline.contract id) (commitConfig updated)
      (fun _ s' => hand id s' = ([], [], [])) s := by
  intro s₁ hrely (hinv : InStep s₁) _ _ hallowed
  refine ⟨hinv.commit (fun hmoves => ?_) trivial, fun _ _ => rfl,
    fun s₂ hrely' => Eq.trans hrely' (Eq.trans hrely hs)⟩
  have hmoved : (Commit.config s₁.config.managementHotspotSsid
      updated.managementHotspotSsid).Moves := hmoves
  exact Orderly.not_keeping hallowed rfl hmoved

/-- The place of an update that is being applied is empty. -/
theorem guarded_clearPending (hs : hand id s = ([], [], [staged])) :
    Guarded (stagingDiscipline.contract id) (clearPending id)
      (fun _ s' => hand id s' = ([], [], [])) s := by
  intro s₁ hrely (hinv : InStep s₁) _ _ _
  have hmine := Eq.trans hrely hs
  obtain ⟨hone, hshown, hempty, -⟩ := hinv.taken _ (mem_applying hmine)
  have hnone : s₁.applying.filter (·.1 ≠ id) = [] := by simp [hone]
  refine ⟨inStep_of_idle hshown hnone hinv.preparing hinv.staged ?_
    hinv.putBacks hinv.commits, fun j hj => ?_,
    fun s₂ hrely' => Eq.trans hrely' ?_⟩
  · refine ⟨by simp [hempty], fun staged' hstaged' => ?_⟩
    cases hempty.symm.trans hstaged'
  · simp only [hand, own_erase_of_ne hj]
  · obtain ⟨hpreparing, hshowing, -⟩ := hand_eq_iff.mp hmine
    exact hand_eq_iff.mpr ⟨hpreparing, hshowing, own_erase_self⟩

theorem guarded_putBackStaged (hs : hand id s = ([], [], [staged])) :
    Guarded (stagingDiscipline.contract id) (putBackStaged id staged)
      (fun _ s' => hand id s' = ([], [], [])) s := by
  intro s₁ hrely (hinv : InStep s₁) _ _ _
  have hmine := Eq.trans hrely hs
  have hmem := mem_applying hmine
  obtain ⟨hone, hshown, hempty, hpending, hssid⟩ := hinv.taken _ hmem
  have hnone : s₁.applying.filter (·.1 ≠ id) = [] := by simp [hone]
  refine ⟨inStep_of_idle hshown hnone hinv.preparing ?_ ?_ ?_ hinv.commits,
    fun j hj => ?_, fun s₂ hrely' => Eq.trans hrely' ?_⟩
  · intro staged' hstaged' hkeeps
    cases hstaged'
    exact hinv.applying _ hmem hkeeps
  · refine ⟨by simp [hpending], fun staged' hstaged' => ?_⟩
    cases hstaged'
    exact hssid
  · intro putBack hputBack
    rcases List.mem_append.mp hputBack with hold | hnew
    · exact hinv.putBacks putBack hold
    · rw [List.mem_singleton] at hnew
      rw [hnew, hempty]
      rfl
  · simp only [hand, own_erase_of_ne hj]
  · obtain ⟨hpreparing, hshowing, -⟩ := hand_eq_iff.mp hmine
    exact hand_eq_iff.mpr ⟨hpreparing, hshowing, own_erase_self⟩

end

/-! ## The requests -/

namespace Staging

theorem within_saveConfigFile (config : Config) : Within SameStaging (saveConfigFile config) :=
  within_atomically fun s _ => { SameStaging.refl s with }

theorem sameStaging_hotspot (s : Daemon) (hotspot : Option Hotspot) :
    SameStaging s { s with hotspot := hotspot } := { SameStaging.refl s with }

theorem sameStaging_transaction (s : Daemon) (holder : Option ℕ) :
    SameStaging s { s with transaction := holder } := { SameStaging.refl s with }

section

variable {env : DaemonEnv} {id : ℕ} {body : Bytes} {s : Daemon} {previous updated : Config}
  {mine : List Bytes × List Bytes × List Staged}

theorem guarded_rollBack (applyFailed : Bool) (hs : hand id s = mine) :
    Guarded (stagingDiscipline.contract id) (rollBack applyFailed previous)
      (fun _ s' => hand id s' = mine) s :=
  guarded_sameStaging (within_rollBack sameStaging_hotspot applyFailed previous) hs

/-- The transactions differ in what they do to the hotspot, and in how they commit. -/
theorem guarded_saveAndCommit {commit : Handler Unit} {otherwise : Handler TransactionOutcome}
    (hcommit : ∀ s', hand id s' = mine →
      Guarded (stagingDiscipline.contract id) commit (fun _ s' => hand id s' = mine) s')
    (hotherwise : ∀ s', hand id s' = mine →
      Guarded (stagingDiscipline.contract id) otherwise (fun _ s' => hand id s' = mine) s')
    (hs : hand id s = mine) :
    Guarded (stagingDiscipline.contract id)
      (saveConfigFile updated >>= fun saved =>
        if saved = true then commit >>= fun _ => pure { saved := true } else otherwise)
      (fun _ s' => hand id s' = mine) s := by
  refine Guarded.bind ((guarded_sameStaging (within_saveConfigFile updated) hs).mono
    fun saved s₁ hs₁ => ?_)
  split
  · refine Guarded.bind ((hcommit s₁ hs₁).mono fun _ s₂ hs₂ => ?_)
    exact guarded_pure fun s₃ hrely => Eq.trans hrely hs₂
  · exact hotherwise s₁ hs₁

theorem guarded_applyUpdate {staged : Staged}
    (hssid : updated.managementHotspotSsid = staged.update.ssid)
    (hs : hand id s = ([], [], [staged])) :
    Guarded (stagingDiscipline.contract id) (applyUpdate staged.changesSsid previous updated)
      (fun _ s' => hand id s' = ([], [], [staged])) s := by
  refine Guarded.bind ((guarded_sameStaging
    (within_startManagementHotspot sameStaging_hotspot updated) hs).mono fun started s₁ hs₁ => ?_)
  split
  · exact guarded_saveAndCommit (fun s' => guarded_commitApply hssid)
      (fun s' => guarded_rollBack false) hs₁
  · exact guarded_rollBack true hs₁

theorem guarded_applyConfig (hs : hand id s = ([], [], [])) :
    Guarded (stagingDiscipline.contract id) (applyConfig previous updated)
      (fun _ s' => hand id s' = ([], [], [])) s := by
  by_cases hsame : previous.hotspot = updated.hotspot
  · rw [applyConfig_of_same hsame]
    exact guarded_saveAndCommit (fun _ => guarded_commitConfig)
      (fun _ => guarded_sameStaging (within_pure _)) hs
  · rw [applyConfig_of_changed hsame]
    refine Guarded.bind ((guarded_sameStaging
      (within_startManagementHotspot sameStaging_hotspot updated) hs).mono
      fun started s₁ hs₁ => ?_)
    split
    · exact guarded_saveAndCommit (fun _ => guarded_commitConfig)
        (fun s' => guarded_rollBack false) hs₁
    · exact guarded_rollBack true hs₁

theorem guarded_handleManagementHotspot (hs : hand id s = ([], [], [])) :
    Guarded (stagingDiscipline.contract id) (handleManagementHotspot id body)
      (fun _ s' => hand id s' = ([], [], [])) s := by
  have hreply : ∀ response : Response, Guarded (stagingDiscipline.contract id)
      (pure response : Handler Response) (fun _ s' => hand id s' = ([], [], [])) s :=
    fun response => guarded_sameStaging (within_pure response) hs
  simp only [handleManagementHotspot]
  split
  · split
    · exact hreply _
    split
    · exact hreply _
    · refine Guarded.bind ((guarded_readConfigForUpdate _ hs).mono fun current s₁ hs₁ => ?_)
      refine Guarded.bind ((guarded_stageUpdate (fun hkeeps => ?_) hs₁).mono fun _ s₂ hs₂ => ?_)
      · rw [hkeeps]
        rfl
      · refine Guarded.bind ((guarded_showPending hs₂).mono fun _ s₃ hs₃ => ?_)
        exact guarded_pure fun s₄ hrely => Eq.trans hrely hs₃
  · exact hreply _

theorem guarded_handleManagementHotspotApply (hs : hand id s = ([], [], [])) :
    Guarded (stagingDiscipline.contract id) (handleManagementHotspotApply id)
      (fun _ s' => hand id s' = ([], [], [])) s := by
  refine Guarded.bind ((guarded_takeStaged hs).mono fun taken s₁ hs₁ => ?_)
  cases taken with
  | none => exact guarded_pure fun s₂ hrely => Eq.trans hrely hs₁
  | some staged =>
      refine Guarded.bind ((guarded_sameStaging
        (within_lockTransaction sameStaging_transaction id) hs₁).mono fun _ s₂ hs₂ => ?_)
      refine Guarded.bind ((guarded_sameStaging (within_readConfig SameStaging.refl) hs₂).mono
        fun previous s₃ hs₃ => ?_)
      have hssid : (staged.update.applied previous).managementHotspotSsid = staged.update.ssid :=
        rfl
      refine Guarded.bind ((guarded_applyUpdate hssid hs₃).mono fun outcome s₄ hs₄ => ?_)
      split
      · refine Guarded.bind ((guarded_clearPending hs₄).mono fun _ s₅ hs₅ => ?_)
        exact guarded_sameStaging (within_unlock_reply sameStaging_transaction _) hs₅
      · refine Guarded.bind ((guarded_putBackStaged hs₄).mono fun _ s₅ hs₅ => ?_)
        exact guarded_sameStaging (within_unlock_reply sameStaging_transaction _) hs₅

theorem guarded_handleConfig (hs : hand id s = ([], [], [])) :
    Guarded (stagingDiscipline.contract id) (handleConfig env id body)
      (fun _ s' => hand id s' = ([], [], [])) s := by
  unfold handleConfig
  split
  · exact guarded_sameStaging (within_pure _) hs
  · refine Guarded.bind ((guarded_sameStaging
      (within_lockTransaction sameStaging_transaction id) hs).mono fun _ s₁ hs₁ => ?_)
    refine Guarded.bind ((guarded_sameStaging (within_readConfig SameStaging.refl) hs₁).mono
      fun previous s₂ hs₂ => ?_)
    refine Guarded.bind ((guarded_applyConfig hs₂).mono fun outcome s₃ hs₃ => ?_)
    refine Guarded.bind ((guarded_sameStaging
      (within_unlockTransaction sameStaging_transaction) hs₃).mono fun _ s₄ hs₄ => ?_)
    split
    · exact guarded_sameStaging ((within_configSaved env _ _).mono
        fun _ _ h => h.settings.sameStaging) hs₄
    · exact guarded_sameStaging (within_pure _) hs₄

theorem guarded_dispatch {request : Bytes} (hs : hand id s = ([], [], [])) :
    Guarded (stagingDiscipline.contract id) (dispatch env id request body)
      (fun _ s' => hand id s' = ([], [], [])) s := by
  refine dispatch_cases (fun t hread => ?_) (fun _ => guarded_handleManagementHotspot hs)
    (fun _ => guarded_handleManagementHotspotApply hs) ?_
  · exact guarded_sameStaging (hread.mono fun s _ hsame => hsame ▸ SameStaging.refl s) hs
  refine Guarded.bind ((guarded_sameStaging (within_readConfig SameStaging.refl) hs).mono
    fun config s₁ hs₁ => ?_)
  split
  · exact guarded_sameStaging (within_pure _) hs₁
  · refine dispatchSetUp_cases (fun t hsame => ?_) (guarded_handleConfig hs₁)
    exact guarded_sameStaging (hsame.mono fun _ _ => SameSettings.sameStaging) hs₁

theorem guarded_handleClient {request : Bytes} (hs : hand id s = ([], [], [])) :
    Guarded (stagingDiscipline.contract id) (handleClient env id request)
      (fun _ s' => hand id s' = ([], [], [])) s := by
  unfold handleClient
  split
  · exact Guarded.bind ((guarded_dispatch hs).mono fun _ s₁ hs₁ =>
      guarded_sameStaging (within_pure _) hs₁)
  · exact guarded_sameStaging (within_pure _) hs
  · exact guarded_sameStaging (within_pure _) hs

end

end Staging

/-! ## Orderly runs -/

section

variable {env : DaemonEnv} {s : Daemon} {events : List (PoolEvent Bytes Outcome)}
  {p : Pool Outcome Daemon (Option Response)}

/-- No update was staged yet. -/
structure Unstaged (s : Daemon) : Prop where
  staged : s.staged = none
  pending : s.snapshot.managementHotspotPasswordPending = false
  preparing : s.preparing = []
  showing : s.showing = []
  applying : s.applying = []
  putBacks : s.putBacks = []
  commits : s.commits = []

theorem Unstaged.inStep (h : Unstaged s) : InStep s :=
  inStep_of_idle h.showing h.applying (by simp [h.preparing]) (by simp [h.staged])
    ⟨by simp [h.pending, h.staged], by simp [h.staged]⟩ (by simp [h.putBacks])
    (by simp [h.commits])

theorem Unstaged.hand (h : Unstaged s) (i : ℕ) : hand i s = ([], [], []) := by
  simp [Bridge.hand, own, h.preparing, h.showing, h.applying]

/-- When all requests are done, nothing is in anybody's hand. -/
theorem noneLost_of_governed
    (h : stagingDiscipline.Governed (fun i _ s => Bridge.hand i s = ([], [], [])) p) :
    NoneLost p where
  putBacks := by
    intro putBack hmem replaced hreplaced
    cases (InStep.putBacks h.inv putBack hmem).symm.trans hreplaced
  shown := by
    intro hquiet
    have hhand : ∀ i, Bridge.hand i p.state = ([], [], []) := by
      intro i
      rcases Nat.lt_or_ge i p.threads.length with hlt | hge
      · obtain ⟨value, hdone⟩ := hquiet _ (List.getElem_mem hlt)
        have hguarded := h.threads i _ (List.getElem?_eq_getElem hlt)
        rw [hdone] at hguarded
        exact hguarded p.state rfl
      · exact h.fresh i hge
    exact InStep.settled h.inv (eq_nil_of_own fun i => (hand_eq_iff.mp (hhand i)).2.1)
      (eq_nil_of_own fun i => (hand_eq_iff.mp (hhand i)).2.2)
  commits := InStep.commits h.inv

/-- In every order of any requests, and whatever the calls return: when every step is
orderly, an update that is put back replaces none that was staged later, the snapshot shows
the staged update whenever no request is in progress, and an update that keeps the SSID
leaves it as it is. -/
theorem noneLost_of_orderly (hstart : Unstaged s)
    (horderly : Machine.Each (Pool.step (handleClient env))
      (stagingDiscipline.Allows (handleClient env)) events ⟨s, []⟩)
    (hrun : Machine.run (Pool.step (handleClient env)) events ⟨s, []⟩ = some p) : NoneLost p := by
  refine noneLost_of_governed (Discipline.Governed.run ?_ ?_ horderly hrun)
  · exact Discipline.governed_start hstart.inStep hstart.hand
  · exact fun i request s _ hfresh => Staging.guarded_handleClient hfresh

end

/-- An update is staged while a configuration with the same SSID is saved, and then applied. -/
theorem noneLost_of_orderly_applied :
    let c : Config := ⟨[], ascii "wlan0", ascii "car", ascii "12345678", []⟩
    let applied : Config := { c with managementHotspotPassphrase := ascii "secret-1" }
    let stage := ascii "POST /management-hotspot HTTP/1.1\r\nContent-Length: 92\r\n\r\n" ++
      ascii "csrf=t&management_hotspot_passphrase=secret-1" ++
      ascii "&management_hotspot_passphrase_confirm=secret-1"
    let config := ascii "POST /config HTTP/1.1\r\nContent-Length: 55\r\n\r\n" ++
      ascii "csrf=t&wifi_interface=wlan0&management_hotspot_ssid=car"
    let apply :=
      ascii "POST /management-hotspot/apply HTTP/1.1\r\nContent-Length: 6\r\n\r\ncsrf=t"
    let events : List (PoolEvent Bytes Outcome) :=
      [.arrive stage, .arrive config, .advance 1 {}, .advance 0 {}, .advance 1 {}, .advance 0 {},
        .advance 1 {}, .advance 0 {}, .advance 1 {}, .advance 1 {}, .advance 1 {},
        .arrive apply] ++ List.replicate 8 (.advance 2 { hotspot := some applied.hotspot })
    ∃ p, Machine.run (Pool.step (handleClient ⟨ascii "t", []⟩)) events
        ⟨{ config := c, file := content c, hotspot := some c.hotspot }, []⟩ = some p ∧
      (p.Quiet ∧ p.state.config = applied) ∧ NoneLost p := by
  dsimp only
  repeat rw [ascii_ofList]
  refine Exists.imp (fun p h => ⟨h.1, of_decide_eq_true h.2, ?_⟩)
    ((Option.any_eq_true _ _).mp ?_)
  · exact noneLost_of_orderly ⟨rfl, rfl, rfl, rfl, rfl, rfl, rfl⟩ (by decide +kernel) h.1
  · decide +kernel

/-- Three runs that lose something.  A failed apply puts its update back over one that was
staged meanwhile; a successful one clears what the snapshot says of an update that was
staged meanwhile; and an update that keeps the SSID takes back the SSID that `POST /config`
saved after it was staged. -/
theorem updates_lost :
    let c : Config := ⟨[], ascii "wlan0", ascii "car", ascii "12345678", []⟩
    let s : Daemon := { config := c, file := content c, hotspot := some c.hotspot }
    let run := fun events : List (PoolEvent Bytes Outcome) =>
      Machine.run (Pool.step (handleClient ⟨ascii "t", []⟩)) events ⟨s, []⟩
    let stage := ascii "POST /management-hotspot HTTP/1.1\r\nContent-Length: 92\r\n\r\n" ++
      ascii "csrf=t&management_hotspot_passphrase=secret-1" ++
      ascii "&management_hotspot_passphrase_confirm=secret-1"
    let apply :=
      ascii "POST /management-hotspot/apply HTTP/1.1\r\nContent-Length: 6\r\n\r\ncsrf=t"
    let config := ascii "POST /config HTTP/1.1\r\nContent-Length: 62\r\n\r\n" ++
      ascii "csrf=t&wifi_interface=wlan0&management_hotspot_ssid=automobile"
    let steps := fun (id count : ℕ) (hotspot : Option Hotspot) =>
      List.replicate count (PoolEvent.advance id { hotspot := hotspot })
    let staged : List (PoolEvent Bytes Outcome) := .arrive stage :: steps 0 3 none
    let overlapping : List (PoolEvent Bytes Outcome) :=
      staged ++ .arrive apply :: steps 1 1 none ++ .arrive stage :: steps 2 3 none ++ steps 1 2 none
    let applied : Hotspot := ⟨ascii "wlan0", ascii "car", ascii "secret-1"⟩
    let moved : Hotspot := ⟨ascii "wlan0", ascii "automobile", ascii "12345678"⟩
    Unstaged s ∧
      (∃ p, run (overlapping ++ steps 1 1 none ++ steps 1 3 (some c.hotspot)) = some p ∧
        p.state.putBacks = [⟨1, some 2⟩] ∧ ¬ NoneLost p) ∧
      (∃ p, run (overlapping ++ steps 1 5 (some applied)) = some p ∧
        (p.Quiet ∧ p.state.staged.isSome = true ∧
          p.state.snapshot.managementHotspotPasswordPending = false) ∧ ¬ NoneLost p) ∧
      ∃ p, run (staged ++ .arrive config :: steps 1 7 (some moved) ++
          .arrive apply :: steps 2 8 (some applied)) = some p ∧
        p.state.commits = [.config (ascii "car") (ascii "automobile"),
          .apply false (ascii "automobile") (ascii "car")] ∧ ¬ NoneLost p := by
  dsimp only
  repeat rw [ascii_ofList]
  refine ⟨⟨rfl, rfl, rfl, rfl, rfl, rfl, rfl⟩, ?_, ?_, ?_⟩
  · decide +kernel
  · decide +kernel
  · decide +kernel

end Bridge
end Aa2acp
