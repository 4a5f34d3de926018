import Aa2acp.Lib.Machine
import Mathlib.Algebra.Group.Nat.Defs
import Mathlib.Data.Int.Notation
import Mathlib.Data.Nat.Notation
import Mathlib.Tactic.SplitIfs

/-!
# The loop behind Android Auto

`run_wired_android_auto_receiver` of `bridge_daemon_main.cpp`, once the receiver is started: a
loop that begins a CarPlay session when one is asked for and tries again after a failure, and
the callback of the receiver, which runs in a thread of the USB stack.  The two share atomic
variables only, and each step reads or writes them once, so that the other thread may come
between any two.

A phone that is attached is not forgotten: until its request was served a session is asked for,
or the loop is at work on one (`phone_not_forgotten`).
-/

namespace Aa2acp
namespace Bridge
namespace AndroidAuto

/-- Where the loop is. -/
inductive Stage where
  /-- Before `stop.stop_requested()`. -/
  | testing
  /-- Before `carplay_start_requested.exchange(false)`. -/
  | polling
  /-- Before `config_provider()`. -/
  | preparing
  /-- In `run_carplay_session`. -/
  | session
  /-- It has returned; before `stop.stop_requested()`. -/
  | ended (result : ℤ)
  /-- Before `phone_disconnected.load()`. -/
  | checking (result : ℤ)
  /-- It failed; before `preparation_failed->store(true)`. -/
  | failing
  /-- In the loop with the pauses. -/
  | waiting (remaining : ℕ)
  /-- Before the test of `phone_disconnected` and the stop. -/
  | retrying
  /-- Before `carplay_start_requested = true`. -/
  | requesting
  | finished
deriving DecidableEq, Repr

/-- Where the callback is; `aoap_transport_ready` writes three variables. -/
inductive Callback where
  | idle
  /-- Before `preparation_failed->store(false)`. -/
  | clearing
  /-- Before `carplay_start_requested = true`. -/
  | requesting
deriving DecidableEq, Repr

/-- The last fields are histories: whether a phone is attached, whether what it asked for was
done (a session ended well, or there was no configuration for one), how many sessions have
failed since one ended well, and, since the last of these, how many seconds the loop has slept
and whether a phone was unplugged. -/
structure State where
  stage : Stage := .testing
  callback : Callback := .idle
  startRequested : Bool := false
  phoneDisconnected : Bool := false
  preparationFailed : Bool := false
  stopRequested : Bool := false
  /-- In seconds. -/
  retryDelay : ℕ := 0
  attached : Bool := false
  served : Bool := false
  failures : ℕ := 0
  slept : ℕ := 0
  unplugged : Bool := false
deriving DecidableEq, Repr

inductive Event where
  /-- A step of the loop; `configured` is whether there are a head-unit MAC and a Wi-Fi
  interface, `result` what `run_carplay_session` returns. -/
  | advance (configured : Bool) (result : ℤ)
  /-- The receiver reports `aoap_transport_ready`. -/
  | ready
  /-- The next step of that report. -/
  | report
  /-- The receiver reports `disconnected`. -/
  | disconnected
  /-- The stop is requested. -/
  | stop
deriving DecidableEq, Repr

/-- The delay after another failure. -/
def nextDelay (retryDelay : ℕ) : ℕ := if retryDelay = 0 then 1 else min (retryDelay * 2) 30

/-- The loop. -/
def advance (configured : Bool) (result : ℤ) (s : State) : Option State :=
  match s.stage with
  | .testing => some { s with stage := if s.stopRequested then .finished else .polling }
  | .polling =>
      some { s with
        startRequested := false
        stage := if s.startRequested then .preparing else .testing }
  | .preparing =>
      if configured then some { s with stage := .session }
      else some { s with stage := .testing, served := true }
  | .session => some { s with stage := .ended result }
  | .ended result => some { s with stage := if s.stopRequested then .finished else .checking result }
  | .checking result =>
      if s.phoneDisconnected then some { s with stage := .testing }
      else if result = 0 then
        some { s with stage := .testing, retryDelay := 0, served := true, failures := 0 }
      else some { s with stage := .failing }
  | .failing =>
      some { s with
        preparationFailed := true
        retryDelay := nextDelay s.retryDelay
        stage := .waiting (nextDelay s.retryDelay)
        failures := s.failures + 1
        slept := 0
        unplugged := s.phoneDisconnected }
  | .waiting remaining =>
      if 0 < remaining ∧ ¬ s.stopRequested ∧ ¬ s.phoneDisconnected then
        some { s with stage := .waiting (remaining - 1), slept := s.slept + 1 }
      else some { s with stage := .retrying }
  | .retrying =>
      some { s with
        stage := if ¬ s.phoneDisconnected ∧ ¬ s.stopRequested then .requesting else .testing }
  | .requesting => some { s with startRequested := true, stage := .testing }
  | .finished => none

def step : Event → State → Option State
  | .advance configured result, s => advance configured result s
  | .ready, s =>
      -- the receiver reports one event after the other
      if s.callback = .idle then
        some { s with phoneDisconnected := false, callback := .clearing, attached := true, served := false }
      else none
  | .report, s =>
      match s.callback with
      | .idle => none
      | .clearing => some { s with preparationFailed := false, callback := .requesting }
      | .requesting => some { s with startRequested := true, callback := .idle }
  | .disconnected, s =>
      if s.callback = .idle then
        some { s with phoneDisconnected := true, attached := false, unplugged := true }
      else none
  | .stop, s => some { s with stopRequested := true }

def run : List Event → State → Option State := Machine.run step

/-- The loop has taken a request and has not yet done with it. -/
def Stage.AtWork : Stage → Prop
  | .preparing | .session | .ended _ | .checking _ | .failing | .waiting _ | .retrying | .requesting => True
  | .testing | .polling | .finished => False

instance : DecidablePred Stage.AtWork := fun stage => by
  cases stage <;> unfold Stage.AtWork <;> infer_instance

/-! ## Every run -/

/-- The delay before the next session, after so many failures. -/
def delayAfter : ℕ → ℕ
  | 0 => 0
  | failures + 1 => min (2 ^ failures) 30

theorem nextDelay_delayAfter (failures : ℕ) : nextDelay (delayAfter failures) = delayAfter (failures + 1) := by
  cases failures with
  | zero => rfl
  | succ failures =>
      have hpos : 0 < 2 ^ failures := Nat.two_pow_pos failures
      show nextDelay (min (2 ^ failures) 30) = min (2 ^ (failures + 1)) 30
      unfold nextDelay
      rw [if_neg (by omega), Nat.pow_succ]
      omega

/-- How long the loop has waited when it asks for a session once more. -/
def Waited (s : State) : Stage → Prop
  | .waiting remaining => s.slept + remaining = s.retryDelay ∧ (s.phoneDisconnected = true → s.unplugged = true)
  | .retrying => (s.slept = s.retryDelay ∨ s.stopRequested = true ∨ s.unplugged = true) ∧
      (s.phoneDisconnected = true → s.unplugged = true)
  | .requesting => s.slept = s.retryDelay ∨ s.unplugged = true
  | _ => True

structure Sound (s : State) : Prop where
  /-- The phone that is attached is served, or will be. -/
  kept : s.attached = true → s.served = false →
    s.callback ≠ .idle ∨ s.startRequested = true ∨ s.stage.AtWork ∨ s.stopRequested = true
  attached : s.attached = true → s.phoneDisconnected = false
  reporting : s.callback ≠ .idle → s.attached = true
  finished : s.stage = .finished → s.stopRequested = true
  delay : s.retryDelay = delayAfter s.failures
  waited : Waited s s.stage

theorem sound_start : Sound {} where
  kept h := by cases h
  attached h := by cases h
  reporting h := absurd rfl h
  finished h := by cases h
  delay := rfl
  waited := trivial

variable {s s' : State} {event : Event}

/-- While the loop is at work nothing has to be asked for. -/
theorem Sound.work (h : Sound s) (hattached : s.attached = true) (hserved : s.served = false)
    (hstage : ¬ s.stage.AtWork) :
    s.callback ≠ .idle ∨ s.startRequested = true ∨ s.stopRequested = true := by
  rcases h.kept hattached hserved with hcallback | hstart | hwork | hstop
  · exact Or.inl hcallback
  · exact Or.inr (Or.inl hstart)
  · exact absurd hwork hstage
  · exact Or.inr (Or.inr hstop)

theorem Sound.advance (h : Sound s) {configured : Bool} {result : ℤ}
    (hstep : advance configured result s = some s') : Sound s' := by
  have hwaited := h.waited
  have hkept := h.work
  unfold AndroidAuto.advance at hstep
  split at hstep
  next hstage =>
    cases hstep
    rw [hstage] at hkept
    refine ⟨fun hattached hserved => ?_, h.attached, h.reporting, ?_, h.delay, ?_⟩
    · rcases hkept hattached hserved id with hcallback | hstart | hstop
      · exact Or.inl hcallback
      · exact Or.inr (Or.inl hstart)
      · exact Or.inr (Or.inr (Or.inr hstop))
    · intro hfinished
      by_contra hstop
      simp [hstop] at hfinished
    · dsimp only
      split <;> trivial
  next hstage =>
    cases hstep
    rw [hstage] at hkept
    refine ⟨fun hattached hserved => ?_, h.attached, h.reporting, ?_, h.delay, ?_⟩
    · rcases hkept hattached hserved id with hcallback | hstart | hstop
      · exact Or.inl hcallback
      · simp [hstart, Stage.AtWork]
      · exact Or.inr (Or.inr (Or.inr hstop))
    · intro hfinished
      dsimp only at hfinished
      split at hfinished <;> cases hfinished
    · dsimp only
      split <;> trivial
  next hstage =>
    split at hstep <;> cases hstep
    · exact ⟨fun _ _ => Or.inr (Or.inr (Or.inl trivial)), h.attached, h.reporting,
        nofun, h.delay, trivial⟩
    · exact ⟨fun _ => nofun, h.attached, h.reporting,
        nofun, h.delay, trivial⟩
  next hstage =>
    cases hstep
    exact ⟨fun _ _ => Or.inr (Or.inr (Or.inl trivial)), h.attached, h.reporting,
      nofun, h.delay, trivial⟩
  next result hstage =>
    cases hstep
    by_cases hstop : s.stopRequested = true
    · rw [if_pos hstop]
      exact ⟨fun _ _ => Or.inr (Or.inr (Or.inr hstop)), h.attached, h.reporting, fun _ => hstop,
        h.delay, trivial⟩
    · rw [if_neg hstop]
      exact ⟨fun _ _ => Or.inr (Or.inr (Or.inl trivial)), h.attached, h.reporting,
        nofun, h.delay, trivial⟩
  next result hstage =>
    split at hstep
    next hgone =>
      cases hstep
      -- a phone that is gone is not attached
      refine ⟨fun hattached _ => ?_, h.attached, h.reporting, nofun,
        h.delay, trivial⟩
      rw [h.attached hattached] at hgone
      cases hgone
    next hthere =>
      split at hstep <;> cases hstep
      · exact ⟨fun _ => nofun, h.attached, h.reporting,
          nofun, rfl, trivial⟩
      · exact ⟨fun _ _ => Or.inr (Or.inr (Or.inl trivial)), h.attached, h.reporting,
          nofun, h.delay, trivial⟩
  next hstage =>
    cases hstep
    refine ⟨fun _ _ => Or.inr (Or.inr (Or.inl trivial)), h.attached, h.reporting,
      nofun, ?_, ?_⟩
    · show nextDelay s.retryDelay = delayAfter (s.failures + 1)
      rw [h.delay, nextDelay_delayAfter]
    · exact ⟨Nat.zero_add _, id⟩
  next remaining hstage =>
    rw [hstage] at hwaited
    obtain ⟨hslept, hunplugged⟩ := hwaited
    split at hstep <;> cases hstep
    next hpause =>
      refine ⟨fun _ _ => Or.inr (Or.inr (Or.inl trivial)), h.attached, h.reporting,
        nofun, h.delay, ?_, hunplugged⟩
      dsimp only
      omega
    next hleave =>
      refine ⟨fun _ _ => Or.inr (Or.inr (Or.inl trivial)), h.attached, h.reporting,
        nofun, h.delay, ?_, hunplugged⟩
      show s.slept = s.retryDelay ∨ s.stopRequested = true ∨ s.unplugged = true
      by_cases hstop : s.stopRequested = true
      · exact Or.inr (Or.inl hstop)
      · by_cases hgone : s.phoneDisconnected = true
        · exact Or.inr (Or.inr (hunplugged hgone))
        · have hnone : ¬ 0 < remaining := fun hpos => hleave ⟨hpos, hstop, hgone⟩
          exact Or.inl (by omega)
  next hstage =>
    cases hstep
    rw [hstage] at hwaited
    obtain ⟨hslept, hunplugged⟩ := hwaited
    by_cases hagain : ¬ s.phoneDisconnected = true ∧ ¬ s.stopRequested = true
    · rw [if_pos hagain]
      refine ⟨fun _ _ => Or.inr (Or.inr (Or.inl trivial)), h.attached, h.reporting,
        nofun, h.delay, ?_⟩
      rcases hslept with hslept | hstop | hgone
      · exact Or.inl hslept
      · exact absurd hstop hagain.2
      · exact Or.inr hgone
    · rw [if_neg hagain]
      refine ⟨fun hattached _ => ?_, h.attached, h.reporting, nofun,
        h.delay, trivial⟩
      rw [h.attached hattached] at hagain
      exact Or.inr (Or.inr (Or.inr (by simpa using hagain)))
  next hstage =>
    cases hstep
    exact ⟨fun _ _ => Or.inr (Or.inl rfl), h.attached, h.reporting,
      nofun, h.delay, trivial⟩
  next hstage => cases hstep

theorem Sound.step (h : Sound s) (hstep : step event s = some s') : Sound s' := by
  have hwaited := h.waited
  cases event with
  | advance configured result => exact h.advance hstep
  | ready =>
      simp only [AndroidAuto.step] at hstep
      split at hstep <;> cases hstep
      refine ⟨fun _ _ => Or.inl (by simp), fun _ => rfl, fun _ => rfl, h.finished, h.delay, ?_⟩
      cases hstage : s.stage <;> rw [hstage] at hwaited <;> simp_all [Waited]
  | report =>
      simp only [AndroidAuto.step] at hstep
      split at hstep
      next => cases hstep
      next hcallback =>
        cases hstep
        refine ⟨fun _ _ => Or.inl (by simp), h.attached, fun _ => h.reporting (by simp [hcallback]),
          h.finished, h.delay, ?_⟩
        cases hstage : s.stage <;> rw [hstage] at hwaited <;> exact hwaited
      next hcallback =>
        cases hstep
        refine ⟨fun _ _ => Or.inr (Or.inl rfl), h.attached, fun hnone => absurd rfl hnone, h.finished,
          h.delay, ?_⟩
        cases hstage : s.stage <;> rw [hstage] at hwaited <;> exact hwaited
  | disconnected =>
      simp only [AndroidAuto.step] at hstep
      split at hstep <;> cases hstep
      next hidle =>
        refine ⟨nofun, nofun,
          fun hcallback => absurd hidle hcallback, h.finished, h.delay, ?_⟩
        cases hstage : s.stage <;> rw [hstage] at hwaited <;> simp_all [Waited]
  | stop =>
      cases hstep
      refine ⟨fun _ _ => Or.inr (Or.inr (Or.inr rfl)), h.attached, h.reporting, fun _ => rfl, h.delay, ?_⟩
      cases hstage : s.stage <;> rw [hstage] at hwaited <;> simp_all [Waited]

theorem sound_of_run {events : List Event} (hrun : run events {} = some s) : Sound s :=
  Machine.run_invariant Sound (fun _ _ _ hsound hstep => hsound.step hstep) sound_start hrun

end AndroidAuto
end Bridge
end Aa2acp
