import Mathlib.Data.Option.Basic

/-!
# Machines

A machine is a partial function that takes an event and a state to the next state.  A run
is a list of events, each of them possible in the state before it.  This file states how
an invariant is carried over a run, also over a run that meets a condition at each of its
steps and over what a run records (`trace`), when a property of the state in which a run ends
says that all its steps met such a condition, and when a run can be continued to its end.
-/

namespace Aa2acp
namespace Machine

variable {E S : Type} {step : E → S → Option S} {events more : List E} {s s' : S}

/-- The steps of a run, in order; `none` when one of them is not possible. -/
def run (step : E → S → Option S) : List E → S → Option S
  | [], s => some s
  | event :: events, s => (step event s).bind (run step events)

@[simp] theorem run_nil : run step [] s = some s := rfl

theorem run_cons_eq_some {event : E} :
    run step (event :: events) s = some s' ↔
      ∃ next, step event s = some next ∧ run step events next = some s' :=
  Option.bind_eq_some_iff

theorem run_append_eq_some :
    run step (events ++ more) s = some s' ↔
      ∃ next, run step events s = some next ∧ run step more next = some s' := by
  induction events generalizing s with
  | nil => simp
  | cons event events ih =>
      simp only [List.cons_append, run_cons_eq_some, ih]
      constructor
      · rintro ⟨middle, hstep, next, hrun, hmore⟩
        exact ⟨next, ⟨middle, hstep, hrun⟩, hmore⟩
      · rintro ⟨next, ⟨middle, hstep, hrun⟩, hmore⟩
        exact ⟨middle, hstep, next, hrun, hmore⟩

/-- Whether a run gets to a state of some kind can be computed. -/
instance decidableReaches {kind : S → Prop} [DecidablePred kind] :
    ∀ last : Option S, Decidable (∃ s', last = some s' ∧ kind s')
  | some s' => decidable_of_iff (kind s') (by simp)
  | none => isFalse (by simp)

/-- Every step of the run meets the condition, which is about the event and the state in
which it comes. -/
def Each (step : E → S → Option S) (condition : E → S → Prop) : List E → S → Prop
  | [], _ => True
  | event :: events, s =>
      condition event s ∧
        match step event s with
        | some next => Each step condition events next
        | none => True

instance decidableEach (condition : E → S → Prop) [∀ event s, Decidable (condition event s)] :
    ∀ (events : List E) (s : S), Decidable (Each step condition events s)
  | [], _ => isTrue trivial
  | event :: events, s =>
      match h : step event s with
      | some next =>
          have := decidableEach condition events next
          decidable_of_iff (condition event s ∧ Each step condition events next) (by simp [Each, h])
      | none => decidable_of_iff (condition event s) (by simp [Each, h])

variable {condition : E → S → Prop}

@[simp] theorem each_nil : Each step condition [] s := trivial

theorem each_cons_of_step {event : E} (hstep : step event s = some s') :
    Each step condition (event :: events) s ↔
      condition event s ∧ Each step condition events s' := by
  simp [Each, hstep]

theorem Each.mono {condition' : E → S → Prop} (h : Each step condition events s)
    (himp : ∀ event s, condition event s → condition' event s) : Each step condition' events s := by
  induction events generalizing s with
  | nil => trivial
  | cons event events ih =>
      refine ⟨himp event s h.1, ?_⟩
      have hrest := h.2
      cases hstep : step event s with
      | none => trivial
      | some next =>
          rw [hstep] at hrest
          exact ih hrest

/-- The rule for runs whose steps all meet a condition. -/
theorem Each.run_invariant (Inv : S → Prop)
    (hkeep : ∀ event s s', Inv s → condition event s → step event s = some s' → Inv s')
    (heach : Each step condition events s) (h : Inv s) (hrun : run step events s = some s') :
    Inv s' := by
  induction events generalizing s with
  | nil =>
      cases hrun
      exact h
  | cons event events ih =>
      obtain ⟨next, hstep, hrest⟩ := run_cons_eq_some.mp hrun
      obtain ⟨hcondition, heach⟩ := (each_cons_of_step hstep).mp heach
      exact ih heach (hkeep event s next h hcondition hstep) hrest

/-- The rule for all runs. -/
theorem run_invariant (Inv : S → Prop)
    (hkeep : ∀ event s s', Inv s → step event s = some s' → Inv s') (h : Inv s)
    (hrun : run step events s = some s') : Inv s' := by
  induction events generalizing s with
  | nil =>
      cases hrun
      exact h
  | cons event events ih =>
      obtain ⟨next, hstep, hrest⟩ := run_cons_eq_some.mp hrun
      exact ih (hkeep event s next h hstep) hrest

/-- The rule for what has happened so far, with the state that it led to. -/
theorem history_invariant (Inv : List E → S → Prop)
    (hkeep : ∀ history event s s', Inv history s → step event s = some s' →
      Inv (history ++ [event]) s')
    {history : List E} (h : Inv history s) (hrun : run step events s = some s') :
    Inv (history ++ events) s' := by
  induction events generalizing s history with
  | nil =>
      cases hrun
      rwa [List.append_nil]
  | cons event events ih =>
      obtain ⟨next, hstep, hrest⟩ := run_cons_eq_some.mp hrun
      rw [List.append_cons]
      exact ih (hkeep history event s next h hstep) hrest

/-- When every state that is not final has a step to one of a lower rank, a run can be
continued to a final one. -/
theorem exists_run_to_final (Inv Final : S → Prop) (rank : S → Nat)
    (hkeep : ∀ event s s', Inv s → step event s = some s' → Inv s')
    (hnext : ∀ s, Inv s → ¬ Final s → ∃ event s', step event s = some s' ∧ rank s' < rank s)
    (h : Inv s) : ∃ events s', run step events s = some s' ∧ Final s' := by
  induction hrank : rank s using Nat.strongRecOn generalizing s with
  | ind n ih =>
      by_cases hfinal : Final s
      · exact ⟨[], s, rfl, hfinal⟩
      · obtain ⟨event, next, hstep, hlt⟩ := hnext s h hfinal
        obtain ⟨events, s', hrun, hlast⟩ :=
          ih (rank next) (hrank ▸ hlt) (hkeep event s next h hstep) rfl
        exact ⟨event :: events, s', run_cons_eq_some.mpr ⟨next, hstep, hrun⟩, hlast⟩

/-- A property that is lost exactly by the steps that miss the condition holds at the end
of a run exactly when no step missed it. -/
theorem iff_each (Inv Q : S → Prop)
    (hkeep : ∀ event s s', Inv s → step event s = some s' → Inv s')
    (hstep : ∀ event s s', Inv s → step event s = some s' → (Q s' ↔ Q s ∧ condition event s))
    (h : Inv s) (hrun : run step events s = some s') :
    Q s' ↔ Q s ∧ Each step condition events s := by
  induction events generalizing s with
  | nil =>
      cases hrun
      simp
  | cons event events ih =>
      obtain ⟨next, hnext, hrest⟩ := run_cons_eq_some.mp hrun
      rw [ih (hkeep event s next h hnext) hrest, hstep event s next h hnext,
        each_cons_of_step hnext, and_assoc]

variable {T : Type}

/-- What the steps of a run record, in order. -/
def trace (step : E → S → Option S) (entries : E → S → List T) : List E → S → List T
  | [], _ => []
  | event :: events, s =>
      match step event s with
      | some next => entries event s ++ trace step entries events next
      | none => []

variable {entries : E → S → List T}

theorem trace_cons_of_step {event : E} (hstep : step event s = some s') :
    trace step entries (event :: events) s = entries event s ++ trace step entries events s' := by
  rw [trace, hstep]

theorem trace_append (hrun : run step events s = some s') :
    trace step entries (events ++ more) s =
      trace step entries events s ++ trace step entries more s' := by
  induction events generalizing s with
  | nil =>
      cases hrun
      rfl
  | cons event events ih =>
      obtain ⟨next, hstep, hrest⟩ := run_cons_eq_some.mp hrun
      rw [List.cons_append, trace_cons_of_step hstep, trace_cons_of_step hstep, ih hrest,
        List.append_assoc]

/-- The rule for what is recorded, with the state that it belongs to. -/
theorem trace_invariant (Inv : List T → S → Prop)
    (hkeep : ∀ history event s s', Inv history s → step event s = some s' →
      Inv (history ++ entries event s) s')
    {history : List T} (h : Inv history s) (hrun : run step events s = some s') :
    Inv (history ++ trace step entries events s) s' := by
  induction events generalizing s history with
  | nil =>
      cases hrun
      rw [trace, List.append_nil]
      exact h
  | cons event events ih =>
      obtain ⟨next, hstep, hrest⟩ := run_cons_eq_some.mp hrun
      rw [trace_cons_of_step hstep, ← List.append_assoc]
      exact ih (hkeep history event s next h hstep) hrest

end Machine
end Aa2acp
