import Mathlib.Logic.Basic

/-!
# Interactive computations

A computation that asks its environment questions of type `Q`, receives answers
of type `A` and finally returns an `α`.  It is a tree, so one and the same
computation can be run against a concrete responder with a state of its own
(`run`) or be studied for every possible sequence of answers (`Outcome`).
`outcome_run` connects the two: what a concrete responder produces is one of the
possible outcomes, hence a property of all outcomes holds under any responder.
-/

namespace Aa2acp

/-- A computation asking questions `Q`, given answers `A`, returning an `α`. -/
inductive Interaction (Q A α : Type) where
  | done (value : α)
  | ask (question : Q) (next : A → Interaction Q A α)

namespace Interaction

variable {Q A S α β : Type}

/-- Continue a computation with another one. -/
def bind : Interaction Q A α → (α → Interaction Q A β) → Interaction Q A β
  | done value, f => f value
  | ask question next, f => ask question fun answer => (next answer).bind f

instance : Monad (Interaction Q A) where
  pure := done
  bind := bind

/-- Run a computation against a responder whose state is `S`. -/
def run (respond : Q → S → A × S) : Interaction Q A α → S → α × S
  | done value, s => (value, s)
  | ask question next, s =>
      (next (respond question s).1).run respond (respond question s).2

@[simp] theorem run_done (respond : Q → S → A × S) (value : α) (s : S) :
    (done value : Interaction Q A α).run respond s = (value, s) := rfl

@[simp] theorem run_ask (respond : Q → S → A × S) (question : Q)
    (next : A → Interaction Q A α) (s : S) :
    (ask question next).run respond s =
      (next (respond question s).1).run respond (respond question s).2 := rfl

@[simp] theorem run_bind (respond : Q → S → A × S) (computation : Interaction Q A α)
    (f : α → Interaction Q A β) (s : S) :
    (computation.bind f).run respond s =
      (f (computation.run respond s).1).run respond (computation.run respond s).2 := by
  induction computation generalizing s with
  | done value => rfl
  | ask question next ih => exact ih _ _

/-- What every answer of the responder preserves, a whole run preserves. -/
theorem run_invariant {respond : Q → S → A × S} {inv : S → Prop}
    (hstep : ∀ question s, inv s → inv (respond question s).2)
    (computation : Interaction Q A α) {s : S} (hs : inv s) :
    inv (computation.run respond s).2 := by
  induction computation generalizing s with
  | done value => exact hs
  | ask question next ih => exact ih _ (hstep question s hs)

/-- Two responders that answer alike on related states produce the same value
and end in related states. -/
theorem run_related {T : Type} {respond : Q → S → A × S} {respond' : Q → T → A × T}
    {rel : S → T → Prop}
    (hstep : ∀ question s t, rel s t →
      (respond question s).1 = (respond' question t).1 ∧
        rel (respond question s).2 (respond' question t).2)
    (computation : Interaction Q A α) {s : S} {t : T} (h : rel s t) :
    (computation.run respond s).1 = (computation.run respond' t).1 ∧
      rel (computation.run respond s).2 (computation.run respond' t).2 := by
  induction computation generalizing s t with
  | done value => exact ⟨rfl, h⟩
  | ask question next ih =>
      obtain ⟨hanswer, hrel⟩ := hstep question s t h
      simp only [run_ask, hanswer]
      exact ih _ hrel

/-- The values a computation can return when the answers are arbitrary. -/
inductive Outcome : Interaction Q A α → α → Prop
  | done (value : α) : Outcome (done value) value
  | ask (question : Q) (next : A → Interaction Q A α) (answer : A) (value : α)
      (h : Outcome (next answer) value) : Outcome (ask question next) value

@[simp] theorem outcome_done_iff {value result : α} :
    Outcome (done value : Interaction Q A α) result ↔ result = value := by
  constructor
  · intro h
    cases h
    rfl
  · rintro rfl
    exact .done _

@[simp] theorem outcome_ask_iff {question : Q} {next : A → Interaction Q A α} {result : α} :
    Outcome (ask question next) result ↔ ∃ answer, Outcome (next answer) result := by
  constructor
  · intro h
    cases h with
    | ask _ _ answer _ h => exact ⟨answer, h⟩
  · rintro ⟨answer, h⟩
    exact .ask _ _ answer _ h

@[simp] theorem outcome_bind_iff {computation : Interaction Q A α}
    {f : α → Interaction Q A β} {result : β} :
    Outcome (computation.bind f) result ↔
      ∃ value, Outcome computation value ∧ Outcome (f value) result := by
  induction computation with
  | done value => simp [bind]
  | ask question next ih =>
      simp only [bind, outcome_ask_iff, ih]
      constructor
      · rintro ⟨answer, value, h, hf⟩
        exact ⟨value, ⟨answer, h⟩, hf⟩
      · rintro ⟨value, ⟨answer, h⟩, hf⟩
        exact ⟨answer, value, h, hf⟩

/-- A run against a concrete responder is one of the possible outcomes. -/
theorem outcome_run (respond : Q → S → A × S) (computation : Interaction Q A α) (s : S) :
    Outcome computation (computation.run respond s).1 := by
  induction computation generalizing s with
  | done value => exact .done value
  | ask question next ih => exact .ask _ _ _ _ (ih _ _)

end Interaction
end Aa2acp
