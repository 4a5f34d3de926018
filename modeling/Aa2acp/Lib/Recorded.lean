import Mathlib.Data.List.Basic

/-!
# Computations with a history

A computation that records events and may end early, and a logic for what it records.
`Safe allowed history` says that every event of the history was allowed by the events
before it.  `Safely allowed c post history` says of a computation that, started in a safe
history, it leaves a safe one that extends it, and that `post` holds if it did not end
early.  There is one rule for each way to build a computation.
-/

namespace Aa2acp

/-- A computation on the history of the events so far; no value when it ended early. -/
def Recorded (E α : Type) : Type := List E → Option α × List E

namespace Recorded

variable {E α β : Type}

/-- Continue with another computation, unless this one ended early. -/
def bind (c : Recorded E α) (f : α → Recorded E β) : Recorded E β := fun history =>
  match c history with
  | (none, history) => (none, history)
  | (some value, history) => f value history

instance : Monad (Recorded E) where
  pure value := fun history => (some value, history)
  bind := bind

/-- Append an event. -/
def record (event : E) : Recorded E Unit := fun history => (some (), history ++ [event])

/-- A value that may depend on everything that happened. -/
def ask (f : List E → α) : Recorded E α := fun history => (some (f history), history)

/-- End early. -/
def fail : Recorded E α := fun history => (none, history)

def require (condition : Prop) [Decidable condition] : Recorded E Unit :=
  if condition then pure () else fail

def ofOption : Option α → Recorded E α
  | none => fail
  | some value => pure value

/-- Every event was allowed when it happened. -/
def Safe (allowed : List E → E → Prop) (history : List E) : Prop :=
  ∀ before event after, history = before ++ event :: after → allowed before event

theorem safe_nil {allowed : List E → E → Prop} : Safe allowed [] := by
  intro before event after h
  cases before <;> cases h

theorem safe_concat {allowed : List E → E → Prop} {history : List E} {event : E}
    (h : Safe allowed history) (hevent : allowed history event) :
    Safe allowed (history ++ [event]) := by
  intro before other after hsplit
  -- the last event, or one of those before it
  rcases List.eq_nil_or_concat after with rfl | ⟨rest, last, rfl⟩
  · obtain ⟨rfl, hlast⟩ := List.append_inj' hsplit rfl
    cases hlast
    exact hevent
  · rw [List.concat_eq_append, ← List.cons_append, ← List.append_assoc] at hsplit
    obtain ⟨hhistory, -⟩ := List.append_inj' hsplit rfl
    exact h before other rest hhistory

variable {allowed : List E → E → Prop} {history : List E}

/-- The event at an index was allowed by the events before it. -/
theorem Safe.allowed_of_getElem? (h : Safe allowed history) {index : ℕ} {event : E}
    (hevent : history[index]? = some event) : allowed (history.take index) event := by
  obtain ⟨hlt, rfl⟩ := List.getElem?_eq_some_iff.mp hevent
  apply h (history.take index) _ (history.drop (index + 1))
  rw [← List.drop_eq_getElem_cons hlt, List.take_append_drop]

/-- Started in a safe history, the computation leaves a longer safe one, and a value for
which `post` holds, if any. -/
def Safely (allowed : List E → E → Prop) (c : Recorded E α) (post : α → List E → Prop)
    (history : List E) : Prop :=
  Safe allowed history →
    history <+: (c history).2 ∧ Safe allowed (c history).2 ∧
      ∀ value, (c history).1 = some value → post value (c history).2

theorem Safely.pure {value : α} {post : α → List E → Prop} (h : post value history) :
    Safely allowed (pure value) post history := by
  intro hsafe
  refine ⟨List.prefix_rfl, hsafe, ?_⟩
  intro other heq
  cases heq
  exact h

theorem Safely.bind {c : Recorded E α} {f : α → Recorded E β} {post : β → List E → Prop}
    {middle : α → List E → Prop} (hc : Safely allowed c middle history)
    (hf : ∀ value later, history <+: later → middle value later → Safely allowed (f value) post later) :
    Safely allowed (c >>= f) post history := by
  intro hsafe
  obtain ⟨hextends, hmiddle, hvalue⟩ := hc hsafe
  show history <+: (Recorded.bind c f history).2 ∧ Safe allowed (Recorded.bind c f history).2 ∧
    ∀ value, (Recorded.bind c f history).1 = some value → post value (Recorded.bind c f history).2
  unfold Recorded.bind
  cases hrun : c history with
  | mk result later =>
      rw [hrun] at hextends hmiddle hvalue
      cases result with
      | none =>
          refine ⟨hextends, hmiddle, ?_⟩
          intro value heq
          cases heq
      | some value =>
          obtain ⟨hlonger, hlast, hpost⟩ := hf value later hextends (hvalue value rfl) hmiddle
          -- the second part goes on where the first one ended
          exact ⟨hextends.trans hlonger, hlast, hpost⟩

theorem Safely.record {event : E} {f : Unit → Recorded E β} {post : β → List E → Prop}
    (hevent : allowed history event) (hf : Safely allowed (f ()) post (history ++ [event])) :
    Safely allowed (Recorded.record event >>= f) post history := by
  intro hsafe
  obtain ⟨hextends, hlast, hpost⟩ := hf (safe_concat hsafe hevent)
  exact ⟨(List.prefix_append history [event]).trans hextends, hlast, hpost⟩

theorem Safely.ask {answer : List E → α} {f : α → Recorded E β} {post : β → List E → Prop}
    (hf : ∀ value, Safely allowed (f value) post history) :
    Safely allowed (Recorded.ask answer >>= f) post history := hf (answer history)

theorem Safely.fail {post : α → List E → Prop} : Safely allowed fail post history := by
  intro hsafe
  refine ⟨List.prefix_rfl, hsafe, ?_⟩
  intro value heq
  cases heq

/-- A condition at the end of a computation. -/
theorem Safely.required {condition : Prop} [Decidable condition] {post : Unit → List E → Prop}
    (h : condition → post () history) :
    Safely allowed (Recorded.require condition) post history := by
  unfold Recorded.require
  split
  · rename_i hcondition
    exact Safely.pure (h hcondition)
  · exact Safely.fail

theorem Safely.require {condition : Prop} [Decidable condition] {f : Unit → Recorded E β}
    {post : β → List E → Prop} (hf : condition → Safely allowed (f ()) post history) :
    Safely allowed (Recorded.require condition >>= f) post history := by
  by_cases hcondition : condition
  · have hrequire : (Recorded.require condition : Recorded E Unit) = Pure.pure () := if_pos hcondition
    rw [hrequire]
    exact hf hcondition
  · have hrequire : (Recorded.require condition : Recorded E Unit) = Recorded.fail := if_neg hcondition
    rw [hrequire]
    exact Safely.fail

theorem Safely.ofOption {value : Option α} {f : α → Recorded E β} {post : β → List E → Prop}
    (hf : ∀ inner, value = some inner → Safely allowed (f inner) post history) :
    Safely allowed (Recorded.ofOption value >>= f) post history := by
  cases value with
  | none => exact Safely.fail
  | some inner => exact hf inner rfl

end Recorded
end Aa2acp
