import Mathlib.Data.List.TakeWhile

/-!
# Histories

A history is a list of events, oldest first, that only grows at its end.  This
file states what such a list says about the past (`lastOf`, `upTo`), what can be
required at each of its points (`AtEach`), and how each of these changes when
events are added.
-/

namespace Aa2acp
namespace History

variable {α β : Type}

/-- The value that the latest event with one has. -/
def lastOf (value : α → Option β) (history : List α) : Option β :=
  history.reverse.findSome? value

@[simp] theorem lastOf_nil (value : α → Option β) : lastOf value [] = none := rfl

theorem lastOf_append (value : α → Option β) (history more : List α) :
    lastOf value (history ++ more) = (lastOf value more).or (lastOf value history) := by
  unfold lastOf
  rw [List.reverse_append, List.findSome?_append]

@[simp] theorem lastOf_singleton (value : α → Option β) (event : α) :
    lastOf value [event] = value event := by
  cases h : value event <;> simp [lastOf, h]

theorem lastOf_append_singleton (value : α → Option β) (history : List α) (event : α) :
    lastOf value (history ++ [event]) = (value event).or (lastOf value history) := by
  rw [lastOf_append, lastOf_singleton]

/-- Events without a value do not change the latest one. -/
theorem lastOf_append_of_none {value : α → Option β} {history more : List α}
    (h : ∀ event ∈ more, value event = none) :
    lastOf value (history ++ more) = lastOf value history := by
  have hnone : lastOf value more = none := by
    unfold lastOf
    rw [List.findSome?_eq_none_iff]
    intro event hevent
    exact h event (List.mem_reverse.mp hevent)
  rw [lastOf_append, hnone, Option.none_or]

/-- The latest event with a value. -/
theorem exists_of_lastOf {value : α → Option β} {history : List α} {last : β}
    (h : lastOf value history = some last) :
    ∃ before event after, history = before ++ event :: after ∧ value event = some last ∧
      ∀ later ∈ after, value later = none := by
  obtain ⟨after, event, before, hsplit, hvalue, hafter⟩ := List.findSome?_eq_some_iff.mp h
  refine ⟨before.reverse, event, after.reverse, ?_, hvalue, ?_⟩
  · rw [← List.reverse_inj, hsplit]
    simp
  · intro later hlater
    exact hafter later (List.mem_reverse.mp hlater)

/-- The history before the first event that satisfies `stop`. -/
def upTo (stop : α → Bool) (history : List α) : List α :=
  history.takeWhile fun event => !stop event

/-- Once the history was stopped, later events do not count. -/
theorem upTo_append_of_stopped {stop : α → Bool} {history : List α}
    (h : ∃ event ∈ history, stop event = true) (more : List α) :
    upTo stop (history ++ more) = upTo stop history := by
  unfold upTo
  rw [List.takeWhile_append]
  obtain ⟨event, hevent, hstop⟩ := h
  rw [if_neg]
  intro hlength
  have hall : history.takeWhile (fun event => !stop event) = history :=
    (List.takeWhile_sublist _).eq_of_length hlength
  have hevent' := hevent
  rw [← hall] at hevent'
  have hgoes := List.mem_takeWhile_imp hevent'
  rw [hstop] at hgoes
  cases hgoes

/-- A history that was not stopped is all of it. -/
theorem upTo_of_not_stopped {stop : α → Bool} {history : List α}
    (h : ∀ event ∈ history, stop event = false) : upTo stop history = history := by
  unfold upTo
  rw [List.takeWhile_eq_self_iff]
  intro event hevent
  rw [h event hevent]
  rfl

/-- A point of a longer history lies in the old part or in the new one. -/
theorem split_append {history added before after : List α} {event : α}
    (h : history ++ added = before ++ event :: after) :
    (∃ rest, history = before ++ event :: rest ∧ after = rest ++ added) ∨
      ∃ start, before = history ++ start ∧ added = start ++ event :: after := by
  rcases List.append_eq_append_iff.mp h with ⟨start, rfl, hadded⟩ | ⟨rest, hhistory, hadded⟩
  · exact Or.inr ⟨start, rfl, hadded⟩
  · cases rest with
    | nil =>
        right
        refine ⟨[], ?_, by simpa using hadded.symm⟩
        rw [hhistory]
        simp
    | cons first rest =>
        rw [List.cons_append, List.cons.injEq] at hadded
        obtain ⟨rfl, hadded⟩ := hadded
        exact Or.inl ⟨rest, hhistory, hadded⟩

/-- `require` holds of what lies before, at and after each point. -/
def AtEach (require : List α → α → List α → Prop) (history : List α) : Prop :=
  ∀ before event after, history = before ++ event :: after → require before event after

@[simp] theorem atEach_nil (require : List α → α → List α → Prop) : AtEach require [] := by
  intro before event after h
  simp at h

/-- A requirement that later events cannot break has to be checked at the new
events only. -/
theorem AtEach.append {require : List α → α → List α → Prop} {history added : List α}
    (h : AtEach require history)
    (hkeep : ∀ before event after, history = before ++ event :: after →
      require before event after → require before event (after ++ added))
    (hadded : ∀ start event after, added = start ++ event :: after →
      require (history ++ start) event after) :
    AtEach require (history ++ added) := by
  intro before event after hsplit
  rcases split_append hsplit with ⟨rest, hold, rfl⟩ | ⟨start, rfl, hnew⟩
  · exact hkeep before event rest hold (h before event rest hold)
  · exact hadded start event after hnew

/-- The case of one new event. -/
theorem AtEach.append_singleton {require : List α → α → List α → Prop} {history : List α}
    {last : α} (h : AtEach require history)
    (hkeep : ∀ before event after, history = before ++ event :: after →
      require before event after → require before event (after ++ [last]))
    (hlast : require history last []) : AtEach require (history ++ [last]) := by
  refine h.append hkeep ?_
  intro start event after hsplit
  rcases List.append_eq_singleton_iff.mp hsplit.symm with ⟨rfl, hrest⟩ | ⟨_, hrest⟩
  · cases hrest
    simpa using hlast
  · cases hrest

/-- The case of two new events. -/
theorem AtEach.append_pair {require : List α → α → List α → Prop} {history : List α}
    {first second : α} (h : AtEach require history)
    (hkeep : ∀ before event after, history = before ++ event :: after →
      require before event after → require before event (after ++ [first, second]))
    (hfirst : require history first [second]) (hsecond : require (history ++ [first]) second []) :
    AtEach require (history ++ [first, second]) := by
  apply h.append hkeep
  intro start event after hsplit
  cases start with
  | nil =>
      cases hsplit
      rw [List.append_nil]
      exact hfirst
  | cons other start =>
      obtain ⟨rfl, hrest⟩ := List.cons.inj hsplit
      rcases List.append_eq_singleton_iff.mp hrest.symm with ⟨rfl, hlast⟩ | ⟨_, hlast⟩
      · cases hlast
        exact hsecond
      · cases hlast

end History
end Aa2acp
