import Aa2acp.Lib.History

/-!
# Queues that drop their oldest items

A queue takes items at its end and gives them out at its front.  An item for which it is
too full pushes out the oldest ones.  The history says what became of every item, and
`Tracks` that the queue is what has arrived and is not gone, in order, and that nothing was
dropped without need.
-/

namespace Aa2acp
namespace DropOldest

open History

variable {α : Type}

inductive Entry (α : Type) where
  /-- An item makes room for another one. -/
  | dropped (item incoming : α)
  | pushed (item : α)
  | popped (item : α)
deriving DecidableEq, Repr

namespace Entry

def pushed? : Entry α → Option α
  | .pushed item => some item
  | .dropped _ _ | .popped _ => none

def popped? : Entry α → Option α
  | .popped item => some item
  | .dropped _ _ | .pushed _ => none

def gone? : Entry α → Option α
  | .dropped item _ | .popped item => some item
  | .pushed _ => none

end Entry

/-- What was put into the queue. -/
def arrived (history : List (Entry α)) : List α := history.filterMap Entry.pushed?

/-- What was given out. -/
def popped (history : List (Entry α)) : List α := history.filterMap Entry.popped?

/-- What was given out or dropped. -/
def gone (history : List (Entry α)) : List α := history.filterMap Entry.gone?

@[simp] theorem arrived_append (history more : List (Entry α)) :
    arrived (history ++ more) = arrived history ++ arrived more := List.filterMap_append

@[simp] theorem gone_append (history more : List (Entry α)) :
    gone (history ++ more) = gone history ++ gone more := List.filterMap_append

@[simp] theorem arrived_pushed (item : α) : arrived [Entry.pushed item] = [item] := rfl

@[simp] theorem arrived_popped (item : α) : arrived [Entry.popped item] = [] := rfl

@[simp] theorem arrived_dropped (item incoming : α) :
    arrived [Entry.dropped item incoming] = [] := rfl

@[simp] theorem gone_pushed (item : α) : gone [Entry.pushed item] = [] := rfl

@[simp] theorem gone_popped (item : α) : gone [Entry.popped item] = [item] := rfl

@[simp] theorem gone_dropped (item incoming : α) :
    gone [Entry.dropped item incoming] = [item] := rfl

/-- What may leave the queue: the item of which all older ones are gone, and to make room
for another one only when the queue is too full for it. -/
def Allowed (Full : List α → α → Prop) (before : List (Entry α)) : Entry α → Prop
  | .pushed _ => True
  | .popped item => ∃ later, arrived before = gone before ++ item :: later
  | .dropped item incoming =>
      ∃ later, arrived before = gone before ++ item :: later ∧ Full (item :: later) incoming

/-- Every entry of a history was allowed by those before it. -/
def Lawful (Full : List α → α → Prop) : List (Entry α) → Prop :=
  AtEach fun before entry _ => Allowed Full before entry

/-- The queue after a history. -/
structure Tracks (Full : List α → α → Prop) (history : List (Entry α)) (queue : List α) : Prop where
  lawful : Lawful Full history
  split : arrived history = gone history ++ queue

variable {Full : List α → α → Prop} {history : List (Entry α)} {queue : List α} {item : α}

theorem tracks_nil : Tracks Full ([] : List (Entry α)) [] :=
  ⟨atEach_nil _, rfl⟩

theorem Lawful.concat (h : Lawful Full history) {entry : Entry α}
    (hentry : Allowed Full history entry) : Lawful Full (history ++ [entry]) :=
  AtEach.append_singleton h (fun _ _ _ _ hallowed => hallowed) hentry

theorem Tracks.pushed (h : Tracks Full history queue) (item : α) :
    Tracks Full (history ++ [.pushed item]) (queue ++ [item]) where
  lawful := h.lawful.concat trivial
  split := by
    rw [arrived_append, gone_append, h.split, arrived_pushed, gone_pushed, List.append_nil,
      List.append_assoc]

theorem Tracks.popped (h : Tracks Full history (item :: queue)) :
    Tracks Full (history ++ [.popped item]) queue where
  lawful := h.lawful.concat ⟨queue, h.split⟩
  split := by
    rw [arrived_append, gone_append, h.split, arrived_popped, gone_popped, List.append_nil,
      List.append_assoc, List.singleton_append]

theorem Tracks.dropped (h : Tracks Full history (item :: queue)) {incoming : α}
    (hfull : Full (item :: queue) incoming) :
    Tracks Full (history ++ [.dropped item incoming]) queue where
  lawful := h.lawful.concat ⟨queue, h.split, hfull⟩
  split := by
    rw [arrived_append, gone_append, h.split, arrived_dropped, gone_dropped, List.append_nil,
      List.append_assoc, List.singleton_append]

theorem popped_sublist_gone (history : List (Entry α)) : (popped history).Sublist (gone history) := by
  induction history with
  | nil => exact List.Sublist.refl _
  | cons entry history ih =>
      cases entry with
      | dropped item incoming => exact ih.cons item
      | pushed item => exact ih
      | popped item => exact ih.cons_cons item

/-- What was given out is part of what has arrived, in order. -/
theorem Tracks.popped_sublist (h : Tracks Full history queue) :
    (DropOldest.popped history).Sublist (arrived history) := by
  rw [h.split]
  exact (popped_sublist_gone history).trans (List.sublist_append_left _ _)

end DropOldest
end Aa2acp
