import Aa2acp.Lib.History

/-!
# Queues whose items leave at the front

Items arrive at the end of a queue and leave at its front, one or several at a time, each
time for a reason.  The history says when and why, and `Tracks` that the queue is what has
arrived and not left, in order, and that every reason was permitted.
-/

namespace Aa2acp
namespace Fifo

open History

variable {α ρ : Type}

inductive Entry (α ρ : Type) where
  | arrived (item : α)
  | left (items : List α) (reason : ρ)
deriving DecidableEq, Repr

namespace Entry

def arrived? : Entry α ρ → Option α
  | .arrived item => some item
  | .left _ _ => none

def gone : Entry α ρ → List α
  | .arrived _ => []
  | .left items _ => items

def goneFor [DecidableEq ρ] (reason : ρ) : Entry α ρ → List α
  | .arrived _ => []
  | .left items reason' => if reason' = reason then items else []

end Entry

/-- What has arrived. -/
def arrivals (history : List (Entry α ρ)) : List α := history.filterMap Entry.arrived?

/-- What has left. -/
def departures (history : List (Entry α ρ)) : List α := history.flatMap Entry.gone

/-- What has left for one reason. -/
def departuresFor [DecidableEq ρ] (reason : ρ) (history : List (Entry α ρ)) : List α :=
  history.flatMap (Entry.goneFor reason)

/-- What leaves is the front of the queue, and the reason permits it. -/
def Allowed (Permits : ρ → List α → List α → Prop) (before : List (Entry α ρ)) :
    Entry α ρ → Prop
  | .arrived _ => True
  | .left items reason =>
      ∃ later, arrivals before = departures before ++ (items ++ later) ∧
        Permits reason items later

/-- Every entry of a history was allowed by those before it. -/
def Lawful (Permits : ρ → List α → List α → Prop) : List (Entry α ρ) → Prop :=
  AtEach fun before entry _ => Allowed Permits before entry

/-- The queue after a history. -/
structure Tracks (Permits : ρ → List α → List α → Prop) (history : List (Entry α ρ))
    (queue : List α) : Prop where
  lawful : Lawful Permits history
  split : arrivals history = departures history ++ queue

@[simp] theorem arrivals_append (history more : List (Entry α ρ)) :
    arrivals (history ++ more) = arrivals history ++ arrivals more := List.filterMap_append

@[simp] theorem departures_append (history more : List (Entry α ρ)) :
    departures (history ++ more) = departures history ++ departures more := List.flatMap_append

@[simp] theorem departuresFor_append [DecidableEq ρ] (reason : ρ)
    (history more : List (Entry α ρ)) :
    departuresFor reason (history ++ more) =
      departuresFor reason history ++ departuresFor reason more := List.flatMap_append

section

variable {Permits : ρ → List α → List α → Prop} {history : List (Entry α ρ)} {queue : List α}

theorem tracks_nil : Tracks Permits ([] : List (Entry α ρ)) [] := ⟨atEach_nil _, rfl⟩

theorem Lawful.concat (h : Lawful Permits history) {entry : Entry α ρ}
    (hentry : Allowed Permits history entry) : Lawful Permits (history ++ [entry]) :=
  AtEach.append_singleton h (fun _ _ _ _ hallowed => hallowed) hentry

theorem Tracks.arrived (h : Tracks Permits history queue) (item : α) :
    Tracks Permits (history ++ [.arrived item]) (queue ++ [item]) where
  lawful := h.lawful.concat trivial
  split := by
    rw [arrivals_append, departures_append, h.split]
    simp [arrivals, departures, Entry.arrived?, Entry.gone]

theorem Tracks.left {items later : List α} (h : Tracks Permits history (items ++ later))
    {reason : ρ} (hpermits : Permits reason items later) :
    Tracks Permits (history ++ [.left items reason]) later where
  lawful := h.lawful.concat ⟨later, h.split, hpermits⟩
  split := by
    rw [arrivals_append, departures_append, h.split]
    simp [arrivals, departures, Entry.arrived?, Entry.gone]

theorem departuresFor_sublist [DecidableEq ρ] (reason : ρ) (history : List (Entry α ρ)) :
    (departuresFor reason history).Sublist (departures history) := by
  induction history with
  | nil => exact List.Sublist.refl _
  | cons entry history ih =>
    have hentry : (Entry.goneFor reason entry).Sublist entry.gone := by
      cases entry with
      | arrived item => exact List.Sublist.refl _
      | left items reason' =>
        simp only [Entry.goneFor]
        split
        · exact List.Sublist.refl _
        · exact List.nil_sublist _
    exact hentry.append ih

/-- What left for one reason is part of what arrived, in order. -/
theorem Tracks.departuresFor_sublist [DecidableEq ρ] (h : Tracks Permits history queue)
    (reason : ρ) : (departuresFor reason history).Sublist (arrivals history) := by
  rw [h.split]
  exact (Fifo.departuresFor_sublist reason history).trans (List.sublist_append_left _ _)

end

end Fifo
end Aa2acp
