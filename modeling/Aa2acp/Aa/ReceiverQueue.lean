import Aa2acp.Lib.FifoHistory
import Aa2acp.Lib.Machine

/-!
# The queues of the receiver

`WiredReceiver::Impl` (`src/aa/wired_receiver.cpp`) takes input reports and microphone packets
from other threads.  Both queues are the same: `send_input_report` and `send_microphone_audio`
put an item into a bounded queue and post a drain unless one is owed, and a drain hands one item
to the control session of the moment.  The drains run in one thread; `stop` clears the queue,
and drains that are left over run after the next start.

Items wait only while a drain is owed, queued or running, and they are handed over in the order
in which they came (`receiver_queue_of_run`).
-/

namespace Aa2acp
namespace Aa

open Fifo

def kMaximumInputReports : ℕ := 32
def kMaximumMicrophonePackets : ℕ := 2

namespace ReceiverQueue

/-- Why an item left the queue. -/
inductive Departure where
  | taken
  | displaced
  /-- `stop`. -/
  | cleared
deriving DecidableEq, Repr

/-- An item that is displaced is the oldest of a full queue. -/
def Departure.Permits {α : Type} (limit : ℕ) (reason : Departure) (items later : List α) : Prop :=
  match reason with
  | .taken => items.length = 1
  | .displaced => items.length = 1 ∧ limit ≤ (items ++ later).length
  | .cleared => later = []

/-- Where the drain is that runs. -/
inductive Drain (α : Type) where
  | begun
  | took (item : α)
  | sent
  /-- It is about to post another one. -/
  | posting
deriving DecidableEq, Repr

def Drain.inHand {α : Type} : Drain α → List α
  | .took item => [item]
  | .begun | .sent | .posting => []

/-- The last two fields are histories: of the queue, and of what was handed over to which
control session (`none` when there was none). -/
structure State (α : Type) where
  running : Bool := false
  stopping : Bool := false
  items : List α := []
  /-- `input_drain_posted_` or `microphone_drain_posted_`. -/
  posted : Bool := false
  /-- Callers that are about to post. -/
  posting : ℕ := 0
  /-- How many drains the `io_service` has queued. -/
  queued : ℕ := 0
  drain : Option (Drain α) := none
  /-- `control_session_`. -/
  session : Option ℕ := none
  history : List (Entry α Departure) := []
  handed : List (Option ℕ × α) := []
deriving DecidableEq, Repr

inductive Event (α : Type) where
  | start
  /-- The critical section of `send_input_report` or `send_microphone_audio`. -/
  | send (item : α)
  | post
  /-- The `io_service` runs a drain that is queued. -/
  | begin
  /-- The drain gets on. -/
  | advance
  /-- `control_session_` is set or reset. -/
  | connect (session : Option ℕ)
  /-- The first critical section of `stop`. -/
  | stop
  /-- `stop` after the threads have ended. -/
  | halt
deriving DecidableEq, Repr

variable {α : Type}

namespace State

/-- What `send` does to the queue. -/
def enqueue (limit : ℕ) (item : α) (s : State α) : State α :=
  { s with
    items := (if limit ≤ s.items.length then s.items.drop 1 else s.items) ++ [item]
    history := s.history ++
      (if limit ≤ s.items.length then [.left (s.items.take 1) .displaced] else []) ++ [.arrived item]
    posted := true
    posting := if s.posted then s.posting else s.posting + 1 }

/-- The next section of the drain. -/
def advance (s : State α) : Drain α → State α
  | .begun =>
      match s.items with
      | [] => { s with posted := false, drain := none }
      | item :: items =>
          { s with
            items
            history := s.history ++ [.left [item] .taken]
            drain := some (.took item) }
  | .took item => { s with handed := s.handed ++ [(s.session, item)], drain := some .sent }
  | .sent =>
      match s.items with
      | [] => { s with posted := false, drain := none }
      | _ :: _ => { s with drain := some .posting }
  | .posting => { s with queued := s.queued + 1, drain := none }

end State

def step (limit : ℕ) : Event α → State α → Option (State α)
  | .start, s =>
      if s.running then none else some { s with running := true, stopping := false }
  | .send item, s =>
      if s.running ∧ ¬ s.stopping then some (s.enqueue limit item) else some s
  | .post, s =>
      if s.posting = 0 then none
      else some { s with posting := s.posting - 1, queued := s.queued + 1 }
  | .begin, s =>
      if s.queued ≠ 0 ∧ s.drain = none ∧ s.running ∧ ¬ s.stopping then
        some { s with queued := s.queued - 1, drain := some .begun }
      else none
  | .advance, s => s.drain.map s.advance
  | .connect session, s => some { s with session }
  | .stop, s =>
      if s.running ∧ ¬ s.stopping then
        some { s with
          stopping := true
          items := []
          history := s.history ++ [.left s.items .cleared]
          posted := false }
      else none
  | .halt, s =>
      if s.stopping ∧ s.drain = none then some { s with running := false, session := none } else none

def run (limit : ℕ) : List (Event α) → State α → Option (State α) := Machine.run (step limit)

/-! ## Every run -/

/-- Drains that will look at the queue. -/
def State.Owed (s : State α) : Prop := 0 < s.posting ∨ 0 < s.queued ∨ s.drain.isSome

structure Sound (limit : ℕ) (s : State α) : Prop where
  woken : s.items ≠ [] → s.posted = true
  owed : s.posted = true → s.Owed
  tracks : Tracks (Departure.Permits limit) s.history s.items
  taken : departuresFor .taken s.history = s.handed.map Prod.snd ++ (s.drain.toList.flatMap Drain.inHand)
  bounded : s.items.length ≤ limit

variable {limit : ℕ} {s s' : State α} {event : Event α}

theorem sound_start : Sound limit ({} : State α) where
  woken h := absurd rfl h
  owed h := by cases h
  tracks := tracks_nil
  taken := rfl
  bounded := Nat.zero_le _

theorem tracks_enqueue (h : Tracks (Departure.Permits limit) s.history s.items) (hlimit : 0 < limit)
    (item : α) :
    Tracks (Departure.Permits limit) (s.enqueue limit item).history (s.enqueue limit item).items := by
  show Tracks _ (s.history ++ (if limit ≤ s.items.length then _ else []) ++ [.arrived item])
    ((if limit ≤ s.items.length then s.items.drop 1 else s.items) ++ [item])
  refine Tracks.arrived ?_ item
  split
  · rename_i hfull
    have hfront : (s.items.take 1).length = 1 := by
      rw [List.length_take]
      omega
    rw [← List.take_append_drop 1 s.items] at h
    exact h.left ⟨hfront, by rwa [List.take_append_drop]⟩
  · rw [List.append_nil]
    exact h

theorem Sound.send (h : Sound limit s) (hlimit : 0 < limit) (item : α) : Sound limit (s.enqueue limit item) where
  woken _ := rfl
  owed _ := by
    unfold State.Owed State.enqueue
    cases hposted : s.posted with
    | false => exact Or.inl (by simp)
    | true => exact h.owed hposted
  tracks := tracks_enqueue h.tracks hlimit item
  taken := by
    have htaken := h.taken
    have hnone : departuresFor (α := α) .taken
        (if limit ≤ s.items.length then [.left (s.items.take 1) Departure.displaced] else []) = [] := by
      split <;> simp [departuresFor, Entry.goneFor]
    show departuresFor .taken (s.history ++ _ ++ [.arrived item]) = _
    rw [departuresFor_append, departuresFor_append, hnone, htaken, List.append_nil]
    simp [departuresFor, Entry.goneFor, State.enqueue]
  bounded := by
    have hbounded := h.bounded
    show ((if limit ≤ s.items.length then s.items.drop 1 else s.items) ++ [item]).length ≤ limit
    rw [List.length_append, List.length_singleton]
    split
    · rw [List.length_drop]
      omega
    · omega

theorem Sound.advance (h : Sound limit s) {drain : Drain α} (hdrain : s.drain = some drain) :
    Sound limit (s.advance drain) := by
  obtain ⟨hwoken, howed, htracks, htaken, hbounded⟩ := h
  rw [hdrain] at htaken
  cases drain with
  | begun =>
      cases hitems : s.items with
      | nil =>
          have hadvance : s.advance .begun = { s with posted := false, drain := none } := by
            simp [State.advance, hitems]
          rw [hadvance]
          exact ⟨fun hne => absurd hitems hne, nofun, htracks, htaken, hbounded⟩
      | cons item items =>
          have hadvance : s.advance .begun =
              { s with
                items
                history := s.history ++ [.left [item] .taken]
                drain := some (.took item) } := by
            simp [State.advance, hitems]
          rw [hitems] at htracks hbounded
          rw [hadvance]
          refine ⟨fun _ => hwoken (by simp [hitems]), fun _ => Or.inr (Or.inr rfl), ?_, ?_, ?_⟩
          · exact Tracks.left (show Tracks _ s.history ([item] ++ items) from htracks) rfl
          · rw [departuresFor_append, htaken]
            simp [departuresFor, Entry.goneFor, Drain.inHand]
          · exact (Nat.le_succ _).trans hbounded
  | took item =>
      refine ⟨hwoken, fun _ => Or.inr (Or.inr rfl), htracks, ?_, hbounded⟩
      show departuresFor .taken s.history = (s.handed ++ [(s.session, item)]).map Prod.snd ++ []
      rw [htaken]
      simp [Drain.inHand]
  | sent =>
      cases hitems : s.items with
      | nil =>
          have hadvance : s.advance .sent = { s with posted := false, drain := none } := by
            simp [State.advance, hitems]
          rw [hadvance]
          exact ⟨fun hne => absurd hitems hne, nofun, htracks, htaken, hbounded⟩
      | cons item items =>
          have hadvance : s.advance .sent = { s with drain := some .posting } := by
            simp [State.advance, hitems]
          rw [hadvance]
          exact ⟨hwoken, fun _ => Or.inr (Or.inr rfl), htracks, htaken, hbounded⟩
  | posting =>
      exact ⟨hwoken, fun _ => Or.inr (Or.inl (Nat.succ_pos _)), htracks, htaken, hbounded⟩

theorem Sound.step (h : Sound limit s) (hlimit : 0 < limit) (hstep : step limit event s = some s') :
    Sound limit s' := by
  obtain ⟨hwoken, howed, htracks, htaken, hbounded⟩ := h
  cases event with
  | start =>
      simp only [ReceiverQueue.step] at hstep
      split at hstep <;> cases hstep
      exact ⟨hwoken, howed, htracks, htaken, hbounded⟩
  | send item =>
      simp only [ReceiverQueue.step] at hstep
      split at hstep <;> cases hstep
      · exact Sound.send ⟨hwoken, howed, htracks, htaken, hbounded⟩ hlimit item
      · exact ⟨hwoken, howed, htracks, htaken, hbounded⟩
  | post =>
      simp only [ReceiverQueue.step] at hstep
      split at hstep <;> cases hstep
      exact ⟨hwoken, fun _ => Or.inr (Or.inl (Nat.succ_pos _)), htracks, htaken, hbounded⟩
  | begin =>
      simp only [ReceiverQueue.step] at hstep
      split at hstep <;> cases hstep
      rename_i hbegin
      rw [hbegin.2.1] at htaken
      exact ⟨hwoken, fun _ => Or.inr (Or.inr rfl), htracks, htaken, hbounded⟩
  | advance =>
      obtain ⟨drain, hdrain, rfl⟩ := Option.map_eq_some_iff.mp hstep
      exact Sound.advance ⟨hwoken, howed, htracks, htaken, hbounded⟩ hdrain
  | connect session =>
      cases hstep
      exact ⟨hwoken, howed, htracks, htaken, hbounded⟩
  | stop =>
      simp only [ReceiverQueue.step] at hstep
      split at hstep <;> cases hstep
      refine ⟨fun hne => absurd rfl hne, nofun, ?_, ?_, Nat.zero_le _⟩
      · rw [← List.append_nil s.items] at htracks
        exact htracks.left rfl
      · show departuresFor .taken (s.history ++ [.left s.items .cleared]) = _
        rw [departuresFor_append, htaken]
        simp [departuresFor, Entry.goneFor]
  | halt =>
      simp only [ReceiverQueue.step] at hstep
      split at hstep <;> cases hstep
      exact ⟨hwoken, howed, htracks, htaken, hbounded⟩

theorem sound_of_run {events : List (Event α)} (hlimit : 0 < limit) (hrun : run limit events {} = some s) :
    Sound limit s :=
  Machine.run_invariant (Sound limit) (fun _ _ _ hsound hstep => hsound.step hlimit hstep) sound_start hrun

/-- What the callers of `send_input_report` or `send_microphone_audio` pass. -/
def sends (events : List (Event α)) : List α :=
  events.filterMap fun event =>
    match event with
    | .send item => some item
    | _ => none

/-- Only what is passed by a caller arrives. -/
theorem arrivals_step (hstep : step limit event s = some s') :
    arrivals s'.history = arrivals s.history ∨
      ∃ item, event = .send item ∧ arrivals s'.history = arrivals s.history ++ [item] := by
  cases event with
  | send item =>
      simp only [ReceiverQueue.step] at hstep
      split at hstep <;> cases hstep
      · have hnone : arrivals (if limit ≤ s.items.length then
            [.left (s.items.take 1) Departure.displaced] else []) = ([] : List α) := by
          split <;> rfl
        refine Or.inr ⟨item, rfl, ?_⟩
        show arrivals (s.history ++ _ ++ [.arrived item]) = _
        rw [arrivals_append, arrivals_append, hnone, List.append_nil]
        rfl
      · exact Or.inl rfl
  | advance =>
      obtain ⟨drain, hdrain, rfl⟩ := Option.map_eq_some_iff.mp hstep
      left
      cases drain with
      | begun =>
          cases hitems : s.items with
          | nil => simp [State.advance, hitems]
          | cons item items =>
              simp only [State.advance, hitems, arrivals_append]
              exact List.append_nil _
      | took item => rfl
      | sent => cases hitems : s.items <;> simp [State.advance, hitems]
      | posting => rfl
  | stop =>
      simp only [ReceiverQueue.step] at hstep
      split at hstep <;> cases hstep
      left
      show arrivals (s.history ++ [.left s.items .cleared]) = _
      rw [arrivals_append]
      exact List.append_nil _
  | start | post | begin | halt =>
      simp only [ReceiverQueue.step] at hstep
      split at hstep <;> cases hstep
      exact Or.inl rfl
  | connect session =>
      cases hstep
      exact Or.inl rfl

theorem arrivals_sublist_sends {events : List (Event α)} (hrun : run limit events {} = some s) :
    (arrivals s.history).Sublist (sends events) := by
  have hnone : (arrivals ({} : State α).history).Sublist (sends []) := List.Sublist.refl _
  refine Machine.history_invariant
    (fun events (s : State α) => (arrivals s.history).Sublist (sends events)) ?_ hnone hrun
  intro history event s s' harrivals hstep
  have happend : sends (history ++ [event]) = sends history ++ sends [event] := List.filterMap_append
  rw [happend]
  rcases arrivals_step hstep with hsame | ⟨item, rfl, hitem⟩
  · rw [hsame]
    exact harrivals.trans (List.sublist_append_left _ _)
  · rw [hitem]
    exact harrivals.append (List.Sublist.refl _)

/-- What was handed over are items that were passed, in order. -/
theorem handed_sublist_sends {events : List (Event α)} (hlimit : 0 < limit)
    (hrun : run limit events {} = some s) : (s.handed.map Prod.snd).Sublist (sends events) := by
  have hsound := sound_of_run hlimit hrun
  have htaken := hsound.tracks.departuresFor_sublist .taken
  rw [hsound.taken] at htaken
  exact (List.sublist_append_left _ _).trans (htaken.trans (arrivals_sublist_sends hrun))

end ReceiverQueue
end Aa
end Aa2acp
