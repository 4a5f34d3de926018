import Aa2acp.Bridge.ManagementConnections

/-!
# Every connection is closed once

What the life of a connection (`Phase.next`) says about the list of the acts on it, and that
from every state the threads can come to the end of the shutdown sequence.  With the
invariant of `ManagementConnections` this gives, for every run of the threads, that each
accepted connection is closed once and not touched afterwards, and that `shutdown` only
reaches connections that are being handled.
-/

namespace Aa2acp
namespace Bridge
namespace Connections

open Custody Management Mutex

/-! ## The acts on a connection -/

/-- Its handler has begun, and has neither finished nor closed it. -/
structure BeingHandled (index : Worker) (acts : List Act) : Prop where
  began : .began index ∈ acts
  unfinished : ∀ worker, .finished worker ∉ acts
  unclosed : ∀ closer, .closed closer ∉ acts

/-- The shutdown sequence has read the descriptor from the slot, and since then only the
handler of the slot has used it. -/
def FoundLast (index : Worker) (acts : List Act) : Prop :=
  ∃ before uses, acts = before ++ .found index :: uses ∧ ∀ act ∈ uses, act = .used index

/-- What was done to a connection that is in this phase. -/
def Phase.Describes (acts : List Act) : Phase → Prop
  | .unknown => acts = []
  | .waiting => acts = [.accepted]
  | .handled index => BeingHandled index acts
  | .found index => BeingHandled index acts ∧ FoundLast index acts
  | .finished _ => ∀ closer, .closed closer ∉ acts
  | .closed => ∃ before closer, acts = before ++ [.closed closer]

theorem BeingHandled.begin (index : Worker) : BeingHandled index [.accepted, .began index] where
  began := by simp
  unfinished := by simp
  unclosed := by simp

theorem BeingHandled.more {index : Worker} {acts : List Act} (h : BeingHandled index acts)
    {act : Act} (hfinished : ∀ worker, act ≠ .finished worker)
    (hclosed : ∀ closer, act ≠ .closed closer) : BeingHandled index (acts ++ [act]) where
  began := List.mem_append_left _ h.began
  unfinished := fun worker hmem => (List.mem_append.mp hmem).elim (h.unfinished worker)
    fun hact => hfinished worker (List.mem_singleton.mp hact).symm
  unclosed := fun closer hmem => (List.mem_append.mp hmem).elim (h.unclosed closer)
    fun hact => hclosed closer (List.mem_singleton.mp hact).symm

theorem FoundLast.used {index : Worker} {acts : List Act} (h : FoundLast index acts) :
    FoundLast index (acts ++ [.used index]) := by
  obtain ⟨before, uses, rfl, huses⟩ := h
  refine ⟨before, uses ++ [.used index], by simp, ?_⟩
  simpa [or_imp, forall_and] using huses

theorem Phase.next_closed {act : Act} : Phase.next act .closed = none := by
  cases act with
  | closed closer => cases closer <;> rfl
  | _ => rfl

theorem Phase.next_close {closer : Closer} {phase phase' : Phase}
    (h : Phase.next (.closed closer) phase = some phase') : phase' = .closed := by
  cases closer with
  | finishClient index =>
      cases phase with
      | finished worker => exact (Option.some.inj (Option.ite_none_right_eq_some.mp h).2).symm
      | _ => cases h
  | _ =>
      cases phase with
      | waiting => cases h; rfl
      | _ => cases h

theorem Phase.next_shutdown {index : Worker} {phase phase' : Phase}
    (h : Phase.next (.shutdown index) phase = some phase') : phase = .found index := by
  cases phase with
  | found worker =>
      obtain ⟨rfl, -⟩ := Option.ite_none_right_eq_some.mp h
      rfl
  | _ => cases h

/-- What one act does to the description. -/
theorem Phase.Describes.next {acts : List Act} {act : Act} {phase phase' : Phase}
    (h : phase.Describes acts) (hnext : Phase.next act phase = some phase') :
    phase'.Describes (acts ++ [act]) := by
  cases act with
  | accepted =>
      cases phase with
      | unknown =>
          cases hnext
          rw [h]
          rfl
      | _ => cases hnext
  | began index =>
      cases phase with
      | waiting =>
          cases hnext
          rw [h]
          exact BeingHandled.begin index
      | _ => cases hnext
  | used index =>
      cases phase with
      | handled worker =>
          obtain ⟨rfl, hphase⟩ := Option.ite_none_right_eq_some.mp hnext
          cases hphase
          exact BeingHandled.more h (by simp) (by simp)
      | found worker =>
          obtain ⟨rfl, hphase⟩ := Option.ite_none_right_eq_some.mp hnext
          cases hphase
          exact ⟨h.1.more (by simp) (by simp), h.2.used⟩
      | _ => cases hnext
  | found index =>
      cases phase with
      | handled worker =>
          obtain ⟨rfl, hphase⟩ := Option.ite_none_right_eq_some.mp hnext
          cases hphase
          exact ⟨BeingHandled.more h (by simp) (by simp), acts, [], rfl, by simp⟩
      | _ => cases hnext
  | shutdown index =>
      cases phase with
      | found worker =>
          obtain ⟨rfl, hphase⟩ := Option.ite_none_right_eq_some.mp hnext
          cases hphase
          exact h.1.more (by simp) (by simp)
      | _ => cases hnext
  | finished index =>
      cases phase with
      | handled worker =>
          obtain ⟨rfl, hphase⟩ := Option.ite_none_right_eq_some.mp hnext
          cases hphase
          intro closer hmem
          rcases List.mem_append.mp hmem with hmem | hact
          · exact BeingHandled.unclosed h closer hmem
          · cases List.mem_singleton.mp hact
      | _ => cases hnext
  | closed closer =>
      rw [Phase.next_close hnext]
      exact ⟨acts, closer, rfl⟩

section life

variable {acts : List Act} {phase : Phase} (hlife : Machine.run Phase.next acts .unknown = some phase)
include hlife

theorem describes_of_life : phase.Describes acts := by
  have hstart : Phase.Describes [] .unknown := rfl
  exact Machine.history_invariant (fun acts phase => Phase.Describes acts phase)
    (fun _ _ _ _ h hnext => h.next hnext) hstart hlife

/-- Nothing is done to a connection after it is closed. -/
theorem nothing_after_close {before after : List Act} {closer : Closer}
    (hacts : acts = before ++ .closed closer :: after) : after = [] := by
  rw [hacts, Machine.run_append_eq_some] at hlife
  obtain ⟨middle, -, hrest⟩ := hlife
  obtain ⟨next, hclose, hafter⟩ := Machine.run_cons_eq_some.mp hrest
  rw [Phase.next_close hclose] at hafter
  cases after with
  | nil => rfl
  | cons act after =>
      obtain ⟨last, hact, -⟩ := Machine.run_cons_eq_some.mp hafter
      rw [Phase.next_closed] at hact
      cases hact

theorem handled_at_shutdown {before after : List Act} {index : Worker}
    (hacts : acts = before ++ .shutdown index :: after) :
    BeingHandled index before ∧ FoundLast index before := by
  rw [hacts, Machine.run_append_eq_some] at hlife
  obtain ⟨middle, hbefore, hrest⟩ := hlife
  obtain ⟨next, hshutdown, -⟩ := Machine.run_cons_eq_some.mp hrest
  rw [Phase.next_shutdown hshutdown] at hbefore
  exact describes_of_life hbefore

end life

/-! ## The end of the shutdown sequence -/

def WorkerStage.rank : WorkerStage → ℕ
  | .returned => 0
  | .waiting => 1
  | .closing _ => 2
  | .finishing _ => 3
  | .handling _ .answering => 4
  | .handling _ (.reading _) => 5
  | .popped _ => 6

def MainStage.rank (queue : List ℕ) : MainStage → ℕ
  | .joined => 0
  | .joining => 1
  | .shuttingDown rest => 2 + 2 * rest.length
  | .shuttingSlot _ _ rest => 3 + 2 * rest.length
  | .stopped => 3 + 2 * kManagementWorkerCount
  | .stopping rest => 4 + 2 * kManagementWorkerCount + rest.length
  | .polling => 5 + 2 * kManagementWorkerCount + queue.length
  | .accepted _ => 7 + 2 * kManagementWorkerCount + queue.length

/-- How far the threads are from the end, when the accept loop stops as soon as it can. -/
def Server.rank (s : Server) : ℕ :=
  s.main.rank s.requestQueue + ∑ index, (s.workers index).rank

variable {s s' : Server} {index : Worker} {client : ℕ} {stage : WorkerStage}

/-- A step of a worker that leaves the main thread and the queue alone. -/
theorem Server.rank_setWorker_lt (hmain : s'.main = s.main)
    (hqueue : s'.requestQueue = s.requestQueue) (hworkers : s'.workers = s.workers)
    (hrank : stage.rank < (s.workers index).rank) : (s'.setWorker index stage).rank < s.rank := by
  have hsum : ∑ worker, ((s'.setWorker index stage).workers worker).rank <
      ∑ worker, (s.workers worker).rank := by
    refine Finset.sum_lt_sum (fun worker _ => ?_) ⟨index, Finset.mem_univ _, ?_⟩
    · by_cases hworker : worker = index
      · subst hworker
        rw [Server.workers_setWorker_self]
        exact hrank.le
      · rw [Server.workers_setWorker_of_ne hworker, hworkers]
    · rw [Server.workers_setWorker_self]
      exact hrank
  change s'.main.rank s'.requestQueue + _ < _
  rw [hmain, hqueue]
  exact Nat.add_lt_add_left hsum _

/-- A step of the main thread. -/
theorem Server.rank_main_lt (hworkers : s'.workers = s.workers)
    (hrank : s'.main.rank s'.requestQueue < s.main.rank s.requestQueue) : s'.rank < s.rank := by
  unfold rank
  rw [hworkers]
  exact Nat.add_lt_add_right hrank _

theorem Server.closes (hstage : s.workers index = .closing client) :
    ∃ event s', Server.step event s = some s' ∧ s'.rank < s.rank := by
  refine ⟨.worker index .close, ?_⟩
  simp only [step, stepWorker, hstage, Option.some.injEq, exists_eq_left']
  refine rank_setWorker_lt rfl rfl rfl ?_
  rw [hstage]
  simp [WorkerStage.rank]

/-- The shutdown sequence goes on with the slots. -/
theorem Server.looks (hinside : s.InActiveSection .main) :
    ∃ event s', Server.step event s = some s' ∧ s'.rank < s.rank := by
  rcases hinside with ⟨rest, hmain⟩ | ⟨index, client, rest, hmain⟩
  · cases rest with
    | nil =>
        refine ⟨.main .endShutdown, ?_⟩
        simp only [step, stepMain, hmain, Option.some.injEq, exists_eq_left']
        refine rank_main_lt rfl ?_
        simp [hmain, MainStage.rank]
    | cons index rest =>
        refine ⟨.main .loadSlot, ?_⟩
        cases hslot : s.activeClients index with
        | none =>
            simp only [step, stepMain, hmain, hslot, Option.some.injEq, exists_eq_left']
            refine rank_main_lt rfl ?_
            simp [hmain, MainStage.rank]
        | some client =>
            simp only [step, stepMain, hmain, hslot, Option.some.injEq, exists_eq_left']
            refine rank_main_lt rfl ?_
            simp only [hmain, MainStage.rank, List.length_cons]
            omega
  · refine ⟨.main .shutdownSlot, ?_⟩
    simp only [step, stepMain, hmain, Option.some.injEq, exists_eq_left']
    refine rank_main_lt rfl ?_
    simp only [hmain, MainStage.rank]
    omega

/-- A worker that has a connection comes closer to being done with it. -/
theorem Server.serves (hmutex : s.activeClientsMutex = none)
    (hwaiting : s.workers index ≠ .waiting) (hreturned : s.workers index ≠ .returned) :
    ∃ event s', Server.step event s = some s' ∧ s'.rank < s.rank := by
  cases hstage : s.workers index with
  | waiting => exact absurd hstage hwaiting
  | returned => exact absurd hstage hreturned
  | closing client => exact closes hstage
  | popped client =>
      refine ⟨.worker index .store, ?_⟩
      simp only [step, stepWorker, hstage, hmutex, Option.some.injEq, exists_eq_left']
      refine rank_setWorker_lt rfl rfl rfl ?_
      rw [hstage]
      simp [WorkerStage.rank]
  | finishing client =>
      refine ⟨.worker index .finish, ?_⟩
      simp only [step, stepWorker, hstage, hmutex, Option.some.injEq, exists_eq_left']
      refine rank_setWorker_lt rfl rfl rfl ?_
      rw [hstage]
      simp [WorkerStage.rank]
  | handling client handler =>
      cases handler with
      | answering =>
          refine ⟨.worker index .answered, ?_⟩
          simp only [step, stepWorker, hstage, Option.some.injEq, exists_eq_left']
          refine rank_setWorker_lt rfl rfl rfl ?_
          rw [hstage]
          simp [WorkerStage.rank]
      | reading request =>
          cases hframing : frameHttpRequest request (16 * 1024) (16 * 1024) with
          | invalid =>
              refine ⟨.worker index .refuse, ?_⟩
              simp only [step, stepWorker, hstage, hframing, if_true, Option.some.injEq,
                exists_eq_left']
              refine rank_setWorker_lt rfl rfl rfl ?_
              rw [hstage]
              simp [WorkerStage.rank]
          | incomplete =>
              refine ⟨.worker index (.receive none), ?_⟩
              simp only [step, stepWorker, hstage, hframing, if_true, Option.some.injEq,
                exists_eq_left']
              refine rank_setWorker_lt rfl rfl rfl ?_
              rw [hstage]
              simp [WorkerStage.rank]
          | complete body =>
              refine ⟨.worker index .dispatch, ?_⟩
              simp only [step, stepWorker, hstage, hframing, Option.some.injEq, exists_eq_left']
              refine rank_setWorker_lt rfl rfl rfl ?_
              rw [hstage]
              simp [WorkerStage.rank]

/-- The main thread when no worker has a connection. -/
theorem Sound.idle (h : Sound s) (hmutex : s.activeClientsMutex = none)
    (hworkers : ∀ index, s.workers index = .waiting ∨ s.workers index = .returned)
    (hmain : s.main ≠ .joined) :
    ∃ event s', Server.step event s = some s' ∧ s'.rank < s.rank := by
  have houtside (index : Worker) : ¬ s.InQueueSection (.worker index) := by
    rintro ⟨client, hstage⟩
    rcases hworkers index with hworker | hworker <;> simp [hworker] at hstage
  have hqueue (hnot : ∀ rest, s.main ≠ .stopping rest) : s.requestQueueMutex = none :=
    h.queueMutex.free fun holder => by
      cases holder with
      | main => exact fun ⟨rest, hrest⟩ => hnot rest hrest
      | worker index => exact houtside index
  have hnobody : ¬ s.InActiveSection .main := (hmutex ▸ h.activeMutex).outside .main
  cases hstage : s.main with
  | polling =>
      refine ⟨.main .stop, ?_⟩
      simp only [Server.step, Server.stepMain, hstage, hqueue (by simp [hstage]),
        Option.some.injEq, exists_eq_left']
      refine Server.rank_main_lt rfl ?_
      simp [hstage, MainStage.rank]
  | accepted client =>
      refine ⟨.main .enqueue, ?_⟩
      simp only [Server.step, Server.stepMain, hstage, hqueue (by simp [hstage])]
      split
      · refine ⟨_, rfl, Server.rank_main_lt rfl ?_⟩
        simp [hstage, MainStage.rank]
      · refine ⟨_, rfl, Server.rank_main_lt rfl ?_⟩
        simp [hstage, MainStage.rank]
        omega
  | stopping rest =>
      cases rest with
      | nil =>
          refine ⟨.main .clearQueue, ?_⟩
          simp only [Server.step, Server.stepMain, hstage, Option.some.injEq, exists_eq_left']
          refine Server.rank_main_lt rfl ?_
          simp [hstage, MainStage.rank]
      | cons client rest =>
          refine ⟨.main .closeQueued, ?_⟩
          simp only [Server.step, Server.stepMain, hstage, Option.some.injEq, exists_eq_left']
          refine Server.rank_main_lt rfl ?_
          simp [hstage, MainStage.rank]
  | stopped =>
      refine ⟨.main .beginShutdown, ?_⟩
      simp only [Server.step, Server.stepMain, hstage, hmutex, Option.some.injEq, exists_eq_left']
      refine Server.rank_main_lt rfl ?_
      simp [hstage, MainStage.rank]
  | shuttingDown rest => exact absurd (Or.inl ⟨rest, hstage⟩) hnobody
  | shuttingSlot index client rest => exact absurd (Or.inr ⟨index, client, rest, hstage⟩) hnobody
  | joining =>
      by_cases hreturned : ∀ index, s.workers index = .returned
      · refine ⟨.main .join, ?_⟩
        simp only [Server.step, Server.stepMain, hstage, if_pos hreturned, Option.some.injEq,
          exists_eq_left']
        refine Server.rank_main_lt rfl ?_
        simp [hstage, MainStage.rank]
      · obtain ⟨index, hindex⟩ := not_forall.mp hreturned
        have hwaiting : s.workers index = .waiting := (hworkers index).resolve_right hindex
        have hstopping : s.requestQueueStopping = true := by
          rw [h.stopping, hstage]
          rfl
        refine ⟨.worker index .leave, ?_⟩
        simp only [Server.step, Server.stepWorker, hwaiting, hqueue (by simp [hstage]), hstopping,
          Option.some.injEq, exists_eq_left']
        refine Server.rank_setWorker_lt rfl rfl rfl ?_
        rw [hwaiting]
        decide
  | joined => exact absurd hstage hmain

/-- No deadlock: until the workers are joined, some thread can go on. -/
theorem Sound.exists_step (h : Sound s) (hmain : s.main ≠ .joined) :
    ∃ event s', Server.step event s = some s' ∧ s'.rank < s.rank := by
  by_cases hclosing : ∃ index client, s.workers index = .closing client
  · obtain ⟨index, client, hstage⟩ := hclosing
    exact Server.closes hstage
  · by_cases hinside : s.InActiveSection .main
    · exact Server.looks hinside
    · have hmutex : s.activeClientsMutex = none := h.activeMutex.free fun holder => by
        cases holder with
        | main => exact hinside
        | worker index => exact fun hstage => hclosing ⟨index, hstage⟩
      by_cases hbusy : ∃ index, s.workers index ≠ .waiting ∧ s.workers index ≠ .returned
      · obtain ⟨index, hwaiting, hreturned⟩ := hbusy
        exact Server.serves hmutex hwaiting hreturned
      · refine h.idle hmutex (fun index => ?_) hmain
        by_contra hneither
        exact hbusy ⟨index, not_or.mp hneither⟩

/-- Whatever the threads have done, they can come to the end. -/
theorem exists_joined (h : Sound s) :
    ∃ more s', Server.run more s = some s' ∧ s'.main = .joined :=
  Machine.exists_run_to_final Sound (fun s => s.main = .joined) Server.rank
    (fun _ _ _ hs hstep => hs.step hstep) (fun _ hs hmain => hs.exists_step hmain) h

/-- Wherever a connection is, its acts were a life. -/
theorem Sound.exists_life (h : Sound s) {id : ℕ} (hid : id < s.descriptors.born) :
    ∃ phase, Lives Phase.next .unknown s.descriptors.history id phase := by
  rcases h.custody.lives_or_gone hid with ⟨_, _, phase, -, hlives⟩ | hlives
  · exact ⟨phase, hlives⟩
  · exact ⟨.closed, hlives⟩

/-- At the end there are no connections any more. -/
theorem Sound.closed_of_joined (h : Sound s) (hmain : s.main = .joined) {id : ℕ}
    (hid : id < s.descriptors.born) :
    Lives Phase.next .unknown s.descriptors.history id .closed := by
  rcases h.custody.lives_or_gone hid with ⟨place, number, phase, hold, -⟩ | hlives
  · have hqueue : s.requestQueue = [] := h.cleared (by rw [hmain]; rfl)
    have hworkers := h.joined hmain
    cases place with
    | main => simp [Server.Holds, hmain] at hold
    | queue => simp [Server.Holds, Server.queued, MainStage.queued, hmain, hqueue] at hold
    | worker index => simp [Server.Holds, hworkers, WorkerStage.custody?] at hold
  · exact hlives

/-- For every run of the accept loop, the request workers and the shutdown sequence, with
numbers that are used again as soon as they are free: whatever is done is done to an open
management connection; on each of them nothing comes after a close, so that it is closed at
most once; `shutdown` comes while it is being handled, and since the descriptor was read from
the slot only its handler has used it; and when the workers are joined, each has been closed,
which the threads can come to from every state. -/
theorem connections_closed_once {events : List Event} {s : Server}
    (hrun : Server.run events {} = some s) :
    (∀ entry ∈ s.descriptors.history,
      ∃ id < s.descriptors.born, entry.hit = some (.ours id)) ∧
    (∀ id < s.descriptors.born, ∀ before after,
      (∀ closer, actsOn id s.descriptors.history = before ++ .closed closer :: after →
        after = []) ∧
      ∀ index, actsOn id s.descriptors.history = before ++ .shutdown index :: after →
        BeingHandled index before ∧ FoundLast index before) ∧
    (s.main = .joined → ∀ id < s.descriptors.born,
      ∃ before closer, actsOn id s.descriptors.history = before ++ [.closed closer]) ∧
    ∃ more s', Server.run more s = some s' ∧ s'.main = .joined := by
  have hsound : Sound s := sound_run sound_start hrun
  refine ⟨fun entry hentry => hsound.custody.hit hentry, fun id hid before after => ?_,
    fun hmain id hid => ?_, exists_joined hsound⟩
  · obtain ⟨phase, hlife⟩ := hsound.exists_life hid
    exact ⟨fun closer hacts => nothing_after_close hlife hacts,
      fun index hacts => handled_at_shutdown hlife hacts⟩
  · exact describes_of_life (hsound.closed_of_joined hmain hid)

/-- A connection whose client goes away, one that gets its number and is shut down, and one
that is still in the queue when the daemon stops. -/
def recycledNumber : List Event :=
  [.main (.accept 7), .main .enqueue, .worker 0 .pop, .worker 0 .store,
    .worker 0 (.receive none), .worker 0 .finish, .worker 0 .close,
    .otherOpens 7, .otherCloses 7,
    .main (.accept 7), .main .enqueue, .worker 1 .pop, .worker 1 .store,
    .main (.accept 8), .main .enqueue,
    .main .stop, .main .closeQueued, .main .clearQueue,
    .main .beginShutdown, .main .loadSlot, .main .loadSlot, .main .shutdownSlot,
    .main .loadSlot, .main .loadSlot, .main .endShutdown,
    .worker 1 (.receive none), .worker 1 .finish, .worker 1 .close,
    .worker 0 .leave, .worker 1 .leave, .worker 2 .leave, .worker 3 .leave, .main .join]

theorem connections_closed_once_recycled :
    ∃ s, Server.run recycledNumber {} = some s ∧ s.descriptors.born = 3 ∧
      actsOn 1 s.descriptors.history =
        [.accepted, .began 1, .found 1, .shutdown 1, .used 1, .finished 1,
          .closed (.finishClient 1)] ∧
      ∀ id < 3, ∃ before closer, actsOn id s.descriptors.history = before ++ [.closed closer] := by
  obtain ⟨s, hrun, hmain, hborn, hacts⟩ : ∃ s, Server.run recycledNumber {} = some s ∧
      (s.main = .joined ∧ s.descriptors.born = 3 ∧ actsOn 1 s.descriptors.history =
        [.accepted, .began 1, .found 1, .shutdown 1, .used 1, .finished 1,
          .closed (.finishClient 1)]) := by
    decide
  refine ⟨s, hrun, hborn, hacts, ?_⟩
  rw [← hborn]
  exact (connections_closed_once hrun).2.2.1 hmain

end Connections
end Bridge
end Aa2acp
