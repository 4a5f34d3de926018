import Aa2acp.Bridge.ManagementUi
import Aa2acp.Lib.Custody
import Aa2acp.Lib.Mutex

/-!
# Management connections

The accept loop, the request workers and the shutdown sequence of `main` in
`src/bridge_daemon_main.cpp`, as far as they handle the descriptors of the management
connections.  A step is what one thread does while it holds a mutex, or one call on a
descriptor; sections that make several calls are several steps, and the mutex is held in
between.  The rest of the process opens and closes descriptors of its own at any time, and
every number that is free can be given to the next one that is opened.

What a request does to the daemon is in `Daemon`; here a handler reads until it has a whole
request, sends as often as it likes and calls `finish_client`.
-/

namespace Aa2acp
namespace Bridge
namespace Connections

open Custody Management Mutex

abbrev kManagementWorkerCount : ℕ := 4
def kManagementQueueLimit : ℕ := 16

abbrev Worker := Fin kManagementWorkerCount

/-! ## The life of a connection -/

/-- Who closes a connection. -/
inductive Closer where
  /-- The accept loop, when the queue is full. -/
  | acceptLoop
  /-- The shutdown sequence, for the connections in the queue. -/
  | shutdownLoop
  | finishClient (index : Worker)
deriving DecidableEq, Repr

/-- What is done to a connection; `index` is the worker, and its slot. -/
inductive Act where
  | accepted
  /-- A worker puts the descriptor into its slot and calls `handle_client`. -/
  | began (index : Worker)
  /-- `poll`, `recv` or `send` of the handler. -/
  | used (index : Worker)
  /-- The shutdown sequence reads the descriptor from the slot. -/
  | found (index : Worker)
  /-- `shutdown` of the shutdown sequence. -/
  | shutdown (index : Worker)
  /-- `finish_client` takes the descriptor out of the slot. -/
  | finished (index : Worker)
  | closed (closer : Closer)
deriving DecidableEq, Repr

inductive Phase where
  | unknown
  | waiting
  | handled (index : Worker)
  | found (index : Worker)
  | finished (index : Worker)
  | closed
deriving DecidableEq, Repr

/-- What may be done to a connection, and what comes next. -/
def Phase.next : Act → Phase → Option Phase
  | .accepted, .unknown => some .waiting
  | .began index, .waiting => some (.handled index)
  | .used index, .handled worker => if index = worker then some (.handled worker) else none
  | .used index, .found worker => if index = worker then some (.found worker) else none
  | .found index, .handled worker => if index = worker then some (.found worker) else none
  | .shutdown index, .found worker => if index = worker then some (.handled worker) else none
  | .finished index, .handled worker => if index = worker then some (.finished worker) else none
  | .closed .acceptLoop, .waiting => some .closed
  | .closed .shutdownLoop, .waiting => some .closed
  | .closed (.finishClient index), .finished worker =>
      if index = worker then some .closed else none
  | _, _ => none

/-! ## The threads -/

inductive MainStage where
  | polling
  /-- `accept4` returned a connection. -/
  | accepted (client : ℕ)
  /-- Out of the accept loop, with the connections of the queue that are still to be closed. -/
  | stopping (rest : List ℕ)
  | stopped
  /-- The loop over `active_clients`, with the slots that are left. -/
  | shuttingDown (rest : List Worker)
  /-- It has read a descriptor from a slot. -/
  | shuttingSlot (index : Worker) (client : ℕ) (rest : List Worker)
  /-- `request_workers.clear()`. -/
  | joining
  | joined
deriving DecidableEq, Repr

/-- Where `handle_client` stands. -/
inductive HandlerStage where
  | reading (request : Bytes)
  | answering
deriving DecidableEq, Repr

inductive WorkerStage where
  | waiting
  /-- It has taken a connection out of the queue. -/
  | popped (client : ℕ)
  | handling (client : ℕ) (handler : HandlerStage)
  /-- `finish_client` is called. -/
  | finishing (client : ℕ)
  /-- `finish_client` has cleared the slot. -/
  | closing (client : ℕ)
  | returned
deriving DecidableEq, Repr

inductive Holder where
  | main
  | worker (index : Worker)
deriving DecidableEq, Repr

structure Server where
  descriptors : Ledger Act := {}
  requestQueue : List ℕ := []
  requestQueueStopping : Bool := false
  activeClients : Worker → Option ℕ := fun _ => none
  requestQueueMutex : Option Holder := none
  activeClientsMutex : Option Holder := none
  main : MainStage := .polling
  workers : Worker → WorkerStage := fun _ => .waiting

inductive MainEvent where
  /-- `accept4` returns a descriptor. -/
  | accept (client : ℕ)
  | enqueue
  /-- The accept loop ends, and the queue is locked. -/
  | stop
  | closeQueued
  | clearQueue
  | beginShutdown
  | loadSlot
  | shutdownSlot
  | endShutdown
  | join
deriving DecidableEq, Repr

inductive WorkerEvent where
  | pop
  | store
  | leave
  /-- `receive_more`: what it received, if anything. -/
  | receive (bytes : Option Bytes)
  /-- The request is invalid. -/
  | refuse
  | dispatch
  | send
  | answered
  | finish
  | close
deriving DecidableEq, Repr

inductive Event where
  | main (event : MainEvent)
  | worker (index : Worker) (event : WorkerEvent)
  /-- Something else in the process opens or closes a descriptor. -/
  | otherOpens (number : ℕ)
  | otherCloses (number : ℕ)
deriving DecidableEq, Repr

namespace Server

def setWorker (index : Worker) (stage : WorkerStage) (s : Server) : Server :=
  { s with workers := Function.update s.workers index stage }

/-- The loop of `finish_client` over the slots. -/
def clearSlot (client : ℕ) (slots : Worker → Option ℕ) : Worker → Option ℕ :=
  match (List.finRange kManagementWorkerCount).find? fun index => slots index = some client with
  | some index => Function.update slots index none
  | none => slots

/-- The accept loop and the shutdown sequence. -/
def stepMain (s : Server) : MainEvent → Option Server
  | .accept client =>
      match s.main with
      | .polling =>
          if s.descriptors.held client = none then
            some { s with
              main := .accepted client, descriptors := s.descriptors.acquire client .accepted }
          else none
      | _ => none
  | .enqueue =>
      match s.main, s.requestQueueMutex with
      | .accepted client, none =>
          if s.requestQueue.length ≥ kManagementQueueLimit then
            some { s with
              main := .polling
              descriptors := s.descriptors.release client (.closed .acceptLoop) }
          else some { s with main := .polling, requestQueue := s.requestQueue ++ [client] }
      | _, _ => none
  | .stop =>
      match s.main, s.requestQueueMutex with
      | .polling, none =>
          some { s with
            main := .stopping s.requestQueue
            requestQueueMutex := some .main
            requestQueueStopping := true }
      | _, _ => none
  | .closeQueued =>
      match s.main with
      | .stopping (client :: rest) =>
          some { s with
            main := .stopping rest
            descriptors := s.descriptors.release client (.closed .shutdownLoop) }
      | _ => none
  | .clearQueue =>
      match s.main with
      | .stopping [] =>
          some { s with main := .stopped, requestQueue := [], requestQueueMutex := none }
      | _ => none
  | .beginShutdown =>
      match s.main, s.activeClientsMutex with
      | .stopped, none =>
          some { s with
            main := .shuttingDown (List.finRange kManagementWorkerCount)
            activeClientsMutex := some .main }
      | _, _ => none
  | .loadSlot =>
      match s.main with
      | .shuttingDown (index :: rest) =>
          match s.activeClients index with
          | some client =>
              some { s with
                main := .shuttingSlot index client rest
                descriptors := s.descriptors.touch client (.found index) }
          | none => some { s with main := .shuttingDown rest }
      | _ => none
  | .shutdownSlot =>
      match s.main with
      | .shuttingSlot index client rest =>
          some { s with
            main := .shuttingDown rest
            descriptors := s.descriptors.touch client (.shutdown index) }
      | _ => none
  | .endShutdown =>
      match s.main with
      | .shuttingDown [] => some { s with main := .joining, activeClientsMutex := none }
      | _ => none
  | .join =>
      match s.main with
      | .joining =>
          if ∀ index, s.workers index = .returned then some { s with main := .joined } else none
      | _ => none

/-- A request worker, with `handle_client` and `finish_client`. -/
def stepWorker (index : Worker) (s : Server) : WorkerEvent → Option Server
  | .pop =>
      match s.workers index, s.requestQueueMutex, s.requestQueueStopping, s.requestQueue with
      | .waiting, none, false, client :: rest =>
          some (setWorker index (.popped client) { s with
            requestQueue := rest, requestQueueMutex := some (.worker index) })
      | _, _, _, _ => none
  | .store =>
      match s.workers index, s.activeClientsMutex with
      | .popped client, none =>
          some (setWorker index (.handling client (.reading [])) { s with
            activeClients := Function.update s.activeClients index (some client)
            requestQueueMutex := none
            descriptors := s.descriptors.touch client (.began index) })
      | _, _ => none
  | .leave =>
      match s.workers index, s.requestQueueMutex, s.requestQueueStopping with
      | .waiting, none, true => some (s.setWorker index .returned)
      | _, _, _ => none
  | .receive received =>
      match s.workers index with
      | .handling client (.reading request) =>
          if frameHttpRequest request (16 * 1024) (16 * 1024) = .incomplete then
            some (setWorker index
              (match received with
              | some bytes => .handling client (.reading (request ++ bytes))
              | none => .finishing client)
              { s with descriptors := s.descriptors.touch client (.used index) })
          else none
      | _ => none
  | .refuse =>
      match s.workers index with
      | .handling client (.reading request) =>
          if frameHttpRequest request (16 * 1024) (16 * 1024) = .invalid then
            some (s.setWorker index (.finishing client))
          else none
      | _ => none
  | .dispatch =>
      match s.workers index with
      | .handling client (.reading request) =>
          match frameHttpRequest request (16 * 1024) (16 * 1024) with
          | .complete _ => some (s.setWorker index (.handling client .answering))
          | _ => none
      | _ => none
  | .send =>
      match s.workers index with
      | .handling client .answering =>
          some { s with descriptors := s.descriptors.touch client (.used index) }
      | _ => none
  | .answered =>
      match s.workers index with
      | .handling client .answering => some (s.setWorker index (.finishing client))
      | _ => none
  | .finish =>
      match s.workers index, s.activeClientsMutex with
      | .finishing client, none =>
          some (setWorker index (.closing client) { s with
            activeClients := clearSlot client s.activeClients
            activeClientsMutex := some (.worker index)
            descriptors := s.descriptors.touch client (.finished index) })
      | _, _ => none
  | .close =>
      match s.workers index with
      | .closing client =>
          some (setWorker index .waiting { s with
            activeClientsMutex := none
            descriptors := s.descriptors.release client (.closed (.finishClient index)) })
      | _ => none

def step : Event → Server → Option Server
  | .main event, s => s.stepMain event
  | .worker index event, s => s.stepWorker index event
  | .otherOpens number, s =>
      if s.descriptors.held number = none then
        some { s with descriptors := s.descriptors.strangers number (some .stranger) }
      else none
  | .otherCloses number, s =>
      if s.descriptors.held number = some .stranger then
        some { s with descriptors := s.descriptors.strangers number none }
      else none

/-- The steps of a run, in order; `none` when one of them is not possible. -/
def run : List Event → Server → Option Server := Machine.run step

end Server

/-! ## Who has which connection -/

inductive Place where
  | main
  | queue
  | worker (index : Worker)
deriving DecidableEq, Repr

/-- The connection of a worker, and how far it is with it; `found` is true while the shutdown
sequence has the descriptor in its hand. -/
def WorkerStage.custody? (index : Worker) (found : Bool) : WorkerStage → Option (ℕ × Phase)
  | .waiting => none
  | .popped client => some (client, .waiting)
  | .handling client _ => some (client, if found then .found index else .handled index)
  | .finishing client => some (client, if found then .found index else .handled index)
  | .closing client => some (client, .finished index)
  | .returned => none

/-- The connections that are still in the queue. -/
def MainStage.queued (queue : List ℕ) : MainStage → List ℕ
  | .stopping rest => rest
  | _ => queue

def MainStage.finds (worker : Worker) : MainStage → Bool
  | .shuttingSlot index _ _ => index = worker
  | _ => false

namespace Server

def queued (s : Server) : List ℕ := s.main.queued s.requestQueue

def Holds (s : Server) : Place → ℕ → Phase → Prop
  | .main, client, phase => s.main = .accepted client ∧ phase = .waiting
  | .queue, client, phase => client ∈ s.queued ∧ phase = .waiting
  | .worker index, client, phase =>
      (s.workers index).custody? index (s.main.finds index) = some (client, phase)

/-! ## What the mutexes protect -/

def InQueueSection (s : Server) : Holder → Prop
  | .main => ∃ rest, s.main = .stopping rest
  | .worker index => ∃ client, s.workers index = .popped client

def InActiveSection (s : Server) : Holder → Prop
  | .main => (∃ rest, s.main = .shuttingDown rest) ∨
      ∃ index client rest, s.main = .shuttingSlot index client rest
  | .worker index => ∃ client, s.workers index = .closing client

end Server

/-- What a slot has in it. -/
def WorkerStage.slot? : WorkerStage → Option ℕ
  | .handling client _ => some client
  | .finishing client => some client
  | _ => none

/-- The accept loop is over. -/
def MainStage.isStopping : MainStage → Bool
  | .polling | .accepted _ => false
  | _ => true

/-- The queue is cleared. -/
def MainStage.isCleared : MainStage → Bool
  | .polling | .accepted _ | .stopping _ => false
  | _ => true

structure Controlled (s : Server) : Prop where
  queueMutex : Guards s.requestQueueMutex s.InQueueSection
  activeMutex : Guards s.activeClientsMutex s.InActiveSection
  slots : ∀ index, s.activeClients index = (s.workers index).slot?
  found : ∀ {index client rest}, s.main = .shuttingSlot index client rest →
    s.activeClients index = some client
  stopping : s.requestQueueStopping = s.main.isStopping
  cleared : s.main.isCleared = true → s.requestQueue = []
  joined : s.main = .joined → ∀ index, s.workers index = .returned

structure Sound (s : Server) : Prop extends Controlled s where
  nodup : s.queued.Nodup
  custody : Kept Phase.next .unknown .closed s.Holds s.descriptors

variable {s s' : Server} {index : Worker} {client : ℕ} {stage : WorkerStage}

theorem Server.workers_setWorker_self : (s.setWorker index stage).workers index = stage :=
  Function.update_self _ _ _

theorem Server.workers_setWorker_of_ne {other : Worker} (h : other ≠ index) :
    (s.setWorker index stage).workers other = s.workers other :=
  Function.update_of_ne h _ _

/-- When the connection is in one slot, `finish_client` clears this one. -/
theorem Server.clearSlot_eq {slots : Worker → Option ℕ} (hslot : slots index = some client)
    (honly : ∀ other, slots other = some client → other = index) :
    clearSlot client slots = Function.update slots index none := by
  unfold clearSlot
  cases hfind : (List.finRange kManagementWorkerCount).find? fun index =>
      slots index = some client with
  | none =>
      have hnone := List.find?_eq_none.mp hfind index (List.mem_finRange index)
      simp [hslot] at hnone
  | some other =>
      have hother := List.find?_some hfind
      rw [honly other (by simpa using hother)]

namespace Server

theorem holds_setWorker_self {n : ℕ} {now : Phase} :
    (s.setWorker index stage).Holds (.worker index) n now ↔
      stage.custody? index (s.main.finds index) = some (n, now) := by
  change ((s.setWorker index stage).workers index).custody? index _ = _ ↔ _
  rw [workers_setWorker_self]
  rfl

/-- Only the place of the worker is affected. -/
theorem holds_setWorker_of_ne {other : Place} (h : other ≠ .worker index) (n : ℕ) (now : Phase) :
    (s.setWorker index stage).Holds other n now ↔ s.Holds other n now := by
  cases other with
  | main => exact Iff.rfl
  | queue => exact Iff.rfl
  | worker worker =>
      have hworker : worker ≠ index := fun heq => h (by rw [heq])
      change ((s.setWorker index stage).workers worker).custody? worker _ = _ ↔ _
      rw [workers_setWorker_of_ne hworker]
      rfl

/-- A step of the main thread that leaves the queue alone and does not look at a slot. -/
theorem holds_of_ne_main (hworkers : s'.workers = s.workers) (hqueued : s'.queued = s.queued)
    (hfinds : ∀ worker, s'.main.finds worker = s.main.finds worker) {other : Place}
    (h : other ≠ .main) (n : ℕ) (now : Phase) : s'.Holds other n now ↔ s.Holds other n now := by
  cases other with
  | main => exact absurd rfl h
  | queue => rw [Holds, Holds, hqueued]
  | worker worker => rw [Holds, Holds, hworkers, hfinds]

/-- When the main thread has no connection in its hand, either. -/
theorem holds_of_main (hworkers : s'.workers = s.workers) (hqueued : s'.queued = s.queued)
    (hfinds : ∀ worker, s'.main.finds worker = s.main.finds worker)
    (hbefore : ∀ client, s.main ≠ .accepted client)
    (hafter : ∀ client, s'.main ≠ .accepted client) (place : Place) (n : ℕ) (now : Phase) :
    s'.Holds place n now ↔ s.Holds place n now := by
  by_cases hplace : place = .main
  · subst hplace
    exact ⟨fun hheld => absurd hheld.1 (hafter n), fun hheld => absurd hheld.1 (hbefore n)⟩
  · exact holds_of_ne_main hworkers hqueued hfinds hplace n now

end Server

theorem sound_start : Sound {} where
  queueMutex := by
    intro holder
    cases holder <;> simp [Server.InQueueSection]
  activeMutex := by
    intro holder
    cases holder <;> simp [Server.InActiveSection]
  slots := fun _ => rfl
  found := by simp
  stopping := rfl
  cleared := fun _ => rfl
  joined := by simp
  nodup := List.nodup_nil
  custody := by
    refine Kept.empty fun place number phase => ?_
    cases place <;> simp [Server.Holds, Server.queued, MainStage.queued, WorkerStage.custody?]

/-! ## The accept loop -/

theorem MainStage.loop_cases {main : MainStage} (h : main.isStopping = false) :
    main = .polling ∨ ∃ client, main = .accepted client := by
  cases main with
  | polling => exact Or.inl rfl
  | accepted client => exact Or.inr ⟨client, rfl⟩
  | _ => cases h

/-- The accept loop goes on. -/
theorem Controlled.loop (h : Controlled s) (hbefore : s.main.isStopping = false)
    {main : MainStage} (hafter : main.isStopping = false) (queue : List ℕ)
    (descriptors : Ledger Act) :
    Controlled { s with
      main := main, requestQueue := queue, descriptors := descriptors } where
  queueMutex := h.queueMutex.congr fun other => by
    cases other with
    | main =>
        rcases MainStage.loop_cases hbefore with hs | ⟨_, hs⟩ <;>
          rcases MainStage.loop_cases hafter with rfl | ⟨_, rfl⟩ <;>
          simp [Server.InQueueSection, hs]
    | worker index => exact Iff.rfl
  activeMutex := h.activeMutex.congr fun other => by
    cases other with
    | main =>
        rcases MainStage.loop_cases hbefore with hs | ⟨_, hs⟩ <;>
          rcases MainStage.loop_cases hafter with rfl | ⟨_, rfl⟩ <;>
          simp [Server.InActiveSection, hs]
    | worker index => exact Iff.rfl
  slots := h.slots
  found := by
    rintro index client rest rfl
    cases hafter
  stopping := by rw [hafter, h.stopping, hbefore]
  cleared := by
    rcases MainStage.loop_cases hafter with rfl | ⟨_, rfl⟩ <;> simp [MainStage.isCleared]
  joined := by
    rintro rfl
    cases hafter

theorem Sound.accept (h : Sound s) (hmain : s.main = .polling)
    (hfree : s.descriptors.held client = none) :
    Sound { s with
      main := .accepted client, descriptors := s.descriptors.acquire client .accepted } where
  toControlled := h.loop (by rw [hmain]; rfl) rfl s.requestQueue _
  nodup := by simpa [Server.queued, MainStage.queued, hmain] using h.nodup
  custody := by
    refine h.custody.acquire .main hfree rfl (fun n now => ?_) fun other hother => ?_
    · simp [Server.Holds, hmain, eq_comm]
    · exact Server.holds_of_ne_main (by rfl) (by simp [Server.queued, MainStage.queued, hmain])
        (by simp [MainStage.finds, hmain]) hother

/-- The queue is full. -/
theorem Sound.overflow (h : Sound s) (hmain : s.main = .accepted client) :
    Sound { s with
      main := .polling
      descriptors := s.descriptors.release client (.closed .acceptLoop) } where
  toControlled := h.loop (by rw [hmain]; rfl) rfl s.requestQueue _
  nodup := by simpa [Server.queued, MainStage.queued, hmain] using h.nodup
  custody := by
    have hold : s.Holds .main client .waiting := ⟨hmain, rfl⟩
    refine h.custody.release hold rfl (fun n now => ?_) fun other hother => ?_
    · simp only [Server.Holds, hmain, reduceCtorEq, false_and, MainStage.accepted.injEq,
        false_iff, not_and]
      exact fun hn heq => absurd heq.symm hn
    · exact Server.holds_of_ne_main (by rfl) (by simp [Server.queued, MainStage.queued, hmain])
        (by simp [MainStage.finds, hmain]) hother

theorem Sound.push (h : Sound s) (hmain : s.main = .accepted client) :
    Sound { s with main := .polling, requestQueue := s.requestQueue ++ [client] } where
  toControlled := h.loop (by rw [hmain]; rfl) rfl _ _
  nodup := by
    have hold : s.Holds .main client .waiting := ⟨hmain, rfl⟩
    have hqueued : s.queued = s.requestQueue := by rw [Server.queued, hmain]; rfl
    have hnew : client ∉ s.requestQueue := by
      intro hmem
      have hqueue : s.Holds .queue client .waiting := ⟨hqueued ▸ hmem, rfl⟩
      cases (h.custody.one hold hqueue).1
    exact List.nodup_append.mpr ⟨hqueued ▸ h.nodup, List.nodup_singleton _, by
      rintro n hn _ hclient rfl
      exact hnew (List.mem_singleton.mp hclient ▸ hn)⟩
  custody := by
    have hold : s.Holds .main client .waiting := ⟨hmain, rfl⟩
    refine h.custody.move hold (nofun : Place.queue ≠ .main) (fun n now => ?_) (fun n now => ?_)
      fun other hqueue hmain' => ?_
    · simp only [Server.Holds, Server.queued, MainStage.queued, hmain, List.mem_append,
        List.mem_singleton]
      tauto
    · simp only [Server.Holds, hmain, reduceCtorEq, false_and, MainStage.accepted.injEq,
        false_iff, not_and]
      exact fun hn heq => absurd heq.symm hn
    · cases other with
      | main => exact absurd rfl hmain'
      | queue => exact absurd rfl hqueue
      | worker index => simp [Server.Holds, MainStage.finds, hmain]

/-! ## The shutdown sequence -/

theorem Sound.stop (h : Sound s) (hmain : s.main = .polling) (hmutex : s.requestQueueMutex = none) :
    Sound { s with
      main := .stopping s.requestQueue
      requestQueueMutex := some .main
      requestQueueStopping := true } where
  queueMutex := (hmutex ▸ h.queueMutex).lock fun other => by
    cases other <;> simp [Server.InQueueSection]
  activeMutex := h.activeMutex.congr fun other => by
    cases other <;> simp [Server.InActiveSection, hmain]
  slots := h.slots
  found := by simp
  stopping := rfl
  cleared := by simp [MainStage.isCleared]
  joined := by simp
  nodup := by simpa [Server.queued, MainStage.queued, hmain] using h.nodup
  custody := h.custody.congr (Server.holds_of_main (by rfl)
    (by simp [Server.queued, MainStage.queued, hmain]) (by simp [MainStage.finds, hmain])
    (by simp [hmain]) (by simp))

/-- What is left of the queue when its first connection is gone. -/
theorem mem_rest_iff {rest : List ℕ} {n : ℕ} {P : Prop} (h : client ∉ rest) :
    n ∈ rest ∧ P ↔ n ≠ client ∧ n ∈ client :: rest ∧ P := by
  rw [List.mem_cons]
  constructor
  · rintro ⟨hn, hP⟩
    refine ⟨?_, Or.inr hn, hP⟩
    rintro rfl
    exact h hn
  · rintro ⟨hne, hn, hP⟩
    exact ⟨hn.resolve_left hne, hP⟩

theorem Sound.closeQueued (h : Sound s) {rest : List ℕ} (hmain : s.main = .stopping (client :: rest)) :
    Sound { s with
      main := .stopping rest
      descriptors := s.descriptors.release client (.closed .shutdownLoop) } where
  queueMutex := h.queueMutex.congr fun other => by
    cases other <;> simp [Server.InQueueSection, hmain]
  activeMutex := h.activeMutex.congr fun other => by
    cases other <;> simp [Server.InActiveSection, hmain]
  slots := h.slots
  found := by simp
  stopping := by simpa [hmain, MainStage.isStopping] using h.stopping
  cleared := by simp [MainStage.isCleared]
  joined := by simp
  nodup := by
    have hqueued : s.queued = client :: rest := by rw [Server.queued, hmain]; rfl
    exact (List.nodup_cons.mp (hqueued ▸ h.nodup)).2
  custody := by
    have hqueued : s.queued = client :: rest := by rw [Server.queued, hmain]; rfl
    have hnew : client ∉ rest := (List.nodup_cons.mp (hqueued ▸ h.nodup)).1
    have hold : s.Holds .queue client .waiting := ⟨by simp [hqueued], rfl⟩
    refine h.custody.release hold rfl (fun n now => ?_) fun other hother n now => ?_
    · change n ∈ rest ∧ _ ↔ n ≠ client ∧ n ∈ s.queued ∧ _
      rw [hqueued]
      exact mem_rest_iff hnew
    · cases other with
      | main => simp [Server.Holds, hmain]
      | queue => exact absurd rfl hother
      | worker index => simp [Server.Holds, MainStage.finds, hmain]

theorem Sound.clearQueue (h : Sound s) (hmain : s.main = .stopping []) :
    Sound { s with main := .stopped, requestQueue := [], requestQueueMutex := none } where
  queueMutex := by
    have hinside : s.InQueueSection .main := ⟨[], hmain⟩
    refine h.queueMutex.unlock hinside fun other => ?_
    cases other <;> simp [Server.InQueueSection]
  activeMutex := h.activeMutex.congr fun other => by
    cases other <;> simp [Server.InActiveSection, hmain]
  slots := h.slots
  found := by simp
  stopping := by simpa [hmain, MainStage.isStopping] using h.stopping
  cleared := fun _ => rfl
  joined := by simp
  nodup := List.nodup_nil
  custody := h.custody.congr (Server.holds_of_main (by rfl)
    (by simp [Server.queued, MainStage.queued, hmain]) (by simp [MainStage.finds, hmain])
    (by simp [hmain]) (by simp))

theorem Sound.beginShutdown (h : Sound s) (hmain : s.main = .stopped)
    (hmutex : s.activeClientsMutex = none) :
    Sound { s with
      main := .shuttingDown (List.finRange kManagementWorkerCount)
      activeClientsMutex := some .main } where
  queueMutex := h.queueMutex.congr fun other => by
    cases other <;> simp [Server.InQueueSection, hmain]
  activeMutex := (hmutex ▸ h.activeMutex).lock fun other => by
    cases other <;> simp [Server.InActiveSection]
  slots := h.slots
  found := by simp
  stopping := by simpa [hmain, MainStage.isStopping] using h.stopping
  cleared := fun _ => h.cleared (by rw [hmain]; rfl)
  joined := by simp
  nodup := by simpa [Server.queued, MainStage.queued, hmain] using h.nodup
  custody := h.custody.congr (Server.holds_of_main (by rfl)
    (by simp [Server.queued, MainStage.queued, hmain]) (by simp [MainStage.finds, hmain])
    (by simp [hmain]) (by simp))

/-- The slot is empty. -/
theorem Sound.passSlot (h : Sound s) {rest : List Worker}
    (hmain : s.main = .shuttingDown (index :: rest)) :
    Sound { s with main := .shuttingDown rest } where
  queueMutex := h.queueMutex.congr fun other => by
    cases other <;> simp [Server.InQueueSection, hmain]
  activeMutex := h.activeMutex.congr fun other => by
    cases other <;> simp [Server.InActiveSection, hmain]
  slots := h.slots
  found := by simp
  stopping := by simpa [hmain, MainStage.isStopping] using h.stopping
  cleared := fun _ => h.cleared (by rw [hmain]; rfl)
  joined := by simp
  nodup := by simpa [Server.queued, MainStage.queued, hmain] using h.nodup
  custody := h.custody.congr (Server.holds_of_main (by rfl)
    (by simp [Server.queued, MainStage.queued, hmain]) (by simp [MainStage.finds, hmain])
    (by simp [hmain]) (by simp))

theorem Sound.endShutdown (h : Sound s) (hmain : s.main = .shuttingDown []) :
    Sound { s with main := .joining, activeClientsMutex := none } where
  queueMutex := h.queueMutex.congr fun other => by
    cases other <;> simp [Server.InQueueSection, hmain]
  activeMutex := by
    have hinside : s.InActiveSection .main := Or.inl ⟨[], hmain⟩
    refine h.activeMutex.unlock hinside fun other => ?_
    cases other <;> simp [Server.InActiveSection]
  slots := h.slots
  found := by simp
  stopping := by simpa [hmain, MainStage.isStopping] using h.stopping
  cleared := fun _ => h.cleared (by rw [hmain]; rfl)
  joined := by simp
  nodup := by simpa [Server.queued, MainStage.queued, hmain] using h.nodup
  custody := h.custody.congr (Server.holds_of_main (by rfl)
    (by simp [Server.queued, MainStage.queued, hmain]) (by simp [MainStage.finds, hmain])
    (by simp [hmain]) (by simp))

theorem Sound.join (h : Sound s) (hmain : s.main = .joining)
    (hreturned : ∀ index, s.workers index = .returned) : Sound { s with main := .joined } where
  queueMutex := h.queueMutex.congr fun other => by
    cases other <;> simp [Server.InQueueSection, hmain]
  activeMutex := h.activeMutex.congr fun other => by
    cases other <;> simp [Server.InActiveSection, hmain]
  slots := h.slots
  found := by simp
  stopping := by simpa [hmain, MainStage.isStopping] using h.stopping
  cleared := fun _ => h.cleared (by rw [hmain]; rfl)
  joined := fun _ => hreturned
  nodup := by simpa [Server.queued, MainStage.queued, hmain] using h.nodup
  custody := h.custody.congr (Server.holds_of_main (by rfl)
    (by simp [Server.queued, MainStage.queued, hmain]) (by simp [MainStage.finds, hmain])
    (by simp [hmain]) (by simp))

/-- A worker whose slot has a descriptor in it holds the connection, and has not begun to
finish it. -/
theorem WorkerStage.custody?_of_slot? (h : stage.slot? = some client) (found : Bool) :
    stage.custody? index found = some (client, if found then .found index else .handled index) := by
  cases stage with
  | handling other handler =>
      cases h
      rfl
  | finishing other =>
      cases h
      rfl
  | _ => cases h

/-- The phase of a connection that is in a slot. -/
def MainStage.slotPhase (index : Worker) (main : MainStage) : Phase :=
  if main.finds index then .found index else .handled index

theorem Sound.holds_of_slot (h : Sound s) (hslot : s.activeClients index = some client) :
    s.Holds (.worker index) client (s.main.slotPhase index) :=
  WorkerStage.custody?_of_slot? ((h.slots index).symm.trans hslot) _

/-- The shutdown sequence does something with the connection in a slot, and goes on. -/
theorem Sound.custody_slot (h : Sound s) (hslot : s.activeClients index = some client) {act : Act}
    {main : MainStage}
    (hnext : Phase.next act (s.main.slotPhase index) = some (main.slotPhase index))
    (hbefore : ∀ client, s.main ≠ .accepted client) (hafter : ∀ client, main ≠ .accepted client)
    (hqueued : main.queued s.requestQueue = s.queued)
    (hfinds : ∀ worker, worker ≠ index → main.finds worker = s.main.finds worker) :
    Kept Phase.next .unknown .closed
      { s with main := main, descriptors := s.descriptors.touch client act }.Holds
      (s.descriptors.touch client act) := by
  have hstage : (s.workers index).slot? = some client := (h.slots index).symm.trans hslot
  refine h.custody.touch (h.holds_of_slot hslot) hnext (fun n now => ?_) fun other hother n now => ?_
  · simp only [Server.Holds, WorkerStage.custody?_of_slot? hstage, Option.some.injEq,
      Prod.mk.injEq, MainStage.slotPhase]
    tauto
  · cases other with
    | main =>
        exact ⟨fun hheld => absurd hheld.1 (hafter n), fun hheld => absurd hheld.1 (hbefore n)⟩
    | queue => rw [Server.Holds, Server.Holds, Server.queued, hqueued]
    | worker worker =>
        rw [Server.Holds, Server.Holds, hfinds worker fun heq => hother (by rw [heq])]

theorem Sound.loadSlot (h : Sound s) {rest : List Worker}
    (hmain : s.main = .shuttingDown (index :: rest)) (hslot : s.activeClients index = some client) :
    Sound { s with
      main := .shuttingSlot index client rest
      descriptors := s.descriptors.touch client (.found index) } where
  queueMutex := h.queueMutex.congr fun other => by
    cases other <;> simp [Server.InQueueSection, hmain]
  activeMutex := h.activeMutex.congr fun other => by
    cases other <;> simp [Server.InActiveSection, hmain]
  slots := h.slots
  found := by
    rintro _ _ _ heq
    cases heq
    exact hslot
  stopping := by simpa [hmain, MainStage.isStopping] using h.stopping
  cleared := fun _ => h.cleared (by rw [hmain]; rfl)
  joined := by simp
  nodup := by simpa [Server.queued, MainStage.queued, hmain] using h.nodup
  custody := by
    refine h.custody_slot hslot ?_ (by simp [hmain]) (by simp)
      (by simp [Server.queued, MainStage.queued, hmain]) fun worker hworker => ?_
    · simp [hmain, MainStage.slotPhase, MainStage.finds, Phase.next]
    · simp [hmain, MainStage.finds, hworker.symm]

theorem Sound.shutdownSlot (h : Sound s) {rest : List Worker}
    (hmain : s.main = .shuttingSlot index client rest) :
    Sound { s with
      main := .shuttingDown rest
      descriptors := s.descriptors.touch client (.shutdown index) } where
  queueMutex := h.queueMutex.congr fun other => by
    cases other <;> simp [Server.InQueueSection, hmain]
  activeMutex := h.activeMutex.congr fun other => by
    cases other <;> simp [Server.InActiveSection, hmain]
  slots := h.slots
  found := by simp
  stopping := by simpa [hmain, MainStage.isStopping] using h.stopping
  cleared := fun _ => h.cleared (by rw [hmain]; rfl)
  joined := by simp
  nodup := by simpa [Server.queued, MainStage.queued, hmain] using h.nodup
  custody := by
    refine h.custody_slot (h.found hmain) ?_ (by simp [hmain]) (by simp)
      (by simp [Server.queued, MainStage.queued, hmain]) fun worker hworker => ?_
    · simp [hmain, MainStage.slotPhase, MainStage.finds, Phase.next]
    · simp [hmain, MainStage.finds, hworker.symm]

/-! ## A worker -/

namespace Server

theorem inQueueSection_setWorker (holder : Holder) :
    (s.setWorker index stage).InQueueSection holder ↔
      holder = .worker index ∧ (∃ client, stage = .popped client) ∨
        holder ≠ .worker index ∧ s.InQueueSection holder := by
  cases holder with
  | main => simp [InQueueSection, setWorker]
  | worker worker =>
      by_cases hworker : worker = index
      · subst hworker
        simp [InQueueSection, workers_setWorker_self]
      · simp [InQueueSection, workers_setWorker_of_ne hworker, hworker]

theorem inActiveSection_setWorker (holder : Holder) :
    (s.setWorker index stage).InActiveSection holder ↔
      holder = .worker index ∧ (∃ client, stage = .closing client) ∨
        holder ≠ .worker index ∧ s.InActiveSection holder := by
  cases holder with
  | main => simp [InActiveSection, setWorker]
  | worker worker =>
      by_cases hworker : worker = index
      · subst hworker
        simp [InActiveSection, workers_setWorker_self]
      · simp [InActiveSection, workers_setWorker_of_ne hworker, hworker]

end Server

namespace Controlled

/-- The worker is not in the section, before and after. -/
theorem queueMutex_setWorker (h : Controlled s) (hbefore : ∀ client, s.workers index ≠ .popped client)
    (hafter : ∀ client, stage ≠ .popped client) :
    Guards s.requestQueueMutex (s.setWorker index stage).InQueueSection :=
  h.queueMutex.apart Server.inQueueSection_setWorker (not_exists.mpr hbefore)
    (not_exists.mpr hafter)

theorem activeMutex_setWorker (h : Controlled s)
    (hbefore : ∀ client, s.workers index ≠ .closing client)
    (hafter : ∀ client, stage ≠ .closing client) :
    Guards s.activeClientsMutex (s.setWorker index stage).InActiveSection :=
  h.activeMutex.apart Server.inActiveSection_setWorker (not_exists.mpr hbefore)
    (not_exists.mpr hafter)

theorem slots_update (h : Controlled s) (index : Worker) (stage : WorkerStage)
    (worker : Worker) :
    Function.update s.activeClients index stage.slot? worker =
      ((s.setWorker index stage).workers worker).slot? := by
  by_cases hworker : worker = index
  · subst hworker
    rw [Function.update_self, Server.workers_setWorker_self]
  · rw [Function.update_of_ne hworker, Server.workers_setWorker_of_ne hworker, h.slots]

theorem slots_setWorker (h : Controlled s) (hslot : stage.slot? = (s.workers index).slot?)
    (worker : Worker) :
    s.activeClients worker = ((s.setWorker index stage).workers worker).slot? := by
  rw [← h.slots_update, hslot, ← h.slots, Function.update_eq_self]

/-- While the mutex of the slots is free, nobody is looking at one. -/
theorem not_shuttingSlot (h : Controlled s) (hmutex : s.activeClientsMutex = none)
    (worker : Worker) (client : ℕ) (rest : List Worker) :
    s.main ≠ .shuttingSlot worker client rest := by
  intro hmain
  exact (hmutex ▸ h.activeMutex).outside .main (Or.inr ⟨worker, client, rest, hmain⟩)

theorem finds_eq_false (h : Controlled s) (hmutex : s.activeClientsMutex = none)
    (worker : Worker) : s.main.finds worker = false := by
  cases hmain : s.main with
  | shuttingSlot index client rest => exact absurd hmain (h.not_shuttingSlot hmutex _ _ _)
  | _ => rfl

/-- The accept loop still runs. -/
theorem queued_eq (h : Controlled s) (hstopping : s.requestQueueStopping = false)
    (queue : List ℕ) : s.main.queued queue = queue := by
  rcases MainStage.loop_cases (h.stopping.symm.trans hstopping) with hmain | ⟨_, hmain⟩ <;>
    rw [hmain] <;> rfl

theorem not_joined (h : Controlled s) (index : Worker) (hstage : s.workers index ≠ .returned) :
    s.main ≠ .joined :=
  fun hjoined => hstage (h.joined hjoined index)

end Controlled

theorem Sound.pop (h : Sound s) {rest : List ℕ} (hstage : s.workers index = .waiting)
    (hmutex : s.requestQueueMutex = none) (hstopping : s.requestQueueStopping = false)
    (hqueue : s.requestQueue = client :: rest) :
    Sound (Server.setWorker index (.popped client) { s with
      requestQueue := rest, requestQueueMutex := some (.worker index) }) where
  queueMutex := (hmutex ▸ h.queueMutex).enter Server.inQueueSection_setWorker ⟨client, rfl⟩
  activeMutex := h.activeMutex_setWorker (by simp [hstage]) (by simp)
  slots := h.slots_setWorker (by rw [hstage]; rfl)
  found := h.found
  stopping := h.stopping
  cleared := by
    intro hcleared
    rw [h.cleared hcleared] at hqueue
    cases hqueue
  joined := fun hjoined => (h.not_joined index (by simp [hstage]) hjoined).elim
  nodup := by
    have hnodup : (client :: rest).Nodup := by
      rw [← hqueue, ← h.queued_eq hstopping s.requestQueue]
      exact h.nodup
    change (s.main.queued rest).Nodup
    rw [h.queued_eq hstopping]
    exact (List.nodup_cons.mp hnodup).2
  custody := by
    have hqueued : s.queued = client :: rest := (h.queued_eq hstopping _).trans hqueue
    have hnew : client ∉ rest := (List.nodup_cons.mp (hqueued ▸ h.nodup)).1
    have hold : s.Holds .queue client .waiting := ⟨by simp [hqueued], rfl⟩
    refine h.custody.move hold (nofun : Place.worker index ≠ .queue) (fun n now => ?_)
      (fun n now => ?_) fun other hworker hother n now => ?_
    · refine Server.holds_setWorker_self.trans ?_
      simp only [WorkerStage.custody?, Option.some.injEq, Prod.mk.injEq, Server.Holds, hstage,
        reduceCtorEq, or_false]
      tauto
    · change n ∈ s.main.queued rest ∧ _ ↔ n ≠ client ∧ n ∈ s.queued ∧ _
      rw [h.queued_eq hstopping, hqueued]
      exact mem_rest_iff hnew
    · refine (Server.holds_setWorker_of_ne hworker n now).trans ?_
      cases other with
      | main => exact Iff.rfl
      | queue => exact absurd rfl hother
      | worker worker => exact Iff.rfl

theorem Sound.store (h : Sound s) (hstage : s.workers index = .popped client)
    (hmutex : s.activeClientsMutex = none) :
    Sound (Server.setWorker index (.handling client (.reading [])) { s with
      activeClients := Function.update s.activeClients index (some client)
      requestQueueMutex := none
      descriptors := s.descriptors.touch client (.began index) }) where
  queueMutex := h.queueMutex.leave Server.inQueueSection_setWorker ⟨client, hstage⟩ (by simp)
  activeMutex := h.activeMutex_setWorker (by simp [hstage]) (by simp)
  slots := h.slots_update index (.handling client (.reading []))
  found := fun hmain => absurd hmain (h.not_shuttingSlot hmutex _ _ _)
  stopping := h.stopping
  cleared := h.cleared
  joined := fun hjoined => (h.not_joined index (by simp [hstage]) hjoined).elim
  nodup := h.nodup
  custody := by
    have hold : s.Holds (.worker index) client .waiting := by simp [Server.Holds, hstage,
      WorkerStage.custody?]
    refine h.custody.touch hold rfl (fun n now => ?_) fun other hother =>
      Server.holds_setWorker_of_ne hother
    refine Server.holds_setWorker_self.trans ?_
    simp only [WorkerStage.custody?, h.finds_eq_false hmutex, Server.Holds, hstage,
      Option.some.injEq, Prod.mk.injEq, Bool.false_eq_true, if_false]
    tauto

theorem Sound.leave (h : Sound s) (hstage : s.workers index = .waiting) :
    Sound (s.setWorker index .returned) where
  queueMutex := h.queueMutex_setWorker (by simp [hstage]) (by simp)
  activeMutex := h.activeMutex_setWorker (by simp [hstage]) (by simp)
  slots := h.slots_setWorker (by rw [hstage]; rfl)
  found := h.found
  stopping := h.stopping
  cleared := h.cleared
  joined := fun hjoined => (h.not_joined index (by simp [hstage]) hjoined).elim
  nodup := h.nodup
  custody := h.custody.congr fun place n now => by
    by_cases hplace : place = .worker index
    · subst hplace
      rw [Server.holds_setWorker_self]
      simp [WorkerStage.custody?, Server.Holds, hstage]
    · exact Server.holds_setWorker_of_ne hplace n now

theorem WorkerStage.outside_of_slot? (h : stage.slot? = some client) :
    (∀ other, stage ≠ .popped other) ∧ (∀ other, stage ≠ .closing other) ∧ stage ≠ .returned := by
  cases stage with
  | handling other handler => simp
  | finishing other => simp
  | _ => cases h

/-- The handler goes on, or gives up. -/
theorem Sound.handler (h : Sound s) (hstage : (s.workers index).slot? = some client)
    (hafter : stage.slot? = some client) : Sound (s.setWorker index stage) where
  queueMutex := h.queueMutex_setWorker (WorkerStage.outside_of_slot? hstage).1
    (WorkerStage.outside_of_slot? hafter).1
  activeMutex := h.activeMutex_setWorker (WorkerStage.outside_of_slot? hstage).2.1
    (WorkerStage.outside_of_slot? hafter).2.1
  slots := h.slots_setWorker (hafter.trans hstage.symm)
  found := h.found
  stopping := h.stopping
  cleared := h.cleared
  joined := fun hjoined =>
    (h.not_joined index (WorkerStage.outside_of_slot? hstage).2.2 hjoined).elim
  nodup := h.nodup
  custody := h.custody.congr fun place n now => by
    by_cases hplace : place = .worker index
    · subst hplace
      rw [Server.holds_setWorker_self, WorkerStage.custody?_of_slot? hafter]
      rw [Server.Holds, WorkerStage.custody?_of_slot? hstage]
    · exact Server.holds_setWorker_of_ne hplace n now

theorem Sound.used (h : Sound s) (hstage : (s.workers index).slot? = some client) :
    Sound { s with descriptors := s.descriptors.touch client (.used index) } where
  toControlled := { h with }
  nodup := h.nodup
  custody := by
    refine h.custody.touchSame (h.holds_of_slot ((h.slots index).trans hstage)) ?_
    unfold MainStage.slotPhase
    split
    · exact if_pos rfl
    · exact if_pos rfl

theorem Sound.finish (h : Sound s) (hstage : s.workers index = .finishing client)
    (hmutex : s.activeClientsMutex = none) :
    Sound (Server.setWorker index (.closing client) { s with
      activeClients := Server.clearSlot client s.activeClients
      activeClientsMutex := some (.worker index)
      descriptors := s.descriptors.touch client (.finished index) }) where
  queueMutex := h.queueMutex_setWorker (by simp [hstage]) (by simp)
  activeMutex := (hmutex ▸ h.activeMutex).enter Server.inActiveSection_setWorker ⟨client, rfl⟩
  slots := by
    have hslot : s.activeClients index = some client := by
      rw [h.slots, hstage]
      rfl
    have honly (other : Worker) (hother : s.activeClients other = some client) :
        other = index := by
      cases (h.custody.one (h.holds_of_slot hother) (h.holds_of_slot hslot)).1
      rfl
    change ∀ other, Server.clearSlot client s.activeClients other = _
    rw [Server.clearSlot_eq hslot honly]
    exact h.slots_update index (.closing client)
  found := fun hmain => absurd hmain (h.not_shuttingSlot hmutex _ _ _)
  stopping := h.stopping
  cleared := h.cleared
  joined := fun hjoined => (h.not_joined index (by simp [hstage]) hjoined).elim
  nodup := h.nodup
  custody := by
    have hold : s.Holds (.worker index) client (.handled index) := by
      simp [Server.Holds, hstage, WorkerStage.custody?, h.finds_eq_false hmutex]
    have hnext : Phase.next (.finished index) (.handled index) = some (.finished index) :=
      if_pos rfl
    refine h.custody.touch hold hnext (fun n now => ?_) fun other hother =>
      Server.holds_setWorker_of_ne hother
    refine Server.holds_setWorker_self.trans ?_
    simp only [WorkerStage.custody?, h.finds_eq_false hmutex, Server.Holds, hstage,
      Option.some.injEq, Prod.mk.injEq, Bool.false_eq_true, if_false]
    tauto

theorem Sound.close (h : Sound s) (hstage : s.workers index = .closing client) :
    Sound (Server.setWorker index .waiting { s with
      activeClientsMutex := none
      descriptors := s.descriptors.release client (.closed (.finishClient index)) }) where
  queueMutex := h.queueMutex_setWorker (by simp [hstage]) (by simp)
  activeMutex := h.activeMutex.leave Server.inActiveSection_setWorker ⟨client, hstage⟩ (by simp)
  slots := h.slots_setWorker (by rw [hstage]; rfl)
  found := h.found
  stopping := h.stopping
  cleared := h.cleared
  joined := fun hjoined => (h.not_joined index (by simp [hstage]) hjoined).elim
  nodup := h.nodup
  custody := by
    have hold : s.Holds (.worker index) client (.finished index) := by
      simp [Server.Holds, hstage, WorkerStage.custody?]
    have hnext : Phase.next (.closed (.finishClient index)) (.finished index) = some .closed :=
      if_pos rfl
    refine h.custody.release hold hnext (fun n now => ?_) fun other hother =>
      Server.holds_setWorker_of_ne hother
    refine Server.holds_setWorker_self.trans ?_
    simp only [WorkerStage.custody?, Server.Holds, hstage, Option.some.injEq, Prod.mk.injEq,
      reduceCtorEq, false_iff]
    tauto

/-! ## Every step -/

theorem Sound.stepMain (h : Sound s) {event : MainEvent} (hstep : s.stepMain event = some s') :
    Sound s' := by
  cases event with
  | accept client =>
      simp only [Server.stepMain] at hstep
      split at hstep
      case h_2 => cases hstep
      rename_i hmain
      split at hstep
      case isFalse => cases hstep
      rename_i hfree
      cases hstep
      exact h.accept hmain hfree
  | enqueue =>
      simp only [Server.stepMain] at hstep
      split at hstep
      case h_2 => cases hstep
      rename_i hmain hmutex
      split at hstep
      · cases hstep
        exact h.overflow hmain
      · cases hstep
        exact h.push hmain
  | stop =>
      simp only [Server.stepMain] at hstep
      split at hstep
      case h_2 => cases hstep
      rename_i hmain hmutex
      cases hstep
      exact h.stop hmain hmutex
  | closeQueued =>
      simp only [Server.stepMain] at hstep
      split at hstep
      case h_2 => cases hstep
      rename_i hmain
      cases hstep
      exact h.closeQueued hmain
  | clearQueue =>
      simp only [Server.stepMain] at hstep
      split at hstep
      case h_2 => cases hstep
      rename_i hmain
      cases hstep
      exact h.clearQueue hmain
  | beginShutdown =>
      simp only [Server.stepMain] at hstep
      split at hstep
      case h_2 => cases hstep
      rename_i hmain hmutex
      cases hstep
      exact h.beginShutdown hmain hmutex
  | loadSlot =>
      simp only [Server.stepMain] at hstep
      split at hstep
      case h_2 => cases hstep
      rename_i hmain
      split at hstep
      · rename_i hslot
        cases hstep
        exact h.loadSlot hmain hslot
      · cases hstep
        exact h.passSlot hmain
  | shutdownSlot =>
      simp only [Server.stepMain] at hstep
      split at hstep
      case h_2 => cases hstep
      rename_i hmain
      cases hstep
      exact h.shutdownSlot hmain
  | endShutdown =>
      simp only [Server.stepMain] at hstep
      split at hstep
      case h_2 => cases hstep
      rename_i hmain
      cases hstep
      exact h.endShutdown hmain
  | join =>
      simp only [Server.stepMain] at hstep
      split at hstep
      case h_2 => cases hstep
      rename_i hmain
      split at hstep
      case isFalse => cases hstep
      rename_i hreturned
      cases hstep
      exact h.join hmain hreturned

theorem Sound.stepWorker (h : Sound s) {event : WorkerEvent}
    (hstep : s.stepWorker index event = some s') : Sound s' := by
  cases event with
  | pop =>
      simp only [Server.stepWorker] at hstep
      split at hstep
      case h_2 => cases hstep
      rename_i hstage hmutex hstopping hqueue
      cases hstep
      exact h.pop hstage hmutex hstopping hqueue
  | store =>
      simp only [Server.stepWorker] at hstep
      split at hstep
      case h_2 => cases hstep
      rename_i hstage hmutex
      cases hstep
      exact h.store hstage hmutex
  | leave =>
      simp only [Server.stepWorker] at hstep
      split at hstep
      case h_2 => cases hstep
      rename_i hstage hmutex hstopping
      cases hstep
      exact h.leave hstage
  | receive received =>
      simp only [Server.stepWorker] at hstep
      split at hstep
      case h_2 => cases hstep
      rename_i client request hstage
      split at hstep
      case isFalse => cases hstep
      cases hstep
      have hslot : (s.workers index).slot? = some client := by rw [hstage]; rfl
      refine (h.used hslot).handler hslot ?_
      cases received <;> rfl
  | refuse =>
      simp only [Server.stepWorker] at hstep
      split at hstep
      case h_2 => cases hstep
      rename_i client request hstage
      split at hstep
      case isFalse => cases hstep
      cases hstep
      have hslot : (s.workers index).slot? = some client := by rw [hstage]; rfl
      exact h.handler hslot rfl
  | dispatch =>
      simp only [Server.stepWorker] at hstep
      split at hstep
      case h_2 => cases hstep
      rename_i client request hstage
      split at hstep
      case h_2 => cases hstep
      cases hstep
      have hslot : (s.workers index).slot? = some client := by rw [hstage]; rfl
      exact h.handler hslot rfl
  | send =>
      simp only [Server.stepWorker] at hstep
      split at hstep
      case h_2 => cases hstep
      rename_i client hstage
      cases hstep
      have hslot : (s.workers index).slot? = some client := by rw [hstage]; rfl
      exact h.used hslot
  | answered =>
      simp only [Server.stepWorker] at hstep
      split at hstep
      case h_2 => cases hstep
      rename_i client hstage
      cases hstep
      have hslot : (s.workers index).slot? = some client := by rw [hstage]; rfl
      exact h.handler hslot rfl
  | finish =>
      simp only [Server.stepWorker] at hstep
      split at hstep
      case h_2 => cases hstep
      rename_i hstage hmutex
      cases hstep
      exact h.finish hstage hmutex
  | close =>
      simp only [Server.stepWorker] at hstep
      split at hstep
      case h_2 => cases hstep
      rename_i hstage
      cases hstep
      exact h.close hstage

/-- What the rest of the process does to its own descriptors. -/
theorem Sound.strangers (h : Sound s) {number : ℕ} {owner : Option Owner}
    (hbefore : ∀ id, s.descriptors.held number ≠ some (.ours id))
    (hafter : ∀ id, owner ≠ some (.ours id)) :
    Sound { s with descriptors := s.descriptors.strangers number owner } where
  toControlled := { h with }
  nodup := h.nodup
  custody := h.custody.strangers hbefore hafter

theorem Sound.step (h : Sound s) {event : Event} (hstep : Server.step event s = some s') :
    Sound s' := by
  cases event with
  | main event => exact h.stepMain hstep
  | worker index event => exact h.stepWorker hstep
  | otherOpens number =>
      simp only [Server.step] at hstep
      split at hstep
      case isFalse => cases hstep
      rename_i hfree
      cases hstep
      exact h.strangers (by simp [hfree]) (by simp)
  | otherCloses number =>
      simp only [Server.step] at hstep
      split at hstep
      case isFalse => cases hstep
      rename_i hother
      cases hstep
      exact h.strangers (by simp [hother]) (by simp)

theorem sound_run {events : List Event} (h : Sound s) (hrun : Server.run events s = some s') :
    Sound s' :=
  Machine.run_invariant Sound (fun _ _ _ hs hstep => hs.step hstep) h hrun

end Connections
end Bridge
end Aa2acp
