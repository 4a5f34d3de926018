import Aa2acp.Bridge.WorkerArguments
import Aa2acp.Lib.LittleEndian
import Aa2acp.Lib.Machine

/-!
# The daemon and its CarPlay worker

`CarPlayWorker` (`src/bridge/carplay_worker.cpp`): the daemon asks its worker process for one
session after the other (`run`), may stop the session that it waits for, and passes the
pairing confirmations of the user on.  The worker process reads its messages in one thread and
has every session in a thread of its own, which announces confirmations and the result.  Both
processes go their own ways; each direction of the connection keeps the order of its messages.

Sessions are numbered by the calls of `run`.  The numbers in the messages and the last fields
of `State` are histories, which nothing reads.
-/

namespace Aa2acp
namespace Bridge
namespace CarPlayWorker

/-! ## The messages -/

/-- A message to the worker process. -/
inductive Request where
  | run (number : ℕ) (arguments : List Bytes)
  | stop
  | answer (confirmation : Bytes) (confirmed : Bool)
deriving DecidableEq, Repr

def Request.bytes : Request → Bytes
  | .run _ arguments => marshal arguments
  | .stop => [0x02]
  | .answer confirmation confirmed =>
      0x04 :: confirmation ++ [if confirmed then 0x01 else 0x00]

/-- The session that the message asks for. -/
def Request.number? : Request → Option ℕ
  | .run number _ => some number
  | .stop => none
  | .answer _ _ => none

def Request.answer? : Request → Option (Bytes × Bool)
  | .run _ _ => none
  | .stop => none
  | .answer confirmation confirmed => some (confirmation, confirmed)

/-- A message to the daemon. -/
inductive Reply where
  | confirmation (message : Bytes)
  | result (value : ℤ)
deriving DecidableEq, Repr

/-- The bytes of an `int` are those of its two's complement. -/
def Reply.bytes : Reply → Bytes
  | .confirmation message => 0x03 :: message
  | .result value => 0x02 :: littleEndian 4 (value % 2 ^ 32).toNat

/-- The `int` with these bytes. -/
def intOf (bytes : Bytes) : ℤ :=
  if ofLittleEndian bytes < 2 ^ 31 then ofLittleEndian bytes else ofLittleEndian bytes - 2 ^ 32

/-- A message from the worker process, as `run` reads it; `none` when it is neither a
confirmation nor a result. -/
def readReply (message : Bytes) : Option Reply :=
  if message.getD 0 0 = 0x03 ∧ message.length = 1 + 32 then some (.confirmation (message.drop 1))
  else if message.length = 1 + 4 ∧ message.getD 0 0 = 0x02 then some (.result (intOf (message.drop 1)))
  else none

/-! ## The two processes -/

/-- A call of `run`, if there is one: it has sent its request and waits. -/
inductive Stage where
  | idle
  | running (number : ℕ) (stopping : Bool)
deriving DecidableEq, Repr

/-- A thread with a session. -/
structure Session where
  number : ℕ
  arguments : List Bytes
deriving DecidableEq, Repr

structure State where
  stage : Stage := .idle
  /-- What the worker process has not received yet. -/
  requests : List Request := []
  /-- What the daemon has not received yet, and from which session it is. -/
  replies : List (ℕ × Reply) := []
  alive : Bool := true
  /-- The array `request` of the worker process. -/
  buffer : Bytes := List.replicate 8192 0
  stopRequested : Bool := false
  sessions : List Session := []
  /-- The arguments of all calls. -/
  calls : List (List Bytes) := []
  /-- What the calls have returned. -/
  returned : List ℤ := []
  started : List Session := []
  finished : List (ℕ × ℤ) := []
  /-- The confirmations that the sessions announced, and those that came up in the daemon,
  with the session for which they did. -/
  announced : List (ℕ × Bytes) := []
  shown : List (ℕ × Bytes) := []
  /-- The answers that the daemon sent, and those that came up in the worker process. -/
  answered : List (Bytes × Bool) := []
  given : List (Bytes × Bool) := []
deriving DecidableEq, Repr

inductive Event where
  /-- `run` is called; `accepted` is whether the message can be sent. -/
  | call (arguments : List Bytes) (accepted : Bool)
  /-- `run` sees that it is to stop, or that the phone is gone. -/
  | stop
  /-- `answer_pairing_confirmation`. -/
  | answer (confirmation : Bytes) (confirmed : Bool)
  /-- The worker process receives a message. -/
  | take
  /-- A session sends a confirmation. -/
  | confirm (number : ℕ) (confirmation : Bytes)
  /-- `run_bluetooth_worker` returns, and the thread sends its result. -/
  | finish (number : ℕ) (result : ℤ)
  /-- The worker process ends or is killed. -/
  | exit
  /-- `run` receives a message. -/
  | receive
  /-- `run` sees that the connection is lost. -/
  | lose
deriving DecidableEq, Repr

namespace State

/-- `send` of the daemon; nothing gets to a process that is gone. -/
def send (request : Request) (s : State) : State :=
  if s.alive then { s with requests := s.requests ++ [request] } else s

/-- What the worker process does with a message; `number` is that of the request. -/
def serve (number : ℕ) (s : State) : WorkerCommand → State
  | .stop => { s with stopRequested := true }
  | .answer confirmation confirmed => { s with given := s.given ++ [(confirmation, confirmed)] }
  | .ignored => s
  | .run arguments =>
      { s with
        stopRequested := false
        sessions := s.sessions ++ [⟨number, arguments⟩]
        started := s.started ++ [⟨number, arguments⟩] }

/-- A call returns. -/
def returns (result : ℤ) (s : State) : State :=
  { s with stage := .idle, returned := s.returned ++ [result] }

/-- What `run` does with a message. -/
def read (number : ℕ) (s : State) : Option Reply → State
  | some (.confirmation message) => { s with shown := s.shown ++ [(number, message)] }
  | some (.result result) => s.returns result
  | none => s.returns 1

def hasSession (number : ℕ) (s : State) : Bool := s.sessions.any (·.number = number)

end State

def step : Event → State → Option State
  | .call arguments accepted, s =>
      -- `mutex_` lets one call in at a time
      if s.stage = .idle ∧ (accepted → s.alive) then
        match (startRequest true accepted arguments).result with
        | some result => some ({ s with calls := s.calls ++ [arguments] }.returns result)
        | none =>
            some { s with
              stage := .running s.calls.length false
              requests := s.requests ++ [.run s.calls.length arguments]
              calls := s.calls ++ [arguments] }
      else none
  | .stop, s =>
      match s.stage with
      | .running number false => some { s.send .stop with stage := .running number true }
      | _ => none
  | .answer confirmation confirmed, s =>
      if s.alive ∧ confirmation.length = 32 then
        some { s.send (.answer confirmation confirmed) with
          answered := s.answered ++ [(confirmation, confirmed)] }
      else none
  | .take, s =>
      match s.requests with
      | [] => none
      | request :: requests =>
          let buffer := received request.bytes s.buffer
          some ({ s with requests, buffer }.serve (request.number?.getD 0)
            (readRequest buffer request.bytes.length))
  | .confirm number confirmation, s =>
      if s.hasSession number ∧ confirmation.length = 32 then
        some { s with
          replies := s.replies ++ [(number, .confirmation confirmation)]
          announced := s.announced ++ [(number, confirmation)] }
      else none
  | .finish number result, s =>
      if s.hasSession number ∧ -2 ^ 31 ≤ result ∧ result < 2 ^ 31 then
        some { s with
          sessions := s.sessions.filter (·.number ≠ number)
          replies := s.replies ++ [(number, .result result)]
          finished := s.finished ++ [(number, result)] }
      else none
  | .exit, s =>
      if s.alive then some { s with alive := false, requests := [], sessions := [] } else none
  | .receive, s =>
      match s.stage, s.replies with
      | .running number _, reply :: replies =>
          some ({ s with replies }.read number (readReply reply.2.bytes))
      | _, _ => none
  | .lose, s =>
      match s.stage with
      | .running _ _ => if s.alive then none else some (s.returns 1)
      | .idle => none

def run : List Event → State → Option State := Machine.run step

end CarPlayWorker
end Bridge
end Aa2acp
