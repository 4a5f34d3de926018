import Aa2acp.Lib.LengthPrefix
import Aa2acp.Lib.Machine

/-!
# Frames between the daemon and the CarPlay worker

`FrameSocketWriter` and `FrameSocketReceiver` of `src/bridge/carplay_ipc.cpp`: the bounded
queue that producers fill, the writer thread that sends its frames over a UNIX stream
socket and connects again after a failure, and the receiver thread that reads one
connection after the other.  A step of the system is a critical section or a system call
of one of the threads; the outcome of a call is part of the step, so a run is any order of
steps with any failures.  A connection is the string of the bytes written into it, of
which the receiver reads a prefix.  `sent` and `delivered` are histories: the frames for
which `send` returned true, and the arguments of `callback_`.
-/

namespace Aa2acp
namespace Bridge

open LengthPrefix

namespace FrameIpc

def kMaximumFrameSize : ℕ := 4 * 1024 * 1024
def kMaximumQueuedFrames : ℕ := 256
def kMaximumQueuedBytes : ℕ := 16 * 1024 * 1024

/-! ## The queue -/

structure FrameQueue where
  frames : List Bytes := []
  queuedBytes : ℕ := 0
deriving DecidableEq, Repr

namespace FrameQueue

/-- There is room for another frame. -/
def HasRoom (frame : Bytes) (queue : FrameQueue) : Prop :=
  queue.frames.length < kMaximumQueuedFrames ∧
    queue.queuedBytes + frame.length ≤ kMaximumQueuedBytes

instance (frame : Bytes) (queue : FrameQueue) : Decidable (queue.HasRoom frame) :=
  inferInstanceAs (Decidable (_ ∧ _))

/-- `FrameSocketWriter::send`. -/
def send (frame : Bytes) (queue : FrameQueue) : Bool × FrameQueue :=
  if frame = [] ∨ frame.length > kMaximumFrameSize ∨ frame.length > kMaximumQueuedBytes then
    (false, queue)
  else if queue.frames.length ≥ kMaximumQueuedFrames ∨
      queue.queuedBytes + frame.length > kMaximumQueuedBytes then (false, queue)
  else (true, ⟨queue.frames ++ [frame], queue.queuedBytes + frame.length⟩)

/-- The frame that the writer thread takes out. -/
def take (queue : FrameQueue) : Option (Bytes × FrameQueue) :=
  match queue.frames with
  | [] => none
  | frame :: frames => some (frame, ⟨frames, queue.queuedBytes - frame.length⟩)

/-- A frame that could not be sent goes back to the front, unless newer ones filled the
queue in the meantime. -/
def requeue (frame : Bytes) (queue : FrameQueue) : FrameQueue :=
  if queue.HasRoom frame then ⟨frame :: queue.frames, queue.queuedBytes + frame.length⟩
  else queue

end FrameQueue

/-! ## The threads -/

/-- Where `FrameSocketWriter::write` stands; `rest` is what `send_all` has yet to send. -/
inductive WriterStage where
  | waiting
  | connecting (frame : Bytes)
  | sendingHeader (frame rest : Bytes)
  | sendingFrame (frame rest : Bytes)
  | failed (frame : Bytes)
  | stopped
deriving DecidableEq, Repr

/-- Where the inner loop of `FrameSocketReceiver::receive` stands. -/
inductive ClientStage where
  | header (got : Bytes)
  | frame (size : ℕ) (got : Bytes)
deriving DecidableEq, Repr

/-- What is asked of `recv`. -/
def ClientStage.missing : ClientStage → ℕ
  | .header got => 4 - got.length
  | .frame size got => size - got.length

/-- The connection that is read, and how much of it has been read. -/
structure Client where
  index : ℕ
  consumed : ℕ := 0
  stage : ClientStage := .header []
deriving DecidableEq, Repr

structure IpcState where
  queue : FrameQueue := {}
  stage : WriterStage := .waiting
  /-- `socket_fd` of the writer is open; it is the connection made last. -/
  connected : Bool := false
  stopping : Bool := false
  /-- The bytes written into each connection, in the order of the connections. -/
  streams : List Bytes := []
  /-- How many connections the receiver has accepted. -/
  accepted : ℕ := 0
  client : Option Client := none
  sent : List Bytes := []
  delivered : List Bytes := []
deriving DecidableEq, Repr

/-- What became of `connect_unix`.  A connection that it gives up while it is being made
can still be accepted. -/
inductive ConnectOutcome where
  | established
  | refused
  | abandoned
deriving DecidableEq, Repr

inductive IpcEvent where
  /-- A producer calls `send`. -/
  | send (frame : Bytes)
  /-- The writer takes a frame. -/
  | take
  | connect (outcome : ConnectOutcome)
  /-- `send` accepts the next `count` bytes. -/
  | transmit (count : ℕ)
  /-- `send_all` returns false. -/
  | lose
  | requeue
  | stop
  /-- The writer leaves its loop. -/
  | exit
  | accept
  /-- `recv` returns up to `count` of the next bytes. -/
  | receive (count : ℕ)
  /-- `receive_all` returns false. -/
  | abandon
deriving DecidableEq, Repr

namespace IpcState

def stream (s : IpcState) (index : ℕ) : Bytes := s.streams.getD index []

/-- Bytes written into the connection made last. -/
def write (bytes : Bytes) (s : IpcState) : IpcState :=
  { s with streams := s.streams.modify (s.streams.length - 1) (· ++ bytes) }

def connect : ConnectOutcome → Bytes → IpcState → IpcState
  | .established, frame, s =>
      { s with
        streams := s.streams ++ [[]]
        connected := true
        stage := .sendingHeader frame (bigEndian 4 frame.length) }
  | .refused, frame, s => { s with stage := .failed frame }
  | .abandoned, frame, s => { s with streams := s.streams ++ [[]], stage := .failed frame }

/-- `send_all` goes on to the frame after the header, and is done after the frame. -/
def transmit (count : ℕ) (s : IpcState) : Option IpcState :=
  match s.stage with
  | .sendingHeader frame rest =>
      if 0 < count ∧ count ≤ rest.length then
        some { s.write (rest.take count) with
          stage := if rest.drop count = [] then .sendingFrame frame frame
            else .sendingHeader frame (rest.drop count) }
      else none
  | .sendingFrame frame rest =>
      if 0 < count ∧ count ≤ rest.length then
        some { s.write (rest.take count) with
          stage := if rest.drop count = [] then .waiting
            else .sendingFrame frame (rest.drop count) }
      else none
  | _ => none

/-- The receiver after these bytes. -/
def received (bytes : Bytes) (client : Client) (s : IpcState) : IpcState :=
  let consumed := client.consumed + bytes.length
  match client.stage with
  | .header got =>
      let got := got ++ bytes
      if got.length < 4 then
        { s with client := some { client with consumed := consumed, stage := .header got } }
      else
        let size := ofBigEndian got
        if size = 0 ∨ size > kMaximumFrameSize then { s with client := none }
        else
          { s with client := some { client with consumed := consumed, stage := .frame size [] } }
  | .frame size got =>
      let got := got ++ bytes
      if got.length < size then
        { s with client := some { client with consumed := consumed, stage := .frame size got } }
      else
        { s with
          client := some { client with consumed := consumed, stage := .header [] }
          delivered := s.delivered ++ [got] }

def receive (count : ℕ) (s : IpcState) : Option IpcState :=
  match s.client with
  | none => none
  | some client =>
      let bytes := ((s.stream client.index).drop client.consumed).take
        (min count client.stage.missing)
      if bytes = [] then none else some (s.received bytes client)

def step : IpcEvent → IpcState → Option IpcState
  | .send frame, s =>
      let (accepted, queue) := s.queue.send frame
      some { s with queue := queue, sent := if accepted then s.sent ++ [frame] else s.sent }
  | .take, s =>
      match s.stage, s.queue.take with
      | .waiting, some (frame, queue) =>
          some { s with
            queue := queue
            stage := if s.connected then .sendingHeader frame (bigEndian 4 frame.length)
              else .connecting frame }
      | _, _ => none
  | .connect outcome, s =>
      match s.stage with
      | .connecting frame => some (s.connect outcome frame)
      | _ => none
  | .transmit count, s => s.transmit count
  | .lose, s =>
      match s.stage with
      | .sendingHeader frame _ | .sendingFrame frame _ =>
          some { s with connected := false, stage := .failed frame }
      | _ => none
  | .requeue, s =>
      match s.stage with
      | .failed frame =>
          some { s with
            queue := if s.stopping then s.queue else s.queue.requeue frame
            stage := .waiting }
      | _ => none
  | .stop, s => some { s with stopping := true }
  | .exit, s =>
      match s.stage, s.stopping with
      | .waiting, true => some { s with connected := false, stage := .stopped }
      | _, _ => none
  | .accept, s =>
      match s.client with
      | none =>
          if s.accepted < s.streams.length then
            some { s with client := some { index := s.accepted }, accepted := s.accepted + 1 }
          else none
      | some _ => none
  | .receive count, s => s.receive count
  | .abandon, s =>
      match s.client with
      | some _ => some { s with client := none }
      | none => none

/-- The steps of a run, in order; `none` when one of them is not possible. -/
def run : List IpcEvent → IpcState → Option IpcState := Machine.run step

end IpcState

end FrameIpc
end Bridge
end Aa2acp
