import Aa2acp.Lib.LengthPrefix
import Aa2acp.Lib.Machine

/-!
# Media forwarders

`VideoSocketForwarder` and `AudioSocketForwarder` of `src/bridge/media_forwarders.cpp`,
and the `next` of their readers in `src/iap2_bt_main.cpp`.  A producer pushes access units
or PCM packets into a bounded queue; the worker accepts one client after the other and
sends it the queued frames, each with its size in front.  A step of the system is a
critical section under `mutex_` or a call of `send_frame`; what came of the call is part
of the step, so a run is any order of steps with any failures.  The capture of H.264 into
a file and the logs are left out, they do not touch the queue.

`Frame.number` and `Forwarder.pushed` are histories: the position of a frame in the order
in which frames were pushed.  The code never sees them.
-/

namespace Aa2acp
namespace Bridge
namespace MediaForwarders

open LengthPrefix

inductive MediaKind where
  | video
  | audio
deriving DecidableEq, Repr

def kMaximumQueuedFrames : ℕ := 600
def kMaximumQueuedBytes : ℕ := 16 * 1024 * 1024

/-- `maximum_queued_frames_`. -/
def MediaKind.maximumQueuedFrames : MediaKind → ℕ
  | .video => kMaximumQueuedFrames
  | .audio => 100

/-! ## NAL units -/

/-- The length of the start code that a string begins with, 0 if it begins with none. -/
def startCode : Bytes → ℕ
  | 0 :: 0 :: 0 :: 1 :: _ => 4
  | 0 :: 0 :: 1 :: _ => 3
  | _ => 0

/-- The bytes before the next start code. -/
def beforeStartCode : Bytes → Bytes
  | [] => []
  | byte :: rest => if startCode (byte :: rest) = 0 then byte :: beforeStartCode rest else []

/-- The outer loop of `nalus`; the input is what lies from `offset` on. -/
def nalusFrom : ℕ → Bytes → List Bytes
  | 0, _ => []
  | _ + 1, [] => []
  | fuel + 1, byte :: rest =>
      if startCode (byte :: rest) = 0 then nalusFrom fuel rest
      else
        let start := (byte :: rest).drop (startCode (byte :: rest))
        let nalu := beforeStartCode start
        let later := nalusFrom fuel (start.drop nalu.length)
        if nalu = [] then later else nalu :: later

/-- `VideoSocketForwarder::nalus`. -/
def nalus (input : Bytes) : List Bytes := nalusFrom input.length input

/-- `nalu[0] & 0x1f`. -/
def naluType (nalu : Bytes) : ℕ := (nalu.headD 0).toNat % 32

/-- An access unit with an IDR slice. -/
def ContainsIdr (accessUnit : Bytes) : Prop := ∃ nalu ∈ nalus accessUnit, naluType nalu = 5

instance (accessUnit : Bytes) : Decidable (ContainsIdr accessUnit) :=
  inferInstanceAs (Decidable (∃ nalu ∈ nalus accessUnit, naluType nalu = 5))

/-- What the loop of `push` over the NAL units keeps. -/
structure NaluScan where
  sps : Bytes
  pps : Bytes
  keyframe : Bool := false
deriving DecidableEq, Repr

def NaluScan.next (scan : NaluScan) (nalu : Bytes) : NaluScan :=
  match naluType nalu with
  | 7 => { scan with sps := nalu }
  | 8 => { scan with pps := nalu }
  | 5 => { scan with keyframe := true }
  | _ => scan

/-! ## The queue -/

structure Frame where
  bytes : Bytes
  number : ℕ
deriving DecidableEq, Repr

/-- What `mutex_` protects. -/
structure Forwarder where
  frames : List Frame := []
  queuedBytes : ℕ := 0
  keyframe : Frame := ⟨[], 0⟩
  sps : Bytes := []
  pps : Bytes := []
  pushed : ℕ := 0
deriving DecidableEq, Repr

namespace Forwarder

/-- The NAL units of an access unit, read by `push`. -/
def scanNalus (accessUnit : Bytes) (f : Forwarder) : NaluScan :=
  (nalus accessUnit).foldl NaluScan.next { sps := f.sps, pps := f.pps }

/-- `push` keeps the parameter sets of every access unit, also of one that it drops. -/
def noticed (accessUnit : Bytes) (f : Forwarder) : Forwarder :=
  { f with
    sps := (f.scanNalus accessUnit).sps
    pps := (f.scanNalus accessUnit).pps
    pushed := f.pushed + 1 }

/-- The condition under which `push` queues a frame without an IDR slice. -/
def HasRoom (accessUnit : Bytes) (f : Forwarder) : Prop :=
  f.frames.length < MediaKind.video.maximumQueuedFrames ∧
    f.queuedBytes + accessUnit.length ≤ kMaximumQueuedBytes

instance (accessUnit : Bytes) (f : Forwarder) : Decidable (f.HasRoom accessUnit) :=
  inferInstanceAs (Decidable (_ ∧ _))

/-- `VideoSocketForwarder::push`. -/
def pushVideo (accessUnit : Bytes) (f : Forwarder) : Forwarder :=
  if accessUnit = [] then f
  else if accessUnit.length > kMaximumQueuedBytes then { f with pushed := f.pushed + 1 }
  else
    let frame : Frame := ⟨accessUnit, f.pushed + 1⟩
    if !(f.scanNalus accessUnit).keyframe then
      if f.HasRoom accessUnit then
        { f.noticed accessUnit with
          frames := f.frames ++ [frame], queuedBytes := f.queuedBytes + accessUnit.length }
      else f.noticed accessUnit
    else
      { f.noticed accessUnit with
        frames := [frame], queuedBytes := accessUnit.length, keyframe := frame }

/-- The loop of `enqueue` that drops the oldest frames; `bytes` is `queued_bytes_`. -/
def dropOldest (kind : MediaKind) (size : ℕ) : List Frame → ℕ → List Frame × ℕ
  | [], bytes => ([], bytes)
  | frame :: frames, bytes =>
      if (frame :: frames).length ≥ kind.maximumQueuedFrames ∨
          bytes + size > kMaximumQueuedBytes then
        dropOldest kind size frames (bytes - frame.bytes.length)
      else (frame :: frames, bytes)

/-- `MediaSocketForwarder::enqueue`. -/
def enqueue (kind : MediaKind) (frame : Frame) (f : Forwarder) : Forwarder :=
  if frame.bytes = [] ∨ frame.bytes.length > kMaximumQueuedBytes then f
  else
    let (frames, bytes) := dropOldest kind frame.bytes.length f.frames f.queuedBytes
    { f with frames := frames ++ [frame], queuedBytes := bytes + frame.bytes.length }

/-- `AudioSocketForwarder::push`. -/
def pushAudio (pcm : Bytes) (f : Forwarder) : Forwarder :=
  if pcm = [] then f
  else enqueue .audio ⟨pcm, f.pushed + 1⟩ { f with pushed := f.pushed + 1 }

def push : MediaKind → Bytes → Forwarder → Forwarder
  | .video => pushVideo
  | .audio => pushAudio

/-- The configuration that a new client gets; empty when there is none. -/
def config (f : Forwarder) : Bytes :=
  if f.sps ≠ [] ∧ f.pps ≠ [] then [0, 0, 0, 1] ++ f.sps ++ [0, 0, 0, 1] ++ f.pps else []

/-- The comparison with the keyframe in `on_client_connected`, which is one of bytes. -/
def StartsWithKeyframe (f : Forwarder) : Prop :=
  f.frames.head?.map Frame.bytes = some f.keyframe.bytes

instance (f : Forwarder) : Decidable f.StartsWithKeyframe :=
  inferInstanceAs (Decidable (_ = _))

/-- The critical section of `VideoSocketForwarder::on_client_connected`. -/
def restart (f : Forwarder) : Forwarder :=
  if f.keyframe.bytes = [] then { f with frames := [], queuedBytes := 0 }
  else if ¬ f.StartsWithKeyframe then
    { f with frames := [f.keyframe], queuedBytes := f.keyframe.bytes.length }
  else f

/-- `on_client_connected`: what is sent first, and the queue from then on. -/
def onClientConnected : MediaKind → Forwarder → Bytes × Forwarder
  | .video, f => (f.config, f.restart)
  | .audio, f => ([], f)

/-- The frame that the worker takes out. -/
def take (f : Forwarder) : Option (Frame × Forwarder) :=
  match f.frames with
  | [] => none
  | frame :: frames =>
      some (frame, { f with
        frames := frames, queuedBytes := f.queuedBytes - frame.bytes.length })

end Forwarder

/-! ## The worker -/

/-- One client: the bytes written to it, and the frames that were written completely. -/
structure Session where
  wire : Bytes := []
  config : Option Bytes := none
  units : List Frame := []
deriving DecidableEq, Repr

def Session.frames (session : Session) : List Bytes :=
  session.config.toList ++ session.units.map Frame.bytes

/-- Where `forward` stands; `greeting` and `sending` are inside `send_frame`. -/
inductive Stage where
  | listening
  | greeting (session : Session) (config : Bytes)
  | forwarding (session : Session)
  | sending (session : Session) (frame : Frame)
  | stopped
deriving DecidableEq, Repr

structure MediaState where
  forwarder : Forwarder := {}
  stage : Stage := .listening
  stopping : Bool := false
  /-- The clients that are gone. -/
  past : List Session := []
deriving DecidableEq, Repr

inductive MediaEvent where
  | push (bytes : Bytes)
  | accept
  | take
  /-- `send_frame` returns true. -/
  | written
  /-- `send_frame` returns false after `count` bytes. -/
  | broken (count : ℕ)
  /-- The destructor asks the worker to stop. -/
  | stop
  /-- The worker sees that it is to stop. -/
  | exit
deriving DecidableEq, Repr

namespace MediaState

def step (kind : MediaKind) : MediaEvent → MediaState → Option MediaState
  | .push bytes, s => some { s with forwarder := s.forwarder.push kind bytes }
  | .accept, s =>
      match s.stage, s.stopping with
      | .listening, false =>
          let (config, forwarder) := s.forwarder.onClientConnected kind
          some { s with
            forwarder := forwarder
            stage := if config = [] then .forwarding {} else .greeting {} config }
      | _, _ => none
  | .take, s =>
      match s.stage, s.forwarder.take with
      | .forwarding session, some (frame, forwarder) =>
          some { s with forwarder := forwarder, stage := .sending session frame }
      | _, _ => none
  | .written, s =>
      match s.stage with
      | .greeting session config =>
          some { s with
            stage := .forwarding { session with
              wire := session.wire ++ prefixed config, config := some config } }
      | .sending session frame =>
          some { s with
            stage := .forwarding { session with
              wire := session.wire ++ prefixed frame.bytes, units := session.units ++ [frame] } }
      | _ => none
  | .broken count, s =>
      match s.stage with
      | .greeting session config =>
          if count < (prefixed config).length then
            some { s with
              stage := .listening
              past := s.past ++
                [{ session with wire := session.wire ++ (prefixed config).take count }] }
          else none
      | .sending session frame =>
          if count < (prefixed frame.bytes).length then
            some { s with
              stage := .listening
              past := s.past ++
                [{ session with wire := session.wire ++ (prefixed frame.bytes).take count }] }
          else none
      | _ => none
  | .stop, s => some { s with stopping := true }
  | .exit, s =>
      match s.stage, s.stopping with
      | .listening, true => some { s with stage := .stopped }
      | .forwarding session, true =>
          some { s with stage := .stopped, past := s.past ++ [session] }
      | _, _ => none

/-- The steps of a run, in order; `none` when one of them is not possible. -/
def run (kind : MediaKind) : List MediaEvent → MediaState → Option MediaState :=
  Machine.run (step kind)

end MediaState

def Stage.session? : Stage → Option Session
  | .greeting session _ | .forwarding session | .sending session _ => some session
  | .listening | .stopped => none

/-- All clients there were, the present one last. -/
def MediaState.sessions (s : MediaState) : List Session := s.past ++ s.stage.session?.toList

/-! ## The readers -/

/-- `next` of a reader that takes frames up to `limit` bytes: the frame and the stream
after it, or `nullopt`. -/
def readFrame (limit : ℕ) (stream : Bytes) : Option (Bytes × Bytes) :=
  let header := stream.take 4
  if header.length < 4 then none
  else
    let size := ofBigEndian header
    if size = 0 ∨ size > limit then none
    else
      let frame := (stream.drop 4).take size
      if frame.length < size then none else some (frame, stream.drop (4 + size))

def kMaximumVideoFrame : ℕ := 4 * 1024 * 1024
def kMaximumAudioFrame : ℕ := 64 * 1024

/-- `VideoSocketReader::next`. -/
def VideoSocketReader.next : Bytes → Option (Bytes × Bytes) := readFrame kMaximumVideoFrame

/-- `AudioSocketReader::next`. -/
def AudioSocketReader.next : Bytes → Option (Bytes × Bytes) := readFrame kMaximumAudioFrame

/-- The limit of the reader at the other end. -/
def MediaKind.readerLimit : MediaKind → ℕ
  | .video => kMaximumVideoFrame
  | .audio => kMaximumAudioFrame

/-- The `next` of the reader at the other end. -/
def MediaKind.next : MediaKind → Bytes → Option (Bytes × Bytes)
  | .video => VideoSocketReader.next
  | .audio => AudioSocketReader.next

/-- What `next` returns, call after call, until it returns `nullopt`. -/
def framesFrom (next : Bytes → Option (Bytes × Bytes)) : ℕ → Bytes → List Bytes
  | 0, _ => []
  | fuel + 1, stream =>
      match next stream with
      | none => []
      | some (frame, rest) => frame :: framesFrom next fuel rest

/-- All the frames that the reader returns when these bytes are written to it. -/
def MediaKind.received (kind : MediaKind) (wire : Bytes) : List Bytes :=
  framesFrom kind.next wire.length wire

end MediaForwarders
end Bridge
end Aa2acp
