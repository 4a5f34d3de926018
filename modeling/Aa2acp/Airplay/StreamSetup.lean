import Aa2acp.Airplay.AudioStream
import Aa2acp.Airplay.HeadUnitCapabilities
import Aa2acp.Airplay.ScreenStream
import Aa2acp.Airplay.Session
import Aa2acp.Lib.Scoped

/-!
# The streams of a session

The second half of `run_session` in `airplay/session.cpp`, from the answer of `/info` on, and
`head_unit_capabilities`: the session and its streams are set up one after the other over the
control connection, `RECORD` starts them, and the video is sent until it ends.  The function
returns from many places; what its guards do then is a `Scoped.guarded` block.

The environment answers for everything that lies outside and may depend on the whole history.
An audio sender is a thread: it is recorded where it starts, with all that it sends later.  The
logs and the channels for the time and for events are left out.
-/

namespace Aa2acp
namespace Airplay

open Text Scoped

/-! ## Property lists -/

abbrev Dictionary := List (Bytes × PlistValue)

def valueAt (dictionary : Dictionary) (key : Bytes) : Option PlistValue :=
  (dictionary.find? fun entry => entry.1 = key).map Prod.snd

/-- `integer_at`. -/
def integerAt (dictionary : Dictionary) (key : Bytes) : Option UInt64 :=
  match valueAt dictionary key with
  | some (.uint64 value) => some value
  | _ => none

def arrayAt (dictionary : Dictionary) (key : Bytes) : Option (List PlistValue) :=
  match valueAt dictionary key with
  | some (.array items) => some items
  | _ => none

/-- `dictionary_of`. -/
def dictionaryOf : Option PlistValue → Option Dictionary
  | some (.dictionary entries) => some entries
  | _ => none

namespace Capabilities

end Capabilities

namespace StreamSetup

inductive Method where
  | setup
  | record
  | teardown
deriving DecidableEq

def Method.text : Method → Bytes
  | .setup => ascii "SETUP"
  | .record => ascii "RECORD"
  | .teardown => ascii "TEARDOWN"

/-- A `SETUP` has a property list, the others have no body. -/
def Method.contentType : Method → Bytes
  | .setup => ascii "application/x-apple-binary-plist"
  | .record | .teardown => ascii "application/octet-stream"

/-- A call of `send_encrypted` and what came of it. -/
structure Request where
  method : Method
  cseq : ℕ
  body : Bytes
  result : SendResult
deriving DecidableEq

def Request.response? (request : Request) : Option Response :=
  match request.result with
  | .found response => some response
  | .failed | .timedOut => none

/-- The response is there and has status 200. -/
def Request.Accepted (request : Request) : Prop := ∃ response ∈ request.response?, response.status = 200

instance (request : Request) : Decidable request.Accepted :=
  inferInstanceAs (Decidable (∃ response ∈ request.response?, _))

/-- The property list in a response. -/
def Request.info? (request : Request) : Option Dictionary :=
  request.response?.bind fun response => dictionaryOf (decodeBplist response.body)

/-- The port in the first of the streams in a response. -/
def Request.dataPort? (request : Request) : Option UInt64 :=
  request.info?.bind fun info => (arrayAt info (ascii "streams")).bind fun streams =>
    (dictionaryOf streams.head?).bind fun stream => integerAt stream (ascii "dataPort")

/-- The numbers that a port can have. -/
def IsPort (port : UInt64) : Prop := port ≠ 0 ∧ port ≤ 65535

instance (port : UInt64) : Decidable (IsPort port) := inferInstanceAs (Decidable (_ ∧ _))

/-- The three streams of audio. -/
inductive AudioKind where
  | media
  | guidance
  | system
deriving DecidableEq

def AudioKind.audioType : AudioKind → Bytes
  | .media => ascii "media"
  | .guidance => ascii "default"
  | .system => ascii "alert"

def AudioKind.audioFormat : AudioKind → UInt64
  | .media => 0x8000
  | .guidance | .system => 0x10

/-- Whether the head unit takes this stream. -/
def AudioKind.supported (kind : AudioKind) (capabilities : HeadUnitCapabilities) : Bool :=
  match kind with
  | .media => capabilities.mediaPcm48kStereo
  | .guidance => capabilities.guidancePcm16kMono
  | .system => capabilities.systemPcm16kMono

/-- A list with one stream; the keys are in the order of a `std::map`. -/
def streamBody (stream : Dictionary) : Bytes :=
  encodeBplist (.dictionary [(ascii "streams", .array [.dictionary stream])])

def microphoneBody (localPort : UInt16) (streamId : UInt64) : Bytes :=
  streamBody [(ascii "audioFormat", .uint64 0x10), (ascii "audioType", .string (ascii "default")),
    (ascii "dataPort", .uint64 localPort.toUInt64), (ascii "input", .bool true),
    (ascii "streamConnectionID", .uint64 streamId), (ascii "type", .uint64 100)]

def audioBody (kind : AudioKind) (streamId : UInt64) : Bytes :=
  streamBody [(ascii "audioFormat", .uint64 kind.audioFormat), (ascii "audioType", .string kind.audioType),
    (ascii "streamConnectionID", .uint64 streamId), (ascii "type", .uint64 100)]

def screenBody (streamId : UInt64) : Bytes :=
  streamBody [(ascii "streamConnectionID", .uint64 streamId), (ascii "type", .uint64 110)]

/-- A stream that was set up: where it goes, and under which key. -/
structure OutputStream where
  port : UInt64
  streamId : UInt64
  key : Bytes
deriving DecidableEq

inductive StreamEvent where
  | request (request : Request)
  /-- The channel for events is connected. -/
  | eventChannel (port : UInt64)
  /-- `random_stream_connection_id` was called. -/
  | drawn (streamId : Option UInt64)
  /-- The receiver of the microphone has started. -/
  | microphone (port streamId : UInt64)
  /-- A sender has started, with the packets that it will have sent. -/
  | audio (kind : AudioKind) (stream : OutputStream) (packets : List Bytes)
  /-- The connection of the screen, with the bytes that it took. -/
  | screen (stream : OutputStream) (wire : Bytes)
  /-- `stop_streams` was called. -/
  | streamsStopped
deriving DecidableEq

/-- The variables, and what has happened. -/
structure State where
  control : ControlCipher
  encryptedReadBuffer : Bytes := []
  nextCseq : ℕ := 8
  teardownAttempted : Bool := false
  history : List StreamEvent := []
deriving DecidableEq

/-- What the caller of `run_session` gave. -/
structure Options where
  microphoneReceived : Bool
  nextAudio : AudioKind → Bool
  /-- The file or the live video, if there is any. -/
  video : Option VideoSource

/-- The cryptographic functions, and what the environment does after a history. -/
structure Env where
  aead : Aead
  hkdfSha512 : Bytes → Bytes → Bytes → ℕ → Bytes
  sendAll : List StreamEvent → Bytes → Bool
  polls : List StreamEvent → List Poll
  /-- `RAND_bytes`. -/
  randomBytes : List StreamEvent → ℕ → Option Bytes
  /-- The port of a new socket. -/
  bindUdpSocket : List StreamEvent → Option UInt16
  connectUdpPeer : List StreamEvent → UInt64 → Bool
  connectTcp : List StreamEvent → UInt64 → Bool
  stopRequested : List StreamEvent → Bool
  /-- What the source of an audio stream returns, and whether the packet of it is taken; nothing
  when the sender has no socket. -/
  audioTurns : AudioKind → List (Bytes × Bool)
  /-- How much of the configuration goes out, header and content. -/
  configCounts : ℕ × ℕ
  /-- The same for each access unit. -/
  unitCounts : ℕ → ℕ × ℕ
  /-- How many access units are sent before the stop is seen. -/
  unitsUntilStop : ℕ

def State.record (event : StreamEvent) (s : State) : State := { s with history := s.history ++ [event] }

namespace Env

variable (env : Env)

/-- `send_encrypted`. -/
@[irreducible] def request (method : Method) (cseq : ℕ) (body : Bytes) (s : State) : Request × State :=
  let plaintext := encodeRequest method.text (ascii "rtsp://127.0.0.1/stream") cseq body method.contentType []
  let sent := sendEncrypted env.aead (env.sendAll s.history) s.control s.encryptedReadBuffer plaintext
    (some cseq) (env.polls s.history)
  let request : Request := { method, cseq, body, result := sent.1 }
  (request, { s.record (.request request) with
    control := sent.2.cipher, encryptedReadBuffer := sent.2.encryptedBuffer })

variable (shared : Bytes)

def streamKey (streamId : UInt64) (label : Bytes) : Bytes :=
  env.hkdfSha512 shared (ascii "DataStream-Salt" ++ decimal streamId.toNat) label 32

def outputKey (streamId : UInt64) : Bytes := env.streamKey shared streamId (ascii "DataStream-Output-Encryption-Key")

/-- Whether there is a source for the stream and the head unit takes it. -/
def Wanted (options : Options) (capabilities : Option HeadUnitCapabilities) (kind : AudioKind) : Prop :=
  options.nextAudio kind = true ∧ ∃ profile ∈ capabilities, kind.supported profile = true

instance (options : Options) (capabilities : Option HeadUnitCapabilities) (kind : AudioKind) :
    Decidable (Wanted options capabilities kind) :=
  inferInstanceAs (Decidable (_ ∧ ∃ profile ∈ capabilities, _))

end Env
end StreamSetup
end Airplay
end Aa2acp
