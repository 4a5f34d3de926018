import Aa2acp.Iap2.Frame
import Aa2acp.Lib.Interaction

/-!
# The phone side of the iAP2 link

`PhoneLink` of `src/iap2/link_layer.cpp`, function by function.  The object's
fields are `PhoneLink`; a `World` adds the state of the application behind
`control_data_` and the history of what the link did.  The two callbacks and the
clock are an `Env`: the transport's answer may depend on every frame offered so
far, and what `control_data_` does with a payload is an interactive computation
whose questions are its `send_control` calls, run while `receive` is still on the
stack.

Log output is not modelled; nothing reads it back.  A time point is a number of
nanoseconds.
-/

namespace Aa2acp
namespace Iap2

inductive State where
  | detect
  | negotiate
  | normal
  | dead
deriving DecidableEq, Repr

/-- `std::chrono::steady_clock::time_point`. -/
abbrev TimePoint := Int

def milliseconds (count : Nat) : Int := count * 1000000
def seconds (count : Nat) : Int := count * 1000000000

structure PendingMessage where
  sequence : UInt8
  frame : Bytes
  deadline : TimePoint
  retries : Nat
deriving DecidableEq, Repr

structure PhoneLink where
  state : State := .detect
  lsp : Lsp := {}
  sentSequence : UInt8 := 99
  peerControlSessionId : UInt8 := kControlSessionId
  lastReceivedSequence : UInt8 := 0
  lastSequenceValid : Bool := false
  receiveBuffer : Bytes := []
  nextMarker : TimePoint := 0
  nextSyn : TimePoint := 0
  pending : List PendingMessage := []
  synSequence : UInt8 := 0
  synOutstanding : Bool := false
deriving DecidableEq, Repr

/-- What the link does that can be seen from outside, and the points at which
its protocol state moves. -/
inductive Event where
  /-- `encode_packet` built this frame. -/
  | encoded (frame : Bytes)
  /-- `send_` was called and returned `accepted`. -/
  | sent (frame : Bytes) (accepted : Bool)
  /-- `control_data_` was called. -/
  | delivered (payload : Bytes)
  /-- `control_data_` returned. -/
  | callbackReturned
  /-- `send_control` returned `accepted`. -/
  | answered (accepted : Bool)
  /-- `handle_packet` was called. -/
  | packet (header : Header) (payload : Bytes)
  /-- The parameters of a SYN frame of the peer were adopted. -/
  | synAdopted (header : Header) (lsp : Lsp)
  /-- The link became Normal. -/
  | established
  /-- A data frame advanced the receive state. -/
  | advanced (header : Header) (payload : Bytes)
deriving DecidableEq, Repr

/-- An event together with the object's fields at that moment. -/
structure Entry where
  link : PhoneLink
  event : Event
deriving DecidableEq, Repr

/-- The computation of a `control_data_` callback: `send_control` calls, each
answered with whether the link took the message. -/
abbrev Sends (α : Type) := Interaction Bytes Bool α

/-- The surroundings of a link whose application state is `σ`. -/
structure Env (σ : Type) where
  /-- The result of `send_`, given the frames offered before and this one. -/
  send : List Bytes → Bytes → Bool
  /-- `steady_clock::now()`, given the frames offered before. -/
  clock : List Bytes → TimePoint
  /-- `control_data_`, when one is installed. -/
  controlData : Option (Bytes → σ → Sends σ)

structure World (σ : Type) where
  link : PhoneLink
  app : σ
  trace : List Entry
deriving DecidableEq, Repr

/-- The frame of a `send_` call. -/
def Event.sentFrame? : Event → Option Bytes
  | .sent frame _ => some frame
  | _ => none

/-- The payload of a `control_data_` call. -/
def Event.payload? : Event → Option Bytes
  | .delivered payload => some payload
  | _ => none

namespace World

variable {σ : Type}

/-- Every frame passed to `send_`, in order. -/
def sentFrames (w : World σ) : List Bytes :=
  w.trace.filterMap fun entry => entry.event.sentFrame?

/-- Every payload passed to `control_data_`, in order. -/
def deliveries (w : World σ) : List Bytes :=
  w.trace.filterMap fun entry => entry.event.payload?

def record (w : World σ) (event : Event) : World σ :=
  { w with trace := w.trace ++ [⟨w.link, event⟩] }

def update (w : World σ) (f : PhoneLink → PhoneLink) : World σ :=
  { w with link := f w.link }

/-- Call `send_`. -/
def transmit (env : Env σ) (frame : Bytes) (w : World σ) : Bool × World σ :=
  let accepted := env.send w.sentFrames frame
  (accepted, w.record (.sent frame accepted))

end World

/-! ## The object's own updates -/

namespace PhoneLink

def die (link : PhoneLink) : PhoneLink := { link with state := .dead }

/-- Dead, and nothing left to retransmit. -/
def abandon (link : PhoneLink) : PhoneLink := { link with state := .dead, pending := [] }

/-- The peer's reset. -/
def reset (link : PhoneLink) : PhoneLink :=
  { link with state := .dead, pending := [], synOutstanding := false, receiveBuffer := [] }

def clearBuffer (link : PhoneLink) : PhoneLink := { link with receiveBuffer := [] }

/-- A fresh sequence number for the own SYN, unless one is outstanding. -/
def openSyn (link : PhoneLink) : PhoneLink :=
  if link.synOutstanding then link
  else
    { link with
      sentSequence := link.sentSequence + 1
      synSequence := link.sentSequence + 1
      synOutstanding := true }

def establish (link : PhoneLink) : PhoneLink :=
  { link with synOutstanding := false, state := .normal }

def advance (sequence : UInt8) (link : PhoneLink) : PhoneLink :=
  { link with lastSequenceValid := true, lastReceivedSequence := sequence }

end PhoneLink

/-- Cumulative acknowledgement over wrapping 8-bit sequence numbers. -/
def acknowledgedBy (sequence acknowledgement : UInt8) : Bool :=
  decide (0 ≤ (acknowledgement - sequence).toInt8)

/-- The cumulative acknowledgement at the head of `handle_packet`. -/
def PhoneLink.acknowledge (header : Header) (link : PhoneLink) : PhoneLink :=
  if header.control &&& kControlAck ≠ 0 ∧ link.pending ≠ [] then
    { link with
      pending := link.pending.filter fun message =>
        !acknowledgedBy message.sequence header.acknowledgement }
  else link

/-- The limits put on the peer's parameters before they are adopted. -/
def clampLsp (received : Lsp) : Lsp :=
  { received with
    retransmissionTimeout := max received.retransmissionTimeout 100
    maxOutgoing := min (max received.maxOutgoing 1) 128
    maxRetransmissions := max received.maxRetransmissions 1
    ackTimeout := max received.ackTimeout 50 }

/-- Adopt the parameters of a SYN frame of the peer. -/
def PhoneLink.adopt (header : Header) (received : Lsp) (link : PhoneLink) : PhoneLink :=
  { link with
    lsp := clampLsp received
    peerControlSessionId :=
      match received.sessions.find? fun session => session.type == 0 with
      | some session => session.id
      | none => link.peerControlSessionId
    lastSequenceValid := true
    lastReceivedSequence := header.sequence }

/-! ## Sending -/

/-- `encode_packet`: empty when the payload does not fit a 16-bit length. -/
def encodePacket (link : PhoneLink) (payload : Bytes) (sequence control sessionId : UInt8) :
    Bytes :=
  if payload ≠ [] ∧ payload.length > 65535 - 10 then []
  else encodeFrame control sequence link.lastReceivedSequence sessionId payload

section Sending

variable {σ : Type} (env : Env σ)

def writePacket (payload : Bytes) (sequence control sessionId : UInt8) (w : World σ) :
    World σ :=
  let packet := encodePacket w.link payload sequence control sessionId
  let w := w.record (.encoded packet)
  if packet = [] then w.update .die
  else
    let (accepted, w) := w.transmit env packet
    if accepted then w else w.update .die

def sendMarker (w : World σ) : Bool × World σ :=
  let (accepted, w) := w.transmit env kMarker
  if accepted then (true, w) else (false, w.update .die)

def sendSyn (now : TimePoint) (acknowledgePeer : Bool) (w : World σ) : World σ :=
  if w.link.state ≠ .negotiate then w
  else
    let payload := encodeLsp w.link.lsp
    let w := w.update .openSyn
    let control := kControlSyn ||| if acknowledgePeer then kControlAck else 0
    let w := writePacket env payload w.link.synSequence control 0 w
    w.update fun link => { link with nextSyn := now + milliseconds 500 }

def sendAck (w : World σ) : World σ :=
  writePacket env [] w.link.sentSequence kControlAck 0 w

/-- Whether `send_control` refuses a payload before it touches anything. -/
def refusesControl (link : PhoneLink) (payload : Bytes) : Bool :=
  link.state ≠ .normal ∨ payload = [] ∨ link.lsp.maxLen < 10 ∨
    payload.length > link.lsp.maxLen.toNat - 10 ∨
    link.pending.length ≥ link.lsp.maxOutgoing.toNat

/-- The part of `send_control` after its checks. -/
def queueControl (payload : Bytes) (w : World σ) : Bool × World σ :=
  let w := w.update fun link => { link with sentSequence := link.sentSequence + 1 }
  let frame := encodePacket w.link payload w.link.sentSequence kControlAck
    w.link.peerControlSessionId
  let w := w.record (.encoded frame)
  if frame = [] then (false, w.update .abandon)
  else
    let (accepted, w) := w.transmit env frame
    if accepted then
      let deadline := env.clock w.sentFrames + milliseconds w.link.lsp.retransmissionTimeout.toNat
      (true, w.update fun link =>
        { link with pending := link.pending ++ [⟨link.sentSequence, frame, deadline, 0⟩] })
    else (false, w.update .abandon)

def sendControl (payload : Bytes) (w : World σ) : Bool × World σ :=
  let (accepted, w) := if refusesControl w.link payload then (false, w)
    else queueControl env payload w
  (accepted, w.record (.answered accepted))

end Sending

/-! ## Receiving -/

section Receiving

variable {σ : Type} (env : Env σ)

/-- Call `control_data_`; the callback's `send_control` calls run on the link. -/
def deliver (callback : Bytes → σ → Sends σ) (payload : Bytes) (w : World σ) : World σ :=
  let w := w.record (.delivered payload)
  let (app, w) := (callback payload w.app).run (sendControl env) w
  World.record { w with app := app } .callbackReturned

/-- The data frames of `handle_packet`. -/
def handleData (header : Header) (payload : Bytes) (w : World σ) : World σ :=
  let link := w.link
  let distance := header.sequence - link.lastReceivedSequence
  if link.state ≠ .normal then w
  else if link.lastSequenceValid ∧ header.sequence ≠ link.lastReceivedSequence ∧
      distance > 128 then sendAck env w
  else if link.lastSequenceValid ∧ distance > 1 then sendAck env w
  else if link.lastSequenceValid ∧ header.sequence = link.lastReceivedSequence then
    sendAck env w
  else
    let w := (w.record (.advanced header payload)).update (.advance header.sequence)
    match env.controlData with
    | some callback =>
        if header.sessionId = w.link.peerControlSessionId then
          sendAck env (deliver env callback payload w)
        else sendAck env w
    | none => sendAck env w

def handlePacket (header : Header) (payload : Bytes) (now : TimePoint) (w : World σ) :
    World σ :=
  let w := w.record (.packet header payload)
  if header.control &&& kControlRst ≠ 0 then w.update .reset
  else
    let w := w.update (.acknowledge header)
    if header.control &&& kControlSyn ≠ 0 then
      if w.link.state = .normal then sendAck env w
      else
        match decodeLsp payload with
        | some received =>
            sendSyn env now true
              ((w.record (.synAdopted header received)).update (.adopt header received))
        | none => w
    else if header.control &&& kControlAck ≠ 0 ∧ w.link.state = .negotiate then
      if w.link.synOutstanding ∧ acknowledgedBy w.link.synSequence header.acknowledgement then
        (w.record .established).update .establish
      else w
    else if header.control &&& ~~~kControlAck = 0 ∧ payload ≠ [] then
      handleData env header payload w
    else w

def World.setBuffer (buffer : Bytes) (w : World σ) : World σ :=
  w.update fun link => { link with receiveBuffer := buffer }

/-- A turn of the loop of `process_packets` from the point where the buffer
starts with `ff 5a`. -/
def processFrame (now : TimePoint) (w : World σ) : Bool × World σ :=
  let buffer := w.link.receiveBuffer
  if buffer.length < 9 then (false, w)
  else
    match decodeHeader (buffer.take 9) with
    | none => (true, w.setBuffer (buffer.drop 1))
    | some header =>
        if header.length > w.link.lsp.maxLen then
          (false, w.update fun link => link.die.clearBuffer)
        else if buffer.length < header.length.toNat then (false, w)
        else
          let body := (buffer.drop 9).take (header.length.toNat - 9)
          let w := w.setBuffer (buffer.drop header.length.toNat)
          if header.length > 9 ∧ hasValidChecksum body = false then (true, w)
          else (true, handlePacket env header body.dropLast now w)

/-- One turn of the loop of `process_packets`, and whether the loop goes on. -/
def processOnce (now : TimePoint) (w : World σ) : Bool × World σ :=
  let buffer := w.link.receiveBuffer
  -- the last byte is left out of the search, as `find_if` up to `end() - 1` does
  let start := buffer.dropLast.idxOf 0xff
  if start = buffer.length - 1 then (false, w.setBuffer (buffer.drop (buffer.length - 1)))
  else if buffer.getD (start + 1) 0 ≠ 0x5a then (true, w.setBuffer (buffer.drop (start + 1)))
  else processFrame env now (w.setBuffer (buffer.drop start))

/-- The loop of `process_packets`, for at most `fuel` turns. -/
def processLoop (now : TimePoint) : Nat → World σ → World σ
  | 0, w => w
  | fuel + 1, w =>
      if w.link.receiveBuffer.length < 9 then w
      else
        match processOnce env now w with
        | (true, w) => processLoop now fuel w
        | (false, w) => w

/-- Every turn that goes on shortens the buffer, so its length bounds the turns. -/
def processPackets (now : TimePoint) (w : World σ) : World σ :=
  processLoop env now w.link.receiveBuffer.length w

/-- `std::search` for the marker: the index of its first occurrence. -/
def searchMarker : Bytes → Option Nat
  | [] => none
  | byte :: rest =>
      if kMarker.isPrefixOf (byte :: rest) then some 0
      else (searchMarker rest).map (· + 1)

def kMaxReceiveBuffer : Nat := 128 * 1024

/-- The overflow test at the head of `receive`. -/
def overflows (link : PhoneLink) (bytes : Bytes) : Bool :=
  link.receiveBuffer.length > kMaxReceiveBuffer ∨
    bytes.length > kMaxReceiveBuffer - link.receiveBuffer.length

/-- `receive` once the bytes are in the buffer. -/
def scanBuffer (now : TimePoint) (w : World σ) : World σ :=
  let buffer := w.link.receiveBuffer
  if w.link.state = .detect then
    match searchMarker buffer with
    | none => w.setBuffer (buffer.drop (buffer.length - (kMarker.length - 1)))
    | some index =>
        let w := w.setBuffer (buffer.drop (index + kMarker.length))
        let w := w.update fun link => { link with state := .negotiate }
        processPackets env now (sendSyn env now false w)
  else processPackets env now w

def receive (bytes : Bytes) (now : TimePoint) (w : World σ) : World σ :=
  if overflows w.link bytes then w.update fun link => link.die.clearBuffer
  else scanBuffer env now (w.setBuffer (w.link.receiveBuffer ++ bytes))

end Receiving

/-! ## Starting and ticking -/

section Driving

variable {σ : Type} (env : Env σ)

def start (now : TimePoint) (w : World σ) : World σ :=
  if w.link.state ≠ .detect then w
  else
    match sendMarker env w with
    | (false, w) => w
    | (true, w) =>
        sendSyn env now false (w.update fun link => { link with state := .negotiate })

/-- The retransmission loop of `tick` over `pending_`: `visited` is the part it
has left behind. -/
def retransmit (now : TimePoint) (visited : List PendingMessage) :
    List PendingMessage → World σ → World σ
  | [], w => w
  | message :: rest, w =>
      if now < message.deadline then retransmit now (visited ++ [message]) rest w
      else if message.retries ≥ w.link.lsp.maxRetransmissions.toNat then w.update .abandon
      else
        let again : PendingMessage :=
          { message with
            retries := message.retries + 1
            deadline := now + milliseconds w.link.lsp.retransmissionTimeout.toNat }
        let w := w.update fun link => { link with pending := visited ++ again :: rest }
        let (accepted, w) := w.transmit env again.frame
        if accepted then retransmit now (visited ++ [again]) rest w else w.update .abandon

/-- The marker part of `tick`; `false` when `tick` returns there. -/
def tickMarker (now : TimePoint) (w : World σ) : Bool × World σ :=
  if w.link.state = .detect ∧ now ≥ w.link.nextMarker then
    match sendMarker env w with
    | (false, w) => (false, w)
    | (true, w) => (true, w.update fun link => { link with nextMarker := now + seconds 1 })
  else (true, w)

def tick (now : TimePoint) (w : World σ) : World σ :=
  if w.link.state = .dead then w
  else
    match tickMarker env now w with
    | (false, w) => w
    | (true, w) =>
        let w := if w.link.state = .negotiate ∧ now ≥ w.link.nextSyn then
            sendSyn env now false w
          else w
        retransmit env now [] w.link.pending w

/-! ## Runs -/

/-- One call of the link's owner. -/
inductive Input where
  | start (now : TimePoint)
  | receive (bytes : Bytes) (now : TimePoint)
  | tick (now : TimePoint)
  | sendControl (payload : Bytes)
deriving DecidableEq, Repr

def apply (w : World σ) : Input → World σ
  | .start now => start env now w
  | .receive bytes now => receive env bytes now w
  | .tick now => tick env now w
  | .sendControl payload => (sendControl env payload w).2

/-- A newly constructed link, with its application in state `app`. -/
def World.fresh (app : σ) : World σ := ⟨{}, app, []⟩

def run (app : σ) (inputs : List Input) : World σ :=
  inputs.foldl (apply env) (World.fresh app)

end Driving

/-! ## A peer -/

/-- A transport that accepts every frame, and the given callback. -/
def Env.accepting {σ : Type} (controlData : Option (Bytes → σ → Sends σ)) : Env σ where
  send := fun _ _ => true
  clock := fun _ => 0
  controlData := controlData

/-- A peer that answers a started link with its SYN and then acknowledges the
link's own SYN, which always has sequence number 100. -/
def peerHandshake (sequence : UInt8) (lsp : Lsp) : List Input :=
  [.start 0,
    .receive (encodeFrame kControlSyn sequence 0 0 (encodeLsp lsp)) 0,
    .receive (encodeFrame kControlAck sequence 100 0 []) 0]

/-- The handshake and then one data frame of the control session. -/
def handshakeThenData : List Input :=
  peerHandshake 3 {} ++ [.receive (encodeFrame kControlAck 4 100 kControlSessionId [7]) 0]

/-- A callback that answers every payload with one message. -/
def replyOnce : Bytes → Unit → Sends Unit :=
  fun _ _ => .ask [1] fun _ => .done ()

end Iap2
end Aa2acp
