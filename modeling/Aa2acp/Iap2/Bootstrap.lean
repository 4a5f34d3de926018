import Aa2acp.Iap2.Csm
import Aa2acp.Iap2.PhoneLink

/-!
# The bootstrap session

`BootstrapSession` of `src/iap2/bootstrap.cpp`.  Its methods are computations that
make `send_control` calls, so they can be run against the link or be studied for
every outcome of the calls.  A history records what the session handled, sent and
drew, and every call of `fail`.

Log output is not modelled.  The signature check and the random device are given:
`verify` is any predicate, and `draw` any challenge for each moment.
-/

namespace Aa2acp
namespace Iap2

open Csm

inductive Stage where
  | idle
  | awaitIdentification
  | awaitCertificate
  | awaitResponse
  | done
  | failed
deriving DecidableEq, Repr

/-- The 20 bytes of `challenge_`. -/
abbrev Challenge := { bytes : Bytes // bytes.length = 20 }

structure BootstrapSession where
  decoder : Decoder := {}
  /-- `link_` is set. -/
  attached : Bool := false
  challenge : Challenge := ⟨List.replicate 20 0, List.length_replicate⟩
  certificate : Bytes := []
  stage : Stage := .idle
deriving DecidableEq, Repr

inductive SessionEvent where
  /-- `handle` was called. -/
  | handled (message : Message)
  /-- `send_control` was called and returned `accepted`. -/
  | sent (bytes : Bytes) (accepted : Bool)
  /-- The random device gave this challenge. -/
  | drew (challenge : Challenge)
  /-- `fail` was called. -/
  | failed
deriving DecidableEq, Repr

/-- An event together with the stage at that moment. -/
structure SessionEntry where
  stage : Stage
  event : SessionEvent
deriving DecidableEq, Repr

structure SessionWorld where
  session : BootstrapSession
  trace : List SessionEntry
deriving DecidableEq, Repr

/-- What the session finds outside itself. -/
structure SessionEnv where
  draw : List SessionEntry → Challenge
  /-- `verify_mfi_v2_signature` of a challenge, a signature and a certificate. -/
  verify : Bytes → Bytes → Bytes → Bool

namespace SessionWorld

def record (event : SessionEvent) (w : SessionWorld) : SessionWorld :=
  { w with trace := w.trace ++ [⟨w.session.stage, event⟩] }

def setStage (stage : Stage) (w : SessionWorld) : SessionWorld :=
  { w with session := { w.session with stage := stage } }

def setDecoder (decoder : Decoder) (w : SessionWorld) : SessionWorld :=
  { w with session := { w.session with decoder := decoder } }

def setCertificate (certificate : Bytes) (w : SessionWorld) : SessionWorld :=
  { w with session := { w.session with certificate := certificate } }

def setChallenge (challenge : Challenge) (w : SessionWorld) : SessionWorld :=
  { w with session := { w.session with challenge := challenge } }

def fail (w : SessionWorld) : SessionWorld := (w.record .failed).setStage .failed

end SessionWorld

namespace BootstrapSession

def attach (session : BootstrapSession) : BootstrapSession := { session with attached := true }

def isDone (session : BootstrapSession) : Bool := session.stage = .done

def isFailed (session : BootstrapSession) : Bool := session.stage = .failed

def started (session : BootstrapSession) : Bool := session.stage ≠ .idle

end BootstrapSession

/-- `link_ != nullptr && link_->send_control(bytes)`. -/
def sendMessage (bytes : Bytes) (w : SessionWorld) : Sends (Bool × SessionWorld) :=
  if w.session.attached then
    .ask bytes fun accepted => .done (accepted, w.record (.sent bytes accepted))
  else .done (false, w)

def sendEmpty (id : UInt16) (w : SessionWorld) : Sends SessionWorld :=
  (sendMessage (encode id []) w).bind fun (accepted, w) =>
    .done (if accepted then w else w.fail)

def begin (w : SessionWorld) : Sends SessionWorld :=
  sendEmpty kStartIdentification (w.setStage .awaitIdentification)

section Handling

variable (env : SessionEnv)

/-- The message that carries a challenge. -/
def challengeRequest (challenge : Challenge) : Bytes :=
  encodeBytesParameter kRequestAuthenticationChallengeResponse 0 challenge.val

def handleIdentification (message : Message) (w : SessionWorld) : Sends SessionWorld :=
  if message.id = kIdentificationRejected then .done w.fail
  else if message.id = kIdentificationInformation then
    (sendEmpty kIdentificationAccepted w).bind fun w =>
      (sendEmpty kRequestAuthenticationCertificate w).bind fun w =>
        -- also when one of the two was refused
        .done (w.setStage .awaitCertificate)
  else .done w

def handleCertificate (message : Message) (w : SessionWorld) : Sends SessionWorld :=
  if message.id ≠ kAuthenticationCertificate then .done w
  else
    match firstBytesParameter message.payload 0 with
    | none => .done w.fail
    | some certificate =>
        let w := w.setCertificate certificate
        let challenge := env.draw w.trace
        let w := (w.record (.drew challenge)).setChallenge challenge
        (sendMessage (challengeRequest challenge) w).bind fun (accepted, w) =>
          .done (if accepted then w.setStage .awaitResponse else w.fail)

def handleResponse (message : Message) (w : SessionWorld) : Sends SessionWorld :=
  if message.id = kAuthenticationFailed then .done w.fail
  else if message.id = kAuthenticationResponse then
    match firstBytesParameter message.payload 0 with
    | none => .done w.fail
    | some signature =>
        if env.verify w.session.challenge.val signature w.session.certificate = false then
          .done w.fail
        else
          (sendEmpty kAuthenticationSucceeded w).bind fun w =>
            -- also when it was refused
            .done (w.setStage .done)
  else .done w

def handle (message : Message) (w : SessionWorld) : Sends SessionWorld :=
  let w := w.record (.handled message)
  match w.session.stage with
  | .awaitIdentification => handleIdentification message w
  | .awaitCertificate => handleCertificate env message w
  | .awaitResponse => handleResponse env message w
  | _ => .done w

def handleAll : List Message → SessionWorld → Sends SessionWorld
  | [], w => .done w
  | message :: messages, w => (handle env message w).bind (handleAll messages)

/-- `handle` does not touch the decoder, so the loop of `receive` may take all the
messages out of it before it handles the first. -/
def receiveCsm (bytes : Bytes) (w : SessionWorld) : Sends SessionWorld :=
  let (messages, decoder) := (w.session.decoder.push bytes).drain
  handleAll env messages (w.setDecoder decoder)

/-! ## Runs -/

inductive SessionInput where
  /-- The main loop finds the link Normal. -/
  | established
  /-- `control_data_` is called. -/
  | receive (bytes : Bytes)
deriving DecidableEq, Repr

def applySession (input : SessionInput) (w : SessionWorld) : Sends SessionWorld :=
  match input with
  | .established => if w.session.started then .done w else begin w
  | .receive bytes => receiveCsm env bytes w

def runSession : List SessionInput → SessionWorld → Sends SessionWorld
  | [], w => .done w
  | input :: inputs, w => (applySession env input w).bind (runSession inputs)

end Handling

/-- A new session, attached to the link. -/
def SessionWorld.fresh : SessionWorld := ⟨BootstrapSession.attach {}, []⟩

/-! ## A complete exchange -/

/-- The peer identifies itself, sends a certificate and answers the challenge. -/
def completeExchange : List SessionInput :=
  [.established, .receive (encode kIdentificationInformation []),
    .receive (encodeBytesParameter kAuthenticationCertificate 0 [1]),
    .receive (encodeBytesParameter kAuthenticationResponse 0 [2])]

/-- A fixed challenge, and the signature `[2]` under the certificate `[1]`. -/
def exchangeEnv : SessionEnv where
  draw _ := ⟨List.replicate 20 7, List.length_replicate⟩
  verify _ signature certificate := signature = [2] ∧ certificate = [1]

/-- A link that refuses one message. -/
def refuseOne (refused : Bytes) (bytes : Bytes) (count : ℕ) : Bool × ℕ :=
  (bytes ≠ refused, count + 1)

end Iap2
end Aa2acp
