import Aa2acp.Iap2.Csm
import Aa2acp.Iap2.PhoneLink

/-!
# The CarPlay probe

`CarPlayProbe` of `src/iap2/carplay_probe.cpp`, in the shape of the bootstrap session:
computations that make `send_control` calls, and a history of what the probe handled
and sent.  A `std::string` is a byte string.  Log output is not modelled.
-/

namespace Aa2acp
namespace Iap2

open Csm

def kCarPlayAvailability : UInt16 := 0x4300
def kCarPlayStartSession : UInt16 := 0x4301
def kRequestAccessoryWifiConfiguration : UInt16 := 0x5702
def kAccessoryWifiConfiguration : UInt16 := 0x5703
def kWirelessCarPlayUpdate : UInt16 := 0x4e0d

structure AccessoryWifiConfiguration where
  ssid : Bytes
  passphrase : Bytes
  securityType : UInt8
  channel : UInt8
deriving DecidableEq, Repr

structure CarPlayProbe where
  decoder : Decoder := {}
  /-- `link_` is set. -/
  attached : Bool := false
  bluetoothIdentifier : Bytes := []
  /-- `wifi_join_handler_` is set. -/
  joinHandler : Bool := false
  requestWifi : Bool := false
  awaitingWifiConfiguration : Bool := false
  started : Bool := false
  done : Bool := false
  failed : Bool := false
  airplayPort : UInt32 := 0
  airplayHost : Bytes := []
deriving DecidableEq, Repr

inductive ProbeEvent where
  /-- `handle` was called. -/
  | handled (message : Message)
  /-- `send_control` was called and returned `accepted`. -/
  | sent (bytes : Bytes) (accepted : Bool)
  /-- `wifi_join_handler_` was called and returned `joined`. -/
  | joining (configuration : AccessoryWifiConfiguration) (joined : Bool)
deriving DecidableEq, Repr

structure ProbeWorld where
  probe : CarPlayProbe
  trace : List ProbeEvent
deriving DecidableEq, Repr

/-- What `wifi_join_handler_` does at each moment: its result, and the host and port
that it passes to `set_airplay_endpoint` before it returns. -/
structure ProbeEnv where
  join : List ProbeEvent → AccessoryWifiConfiguration → Bool × Option (Bytes × UInt32)

/-! ## Parameters -/

def appendParameter (id : UInt16) (value output : Bytes) : Bytes :=
  output ++ writeU16 (UInt16.ofNat (value.length + 4)) ++ writeU16 id ++ value

def attributes (available : Bool) (identifier : Bytes) : Bytes :=
  let output := appendParameter 0 [if available then 1 else 0] []
  if identifier = [] then output else appendParameter 1 (identifier ++ [0]) output

/-- Without its terminating zero, if it has one. -/
def stringParameter (message : Message) (id : UInt16) : Bytes :=
  match firstBytesParameter message.payload id with
  | none => []
  | some value => if value.getLast? = some 0 then value.dropLast else value

def u32Parameter (message : Message) (id : UInt16) : UInt32 :=
  match firstBytesParameter message.payload id with
  | some [b0, b1, b2, b3] =>
      (b0.toUInt32 <<< 24) ||| (b1.toUInt32 <<< 16) ||| (b2.toUInt32 <<< 8) ||| b3.toUInt32
  | _ => 0

def u8Parameter (message : Message) (id : UInt16) : UInt8 :=
  match firstBytesParameter message.payload id with
  | some [b0] => b0
  | _ => 0

/-! ## The probe -/

namespace CarPlayProbe

def attach (probe : CarPlayProbe) : CarPlayProbe := { probe with attached := true }

def requestWifiConfiguration (enabled : Bool) (probe : CarPlayProbe) : CarPlayProbe :=
  { probe with requestWifi := enabled }

def setWifiJoinHandler (probe : CarPlayProbe) : CarPlayProbe :=
  { probe with joinHandler := true, requestWifi := true }

def setAirplayEndpoint (host : Bytes) (port : UInt32) (probe : CarPlayProbe) : CarPlayProbe :=
  { probe with airplayHost := host, airplayPort := port }

def fail (probe : CarPlayProbe) : CarPlayProbe := { probe with failed := true }

def finish (probe : CarPlayProbe) : CarPlayProbe := { probe with done := true }

def start (probe : CarPlayProbe) : CarPlayProbe := { probe with started := true }

def awaitWifi (probe : CarPlayProbe) : CarPlayProbe :=
  { probe with awaitingWifiConfiguration := true }

end CarPlayProbe

namespace ProbeWorld

def record (event : ProbeEvent) (w : ProbeWorld) : ProbeWorld :=
  { w with trace := w.trace ++ [event] }

def update (change : CarPlayProbe → CarPlayProbe) (w : ProbeWorld) : ProbeWorld :=
  { w with probe := change w.probe }

def setDecoder (decoder : Decoder) (w : ProbeWorld) : ProbeWorld :=
  w.update fun probe => { probe with decoder := decoder }

end ProbeWorld

/-- `link_ != nullptr && link_->send_control(bytes)`, then the change that follows a
success; `fail` otherwise. -/
def sendOrFail (bytes : Bytes) (onSuccess : CarPlayProbe → CarPlayProbe) (w : ProbeWorld) :
    Sends ProbeWorld :=
  if w.probe.attached then
    .ask bytes fun accepted =>
      let w := w.record (.sent bytes accepted)
      .done (w.update (if accepted then onSuccess else CarPlayProbe.fail))
  else .done (w.update CarPlayProbe.fail)

def beginProbe (w : ProbeWorld) : Sends ProbeWorld :=
  if w.probe.attached = false then .done (w.update CarPlayProbe.fail)
  else if w.probe.requestWifi then
    sendOrFail (encode kRequestAccessoryWifiConfiguration [])
      (fun probe => probe.awaitWifi.start) w
  else if w.probe.bluetoothIdentifier = [] then .done (w.update CarPlayProbe.fail)
  else
    let wireless := attributes true w.probe.bluetoothIdentifier
    sendOrFail (encode kCarPlayAvailability (appendParameter 1 wireless []))
      CarPlayProbe.start w

section

variable (env : ProbeEnv)

def handleStartSession (message : Message) (w : ProbeWorld) : Sends ProbeWorld :=
  let port := u32Parameter message 2
  let device := stringParameter message 3
  let w := w.update fun probe => probe.setAirplayEndpoint device port
  if w.probe.requestWifi = false then .done (w.update CarPlayProbe.finish)
  else sendOrFail (encode kRequestAccessoryWifiConfiguration []) CarPlayProbe.awaitWifi w

/-- The call of `wifi_join_handler_`. -/
def callJoinHandler (configuration : AccessoryWifiConfiguration) (w : ProbeWorld) :
    Bool × ProbeWorld :=
  let (joined, endpoint) := env.join w.trace configuration
  let w := w.record (.joining configuration joined)
  match endpoint with
  | none => (joined, w)
  | some (host, port) => (joined, w.update fun probe => probe.setAirplayEndpoint host port)

def wifiConfiguration (message : Message) : AccessoryWifiConfiguration where
  ssid := stringParameter message 1
  passphrase := stringParameter message 2
  securityType := u8Parameter message 3
  channel := u8Parameter message 4

def handleWifiConfiguration (message : Message) (w : ProbeWorld) : Sends ProbeWorld :=
  let configuration := wifiConfiguration message
  if configuration.ssid = [] then .done (w.update CarPlayProbe.fail)
  else if w.probe.joinHandler then
    let (joined, w) := callJoinHandler env configuration w
    if joined = false then .done (w.update CarPlayProbe.fail)
    else
      sendOrFail (encodeBytesParameter kWirelessCarPlayUpdate 0 [1])
        (fun probe =>
          if probe.airplayHost ≠ [] ∧ probe.airplayPort ≠ 0 then probe.finish else probe) w
  else .done (w.update CarPlayProbe.finish)

def handleProbe (message : Message) (w : ProbeWorld) : Sends ProbeWorld :=
  let w := w.record (.handled message)
  if message.id = kCarPlayStartSession then handleStartSession message w
  else if message.id = kAccessoryWifiConfiguration ∧ w.probe.awaitingWifiConfiguration then
    handleWifiConfiguration env message w
  else .done w

def handleProbeAll : List Message → ProbeWorld → Sends ProbeWorld
  | [], w => .done w
  | message :: messages, w => (handleProbe env message w).bind (handleProbeAll messages)

/-- `handle` does not touch the decoder, so the loop of `receive` may take all the
messages out of it before it handles the first. -/
def receiveProbe (bytes : Bytes) (w : ProbeWorld) : Sends ProbeWorld :=
  let (messages, decoder) := (w.probe.decoder.push bytes).drain
  handleProbeAll env messages (w.setDecoder decoder)

end

end Iap2
end Aa2acp
