import Aa2acp.Lib.Text

/-!
# Requests of the management pages

What `src/bridge/management_ui.cpp` reads out of a request: where it ends
(`frame_http_request`), the fields of a form (`url_decode`, `form_field`, `query_field`)
and which passphrases are accepted; and the state that the pages show.
-/

namespace Aa2acp
namespace Bridge
namespace Management

open Text

/-- Where the needle begins first, from `start` on. -/
def findFrom (needle : Bytes) (start : ℕ) (text : Bytes) : Option ℕ :=
  (find needle (text.drop start)).map (· + start)

/-! ## Passphrases -/

def kDefaultHotspotPassphrase : Bytes := ascii "changeme"

/-- `valid_hotspot_passphrase`. -/
def ValidHotspotPassphrase (passphrase : Bytes) : Prop :=
  passphrase ≠ kDefaultHotspotPassphrase ∧ passphrase.length ≥ 8 ∧
    0x0D ∉ passphrase ∧ 0x0A ∉ passphrase ∧ 0x3D ∉ passphrase

instance (passphrase : Bytes) : Decidable (ValidHotspotPassphrase passphrase) :=
  inferInstanceAs (Decidable (_ ∧ _))

/-! ## Forms -/

/-- `std::isxdigit`, with the value of the digit. -/
def hexDigit? (byte : UInt8) : Option ℕ :=
  if 0x30 ≤ byte ∧ byte ≤ 0x39 then some (byte.toNat - 0x30)
  else if 0x41 ≤ byte ∧ byte ≤ 0x46 then some (byte.toNat - 0x41 + 10)
  else if 0x61 ≤ byte ∧ byte ≤ 0x66 then some (byte.toNat - 0x61 + 10)
  else none

/-- `url_decode`. -/
def urlDecode : Bytes → Bytes
  | [] => []
  | byte :: rest =>
      if byte = 0x2B then 0x20 :: urlDecode rest
      else if byte = 0x25 then
        match rest with
        | high :: low :: more =>
            match hexDigit? high, hexDigit? low with
            | some high, some low => UInt8.ofNat (high * 16 + low) :: urlDecode more
            | _, _ => byte :: urlDecode (high :: low :: more)
        | rest => byte :: urlDecode rest
      else byte :: urlDecode rest

/-- The parts of a form between its ampersands. -/
def formParts : Bytes → List Bytes
  | [] => [[]]
  | byte :: rest =>
      if byte = 0x26 then [] :: formParts rest
      else
        match formParts rest with
        | [] => [[byte]]
        | part :: parts => (byte :: part) :: parts

/-- The decoded name of a part; a part without an equals sign is all name. -/
def partName (part : Bytes) : Bytes :=
  match find [0x3D] part with
  | none => urlDecode part
  | some separator => urlDecode (part.take separator)

/-- The decoded value of a part. -/
def partValue (part : Bytes) : Bytes :=
  match find [0x3D] part with
  | none => []
  | some separator => urlDecode (part.drop (separator + 1))

/-- `form_field`: the value of the first part with this name. -/
def formField (body wanted : Bytes) : Option Bytes :=
  ((formParts body).find? fun part => partName part = wanted).map partValue

/-- A field is there when some part has its name, and the first such part has its value. -/
theorem formField_eq_some_iff {body wanted value : Bytes} :
    formField body wanted = some value ↔
      ∃ before part after, formParts body = before ++ part :: after ∧
        (∀ other ∈ before, partName other ≠ wanted) ∧ partName part = wanted ∧
        partValue part = value := by
  simp only [formField, Option.map_eq_some_iff, List.find?_eq_some_iff_append, decide_eq_true_eq,
    Bool.not_eq_true', decide_eq_false_iff_not]
  constructor
  · rintro ⟨part, ⟨hname, before, after, hparts, hbefore⟩, hvalue⟩
    exact ⟨before, part, after, hparts, hbefore, hname, hvalue⟩
  · rintro ⟨before, part, after, hparts, hbefore, hname, hvalue⟩
    exact ⟨part, ⟨hname, before, after, hparts, hbefore⟩, hvalue⟩

/-- `query_field`. -/
def queryField (request wanted : Bytes) : Option Bytes :=
  match find [0x20] request with
  | none => none
  | some methodEnd =>
      match findFrom [0x20] (methodEnd + 1) request, find [0x3F] request with
      | some pathEnd, some queryStart =>
          if queryStart ≥ pathEnd then none
          else formField ((request.drop (queryStart + 1)).take (pathEnd - queryStart - 1)) wanted
      | _, _ => none

/-! ## Where a request ends -/

inductive HttpRequestFraming where
  | incomplete
  | invalid
  | complete (body : Bytes)
deriving DecidableEq, Repr

/-- `std::isspace` in the C locale. -/
def isSpace (byte : UInt8) : Bool := byte = 0x20 ∨ 0x09 ≤ byte ∧ byte ≤ 0x0D

/-- What a header line makes of the body size read so far; `none` when it is refused. -/
def readHeaderLine (line : Bytes) (bodySize : Option ℕ) : Option (Option ℕ) :=
  match find [0x3A] line with
  | none => some bodySize
  | some separator =>
      if lower (line.take separator) = ascii "content-length" then
        let value := ((line.drop (separator + 1)).rdropWhile isSpace).dropWhile isBlank
        match fromChars (2 ^ 64) value with
        | some (parsed, []) =>
            if bodySize.all (· = parsed) then some (some parsed) else none
        | _ => none
      else some bodySize

/-- The loop over the header lines; `none` when one of them is refused. -/
def readHeaderLines (request : Bytes) (headerEnd : ℕ) : ℕ → ℕ → Option ℕ → Option (Option ℕ)
  | 0, _, bodySize => some bodySize
  | fuel + 1, lineStart, bodySize =>
      if lineStart < headerEnd then
        let lineEnd := findFrom (ascii "\r\n") lineStart request
        let length := min (lineEnd.getD headerEnd) headerEnd - lineStart
        match readHeaderLine ((request.drop lineStart).take length) bodySize with
        | none => none
        | some bodySize =>
            match lineEnd with
            | none => some bodySize
            | some lineEnd =>
                if lineEnd ≥ headerEnd then some bodySize
                else readHeaderLines request headerEnd fuel (lineEnd + 2) bodySize
      else some bodySize

/-- `frame_http_request`. -/
def frameHttpRequest (request : Bytes) (maximumHeaders maximumBody : ℕ) : HttpRequestFraming :=
  match find (ascii "\r\n\r\n") request with
  | none => if request.length > maximumHeaders then .invalid else .incomplete
  | some headerEnd =>
      if headerEnd > maximumHeaders then .invalid
      else
        match readHeaderLines request headerEnd request.length 0 none with
        | none => .invalid
        | some bodySize =>
            let bodyStart := headerEnd + 4
            let length := bodySize.getD 0
            if length > maximumBody then .invalid
            else if request.length < bodyStart + length then .incomplete
            else if request.length > bodyStart + length then .invalid
            else .complete ((request.drop bodyStart).take length)

/-! ## What the pages show -/

inductive PreflightState where
  | idle
  | discovering
  | pairingPrompt
  | connecting
  | succeeded
  | failed
deriving DecidableEq, Repr

/-- `static_cast<int>` of the state. -/
def PreflightState.number : PreflightState → ℕ
  | .idle => 0
  | .discovering => 1
  | .pairingPrompt => 2
  | .connecting => 3
  | .succeeded => 4
  | .failed => 5

/-- `preflight_active`. -/
def PreflightState.Active (state : PreflightState) : Prop :=
  state = .discovering ∨ state = .pairingPrompt ∨ state = .connecting

instance (state : PreflightState) : Decidable state.Active := inferInstanceAs (Decidable (_ ∨ _))

structure BluetoothDevice where
  address : Bytes
  name : Bytes
  paired : Bool
  connected : Bool
deriving DecidableEq, Repr

structure PairingConfirmation where
  id : ℕ
  passkey : ℕ
  address : Bytes
deriving DecidableEq, Repr

structure Snapshot where
  bluetoothDevices : List BluetoothDevice := []
  wifiInterfaces : List Bytes := []
  showUnnamedBluetoothDevices : Bool := false
  bluetoothScanRunning : Bool := false
  bluetoothScanPhaseId : ℤ := 0
  bluetoothScanPhase : Bytes := ascii "idle"
  bluetoothError : Bytes := []
  preflightState : PreflightState := .idle
  preflightRevision : ℕ := 0
  preflightDetail : Bytes := []
  pairingConfirmation : Option PairingConfirmation := none
  managementHotspotPasswordPending : Bool := false
  pendingManagementHotspotSsid : Bytes := []
deriving DecidableEq, Repr

end Management
end Bridge
end Aa2acp
