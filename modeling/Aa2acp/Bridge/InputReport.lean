import Aa2acp.Airplay.Bplist
import Aa2acp.Lib.Text

/-!
# Input reports

`carplay_input_report` of `bridge_daemon_main.cpp`: the bridge daemon gets a CarPlay event
as the bytes of its request and turns it into an input report for the phone.  It looks for
the body in the headers once more.  The clock and the protobuf library are parameters.
-/

namespace Aa2acp
namespace Bridge

open Text Airplay

/-- `dictionary.find(key)`. -/
def findItem (dictionary : List (Bytes × PlistValue)) (key : Bytes) : Option PlistValue :=
  (dictionary.find? fun entry => entry.1 = key).map Prod.snd

def plistInteger (dictionary : List (Bytes × PlistValue)) : List Bytes → Option UInt64
  | [] => none
  | key :: keys =>
      match findItem dictionary key with
      | some (.uint64 value) => some value
      | _ => plistInteger dictionary keys

def plistBoolean (dictionary : List (Bytes × PlistValue)) : List Bytes → Option Bool
  | [] => none
  | key :: keys =>
      match findItem dictionary key with
      | some (.bool value) => some value
      | some (.uint64 value) => some (value != 0)
      | _ => plistBoolean dictionary keys

/-- The loop over the header lines: the size of the body once a `Content-Length` was seen; no
value when the request is dropped for its headers. -/
def readBodySize : Option ℕ → List Bytes → Option (Option ℕ)
  | bodySize, [] => some bodySize
  | bodySize, line :: lines =>
      let line := popReturn line
      match find (ascii ":") line with
      | none => readBodySize bodySize lines
      | some separator =>
          if lower (line.take separator) ≠ ascii "content-length" then readBodySize bodySize lines
          else if bodySize.isSome then none
          else
            -- trimmed on the left only, unlike in `service_event_channel`
            match fromChars (2 ^ 64) (trimLeft (line.drop (separator + 1))) with
            | some (parsed, []) =>
                if parsed > 1024 * 1024 then none else readBodySize (some parsed) lines
            | _ => none

/-- Where the headers end, and the bytes that `decode_bplist` is called with. -/
def inputBody (request : Bytes) : Option (ℕ × Bytes) :=
  match find (ascii "\r\n\r\n") request with
  | none => none
  | some headerEnd =>
      if headerEnd + 4 > request.length then none
      else
        match readBodySize none (getLines (request.take headerEnd)) with
        | some (some bodySize) =>
            let bodyStart := headerEnd + 4
            if bodySize > request.length - bodyStart then none
            else some (headerEnd, (request.drop bodyStart).take bodySize)
        | _ => none

/-- `InputReport` with the one key of its key event. -/
structure InputReport where
  timestamp : UInt64
  keycode : UInt32
  down : Bool
  metastate : UInt32
deriving DecidableEq

structure InputEnv where
  /-- The steady clock in nanoseconds. -/
  now : UInt64
  /-- `SerializeToString`. -/
  serialize : InputReport → Option Bytes

def carplayInputReport (env : InputEnv) (request : Bytes) : Option Bytes :=
  match inputBody request with
  | none => none
  | some (_, body) =>
      match decodeBplist body with
      | some (.dictionary entries) =>
          match plistInteger entries [ascii "androidKeyCode", ascii "android_key_code", ascii "keyCode"] with
          | none => none
          | some keycode =>
              -- the report has 32 bits for it
              if keycode.toNat > 0xFFFFFFFF then none
              else
                -- a key event without a direction is a press
                let down := (plistBoolean entries [ascii "down", ascii "keyDown", ascii "pressed"]).getD true
                env.serialize ⟨env.now, keycode.toUInt32, down, 0⟩
      | _ => none

/-- A request without a body that was found is dropped. -/
theorem carplayInputReport_eq_none {env : InputEnv} {request : Bytes} (h : inputBody request = none) :
    carplayInputReport env request = none := by
  unfold carplayInputReport
  rw [h]

end Bridge
end Aa2acp
