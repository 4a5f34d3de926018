import Aa2acp.Airplay.RtspRoundTrip
import Aa2acp.Lib.KeyLines

/-!
# The capabilities of a head unit

The cache file of `airplay/head_unit_capabilities.cpp`: which profiles are valid, the text
that `save_head_unit_capabilities` writes when all of it gets into the file, and what
`load_head_unit_capabilities` reads from a text.  A profile is loaded for one head unit
only, the one that it was saved for.
-/

namespace Aa2acp
namespace Airplay

open Text KeyLines

namespace Capabilities

def kMagic : Bytes := ascii "AA2ACP-HEAD-UNIT-CAPABILITIES-1"

end Capabilities

structure HeadUnitCapabilities where
  headUnitMac : Bytes := []
  widthPixels : UInt32 := 0
  heightPixels : UInt32 := 0
  maxFps : UInt32 := 0
  mediaPcm48kStereo : Bool := false
  guidancePcm16kMono : Bool := false
  systemPcm16kMono : Bool := false
deriving DecidableEq, Repr

namespace HeadUnitCapabilities

/-- A full display mode. -/
def HasDisplay (profile : HeadUnitCapabilities) : Prop :=
  profile.widthPixels > 0 ∧ profile.heightPixels > 0 ∧ profile.maxFps > 0

/-- An audio format. -/
def HasAudio (profile : HeadUnitCapabilities) : Prop :=
  profile.mediaPcm48kStereo ∨ profile.guidancePcm16kMono ∨ profile.systemPcm16kMono

/-- `valid`. -/
def Valid (profile : HeadUnitCapabilities) : Prop :=
  profile.headUnitMac ≠ [] ∧ (profile.HasDisplay ∨ profile.HasAudio) ∧
    0x0D ∉ profile.headUnitMac ∧ 0x0A ∉ profile.headUnitMac ∧ 0x3D ∉ profile.headUnitMac

instance (profile : HeadUnitCapabilities) : Decidable profile.HasDisplay :=
  inferInstanceAs (Decidable (_ ∧ _))

instance (profile : HeadUnitCapabilities) : Decidable profile.HasAudio :=
  inferInstanceAs (Decidable (_ ∨ _))

instance (profile : HeadUnitCapabilities) : Decidable profile.Valid :=
  inferInstanceAs (Decidable (_ ∧ _))

end HeadUnitCapabilities

namespace Capabilities

/-- `parse_u32`. -/
def parseU32 (value : Bytes) : Option UInt32 :=
  match fromChars (2 ^ 32) value with
  | some (result, []) => some (UInt32.ofNat result)
  | _ => none

/-- How a stream writes a `bool`. -/
def boolText (value : Bool) : Bytes := if value then ascii "1" else ascii "0"

/-- The lines that `save_head_unit_capabilities` writes behind the magic. -/
def entries (profile : HeadUnitCapabilities) : List (Bytes × Bytes) :=
  [(ascii "head_unit_mac", profile.headUnitMac),
    (ascii "width_pixels", decimal profile.widthPixels.toNat),
    (ascii "height_pixels", decimal profile.heightPixels.toNat),
    (ascii "max_fps", decimal profile.maxFps.toNat),
    (ascii "media_pcm_48k_stereo", boolText profile.mediaPcm48kStereo),
    (ascii "guidance_pcm_16k_mono", boolText profile.guidancePcm16kMono),
    (ascii "system_pcm_16k_mono", boolText profile.systemPcm16kMono)]

/-- The text that `save_head_unit_capabilities` writes. -/
def content (profile : HeadUnitCapabilities) : Bytes :=
  kMagic ++ 0x0A :: keyLines (entries profile)

/-- What a line with this key makes of the profile; `none` when it is refused. -/
def readValue (key value : Bytes) (profile : HeadUnitCapabilities) : Option HeadUnitCapabilities :=
  if key = ascii "head_unit_mac" then some { profile with headUnitMac := value }
  else if key = ascii "width_pixels" then
    (parseU32 value).map fun parsed => { profile with widthPixels := parsed }
  else if key = ascii "height_pixels" then
    (parseU32 value).map fun parsed => { profile with heightPixels := parsed }
  else if key = ascii "max_fps" then
    (parseU32 value).map fun parsed => { profile with maxFps := parsed }
  else if key = ascii "media_pcm_48k_stereo" then
    some { profile with mediaPcm48kStereo := value = ascii "1" }
  else if key = ascii "guidance_pcm_16k_mono" then
    some { profile with guidancePcm16kMono := value = ascii "1" }
  else if key = ascii "system_pcm_16k_mono" then
    some { profile with systemPcm16kMono := value = ascii "1" }
  else none

/-- One turn of the loop of `load_head_unit_capabilities`. -/
def readLine (line : Bytes) (profile : HeadUnitCapabilities) : Option HeadUnitCapabilities :=
  match find [0x3D] line with
  | none => none
  | some separator => readValue (line.take separator) (line.drop (separator + 1)) profile

def readLines : List Bytes → HeadUnitCapabilities → Option HeadUnitCapabilities
  | [], profile => some profile
  | line :: lines, profile => (readLine line profile).bind (readLines lines)

end Capabilities

open Capabilities

/-- `load_head_unit_capabilities`, for the bytes of the file; a file that is not there is
empty. -/
def loadHeadUnitCapabilities (file headUnitMac : Bytes) : Option HeadUnitCapabilities :=
  match getLines file with
  | [] => none
  | magic :: lines =>
      if magic ≠ Capabilities.kMagic then none
      else
        match readLines lines {} with
        | none => none
        | some profile =>
            if profile.Valid ∧ profile.headUnitMac = headUnitMac then some profile else none

/-! ## What was written is read back -/

namespace Capabilities

theorem parseU32_decimal (value : UInt32) : parseU32 (decimal value.toNat) = some value := by
  rw [parseU32, fromChars_decimal value.toNat_lt]
  dsimp only
  rw [UInt32.ofNat_toNat]

theorem boolText_eq_iff (value : Bool) : decide (boolText value = ascii "1") = value := by
  cases value <;> decide

theorem readLine_append {key : Bytes} (hkey : 0x3D ∉ key) (value : Bytes)
    (profile : HeadUnitCapabilities) :
    readLine (key ++ 0x3D :: value) profile = readValue key value profile := by
  obtain ⟨hfind, htake, hdrop⟩ := split_key hkey value
  rw [readLine, hfind]
  dsimp only
  rw [htake, hdrop]

theorem newline_notMem_decimal (n : ℕ) : (0x0A : UInt8) ∉ decimal n := fun hmem =>
  ne_of_mem_decimal hmem (by decide) rfl

theorem newline_notMem_boolText (value : Bool) : (0x0A : UInt8) ∉ boolText value := by
  cases value <;> decide

theorem newline_notMem_entries {profile : HeadUnitCapabilities} (h : profile.Valid) :
    ∀ entry ∈ entries profile, (0x0A : UInt8) ∉ entry.1 ∧ (0x0A : UInt8) ∉ entry.2 := by
  simp only [entries, List.forall_mem_cons, List.not_mem_nil, false_imp_iff, implies_true, and_true]
  exact ⟨⟨by decide, h.2.2.2.1⟩, ⟨by decide, newline_notMem_decimal _⟩,
    ⟨by decide, newline_notMem_decimal _⟩, ⟨by decide, newline_notMem_decimal _⟩,
    ⟨by decide, newline_notMem_boolText _⟩, ⟨by decide, newline_notMem_boolText _⟩,
    ⟨by decide, newline_notMem_boolText _⟩⟩

/-- The lines of a profile set its fields one after the other. -/
theorem readLines_entries (profile : HeadUnitCapabilities) :
    readLines ((entries profile).map fun entry => entry.1 ++ 0x3D :: entry.2) {} = some profile := by
  simp +decide only [entries, List.map_cons, List.map_nil, readLines, readLine_append, readValue,
    if_true, if_false, parseU32_decimal, Option.map_some, Option.bind_some, boolText_eq_iff]

end Capabilities

/-- The file of a valid profile holds it for its head unit, and nothing for another one. -/
theorem loadHeadUnitCapabilities_content {profile : HeadUnitCapabilities} (h : profile.Valid)
    (headUnitMac : Bytes) :
    loadHeadUnitCapabilities (Capabilities.content profile) headUnitMac =
      if headUnitMac = profile.headUnitMac then some profile else none := by
  have hmagic : 0x0A ∉ Capabilities.kMagic := by decide
  rw [loadHeadUnitCapabilities, Capabilities.content, getLines_append_newline hmagic,
    getLines_keyLines (newline_notMem_entries h)]
  dsimp only
  rw [if_neg (by simp), readLines_entries]
  dsimp only
  by_cases hmac : headUnitMac = profile.headUnitMac
  · rw [if_pos ⟨h, hmac.symm⟩, if_pos hmac]
  · rw [if_neg fun hboth => hmac hboth.2.symm, if_neg hmac]

/-- Whatever the file contains, what is loaded from it is valid and belongs to the head unit. -/
theorem valid_of_loadHeadUnitCapabilities {file headUnitMac : Bytes} {profile : HeadUnitCapabilities}
    (h : loadHeadUnitCapabilities file headUnitMac = some profile) :
    profile.Valid ∧ profile.headUnitMac = headUnitMac := by
  unfold loadHeadUnitCapabilities at h
  split at h
  · cases h
  · split at h
    · cases h
    · split at h
      · cases h
      · split at h
        · rename_i hvalid
          cases h
          exact hvalid
        · cases h

/-- The cache belongs to one head unit: the file of a valid profile holds this profile for its
own head unit and nothing for any other, and what is loaded from any file is valid and
belongs to the head unit that was asked for. -/
theorem headUnitCapabilities_saved_and_loaded (profile : HeadUnitCapabilities)
    (file headUnitMac : Bytes) :
    (profile.Valid → loadHeadUnitCapabilities (Capabilities.content profile) headUnitMac =
        if headUnitMac = profile.headUnitMac then some profile else none) ∧
      ∀ loaded, loadHeadUnitCapabilities file headUnitMac = some loaded →
        loaded.Valid ∧ loaded.headUnitMac = headUnitMac :=
  ⟨fun h => loadHeadUnitCapabilities_content h headUnitMac,
    fun _ h => valid_of_loadHeadUnitCapabilities h⟩

/-- A head unit without a display. -/
theorem headUnitCapabilities_saved_and_loaded_audio :
    let profile : HeadUnitCapabilities := ⟨ascii "AA:BB", 0, 0, 0, true, false, true⟩
    loadHeadUnitCapabilities (Capabilities.content profile) (ascii "AA:BB") = some profile ∧
      loadHeadUnitCapabilities (Capabilities.content profile) (ascii "DD:EE") = none := by
  have hvalid : (⟨ascii "AA:BB", 0, 0, 0, true, false, true⟩ : HeadUnitCapabilities).Valid := by
    decide
  exact ⟨(headUnitCapabilities_saved_and_loaded _ [] _).1 hvalid,
    (headUnitCapabilities_saved_and_loaded _ [] _).1 hvalid⟩

end Airplay
end Aa2acp
