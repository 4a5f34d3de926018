import Aa2acp.Lib.KeyLines

/-!
# The configuration file

`src/bridge/config.cpp`: which configurations are valid, the text that `save_config` writes
and what `load_config` reads from a text.  The file operations of `save_config` replace the
file as a whole or leave it as it is, so they come in as one outcome.

What is written is read back as it was (`loadConfig_content`).
-/

namespace Aa2acp
namespace Bridge

open Text KeyLines

structure Config where
  headUnitMac : Bytes := []
  wifiInterface : Bytes := []
  managementHotspotSsid : Bytes := []
  managementHotspotPassphrase : Bytes := []
  airplayPairingStore : Bytes := []
deriving DecidableEq, Repr

def kMagic : Bytes := ascii "AA2ACP-1"

def headUnitMacKey : Bytes := ascii "head_unit_mac"
def wifiInterfaceKey : Bytes := ascii "wifi_interface"
def managementHotspotSsidKey : Bytes := ascii "management_hotspot_ssid"
def managementHotspotPassphraseKey : Bytes := ascii "management_hotspot_passphrase"
def airplayPairingStoreKey : Bytes := ascii "airplay_pairing_store"

/-- `valid_serialized_value`. -/
def ValidSerializedValue (value : Bytes) : Prop :=
  0x0D ∉ value ∧ 0x0A ∉ value ∧ 0x3D ∉ value ∧ 0x00 ∉ value

instance (value : Bytes) : Decidable (ValidSerializedValue value) :=
  inferInstanceAs (Decidable (_ ∧ _))

/-- `validate_config`. -/
def validateConfig (config : Config) (allowLegacyHotspot : Bool) : Bool :=
  if config.wifiInterface = [] ∨ ¬ ValidSerializedValue config.headUnitMac ∨
      ¬ ValidSerializedValue config.wifiInterface ∨
      ¬ ValidSerializedValue config.managementHotspotSsid ∨
      ¬ ValidSerializedValue config.managementHotspotPassphrase ∨
      ¬ ValidSerializedValue config.airplayPairingStore then false
  else if (config.managementHotspotSsid = [] ∧ config.managementHotspotPassphrase = []) ∧
      allowLegacyHotspot then true
  else config.managementHotspotSsid ≠ [] ∧ config.managementHotspotPassphrase.length ≥ 8

/-- A line of the file. -/
def configLine (key value : Bytes) : Bytes := key ++ [0x3D] ++ value ++ [0x0A]

/-- The text that `save_config` writes. -/
def content (config : Config) : Bytes :=
  kMagic ++ [0x0A] ++ configLine headUnitMacKey config.headUnitMac ++
    configLine wifiInterfaceKey config.wifiInterface ++
    configLine managementHotspotSsidKey config.managementHotspotSsid ++
    configLine managementHotspotPassphraseKey config.managementHotspotPassphrase ++
    if config.airplayPairingStore = [] then []
    else configLine airplayPairingStoreKey config.airplayPairingStore

/-- One turn of the loop of `load_config`; `none` when the line is refused. -/
def readConfigLine (line : Bytes) (config : Config) : Option Config :=
  match find [0x3D] line with
  | none => none
  | some separator =>
      let key := line.take separator
      let value := line.drop (separator + 1)
      if key = headUnitMacKey then some { config with headUnitMac := value }
      else if key = wifiInterfaceKey then some { config with wifiInterface := value }
      else if key = managementHotspotSsidKey then
        some { config with managementHotspotSsid := value }
      else if key = managementHotspotPassphraseKey then
        some { config with managementHotspotPassphrase := value }
      else if key = airplayPairingStoreKey then some { config with airplayPairingStore := value }
      else none

def readConfigLines : List Bytes → Config → Option Config
  | [], config => some config
  | line :: lines, config => (readConfigLine line config).bind (readConfigLines lines)

/-- `load_config`, for the bytes of the file; a file that is not there is empty. -/
def loadConfig (file : Bytes) : Option Config :=
  match getLines file with
  | [] => none
  | magic :: lines =>
      if magic ≠ kMagic then none
      else
        match readConfigLines lines {} with
        | none => none
        | some config => if validateConfig config true then some config else none

/-- `save_config`: the result and the file afterwards.  `written` says whether the file
operations succeed. -/
def saveConfig (config : Config) (written : Bool) (file : Bytes) : Bool × Bytes :=
  if validateConfig config false ∧ written then (true, content config) else (false, file)

/-! ## What was written is read back -/

theorem readConfigLine_of_key {key : Bytes} (h : 0x3D ∉ key) (value : Bytes) (config : Config) :
    readConfigLine (key ++ 0x3D :: value) config =
      if key = headUnitMacKey then some { config with headUnitMac := value }
      else if key = wifiInterfaceKey then some { config with wifiInterface := value }
      else if key = managementHotspotSsidKey then
        some { config with managementHotspotSsid := value }
      else if key = managementHotspotPassphraseKey then
        some { config with managementHotspotPassphrase := value }
      else if key = airplayPairingStoreKey then some { config with airplayPairingStore := value }
      else none := by
  obtain ⟨hfind, hkey, hvalue⟩ := split_key h value
  simp only [readConfigLine, hfind, hkey, hvalue]

theorem ValidSerializedValue.no_newline {value : Bytes} (h : ValidSerializedValue value) :
    0x0A ∉ value := h.2.1

/-- A line of the file is one line of the text. -/
theorem getLines_configLine {key value : Bytes} (hkey : 0x0A ∉ key)
    (hvalue : ValidSerializedValue value) (rest : Bytes) :
    getLines (configLine key value ++ rest) = (key ++ 0x3D :: value) :: getLines rest :=
  getLines_keyLine hkey hvalue.no_newline rest

theorem valid_of_validateConfig {config : Config} {allowLegacyHotspot : Bool}
    (h : validateConfig config allowLegacyHotspot = true) :
    ValidSerializedValue config.headUnitMac ∧ ValidSerializedValue config.wifiInterface ∧
      ValidSerializedValue config.managementHotspotSsid ∧
      ValidSerializedValue config.managementHotspotPassphrase ∧
      ValidSerializedValue config.airplayPairingStore := by
  unfold validateConfig at h
  split at h
  · cases h
  · rename_i hvalid
    simp only [not_or, not_not] at hvalid
    exact hvalid.2

/-- What `save_config` lets through, `load_config` lets through. -/
theorem validateConfig_mono {config : Config} (h : validateConfig config false = true) :
    validateConfig config true = true := by
  unfold validateConfig at h ⊢
  split at h
  · cases h
  · rename_i hvalid
    rw [if_neg hvalid]
    split
    · rfl
    · simpa using h

/-- The file that `save_config` wrote holds the configuration. -/
theorem loadConfig_content {config : Config} (h : validateConfig config false = true) :
    loadConfig (content config) = some config := by
  obtain ⟨hmac, hwifi, hssid, hpassphrase, hstore⟩ := valid_of_validateConfig h
  have hmagic : 0x0A ∉ kMagic := by decide
  have hlines : getLines (content config) = kMagic ::
      (headUnitMacKey ++ 0x3D :: config.headUnitMac) ::
      (wifiInterfaceKey ++ 0x3D :: config.wifiInterface) ::
      (managementHotspotSsidKey ++ 0x3D :: config.managementHotspotSsid) ::
      (managementHotspotPassphraseKey ++ 0x3D :: config.managementHotspotPassphrase) ::
      if config.airplayPairingStore = [] then []
      else [airplayPairingStoreKey ++ 0x3D :: config.airplayPairingStore] := by
    simp only [content, List.append_assoc]
    rw [List.singleton_append, getLines_append_newline hmagic,
      getLines_configLine (by decide) hmac, getLines_configLine (by decide) hwifi,
      getLines_configLine (by decide) hssid, getLines_configLine (by decide) hpassphrase]
    split
    · rfl
    · rw [← List.append_nil (configLine airplayPairingStoreKey config.airplayPairingStore),
        getLines_configLine (by decide) hstore]
      rfl
  have hvalid := validateConfig_mono h
  by_cases hempty : config.airplayPairingStore = []
  · have hconfig : config = ⟨config.headUnitMac, config.wifiInterface,
        config.managementHotspotSsid, config.managementHotspotPassphrase, []⟩ := by
      rw [← hempty]
    rw [hconfig] at hvalid
    simp +decide only [loadConfig, hlines, hempty, readConfigLines, readConfigLine_of_key,
      Option.bind_some, hvalid, if_true, if_false]
    rw [← hconfig]
  · simp +decide only [loadConfig, hlines, hempty, readConfigLines, readConfigLine_of_key,
      Option.bind_some, hvalid, if_true, if_false]

/-! ## What was read is written again -/

/-- A configuration from before the management hotspot. -/
def Config.Legacy (config : Config) : Prop :=
  config.managementHotspotSsid = [] ∧ config.managementHotspotPassphrase = []

/-- `load_config` accepts one kind of configuration that `save_config` refuses. -/
theorem legacy_or_validateConfig {config : Config} (h : validateConfig config true = true) :
    config.Legacy ∨ validateConfig config false = true := by
  unfold validateConfig at h ⊢
  split at h
  · cases h
  · rename_i hvalid
    rw [if_neg hvalid]
    split at h
    · rename_i hlegacy
      exact Or.inl hlegacy.1
    · right
      simpa using h

theorem validateConfig_of_loadConfig {file : Bytes} {config : Config}
    (h : loadConfig file = some config) : validateConfig config true = true := by
  unfold loadConfig at h
  split at h
  · cases h
  · split at h
    · cases h
    · split at h
      · cases h
      · split at h
        · rename_i hvalid
          cases h
          exact hvalid
        · cases h

/-- A configuration that is not refused is written as a file from which it is loaded. -/
theorem saveConfig_valid {config : Config} (h : validateConfig config false = true) (file : Bytes) :
    saveConfig config true file = (true, content config) ∧
      loadConfig (content config) = some config := by
  constructor
  · rw [saveConfig, if_pos ⟨h, rfl⟩]
  · exact loadConfig_content h

/-- `save_config` refuses a configuration, or writes a file that holds it; and what was
loaded from any file is a legacy configuration, or can be saved and loaded again. -/
theorem config_saved_and_loaded (config : Config) (file previous : Bytes) :
    (saveConfig config true previous = (false, previous) ∨
        ∃ written, saveConfig config true previous = (true, written) ∧
          loadConfig written = some config) ∧
      (loadConfig file = some config → config.Legacy ∨
        ∃ written, saveConfig config true previous = (true, written) ∧
          loadConfig written = some config) := by
  constructor
  · cases hvalid : validateConfig config false with
    | false =>
        left
        rw [saveConfig, if_neg (by simp [hvalid])]
    | true => exact Or.inr ⟨content config, saveConfig_valid hvalid previous⟩
  · intro hload
    rcases legacy_or_validateConfig (validateConfig_of_loadConfig hload) with hlegacy | hvalid
    · exact Or.inl hlegacy
    · exact Or.inr ⟨content config, saveConfig_valid hvalid previous⟩

/-- A file with two lines for one key, the first of which does not count. -/
theorem config_saved_and_loaded_twice :
    let file := ascii "AA2ACP-1\nwifi_interface=wlan1\nwifi_interface=wlan0\n" ++
      ascii "management_hotspot_ssid=car\nmanagement_hotspot_passphrase=password\n"
    let config : Config := ⟨[], ascii "wlan0", ascii "car", ascii "password", []⟩
    loadConfig file = some config ∧ (config.Legacy ∨ ∃ written,
      saveConfig config true [] = (true, written) ∧ loadConfig written = some config) := by
  have hload : loadConfig (ascii "AA2ACP-1\nwifi_interface=wlan1\nwifi_interface=wlan0\n" ++
      ascii "management_hotspot_ssid=car\nmanagement_hotspot_passphrase=password\n") =
        some ⟨[], ascii "wlan0", ascii "car", ascii "password", []⟩ := by
    decide +kernel
  exact ⟨hload, (config_saved_and_loaded _ _ []).2 hload⟩

end Bridge
end Aa2acp
