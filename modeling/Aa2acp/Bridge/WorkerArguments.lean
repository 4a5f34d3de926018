import Aa2acp.Bridge.Config
import Aa2acp.Bridge.ManagementUi

/-!
# The arguments of the CarPlay worker

The way of a configuration into the worker process: the argument list of
`run_carplay_session` (`src/bridge_daemon_main.cpp`), the message that `CarPlayWorker::run`
makes of it and how the worker cuts it up again (`src/bridge/carplay_worker.cpp`), and the
option parser of `run_bluetooth_worker` (`src/iap2_bt_main.cpp`).

The parser knows a value from an option by its place alone, so values may look like options
(`parseOptions_settings`), and the message may hold empty arguments
(`cutArguments_marshal`).
-/

namespace Aa2acp
namespace Bridge

open Text

/-! ## The daemon -/

/-- What `run_carplay_session` is given besides the configuration. -/
structure SessionPaths where
  videoSocket : Bytes := []
  mediaAudioSocket : Bytes := []
  guidanceAudioSocket : Bytes := []
  systemAudioSocket : Bytes := []
  eventSocket : Bytes := []
  microphoneSocket : Bytes := []
  preflight : Bool := false
  videoPath : Bytes := []
deriving DecidableEq, Repr

/-- An option for a path that may be empty. -/
def optionalArgument (name : String) (path : Bytes) : List Bytes :=
  if path ≠ [] then [ascii name, path] else []

/-- The arguments that `run_carplay_session` builds. -/
def carplayArguments (config : Config) (capabilitiesStore : Bytes) (paths : SessionPaths) :
    List Bytes :=
  [ascii "aa2acp-iap2-bt",
    ascii "--bridge",
    ascii "--mac", config.headUnitMac,
    ascii "--wifi-interface", config.wifiInterface,
    ascii "--management-hotspot-ssid", config.managementHotspotSsid,
    ascii "--management-hotspot-passphrase", config.managementHotspotPassphrase,
    ascii "--pairing-store", config.airplayPairingStore,
    ascii "--head-unit-capabilities-store", capabilitiesStore,
    ascii "--timeout", ascii "60"] ++
  (if paths.preflight then [ascii "--preflight"] else []) ++
  optionalArgument "--video" paths.videoPath ++
  optionalArgument "--video-socket" paths.videoSocket ++
  optionalArgument "--audio-socket" paths.mediaAudioSocket ++
  optionalArgument "--guidance-audio-socket" paths.guidanceAudioSocket ++
  optionalArgument "--system-audio-socket" paths.systemAudioSocket ++
  optionalArgument "--event-socket" paths.eventSocket ++
  optionalArgument "--microphone-socket" paths.microphoneSocket

/-- The message of `CarPlayWorker::run`. -/
def marshal (arguments : List Bytes) : Bytes :=
  0x01 :: arguments.flatMap fun argument => argument ++ [0x00]

/-- How a request begins: what was sent, and the result when it ends at once. -/
structure RequestStart where
  sent : List Bytes
  result : Option ℤ
deriving DecidableEq, Repr

/-- `CarPlayWorker::run` up to its loop.  The worker process is there (`usable`), and `send`
takes the message (`accepted`). -/
def startRequest (usable accepted : Bool) (arguments : List Bytes) : RequestStart :=
  if ¬ usable then ⟨[], some 1⟩
  else if (marshal arguments).length > 8192 then ⟨[], some 1⟩
  else if accepted then ⟨[marshal arguments], none⟩
  else ⟨[], some 1⟩

/-- `run_carplay_session` up to the loop of `CarPlayWorker::run`. -/
def runCarplaySession (usable accepted : Bool) (config : Config) (capabilitiesStore : Bytes)
    (paths : SessionPaths) : RequestStart :=
  if config.headUnitMac = [] then ⟨[], some 2⟩
  else startRequest usable accepted (carplayArguments config capabilitiesStore paths)

/-! ## The worker process -/

/-- The buffer after a message came in, over what an earlier one left. -/
def received (message buffer : Bytes) : Bytes :=
  message.take 8192 ++ buffer.drop (message.take 8192).length

inductive WorkerCommand where
  | stop
  | answer (confirmation : Bytes) (confirmed : Bool)
  | run (arguments : List Bytes)
  | ignored
deriving DecidableEq, Repr

/-- The loop with `strlen`; `left` bytes of the message are left. -/
def cutFrom : ℕ → Bytes → ℕ → List Bytes
  | 0, _, _ => []
  | fuel + 1, rest, left =>
      if left = 0 then []
      else
        let argument := rest.takeWhile (· ≠ 0x00)
        argument :: cutFrom fuel (rest.drop (argument.length + 1)) (left - (argument.length + 1))

def cutArguments (buffer : Bytes) (count : ℕ) : List Bytes :=
  cutFrom count (buffer.drop 1) (count - 1)

/-- A turn of the worker's loop, for `count` bytes in the buffer.  A confirmation has 32
bytes. -/
def readRequest (buffer : Bytes) (count : ℕ) : WorkerCommand :=
  let first := buffer.getD 0 0
  if first = 0x02 then .stop
  else if first = 0x04 ∧ count = 1 + 32 + 1 then
    .answer ((buffer.drop 1).take 32) (buffer.getD (1 + 32) 0 ≠ 0x00)
  else if first ≠ 0x01 then .ignored
  else .run (cutArguments buffer count)

/-! ## The option parser -/

structure WorkerOptions where
  address : Bytes := []
  timeoutSeconds : ℤ := 15
  bootstrap : Bool := false
  carplay : Bool := false
  wifiConfig : Bool := false
  joinWifi : Bool := false
  leaveWifi : Bool := false
  bridge : Bool := false
  videoPath : Bytes := []
  videoSocket : Bytes := []
  audioSocket : Bytes := []
  guidanceAudioSocket : Bytes := []
  systemAudioSocket : Bytes := []
  eventSocket : Bytes := []
  microphoneSocket : Bytes := []
  pairingStore : Bytes := []
  headUnitCapabilitiesStore : Bytes := []
  wifiInterface : Bytes := []
  managementHotspotSsid : Bytes := []
  managementHotspotPassphrase : Bytes := []
deriving DecidableEq, Repr

/-- `std::stoi`; `none` when it throws. -/
def stoi (text : Bytes) : Option ℤ :=
  match text.dropWhile Management.isSpace with
  | [] => none
  | character :: rest =>
      if character = 0x2D then (fromChars (2 ^ 31 + 1) rest).map fun read => -(read.1 : ℤ)
      else if character = 0x2B then (fromChars (2 ^ 31) rest).map fun read => (read.1 : ℤ)
      else (fromChars (2 ^ 31) (character :: rest)).map fun read => (read.1 : ℤ)

def timeoutOf (value : Bytes) : ℤ :=
  let seconds := (stoi value).getD 15
  if seconds ≤ 0 then 15 else seconds

/-- The options that take a value. -/
inductive ValueOption where
  | mac | timeout | video | headUnitCapabilitiesStore | videoSocket | audioSocket
  | guidanceAudioSocket | systemAudioSocket | eventSocket | microphoneSocket | pairingStore
  | wifiInterface | managementHotspotSsid | managementHotspotPassphrase
deriving DecidableEq, Repr

def ValueOption.name : ValueOption → Bytes
  | .mac => ascii "--mac"
  | .timeout => ascii "--timeout"
  | .video => ascii "--video"
  | .headUnitCapabilitiesStore => ascii "--head-unit-capabilities-store"
  | .videoSocket => ascii "--video-socket"
  | .audioSocket => ascii "--audio-socket"
  | .guidanceAudioSocket => ascii "--guidance-audio-socket"
  | .systemAudioSocket => ascii "--system-audio-socket"
  | .eventSocket => ascii "--event-socket"
  | .microphoneSocket => ascii "--microphone-socket"
  | .pairingStore => ascii "--pairing-store"
  | .wifiInterface => ascii "--wifi-interface"
  | .managementHotspotSsid => ascii "--management-hotspot-ssid"
  | .managementHotspotPassphrase => ascii "--management-hotspot-passphrase"

def ValueOption.set (value : Bytes) (options : WorkerOptions) : ValueOption → WorkerOptions
  | .mac => { options with address := value }
  | .timeout => { options with timeoutSeconds := timeoutOf value }
  | .video => { options with videoPath := value }
  | .headUnitCapabilitiesStore => { options with headUnitCapabilitiesStore := value }
  | .videoSocket => { options with videoSocket := value }
  | .audioSocket => { options with audioSocket := value }
  | .guidanceAudioSocket => { options with guidanceAudioSocket := value }
  | .systemAudioSocket => { options with systemAudioSocket := value }
  | .eventSocket => { options with eventSocket := value }
  | .microphoneSocket => { options with microphoneSocket := value }
  | .pairingStore => { options with pairingStore := value }
  | .wifiInterface => { options with wifiInterface := value }
  | .managementHotspotSsid => { options with managementHotspotSsid := value }
  | .managementHotspotPassphrase => { options with managementHotspotPassphrase := value }

/-- The options that do not. -/
inductive FlagOption where
  | bootstrap | carplay | wifiConfig | joinWifi | leaveWifi | bridge | preflight
deriving DecidableEq, Repr

def FlagOption.name : FlagOption → Bytes
  | .bootstrap => ascii "--bootstrap"
  | .carplay => ascii "--carplay"
  | .wifiConfig => ascii "--wifi-config"
  | .joinWifi => ascii "--join-wifi"
  | .leaveWifi => ascii "--leave-wifi"
  | .bridge => ascii "--bridge"
  | .preflight => ascii "--preflight"

def FlagOption.set (options : WorkerOptions) : FlagOption → WorkerOptions
  | .bootstrap => { options with bootstrap := true }
  | .carplay => { options with bootstrap := true, carplay := true }
  | .wifiConfig => { options with bootstrap := true, carplay := true, wifiConfig := true }
  | .joinWifi =>
      { options with bootstrap := true, carplay := true, wifiConfig := true, joinWifi := true }
  | .leaveWifi => { options with leaveWifi := true }
  | .bridge | .preflight =>
      { options with
        bootstrap := true, carplay := true, wifiConfig := true, joinWifi := true, bridge := true }

def valueOptions : List ValueOption :=
  [.mac, .timeout, .video, .headUnitCapabilitiesStore, .videoSocket, .audioSocket,
    .guidanceAudioSocket, .systemAudioSocket, .eventSocket, .microphoneSocket, .pairingStore,
    .wifiInterface, .managementHotspotSsid, .managementHotspotPassphrase]

def flagOptions : List FlagOption :=
  [.bootstrap, .carplay, .wifiConfig, .joinWifi, .leaveWifi, .bridge, .preflight]

/-- An argument that must be a flag, as its place is not that of a value. -/
def readFlag (argument : Bytes) (options : WorkerOptions) : Option WorkerOptions :=
  (flagOptions.find? (·.name = argument)).map (·.set options)

/-- The loop over the arguments; `none` when the usage is printed. -/
def parseOptions : List Bytes → WorkerOptions → Option WorkerOptions
  | [], options => some options
  | [argument], options => readFlag argument options
  | argument :: value :: rest, options =>
      match valueOptions.find? (·.name = argument) with
      | some option => parseOptions rest (option.set value options)
      | none => (readFlag argument options).bind (parseOptions (value :: rest))

inductive WorkerStart where
  | usage
  | leaveWithoutInterface
  | leave (wifiInterface : Bytes)
  | noAddress
  | noInterface
  | session (options : WorkerOptions)
deriving DecidableEq, Repr

/-- `run_bluetooth_worker` up to its session; the first argument is the program's name. -/
def runBluetoothWorker (arguments : List Bytes) : WorkerStart :=
  match parseOptions (arguments.drop 1) {} with
  | none => .usage
  | some options =>
      if options.leaveWifi then
        if options.wifiInterface = [] then .leaveWithoutInterface
        else .leave options.wifiInterface
      else if options.address = [] then .noAddress
      else if (options.wifiConfig ∨ options.joinWifi ∨ options.bridge) ∧
          options.wifiInterface = [] then .noInterface
      else .session options

/-! ## Settings -/

/-- An option with its value, or a flag. -/
inductive Setting where
  | valued (option : ValueOption) (value : Bytes)
  | flagged (option : FlagOption)
deriving DecidableEq, Repr

def Setting.arguments : Setting → List Bytes
  | .valued option value => [option.name, value]
  | .flagged option => [option.name]

def Setting.apply (options : WorkerOptions) : Setting → WorkerOptions
  | .valued option value => option.set value options
  | .flagged option => option.set options

/-- No two options have one name. -/
theorem nodup_names :
    (valueOptions.map ValueOption.name ++ flagOptions.map FlagOption.name).Nodup := by
  simp only [valueOptions, flagOptions, List.map_cons, List.map_nil, ValueOption.name,
    FlagOption.name]
  repeat rw [ascii_ofList]
  decide +kernel

/-- Among items with names of their own each is found by its name. -/
theorem find?_of_nodup {α : Type} {items : List α} {name : α → Bytes}
    (h : (items.map name).Nodup) {item : α} (hmem : item ∈ items) :
    items.find? (name · = name item) = some item := by
  rw [List.find?_eq_some_iff_append]
  obtain ⟨before, after, rfl⟩ := List.append_of_mem hmem
  refine ⟨by simp, before, after, rfl, ?_⟩
  intro other hother
  rw [List.map_append, List.map_cons, List.nodup_append] at h
  have hne := h.2.2 _ (List.mem_map_of_mem hother) _ List.mem_cons_self
  simpa using hne

theorem find?_valueOptions (option : ValueOption) :
    valueOptions.find? (·.name = option.name) = some option :=
  find?_of_nodup nodup_names.of_append_left (by cases option <;> decide)

theorem find?_valueOptions_flag (option : FlagOption) :
    valueOptions.find? (·.name = option.name) = none := by
  rw [List.find?_eq_none]
  intro other hother
  have hflag : option ∈ flagOptions := by cases option <;> decide
  have hne := (List.nodup_append.mp nodup_names).2.2 _ (List.mem_map_of_mem hother) _
    (List.mem_map_of_mem hflag)
  simpa using hne

theorem readFlag_name (option : FlagOption) (options : WorkerOptions) :
    readFlag option.name options = some (option.set options) := by
  have hfind : flagOptions.find? (·.name = option.name) = some option :=
    find?_of_nodup nodup_names.of_append_right (by cases option <;> decide)
  unfold readFlag
  rw [hfind]
  rfl

theorem parseOptions_value (option : ValueOption) (value : Bytes) (rest : List Bytes)
    (options : WorkerOptions) :
    parseOptions (option.name :: value :: rest) options =
      parseOptions rest (option.set value options) := by
  rw [parseOptions, find?_valueOptions]

theorem parseOptions_flag (option : FlagOption) (rest : List Bytes) (options : WorkerOptions) :
    parseOptions (option.name :: rest) options = parseOptions rest (option.set options) := by
  cases rest with
  | nil => exact readFlag_name option options
  | cons value rest =>
    rw [parseOptions, find?_valueOptions_flag]
    simp only [readFlag_name, Option.bind_some]

/-- Settings are read as they are meant, whatever their values are. -/
theorem parseOptions_settings (settings : List Setting) (options : WorkerOptions) :
    parseOptions (settings.flatMap Setting.arguments) options =
      some (settings.foldl Setting.apply options) := by
  induction settings generalizing options with
  | nil => rfl
  | cons setting settings ih =>
    rw [List.flatMap_cons, List.foldl_cons, ← ih]
    cases setting with
    | valued option value => exact parseOptions_value option value _ options
    | flagged option => exact parseOptions_flag option _ options

/-- A path is set only when there is one. -/
def optionalSetting (option : ValueOption) (path : Bytes) : List Setting :=
  if path ≠ [] then [.valued option path] else []

theorem foldl_optionalSetting {option : ValueOption} {options : WorkerOptions} (path : Bytes)
    (h : option.set [] options = options) :
    (optionalSetting option path).foldl Setting.apply options = option.set path options := by
  unfold optionalSetting
  split
  · rfl
  · rename_i hempty
    rw [not_not] at hempty
    rw [hempty, h]
    rfl

/-- What the daemon means. -/
def carplaySettings (config : Config) (capabilitiesStore : Bytes) (paths : SessionPaths) :
    List Setting :=
  [.flagged .bridge,
    .valued .mac config.headUnitMac,
    .valued .wifiInterface config.wifiInterface,
    .valued .managementHotspotSsid config.managementHotspotSsid,
    .valued .managementHotspotPassphrase config.managementHotspotPassphrase,
    .valued .pairingStore config.airplayPairingStore,
    .valued .headUnitCapabilitiesStore capabilitiesStore,
    .valued .timeout (ascii "60")] ++
  (if paths.preflight then [.flagged .preflight] else []) ++
  optionalSetting .video paths.videoPath ++
  optionalSetting .videoSocket paths.videoSocket ++
  optionalSetting .audioSocket paths.mediaAudioSocket ++
  optionalSetting .guidanceAudioSocket paths.guidanceAudioSocket ++
  optionalSetting .systemAudioSocket paths.systemAudioSocket ++
  optionalSetting .eventSocket paths.eventSocket ++
  optionalSetting .microphoneSocket paths.microphoneSocket

/-- The options that the worker is to have. -/
def intendedOptions (config : Config) (capabilitiesStore : Bytes) (paths : SessionPaths) :
    WorkerOptions where
  address := config.headUnitMac
  timeoutSeconds := 60
  bootstrap := true
  carplay := true
  wifiConfig := true
  joinWifi := true
  bridge := true
  videoPath := paths.videoPath
  videoSocket := paths.videoSocket
  audioSocket := paths.mediaAudioSocket
  guidanceAudioSocket := paths.guidanceAudioSocket
  systemAudioSocket := paths.systemAudioSocket
  eventSocket := paths.eventSocket
  microphoneSocket := paths.microphoneSocket
  pairingStore := config.airplayPairingStore
  headUnitCapabilitiesStore := capabilitiesStore
  wifiInterface := config.wifiInterface
  managementHotspotSsid := config.managementHotspotSsid
  managementHotspotPassphrase := config.managementHotspotPassphrase

theorem flatMap_optionalSetting {option : ValueOption} {name : String}
    (h : ascii name = option.name) (path : Bytes) :
    (optionalSetting option path).flatMap Setting.arguments = optionalArgument name path := by
  unfold optionalSetting optionalArgument
  rw [h]
  split <;> rfl

theorem carplayArguments_eq (config : Config) (capabilitiesStore : Bytes)
    (paths : SessionPaths) :
    carplayArguments config capabilitiesStore paths = ascii "aa2acp-iap2-bt" ::
      (carplaySettings config capabilitiesStore paths).flatMap Setting.arguments := by
  have hpreflight : (if paths.preflight then [Setting.flagged .preflight] else []).flatMap
      Setting.arguments = if paths.preflight then [ascii "--preflight"] else [] := by
    split <;> rfl
  unfold carplaySettings
  simp only [List.flatMap_append, hpreflight,
    @flatMap_optionalSetting .video "--video" rfl,
    @flatMap_optionalSetting .videoSocket "--video-socket" rfl,
    @flatMap_optionalSetting .audioSocket "--audio-socket" rfl,
    @flatMap_optionalSetting .guidanceAudioSocket "--guidance-audio-socket" rfl,
    @flatMap_optionalSetting .systemAudioSocket "--system-audio-socket" rfl,
    @flatMap_optionalSetting .eventSocket "--event-socket" rfl,
    @flatMap_optionalSetting .microphoneSocket "--microphone-socket" rfl]
  rfl

theorem foldl_carplaySettings (config : Config) (capabilitiesStore : Bytes)
    (paths : SessionPaths) :
    (carplaySettings config capabilitiesStore paths).foldl Setting.apply {} =
      intendedOptions config capabilitiesStore paths := by
  have htimeout : timeoutOf (ascii "60") = 60 := by decide
  have hpreflight : ∀ options : WorkerOptions, FlagOption.set options .preflight = options →
      (if paths.preflight then [Setting.flagged .preflight] else []).foldl Setting.apply options =
        options := by
    intro options h
    split
    · exact h
    · rfl
  unfold carplaySettings
  simp only [List.foldl_append, List.foldl_cons, List.foldl_nil, Setting.apply, ValueOption.set,
    FlagOption.set, htimeout]
  -- from the inside out; at its turn every option still has no value
  rw [hpreflight _ rfl, @foldl_optionalSetting .video, @foldl_optionalSetting .videoSocket,
    @foldl_optionalSetting .audioSocket, @foldl_optionalSetting .guidanceAudioSocket,
    @foldl_optionalSetting .systemAudioSocket, @foldl_optionalSetting .eventSocket,
    @foldl_optionalSetting .microphoneSocket]
  all_goals rfl

/-! ## The message -/

theorem cutFrom_marshal {arguments : List Bytes}
    (h : ∀ argument ∈ arguments, 0x00 ∉ argument) (stale : Bytes) (fuel : ℕ)
    (hfuel : (arguments.flatMap fun argument => argument ++ [0x00]).length ≤ fuel) :
    cutFrom fuel ((arguments.flatMap fun argument => argument ++ [0x00]) ++ stale)
      (arguments.flatMap fun argument => argument ++ [0x00]).length = arguments := by
  induction arguments generalizing fuel with
  | nil => cases fuel <;> rfl
  | cons argument arguments ih =>
    obtain ⟨hargument, harguments⟩ := List.forall_mem_cons.mp h
    rw [List.flatMap_cons, List.length_append, List.length_append, List.length_singleton] at hfuel ⊢
    obtain ⟨fuel, rfl⟩ := Nat.exists_eq_succ_of_ne_zero (show fuel ≠ 0 by omega)
    have hwhole : argument ++ [0x00] ++ (arguments.flatMap fun argument => argument ++ [0x00]) ++
        stale = argument ++ (0x00 ::
          ((arguments.flatMap fun argument => argument ++ [0x00]) ++ stale)) := by simp
    have htake : (argument ++ (0x00 :: ((arguments.flatMap fun argument => argument ++ [0x00]) ++
        stale))).takeWhile (· ≠ 0x00) = argument := by
      rw [List.takeWhile_append_of_pos, List.takeWhile_cons_of_neg (by decide), List.append_nil]
      intro byte hbyte
      rw [decide_eq_true_eq]
      rintro rfl
      exact hargument hbyte
    rw [hwhole]
    unfold cutFrom
    rw [if_neg (by omega)]
    dsimp only
    rw [htake, List.append_cons, List.drop_left' (by simp), Nat.add_sub_cancel_left,
      ih harguments fuel (by omega)]

theorem received_eq {message : Bytes} (h : message.length ≤ 8192) (buffer : Bytes) :
    received message buffer = message ++ buffer.drop message.length := by
  unfold received
  rw [List.take_of_length_le h]

/-- The worker cuts a message into the arguments that it was made of, also empty ones. -/
theorem readRequest_marshal {arguments : List Bytes}
    (h : ∀ argument ∈ arguments, 0x00 ∉ argument) (hlength : (marshal arguments).length ≤ 8192)
    (buffer : Bytes) :
    readRequest (received (marshal arguments) buffer) (marshal arguments).length =
      .run arguments := by
  have hcut := cutFrom_marshal h (buffer.drop (marshal arguments).length)
    (marshal arguments).length (Nat.le_succ _)
  rw [received_eq hlength]
  exact congrArg WorkerCommand.run hcut

/-! ## The whole way -/

structure Config.NoZero (config : Config) : Prop where
  headUnitMac : 0x00 ∉ config.headUnitMac
  wifiInterface : 0x00 ∉ config.wifiInterface
  managementHotspotSsid : 0x00 ∉ config.managementHotspotSsid
  managementHotspotPassphrase : 0x00 ∉ config.managementHotspotPassphrase
  airplayPairingStore : 0x00 ∉ config.airplayPairingStore

structure SessionPaths.NoZero (paths : SessionPaths) : Prop where
  videoSocket : 0x00 ∉ paths.videoSocket
  mediaAudioSocket : 0x00 ∉ paths.mediaAudioSocket
  guidanceAudioSocket : 0x00 ∉ paths.guidanceAudioSocket
  systemAudioSocket : 0x00 ∉ paths.systemAudioSocket
  eventSocket : 0x00 ∉ paths.eventSocket
  microphoneSocket : 0x00 ∉ paths.microphoneSocket
  videoPath : 0x00 ∉ paths.videoPath

section

variable {config : Config} {capabilitiesStore : Bytes} {paths : SessionPaths}

theorem noZero_optionalArgument {name : String} {path : Bytes} (hname : 0x00 ∉ ascii name)
    (hpath : 0x00 ∉ path) : ∀ argument ∈ optionalArgument name path, 0x00 ∉ argument := by
  intro argument hargument
  unfold optionalArgument at hargument
  split at hargument
  · simp only [List.mem_cons, List.not_mem_nil, or_false] at hargument
    rcases hargument with rfl | rfl
    · exact hname
    · exact hpath
  · cases hargument

theorem noZero_carplayArguments (hconfig : config.NoZero) (hstore : 0x00 ∉ capabilitiesStore)
    (hpaths : paths.NoZero) :
    ∀ argument ∈ carplayArguments config capabilitiesStore paths, 0x00 ∉ argument := by
  have hpreflight : ∀ argument ∈ (if paths.preflight then [ascii "--preflight"] else []),
      0x00 ∉ argument := by
    split
    · decide
    · simp
  unfold carplayArguments
  simp only [List.forall_mem_append]
  refine ⟨⟨⟨⟨⟨⟨⟨⟨?_, hpreflight⟩, noZero_optionalArgument (by decide) hpaths.videoPath⟩,
    noZero_optionalArgument (by decide) hpaths.videoSocket⟩,
    noZero_optionalArgument (by decide) hpaths.mediaAudioSocket⟩,
    noZero_optionalArgument (by decide) hpaths.guidanceAudioSocket⟩,
    noZero_optionalArgument (by decide) hpaths.systemAudioSocket⟩,
    noZero_optionalArgument (by decide) hpaths.eventSocket⟩,
    noZero_optionalArgument (by decide) hpaths.microphoneSocket⟩
  simp only [List.forall_mem_cons]
  exact ⟨by decide, by decide, by decide, hconfig.headUnitMac, by decide, hconfig.wifiInterface,
    by decide, hconfig.managementHotspotSsid, by decide, hconfig.managementHotspotPassphrase,
    by decide, hconfig.airplayPairingStore, by decide, hstore, by decide, by decide, by simp⟩

theorem parseOptions_carplayArguments :
    parseOptions ((carplayArguments config capabilitiesStore paths).drop 1) {} =
      some (intendedOptions config capabilitiesStore paths) := by
  rw [carplayArguments_eq, List.drop_succ_cons, List.drop_zero, parseOptions_settings,
    foldl_carplaySettings]

theorem runBluetoothWorker_carplayArguments (hmac : config.headUnitMac ≠ []) :
    runBluetoothWorker (carplayArguments config capabilitiesStore paths) =
      if config.wifiInterface = [] then .noInterface
      else .session (intendedOptions config capabilitiesStore paths) := by
  unfold runBluetoothWorker
  rw [parseOptions_carplayArguments]
  simp [intendedOptions, hmac]

/-- The worker gets the configuration that the daemon means, or nothing is sent.  Without an
interface the worker refuses the session, though it has read the options. -/
theorem worker_gets_configuration (hmac : config.headUnitMac ≠ []) (hconfig : config.NoZero)
    (hstore : 0x00 ∉ capabilitiesStore) (hpaths : paths.NoZero) :
    let arguments := carplayArguments config capabilitiesStore paths
    ((marshal arguments).length ≤ 8192 →
      runCarplaySession true true config capabilitiesStore paths = ⟨[marshal arguments], none⟩ ∧
      (∀ buffer, readRequest (received (marshal arguments) buffer) (marshal arguments).length =
        .run arguments) ∧
      parseOptions (arguments.drop 1) {} = some (intendedOptions config capabilitiesStore paths) ∧
      runBluetoothWorker arguments = if config.wifiInterface = [] then .noInterface
        else .session (intendedOptions config capabilitiesStore paths)) ∧
    ((marshal arguments).length > 8192 → ∀ usable accepted,
      runCarplaySession usable accepted config capabilitiesStore paths = ⟨[], some 1⟩) := by
  intro arguments
  constructor
  · intro hlength
    refine ⟨?_, ?_, parseOptions_carplayArguments, runBluetoothWorker_carplayArguments hmac⟩
    · have hshort : ¬ (marshal (carplayArguments config capabilitiesStore paths)).length > 8192 :=
        Nat.not_lt.mpr hlength
      unfold runCarplaySession startRequest
      rw [if_neg hmac, if_neg (by decide), if_neg hshort]
      rfl
    · exact readRequest_marshal (noZero_carplayArguments hconfig hstore hpaths) hlength
  · intro hlength usable accepted
    unfold runCarplaySession startRequest
    rw [if_neg hmac, if_pos hlength]
    split <;> rfl

end

/-- An SSID that is an option, a passphrase that is another one, and an empty store. -/
theorem worker_gets_configuration_options :
    let config : Config := ⟨ascii "aa:bb", ascii "--leave-wifi", ascii "--timeout", ascii "--", []⟩
    let paths : SessionPaths := { eventSocket := ascii "--mac" }
    let arguments := carplayArguments config [] paths
    (marshal arguments).length ≤ 8192 ∧
      runCarplaySession true true config [] paths = ⟨[marshal arguments], none⟩ ∧
      (∀ buffer, readRequest (received (marshal arguments) buffer) (marshal arguments).length =
        .run arguments) ∧
      runBluetoothWorker arguments = .session (intendedOptions config [] paths) := by
  intro config paths arguments
  have hconfig : config.NoZero := ⟨by decide, by decide, by decide, by decide, by decide⟩
  have hpaths : paths.NoZero :=
    ⟨by decide, by decide, by decide, by decide, by decide, by decide, by decide⟩
  have hlength : (marshal arguments).length ≤ 8192 := by decide +kernel
  obtain ⟨hsent, hread, -, hstarted⟩ :=
    (worker_gets_configuration (by decide) hconfig (by simp) hpaths).1 hlength
  exact ⟨hlength, hsent, hread, hstarted.trans (if_neg (by decide))⟩

end Bridge
end Aa2acp
