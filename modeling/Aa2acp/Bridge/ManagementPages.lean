import Aa2acp.Airplay.RtspRoundTrip
import Aa2acp.Bridge.Config
import Aa2acp.Bridge.ManagementUi
import Aa2acp.Lib.Provenance
import Aa2acp.Lib.Unicode

/-!
# The configuration page

`render_page` of `src/bridge/management_ui.cpp` with `html_escape` and `random_token`.  The
page is a text that knows where each of its characters comes from: the page's own text, a
number, the token, the version the build was made as, or a value, which is what somebody
else chose: a setting, the name of a device nearby, an SSID, a status or an error.

Every character that markup or a script is made of is the page's own or the build's
(`renderPage_safe`): no value brings one in.
-/

namespace Aa2acp
namespace Bridge
namespace Management

open Airplay Provenance Text

/-! ## The text of a page -/

inductive Origin where
  | page
  | version
  | number
  | token
  | value
deriving DecidableEq, Repr

abbrev Html := List (Marked UInt8 Origin)

/-- String literals of the source, one after the other. -/
def lits (texts : List String) : Html := mark .page (texts.flatMap ascii)

/-- A literal with characters outside ASCII. -/
def litUtf8 (text : String) : Html := mark .page (Unicode.utf8 text.toList)

/-- `std::to_string`. -/
def number (value : ℤ) : Html := mark .number (decimal value)

/-- The switch of `html_escape`. -/
def htmlEntity (character : UInt8) : Bytes :=
  if character = 0x26 then ascii "&amp;"
  else if character = 0x3C then ascii "&lt;"
  else if character = 0x3E then ascii "&gt;"
  else if character = 0x22 then ascii "&quot;"
  else if character = 0x27 then ascii "&#39;"
  else [character]

/-- `html_escape`. -/
def htmlEscape (value : Html) : Html := expand htmlEntity value

/-- `html_escape` of a value. -/
def escaped (value : Bytes) : Html := htmlEscape (mark .value value)

/-- `random_token`, for what the random device returns call after call. -/
def randomToken (random : ℕ → UInt32) : Bytes :=
  let digits := ascii "0123456789abcdef"
  (List.range 48).map fun index => digits.getD (random index &&& 0x0F).toNat 0

/-! ## Devices without a name -/

/-- `std::toupper` in the C locale. -/
def toUpper (character : UInt8) : UInt8 :=
  if 0x61 ≤ character ∧ character ≤ 0x7A then character - 0x20 else character

/-- `normalized_bluetooth_address`. -/
def normalizedBluetoothAddress (value : Bytes) : Bytes :=
  (value.filter fun character => (hexDigit? character).isSome).map toUpper

/-- `is_unnamed`. -/
def isUnnamed (device : BluetoothDevice) : Bool :=
  device.name = [] ∨
    normalizedBluetoothAddress device.name = normalizedBluetoothAddress device.address

/-! ## The parts of the page, in the order of the source -/

/-- `csrf_input`. -/
def csrfInput (csrfToken : Bytes) : Html :=
  lits ["<input type=hidden name=csrf value=\""] ++ mark .token csrfToken ++ lits ["\">"]

/-- What `output` starts with. -/
def pageHead (snapshot : Snapshot) (csrfToken : Bytes) : Html :=
  lits
    ["<!doctype html><html><head><meta name=\"viewport\" ",
      "content=\"width=device-width,initial-scale=1\">",
      "<title>AA2ACP</title><style>body\x7bfont:16px ",
      "sans-serif;max-width:38rem;margin:3rem auto;padding:0 1rem\x7d",
      "label,select,input:not([type=checkbox])\x7bdisplay:block;width:100%;box-",
      "sizing:border-box;",
      "margin:.5rem 0\x7dbutton\x7bpadding:.6rem 1rem;margin:.25rem 0\x7d",
      "input[type=checkbox]\x7bwidth:auto;margin:0 .4rem 0 0\x7d",
      ".hint\x7bcolor:#555\x7d.status\x7bpadding:.6rem;background:#eef7ee\x7d",
      ".status.error\x7bbackground:#fdecec;color:#8a1f1f\x7d</style></",
      "head><body data-scan-running=\""] ++
  lits [if snapshot.bluetoothScanRunning then "1" else "0"] ++
  lits ["\" data-scan-phase=\""] ++
  number snapshot.bluetoothScanPhaseId ++
  lits ["\" data-preflight-state=\""] ++
  number snapshot.preflightState.number ++
  lits ["\" data-preflight-rev=\""] ++
  number snapshot.preflightRevision ++
  lits ["\" data-preflight-active=\""] ++
  lits [if snapshot.preflightState.Active then "1" else "0"] ++
  lits
    ["\">",
      "<script>document.addEventListener('submit',event=>\x7bconst ",
      "form=event.target;",
      "if(form.method.toLowerCase()!=='post'||form.querySelector('input[name=",
      "csrf]'))return;",
      "const ",
      "input=document.createElement('input');input.type='hidden';input.name='",
      "csrf';",
      "input.value='"] ++
  mark .token csrfToken ++
  lits
    ["';form.append(input);\x7d,true);</script>",
      "<h1>AA2ACP</h1><p>Configure the pinned CarPlay head unit.</p>"]

/-- The page as long as the hotspot needs a password of its own. -/
def hotspotSetup (config : Config) (snapshot : Snapshot) (csrfToken : Bytes) : Html :=
  lits
    ["<p class=\"status error\">Change the default management ",
      "hotspot password before using AA2ACP.</p><p>Connect to Wi-Fi ",
      "network <b>"] ++
  escaped config.managementHotspotSsid ++ lits ["</b>.</p>"] ++
  (if snapshot.managementHotspotPasswordPending then
    lits
      ["<p>Your new password is ready. Applying it will disconnect this ",
        "device from the hotspot. Its new name will be <b>"] ++
    escaped snapshot.pendingManagementHotspotSsid ++
    lits ["</b>.</p><form method=post ", "action=\"/management-hotspot/apply\">"] ++
    csrfInput csrfToken ++
    lits ["<button type=submit>Apply ", "new password</button></form>"]
  else
    lits ["<form method=post action=\"/management-hotspot\">"] ++ csrfInput csrfToken ++
    lits
      ["<label>New ",
        "management hotspot password<input required minlength=8 ",
        "type=password name=\"management_hotspot_passphrase\"></label>",
        "<label>Confirm new password<input required minlength=8 ",
        "type=password name=\"management_hotspot_passphrase_confirm\">",
        "</label><label><input checked type=checkbox ",
        "name=\"management_hotspot_change_ssid\" value=\"1\">Use ",
        "a new hotspot name (recommended)</label><button type=submit>",
        "Continue</button></form>"]) ++
  lits ["<p><a href=\"/logs\">View recent logs</a></p></body></html>"]

/-- What became of the last request. -/
def outcomes (saved carplayError : Bool) : Html :=
  if saved ∨ carplayError then
    (if saved then lits ["<p class=status>Configuration saved.</p>"] else []) ++
    (if carplayError then
      lits
        ["<p class=\"status error\">CarPlay preparation requires ",
          "both a Bluetooth device and Wi-Fi interface ",
          "configuration.</p>"]
    else []) ++
    lits ["<script>history.replaceState(null,'',location.pathname);", "</script>"]
  else []

/-- How far the preparation of CarPlay is. -/
def preparation (config : Config) (snapshot : Snapshot) : Html :=
  (if config.headUnitMac = [] ∨ config.wifiInterface = [] then
    lits ["<p class=status>Android Auto is disabled until both settings are ", "saved.</p>"]
  else []) ++
  (if snapshot.preflightDetail ≠ [] then
    lits ["<p class=status>CarPlay preparation: "] ++ escaped snapshot.preflightDetail ++
      lits ["</p>"]
  else if snapshot.preflightState ≠ .idle then
    lits ["<p class=status>CarPlay preparation: "] ++ number snapshot.preflightState.number ++
      lits ["</p>"]
  else [])

/-- The pairing code with at least six digits. -/
def pairingCode (passkey : ℕ) : Html :=
  let code := number passkey
  mark .page (List.replicate (6 - min 6 code.length) 0x30) ++ code

/-- The pairing code to compare, and the error of the last scan. -/
def pairingAndScanError (snapshot : Snapshot) (csrfToken : Bytes) : Html :=
  (match snapshot.pairingConfirmation with
  | some confirmation =>
      lits
        ["<div class=status><p>Compare this Bluetooth pairing code with ",
          "the code shown by the car:</p><p style=\"font-size:2rem;letter-",
          "spacing:.15em\"><b>"] ++
      htmlEscape (pairingCode confirmation.passkey) ++
      lits ["</b></p><form ", "method=post action=\"/bluetooth-confirm\">"] ++
      csrfInput csrfToken ++
      lits ["<input type=hidden ", "name=\"id\" value=\""] ++
      number confirmation.id ++
      lits ["\"><button name=\"decision\" value=\"confirm\" type=submit>"] ++
      litUtf8 "Codes match — Confirm</button><button name=\"decision\" " ++
      lits ["value=\"reject\" type=submit>Reject</button></form></div>"]
  | none => []) ++
  (if snapshot.bluetoothError ≠ [] then
    lits ["<p class=hint>Bluetooth refresh failed: "] ++ escaped snapshot.bluetoothError ++
      lits ["</p>"]
  else [])

/-- A device of the list. -/
def deviceOption (device : BluetoothDevice) : Html :=
  let name := if isUnnamed device then lits ["Unnamed device"] else mark .value device.name
  lits ["<option value=\""] ++ escaped device.address ++ lits ["\">"] ++
    htmlEscape name ++ litUtf8 " — " ++ escaped device.address ++
    lits [if device.paired then " (paired)" else ""] ++
    lits [if device.connected then " (connected)" else ""] ++ lits ["</option>"]

/-- The devices to choose from, or how far the scan is. -/
def bluetoothPicker (snapshot : Snapshot) (csrfToken : Bytes) : Html :=
  lits ["<form id=\"scan-form\" method=post action=\"/scan\">"] ++ csrfInput csrfToken ++
  lits ["</form><form id=\"display-form\" method=post action=\"/display\">"] ++
  csrfInput csrfToken ++
  lits ["</form><form method=post action=\"/config\">"] ++ csrfInput csrfToken ++
  lits ["<div id=\"bluetooth-picker\">"] ++
  if snapshot.bluetoothScanRunning then
    lits ["<input type=hidden name=\"head_unit_mac\" value=\"\"><p ", "class=status>Bluetooth "] ++
    escaped snapshot.bluetoothScanPhase ++ litUtf8 "…</p>"
  else
    lits
      ["<label>Known or discovered Bluetooth device<select ",
        "name=\"head_unit_mac\">",
        "<option value=\"\">Keep the configured device (use manual field ",
        "below)</option>"] ++
    (snapshot.bluetoothDevices.flatMap fun device =>
      if isUnnamed device ∧ ¬ snapshot.showUnnamedBluetoothDevices then []
      else deviceOption device) ++
    lits
      ["</select></label><label><input id=\"show-unnamed\" ",
        "form=\"display-form\" ",
        "type=checkbox name=\"show_unnamed\" value=\"1\""] ++
    lits [if snapshot.showUnnamedBluetoothDevices then " checked" else ""] ++
    lits
      [">Show unnamed Bluetooth devices</label><button form=\"scan-form\" ",
        "type=submit>Rescan Bluetooth devices</button>"]

/-- The address field and the interfaces to choose from. -/
def interfacePicker (config : Config) (snapshot : Snapshot) : Html :=
  lits ["</div><label>Manual Bluetooth MAC<input name=\"manual_mac\" value=\""] ++
  escaped config.headUnitMac ++
  lits
    ["\" placeholder=\"Bluetooth address\"></label>",
      "<label>Wi-Fi interface<select name=\"wifi_interface\">"] ++
  (if config.wifiInterface = [] then
    lits ["<option selected disabled value=\"\">Select a Wi-Fi ", "interface</option>"]
  else []) ++
  (snapshot.wifiInterfaces.flatMap fun interface =>
    let selected := if interface = config.wifiInterface then " selected" else ""
    lits ["<option value=\""] ++ escaped interface ++ lits ["\""] ++ lits [selected] ++
      lits [">"] ++ escaped interface ++ lits ["</option>"]) ++
  if config.wifiInterface ≠ [] ∧ config.wifiInterface ∉ snapshot.wifiInterfaces then
    lits ["<option selected value=\""] ++ escaped config.wifiInterface ++ lits ["\">"] ++
      escaped config.wifiInterface ++ lits [" (configured)</option>"]
  else []

/-- The rest of the configuration form, the link to the logs and the version. -/
def settings (version : Option Bytes) (config : Config) : Html :=
  lits
    ["</select></label><label>Management hotspot SSID<input ",
      "name=\"management_hotspot_ssid\" value=\""] ++
  escaped config.managementHotspotSsid ++
  lits
    ["\"></label><label>New management hotspot password (leave empty ",
      "to keep)<input type=password ",
      "name=\"management_hotspot_passphrase\"></label><label>Confirm ",
      "new hotspot password<input type=password ",
      "name=\"management_hotspot_passphrase_confirm\"></label><button ",
      "type=submit>Save configuration</button></form>"] ++
  lits ["<p><a href=\"/logs\">View recent logs</a></p>"] ++
  match version with
  | some version => lits ["<p class=hint>AA2ACP v"] ++ mark .version version ++ lits ["</p>"]
  | none => []

/-- The buttons for a configured head unit. -/
def headUnitForms (config : Config) (snapshot : Snapshot) (csrfToken : Bytes) : Html :=
  let disabled := if snapshot.preflightState.Active ∨ snapshot.bluetoothScanRunning then "disabled"
    else ""
  (if config.headUnitMac ≠ [] ∧ config.wifiInterface ≠ [] then
    lits ["<form method=post action=\"/carplay-prepare\">"] ++ csrfInput csrfToken ++
    lits ["<button type=submit "] ++ lits [disabled] ++
    lits [">Prepare/Test CarPlay</button></form>"]
  else []) ++
  if config.headUnitMac ≠ [] then
    lits
      ["<form method=post action=\"/head-unit-forget\" onsubmit=\"return ",
        "confirm('Clear all local state for this head unit? You will need to ",
        "start CarPlay pairing again on the head unit.');\">"] ++
    csrfInput csrfToken ++ lits ["<button type=submit "] ++ lits [disabled] ++
    lits
      [">Forget head unit</button></form><p class=hint>This keeps the ",
        "configured head unit but clears its local Bluetooth bond, AirPlay ",
        "pairing, and cached capabilities.</p>"]
  else []

/-- The scripts at the end of the page. -/
def pageScripts : Html :=
  lits
    ["<script>(()=>\x7bconst filter=document.querySelector('#show-unnamed');",
      "if(filter)filter.addEventListener('change',()=>filter.form.",
      "requestSubmit());",
      "if(document.body.dataset.scanRunning!=='1')return;",
      "const phase=encodeURIComponent(document.body.dataset.scanPhase);",
      "const poll=async()=>\x7btry\x7bconst response=await ",
      "fetch('/scan-status?phase='+phase);",
      "if(response.status===205)\x7blocation.reload();return;\x7dsetTimeout(poll,",
      "1000);",
      "\x7dcatch\x7bsetTimeout(poll,2000);\x7d\x7d;poll();\x7d)();</script>",
      "<script>(()=>\x7bif(document.body.dataset.preflightActive!=='1')return;",
      "const ",
      "state=encodeURIComponent(document.body.dataset.preflightState||'0');",
      "const rev=encodeURIComponent(document.body.dataset.preflightRev||'0');",
      "const poll=async()=>\x7btry\x7bconst response=await ",
      "fetch('/carplay-prepare-status?state='+state+'&rev='+rev);",
      "if(response.status===205)\x7blocation.reload();return;\x7dsetTimeout(poll,",
      "1000);\x7dcatch\x7bsetTimeout(poll,2000);\x7d\x7d;poll();\x7d)();</script></",
      "body></html>"]

/-- `render_page`.  `version` is `AA2ACP_VERSION` of the build, if it has one. -/
def renderPage (version : Option Bytes) (config : Config) (snapshot : Snapshot)
    (hotspotNeedsSetup saved carplayError : Bool) (csrfToken : Bytes) : Html :=
  let output := pageHead snapshot csrfToken
  if hotspotNeedsSetup then output ++ hotspotSetup config snapshot csrfToken
  else
    output ++ outcomes saved carplayError ++ preparation config snapshot ++
      pairingAndScanError snapshot csrfToken ++ bluetoothPicker snapshot csrfToken ++
      interfacePicker config snapshot ++ settings version config ++
      headUnitForms config snapshot csrfToken ++ pageScripts

/-! ## What values can bring in -/

/-- What ends the text of an element or a quoted attribute. -/
def Special (character : UInt8) : Prop :=
  character = 0x3C ∨ character = 0x3E ∨ character = 0x22 ∨ character = 0x27

instance : DecidablePred Special := fun _ => inferInstanceAs (Decidable (_ ∨ _))

/-- What was fixed when the program was built. -/
def OfBuild (origin : Origin) : Prop := origin = .page ∨ origin = .version

theorem ofBuild_page : OfBuild .page := Or.inl rfl

theorem ofBuild_version : OfBuild .version := Or.inr rfl

/-- Special characters are the page's own, or those of the version. -/
abbrev Safe (html : Html) : Prop := Confined Special OfBuild html

/-- What stands for a character of an escaped value holds no special character. -/
theorem not_special_of_mem_htmlEntity (character : UInt8) :
    ∀ produced ∈ htmlEntity character, ¬ Special produced := by
  have hentity (entity : Bytes) (h : entity.all (fun produced => ¬ Special produced) = true) :
      ∀ produced ∈ entity, ¬ Special produced := by
    simpa using h
  unfold htmlEntity
  split_ifs with hamp hlt hgt hquote hapostrophe
  · exact hentity _ (by rw [ascii_ofList]; decide)
  · exact hentity _ (by rw [ascii_ofList]; decide)
  · exact hentity _ (by rw [ascii_ofList]; decide)
  · exact hentity _ (by rw [ascii_ofList]; decide)
  · exact hentity _ (by rw [ascii_ofList]; decide)
  · intro produced hmem
    rw [List.mem_singleton.mp hmem]
    rintro (h | h | h | h)
    · exact hlt h
    · exact hgt h
    · exact hquote h
    · exact hapostrophe h

theorem not_special_of_isDigit {character : UInt8} (h : isDigit character = true) :
    ¬ Special character := by
  have hrange := of_decide_eq_true h
  rintro (rfl | rfl | rfl | rfl) <;> revert hrange <;> decide

theorem not_special_of_mem_decimal (value : ℤ) :
    ∀ character ∈ decimal value, ¬ Special character := by
  intro character hmem
  cases value with
  | ofNat value => exact not_special_of_isDigit (isDigit_of_mem_decimal hmem)
  | negSucc value =>
      have hsign : decimal (Int.negSucc value) = 0x2D :: decimal (value + 1 : ℕ) := by
        unfold decimal ascii
        rw [show toString (Int.negSucc value) = "-" ++ toString (value + 1) from rfl,
          String.toList_append]
        rfl
      rw [hsign] at hmem
      rcases List.mem_cons.mp hmem with rfl | hdigit
      · decide
      · exact not_special_of_isDigit (isDigit_of_mem_decimal hdigit)

@[simp] theorem safe_lits (texts : List String) : Safe (lits texts) :=
  confined_mark_of_allowed ofBuild_page _

@[simp] theorem safe_litUtf8 (text : String) : Safe (litUtf8 text) :=
  confined_mark_of_allowed ofBuild_page _

@[simp] theorem safe_version (version : Bytes) : Safe (mark .version version) :=
  confined_mark_of_allowed ofBuild_version _

@[simp] theorem safe_number (value : ℤ) : Safe (number value) :=
  confined_mark_of_plain (not_special_of_mem_decimal value) _

@[simp] theorem safe_htmlEscape (value : Html) : Safe (htmlEscape value) :=
  confined_expand not_special_of_mem_htmlEntity value

@[simp] theorem safe_escaped (value : Bytes) : Safe (escaped value) := safe_htmlEscape _

/-- The digits of the token are hexadecimal. -/
theorem safe_randomToken (random : ℕ → UInt32) : Safe (mark .token (randomToken random)) := by
  apply confined_mark_of_plain
  intro character hmem
  obtain ⟨index, -, rfl⟩ := List.mem_map.mp hmem
  have hlt : (random index &&& 0x0F).toNat < 16 := by
    rw [UInt32.toNat_and]
    exact Nat.lt_of_le_of_lt Nat.and_le_right (by decide)
  have hdigits : ∀ digit : Fin 16, ¬ Special ((ascii "0123456789abcdef").getD digit.val 0) := by
    rw [ascii_ofList]
    decide
  exact hdigits ⟨_, hlt⟩

section Parts

variable {csrfToken : Bytes} (htoken : Safe (mark .token csrfToken)) (config : Config)
  (snapshot : Snapshot)

include htoken

theorem safe_csrfInput : Safe (csrfInput csrfToken) := by
  simp [csrfInput, htoken]

theorem safe_pageHead : Safe (pageHead snapshot csrfToken) := by
  simp [pageHead, htoken]

theorem safe_hotspotSetup : Safe (hotspotSetup config snapshot csrfToken) := by
  simp [hotspotSetup, safe_csrfInput htoken]

omit htoken in
theorem safe_outcomes (saved carplayError : Bool) : Safe (outcomes saved carplayError) := by
  simp [outcomes]

omit htoken in
theorem safe_preparation : Safe (preparation config snapshot) := by
  simp [preparation]

theorem safe_pairingAndScanError : Safe (pairingAndScanError snapshot csrfToken) := by
  unfold pairingAndScanError
  cases snapshot.pairingConfirmation with
  | none => simp
  | some confirmation => simp [safe_csrfInput htoken]

omit htoken in
theorem safe_deviceOption (device : BluetoothDevice) : Safe (deviceOption device) := by
  simp [deviceOption]

theorem safe_bluetoothPicker : Safe (bluetoothPicker snapshot csrfToken) := by
  simp [bluetoothPicker, safe_csrfInput htoken, safe_deviceOption]

omit htoken in
theorem safe_interfacePicker : Safe (interfacePicker config snapshot) := by
  simp [interfacePicker]

omit htoken in
theorem safe_settings (version : Option Bytes) : Safe (settings version config) := by
  unfold settings
  cases version with
  | none => simp
  | some version => simp

theorem safe_headUnitForms : Safe (headUnitForms config snapshot csrfToken) := by
  simp [headUnitForms, safe_csrfInput htoken]

/-- The special characters of the page are its own, or those of the version. -/
theorem renderPage_safe (version : Option Bytes) (hotspotNeedsSetup saved carplayError : Bool) :
    Safe (renderPage version config snapshot hotspotNeedsSetup saved carplayError csrfToken) := by
  unfold renderPage
  have hhead := safe_pageHead htoken snapshot
  cases hotspotNeedsSetup with
  | true =>
      exact confined_append.mpr ⟨hhead, safe_hotspotSetup htoken config snapshot⟩
  | false =>
      simp only [Bool.false_eq_true, if_false, confined_append]
      exact ⟨⟨⟨⟨⟨⟨⟨⟨hhead, safe_outcomes saved carplayError⟩, safe_preparation config snapshot⟩,
        safe_pairingAndScanError htoken snapshot⟩, safe_bluetoothPicker htoken snapshot⟩,
        safe_interfacePicker config snapshot⟩, safe_settings config version⟩,
        safe_headUnitForms htoken config snapshot⟩, safe_lits _⟩

end Parts

end Management
end Bridge
end Aa2acp
