import Aa2acp.Lib.Escaping
import Aa2acp.Lib.Text

/-!
# The output of nmcli

The rows of `nmcli -t` as `src/iap2/network_manager.cpp` reads them: the splitter, the
unescaper and the search for a saved profile.  Both loops keep an escape flag of their own;
on a row that nmcli printed they agree (`splitNmcliFields_nmcliRow`), whatever the SSIDs of
the access points around are.
-/

namespace Aa2acp
namespace Iap2

open Text Escaping

/-! ## The two loops -/

structure Unescaping where
  result : Bytes := []
  escaped : Bool := false
deriving DecidableEq, Repr

def Unescaping.step (s : Unescaping) (character : UInt8) : Unescaping :=
  if s.escaped then { result := s.result ++ [character], escaped := false }
  else if character = 0x5C then { s with escaped := true }
  else { s with result := s.result ++ [character] }

/-- `unescape_nmcli_field`. -/
def unescapeNmcliField (value : Bytes) : Bytes :=
  let s := value.foldl Unescaping.step {}
  if s.escaped then s.result ++ [0x5C] else s.result

structure Splitting where
  fields : List Bytes := []
  field : Bytes := []
  escaped : Bool := false
deriving DecidableEq, Repr

def Splitting.step (s : Splitting) (character : UInt8) : Splitting :=
  if character = 0x3A ∧ ¬ s.escaped then { s with fields := s.fields ++ [s.field], field := [] }
  else
    let escaped := decide (character = 0x5C ∧ ¬ s.escaped)
    { s with
      field := s.field ++ [character]
      escaped := if character ≠ 0x5C then false else escaped }

def Splitting.finish (s : Splitting) : List Bytes := s.fields ++ [s.field]

/-- `split_nmcli_fields`. -/
def splitNmcliFields (line : Bytes) : List Bytes := (line.foldl Splitting.step {}).finish

/-! ## Saved profiles -/

/-- The UUID of a line that is for the SSID and the interface. -/
def profileUuid (ssid interfaceName line : Bytes) : Option Bytes :=
  let fields := splitNmcliFields (popReturn line)
  if fields.length < 3 ∨ fields.getD 1 [] ≠ ascii "802-11-wireless" ∨
      unescapeNmcliField (fields.getD 2 []) ≠ ssid then none
  else
    let profileInterface :=
      if fields.length < 4 then [] else unescapeNmcliField (fields.getD 3 [])
    if profileInterface = [] ∨ profileInterface = ascii "--" ∨
        profileInterface = interfaceName then some (fields.getD 0 [])
    else none

/-- `saved_connection_uuid`, for what nmcli printed; `none` when it failed. -/
def savedConnectionUuid (output : Option Bytes) (ssid interfaceName : Bytes) : Option Bytes :=
  output.bind fun output => (getLines output).findSome? (profileUuid ssid interfaceName)

/-! ## What nmcli prints -/

def isNmcliSpecial (character : UInt8) : Bool := character = 0x5C ∨ character = 0x3A

def escapeNmcliField (field : Bytes) : Bytes := escape 0x5C isNmcliSpecial field

/-- A row of the terse output. -/
def nmcliRow (fields : List Bytes) : Bytes :=
  List.intercalate [0x3A] (fields.map escapeNmcliField)

structure NmcliProfile where
  uuid : Bytes
  type : Bytes
  ssid : Bytes
  interfaceName : Bytes
deriving DecidableEq, Repr

def NmcliProfile.fields (profile : NmcliProfile) : List Bytes :=
  [profile.uuid, profile.type, profile.ssid, profile.interfaceName]

def NmcliProfile.OneLine (profile : NmcliProfile) : Prop := ∀ field ∈ profile.fields, 0x0A ∉ field

/-- The output of `nmcli -t -f UUID,TYPE,802-11-wireless.ssid,connection.interface-name`. -/
def nmcliOutput (profiles : List NmcliProfile) : Bytes :=
  profiles.flatMap fun profile => nmcliRow profile.fields ++ [0x0A]

/-- The profile is a wireless one for this SSID and any interface, or this one. -/
def NmcliProfile.Serves (profile : NmcliProfile) (ssid interfaceName : Bytes) : Prop :=
  profile.type = ascii "802-11-wireless" ∧ profile.ssid = ssid ∧
    (popReturn profile.interfaceName = [] ∨ popReturn profile.interfaceName = ascii "--" ∨
      popReturn profile.interfaceName = interfaceName)

instance (profile : NmcliProfile) (ssid interfaceName : Bytes) :
    Decidable (profile.Serves ssid interfaceName) := inferInstanceAs (Decidable (_ ∧ _))

/-! ## The loops over escaped text -/

/-- What the unescaper does with a character, escaped or not. -/
def Unescaping.add (s : Unescaping) (character : UInt8) : Unescaping :=
  { s with result := s.result ++ [character] }

theorem Unescaping.escaped_add (s : Unescaping) (character : UInt8) (hs : s.escaped = false) :
    (s.add character).escaped = false := hs

theorem foldl_unescaping_add (field : Bytes) (s : Unescaping) :
    field.foldl Unescaping.add s = { s with result := s.result ++ field } := by
  induction field generalizing s with
  | nil => simp
  | cons character field ih =>
    rw [List.foldl_cons, ih]
    simp [Unescaping.add]

theorem unescaping_escapeOne (s : Unescaping) (character : UInt8) (hs : s.escaped = false) :
    (escapeOne 0x5C isNmcliSpecial character).foldl Unescaping.step s = s.add character := by
  unfold escapeOne
  split
  · simp [Unescaping.step, Unescaping.add, hs]
  · rename_i hplain
    have hmark : character ≠ 0x5C := by
      rintro rfl
      exact hplain rfl
    simp [Unescaping.step, Unescaping.add, hs, hmark]

theorem unescapeNmcliField_escape (field : Bytes) :
    unescapeNmcliField (escapeNmcliField field) = field := by
  have hstart : ({} : Unescaping).escaped = false := rfl
  have hscan := (foldl_escape 0x5C isNmcliSpecial (fun s : Unescaping => s.escaped = false)
    Unescaping.escaped_add unescaping_escapeOne field hstart).1
  unfold unescapeNmcliField escapeNmcliField
  rw [hscan, foldl_unescaping_add]
  rfl

/-- What the splitter does with a character, escaped or not. -/
def Splitting.add (s : Splitting) (character : UInt8) : Splitting :=
  { s with field := s.field ++ escapeOne 0x5C isNmcliSpecial character }

theorem Splitting.escaped_add (s : Splitting) (character : UInt8) (hs : s.escaped = false) :
    (s.add character).escaped = false := hs

theorem foldl_splitting_add (field : Bytes) (s : Splitting) :
    field.foldl Splitting.add s = { s with field := s.field ++ escapeNmcliField field } := by
  unfold escapeNmcliField
  induction field generalizing s with
  | nil => simp
  | cons character field ih =>
    rw [List.foldl_cons, ih, escape_cons]
    simp [Splitting.add]

theorem splitting_escapeOne (s : Splitting) (character : UInt8) (hs : s.escaped = false) :
    (escapeOne 0x5C isNmcliSpecial character).foldl Splitting.step s = s.add character := by
  unfold Splitting.add escapeOne
  split
  · by_cases hmark : character = 0x5C
    · subst hmark
      simp [Splitting.step, hs]
    · simp [Splitting.step, hs, hmark]
  · rename_i hplain
    have hmark : character ≠ 0x5C := by
      rintro rfl
      exact hplain rfl
    have hcolon : character ≠ 0x3A := by
      rintro rfl
      exact hplain rfl
    simp [Splitting.step, hs, hmark, hcolon]

/-- The splitter takes an escaped field as it is, and closes every escape in it. -/
theorem foldl_escapeNmcliField (field : Bytes) {s : Splitting} (hs : s.escaped = false) :
    (escapeNmcliField field).foldl Splitting.step s =
      { s with field := s.field ++ escapeNmcliField field } := by
  have hscan := (foldl_escape 0x5C isNmcliSpecial (fun s : Splitting => s.escaped = false)
    Splitting.escaped_add splitting_escapeOne field hs).1
  rw [← foldl_splitting_add]
  exact hscan

/-! ## Rows -/

theorem nmcliRow_cons (first second : Bytes) (rest : List Bytes) :
    nmcliRow (first :: second :: rest) =
      escapeNmcliField first ++ 0x3A :: nmcliRow (second :: rest) := by
  unfold nmcliRow
  simp [List.intercalate]

theorem foldl_nmcliRow (first : Bytes) (rest : List Bytes) {s : Splitting}
    (hs : s.escaped = false) (hfield : s.field = []) :
    ((nmcliRow (first :: rest)).foldl Splitting.step s).finish =
      s.fields ++ (first :: rest).map escapeNmcliField := by
  induction rest generalizing first s with
  | nil =>
    have hrow : nmcliRow [first] = escapeNmcliField first := by simp [nmcliRow, List.intercalate]
    rw [hrow, foldl_escapeNmcliField first hs, hfield]
    rfl
  | cons second rest ih =>
    rw [nmcliRow_cons, List.foldl_append, foldl_escapeNmcliField first hs, List.foldl_cons]
    have hcolon : Splitting.step { s with field := s.field ++ escapeNmcliField first } 0x3A =
        { s with fields := s.fields ++ [escapeNmcliField first], field := [] } := by
      simp [Splitting.step, hs, hfield]
    have hnext := @ih second { s with fields := s.fields ++ [escapeNmcliField first], field := [] }
      hs rfl
    rw [hcolon, hnext]
    simp

theorem splitNmcliFields_nmcliRow {fields : List Bytes} (h : fields ≠ []) :
    splitNmcliFields (nmcliRow fields) = fields.map escapeNmcliField := by
  obtain ⟨first, rest, rfl⟩ := List.exists_cons_of_ne_nil h
  unfold splitNmcliFields
  rw [foldl_nmcliRow first rest rfl rfl]
  rfl

/-- The fields of a row come back. -/
theorem unescape_splitNmcliFields {fields : List Bytes} (h : fields ≠ []) :
    (splitNmcliFields (nmcliRow fields)).map unescapeNmcliField = fields := by
  rw [splitNmcliFields_nmcliRow h, List.map_map]
  exact (List.map_congr_left fun field _ => unescapeNmcliField_escape field).trans
    (List.map_id fields)

/-! ## Lines -/

theorem popReturn_append_cons (before : Bytes) (field : Bytes) :
    popReturn (before ++ 0x3A :: field) = before ++ 0x3A :: popReturn field := by
  rcases List.eq_nil_or_concat field with rfl | ⟨start, last, rfl⟩
  · simp [popReturn]
  · have hlast : (before ++ 0x3A :: start.concat last).getLast? = some last := by
      simp [List.getLast?_append, List.getLast?_cons]
    have hown : (start.concat last).getLast? = some last := by simp
    unfold popReturn
    rw [hlast, hown]
    split
    · rw [List.dropLast_append_of_ne_nil (by simp), List.dropLast_cons_of_ne_nil (by simp)]
    · rfl

theorem popReturn_escapeNmcliField (field : Bytes) :
    popReturn (escapeNmcliField field) = escapeNmcliField (popReturn field) := by
  rcases List.eq_nil_or_concat field with rfl | ⟨start, last, rfl⟩
  · rfl
  · have hescape : escapeNmcliField (start.concat last) =
        escapeNmcliField start ++ escapeOne 0x5C isNmcliSpecial last := by
      unfold escapeNmcliField
      rw [List.concat_eq_append, escape_append, escape_cons, escape_nil, List.append_nil]
    have hlast : (escapeNmcliField (start.concat last)).getLast? = some last := by
      rw [hescape]
      unfold escapeOne
      split <;> simp
    have hown : (start.concat last).getLast? = some last := by simp
    unfold popReturn
    rw [hlast, hown]
    split
    · rename_i hreturn
      cases hreturn
      rw [hescape, List.concat_eq_append]
      have hone : escapeOne 0x5C isNmcliSpecial 0x0D = [0x0D] := rfl
      rw [hone, List.dropLast_concat, List.dropLast_concat]
    · rfl

/-- At the end of a line the interface may lose a carriage return. -/
theorem popReturn_fields (profile : NmcliProfile) :
    popReturn (nmcliRow profile.fields) =
      nmcliRow [profile.uuid, profile.type, profile.ssid, popReturn profile.interfaceName] := by
  have hlast : ∀ field, nmcliRow [field] = escapeNmcliField field := by
    intro field
    simp [nmcliRow, List.intercalate]
  unfold NmcliProfile.fields
  rw [nmcliRow_cons, nmcliRow_cons, nmcliRow_cons, hlast, popReturn_append_cons,
    popReturn_append_cons, popReturn_append_cons, popReturn_escapeNmcliField]
  rw [nmcliRow_cons, nmcliRow_cons, nmcliRow_cons, hlast]

theorem escapeNmcliField_eq_wireless {field : Bytes} :
    escapeNmcliField field = ascii "802-11-wireless" ↔ field = ascii "802-11-wireless" := by
  have hplain : escapeNmcliField (ascii "802-11-wireless") = ascii "802-11-wireless" := by decide
  constructor
  · intro h
    calc field = unescapeNmcliField (escapeNmcliField field) := (unescapeNmcliField_escape _).symm
      _ = unescapeNmcliField (escapeNmcliField (ascii "802-11-wireless")) := by rw [h, hplain]
      _ = ascii "802-11-wireless" := unescapeNmcliField_escape _
  · intro h
    rw [h, hplain]

/-- The line of a profile is taken when the profile serves. -/
theorem profileUuid_nmcliRow (profile : NmcliProfile) (ssid interfaceName : Bytes) :
    profileUuid ssid interfaceName (nmcliRow profile.fields) =
      if profile.Serves ssid interfaceName then some (escapeNmcliField profile.uuid) else none := by
  unfold profileUuid
  rw [popReturn_fields, splitNmcliFields_nmcliRow (by simp)]
  simp only [List.map_cons, List.map_nil, List.length_cons, List.length_nil, List.getD_cons_zero,
    List.getD_cons_succ, unescapeNmcliField_escape, ne_eq, escapeNmcliField_eq_wireless]
  by_cases htype : profile.type = ascii "802-11-wireless"
  · by_cases hssid : profile.ssid = ssid
    · simp [NmcliProfile.Serves, htype, hssid]
    · simp [NmcliProfile.Serves, hssid]
  · simp [NmcliProfile.Serves, htype]

theorem newline_notMem_nmcliRow {profile : NmcliProfile} (h : profile.OneLine) :
    0x0A ∉ nmcliRow profile.fields := by
  have hfield : ∀ field ∈ profile.fields, 0x0A ∉ escapeNmcliField field := by
    intro field hfield hmem
    exact h field hfield ((mem_escape 0x5C isNmcliSpecial (by decide)).mp hmem)
  unfold nmcliRow NmcliProfile.fields
  simp only [NmcliProfile.fields, List.forall_mem_cons] at hfield
  simp [List.intercalate, hfield]

/-- The first profile that serves is found. -/
theorem savedConnectionUuid_nmcliOutput {profiles : List NmcliProfile}
    (h : ∀ profile ∈ profiles, profile.OneLine) (ssid interfaceName : Bytes) :
    savedConnectionUuid (some (nmcliOutput profiles)) ssid interfaceName =
      (profiles.find? fun profile => profile.Serves ssid interfaceName).map
        fun profile => escapeNmcliField profile.uuid := by
  show (getLines (nmcliOutput profiles)).findSome? (profileUuid ssid interfaceName) = _
  induction profiles with
  | nil => rfl
  | cons profile profiles ih =>
    obtain ⟨hfirst, hrest⟩ := List.forall_mem_cons.mp h
    have hlines : getLines (nmcliOutput (profile :: profiles)) =
        nmcliRow profile.fields :: getLines (nmcliOutput profiles) := by
      unfold nmcliOutput
      rw [List.flatMap_cons, List.append_assoc]
      exact getLines_append_newline (newline_notMem_nmcliRow hfirst) _
    rw [hlines, List.findSome?_cons, profileUuid_nmcliRow]
    by_cases hserves : profile.Serves ssid interfaceName
    · rw [if_pos hserves, List.find?_cons_of_pos (by simpa using hserves)]
      rfl
    · rw [if_neg hserves, List.find?_cons_of_neg (by simpa using hserves)]
      exact ih hrest

/-- A row that is not empty is parsed back exactly, so the profile that is selected is one
for the requested SSID. -/
theorem nmcli_rows_parsed_back :
    (∀ fields : List Bytes, fields ≠ [] →
      (splitNmcliFields (nmcliRow fields)).map unescapeNmcliField = fields) ∧
    ∀ (profiles : List NmcliProfile) (ssid interfaceName uuid : Bytes),
      (∀ profile ∈ profiles, profile.OneLine) →
      savedConnectionUuid (some (nmcliOutput profiles)) ssid interfaceName = some uuid →
      ∃ profile ∈ profiles, profile.ssid = ssid ∧ uuid = escapeNmcliField profile.uuid := by
  refine ⟨fun fields h => unescape_splitNmcliFields h, ?_⟩
  intro profiles ssid interfaceName uuid hlines hselected
  rw [savedConnectionUuid_nmcliOutput hlines] at hselected
  obtain ⟨profile, hfound, rfl⟩ := Option.map_eq_some_iff.mp hselected
  have hserves := List.find?_some hfound
  rw [decide_eq_true_eq] at hserves
  exact ⟨profile, List.mem_of_find?_eq_some hfound, hserves.2.1, rfl⟩

/-- An SSID of backslashes and colons that looks like the end of a row, and a profile whose
SSID is the requested one. -/
theorem nmcli_rows_parsed_back_crafted :
    let crafted : NmcliProfile :=
      ⟨ascii "1", ascii "802-11-wireless", ascii "car:\\:", ascii "wlan0"⟩
    let wanted : NmcliProfile := ⟨ascii "2", ascii "802-11-wireless", ascii "car", ascii "--"⟩
    (splitNmcliFields (nmcliRow crafted.fields)).map unescapeNmcliField = crafted.fields ∧
      ∃ profile ∈ [crafted, wanted], profile.ssid = ascii "car" ∧
        ascii "2" = escapeNmcliField profile.uuid := by
  obtain ⟨hrows, hselects⟩ := nmcli_rows_parsed_back
  dsimp only
  refine ⟨hrows _ (by simp [NmcliProfile.fields]), ?_⟩
  refine hselects _ (ascii "car") (ascii "wlan0") (ascii "2") ?_ (by decide)
  simp only [List.forall_mem_cons, NmcliProfile.OneLine, NmcliProfile.fields]
  decide

/-- The row without fields is read as the row of one empty field. -/
theorem nmcli_row_empty : (splitNmcliFields (nmcliRow [])).map unescapeNmcliField = [[]] ∧
    (splitNmcliFields (nmcliRow [])).map unescapeNmcliField ≠ [] := by
  decide

end Iap2
end Aa2acp
