import Aa2acp.Airplay.HeadUnitCapabilities
import Aa2acp.Airplay.PairingStore
import Aa2acp.Bridge.Config
import Aa2acp.Lib.FileStore

/-!
# How the stores are written

`save_config`, `save_head_unit_capabilities` and `save_pairing_record` with all their file
operations.  Each of them writes a temporary file next to the old one and renames it.  The
configuration and the pairing record are written with `write` and every call is looked at.
The capabilities go through a stream that has not written all of its buffer to the file when
the function asks whether it is good.

`close`, which changes no file, is left out, and so is the `fsync` of the directory, whose
result nobody looks at.
-/

namespace Aa2acp
namespace Stores

open FileStore Bridge Airplay

/-- A path with a directory, whose `parent_path` is not empty. -/
def HasParent (path : Bytes) : Prop := 0x2F ∈ path

instance (path : Bytes) : Decidable (HasParent path) := inferInstanceAs (Decidable (_ ∈ _))

/-- The temporary file of `save_config`, for the process and its counter. -/
def configTemporary (pid counter : ℕ) (path : Bytes) : Bytes :=
  path ++ ascii ".tmp." ++ decimal pid ++ ascii "-" ++ decimal counter

/-- The name that `mkstemp` makes. -/
def mkstempTemporary (calls : Calls) (path : Bytes) : Bytes := path ++ ascii ".tmp." ++ calls.suffix

def saveConfig (pid counter : ℕ) (config : Config) (calls : Calls) (path : Bytes) :
    StateM Disk Bool :=
  if ¬ validateConfig config false then pure false
  else if HasParent path ∧ ¬ calls.createDirectories then pure false
  else do
    let temporary := configTemporary pid counter path
    if ← create calls.create temporary then
      let written ← writeAll calls temporary (content config)
      let renamed ← renameIf (written && calls.fsync) calls.rename temporary path
      if renamed then pure true else giveUp calls temporary
    else pure false

/-- The block with the stream: whether it was good before its destructor closed it. -/
def streamWrite (calls : Calls) (temporary data : Bytes) : StateM Disk Bool :=
  if calls.opened then do
    truncate temporary
    let good ← streamInsert calls temporary data
    streamClose calls temporary data
    pure good
  else pure false

def saveHeadUnitCapabilities (profile : HeadUnitCapabilities) (calls : Calls) (path : Bytes) :
    StateM Disk (Option Bool) :=
  if ¬ profile.Valid then pure (some false)
  else if ¬ calls.createDirectories then pure (some false)
  else do
    let temporary := mkstempTemporary calls path
    if ← create calls.create temporary then
      let good ← streamWrite calls temporary (Capabilities.content profile)
      let renamed ← renameIf (good && calls.chmod) calls.rename temporary path
      if renamed then pure (some true)
      else
        -- `std::filesystem::remove` throws when it fails
        let removed ← unlink calls.unlink temporary
        pure (if removed then some false else none)
    else pure (some false)

def savePairingRecord (record : PairingRecord) (calls : Calls) (path : Bytes) :
    StateM Disk Bool :=
  if ¬ record.Storable then pure false
  else if HasParent path ∧ ¬ calls.createDirectories then pure false
  else do
    let temporary := mkstempTemporary calls path
    let created ← create calls.create temporary
    if created && calls.chmod then
      -- `write_u16` does not repeat a call that is interrupted: it is one that fails
      let written ← writePieces calls temporary record.pieces
      if written && calls.fsync then
        if ← rename calls.rename temporary path then pure true else giveUp calls temporary
      else giveUp calls temporary
    else
      -- also when there is no file that was created
      giveUp calls temporary

/-! ## One of the stores -/

inductive Store where
  | config (pid counter : ℕ) (config : Config)
  | capabilities (profile : HeadUnitCapabilities)
  | pairing (record : PairingRecord)

namespace Store

/-- The complete new serialisation. -/
def content : Store → Bytes
  | .config _ _ value => Bridge.content value
  | .capabilities profile => Capabilities.content profile
  | .pairing record => record.content

/-- What the function returns, if it returns, and the files afterwards. -/
def save : Store → Calls → Bytes → StateM Disk (Option Bool)
  | .config pid counter value, calls, path => some <$> saveConfig pid counter value calls path
  | .capabilities profile, calls, path => saveHeadUnitCapabilities profile calls path
  | .pairing record, calls, path => some <$> savePairingRecord record calls path

/-- Every call that `save_head_unit_capabilities` looks at succeeds. -/
def CallsSucceed (profile : HeadUnitCapabilities) (calls : Calls) (path : Bytes) (files : Files) :
    Prop :=
  profile.Valid ∧ calls.createDirectories ∧
    (calls.create ∧ files (mkstempTemporary calls path) = none) ∧
    (calls.opened ∧ calls.inserted) ∧ calls.chmod ∧ calls.rename

/-- The stream of the capabilities loses bytes when it is closed, and no call fails that is
looked at. -/
def LostAtClose (calls : Calls) (path : Bytes) (files : Files) : Store → Prop
  | .capabilities profile =>
      CallsSucceed profile calls path files ∧
        calls.writtenThrough + calls.flushed < (Capabilities.content profile).length
  | .config .. | .pairing _ => False

end Store

/-! ## Temporary files -/

theorem append_tmp_ne (path rest : Bytes) : path ++ ascii ".tmp." ++ rest ≠ path := by
  intro h
  rw [List.append_assoc, List.append_right_eq_self] at h
  exact List.append_ne_nil_of_left_ne_nil (by decide) rest h

theorem configTemporary_ne (pid counter : ℕ) (path : Bytes) :
    configTemporary pid counter path ≠ path := by
  rw [configTemporary, List.append_assoc, List.append_assoc]
  exact append_tmp_ne path _

theorem mkstempTemporary_ne (calls : Calls) (path : Bytes) : mkstempTemporary calls path ≠ path :=
  append_tmp_ne path calls.suffix

variable {calls : Calls} {path : Bytes} {disk : Disk}

theorem some_false_ne : (some false : Option Bool) ≠ some true := by decide

/-- A configuration is replaced as a whole. -/
theorem saveConfig_replaced (pid counter : ℕ) (config : Config) (calls : Calls) (path : Bytes)
    (disk : Disk) :
    Replaced path (content config) disk.files (saveConfig pid counter config calls path disk).2.files
      calls.unlink (some (saveConfig pid counter config calls path disk).1) := by
  have hne := configTemporary_ne pid counter path
  unfold saveConfig
  split
  · exact replaced_of_same some_false_ne
  · split
    · exact replaced_of_same some_false_ne
    · dsimp only
      rw [bind_apply]
      rcases create_cases calls.create (configTemporary pid counter path) disk with
        ⟨-, -, after, hcreate, hpending⟩ | ⟨-, hcreate⟩
      · obtain ⟨written, last, begun, hwritten, hlast, hall⟩ := hpending.writeAll calls (content config)
        rw [hcreate]
        dsimp only
        rw [if_pos rfl, bind_apply, hwritten]
        have hwhole : (written && calls.fsync) = true → begun = content config := fun hok =>
          hall (Bool.and_eq_true_iff.mp hok).1
        exact hlast.replaced_renameIf hne hwhole calls
      · rw [hcreate]
        exact replaced_of_same some_false_ne

theorem validateConfig_of_saveConfig {pid counter : ℕ} {config : Config}
    (h : (saveConfig pid counter config calls path disk).1 = true) :
    validateConfig config false = true := by
  by_contra hinvalid
  rw [saveConfig, if_pos hinvalid] at h
  cases h

/-- For the one file, the calls come to what `Bridge.saveConfig` does when it is told whether
they succeed. -/
theorem saveConfig_refines {file : Bytes} (hfile : disk.files path = some file) (pid counter : ℕ)
    (config : Config) (calls : Calls) :
    ∃ written after, Bridge.saveConfig config written file =
        ((saveConfig pid counter config calls path disk).1, after) ∧
      (saveConfig pid counter config calls path disk).2.files path = some after := by
  have hreplaced := saveConfig_replaced pid counter config calls path disk
  cases hsaved : (saveConfig pid counter config calls path disk).1 with
  | true =>
      refine ⟨true, content config, ?_, hreplaced.saved (congrArg some hsaved)⟩
      rw [Bridge.saveConfig, if_pos ⟨validateConfig_of_saveConfig hsaved, rfl⟩]
  | false =>
      refine ⟨false, file, ?_, ?_⟩
      · rw [Bridge.saveConfig, if_neg fun h => Bool.false_ne_true h.2]
      · rw [hreplaced.kept (by rw [hsaved]; exact some_false_ne), hfile]

/-- A pairing record is replaced as a whole. -/
theorem savePairingRecord_replaced (record : PairingRecord) (calls : Calls) (path : Bytes)
    (disk : Disk) :
    Replaced path record.content disk.files (savePairingRecord record calls path disk).2.files
      calls.unlink (some (savePairingRecord record calls path disk).1) := by
  have hne := mkstempTemporary_ne calls path
  unfold savePairingRecord
  split
  · exact replaced_of_same some_false_ne
  · split
    · exact replaced_of_same some_false_ne
    · dsimp only
      rw [bind_apply]
      rcases create_cases calls.create (mkstempTemporary calls path) disk with
        ⟨-, -, after, hcreate, hpending⟩ | ⟨-, hcreate⟩
      · rw [hcreate, Bool.true_and]
        split
        · obtain ⟨written, last, begun, hwritten, hlast, hall⟩ :=
            hpending.writePieces calls record.pieces
          rw [bind_apply, hwritten]
          dsimp only
          split
          · rename_i hok
            have hwhole : true = true → begun = record.content := fun _ =>
              hall (Bool.and_eq_true_iff.mp hok).1
            exact hlast.replaced_renameIf hne hwhole calls
          · exact hlast.replaced_giveUp hne calls
        · exact hpending.replaced_giveUp hne calls
      · rw [hcreate]
        exact replaced_unlink_same hne calls.unlink disk some_false_ne

/-! ## The stream of the capabilities -/

/-- The stream is good when its buffer need not have reached the file. -/
theorem streamWrite_pending {before : Files} {temporary : Bytes}
    (h : Pending before temporary [] disk) (calls : Calls) (data : Bytes) :
    ∃ after file, streamWrite calls temporary data disk =
        (calls.opened && calls.inserted, after) ∧ Pending before temporary file after ∧
      (calls.opened = true → file = streamed calls data) := by
  unfold streamWrite
  cases hopened : calls.opened with
  | false => exact ⟨disk, [], rfl, h, fun hfalse => by cases hfalse⟩
  | true =>
      exact ⟨_, streamed calls data, rfl, h.truncate.streamInsert_streamClose calls data,
        fun _ => rfl⟩

/-- The result `false`, or an exception. -/
theorem removed_ne (removed : Bool) : (if removed then some false else none) ≠ some true := by
  cases removed <;> decide

/-- The capabilities are in their place, as far as the stream has written them, or nothing was
replaced. -/
theorem saveHeadUnitCapabilities_cases (profile : HeadUnitCapabilities) (calls : Calls)
    (path : Bytes) (disk : Disk) :
    (Store.CallsSucceed profile calls path disk.files ∧
        ∃ after, saveHeadUnitCapabilities profile calls path disk = (some true, after) ∧
          after.files = Function.update disk.files path
            (some (streamed calls (Capabilities.content profile)))) ∨
      (¬ Store.CallsSucceed profile calls path disk.files ∧
        Replaced path (Capabilities.content profile) disk.files
          (saveHeadUnitCapabilities profile calls path disk).2.files calls.unlink
          (saveHeadUnitCapabilities profile calls path disk).1) := by
  have hne := mkstempTemporary_ne calls path
  unfold saveHeadUnitCapabilities
  split
  · rename_i hvalid
    exact Or.inr ⟨fun h => hvalid h.1, replaced_of_same some_false_ne⟩
  split
  · rename_i hdirectories
    exact Or.inr ⟨fun h => hdirectories h.2.1, replaced_of_same some_false_ne⟩
  rename_i hvalid hdirectories
  dsimp only
  rw [bind_apply]
  rcases create_cases calls.create (mkstempTemporary calls path) disk with
    ⟨hcreated, hfree, after, hcreate, hpending⟩ | ⟨hfails, hcreate⟩
  · obtain ⟨last, file, hwritten, hlast, hfile⟩ :=
      streamWrite_pending hpending calls (Capabilities.content profile)
    rw [hcreate]
    dsimp only
    rw [if_pos rfl, bind_apply, hwritten, bind_apply]
    rcases hlast.renameIf (calls.opened && calls.inserted && calls.chmod) calls.rename path with
      ⟨hok, hrenames, renamed, hrename, hfiles⟩ | ⟨hfails, hrename⟩
    · obtain ⟨hgood, hchmod⟩ := Bool.and_eq_true_iff.mp hok
      obtain ⟨hopened, hinserted⟩ := Bool.and_eq_true_iff.mp hgood
      refine Or.inl ⟨⟨not_not.mp hvalid, not_not.mp hdirectories, ⟨hcreated, hfree⟩,
        ⟨hopened, hinserted⟩, hchmod, hrenames⟩, renamed, ?_, ?_⟩
      · rw [hrename]
        rfl
      · rw [hfiles, hfile hopened]
    · refine Or.inr ⟨fun h => ?_, ?_⟩
      · obtain ⟨-, -, -, ⟨hopened, hinserted⟩, hchmod, hrenames⟩ := h
        exact hfails ⟨Bool.and_eq_true_iff.mpr
          ⟨Bool.and_eq_true_iff.mpr ⟨hopened, hinserted⟩, hchmod⟩, hrenames⟩
      · rw [hrename]
        exact hlast.replaced_unlink hne calls.unlink (removed_ne _)
  · rw [hcreate]
    exact Or.inr ⟨fun h => hfails h.2.2.1, replaced_of_same some_false_ne⟩

/-! ## Replaced as a whole -/

/-- A store is replaced as a whole, whatever the calls return, unless the stream of the
capabilities loses bytes when it is closed: the result is `true` then, and a cut file has
taken the place of the old one. -/
theorem store_replaced_iff (store : Store) (calls : Calls) (path : Bytes) (disk : Disk) :
    Replaced path store.content disk.files (store.save calls path disk).2.files calls.unlink
        (store.save calls path disk).1 ↔
      ¬ store.LostAtClose calls path disk.files := by
  cases store with
  | config pid counter value =>
      exact iff_of_true (saveConfig_replaced pid counter value calls path disk) not_false
  | pairing record =>
      exact iff_of_true (savePairingRecord_replaced record calls path disk) not_false
  | capabilities profile =>
      change Replaced path (Capabilities.content profile) disk.files
        (saveHeadUnitCapabilities profile calls path disk).2.files calls.unlink
        (saveHeadUnitCapabilities profile calls path disk).1 ↔ ¬ (_ ∧ _)
      rcases saveHeadUnitCapabilities_cases profile calls path disk with
        ⟨hsucceed, after, hsave, hfiles⟩ | ⟨hfails, hreplaced⟩
      · rw [hsave]
        constructor
        · rintro hreplaced ⟨-, hlost⟩
          have hwhole := hreplaced.saved rfl
          rw [hfiles, Function.update_self] at hwhole
          have hle := (streamed_eq_iff calls _).mp (Option.some.inj hwhole)
          omega
        · intro h
          have hle := not_lt.mp fun hlost => h ⟨hsucceed, hlost⟩
          rw [(streamed_eq_iff calls _).mpr hle] at hfiles
          exact replaced_of_update hfiles calls.unlink
      · exact iff_of_true hreplaced fun hlost => hfails hlost.1

/-- Every call succeeds, but there is no room when the stream is closed. -/
def diskFull : Calls where
  createDirectories := true
  create := true
  suffix := ascii "aaaaaa"
  opened := true
  write _ := none
  inserted := true
  writtenThrough := 0
  flushed := 0
  chmod := true
  fsync := true
  rename := true
  unlink := true

/-- Capabilities that are saved a second time on a full disk: the result is `true`, and an
empty file is in place of the good one. -/
theorem saveHeadUnitCapabilities_not_replaced :
    let store := Store.capabilities ⟨ascii "AA:BB", 0, 0, 0, true, false, true⟩
    let path := ascii "store"
    let disk : Disk := ⟨Function.update (fun _ => none) path (some store.content), 0⟩
    (store.save diskFull path disk).1 = some true ∧
      (store.save diskFull path disk).2.files path = some [] ∧
      ¬ Replaced path store.content disk.files (store.save diskFull path disk).2.files
        diskFull.unlink (store.save diskFull path disk).1 := by
  intro store path disk
  have hsaved : (store.save diskFull path disk).1 = some true := by rfl
  have hempty : (store.save diskFull path disk).2.files path = some [] := by rfl
  refine ⟨hsaved, hempty, fun hreplaced => ?_⟩
  have hwhole := hempty.symm.trans (hreplaced.saved hsaved)
  have hne : some [] ≠ some store.content := by decide
  exact hne hwhole

end Stores
end Aa2acp
