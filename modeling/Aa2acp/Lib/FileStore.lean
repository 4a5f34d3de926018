import Aa2acp.Lib.Bytes

/-!
# Files that are replaced as a whole

The files of a disk, and the system calls by which a program writes a file under a
temporary name and moves it to its place.  What each call returns comes from outside
(`Calls`).  While the temporary file is written, nothing else on the disk changes
(`Pending`); renaming it puts its content in place of the old one, and unlinking it leaves
the disk as it was.
-/

namespace Aa2acp
namespace FileStore

/-- The content of each file that is there, by its path. -/
abbrev Files := Bytes → Option Bytes

/-- What the calls return, and how much of their data they take. -/
structure Calls where
  createDirectories : Bool
  /-- Creating a file under a new name. -/
  create : Bool
  /-- What `mkstemp` puts in place of the `X`s. -/
  suffix : Bytes
  /-- Opening a stream on a file. -/
  opened : Bool
  /-- For each call of `write` in turn: no value when it fails, else how many bytes it takes
  at most.  A call that is interrupted and repeated does not count. -/
  write : ℕ → Option ℕ
  /-- The state of a stream behind the insertions. -/
  inserted : Bool
  /-- How many bytes a stream has written to the file by then; it holds back the rest. -/
  writtenThrough : ℕ
  /-- How many bytes of the rest are written when the stream is closed. -/
  flushed : ℕ
  chmod : Bool
  fsync : Bool
  rename : Bool
  unlink : Bool

structure Disk where
  files : Files
  /-- The number of calls of `write` up to now. -/
  writes : ℕ := 0

/-- One program after the other. -/
theorem bind_apply {α β : Type} (c : StateM Disk α) (f : α → StateM Disk β) (disk : Disk) :
    (c >>= f) disk = f (c disk).1 (c disk).2 := rfl

/-- Create a file; it must not be there. -/
def create (succeeds : Bool) (path : Bytes) : StateM Disk Bool := fun disk =>
  if succeeds ∧ disk.files path = none then
    (true, { disk with files := Function.update disk.files path (some []) })
  else (false, disk)

def append (path bytes : Bytes) : StateM Disk Unit := modify fun disk =>
  { disk with files := Function.update disk.files path ((disk.files path).map (· ++ bytes)) }

/-- Open a file that is there without its content. -/
def truncate (path : Bytes) : StateM Disk Unit := modify fun disk =>
  { disk with files := Function.update disk.files path (some []) }

/-- `write`: the number of bytes taken. -/
def write (calls : Calls) (path data : Bytes) : StateM Disk (Option ℕ) := fun disk =>
  let counted : Disk := { disk with writes := disk.writes + 1 }
  match calls.write disk.writes with
  | none => (none, counted)
  | some count => (some (min count data.length), (append path (data.take count) counted).2)

/-- Call `write` until all the data are written. -/
def writeAll (calls : Calls) (path data : Bytes) : StateM Disk Bool :=
  if data = [] then pure true
  else do
    match ← write calls path data with
    | none | some 0 => pure false
    | some (count + 1) => writeAll calls path (data.drop (count + 1))
termination_by data.length
decreasing_by
  have hpos : 0 < data.length := List.length_pos_iff.mpr ‹_›
  rw [List.length_drop]
  omega

/-- Write one piece of data after the other. -/
def writePieces (calls : Calls) (path : Bytes) : List Bytes → StateM Disk Bool
  | [] => pure true
  | piece :: pieces => do
      if ← writeAll calls path piece then writePieces calls path pieces else pure false

/-- The insertions into a stream: whether it is still good. -/
def streamInsert (calls : Calls) (path data : Bytes) : StateM Disk Bool := do
  append path (data.take calls.writtenThrough)
  pure calls.inserted

/-- The stream is closed.  Nobody asks whether the rest was written. -/
def streamClose (calls : Calls) (path data : Bytes) : StateM Disk Unit :=
  append path ((data.drop calls.writtenThrough).take calls.flushed)

def rename (succeeds : Bool) (old new : Bytes) : StateM Disk Bool := fun disk =>
  match succeeds, disk.files old with
  | true, some file =>
      (true, { disk with
        files := Function.update (Function.update disk.files old none) new (some file) })
  | _, _ => (false, disk)

def unlink (succeeds : Bool) (path : Bytes) : StateM Disk Bool := fun disk =>
  if succeeds then (true, { disk with files := Function.update disk.files path none })
  else (false, disk)

/-- Rename the file unless something failed before. -/
def renameIf (ok succeeds : Bool) (old new : Bytes) : StateM Disk Bool :=
  if ok then rename succeeds old new else pure false

/-- Unlink the file and return false. -/
def giveUp (calls : Calls) (path : Bytes) : StateM Disk Bool := do
  let _ ← unlink calls.unlink path
  pure false

/-! ## The temporary file -/

/-- The temporary file was not there and holds these bytes now; nothing else has changed. -/
def Pending (before : Files) (temporary file : Bytes) (disk : Disk) : Prop :=
  before temporary = none ∧ disk.files = Function.update before temporary (some file)

variable {before : Files} {temporary file path content : Bytes} {disk : Disk} {calls : Calls}

/-- The file is created, or nothing happens. -/
theorem create_cases (succeeds : Bool) (temporary : Bytes) (disk : Disk) :
    (succeeds = true ∧ disk.files temporary = none ∧
        ∃ after, create succeeds temporary disk = (true, after) ∧
          Pending disk.files temporary [] after) ∨
      (¬ (succeeds = true ∧ disk.files temporary = none) ∧
        create succeeds temporary disk = (false, disk)) := by
  unfold create
  split
  · rename_i h
    exact Or.inl ⟨h.1, h.2, _, rfl, h.2, rfl⟩
  · rename_i h
    exact Or.inr ⟨h, rfl⟩

theorem Pending.append (h : Pending before temporary file disk) (bytes : Bytes) :
    Pending before temporary (file ++ bytes) (append temporary bytes disk).2 := by
  refine ⟨h.1, ?_⟩
  change Function.update disk.files temporary ((disk.files temporary).map (· ++ bytes)) = _
  rw [h.2, Function.update_self, Function.update_idem]
  rfl

theorem Pending.truncate (h : Pending before temporary file disk) :
    Pending before temporary [] (truncate temporary disk).2 := by
  refine ⟨h.1, ?_⟩
  change Function.update disk.files temporary (some []) = _
  rw [h.2, Function.update_idem]

theorem writeAll_nil (calls : Calls) (path : Bytes) (disk : Disk) :
    writeAll calls path [] disk = (true, disk) := by
  rw [writeAll, if_pos rfl]
  rfl

/-- What the first call of `write` comes to. -/
theorem writeAll_eq {data : Bytes} (hdata : data ≠ []) :
    writeAll calls path data disk =
      match write calls path data disk with
      | (some (count + 1), disk) => writeAll calls path (data.drop (count + 1)) disk
      | (_, disk) => (false, disk) := by
  rw [writeAll, if_neg hdata, bind_apply]
  rcases write calls path data disk with ⟨_ | _ | count, disk⟩ <;> rfl

/-- A call of `write` takes data at the front, or none. -/
theorem Pending.write (h : Pending before temporary file disk) (calls : Calls) (data : Bytes) :
    ∃ taken after, write calls temporary data disk = (taken, after) ∧
      Pending before temporary (file ++ data.take (taken.getD 0)) after := by
  have hcounted : Pending before temporary file { disk with writes := disk.writes + 1 } := h
  unfold FileStore.write
  split
  · refine ⟨none, _, rfl, ?_⟩
    rw [Option.getD_none, List.take_zero, List.append_nil]
    exact hcounted
  · rename_i count _
    refine ⟨some (min count data.length), _, rfl, ?_⟩
    rw [Option.getD_some, ← List.take_take, List.take_length]
    exact hcounted.append _

/-- All of the data are written, or writing stopped somewhere. -/
theorem Pending.writeAll (h : Pending before temporary file disk) (calls : Calls) (data : Bytes) :
    ∃ ok after begun, writeAll calls temporary data disk = (ok, after) ∧
      Pending before temporary begun after ∧ (ok = true → begun = file ++ data) := by
  induction hlength : data.length using Nat.strong_induction_on generalizing data file disk with
  | _ length ih =>
      by_cases hdata : data = []
      · rw [hdata, writeAll_nil]
        exact ⟨true, disk, file, rfl, h, fun _ => (List.append_nil file).symm⟩
      · have hpos : 0 < data.length := List.length_pos_iff.mpr hdata
        obtain ⟨taken, after, htaken, hpending⟩ := h.write calls data
        rw [writeAll_eq hdata, htaken]
        match taken with
        | none => exact ⟨false, after, _, rfl, hpending, fun hfalse => by cases hfalse⟩
        | some 0 => exact ⟨false, after, _, rfl, hpending, fun hfalse => by cases hfalse⟩
        | some (count + 1) =>
            -- the rest is shorter
            obtain ⟨ok, last, begun, hrest, hlast, hall⟩ :=
              ih _ (by rw [List.length_drop]; omega) hpending (data.drop (count + 1)) rfl
            refine ⟨ok, last, begun, hrest, hlast, fun hok => ?_⟩
            rw [hall hok, Option.getD_some, List.append_assoc, List.take_append_drop]

theorem Pending.writePieces (h : Pending before temporary file disk) (calls : Calls)
    (pieces : List Bytes) :
    ∃ ok after begun, writePieces calls temporary pieces disk = (ok, after) ∧
      Pending before temporary begun after ∧ (ok = true → begun = file ++ pieces.flatten) := by
  induction pieces generalizing file disk with
  | nil => exact ⟨true, disk, file, rfl, h, fun _ => (List.append_nil file).symm⟩
  | cons piece pieces ih =>
      obtain ⟨ok, after, begun, hpiece, hpending, hall⟩ := h.writeAll calls piece
      rw [FileStore.writePieces, bind_apply, hpiece]
      cases ok with
      | false => exact ⟨false, after, begun, rfl, hpending, fun hfalse => by cases hfalse⟩
      | true =>
          obtain ⟨ok, last, written, hrest, hlast, hrestall⟩ := ih hpending
          refine ⟨ok, last, written, hrest, hlast, fun hok => ?_⟩
          rw [hrestall hok, hall rfl, List.flatten_cons, List.append_assoc]

/-- What a stream leaves in its file. -/
def streamed (calls : Calls) (data : Bytes) : Bytes :=
  data.take calls.writtenThrough ++ (data.drop calls.writtenThrough).take calls.flushed

theorem streamed_eq_iff (calls : Calls) (data : Bytes) :
    streamed calls data = data ↔ data.length ≤ calls.writtenThrough + calls.flushed := by
  rw [streamed, ← List.take_add, List.take_eq_self_iff]

theorem Pending.streamInsert_streamClose (h : Pending before temporary [] disk) (calls : Calls)
    (data : Bytes) :
    Pending before temporary (streamed calls data)
      (streamClose calls temporary data (streamInsert calls temporary data disk).2).2 :=
  (h.append (data.take calls.writtenThrough)).append _

/-! ## The end of it -/

/-- Renamed, the temporary file is in the place of the old one. -/
theorem Pending.rename (h : Pending before temporary file disk) (succeeds : Bool) (path : Bytes) :
    (succeeds = true ∧ ∃ after, rename succeeds temporary path disk = (true, after) ∧
        after.files = Function.update before path (some file)) ∨
      (succeeds = false ∧ rename succeeds temporary path disk = (false, disk)) := by
  cases succeeds with
  | false => exact Or.inr ⟨rfl, rfl⟩
  | true =>
      have hfile : disk.files temporary = some file := by rw [h.2, Function.update_self]
      have herased : Function.update disk.files temporary none = before := by
        rw [h.2, Function.update_idem, ← h.1, Function.update_eq_self]
      refine Or.inl ⟨rfl, ⟨Function.update before path (some file), disk.writes⟩, ?_, rfl⟩
      unfold FileStore.rename
      rw [hfile]
      dsimp only
      rw [herased]

theorem Pending.renameIf (h : Pending before temporary file disk) (ok succeeds : Bool)
    (path : Bytes) :
    (ok = true ∧ succeeds = true ∧
        ∃ after, renameIf ok succeeds temporary path disk = (true, after) ∧
          after.files = Function.update before path (some file)) ∨
      (¬ (ok = true ∧ succeeds = true) ∧
        renameIf ok succeeds temporary path disk = (false, disk)) := by
  cases ok with
  | false => exact Or.inr ⟨fun hboth => Bool.false_ne_true hboth.1, rfl⟩
  | true =>
      rcases h.rename succeeds path with ⟨hsucceeds, hrenamed⟩ | ⟨hfails, hrename⟩
      · exact Or.inl ⟨rfl, hsucceeds, hrenamed⟩
      · refine Or.inr ⟨fun hboth => ?_, hrename⟩
        rw [hfails] at hboth
        exact Bool.false_ne_true hboth.2

/-- Unlinked, it is as if it had never been there. -/
theorem Pending.unlink_true (h : Pending before temporary file disk) :
    (unlink true temporary disk).2.files = before := by
  change Function.update disk.files temporary none = before
  rw [h.2, Function.update_idem, ← h.1, Function.update_eq_self]

/-- What it means that a file is replaced as a whole: with the result `true` it is the new
one; otherwise it is the old one, and if files could be removed, there is no new file. -/
structure Replaced (path content : Bytes) (before after : Files) (unlinked : Bool)
    (returned : Option Bool) : Prop where
  saved : returned = some true → after path = some content
  kept : returned ≠ some true → after path = before path
  clean : unlinked = true ∨ returned = some true → ∀ other ≠ path, ∀ file,
    after other = some file → before other = some file

theorem replaced_of_same {unlinked : Bool} {returned : Option Bool} (h : returned ≠ some true) :
    Replaced path content before before unlinked returned where
  saved htrue := absurd htrue h
  kept _ := rfl
  clean _ _ _ _ hfile := hfile

/-- The temporary file is gone, or could not be removed. -/
theorem Pending.replaced_unlink (h : Pending before temporary file disk) (hne : temporary ≠ path)
    (unlinked : Bool) {returned : Option Bool} (hreturned : returned ≠ some true) :
    Replaced path content before (unlink unlinked temporary disk).2.files unlinked returned := by
  cases unlinked with
  | true =>
      rw [h.unlink_true]
      exact replaced_of_same hreturned
  | false =>
      refine ⟨fun htrue => absurd htrue hreturned, fun _ => ?_, ?_⟩
      · change disk.files path = before path
        rw [h.2, Function.update_of_ne hne.symm]
      · rintro (hfalse | htrue)
        · cases hfalse
        · exact absurd htrue hreturned

/-- Unlinking some other name, whether or not there is a file. -/
theorem replaced_unlink_same (hne : temporary ≠ path) (unlinked : Bool) (disk : Disk)
    {returned : Option Bool} (hreturned : returned ≠ some true) :
    Replaced path content disk.files (unlink unlinked temporary disk).2.files unlinked
      returned := by
  cases unlinked with
  | false => exact replaced_of_same hreturned
  | true =>
      refine ⟨fun htrue => absurd htrue hreturned, fun _ => ?_, fun _ other _ file hfile => ?_⟩
      · change Function.update disk.files temporary none path = disk.files path
        rw [Function.update_of_ne hne.symm]
      · change Function.update disk.files temporary none other = some file at hfile
        by_cases hother : other = temporary
        · rw [hother, Function.update_self] at hfile
          cases hfile
        · rwa [Function.update_of_ne hother] at hfile

theorem replaced_of_update {after : Files} (h : after = Function.update before path (some content))
    (unlinked : Bool) : Replaced path content before after unlinked (some true) := by
  rw [h]
  refine ⟨fun _ => Function.update_self _ _ _, fun hfalse => absurd rfl hfalse, ?_⟩
  intro _ other hother file hfile
  rwa [Function.update_of_ne hother] at hfile

theorem Pending.replaced_giveUp (h : Pending before temporary file disk) (hne : temporary ≠ path)
    (calls : Calls) :
    Replaced path content before (giveUp calls temporary disk).2.files calls.unlink
      (some (giveUp calls temporary disk).1) :=
  h.replaced_unlink hne calls.unlink (show some false ≠ some true by decide)

/-- The temporary file takes the place of the old one, or is given up. -/
theorem Pending.replaced_renameIf (h : Pending before temporary file disk) (hne : temporary ≠ path)
    {ok : Bool} (hwhole : ok = true → file = content) (calls : Calls) :
    let moved := (do
      let renamed ← FileStore.renameIf ok calls.rename temporary path
      if renamed then pure true else giveUp calls temporary : StateM Disk Bool)
    Replaced path content before (moved disk).2.files calls.unlink (some (moved disk).1) := by
  intro moved
  have hmoved : moved disk =
      (if (FileStore.renameIf ok calls.rename temporary path disk).1 then pure true
        else giveUp calls temporary : StateM Disk Bool)
          (FileStore.renameIf ok calls.rename temporary path disk).2 := rfl
  rw [hmoved]
  rcases h.renameIf ok calls.rename path with ⟨hok, -, renamed, hrename, hfiles⟩ | ⟨-, hrename⟩
  · rw [hrename]
    rw [hwhole hok] at hfiles
    exact replaced_of_update hfiles calls.unlink
  · rw [hrename]
    exact h.replaced_giveUp hne calls

end FileStore
end Aa2acp
