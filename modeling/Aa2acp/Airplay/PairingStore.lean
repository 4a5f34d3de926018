import Aa2acp.Airplay.Session
import Aa2acp.Lib.Reader

/-!
# The pairing store

The file of `airplay/pairing_store.cpp`: the bytes that `save_pairing_record` writes for a
record, and what `load_pairing_record` reads.  The length of the identifier stands in front
of it, least significant byte first, so the file says itself where it ends: the record is
read back from the whole file, and from no part of it.
-/

namespace Aa2acp
namespace Airplay
namespace PairingStore

open Reader

def kMagic : Bytes := ascii "ACPPAIR1"

/-- The two bytes of `write_u16`. -/
def u16Bytes (value : ℕ) : Bytes := [UInt8.ofNat value, UInt8.ofNat (value / 256)]

/-- `read_u16`. -/
def readU16 : Reader ℕ
  | low :: high :: rest => some (low.toNat + high.toNat * 256, rest)
  | _ => none

end PairingStore

open PairingStore Reader

/-- The records that `save_pairing_record` does not refuse. -/
def PairingRecord.Storable (record : PairingRecord) : Prop :=
  record.controllerId ≠ [] ∧ record.controllerId.length ≤ 1024 ∧
    record.controller.privateKey.length = 32 ∧ record.controller.publicKey.length = 32 ∧
    record.accessoryPublicKey.length = 32

instance (record : PairingRecord) : Decidable record.Storable := inferInstanceAs (Decidable (_ ∧ _))

/-- The pieces that `save_pairing_record` writes. -/
def PairingRecord.pieces (record : PairingRecord) : List Bytes :=
  [PairingStore.kMagic, u16Bytes record.controllerId.length, record.controllerId,
    record.controller.privateKey, record.controller.publicKey, record.accessoryPublicKey]

/-- The bytes of the file. -/
def PairingRecord.content (record : PairingRecord) : Bytes := record.pieces.flatten

/-- `load_pairing_record` on the stream of the file. -/
def readPairingRecord : Reader PairingRecord := do
  let magic ← bytes 8
  require (magic = PairingStore.kMagic)
  let identifierSize ← readU16
  require (identifierSize ≠ 0 ∧ identifierSize ≤ 1024)
  let controllerId ← bytes identifierSize
  let privateKey ← bytes 32
  let publicKey ← bytes 32
  let accessoryPublicKey ← bytes 32
  pure ⟨controllerId, ⟨privateKey, publicKey⟩, accessoryPublicKey⟩

/-- `load_pairing_record`, for the bytes of the file; a file that is not there is empty. -/
def loadPairingRecord (file : Bytes) : Option PairingRecord :=
  (readPairingRecord.run file).map Prod.fst

theorem exactOn_readU16 {value : ℕ} (h : value < 2 ^ 16) : ExactOn readU16 (u16Bytes value) value where
  whole rest := by
    have hlow : (UInt8.ofNat value).toNat = value % 256 := UInt8.toNat_ofNat'
    have hhigh : (UInt8.ofNat (value / 256)).toNat = value / 256 % 256 := UInt8.toNat_ofNat'
    have hvalue : value % 256 + value / 256 % 256 * 256 = value := by omega
    change some ((UInt8.ofNat value).toNat + (UInt8.ofNat (value / 256)).toNat * 256, rest) =
      some (value, rest)
    rw [hlow, hhigh, hvalue]
  part part more hmore hpart := by
    have hpos := List.length_pos_iff.mpr hmore
    have hlength := congrArg List.length hpart
    rw [List.length_append, u16Bytes, List.length_cons, List.length_singleton] at hlength
    match part with
    | [] => rfl
    | [_] => rfl
    | _ :: _ :: rest =>
        rw [List.length_cons, List.length_cons] at hlength
        omega

/-- The fields of a record are read one after the other. -/
theorem exactOn_readPairingRecord {record : PairingRecord} (h : record.Storable) :
    ExactOn readPairingRecord record.content record := by
  obtain ⟨hne, hid, hprivate, hpublic, haccessory⟩ := h
  have hpos := List.length_pos_iff.mpr hne
  have hlast : ExactOn (pure record) [] record := exactOn_pure record
  refine (exactOn_bytes (by decide)).bind ((exactOn_require rfl).then
    ((exactOn_readU16 (by omega)).bind ((exactOn_require ⟨by omega, hid⟩).then
      ((exactOn_bytes rfl).bind ((exactOn_bytes hprivate).bind ((exactOn_bytes hpublic).bind
        ((exactOn_bytes haccessory).bind hlast)))))))

/-- A record is loaded from the file that was written for it, and from no part of this file. -/
theorem pairingRecord_saved_and_loaded (record : PairingRecord) (h : record.Storable) :
    loadPairingRecord record.content = some record ∧
      ∀ part more, more ≠ [] → part ++ more = record.content → loadPairingRecord part = none := by
  have hexact := exactOn_readPairingRecord h
  constructor
  · rw [loadPairingRecord, ← List.append_nil record.content, hexact.whole]
    rfl
  · intro part more hmore hpart
    rw [loadPairingRecord, hexact.part part more hmore hpart]
    rfl

/-- An identifier of one byte, and the last byte of the file missing. -/
theorem pairingRecord_saved_and_loaded_short :
    let record : PairingRecord :=
      ⟨[0x00], ⟨List.replicate 32 1, List.replicate 32 2⟩, List.replicate 32 3⟩
    loadPairingRecord record.content = some record ∧
      loadPairingRecord (record.content.take 106) = none := by
  intro record
  have hstorable : record.Storable := by decide
  have hmissing : record.content.drop 106 ≠ [] := by decide
  obtain ⟨hwhole, hpart⟩ := pairingRecord_saved_and_loaded record hstorable
  exact ⟨hwhole, hpart _ _ hmissing (List.take_append_drop 106 _)⟩

end Airplay
end Aa2acp
