import Aa2acp.Airplay.BplistRoundTrip
import Aa2acp.Lib.Unicode

/-!
# UTF-16 strings of a property list

The branch of `Decoder::object` for strings in UTF-16, which translates one code unit after
the other.  In the Basic Multilingual Plane a code unit is a scalar value, and the text is
the one that a plist holds in UTF-8.  A pair of surrogates becomes two sequences of three
bytes in place of one sequence of four.
-/

namespace Aa2acp
namespace Airplay

open Unicode

/-! ## Code units -/

theorem utf16Text_bigEndian {unit : ℕ} (h : unit < 2 ^ 16) (rest : Bytes) :
    utf16Text (bigEndian 2 unit ++ rest) = encodeUnit unit ++ utf16Text rest := by
  have hhigh : (UInt8.ofNat (unit / 256 ^ 1)).toNat = unit / 256 ^ 1 % 256 := UInt8.toNat_ofNat'
  have hlow : (UInt8.ofNat (unit / 256 ^ 0)).toNat = unit / 256 ^ 0 % 256 := UInt8.toNat_ofNat'
  have hunit : unit / 256 ^ 1 % 256 * 256 + unit / 256 ^ 0 % 256 = unit := by omega
  change encodeUnit ((UInt8.ofNat (unit / 256 ^ 1)).toNat * 256 +
    (UInt8.ofNat (unit / 256 ^ 0)).toNat) ++ utf16Text rest = _
  rw [hhigh, hlow, hunit]

theorem utf16Text_units {units : List ℕ} (h : ∀ unit ∈ units, unit < 2 ^ 16) :
    utf16Text (units.flatMap (bigEndian 2)) = units.flatMap encodeUnit := by
  induction units with
  | nil => rfl
  | cons unit units ih =>
      obtain ⟨hunit, hunits⟩ := List.forall_mem_cons.mp h
      rw [List.flatMap_cons, utf16Text_bigEndian hunit, ih hunits, List.flatMap_cons]

theorem utf16Text_utf16 (text : List Char) :
    utf16Text (utf16 text) = text.flatMap fun char => (units char).flatMap encodeUnit := by
  rw [utf16, utf16Text_units fun _ hunit => utf16Units_lt hunit, utf16Units, List.flatMap_assoc]

/-- A code unit that is a scalar value is encoded as this one. -/
theorem encodeUnit_basic {char : Char} (h : Basic char) :
    (units char).flatMap encodeUnit = String.utf8EncodeChar char := by
  have hlt : char.val.toNat < 0x10000 := h
  rw [units, if_pos h, List.flatMap_singleton]
  unfold encodeUnit String.utf8EncodeChar Char.toNat
  dsimp only
  by_cases hone : char.val.toNat < 0x80
  · have hone' : char.val.toNat ≤ 0x7f := by omega
    rw [if_pos hone, if_pos hone']
  · have hone' : ¬ char.val.toNat ≤ 0x7f := by omega
    rw [if_neg hone, if_neg hone']
    by_cases htwo : char.val.toNat < 0x800
    · have htwo' : char.val.toNat ≤ 0x7ff := by omega
      have hdiv : char.val.toNat / 64 % 32 = char.val.toNat / 64 := by omega
      rw [if_pos htwo, if_pos htwo', hdiv, Nat.add_comm 0xc0, Nat.add_comm 0x80]
    · have htwo' : ¬ char.val.toNat ≤ 0x7ff := by omega
      have hthree : char.val.toNat ≤ 0xffff := by omega
      have hdiv : char.val.toNat / 4096 % 16 = char.val.toNat / 4096 := by omega
      rw [if_neg htwo, if_neg htwo', if_pos hthree, hdiv, Nat.add_comm 0xe0, Nat.add_comm 0x80,
        Nat.add_comm 0x80]

/-- A surrogate takes three bytes. -/
theorem length_encodeUnit_surrogate {unit : ℕ} (h : 0x800 ≤ unit) : (encodeUnit unit).length = 3 := by
  unfold encodeUnit
  rw [if_neg (by omega), if_neg (by omega)]
  rfl

theorem length_encodeUnit_not_basic {char : Char} (h : ¬ Basic char) :
    ((units char).flatMap encodeUnit).length = 6 := by
  rw [units, if_neg h, List.flatMap_cons, List.flatMap_singleton, List.length_append,
    length_encodeUnit_surrogate (by omega), length_encodeUnit_surrogate (by omega)]

/-- The text has two bytes too many for each scalar value outside the Basic Multilingual
Plane. -/
theorem length_utf16Text (text : List Char) :
    (utf16Text (utf16 text)).length =
      (utf8 text).length + 2 * text.countP fun char => ¬ Basic char := by
  rw [utf16Text_utf16]
  induction text with
  | nil => rfl
  | cons char text ih =>
      rw [List.flatMap_cons, List.length_append, ih, utf8_cons, List.length_append]
      by_cases hbasic : Basic char
      · rw [encodeUnit_basic hbasic, List.countP_cons_of_neg (by simpa using hbasic)]
        omega
      · rw [length_encodeUnit_not_basic hbasic, length_utf8EncodeChar_of_not_basic hbasic,
          List.countP_cons_of_pos (by simpa using hbasic)]
        omega

/-- The text is the same as in UTF-8 when no surrogate is in it. -/
theorem utf16Text_eq_utf8_iff (text : List Char) :
    utf16Text (utf16 text) = utf8 text ↔ ∀ char ∈ text, Basic char := by
  constructor
  · intro hsame
    have hlength := length_utf16Text text
    rw [hsame] at hlength
    have hnone : text.countP (fun char => ¬ Basic char) = 0 := by omega
    intro char hchar
    have hbasic := List.countP_eq_zero.mp hnone char hchar
    simpa using hbasic
  · intro hbasic
    rw [utf16Text_utf16, utf8]
    exact List.flatMap_congr fun char hchar => encodeUnit_basic (hbasic char hchar)

/-! ## Objects -/

/-- The object at this index is of this type, has this number of items, and holds these bytes. -/
structure HoldsAt (decoder : Decoder) (index type items : ℕ) (content : Bytes) : Prop where
  index_lt : index < decoder.offsets.length
  type_eq : (decoder.bytes.getD (decoder.offsets.getD index 0) 0).toNat / 16 = type
  content_eq : ∃ data, decoder.count (decoder.offsets.getD index 0)
      ((decoder.bytes.getD (decoder.offsets.getD index 0) 0).toNat % 16) = some (items, data) ∧
    data ≤ decoder.bytes.length ∧ content <+: decoder.bytes.drop data

/-- One more node and these bytes may be materialised. -/
def WithinBudget (made : Materialized) (bytes : ℕ) : Prop :=
  made.nodes + 1 ≤ kMaxMaterializedNodes ∧ made.bytes + bytes ≤ kMaxMaterializedBytes

section Objects

variable {decoder : Decoder} {index type items : ℕ} {content : Bytes} {made : Materialized}

theorem HoldsAt.object_eq (h : HoldsAt decoder index type items content) (htype : 4 ≤ type)
    (hnodes : made.nodes + 1 ≤ kMaxMaterializedNodes) (levels : ℕ) :
    ∃ data rest, data ≤ decoder.bytes.length ∧ decoder.bytes.drop data = content ++ rest ∧
      decoder.object (levels + 1) index made =
        Decoder.counted (decoder.object levels) decoder type items data
          { made with nodes := made.nodes + 1 } := by
  obtain ⟨data, hcount, hdata, rest, hrest⟩ := h.content_eq
  refine ⟨data, rest, hdata, hrest.symm, ?_⟩
  rw [Decoder.object, if_neg (Nat.not_le.mpr h.index_lt)]
  dsimp only
  rw [if_neg (Nat.not_lt.mpr hnodes)]
  unfold Decoder.nodeAt
  dsimp only
  rw [h.type_eq, if_neg (by omega), if_neg (by omega), if_neg (by omega), hcount]

/-- A string in UTF-16 is translated unit by unit. -/
theorem object_utf16 {text : List Char}
    (h : HoldsAt decoder index 6 (utf16Units text).length (utf16 text))
    (hbudget : WithinBudget made ((utf16Units text).length * 3)) (levels : ℕ) :
    (decoder.object (levels + 1) index made).1 = some (.string (utf16Text (utf16 text))) := by
  obtain ⟨data, rest, hdata, hdrop, hobject⟩ := h.object_eq (by decide) hbudget.1 levels
  have hlength := congrArg List.length hdrop
  rw [List.length_drop, List.length_append, length_utf16] at hlength
  have hroom : (utf16Units text).length ≤ (decoder.bytes.length - data) / 2 := by omega
  rw [hobject]
  unfold Decoder.counted
  dsimp only
  rw [if_neg (by simp), if_pos ⟨rfl, hdata, hroom⟩, if_neg (Nat.not_lt.mpr hbudget.2), hdrop,
    List.take_left' (length_utf16 text)]

/-- A string in UTF-8 is copied. -/
theorem object_utf8 {text : List Char} (h : HoldsAt decoder index 5 (utf8 text).length (utf8 text))
    (hbudget : WithinBudget made (utf8 text).length) (levels : ℕ) :
    (decoder.object (levels + 1) index made).1 = some (.string (utf8 text)) := by
  obtain ⟨data, rest, hdata, hdrop, hobject⟩ := h.object_eq (by decide) hbudget.1 levels
  have hlength := congrArg List.length hdrop
  rw [List.length_drop, List.length_append] at hlength
  have hroom : (utf8 text).length ≤ decoder.bytes.length - data := by omega
  rw [hobject]
  unfold Decoder.counted
  dsimp only
  rw [if_pos ⟨by simp, hdata, hroom⟩, if_neg (Nat.not_lt.mpr hbudget.2), hdrop, List.take_left]
  rfl

end Objects

/-- A string in UTF-16 is decoded to its UTF-8 text, which is that of a string in UTF-8,
exactly when all its scalar values lie in the Basic Multilingual Plane. -/
theorem utf16_object_iff (decoder : Decoder) (index levels : ℕ) (made : Materialized)
    (text : List Char) (h : HoldsAt decoder index 6 (utf16Units text).length (utf16 text))
    (hbudget : WithinBudget made ((utf16Units text).length * 3)) :
    ((decoder.object (levels + 1) index made).1 = some (.string (utf8 text)) ↔
        ∀ char ∈ text, Basic char) ∧
      ∀ (other : Decoder) (otherIndex otherLevels : ℕ) (otherMade : Materialized),
        HoldsAt other otherIndex 5 (utf8 text).length (utf8 text) →
        WithinBudget otherMade (utf8 text).length →
        ((decoder.object (levels + 1) index made).1 =
            (other.object (otherLevels + 1) otherIndex otherMade).1 ↔
          ∀ char ∈ text, Basic char) := by
  have hiff : (decoder.object (levels + 1) index made).1 = some (.string (utf8 text)) ↔
      ∀ char ∈ text, Basic char := by
    rw [object_utf16 h hbudget levels, Option.some.injEq, PlistValue.string.injEq]
    exact utf16Text_eq_utf8_iff text
  refine ⟨hiff, ?_⟩
  intro other otherIndex otherLevels otherMade hother hotherBudget
  rw [object_utf8 hother hotherBudget otherLevels]
  exact hiff

/-- The file of one string in UTF-16 with up to 14 code units. -/
def utf16File (text : List Char) : Bytes :=
  magic ++ [UInt8.ofNat (0x60 + (utf16Units text).length)] ++ utf16 text ++ [8] ++
    [0, 0, 0, 0, 0, 0, 1, 1] ++ bigEndian 8 1 ++ bigEndian 8 0 ++ bigEndian 8 (9 + (utf16 text).length)

/-- The decoder that reads this file. -/
def utf16Decoder (text : List Char) : Decoder := ⟨utf16File text, 1, [8]⟩

theorem utf16_object_iff_umlaut :
    openBplist (utf16File ['ü']) = some (utf16Decoder ['ü'], 0) ∧
      ((utf16Decoder ['ü']).object 65 0 {}).1 = some (.string (utf8 ['ü'])) := by
  have hholds : HoldsAt (utf16Decoder ['ü']) 0 6 (utf16Units ['ü']).length (utf16 ['ü']) :=
    ⟨by decide, by decide, 9, by decide, by decide, by decide⟩
  have hbasic : ∀ char ∈ ['ü'], Basic char := by
    intro char hchar
    rw [List.mem_singleton.mp hchar]
    decide
  exact ⟨by decide, (utf16_object_iff _ 0 64 {} ['ü'] hholds ⟨by decide, by decide⟩).1.mpr hbasic⟩

/-- A smiling face. -/
def smile : List Char := [Char.ofNat 0x1F600]

/-- Four bytes in UTF-8 become six. -/
theorem decodeBplist_utf16_smile :
    openBplist (utf16File smile) = some (utf16Decoder smile, 0) ∧
      HoldsAt (utf16Decoder smile) 0 6 (utf16Units smile).length (utf16 smile) ∧
      WithinBudget {} ((utf16Units smile).length * 3) ∧
      decodeBplist (utf16File smile) = some (.string [0xED, 0xA0, 0xBD, 0xED, 0xB8, 0x80]) ∧
      decodeBplist (utf16File smile) ≠ some (.string (utf8 smile)) := by
  have hdecoded : decodeBplist (utf16File smile) =
      some (.string [0xED, 0xA0, 0xBD, 0xED, 0xB8, 0x80]) := rfl
  have htext : utf8 smile = [0xF0, 0x9F, 0x98, 0x80] := by decide
  refine ⟨by decide, ⟨by decide, by decide, 9, by decide, by decide, by decide⟩,
    ⟨by decide, by decide⟩, hdecoded, ?_⟩
  rw [hdecoded, htext]
  simp

end Airplay
end Aa2acp
