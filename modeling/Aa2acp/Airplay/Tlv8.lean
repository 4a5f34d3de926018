import Aa2acp.Airplay.Rtsp
import Aa2acp.Lib.TaggedItems

/-!
# The items of the pairing messages

`encode_tlv8` and `decode_tlv8` of `airplay/rtsp.cpp`.  A value of more than 255 bytes is
sent in parts, and the decoder joins the items of one type.

The loop of the decoder ends when there is no room for a type and a length.  It notices a
value that is cut off, but not a type that stands alone behind whole items.
-/

namespace Aa2acp
namespace Airplay

open TaggedItems

theorem appendItem_eq_joinAt (items : List (UInt8 × Bytes)) (type : UInt8) (value : Bytes) :
    appendItem items type value = joinAt items type value := rfl

/-! ## One item, and whole items -/

theorem decodeItems_nil (items : List (UInt8 × Bytes)) : decodeItems items [] = items := by
  unfold decodeItems
  rfl

theorem decodeItems_type (items : List (UInt8 × Bytes)) (type : UInt8) :
    decodeItems items [type] = items := by
  unfold decodeItems
  rfl

theorem decodeItems_cutValue (items : List (UInt8 × Bytes)) {rest : Bytes} (h : CutValue rest) :
    decodeItems items rest = [] := by
  obtain ⟨type, size, value, rfl, hcut⟩ := h
  rw [decodeItems, if_pos hcut]

theorem decodeItems_sent_append (items : List (UInt8 × Bytes)) {item : UInt8 × Bytes}
    (hitem : TaggedItems.Fits item) (rest : Bytes) :
    decodeItems items (sent item ++ rest) = decodeItems (joinAt items item.1 item.2) rest := by
  have hsize : (UInt8.ofNat item.2.length).toNat = item.2.length := toNat_length hitem
  have hroom : ¬ (item.2 ++ rest).length < item.2.length := by
    rw [List.length_append]
    omega
  rw [sent, List.cons_append, List.cons_append, decodeItems, hsize, if_neg hroom, List.take_left,
    List.drop_left, appendItem_eq_joinAt]

theorem decodeItems_stream_append {more : List (UInt8 × Bytes)}
    (hmore : ∀ item ∈ more, TaggedItems.Fits item)
    (items : List (UInt8 × Bytes)) (rest : Bytes) :
    decodeItems items (stream more ++ rest) =
      decodeItems (more.foldl (fun items item => joinAt items item.1 item.2) items) rest := by
  induction more generalizing items with
  | nil => rfl
  | cons item more ih =>
      obtain ⟨hitem, hmore⟩ := List.forall_mem_cons.mp hmore
      rw [stream_cons, List.append_assoc, decodeItems_sent_append items hitem, ih hmore,
        List.foldl_cons]

/-- Whole items, with a type alone behind them or not: one entry for each type. -/
theorem joined_decodeTlv8 {items : List (UInt8 × Bytes)}
    (hitems : ∀ item ∈ items, TaggedItems.Fits item)
    {rest : Bytes} (hrest : rest = [] ∨ ∃ type, rest = [type]) :
    Joined (decodeTlv8 (stream items ++ rest)) items := by
  have hjoined := joined_nil.foldl items
  rw [List.nil_append] at hjoined
  rw [decodeTlv8, decodeItems_stream_append hitems]
  rcases hrest with rfl | ⟨type, rfl⟩
  · rw [decodeItems_nil]
    exact hjoined
  · rw [decodeItems_type]
    exact hjoined

/-! ## What was encoded -/

/-- The items that a list of fields is sent in. -/
def fieldItems (fields : List (UInt8 × Bytes)) : List (UInt8 × Bytes) :=
  fields.flatMap fun field => (field.2.toChunks 255).map fun part => (field.1, part)

theorem encodeTlv8_eq_stream (fields : List (UInt8 × Bytes)) :
    encodeTlv8 fields = stream (fieldItems fields) := by
  unfold encodeTlv8 stream fieldItems
  rw [List.flatMap_assoc]
  apply List.flatMap_congr
  intro field _
  rw [encodeItem, List.flatMap_map]
  rfl

theorem fits_of_mem_fieldItems {fields : List (UInt8 × Bytes)} {item : UInt8 × Bytes}
    (h : item ∈ fieldItems fields) : TaggedItems.Fits item := by
  obtain ⟨field, -, hitem⟩ := List.mem_flatMap.mp h
  obtain ⟨part, hpart, rfl⟩ := List.mem_map.mp hitem
  have hlength := ((toChunks_spec (by decide) field.2).2 part hpart).2
  exact Nat.lt_succ_of_le hlength

/-- The parts of a field that is not empty are items of its type and no other. -/
theorem occurs_fieldItems {fields : List (UInt8 × Bytes)} (hfields : ∀ field ∈ fields, field.2 ≠ [])
    (type : UInt8) : Occurs (fieldItems fields) type ↔ Occurs fields type := by
  constructor
  · rintro ⟨item, hitem, rfl⟩
    obtain ⟨field, hfield, hpart⟩ := List.mem_flatMap.mp hitem
    obtain ⟨part, -, rfl⟩ := List.mem_map.mp hpart
    exact ⟨field, hfield, rfl⟩
  · rintro ⟨field, hfield, rfl⟩
    have hparts : field.2.toChunks 255 ≠ [] := by
      intro hnil
      have hjoin : (field.2.toChunks 255).flatten = field.2 := (toChunks_spec (by decide) field.2).1
      rw [hnil] at hjoin
      exact hfields field hfield hjoin.symm
    obtain ⟨part, hpart⟩ := List.exists_mem_of_ne_nil _ hparts
    exact ⟨(field.1, part), List.mem_flatMap.mpr ⟨field, hfield, List.mem_map_of_mem hpart⟩, rfl⟩

theorem valuesOf_parts (type other : UInt8) (parts : List Bytes) :
    valuesOf (parts.map fun part => (type, part)) other = if type = other then parts.flatten else [] := by
  by_cases htype : type = other <;>
    simp [valuesOf, htype, List.filter_map, Function.comp_def, List.flatMap_map]

theorem valuesOf_fieldItems (fields : List (UInt8 × Bytes)) (type : UInt8) :
    valuesOf (fieldItems fields) type = valuesOf fields type := by
  induction fields with
  | nil => rfl
  | cons field fields ih =>
      have hcons : fieldItems (field :: fields) =
          (field.2.toChunks 255).map (fun part => (field.1, part)) ++ fieldItems fields :=
        List.flatMap_cons
      rw [hcons, valuesOf_append, ih, valuesOf_parts, (toChunks_spec (by decide) field.2).1,
        ← valuesOf_singleton, ← valuesOf_append, List.singleton_append]

/-- What was encoded is decoded: every type that occurs has one entry, its values in order,
and there is no other entry. -/
theorem decodeTlv8_encodeTlv8 (fields : List (UInt8 × Bytes))
    (hfields : ∀ field ∈ fields, field.2 ≠ []) :
    ((decodeTlv8 (encodeTlv8 fields)).map Prod.fst).Nodup ∧
      ∀ type value, (type, value) ∈ decodeTlv8 (encodeTlv8 fields) ↔
        (∃ field ∈ fields, field.1 = type) ∧ value = valuesOf fields type := by
  have hfits : ∀ item ∈ fieldItems fields, TaggedItems.Fits item :=
    fun item hitem => fits_of_mem_fieldItems hitem
  have hjoined := joined_decodeTlv8 hfits (Or.inl rfl)
  rw [List.append_nil, ← encodeTlv8_eq_stream] at hjoined
  refine ⟨hjoined.nodup, fun type value => ?_⟩
  rw [hjoined.mem_iff, occurs_fieldItems hfields, valuesOf_fieldItems]
  rfl

theorem decodeTlv8_encodeTlv8_interleaved :
    (0x01, [7, 8, 10]) ∈ decodeTlv8 (encodeTlv8 [(0x01, [7, 8]), (0x03, [9]), (0x01, [10])]) :=
  ((decodeTlv8_encodeTlv8 [(0x01, [7, 8]), (0x03, [9]), (0x01, [10])] (by decide)).2 _ _).mpr
    ⟨⟨(0x01, [7, 8]), by decide, rfl⟩, by decide⟩

/-! ## What is cut off -/

/-- Nothing is decoded from a string that is not made of whole items. -/
def RejectsCut (bytes : Bytes) : Prop := ¬ Whole bytes → decodeTlv8 bytes = []

/-- A type alone, behind one whole item or more. -/
def TypeAlone (bytes : Bytes) : Prop :=
  ∃ items type, items ≠ [] ∧ (∀ item ∈ items, TaggedItems.Fits item) ∧
    bytes = stream items ++ [type]

/-- A cut is noticed unless it falls behind the type of a later item. -/
theorem rejectsCut_iff (bytes : Bytes) : RejectsCut bytes ↔ ¬ TypeAlone bytes := by
  constructor
  · rintro hrejects ⟨items, type, hnonempty, hitems, rfl⟩
    have hnil := hrejects (not_whole_append_tag hitems type)
    exact (joined_decodeTlv8 hitems (Or.inr ⟨type, rfl⟩)).ne_nil hnonempty hnil
  · intro halone hwhole
    obtain ⟨items, rest, hitems, rfl, hrest⟩ := exists_stream_append bytes
    rcases hrest with rfl | ⟨type, rfl⟩ | hcut
    · exact absurd ⟨items, hitems, List.append_nil _⟩ hwhole
    · by_cases hnil : items = []
      · subst hnil
        exact decodeItems_type [] type
      · exact absurd ⟨items, type, hnil, hitems, rfl⟩ halone
    · rw [decodeTlv8, decodeItems_stream_append hitems, decodeItems_cutValue _ hcut]

/-- The state of a pairing message, and the first byte of another item. -/
theorem not_rejectsCut : ¬ RejectsCut [0x06, 1, 2, 0x03] := by
  intro hrejects
  have hitems : ∀ item ∈ [((0x06 : UInt8), ([2] : Bytes))], TaggedItems.Fits item := by
    simp [TaggedItems.Fits]
  have hwhole : ¬ Whole [0x06, 1, 2, 0x03] := not_whole_append_tag hitems 0x03
  have hdecoded : decodeTlv8 [0x06, 1, 2, 0x03] = [(0x06, [2])] := by
    simp [decodeTlv8, decodeItems, appendItem]
  rw [hrejects hwhole] at hdecoded
  cases hdecoded

end Airplay
end Aa2acp
