import Aa2acp.Airplay.BplistEncoding

/-!
# Round trip of binary property lists

Decoding an encoded value gives the value back, as long as it is within the three bounds
of the decoder.  `Holds` says that a file holds a node table where the offsets of a
decoder say; from there the proof follows the value: `object` decodes each subtree from
its piece of the table and charges just the nodes and bytes of this subtree.
-/

namespace Aa2acp
namespace Airplay

open PlistValue

/-! ## Reading what was written -/

section Reading

variable {bytes first rest : Bytes} {offset : ℕ}

theorem drop_add_of_drop (h : bytes.drop offset = first ++ rest) :
    bytes.drop (offset + first.length) = rest := by
  rw [← List.drop_drop, h, List.drop_left]

theorem length_of_drop (h : bytes.drop offset = first ++ rest) (hfirst : first ≠ []) :
    bytes.length = offset + first.length + rest.length := by
  have hpos : 0 < first.length := List.length_pos_iff.mpr hfirst
  have hlength := congrArg List.length h
  rw [List.length_drop, List.length_append] at hlength
  omega

theorem drop_succ_of_drop {byte : UInt8} (h : bytes.drop offset = byte :: rest) :
    bytes.drop (offset + 1) = rest := by
  have hcons : bytes.drop offset = [byte] ++ rest := h
  exact drop_add_of_drop hcons

theorem length_of_drop_cons {byte : UInt8} (h : bytes.drop offset = byte :: rest) :
    bytes.length = offset + 1 + rest.length := by
  have hcons : bytes.drop offset = [byte] ++ rest := h
  exact length_of_drop hcons (List.cons_ne_nil _ _)

theorem getD_of_drop {byte : UInt8} (h : bytes.drop offset = byte :: rest) :
    bytes.getD offset 0 = byte := by
  have hget : (bytes.drop offset).getD 0 0 = byte := by rw [h]; rfl
  rw [← hget]
  simp [List.getD_eq_getElem?_getD]

/-- A number that fits its width is read back. -/
theorem readBe_bigEndian {size value : ℕ} (h : bytes.drop offset = bigEndian size value ++ rest)
    (hpos : 0 < size) (hsize : size ≤ 8) (hvalue : value < 256 ^ size) :
    readBe bytes offset size = some value := by
  have hne : bigEndian size value ≠ [] := by
    apply List.ne_nil_of_length_pos
    rw [length_bigEndian]
    exact hpos
  have hlength := length_of_drop h hne
  rw [length_bigEndian] at hlength
  unfold readBe
  rw [if_neg (by omega), h, List.take_left' (length_bigEndian size value),
    ofBigEndian_bigEndian hvalue]

end Reading

theorem bytesFor_cases (value : ℕ) :
    bytesFor value = 1 ∨ bytesFor value = 2 ∨ bytesFor value = 4 ∨ bytesFor value = 8 := by
  unfold bytesFor
  split_ifs <;> simp

theorem bytesFor_pos (value : ℕ) : 0 < bytesFor value := by
  rcases bytesFor_cases value with h | h | h | h <;> omega

theorem bytesFor_le (value : ℕ) : bytesFor value ≤ 8 := by
  rcases bytesFor_cases value with h | h | h | h <;> omega

/-- The width is enough for every number of 64 bits. -/
theorem lt_pow_bytesFor {value : ℕ} (h : value < 2 ^ 64) : value < 256 ^ bytesFor value := by
  unfold bytesFor
  split_ifs <;> omega

/-- The byte in front of a number says how wide it is. -/
theorem widthMarker (value : ℕ) :
    (0x10 ||| log2Bytes (bytesFor value)).toNat / 16 = 1 ∧
      2 ^ ((0x10 ||| log2Bytes (bytesFor value)).toNat % 16) = bytesFor value := by
  rcases bytesFor_cases value with h | h | h | h <;> rw [h] <;> decide

/-- The byte that holds a type and a small count. -/
theorem typeMarker {type : UInt8} (htype : type.toNat < 16) {count : ℕ} (hcount : count < 16) :
    ((type <<< 4) ||| UInt8.ofNat count).toNat = type.toNat * 16 + count := by
  have hfour : UInt8.toNat 4 % 8 = 4 := rfl
  have hshift : (type.toNat <<< 4) % 2 ^ 8 = type.toNat <<< 4 := by
    rw [Nat.shiftLeft_eq]
    omega
  have hofNat : (UInt8.ofNat count).toNat = count := by
    rw [UInt8.toNat_ofNat']
    omega
  rw [UInt8.toNat_or, UInt8.toNat_shiftLeft, hofNat, hfour, hshift,
    ← Nat.shiftLeft_add_eq_or_of_lt (by omega), Nat.shiftLeft_eq]

section Markers

variable {decoder : Decoder} {offset : ℕ} {rest : Bytes}

/-- A count marker is taken apart into type, count and the place of the data. -/
theorem count_countMarker {type : UInt8} (htype : type.toNat < 16) {items : ℕ}
    (hitems : items < 2 ^ 64) (h : decoder.bytes.drop offset = countMarker type items ++ rest) :
    (decoder.bytes.getD offset 0).toNat / 16 = type.toNat ∧
      decoder.count offset ((decoder.bytes.getD offset 0).toNat % 16) =
        some (items, offset + (countMarker type items).length) := by
  unfold countMarker at h ⊢
  by_cases hsmall : items < 15
  · rw [if_pos hsmall] at h ⊢
    have hmarker := typeMarker htype (show items < 16 by omega)
    rw [getD_of_drop h, hmarker]
    have hmod : (type.toNat * 16 + items) % 16 = items := by omega
    refine ⟨by omega, ?_⟩
    unfold Decoder.count
    rw [hmod, if_pos (by omega)]
    rfl
  · rw [if_neg hsmall] at h ⊢
    have hmarker : ((type <<< 4) ||| 15).toNat = type.toNat * 16 + 15 :=
      typeMarker htype (show 15 < 16 by omega)
    have hmod : (type.toNat * 16 + 15) % 16 = 15 := by omega
    have hsecond : decoder.bytes.drop (offset + 1) =
        (0x10 ||| log2Bytes (bytesFor items)) :: (bigEndian (bytesFor items) items ++ rest) :=
      drop_succ_of_drop h
    have hthird : decoder.bytes.drop (offset + 2) = bigEndian (bytesFor items) items ++ rest :=
      drop_succ_of_drop hsecond
    have hlength := length_of_drop_cons hsecond
    obtain ⟨hone, hwidth⟩ := widthMarker items
    rw [getD_of_drop h, hmarker, hmod]
    refine ⟨by omega, ?_⟩
    unfold Decoder.count
    dsimp only
    rw [if_neg (by decide), getD_of_drop hsecond, hone, hwidth, if_neg,
      readBe_bigEndian hthird (bytesFor_pos items) (bytesFor_le items) (lt_pow_bytesFor hitems)]
    · simp only [Option.map_some, List.length_append, length_bigEndian, List.length_cons,
        List.length_nil]
      rw [← Nat.add_assoc]
    · omega

/-- A node with a count is taken apart. -/
theorem nodeAt_countMarker (object : ℕ → Materialized → Option PlistValue × Materialized)
    {type : UInt8} (htype : type.toNat < 16) (hfour : 4 ≤ type.toNat) {items : ℕ}
    (hitems : items < 2 ^ 64) (made : Materialized)
    (h : decoder.bytes.drop offset = countMarker type items ++ rest) :
    Decoder.nodeAt object decoder offset made =
      Decoder.counted object decoder type.toNat items (offset + (countMarker type items).length)
        made := by
  obtain ⟨hmarker, hcount⟩ := count_countMarker htype hitems h
  unfold Decoder.nodeAt
  dsimp only
  rw [hmarker, if_neg (by omega), if_neg (by omega), if_neg (by omega), hcount]

theorem nodeAt_bool (object : ℕ → Materialized → Option PlistValue × Materialized) (value : Bool)
    (made : Materialized)
    (h : decoder.bytes.drop offset = (if value then 0x09 else 0x08) :: rest) :
    Decoder.nodeAt object decoder offset made = (some (.bool value), made) := by
  unfold Decoder.nodeAt
  rw [getD_of_drop h]
  cases value <;> rfl

theorem nodeAt_uint64 (object : ℕ → Materialized → Option PlistValue × Materialized)
    (value : UInt64) (made : Materialized)
    (h : decoder.bytes.drop offset = integer value.toNat ++ rest) :
    Decoder.nodeAt object decoder offset made = (some (.uint64 value), made) := by
  obtain ⟨hone, hwidth⟩ := widthMarker value.toNat
  have hread : readBe decoder.bytes (offset + 1) (bytesFor value.toNat) = some value.toNat := by
    refine readBe_bigEndian (drop_succ_of_drop h) (bytesFor_pos _) (bytesFor_le _) ?_
    exact lt_pow_bytesFor value.toNat_lt
  unfold Decoder.nodeAt
  dsimp only
  rw [getD_of_drop h, hone, hwidth, if_neg (by omega), if_pos rfl, hread]
  simp

theorem nodeAt_double (object : ℕ → Materialized → Option PlistValue × Materialized)
    (bits : UInt64) (made : Materialized)
    (h : decoder.bytes.drop offset = 0x23 :: bigEndian 8 bits.toNat ++ rest) :
    Decoder.nodeAt object decoder offset made = (some (.double bits), made) := by
  have hread : readBe decoder.bytes (offset + 1) 8 = some bits.toNat :=
    readBe_bigEndian (drop_succ_of_drop h) (by omega) (le_refl 8) bits.toNat_lt
  have hmarker : decoder.bytes.getD offset 0 = 0x23 := getD_of_drop h
  unfold Decoder.nodeAt
  rw [hmarker]
  show (decoder.real offset 3, made) = _
  unfold Decoder.real
  dsimp only
  rw [show 2 ^ 3 = 8 from rfl, hread]
  simp

/-- Strings and data are copied out of the file. -/
theorem nodeAt_bytes (object : ℕ → Materialized → Option PlistValue × Materialized)
    {type : UInt8} (htype : type.toNat = 4 ∨ type.toNat = 5) (value : Bytes)
    {made : Materialized} (hbytes : made.bytes + value.length ≤ kMaxMaterializedBytes)
    (h : decoder.bytes.drop offset = countMarker type value.length ++ value ++ rest) :
    Decoder.nodeAt object decoder offset made =
      (some (if type.toNat = 4 then .data value else .string value),
        { made with bytes := made.bytes + value.length }) := by
  unfold kMaxMaterializedBytes at hbytes
  rw [List.append_assoc] at h
  rw [nodeAt_countMarker object (by omega) (by omega) (by omega) made h]
  have hdata := drop_add_of_drop h
  set data := offset + (countMarker type value.length).length
  have hlength : decoder.bytes.length - data = value.length + rest.length := by
    have hdrop := congrArg List.length hdata
    rw [List.length_drop, List.length_append] at hdrop
    exact hdrop
  have hle : data ≤ decoder.bytes.length := by
    have hfile := length_of_drop h (countMarker_ne_nil _ _)
    omega
  unfold Decoder.counted
  dsimp only
  rw [if_pos ⟨htype, hle, by omega⟩, if_neg (by unfold kMaxMaterializedBytes; omega), hdata,
    List.take_left]

/-- The references of a container are read back. -/
theorem readRefs_flatMap {refs : List ℕ} (hpos : 0 < decoder.refSize) (hsize : decoder.refSize ≤ 8)
    (hfits : decoder.offsets.length ≤ 256 ^ decoder.refSize)
    (hrefs : ∀ ref ∈ refs, ref < decoder.offsets.length)
    (h : decoder.bytes.drop offset = refs.flatMap (bigEndian decoder.refSize) ++ rest) :
    decoder.readRefs refs.length offset = some refs := by
  induction refs generalizing offset with
  | nil => rfl
  | cons ref refs ih =>
      have href := hrefs ref List.mem_cons_self
      rw [List.flatMap_cons, List.append_assoc] at h
      have hread := readBe_bigEndian h hpos hsize (Nat.lt_of_lt_of_le href hfits)
      have hdrop := drop_add_of_drop h
      rw [length_bigEndian] at hdrop
      rw [List.length_cons]
      unfold Decoder.readRefs
      rw [hread]
      dsimp only
      rw [if_neg (by omega), ih (fun other hother => hrefs other (List.mem_cons_of_mem _ hother))
        hdrop]
      rfl

/-- What a container's checks come to when its references are there. -/
theorem counted_container (object : ℕ → Materialized → Option PlistValue × Materialized)
    {type items : ℕ} (htype : type = 0xa ∨ type = 0xd) {refs : List ℕ}
    (hlength : refs.length = if type = 0xd then items * 2 else items) {made : Materialized}
    (hpos : 0 < decoder.refSize) (hsize : decoder.refSize ≤ 8)
    (hfits : decoder.offsets.length ≤ 256 ^ decoder.refSize)
    (hrefs : ∀ ref ∈ refs, ref < decoder.offsets.length)
    (hoffset : offset ≤ decoder.bytes.length)
    (h : decoder.bytes.drop offset = refs.flatMap (bigEndian decoder.refSize) ++ rest) :
    Decoder.counted object decoder type items offset made =
      if type = 0xa then
        ((Decoder.arrayItems object refs made).1.map .array,
          (Decoder.arrayItems object refs made).2)
      else
        ((Decoder.dictionaryEntries object (refs.take items) (refs.drop items) [] made).1.map
            .dictionary,
          (Decoder.dictionaryEntries object (refs.take items) (refs.drop items) [] made).2) := by
  have hleft : decoder.bytes.length - offset = refs.length * decoder.refSize + rest.length := by
    have hdrop := congrArg List.length h
    rw [List.length_drop, List.length_append, length_flatMap_bigEndian] at hdrop
    exact hdrop
  have hread := readRefs_flatMap hpos hsize hfits hrefs h
  rw [hlength] at hleft hread
  have hfirst : items ≤ (decoder.bytes.length - offset) / decoder.refSize := by
    rw [Nat.le_div_iff_mul_le hpos, hleft]
    split
    · nlinarith
    · omega
  have hsecond : type ≠ 0xd ∨
      items ≤ (decoder.bytes.length - offset) / (2 * decoder.refSize) := by
    by_cases hdictionary : type = 0xd
    · right
      rw [Nat.le_div_iff_mul_le (by omega), hleft, if_pos hdictionary]
      nlinarith
    · exact Or.inl hdictionary
  unfold Decoder.counted
  dsimp only
  rw [if_neg (by omega), if_neg (by omega), if_pos ⟨htype, hoffset, hfirst, hsecond⟩, hread]

theorem nodeAt_array (object : ℕ → Materialized → Option PlistValue × Materialized)
    (refs : List ℕ) (made : Materialized) (hpos : 0 < decoder.refSize)
    (hsize : decoder.refSize ≤ 8) (hfits : decoder.offsets.length ≤ 256 ^ decoder.refSize)
    (hrefs : ∀ ref ∈ refs, ref < decoder.offsets.length) (hcount : refs.length < 2 ^ 64)
    (h : decoder.bytes.drop offset =
      countMarker 0xa refs.length ++ refs.flatMap (bigEndian decoder.refSize) ++ rest) :
    Decoder.nodeAt object decoder offset made =
      ((Decoder.arrayItems object refs made).1.map .array,
        (Decoder.arrayItems object refs made).2) := by
  rw [List.append_assoc] at h
  have hfile := length_of_drop h (countMarker_ne_nil _ _)
  rw [nodeAt_countMarker object (by decide) (by decide) hcount made h]
  exact counted_container object (Or.inl rfl) rfl hpos hsize hfits hrefs (by omega)
    (drop_add_of_drop h)

theorem nodeAt_dictionary (object : ℕ → Materialized → Option PlistValue × Materialized)
    (keyRefs valueRefs : List ℕ) (made : Materialized) (hpos : 0 < decoder.refSize)
    (hsize : decoder.refSize ≤ 8) (hfits : decoder.offsets.length ≤ 256 ^ decoder.refSize)
    (hrefs : ∀ ref ∈ keyRefs ++ valueRefs, ref < decoder.offsets.length)
    (hlength : valueRefs.length = keyRefs.length) (hcount : keyRefs.length < 2 ^ 64)
    (h : decoder.bytes.drop offset = countMarker 0xd keyRefs.length ++
      (keyRefs ++ valueRefs).flatMap (bigEndian decoder.refSize) ++ rest) :
    Decoder.nodeAt object decoder offset made =
      ((Decoder.dictionaryEntries object keyRefs valueRefs [] made).1.map .dictionary,
        (Decoder.dictionaryEntries object keyRefs valueRefs [] made).2) := by
  rw [List.append_assoc] at h
  have hfile := length_of_drop h (countMarker_ne_nil _ _)
  have hboth : (keyRefs ++ valueRefs).length = keyRefs.length * 2 := by
    rw [List.length_append]
    omega
  rw [nodeAt_countMarker object (by decide) (by decide) hcount made h]
  refine (counted_container object (Or.inr rfl) hboth hpos hsize hfits hrefs (by omega)
    (drop_add_of_drop h)).trans ?_
  rw [List.take_left, List.drop_left]
  rfl

end Markers

/-! ## Decoding a node table -/

/-- The file holds these nodes where the offsets of the decoder say. -/
structure Holds (decoder : Decoder) (nodes : List Node) : Prop where
  offsets : decoder.offsets.length = nodes.length
  width_pos : 0 < decoder.refSize
  width_le : decoder.refSize ≤ 8
  fits : nodes.length ≤ 256 ^ decoder.refSize
  node : ∀ before node after, nodes = before ++ node :: after →
    ∃ rest, decoder.bytes.drop (decoder.offsets.getD before.length 0) =
      node.encoding decoder.refSize ++ rest

/-- Wherever the nodes of the value stand in the table, and as long as the bounds of the
decoder allow it, `object` gives the value back and counts it. -/
def Decodes (decoder : Decoder) (nodes : List Node) (value : PlistValue) : Prop :=
  ∀ (levels : ℕ) (before after : List Node) (made : Materialized),
    nodes = before ++ flatten value before.length ++ after →
    value.depth < levels → value.Ordered →
    made.nodes + value.nodeCount ≤ kMaxMaterializedNodes →
    made.bytes + value.byteCount ≤ kMaxMaterializedBytes →
    decoder.object levels before.length made =
      (some value, ⟨made.nodes + value.nodeCount, made.bytes + value.byteCount⟩)

section Table

variable {decoder : Decoder} {nodes : List Node}

/-- `object` up to the point where the node is read. -/
theorem Holds.object (h : Holds decoder nodes) {before after : List Node} {node : Node}
    (hnodes : nodes = before ++ node :: after) (levels : ℕ) {made : Materialized}
    (hmade : made.nodes + 1 ≤ kMaxMaterializedNodes) :
    decoder.object (levels + 1) before.length made =
      Decoder.nodeAt (decoder.object levels) decoder (decoder.offsets.getD before.length 0)
        { made with nodes := made.nodes + 1 } := by
  have hindex : before.length < decoder.offsets.length := by
    rw [h.offsets, hnodes, List.length_append, List.length_cons]
    omega
  unfold Decoder.object
  dsimp only
  rw [if_neg (by omega), if_neg (by omega)]

theorem starts_lt {items : List PlistValue} {base ref : ℕ} (h : ref ∈ starts items base) :
    ref < base + nodeCountAll items := by
  induction items generalizing base with
  | nil => cases h
  | cons item items ih =>
      have hpos := item.nodeCount_pos
      simp only [starts, List.mem_cons] at h
      simp only [nodeCountAll]
      rcases h with rfl | h
      · omega
      · have hrest := ih h
        omega

/-- The items of an array are decoded one after the other. -/
theorem arrayItems_starts {items : List PlistValue} (ih : ∀ item ∈ items, Decodes decoder nodes item)
    (levels : ℕ) (before after : List Node) (made : Materialized)
    (hnodes : nodes = before ++ flattenAll items before.length ++ after)
    (hdepth : depthAll items ≤ levels) (hordered : AllOrdered items)
    (hcount : made.nodes + nodeCountAll items ≤ kMaxMaterializedNodes)
    (hbytes : made.bytes + byteCountAll items ≤ kMaxMaterializedBytes) :
    Decoder.arrayItems (decoder.object levels) (starts items before.length) made =
      (some items, ⟨made.nodes + nodeCountAll items, made.bytes + byteCountAll items⟩) := by
  induction items generalizing before made with
  | nil => rfl
  | cons item items ih' =>
      simp only [flattenAll, depthAll, AllOrdered, nodeCountAll, byteCountAll] at *
      have hitem := ih item List.mem_cons_self levels before
        (flattenAll items (before.length + item.nodeCount) ++ after) made
        (by rw [hnodes]; simp only [List.append_assoc]) (by omega) hordered.1 (by omega) (by omega)
      have hlength : (before ++ flatten item before.length).length =
          before.length + item.nodeCount := by
        rw [List.length_append, length_flatten]
      have hitems := ih' (fun other hother => ih other (List.mem_cons_of_mem _ hother))
        (before ++ flatten item before.length)
        ⟨made.nodes + item.nodeCount, made.bytes + item.byteCount⟩
        (by rw [hnodes, hlength]; simp only [List.append_assoc]) (by omega) hordered.2
        (by dsimp only; omega) (by dsimp only; omega)
      rw [hlength] at hitems
      simp only [starts]
      unfold Decoder.arrayItems
      rw [hitem]
      dsimp only
      rw [hitems]
      simp only [Nat.add_assoc]

/-- A key that is greater than all others goes to the end. -/
theorem emplace_last {key : Bytes} {value : PlistValue} {entries : List (Bytes × PlistValue)}
    (h : ∀ entry ∈ entries, entry.1 < key) :
    emplace key value entries = entries ++ [(key, value)] := by
  induction entries with
  | nil => rfl
  | cons entry entries ih =>
      have hlt : entry.1 < key := h entry List.mem_cons_self
      have hnot : ¬ key < entry.1 := List.lt_asymm hlt
      have hne : ¬ key = entry.1 := by
        intro heq
        rw [heq] at hlt
        exact List.lt_irrefl _ hlt
      unfold emplace
      rw [if_neg hnot, if_neg hne, ih fun other hother => h other (List.mem_cons_of_mem _ hother)]
      rfl

/-- The entries of a dictionary are decoded key by key, each with its value, and end up
in the order in which they stand in the file. -/
theorem dictionaryEntries_starts {entries : List (Bytes × PlistValue)}
    (hkeys : ∀ key, Decodes decoder nodes (.string key))
    (ih : ∀ item ∈ entries.map Prod.snd, Decodes decoder nodes item) (levels : ℕ)
    (beforeKeys afterKeys before after : List Node) (made : Materialized)
    (result : List (Bytes × PlistValue))
    (hnodes : nodes = beforeKeys ++ entries.map (fun entry => stringNode entry.1) ++ afterKeys)
    (hvalues : nodes = before ++ flattenAll (entries.map Prod.snd) before.length ++ after)
    (hdepth : depthAll (entries.map Prod.snd) ≤ levels)
    (hordered : AllOrdered (entries.map Prod.snd)) (hascend : KeysAscend (result ++ entries))
    (hcount : made.nodes + (entries.length + nodeCountAll (entries.map Prod.snd)) ≤
      kMaxMaterializedNodes)
    (hbytes : made.bytes + ((entries.map fun entry => entry.1.length).sum +
      byteCountAll (entries.map Prod.snd)) ≤ kMaxMaterializedBytes) :
    Decoder.dictionaryEntries (decoder.object levels)
        (List.range' beforeKeys.length entries.length)
        (starts (entries.map Prod.snd) before.length) result made =
      (some (result ++ entries),
        ⟨made.nodes + (entries.length + nodeCountAll (entries.map Prod.snd)),
          made.bytes + ((entries.map fun entry => entry.1.length).sum +
            byteCountAll (entries.map Prod.snd))⟩) := by
  induction entries generalizing beforeKeys before made result with
  | nil => simp [Decoder.dictionaryEntries, starts, nodeCountAll, byteCountAll]
  | cons entry entries ih' =>
      obtain ⟨key, item⟩ := entry
      simp only [List.map_cons, flattenAll, depthAll, AllOrdered, nodeCountAll, byteCountAll,
        List.sum_cons, List.length_cons] at *
      -- the first key and the first value decode, and the counters move on
      have hkey := hkeys key levels beforeKeys
        (entries.map (fun entry => stringNode entry.1) ++ afterKeys) made
        (by rw [hnodes]; simp [flatten]) (by simp only [depth]; omega) trivial
        (by simp only [nodeCount]; omega) (by simp only [byteCount]; omega)
      have hitem := ih item List.mem_cons_self levels before
        (flattenAll (entries.map Prod.snd) (before.length + item.nodeCount) ++ after)
        ⟨made.nodes + 1, made.bytes + key.length⟩
        (by rw [hvalues]; simp only [List.append_assoc]) (by omega) hordered.1
        (by dsimp only; omega) (by dsimp only; omega)
      have hlength : (before ++ flatten item before.length).length =
          before.length + item.nodeCount := by
        rw [List.length_append, length_flatten]
      -- the keys ascend, so the new entry comes behind the others
      have hlast : ∀ old ∈ result, old.1 < key := by
        intro old hold
        rw [KeysAscend, List.pairwise_append] at hascend
        exact hascend.2.2 old hold (key, item) List.mem_cons_self
      have hrest := ih' (fun other hother => ih other (List.mem_cons_of_mem _ hother))
        (beforeKeys ++ [stringNode key]) (before ++ flatten item before.length)
        ⟨made.nodes + 1 + item.nodeCount, made.bytes + key.length + item.byteCount⟩
        (result ++ [(key, item)]) (by rw [hnodes]; simp)
        (by rw [hvalues, hlength]; simp only [List.append_assoc]) (by omega) hordered.2
        (by rw [List.append_assoc]; exact hascend) (by dsimp only; omega) (by dsimp only; omega)
      rw [hlength, List.length_append, List.length_singleton] at hrest
      rw [List.range'_succ]
      simp only [starts]
      unfold Decoder.dictionaryEntries
      simp only [nodeCount, byteCount] at hkey
      rw [hkey]
      dsimp only
      rw [hitem]
      dsimp only
      rw [emplace_last hlast, hrest, List.append_assoc, List.singleton_append]
      simp only [Prod.mk.injEq, Materialized.mk.injEq, true_and]
      constructor <;> omega

/-- A value of one node is decoded when `nodeAt` reads this node. -/
theorem Holds.decodes_leaf (h : Holds decoder nodes) {value : PlistValue} {bytes : Bytes}
    (hflatten : ∀ base, flatten value base = [{ bytes := bytes }])
    (hread : ∀ object offset rest (made : Materialized),
      made.bytes + value.byteCount ≤ kMaxMaterializedBytes →
      decoder.bytes.drop offset = bytes ++ rest →
      Decoder.nodeAt object decoder offset made =
        (some value, { made with bytes := made.bytes + value.byteCount })) :
    Decodes decoder nodes value := by
  intro levels before after made hnodes hdepth _ hcount hbytes
  have hone : value.nodeCount = 1 := by
    rw [← length_flatten value 0, hflatten, List.length_singleton]
  rw [hone] at hcount ⊢
  obtain ⟨levels, rfl⟩ := Nat.exists_eq_succ_of_ne_zero (show levels ≠ 0 by omega)
  have hnode : nodes = before ++ { bytes := bytes } :: after := by
    rw [hnodes, hflatten, List.append_assoc, List.singleton_append]
  obtain ⟨rest, hfile⟩ := h.node before _ after hnode
  rw [h.object hnode levels hcount]
  refine hread _ _ rest _ hbytes ?_
  rw [hfile]
  simp [Node.encoding]

theorem Holds.decodes_array (h : Holds decoder nodes) {items : List PlistValue}
    (ih : ∀ item ∈ items, Decodes decoder nodes item) :
    Decodes decoder nodes (.array items) := by
  intro levels before after made hnodes hdepth hordered hcount hbytes
  simp only [flatten, depth, Ordered, nodeCount, byteCount] at *
  obtain ⟨levels, rfl⟩ := Nat.exists_eq_succ_of_ne_zero (show levels ≠ 0 by omega)
  have hlength := length_le_nodeCountAll items
  set node : Node := ⟨countMarker 0xa items.length, starts items (before.length + 1)⟩ with hnode
  have hsplit : nodes = before ++ node :: (flattenAll items (before.length + 1) ++ after) := by
    rw [hnodes, List.append_assoc, List.cons_append]
  have hitems : nodes = (before ++ [node]) ++ flattenAll items (before ++ [node]).length ++
      after := by
    rw [hsplit]
    simp
  have htotal : before.length + 1 + nodeCountAll items ≤ nodes.length := by
    rw [hsplit]
    simp only [List.length_append, List.length_cons, length_flattenAll]
    omega
  obtain ⟨rest, hfile⟩ := h.node before node _ hsplit
  have hdecoded := arrayItems_starts ih levels (before ++ [node]) after
    ⟨made.nodes + 1, made.bytes⟩ hitems (by omega) hordered (by dsimp only; omega) hbytes
  rw [List.length_append, List.length_singleton] at hdecoded
  rw [h.object hsplit levels (by omega)]
  have hread := nodeAt_array (decoder.object levels) (starts items (before.length + 1))
    ⟨made.nodes + 1, made.bytes⟩ h.width_pos h.width_le (h.offsets ▸ h.fits)
    (fun ref href => by
      have hlt := starts_lt href
      rw [h.offsets]
      omega)
    (by rw [length_starts]; unfold kMaxMaterializedNodes at hcount; omega)
    (by rw [length_starts]; exact hfile)
  rw [hread, hdecoded]
  simp only [Option.map_some, Prod.mk.injEq, Materialized.mk.injEq, true_and, and_true]
  omega

theorem Holds.decodes_dictionary (h : Holds decoder nodes) {entries : List (Bytes × PlistValue)}
    (hkeys : ∀ key, Decodes decoder nodes (.string key))
    (ih : ∀ item ∈ entries.map Prod.snd, Decodes decoder nodes item) :
    Decodes decoder nodes (.dictionary entries) := by
  intro levels before after made hnodes hdepth hordered hcount hbytes
  simp only [flatten, depth, Ordered, nodeCount, byteCount, flattenValues_eq, depthValues_eq,
    valuesOrdered_eq, nodeCountValues_eq, byteCountValues_eq] at *
  obtain ⟨levels, rfl⟩ := Nat.exists_eq_succ_of_ne_zero (show levels ≠ 0 by omega)
  set keys := entries.map fun entry => stringNode entry.1 with hkeyNodes
  set first := before.length + 1 + entries.length with hfirst
  set node : Node := ⟨countMarker 0xd entries.length,
    List.range' (before.length + 1) entries.length ++ starts (entries.map Prod.snd) first⟩ with hnode
  have hsplit : nodes = before ++ node :: (keys ++ flattenAll (entries.map Prod.snd) first ++ after) := by
    rw [hnodes]
    simp
  -- the node, its keys and its values lie one behind the other
  have hkeysSplit : nodes = (before ++ [node]) ++ keys ++ (flattenAll (entries.map Prod.snd) first ++ after) := by
    rw [hsplit]
    simp
  have hlength : (before ++ [node] ++ keys).length = first := by
    rw [hkeyNodes, hfirst]
    simp
    omega
  have hvalues : nodes = (before ++ [node] ++ keys) ++
      flattenAll (entries.map Prod.snd) (before ++ [node] ++ keys).length ++ after := by
    rw [hlength, hsplit]
    simp
  have htotal : first + nodeCountAll (entries.map Prod.snd) ≤ nodes.length := by
    rw [hvalues, hlength]
    simp only [List.length_append, length_flattenAll] at hlength ⊢
    omega
  obtain ⟨rest, hfile⟩ := h.node before node _ hsplit
  have hdecoded := dictionaryEntries_starts hkeys ih levels (before ++ [node])
    (flattenAll (entries.map Prod.snd) first ++ after) (before ++ [node] ++ keys) after
    ⟨made.nodes + 1, made.bytes⟩ [] hkeysSplit hvalues (by omega) hordered.2
    (by simpa using hordered.1) (by dsimp only; omega) hbytes
  rw [hlength, List.length_append, List.length_singleton] at hdecoded
  rw [h.object hsplit levels (by omega)]
  have hread := nodeAt_dictionary (decoder.object levels)
    (List.range' (before.length + 1) entries.length) (starts (entries.map Prod.snd) first)
    ⟨made.nodes + 1, made.bytes⟩ h.width_pos h.width_le (h.offsets ▸ h.fits)
    (fun ref href => by
      rw [h.offsets]
      rcases List.mem_append.mp href with hkey | hvalue
      · rw [List.mem_range'_1] at hkey
        omega
      · have hlt := starts_lt hvalue
        omega)
    (by rw [length_starts, List.length_range', List.length_map])
    (by rw [List.length_range']; unfold kMaxMaterializedNodes at hcount; omega)
    (by rw [List.length_range']; exact hfile)
  rw [hread, hdecoded]
  simp only [Option.map_some, List.nil_append, Prod.mk.injEq, Materialized.mk.injEq, true_and,
    and_true]
  omega

/-- Every value is decoded from its nodes. -/
theorem Holds.decodes (h : Holds decoder nodes) (value : PlistValue) :
    Decodes decoder nodes value := by
  have hstring (key : Bytes) : Decodes decoder nodes (.string key) := by
    refine h.decodes_leaf (fun _ => rfl) fun object offset rest made hbytes hfile => ?_
    exact nodeAt_bytes object (Or.inr rfl) key hbytes hfile
  induction value using PlistValue.induction with
  | bool value =>
      exact h.decodes_leaf (fun _ => rfl) fun object offset rest made _ hfile =>
        nodeAt_bool object value made hfile
  | uint64 value =>
      exact h.decodes_leaf (fun _ => rfl) fun object offset rest made _ hfile =>
        nodeAt_uint64 object value made hfile
  | double bits =>
      exact h.decodes_leaf (fun _ => rfl) fun object offset rest made _ hfile =>
        nodeAt_double object bits made hfile
  | string value => exact hstring value
  | data value =>
      refine h.decodes_leaf (fun _ => rfl) fun object offset rest made hbytes hfile => ?_
      exact nodeAt_bytes object (Or.inl rfl) value hbytes hfile
  | array items ih => exact h.decodes_array ih
  | dictionary entries ih => exact h.decodes_dictionary hstring ih

end Table

/-! ## Opening the file -/

theorem readOffsets_flatMap {bytes rest : Bytes} {table size position : ℕ} {offsets : List ℕ}
    (hpos : 0 < size) (hsize : size ≤ 8) (hfits : table ≤ 256 ^ size)
    (hoffsets : ∀ offset ∈ offsets, offset < table)
    (h : bytes.drop position = offsets.flatMap (bigEndian size) ++ rest) :
    readOffsets bytes table size offsets.length position = some offsets := by
  induction offsets generalizing position with
  | nil => rfl
  | cons offset offsets ih =>
      have hoffset := hoffsets offset List.mem_cons_self
      rw [List.flatMap_cons, List.append_assoc] at h
      have hread := readBe_bigEndian h hpos hsize (Nat.lt_of_lt_of_le hoffset hfits)
      have hdrop := drop_add_of_drop h
      rw [length_bigEndian] at hdrop
      rw [List.length_cons]
      unfold readOffsets
      rw [hread]
      dsimp only
      rw [if_neg (by omega), ih (fun other hother => hoffsets other (List.mem_cons_of_mem _ hother))
        hdrop]
      rfl

/-- The fields of the trailer at the end of a file. -/
theorem openBplist_trailer {front : Bytes} {offsetSize refSize count top table : ℕ}
    (hmagic : front.take 8 = magic) (hoffsetPos : 0 < offsetSize) (hoffsetSize : offsetSize ≤ 8)
    (hrefPos : 0 < refSize) (hrefSize : refSize ≤ 8) (hcount : 0 < count)
    (hcountMax : count ≤ 65536) (htop : top < count) (htable : table < 2 ^ 64)
    (hroom : table + count * offsetSize ≤ front.length) :
    let bytes := front ++ trailer offsetSize refSize count top table
    openBplist bytes = (readOffsets bytes table offsetSize count table).map fun offsets =>
      (⟨bytes, refSize, offsets⟩, top) := by
  intro bytes
  have hlength : bytes.length = front.length + 32 := by
    simp [bytes, trailer]
  have htrailer : bytes.drop front.length = List.replicate 6 0 ++ ([UInt8.ofNat offsetSize,
      UInt8.ofNat refSize] ++ (bigEndian 8 count ++ (bigEndian 8 top ++ bigEndian 8 table))) := by
    rw [List.drop_left]
    simp [trailer]
  -- field by field from the end of the front on
  have hsizes := drop_add_of_drop htrailer
  have hcounts : bytes.drop (front.length + 8) = bigEndian 8 count ++
      (bigEndian 8 top ++ bigEndian 8 table) := drop_add_of_drop hsizes
  have htops : bytes.drop (front.length + 16) = bigEndian 8 top ++ bigEndian 8 table :=
    drop_add_of_drop hcounts
  have htables : bytes.drop (front.length + 24) = bigEndian 8 table ++ [] := by
    rw [List.append_nil]
    exact drop_add_of_drop htops
  have hoffsetByte : bytes.getD (front.length + 6) 0 = UInt8.ofNat offsetSize :=
    getD_of_drop hsizes
  have hrefByte : bytes.getD (front.length + 7) 0 = UInt8.ofNat refSize :=
    getD_of_drop (drop_succ_of_drop hsizes)
  have hnarrow {size : ℕ} (h : size ≤ 8) : (UInt8.ofNat size).toNat = size := by
    rw [UInt8.toNat_ofNat']
    omega
  have hreadCount := readBe_bigEndian hcounts (by omega) (le_refl 8) (show count < 256 ^ 8 by omega)
  have hreadTop := readBe_bigEndian htops (by omega) (le_refl 8) (show top < 256 ^ 8 by omega)
  have hreadTable := readBe_bigEndian htables (by omega) (le_refl 8) (show table < 256 ^ 8 by omega)
  have hmin : 8 ≤ front.length := by
    have hle := congrArg List.length hmagic
    have hmagicLength : magic.length = 8 := rfl
    rw [List.length_take] at hle
    omega
  have htake : bytes.take 8 = magic := by
    rw [← hmagic]
    exact List.take_append_of_le_length hmin
  have hstart : bytes.length - 32 = front.length := by omega
  -- the table has room for every offset
  have hquotient : count ≤ (bytes.length - table) / offsetSize := by
    rw [Nat.le_div_iff_mul_le hoffsetPos]
    omega
  unfold openBplist
  rw [if_neg (by rw [htake]; simp; omega)]
  dsimp only
  rw [hstart, hoffsetByte, hrefByte, hnarrow hoffsetSize, hnarrow hrefSize, hreadCount, hreadTop,
    hreadTable]
  dsimp only
  rw [if_neg (by omega)]

/-- The file of a table is opened as this table. -/
theorem openBplist_finish {nodes : List Node} {top : ℕ} (htop : top < nodes.length)
    (hcount : nodes.length ≤ 65536) (hne : ∀ node ∈ nodes, node.bytes ≠ [])
    (hsmall : weight nodes < 2 ^ 63) :
    ∃ decoder, openBplist (finish top nodes) = some (decoder, top) ∧ Holds decoder nodes := by
  obtain ⟨refSize, hrefSize⟩ : ∃ refSize, refSize = bytesFor (nodes.length - 1) := ⟨_, rfl⟩
  obtain ⟨table, htable⟩ : ∃ table, table = (fileBody refSize nodes).length := ⟨_, rfl⟩
  have hrefPos : 0 < refSize := hrefSize ▸ bytesFor_pos _
  have hrefLe : refSize ≤ 8 := hrefSize ▸ bytesFor_le _
  have htableLt : table < 2 ^ 64 := by
    have hencodings := length_encodings_le refSize hrefLe nodes
    rw [htable, length_fileBody]
    omega
  set offsets := positions refSize nodes 8 with hoffsets
  have hlength : offsets.length = nodes.length := length_positions _ _ _
  set front := fileBody refSize nodes ++ offsets.flatMap (bigEndian (bytesFor table)) with hfront
  have hfrontLength : front.length = table + nodes.length * bytesFor table := by
    rw [hfront, List.length_append, length_flatMap_bigEndian, hlength, htable]
  have hfile := finish_eq top nodes hrefSize htable
  have hopen : openBplist (finish top nodes) =
      (readOffsets (finish top nodes) table (bytesFor table) nodes.length table).map
        fun offsets => (⟨finish top nodes, refSize, offsets⟩, top) := by
    rw [hfile]
    exact openBplist_trailer rfl (bytesFor_pos _) (bytesFor_le _) hrefPos hrefLe (by omega) hcount
      htop htableLt (Nat.le_of_eq hfrontLength.symm)
  -- the offset table holds the positions of the nodes
  have hread : readOffsets (finish top nodes) table (bytesFor table) nodes.length table =
      some offsets := by
    have hbelow : ∀ offset ∈ offsets, offset < table := by
      rw [htable, length_fileBody]
      exact positions_lt refSize hne
    have hdrop : (finish top nodes).drop table = offsets.flatMap (bigEndian (bytesFor table)) ++
        trailer (bytesFor table) refSize nodes.length top table := by
      rw [hfile, List.append_assoc]
      exact List.drop_left' htable.symm
    rw [← hlength] at hdrop ⊢
    exact readOffsets_flatMap (bytesFor_pos _) (bytesFor_le _)
      (Nat.le_of_lt (lt_pow_bytesFor htableLt)) hbelow hdrop
  refine ⟨⟨finish top nodes, refSize, offsets⟩, by rw [hopen, hread]; rfl, hlength, hrefPos,
    hrefLe, ?_, ?_⟩
  · have hfits : nodes.length - 1 < 256 ^ bytesFor (nodes.length - 1) :=
      lt_pow_bytesFor (by omega)
    show nodes.length ≤ 256 ^ refSize
    rw [hrefSize]
    omega
  · intro before node after hsplit
    have hdrop := drop_fileBody refSize before after node (offsets.flatMap (bigEndian
      (bytesFor table)) ++ trailer (bytesFor table) refSize nodes.length top table)
    rw [← hsplit, ← List.append_assoc, ← hfile] at hdrop
    exact ⟨_, hdrop⟩

/-- A value within the bounds comes back. -/
theorem PlistValue.Bounded.roundTrip {root : PlistValue} (h : root.Bounded) :
    decodeBplist (encodeBplist root) = some root := by
  obtain ⟨hordered, hdepth, hcount, hbytes⟩ := h
  have hencoded : encodeBplist root = finish 0 (flatten root 0) := by
    unfold encodeBplist
    rw [add_eq]
  have hlength := length_flatten root 0
  have hpos := root.nodeCount_pos
  have hweight := weight_flatten root 0
  obtain ⟨decoder, hopen, hholds⟩ : ∃ decoder,
      openBplist (finish 0 (flatten root 0)) = some (decoder, 0) ∧
        Holds decoder (flatten root 0) := by
    unfold kMaxMaterializedNodes at hcount
    unfold kMaxMaterializedBytes at hbytes
    exact openBplist_finish (by omega) (by omega) (bytes_ne_nil root 0) (by omega)
  have hobject := hholds.decodes root (kMaxDepth + 1) [] [] {} (by simp) (by omega) hordered
    (by simpa using hcount) (by simpa using hbytes)
  unfold decodeBplist
  rw [hencoded, hopen]
  show (decoder.object (kMaxDepth + 1) 0 {}).1 = some root
  exact congrArg Prod.fst hobject

/-- `decode_bplist` gives back what `encode_bplist` was given. -/
theorem decodeBplist_encodeBplist (root : PlistValue) (hordered : root.Ordered)
    (hdepth : root.depth ≤ kMaxDepth) (hcount : root.nodeCount ≤ kMaxMaterializedNodes)
    (hbytes : root.byteCount ≤ kMaxMaterializedBytes) :
    decodeBplist (encodeBplist root) = some root := by
  have hbounded : root.Bounded := ⟨hordered, hdepth, hcount, hbytes⟩
  exact hbounded.roundTrip

/-- A dictionary with an array and data in it. -/
theorem decodeBplist_encodeBplist_nested :
    let root : PlistValue := .dictionary [([0x61], .array [.bool true, .uint64 300, .double 77]),
      ([0x62], .data [1, 2])]
    decodeBplist (encodeBplist root) = some root := by
  intro root
  have hordered : root.Ordered :=
    ⟨by unfold KeysAscend; decide, ⟨trivial, trivial, trivial, trivial⟩, trivial, trivial⟩
  exact decodeBplist_encodeBplist root hordered (by decide) (by decide) (by decide)

end Airplay
end Aa2acp
