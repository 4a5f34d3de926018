import Aa2acp.Airplay.BplistRoundTrip

/-!
# Decoded property lists can be encoded again

Whatever file a value was decoded from, the budgets of the decoder paid for all of its
nodes and bytes, its depth is within the limit and its dictionaries are maps.  So it is
one of the values that the codec gives back.
-/

namespace Aa2acp
namespace Airplay

open PlistValue

/-! ## Entries that are emplaced -/

section Emplace

variable {key : Bytes} {value : PlistValue} {entries : List (Bytes × PlistValue)}

/-- `emplace` adds at most the entry that it is given. -/
theorem mem_emplace {entry : Bytes × PlistValue} (h : entry ∈ emplace key value entries) :
    entry = (key, value) ∨ entry ∈ entries := by
  induction entries with
  | nil => exact Or.inl (List.mem_singleton.mp h)
  | cons first entries ih =>
      obtain ⟨firstKey, old⟩ := first
      unfold emplace at h
      split at h
      · exact List.mem_cons.mp h
      split at h
      · exact Or.inr h
      · rcases List.mem_cons.mp h with rfl | hrest
        · exact Or.inr List.mem_cons_self
        · rcases ih hrest with hnew | hold
          · exact Or.inl hnew
          · exact Or.inr (List.mem_cons_of_mem _ hold)

theorem keysAscend_emplace (h : KeysAscend entries) : KeysAscend (emplace key value entries) := by
  induction entries with
  | nil => exact List.pairwise_singleton _ _
  | cons first entries ih =>
      obtain ⟨firstKey, old⟩ := first
      obtain ⟨hfirst, hrest⟩ := List.pairwise_cons.mp h
      unfold emplace
      split
      · rename_i hlt
        refine List.pairwise_cons.mpr ⟨fun later hlater => ?_, h⟩
        rcases List.mem_cons.mp hlater with rfl | hlater
        · exact hlt
        · exact List.lt_trans hlt (hfirst later hlater)
      split
      · exact h
      · rename_i hnotLt hne
        refine List.pairwise_cons.mpr ⟨fun later hlater => ?_, ih hrest⟩
        rcases mem_emplace hlater with rfl | hold
        · have hle : firstKey ≤ key := List.not_lt.mp hnotLt
          rcases List.le_iff_lt_or_eq.mp hle with hlt | heq
          · exact hlt
          · exact absurd heq.symm hne
        · exact hfirst later hold

theorem length_emplace_le (key : Bytes) (value : PlistValue)
    (entries : List (Bytes × PlistValue)) :
    (emplace key value entries).length ≤ entries.length + 1 := by
  induction entries with
  | nil => exact le_refl 1
  | cons first entries ih =>
      obtain ⟨firstKey, old⟩ := first
      unfold emplace
      split
      · simp
      split
      · simp
      · simpa using ih

theorem nodeCountValues_emplace_le (key : Bytes) (value : PlistValue)
    (entries : List (Bytes × PlistValue)) :
    nodeCountValues (emplace key value entries) ≤ nodeCountValues entries + value.nodeCount := by
  induction entries with
  | nil => simp [emplace, nodeCountValues]
  | cons first entries ih =>
      obtain ⟨firstKey, old⟩ := first
      unfold emplace
      split
      · simp only [nodeCountValues]
        omega
      split
      · omega
      · simp only [nodeCountValues]
        omega

/-- The bytes of a dictionary's keys. -/
def keyBytes (entries : List (Bytes × PlistValue)) : ℕ :=
  (entries.map fun entry => entry.1.length).sum

theorem byteCount_emplace_le (key : Bytes) (value : PlistValue)
    (entries : List (Bytes × PlistValue)) :
    keyBytes (emplace key value entries) + byteCountValues (emplace key value entries) ≤
      keyBytes entries + byteCountValues entries + (key.length + value.byteCount) := by
  induction entries with
  | nil => simp [emplace, byteCountValues, keyBytes]
  | cons first entries ih =>
      obtain ⟨firstKey, old⟩ := first
      unfold keyBytes at *
      unfold emplace
      split
      · simp only [byteCountValues, List.map_cons, List.sum_cons]
        omega
      split
      · omega
      · simp only [byteCountValues, List.map_cons, List.sum_cons]
        omega

end Emplace

/-! ## What the budgets paid for -/

/-- The limits of the decoder. -/
structure Materialized.Within (made : Materialized) : Prop where
  nodes : made.nodes ≤ kMaxMaterializedNodes
  bytes : made.bytes ≤ kMaxMaterializedBytes

/-- From `made` to `made'` the budgets paid for so many nodes and bytes. -/
structure Paid (nodes bytes : ℕ) (made made' : Materialized) : Prop where
  nodes : made.nodes + nodes ≤ made'.nodes
  bytes : made.bytes + bytes ≤ made'.bytes
  within : made.Within → made'.Within

theorem Paid.refl (made : Materialized) : Paid 0 0 made made := ⟨le_refl _, le_refl _, id⟩

theorem Paid.trans {nodes bytes nodes' bytes' : ℕ} {made made' made'' : Materialized}
    (h : Paid nodes bytes made made') (h' : Paid nodes' bytes' made' made'') :
    Paid (nodes + nodes') (bytes + bytes') made made'' := by
  constructor
  · have hfirst := h.nodes
    have hsecond := h'.nodes
    omega
  · have hfirst := h.bytes
    have hsecond := h'.bytes
    omega
  · exact fun hwithin => h'.within (h.within hwithin)

theorem Paid.mono {nodes bytes nodes' bytes' : ℕ} {made made' : Materialized}
    (h : Paid nodes bytes made made') (hnodes : nodes' ≤ nodes) (hbytes : bytes' ≤ bytes) :
    Paid nodes' bytes' made made' := by
  constructor
  · have hpaid := h.nodes
    omega
  · have hpaid := h.bytes
    omega
  · exact h.within

/-- A value that came out of so many levels. -/
structure Decoded (levels : ℕ) (value : PlistValue) (made made' : Materialized) : Prop where
  ordered : value.Ordered
  depth : value.depth < levels
  paid : Paid value.nodeCount value.byteCount made made'

section Levels

variable {object : ℕ → Materialized → Option PlistValue × Materialized} {levels : ℕ}

/-- The loop over an array pays for each of its items. -/
theorem arrayItems_paid
    (hobject : ∀ ref value made made', object ref made = (some value, made') →
      Decoded levels value made made')
    {refs : List ℕ} {values : List PlistValue} {made made' : Materialized}
    (h : Decoder.arrayItems object refs made = (some values, made')) :
    AllOrdered values ∧ depthAll values ≤ levels ∧
      Paid (nodeCountAll values) (byteCountAll values) made made' := by
  induction refs generalizing values made with
  | nil =>
      cases h
      exact ⟨trivial, Nat.zero_le _, .refl _⟩
  | cons ref refs ih =>
      unfold Decoder.arrayItems at h
      cases hfirst : object ref made with
      | mk first middle =>
        cases first with
        | none =>
            rw [hfirst] at h
            cases h
        | some value =>
            rw [hfirst] at h
            dsimp only at h
            cases hrest : Decoder.arrayItems object refs middle with
            | mk rest last =>
              cases rest with
              | none =>
                  rw [hrest] at h
                  cases h
              | some rest =>
                  rw [hrest] at h
                  cases h
                  have hvalue := hobject ref value made middle hfirst
                  obtain ⟨hordered, hdepth, hpaid⟩ := ih hrest
                  have hlevel := hvalue.depth
                  refine ⟨⟨hvalue.ordered, hordered⟩, ?_, hvalue.paid.trans hpaid⟩
                  simp only [depthAll]
                  omega

/-- What the loop over a dictionary has in hand. -/
structure EntriesPaid (levels : ℕ) (entries : List (Bytes × PlistValue))
    (made made' : Materialized) : Prop where
  ascend : KeysAscend entries
  ordered : ∀ entry ∈ entries, entry.2.Ordered
  depth : ∀ entry ∈ entries, entry.2.depth < levels
  paid : Paid (entries.length + nodeCountValues entries)
    (keyBytes entries + byteCountValues entries) made made'

theorem EntriesPaid.emplace {key : Bytes} {value : PlistValue}
    {entries : List (Bytes × PlistValue)} {made middle afterKey made' : Materialized}
    (h : EntriesPaid levels entries made middle)
    (hkey : Decoded levels (.string key) middle afterKey)
    (hvalue : Decoded levels value afterKey made') :
    EntriesPaid levels (PlistValue.emplace key value entries) made made' := by
  constructor
  · exact keysAscend_emplace h.ascend
  · intro entry hentry
    rcases mem_emplace hentry with rfl | hold
    · exact hvalue.ordered
    · exact h.ordered entry hold
  · intro entry hentry
    rcases mem_emplace hentry with rfl | hold
    · exact hvalue.depth
    · exact h.depth entry hold
  · have hpaid := h.paid.trans (hkey.paid.trans hvalue.paid)
    have hlength := length_emplace_le key value entries
    have hnodes := nodeCountValues_emplace_le key value entries
    have hbytes := byteCount_emplace_le key value entries
    refine hpaid.mono ?_ ?_
    · simp only [nodeCount]
      omega
    · simp only [byteCount]
      omega

/-- The loop over a dictionary pays for the keys and values, also for those that an
earlier entry with the same key leaves out. -/
theorem dictionaryEntries_paid
    (hobject : ∀ ref value made made', object ref made = (some value, made') →
      Decoded levels value made made')
    {keyRefs valueRefs : List ℕ} {entries result : List (Bytes × PlistValue)}
    {made middle made' : Materialized} (hentries : EntriesPaid levels entries made middle)
    (h : Decoder.dictionaryEntries object keyRefs valueRefs entries middle =
      (some result, made')) :
    EntriesPaid levels result made made' := by
  induction keyRefs generalizing valueRefs entries middle with
  | nil =>
      unfold Decoder.dictionaryEntries at h
      cases h
      exact hentries
  | cons keyRef keyRefs ih =>
      cases valueRefs with
      | nil =>
          unfold Decoder.dictionaryEntries at h
          cases h
          exact hentries
      | cons valueRef valueRefs =>
          unfold Decoder.dictionaryEntries at h
          cases hkey : object keyRef middle with
          | mk key afterKey =>
            cases hvalue : object valueRef afterKey with
            | mk value afterValue =>
              rw [hkey] at h
              dsimp only at h
              rw [hvalue] at h
              dsimp only at h
              split at h
              · rename_i key value
                exact ih (hentries.emplace (hobject _ _ _ _ hkey) (hobject _ _ _ _ hvalue)) h
              · cases h

/-- A node without a count or items costs no more than itself. -/
theorem decoded_leaf (bytes : ℕ) {value : PlistValue} {made : Materialized}
    (hnodes : made.nodes + 1 ≤ kMaxMaterializedNodes)
    (hbytes : bytes = 0 ∨ made.bytes + bytes ≤ kMaxMaterializedBytes)
    (hordered : value.Ordered) (hdepth : value.depth = 0) (hcount : value.nodeCount = 1)
    (hsize : value.byteCount ≤ bytes) :
    Decoded (levels + 1) value made ⟨made.nodes + 1, made.bytes + bytes⟩ := by
  refine ⟨hordered, by omega, ?_, ?_, fun hwithin => ⟨hnodes, ?_⟩⟩
  · exact le_of_eq (congrArg _ hcount)
  · show made.bytes + value.byteCount ≤ made.bytes + bytes
    omega
  · show made.bytes + bytes ≤ kMaxMaterializedBytes
    have hold := hwithin.bytes
    omega

/-- The node itself is paid for before its items are. -/
theorem paid_node {made : Materialized} (hnodes : made.nodes + 1 ≤ kMaxMaterializedNodes) :
    Paid 1 0 made ⟨made.nodes + 1, made.bytes⟩ :=
  ⟨le_refl _, le_refl _, fun hwithin => ⟨hnodes, hwithin.bytes⟩⟩

section Container

variable {made last : Materialized} (hnodes : made.nodes + 1 ≤ kMaxMaterializedNodes)
  (hobject : ∀ ref value made made', object ref made = (some value, made') →
    Decoded levels value made made')

include hnodes hobject

theorem decoded_array {refs : List ℕ} {values : List PlistValue}
    (h : Decoder.arrayItems object refs ⟨made.nodes + 1, made.bytes⟩ = (some values, last)) :
    Decoded (levels + 1) (.array values) made last := by
  obtain ⟨hordered, hdepth, hpaid⟩ := arrayItems_paid hobject h
  refine ⟨hordered, Nat.lt_succ_of_le hdepth, ((paid_node hnodes).trans hpaid).mono (le_refl _) ?_⟩
  simp [byteCount]

theorem decoded_dictionary {keyRefs valueRefs : List ℕ} {entries : List (Bytes × PlistValue)}
    (h : Decoder.dictionaryEntries object keyRefs valueRefs [] ⟨made.nodes + 1, made.bytes⟩ =
      (some entries, last)) :
    Decoded (levels + 1) (.dictionary entries) made last := by
  have hstart : EntriesPaid levels [] ⟨made.nodes + 1, made.bytes⟩ ⟨made.nodes + 1, made.bytes⟩ :=
    ⟨List.Pairwise.nil, by simp, by simp, .refl _⟩
  have hpaid := dictionaryEntries_paid hobject hstart h
  refine ⟨⟨hpaid.ascend, ?_⟩, ?_, ((paid_node hnodes).trans hpaid.paid).mono ?_ ?_⟩
  · rw [valuesOrdered_eq, allOrdered_iff]
    intro item hitem
    obtain ⟨entry, hentry, rfl⟩ := List.mem_map.mp hitem
    exact hpaid.ordered entry hentry
  · simp only [depth]
    rw [depthValues_eq, Nat.lt_succ_iff, depthAll_le_iff]
    intro item hitem
    obtain ⟨entry, hentry, rfl⟩ := List.mem_map.mp hitem
    exact hpaid.depth entry hentry
  · simp only [nodeCount]
    omega
  · simp [byteCount, keyBytes]

end Container

theorem counted_decoded
    (hobject : ∀ ref value made made', object ref made = (some value, made') →
      Decoded levels value made made')
    {decoder : Decoder} {type items offset : ℕ} {value : PlistValue}
    {made made' : Materialized} (hnodes : made.nodes + 1 ≤ kMaxMaterializedNodes)
    (h : Decoder.counted object decoder type items offset ⟨made.nodes + 1, made.bytes⟩ =
      (some value, made')) :
    Decoded (levels + 1) value made made' := by
  unfold Decoder.counted at h
  dsimp only at h
  split at h
  · -- a string or data
    rename_i hcheck
    split at h
    · cases h
    · rename_i hbudget
      cases h
      have hlength : ((decoder.bytes.drop offset).take items).length ≤ items :=
        List.length_take_le _ _
      have hfits : made.bytes + items ≤ kMaxMaterializedBytes := by omega
      split
      · exact decoded_leaf _ hnodes (Or.inr hfits) trivial rfl rfl hlength
      · exact decoded_leaf _ hnodes (Or.inr hfits) trivial rfl rfl hlength
  split at h
  · -- UTF-16 text, charged three bytes for a unit
    split at h
    · cases h
    · rename_i hbudget
      cases h
      have hfits : made.bytes + items * 3 ≤ kMaxMaterializedBytes := by omega
      have htext := length_utf16Text_le ((decoder.bytes.drop offset).take (items * 2))
      have hlength : ((decoder.bytes.drop offset).take (items * 2)).length ≤ items * 2 :=
        List.length_take_le _ _
      refine decoded_leaf _ hnodes (Or.inr hfits) trivial rfl rfl ?_
      simp only [byteCount]
      omega
  split at h
  · split at h
    · cases h
    · split at h
      · -- an array
        cases hitems : Decoder.arrayItems object _ ⟨made.nodes + 1, made.bytes⟩ with
        | mk values last =>
          rw [hitems] at h
          cases values with
          | none => cases h
          | some values =>
              cases h
              exact decoded_array hnodes hobject hitems
      · -- a dictionary
        rename_i refs _ _
        cases hentries : Decoder.dictionaryEntries object (refs.take items) (refs.drop items) []
            ⟨made.nodes + 1, made.bytes⟩ with
        | mk entries last =>
          rw [hentries] at h
          cases entries with
          | none => cases h
          | some entries =>
              cases h
              exact decoded_dictionary hnodes hobject hentries
  · cases h

theorem nodeAt_decoded
    (hobject : ∀ ref value made made', object ref made = (some value, made') →
      Decoded levels value made made')
    {decoder : Decoder} {offset : ℕ} {value : PlistValue} {made made' : Materialized}
    (hnodes : made.nodes + 1 ≤ kMaxMaterializedNodes)
    (h : Decoder.nodeAt object decoder offset ⟨made.nodes + 1, made.bytes⟩ =
      (some value, made')) :
    Decoded (levels + 1) value made made' := by
  -- a value that is neither text nor data nor a container
  have hscalar {value : PlistValue} (hordered : value.Ordered) (hdepth : value.depth = 0)
      (hcount : value.nodeCount = 1) (hsize : value.byteCount = 0) :
      Decoded (levels + 1) value made ⟨made.nodes + 1, made.bytes⟩ :=
    decoded_leaf 0 hnodes (Or.inl rfl) hordered hdepth hcount (le_of_eq hsize)
  unfold Decoder.nodeAt at h
  dsimp only at h
  -- booleans, integers and reals cost a node and no bytes
  split at h
  · cases h
    exact hscalar trivial rfl rfl rfl
  split at h
  · cases hread : readBe decoder.bytes (offset + 1)
        (2 ^ ((decoder.bytes.getD offset 0).toNat % 16)) with
    | none =>
        rw [hread] at h
        cases h
    | some number =>
        rw [hread] at h
        cases h
        exact hscalar trivial rfl rfl rfl
  split at h
  · unfold Decoder.real at h
    dsimp only at h
    split at h
    · cases h
    split at h
    · cases h
      exact hscalar trivial rfl rfl rfl
    split at h
    · cases h
      exact hscalar trivial rfl rfl rfl
    · cases h
  split at h
  · cases h
  · exact counted_decoded hobject hnodes h

end Levels

/-- Every value that `object` returns was paid for. -/
theorem object_decoded (decoder : Decoder) (levels index : ℕ) {value : PlistValue}
    {made made' : Materialized} (h : decoder.object levels index made = (some value, made')) :
    Decoded levels value made made' := by
  induction levels generalizing index value made made' with
  | zero => cases h
  | succ levels ih =>
      unfold Decoder.object at h
      split at h
      · cases h
      dsimp only at h
      split at h
      · cases h
      · rename_i hbudget
        refine nodeAt_decoded (fun ref value made made' hread => ih ref hread) ?_ h
        omega

/-- What was decoded is within the bounds. -/
theorem bounded_of_decodeBplist {bytes : Bytes} {value : PlistValue}
    (h : decodeBplist bytes = some value) : value.Bounded := by
  unfold decodeBplist at h
  split at h
  · cases h
  · rename_i decoder top hopen
    have hdecoded : Decoded (kMaxDepth + 1) value {}
        (decoder.object (kMaxDepth + 1) top {}).2 :=
      object_decoded decoder (kMaxDepth + 1) top (Prod.ext h rfl)
    have hwithin := hdecoded.paid.within ⟨Nat.zero_le _, Nat.zero_le _⟩
    have hnodes := hdecoded.paid.nodes
    have hbytes := hdecoded.paid.bytes
    have hlimitNodes := hwithin.nodes
    have hlimitBytes := hwithin.bytes
    have hdepth := hdecoded.depth
    dsimp only at hnodes hbytes
    exact ⟨hdecoded.ordered, by omega, by omega, by omega⟩

/-- Encoding what was decoded, whatever encoder wrote it, and decoding that again gives
the same value. -/
theorem decodeBplist_reencoded (bytes : Bytes) (value : PlistValue)
    (h : decodeBplist bytes = some value) :
    decodeBplist (encodeBplist value) = some value := by
  have hbounded : value.Bounded := bounded_of_decodeBplist h
  exact hbounded.roundTrip

/-- A file of another encoder: three bytes for a reference, two entries with one key, of
which the second, a 4-byte real, is left out, a text in UTF-16 and a gap before the
table. -/
def foreignBplist : Bytes :=
  magic ++ [0xd2, 0, 0, 1, 0, 0, 1, 0, 0, 2, 0, 0, 3, 0x51, 0x61, 0x61, 0x20, 0xac,
    0x22, 0x3f, 0x80, 0, 0, 0xff] ++ [8, 21, 23, 26] ++ trailer 1 3 4 0 32

theorem decodeBplist_reencoded_foreign :
    let value : PlistValue := .dictionary [([0x61], .string [0xe2, 0x82, 0xac])]
    decodeBplist foreignBplist = some value ∧ decodeBplist (encodeBplist value) = some value := by
  intro value
  have hdecoded : decodeBplist foreignBplist = some value := by rfl
  exact ⟨hdecoded, decodeBplist_reencoded foreignBplist value hdecoded⟩

end Airplay
end Aa2acp
