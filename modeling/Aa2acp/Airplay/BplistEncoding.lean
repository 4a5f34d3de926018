import Aa2acp.Airplay.PlistMeasure

/-!
# The node table of an encoded property list

`flatten` says in closed form which nodes the encoder makes of a value: the node of the
value, then for a dictionary the nodes of all its keys, then those of what it contains,
each subtree in one piece.  The encoder, which fills in a node after it has added the
nodes below it, computes just this (`add_eq`).
-/

namespace Aa2acp
namespace Airplay

open PlistValue

/-- Where the subtrees of these values begin, from `base` on. -/
def starts : List PlistValue → ℕ → List ℕ
  | [], _ => []
  | item :: items, base => base :: starts items (base + item.nodeCount)

mutual

/-- The nodes of a value whose own node has the index `base`. -/
def flatten : PlistValue → ℕ → List Node
  | .bool value, _ => [{ bytes := [if value then 0x09 else 0x08] }]
  | .uint64 value, _ => [{ bytes := integer value.toNat }]
  | .double bits, _ => [{ bytes := 0x23 :: bigEndian 8 bits.toNat }]
  | .string value, _ => [stringNode value]
  | .data value, _ => [{ bytes := countMarker 0x4 value.length ++ value }]
  | .array items, base =>
      { bytes := countMarker 0xa items.length, refs := starts items (base + 1) } ::
        flattenAll items (base + 1)
  | .dictionary entries, base =>
      let values := base + 1 + entries.length
      { bytes := countMarker 0xd entries.length,
        refs := List.range' (base + 1) entries.length ++
          starts (entries.map Prod.snd) values } ::
        (entries.map (fun entry => stringNode entry.1) ++ flattenValues entries values)

def flattenAll : List PlistValue → ℕ → List Node
  | [], _ => []
  | item :: items, base => flatten item base ++ flattenAll items (base + item.nodeCount)

def flattenValues : List (Bytes × PlistValue) → ℕ → List Node
  | [], _ => []
  | (_, item) :: entries, base => flatten item base ++ flattenValues entries (base + item.nodeCount)

end

@[simp] theorem length_starts (items : List PlistValue) (base : ℕ) :
    (starts items base).length = items.length := by
  induction items generalizing base with
  | nil => rfl
  | cons item items ih => rw [starts, List.length_cons, ih, List.length_cons]

theorem flattenValues_eq (entries : List (Bytes × PlistValue)) (base : ℕ) :
    flattenValues entries base = flattenAll (entries.map Prod.snd) base := by
  induction entries generalizing base with
  | nil => rfl
  | cons entry entries ih => simp [flattenValues, flattenAll, ih]

theorem addValues_eq (entries : List (Bytes × PlistValue)) (nodes : List Node) :
    addValues entries nodes = addAll (entries.map Prod.snd) nodes := by
  induction entries generalizing nodes with
  | nil => rfl
  | cons entry entries ih => simp [addValues, addAll, ih]

theorem length_flattenAll_of {items : List PlistValue}
    (h : ∀ item ∈ items, ∀ base, (flatten item base).length = item.nodeCount) (base : ℕ) :
    (flattenAll items base).length = nodeCountAll items := by
  induction items generalizing base with
  | nil => rfl
  | cons item items ih =>
      rw [flattenAll, List.length_append, h item List.mem_cons_self,
        ih (fun other hother => h other (List.mem_cons_of_mem _ hother)), nodeCountAll]

/-- A value takes up as many nodes as it has. -/
@[simp] theorem length_flatten (value : PlistValue) (base : ℕ) :
    (flatten value base).length = value.nodeCount := by
  induction value using PlistValue.induction generalizing base with
  | bool value => rfl
  | uint64 value => rfl
  | double bits => rfl
  | string value => rfl
  | data value => rfl
  | array items ih =>
      rw [flatten, List.length_cons, length_flattenAll_of ih, nodeCount, Nat.add_comm]
  | dictionary entries ih =>
      rw [flatten, List.length_cons, List.length_append, List.length_map, flattenValues_eq,
        length_flattenAll_of ih, nodeCount, nodeCountValues_eq]
      omega

@[simp] theorem length_flattenAll (items : List PlistValue) (base : ℕ) :
    (flattenAll items base).length = nodeCountAll items :=
  length_flattenAll_of (fun item _ base => length_flatten item base) base

/-! ## The encoder fills in this table -/

theorem set_last (before after : List Node) (placeholder node : Node) :
    (before ++ placeholder :: after).set before.length node = before ++ node :: after := by
  rw [List.set_append_right _ _ (Nat.le_refl _), Nat.sub_self, List.set_cons_zero]

theorem addKeys_eq (keys : List Bytes) (nodes : List Node) :
    addKeys keys nodes =
      (List.range' nodes.length keys.length, nodes ++ keys.map stringNode) := by
  induction keys generalizing nodes with
  | nil => simp [addKeys]
  | cons key keys ih =>
      unfold addKeys
      dsimp only
      rw [set_last nodes [] .empty (stringNode key), ih]
      simp [List.range'_succ]

theorem addAll_eq_of {items : List PlistValue}
    (h : ∀ item ∈ items, ∀ before : List Node,
      encode item before.length (before ++ [Node.empty]) = before ++ flatten item before.length)
    (nodes : List Node) :
    addAll items nodes = (starts items nodes.length, nodes ++ flattenAll items nodes.length) := by
  induction items generalizing nodes with
  | nil => simp [addAll, starts, flattenAll]
  | cons item items ih =>
      have hrest := ih (fun other hother => h other (List.mem_cons_of_mem _ hother))
        (nodes ++ flatten item nodes.length)
      unfold addAll
      dsimp only
      rw [h item List.mem_cons_self nodes, hrest]
      simp [starts, flattenAll, List.append_assoc]

/-- The encoder turns the empty node at the end into the nodes of the value. -/
theorem encode_eq (value : PlistValue) (before : List Node) :
    encode value before.length (before ++ [Node.empty]) = before ++ flatten value before.length := by
  induction value using PlistValue.induction generalizing before with
  | bool value => exact set_last before [] _ _
  | uint64 value => exact set_last before [] _ _
  | double bits => exact set_last before [] _ _
  | string value => exact set_last before [] _ _
  | data value => exact set_last before [] _ _
  | array items ih =>
      unfold encode
      rw [addAll_eq_of ih]
      dsimp only
      rw [length_starts, List.length_append, List.length_singleton, List.append_assoc,
        List.singleton_append, set_last]
      rfl
  | dictionary entries ih =>
      unfold encode
      rw [addKeys_eq]
      dsimp only
      rw [addValues_eq, addAll_eq_of ih]
      dsimp only
      rw [List.append_assoc, List.append_assoc, List.singleton_append, set_last, flatten,
        flattenValues_eq]
      have hbase : before.length + (entries.length + 1) = before.length + 1 + entries.length := by
        omega
      simp [Function.comp_def, hbase]

theorem add_eq (value : PlistValue) : add value [] = (0, flatten value 0) := by
  unfold add
  rw [encode_eq value []]
  rfl

/-! ## The size of the table -/

theorem length_countMarker (type : UInt8) (count : ℕ) : (countMarker type count).length ≤ 10 := by
  unfold countMarker bytesFor
  split_ifs <;> simp

theorem length_integer (value : ℕ) : (integer value).length ≤ 10 := by
  unfold integer bytesFor
  split_ifs <;> simp

/-- The bytes of these nodes when a reference takes eight. -/
def weight (nodes : List Node) : ℕ :=
  (nodes.map fun node => node.bytes.length + 8 * node.refs.length).sum

@[simp] theorem weight_nil : weight [] = 0 := rfl

@[simp] theorem weight_cons (node : Node) (nodes : List Node) :
    weight (node :: nodes) = node.bytes.length + 8 * node.refs.length + weight nodes := rfl

@[simp] theorem weight_append (nodes others : List Node) :
    weight (nodes ++ others) = weight nodes + weight others := by
  unfold weight
  rw [List.map_append, List.sum_append]

theorem weight_keys (entries : List (Bytes × PlistValue)) :
    weight (entries.map fun entry => stringNode entry.1) ≤
      10 * entries.length + (entries.map fun entry => entry.1.length).sum := by
  induction entries with
  | nil => rfl
  | cons entry entries ih =>
      have hmarker := length_countMarker 0x5 entry.1.length
      simp only [List.map_cons, weight_cons, stringNode, List.length_append, List.length_nil,
        List.length_cons, List.sum_cons]
      simp only [stringNode] at ih
      omega

theorem weight_flattenAll {items : List PlistValue}
    (h : ∀ item ∈ items, ∀ base,
      weight (flatten item base) + 8 ≤ 18 * item.nodeCount + item.byteCount) (base : ℕ) :
    weight (flattenAll items base) + 8 * items.length ≤
      18 * nodeCountAll items + byteCountAll items := by
  induction items generalizing base with
  | nil => simp [flattenAll, nodeCountAll, byteCountAll]
  | cons item items ih =>
      have hitem := h item List.mem_cons_self base
      have hitems := ih (fun other hother => h other (List.mem_cons_of_mem _ hother))
        (base + item.nodeCount)
      simp only [flattenAll, weight_append, nodeCountAll, byteCountAll, List.length_cons]
      omega

/-- The table is small when the value is. -/
theorem weight_flatten (value : PlistValue) (base : ℕ) :
    weight (flatten value base) + 8 ≤ 18 * value.nodeCount + value.byteCount := by
  induction value using PlistValue.induction generalizing base with
  | bool value => simp [flatten, nodeCount, byteCount]
  | uint64 value =>
      have hinteger := length_integer value.toNat
      simp only [flatten, weight_cons, weight_nil, List.length_nil, nodeCount, byteCount]
      omega
  | double bits => simp [flatten, nodeCount, byteCount]
  | string value =>
      have hmarker := length_countMarker 0x5 value.length
      simp only [flatten, stringNode, weight_cons, weight_nil, List.length_nil, List.length_append,
        nodeCount, byteCount]
      omega
  | data value =>
      have hmarker := length_countMarker 0x4 value.length
      simp only [flatten, weight_cons, weight_nil, List.length_nil, List.length_append, nodeCount,
        byteCount]
      omega
  | array items ih =>
      have hmarker := length_countMarker 0xa items.length
      have hitems := weight_flattenAll ih (base + 1)
      simp only [flatten, weight_cons, length_starts, nodeCount, byteCount]
      omega
  | dictionary entries ih =>
      have hmarker := length_countMarker 0xd entries.length
      have hkeys := weight_keys entries
      have hitems := weight_flattenAll ih (base + 1 + entries.length)
      simp only [List.length_map] at hitems
      simp only [flatten, weight_cons, weight_append, flattenValues_eq, List.length_append,
        List.length_range', length_starts, List.length_map, nodeCount, byteCount,
        nodeCountValues_eq, byteCountValues_eq]
      omega

theorem countMarker_ne_nil (type : UInt8) (count : ℕ) : countMarker type count ≠ [] := by
  unfold countMarker
  split <;> simp

theorem bytes_ne_nil_flattenAll {items : List PlistValue}
    (h : ∀ item ∈ items, ∀ base, ∀ node ∈ flatten item base, node.bytes ≠ []) (base : ℕ) :
    ∀ node ∈ flattenAll items base, node.bytes ≠ [] := by
  induction items generalizing base with
  | nil => simp [flattenAll]
  | cons item items ih =>
      intro node hnode
      rw [flattenAll, List.mem_append] at hnode
      rcases hnode with hitem | hitems
      · exact h item List.mem_cons_self base node hitem
      · exact ih (fun other hother => h other (List.mem_cons_of_mem _ hother)) _ node hitems

/-- No node is empty. -/
theorem bytes_ne_nil (value : PlistValue) (base : ℕ) :
    ∀ node ∈ flatten value base, node.bytes ≠ [] := by
  induction value using PlistValue.induction generalizing base with
  | bool value => simp [flatten]
  | uint64 value => simp [flatten, integer]
  | double bits => simp [flatten]
  | string value => simp [flatten, stringNode, countMarker_ne_nil]
  | data value => simp [flatten, countMarker_ne_nil]
  | array items ih =>
      have hitems := bytes_ne_nil_flattenAll ih (base + 1)
      exact List.forall_mem_cons.mpr ⟨countMarker_ne_nil _ _, hitems⟩
  | dictionary entries ih =>
      have hitems := bytes_ne_nil_flattenAll ih (base + 1 + entries.length)
      refine List.forall_mem_cons.mpr ⟨countMarker_ne_nil _ _, List.forall_mem_append.mpr ⟨?_, ?_⟩⟩
      · intro node hnode
        obtain ⟨entry, -, rfl⟩ := List.mem_map.mp hnode
        exact List.append_ne_nil_of_left_ne_nil (countMarker_ne_nil _ _) _
      · rw [flattenValues_eq]
        exact hitems

/-! ## Where the nodes stand in the file -/

/-- Where these nodes begin when the first is at `position`. -/
def positions (refSize : ℕ) : List Node → ℕ → List ℕ
  | [], _ => []
  | node :: nodes, position =>
      position :: positions refSize nodes (position + (node.encoding refSize).length)

section

variable (refSize : ℕ)

@[simp] theorem length_positions (nodes : List Node) (position : ℕ) :
    (positions refSize nodes position).length = nodes.length := by
  induction nodes generalizing position with
  | nil => rfl
  | cons node nodes ih => rw [positions, List.length_cons, ih, List.length_cons]

theorem layOut_eq (nodes : List Node) (result : Bytes) (offsets : List ℕ) :
    layOut refSize nodes result offsets =
      (result ++ nodes.flatMap (Node.encoding refSize),
        offsets ++ positions refSize nodes result.length) := by
  induction nodes generalizing result offsets with
  | nil => simp [layOut, positions]
  | cons node nodes ih =>
      unfold layOut
      rw [ih]
      simp [positions, List.append_assoc]

theorem positions_append (before after : List Node) (position : ℕ) :
    positions refSize (before ++ after) position =
      positions refSize before position ++ positions refSize after
        (position + (before.flatMap (Node.encoding refSize)).length) := by
  induction before generalizing position with
  | nil => simp [positions]
  | cons node before ih =>
      rw [List.cons_append, positions, ih, positions, List.flatMap_cons, List.length_append,
        List.cons_append, Nat.add_assoc]

theorem positions_getD (before after : List Node) (node : Node) (position : ℕ) :
    (positions refSize (before ++ node :: after) position).getD before.length 0 =
      position + (before.flatMap (Node.encoding refSize)).length := by
  rw [positions_append, List.getD_eq_getElem?_getD,
    List.getElem?_append_right (by rw [length_positions]), length_positions, Nat.sub_self]
  rfl

theorem positions_lt {nodes : List Node} (h : ∀ node ∈ nodes, node.bytes ≠ []) {position : ℕ} :
    ∀ offset ∈ positions refSize nodes position,
      offset < position + (nodes.flatMap (Node.encoding refSize)).length := by
  induction nodes generalizing position with
  | nil => simp [positions]
  | cons node nodes ih =>
      have hpos : 0 < node.bytes.length := List.length_pos_iff.mpr (h node List.mem_cons_self)
      have hencoding : node.bytes.length ≤ (node.encoding refSize).length := by
        rw [Node.encoding, List.length_append]
        omega
      rw [positions, List.flatMap_cons, List.length_append]
      refine List.forall_mem_cons.mpr ⟨by omega, fun offset hoffset => ?_⟩
      have hrest := ih (fun other hother => h other (List.mem_cons_of_mem _ hother)) offset hoffset
      omega

theorem length_flatMap_bigEndian (size : ℕ) (values : List ℕ) :
    (values.flatMap (bigEndian size)).length = values.length * size := by
  induction values with
  | nil => simp
  | cons value values ih =>
      rw [List.flatMap_cons, List.length_append, length_bigEndian, ih, List.length_cons]
      ring

theorem length_encodings_le (hsize : refSize ≤ 8) (nodes : List Node) :
    (nodes.flatMap (Node.encoding refSize)).length ≤ weight nodes := by
  induction nodes with
  | nil => rfl
  | cons node nodes ih =>
      have hrefs : node.refs.length * refSize ≤ 8 * node.refs.length := by
        rw [Nat.mul_comm 8]
        exact Nat.mul_le_mul_left _ hsize
      rw [List.flatMap_cons, List.length_append, weight_cons, Node.encoding, List.length_append,
        length_flatMap_bigEndian]
      omega

/-- The file up to the offset table. -/
def fileBody (nodes : List Node) : Bytes := magic ++ nodes.flatMap (Node.encoding refSize)

theorem length_fileBody (nodes : List Node) :
    (fileBody refSize nodes).length = 8 + (nodes.flatMap (Node.encoding refSize)).length :=
  List.length_append

/-- A node stands where its position says. -/
theorem drop_fileBody (before after : List Node) (node : Node) (rest : Bytes) :
    (fileBody refSize (before ++ node :: after) ++ rest).drop
        ((positions refSize (before ++ node :: after) 8).getD before.length 0) =
      node.encoding refSize ++ (after.flatMap (Node.encoding refSize) ++ rest) := by
  have hposition : (positions refSize (before ++ node :: after) 8).getD before.length 0 =
      (fileBody refSize before).length := by
    rw [positions_getD, length_fileBody]
  have hsplit : fileBody refSize (before ++ node :: after) ++ rest = fileBody refSize before ++
      (node.encoding refSize ++ (after.flatMap (Node.encoding refSize) ++ rest)) := by
    simp [fileBody, List.append_assoc]
  rw [hposition, hsplit, List.drop_left]

end

/-- The file of a table: the nodes, where they stand, and the trailer. -/
theorem finish_eq (top : ℕ) (nodes : List Node) {refSize table : ℕ}
    (hrefSize : refSize = bytesFor (nodes.length - 1))
    (htable : table = (fileBody refSize nodes).length) :
    finish top nodes =
      fileBody refSize nodes ++ (positions refSize nodes 8).flatMap (bigEndian (bytesFor table)) ++
        trailer (bytesFor table) refSize nodes.length top table := by
  unfold finish
  dsimp only
  rw [← hrefSize, layOut_eq, htable]
  rfl

end Airplay
end Aa2acp
