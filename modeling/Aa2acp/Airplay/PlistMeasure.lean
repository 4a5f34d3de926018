import Aa2acp.Airplay.Bplist

/-!
# The size of a property list

The three numbers that the decoder bounds: nesting depth, nodes (dictionary keys are
nodes too) and bytes of strings and data.  `PlistValue.induction` is the induction
over nested values that the proofs about the codec use.
-/

namespace Aa2acp
namespace Airplay
namespace PlistValue

/-- Induction over nested values. -/
@[elab_as_elim]
theorem induction {P : PlistValue → Prop} (bool : ∀ value, P (.bool value))
    (uint64 : ∀ value, P (.uint64 value)) (double : ∀ bits, P (.double bits))
    (string : ∀ value, P (.string value)) (data : ∀ value, P (.data value))
    (array : ∀ items, (∀ item ∈ items, P item) → P (.array items))
    (dictionary : ∀ entries, (∀ item ∈ entries.map Prod.snd, P item) → P (.dictionary entries)) :
    ∀ value, P value := by
  intro value
  refine @PlistValue.rec P (fun items => ∀ item ∈ items, P item)
    (fun entries => ∀ item ∈ entries.map Prod.snd, P item) (fun entry => P entry.2)
    bool uint64 double string data array dictionary ?_ ?_ ?_ ?_ ?_ value
  · intro item hitem
    cases hitem
  · intro item items hitem hitems
    exact List.forall_mem_cons.mpr ⟨hitem, hitems⟩
  · intro item hitem
    cases hitem
  · intro entry entries hentry hentries
    exact List.forall_mem_cons.mpr ⟨hentry, hentries⟩
  · intro key item hitem
    exact hitem

mutual

/-- The levels below a value. -/
def depth : PlistValue → ℕ
  | .array items => depthAll items
  | .dictionary entries => depthValues entries
  | _ => 0

def depthAll : List PlistValue → ℕ
  | [] => 0
  | item :: items => max (item.depth + 1) (depthAll items)

def depthValues : List (Bytes × PlistValue) → ℕ
  | [] => 0
  | (_, item) :: entries => max (item.depth + 1) (depthValues entries)

end

mutual

/-- The values and the keys that a value consists of. -/
def nodeCount : PlistValue → ℕ
  | .array items => 1 + nodeCountAll items
  | .dictionary entries => 1 + entries.length + nodeCountValues entries
  | _ => 1

def nodeCountAll : List PlistValue → ℕ
  | [] => 0
  | item :: items => item.nodeCount + nodeCountAll items

def nodeCountValues : List (Bytes × PlistValue) → ℕ
  | [] => 0
  | (_, item) :: entries => item.nodeCount + nodeCountValues entries

end

mutual

/-- The bytes of the strings, the data and the keys in a value. -/
def byteCount : PlistValue → ℕ
  | .string value => value.length
  | .data value => value.length
  | .array items => byteCountAll items
  | .dictionary entries => (entries.map fun entry => entry.1.length).sum + byteCountValues entries
  | _ => 0

def byteCountAll : List PlistValue → ℕ
  | [] => 0
  | item :: items => item.byteCount + byteCountAll items

def byteCountValues : List (Bytes × PlistValue) → ℕ
  | [] => 0
  | (_, item) :: entries => item.byteCount + byteCountValues entries

end

/-- What the decoder can produce: a value within the three bounds, all of whose
dictionaries are maps. -/
structure Bounded (value : PlistValue) : Prop where
  ordered : value.Ordered
  depth : value.depth ≤ kMaxDepth
  nodes : value.nodeCount ≤ kMaxMaterializedNodes
  bytes : value.byteCount ≤ kMaxMaterializedBytes

/-! ## The values of a dictionary are a list of values -/

section

variable (entries : List (Bytes × PlistValue))

theorem depthValues_eq : depthValues entries = depthAll (entries.map Prod.snd) := by
  induction entries with
  | nil => rfl
  | cons entry entries ih => simp [depthValues, depthAll, ih]

theorem nodeCountValues_eq : nodeCountValues entries = nodeCountAll (entries.map Prod.snd) := by
  induction entries with
  | nil => rfl
  | cons entry entries ih => simp [nodeCountValues, nodeCountAll, ih]

theorem byteCountValues_eq : byteCountValues entries = byteCountAll (entries.map Prod.snd) := by
  induction entries with
  | nil => rfl
  | cons entry entries ih => simp [byteCountValues, byteCountAll, ih]

theorem valuesOrdered_eq : ValuesOrdered entries = AllOrdered (entries.map Prod.snd) := by
  induction entries with
  | nil => rfl
  | cons entry entries ih => simp [ValuesOrdered, AllOrdered, ih]

end

theorem allOrdered_iff {items : List PlistValue} :
    AllOrdered items ↔ ∀ item ∈ items, item.Ordered := by
  induction items with
  | nil => simp [AllOrdered]
  | cons item items ih => simp [AllOrdered, ih]

theorem depthAll_le_iff {items : List PlistValue} {levels : ℕ} :
    depthAll items ≤ levels ↔ ∀ item ∈ items, item.depth < levels := by
  induction items with
  | nil => simp [depthAll]
  | cons item items ih => simp [depthAll, ih]

theorem nodeCount_pos (value : PlistValue) : 0 < value.nodeCount := by
  cases value with
  | array items =>
      simp only [nodeCount]
      omega
  | dictionary entries =>
      simp only [nodeCount]
      omega
  | _ => exact Nat.one_pos

theorem length_le_nodeCountAll (items : List PlistValue) : items.length ≤ nodeCountAll items := by
  induction items with
  | nil => rfl
  | cons item items ih =>
      have hpos := item.nodeCount_pos
      simp only [List.length_cons, nodeCountAll]
      omega

end PlistValue

/-- The text of UTF-16 units is at most three bytes for each of them. -/
theorem length_encodeUnit_le (code : ℕ) : (encodeUnit code).length ≤ 3 := by
  unfold encodeUnit
  split_ifs <;> simp

theorem length_utf16Text_le (units : Bytes) : 2 * (utf16Text units).length ≤ 3 * units.length := by
  induction units using utf16Text.induct with
  | case1 high low units ih =>
      have hunit := length_encodeUnit_le (high.toNat * 256 + low.toNat)
      simp only [utf16Text, List.length_append, List.length_cons]
      omega
  | case2 units hshort =>
      unfold utf16Text
      split
      · rename_i high low rest
        exact absurd rfl (hshort high low rest)
      · simp

end Airplay
end Aa2acp
