import Aa2acp.Lib.Bytes

/-!
# Binary property lists

The codec of `src/airplay/bplist.cpp`.  A `double` is its bit pattern, a
`std::string` a byte string.  `std::size_t` values are natural numbers; the decoder
checks every value that it reads before it computes with it.  The source recurses on
the references of a file: the model counts the levels below `kMaxDepth` down.
-/

namespace Aa2acp
namespace Airplay

inductive PlistValue where
  | bool (value : Bool)
  | uint64 (value : UInt64)
  | double (bits : UInt64)
  | string (value : Bytes)
  | data (value : Bytes)
  | array (items : List PlistValue)
  | dictionary (entries : List (Bytes × PlistValue))

namespace PlistValue

/-- `Dictionary` is a `std::map`: its keys are in order and distinct. -/
abbrev KeysAscend (entries : List (Bytes × PlistValue)) : Prop :=
  entries.Pairwise fun entry later => entry.1 < later.1

mutual

/-- Every dictionary in the value is a map. -/
def Ordered : PlistValue → Prop
  | .array items => AllOrdered items
  | .dictionary entries => KeysAscend entries ∧ ValuesOrdered entries
  | _ => True

def AllOrdered : List PlistValue → Prop
  | [] => True
  | item :: items => item.Ordered ∧ AllOrdered items

def ValuesOrdered : List (Bytes × PlistValue) → Prop
  | [] => True
  | (_, value) :: entries => value.Ordered ∧ ValuesOrdered entries

end

/-- `emplace`: an entry with the key that is there already stays. -/
def emplace (key : Bytes) (value : PlistValue) :
    List (Bytes × PlistValue) → List (Bytes × PlistValue)
  | [] => [(key, value)]
  | (first, old) :: entries =>
      if key < first then (key, value) :: (first, old) :: entries
      else if key = first then (first, old) :: entries
      else (first, old) :: emplace key value entries

end PlistValue

/-! ## Numbers -/

def magic : Bytes := [0x62, 0x70, 0x6c, 0x69, 0x73, 0x74, 0x30, 0x30]

def readBe (bytes : Bytes) (offset size : ℕ) : Option ℕ :=
  if size > 8 ∨ offset > bytes.length ∨ bytes.length - offset < size then none
  else some (ofBigEndian ((bytes.drop offset).take size))

def bytesFor (value : ℕ) : ℕ :=
  if value ≤ 0xff then 1
  else if value ≤ 0xffff then 2
  else if value ≤ 0xffffffff then 4
  else 8

def log2Bytes (size : ℕ) : UInt8 :=
  if size = 1 then 0 else if size = 2 then 1 else if size = 4 then 2 else 3

def countMarker (type : UInt8) (count : ℕ) : Bytes :=
  if count < 15 then [(type <<< 4) ||| UInt8.ofNat count]
  else
    let size := bytesFor count
    [(type <<< 4) ||| 15, 0x10 ||| log2Bytes size] ++ bigEndian size count

def integer (value : ℕ) : Bytes :=
  let size := bytesFor value
  (0x10 ||| log2Bytes size) :: bigEndian size value

/-! ## Encoding -/

structure Node where
  bytes : Bytes := []
  refs : List ℕ := []
deriving DecidableEq, Repr

/-- What `emplace_back` makes. -/
def Node.empty : Node := {}

def stringNode (value : Bytes) : Node := { bytes := countMarker 0x5 value.length ++ value }

/-- `add` of a string: an empty node at the end, then its contents. -/
def addKeys : List Bytes → List Node → List ℕ × List Node
  | [], nodes => ([], nodes)
  | key :: keys, nodes =>
      let index := nodes.length
      let (refs, nodes) := addKeys keys ((nodes ++ [Node.empty]).set index (stringNode key))
      (index :: refs, nodes)

mutual

/-- `encode`: the contents of the node at `index`, and the nodes below it. -/
def encode : PlistValue → ℕ → List Node → List Node
  | .bool value, index, nodes => nodes.set index { bytes := [if value then 0x09 else 0x08] }
  | .uint64 value, index, nodes => nodes.set index { bytes := integer value.toNat }
  | .double bits, index, nodes => nodes.set index { bytes := 0x23 :: bigEndian 8 bits.toNat }
  | .string value, index, nodes => nodes.set index (stringNode value)
  | .data value, index, nodes =>
      nodes.set index { bytes := countMarker 0x4 value.length ++ value }
  | .array items, index, nodes =>
      let (refs, nodes) := addAll items nodes
      nodes.set index { bytes := countMarker 0xa refs.length, refs := refs }
  | .dictionary entries, index, nodes =>
      let (keyRefs, nodes) := addKeys (entries.map Prod.fst) nodes
      let (valueRefs, nodes) := addValues entries nodes
      nodes.set index { bytes := countMarker 0xd entries.length, refs := keyRefs ++ valueRefs }

/-- `add` of each item: an empty node at the end, then its contents. -/
def addAll : List PlistValue → List Node → List ℕ × List Node
  | [], nodes => ([], nodes)
  | item :: items, nodes =>
      let index := nodes.length
      let (refs, nodes) := addAll items (encode item index (nodes ++ [Node.empty]))
      (index :: refs, nodes)

/-- `add` of each value. -/
def addValues : List (Bytes × PlistValue) → List Node → List ℕ × List Node
  | [], nodes => ([], nodes)
  | (_, item) :: entries, nodes =>
      let index := nodes.length
      let (refs, nodes) := addValues entries (encode item index (nodes ++ [Node.empty]))
      (index :: refs, nodes)

end

def add (value : PlistValue) (nodes : List Node) : ℕ × List Node :=
  (nodes.length, encode value nodes.length (nodes ++ [Node.empty]))

/-- A node as it stands in the file. -/
def Node.encoding (refSize : ℕ) (node : Node) : Bytes :=
  node.bytes ++ node.refs.flatMap (bigEndian refSize)

/-- The loop of `finish` over the nodes: the file so far and the offsets. -/
def layOut (refSize : ℕ) : List Node → Bytes → List ℕ → Bytes × List ℕ
  | [], result, offsets => (result, offsets)
  | node :: nodes, result, offsets =>
      layOut refSize nodes (result ++ node.encoding refSize) (offsets ++ [result.length])

def trailer (offsetSize refSize count top table : ℕ) : Bytes :=
  List.replicate 6 0 ++ [UInt8.ofNat offsetSize, UInt8.ofNat refSize] ++
    bigEndian 8 count ++ bigEndian 8 top ++ bigEndian 8 table

def finish (top : ℕ) (nodes : List Node) : Bytes :=
  let refSize := bytesFor (nodes.length - 1)
  let (result, offsets) := layOut refSize nodes magic []
  let table := result.length
  let offsetSize := bytesFor table
  result ++ offsets.flatMap (bigEndian offsetSize) ++
    trailer offsetSize refSize nodes.length top table

def encodeBplist (root : PlistValue) : Bytes :=
  let (top, nodes) := add root []
  finish top nodes

/-! ## Decoding -/

def kMaxDepth : ℕ := 64
def kMaxMaterializedNodes : ℕ := 65536
def kMaxMaterializedBytes : ℕ := 8 * 1024 * 1024

structure Decoder where
  bytes : Bytes
  refSize : ℕ
  offsets : List ℕ
deriving DecidableEq, Repr

/-- What was materialised up to now. -/
structure Materialized where
  nodes : ℕ := 0
  bytes : ℕ := 0
deriving DecidableEq, Repr

/-- `static_cast<double>` of the `float` with these bits. -/
def doubleOfFloat (bits : ℕ) : UInt64 :=
  let sign := bits / 2 ^ 31 % 2
  let exponent := bits / 2 ^ 23 % 2 ^ 8
  let fraction := bits % 2 ^ 23
  let magnitude :=
    if exponent = 255 then
      -- infinity, or a NaN, which becomes quiet
      2047 * 2 ^ 52 + (fraction * 2 ^ 29 ||| if fraction = 0 then 0 else 2 ^ 51)
    else if exponent ≠ 0 then (exponent + 896) * 2 ^ 52 + fraction * 2 ^ 29
    else if fraction = 0 then 0
    else
      -- a subnormal `float` is a normal `double`
      let top := Nat.log2 fraction
      (top + 874) * 2 ^ 52 + (fraction * 2 ^ (52 - top) - 2 ^ 52)
  UInt64.ofNat (sign * 2 ^ 63 + magnitude)

/-- The UTF-8 bytes of a UTF-16 code unit. -/
def encodeUnit (code : ℕ) : Bytes :=
  if code < 0x80 then [UInt8.ofNat code]
  else if code < 0x800 then [UInt8.ofNat (0xc0 + code / 64), UInt8.ofNat (0x80 + code % 64)]
  else
    [UInt8.ofNat (0xe0 + code / 4096), UInt8.ofNat (0x80 + code / 64 % 64),
      UInt8.ofNat (0x80 + code % 64)]

/-- Surrogates are not paired. -/
def utf16Text : Bytes → Bytes
  | high :: low :: units => encodeUnit (high.toNat * 256 + low.toNat) ++ utf16Text units
  | _ => []

namespace Decoder

/-- `count`: a number of items, and where the data begin. -/
def count (decoder : Decoder) (offset nibble : ℕ) : Option (ℕ × ℕ) :=
  if nibble ≠ 15 then some (nibble, offset + 1)
  else
    let marker := (decoder.bytes.getD (offset + 1) 0).toNat
    if offset + 2 > decoder.bytes.length ∨ marker / 16 ≠ 1 then none
    else
      let size := 2 ^ (marker % 16)
      (readBe decoder.bytes (offset + 2) size).map fun value => (value, offset + 2 + size)

/-- The references of a container, each of which must be one of a node. -/
def readRefs (decoder : Decoder) : ℕ → ℕ → Option (List ℕ)
  | 0, _ => some []
  | items + 1, offset =>
      match readBe decoder.bytes offset decoder.refSize with
      | none => none
      | some ref =>
          if ref ≥ decoder.offsets.length then none
          else (decoder.readRefs items (offset + decoder.refSize)).map (ref :: ·)

def real (decoder : Decoder) (offset nibble : ℕ) : Option PlistValue :=
  let size := 2 ^ nibble
  match readBe decoder.bytes (offset + 1) size with
  | none => none
  | some value =>
      if size = 8 then some (.double (UInt64.ofNat value))
      else if size = 4 then some (.double (doubleOfFloat value))
      else none

section

-- `object` at the next level
variable (object : ℕ → Materialized → Option PlistValue × Materialized)

/-- The loop over the items of an array. -/
def arrayItems : List ℕ → Materialized → Option (List PlistValue) × Materialized
  | [], made => (some [], made)
  | ref :: refs, made =>
      match object ref made with
      | (none, made) => (none, made)
      | (some value, made) =>
          match arrayItems refs made with
          | (none, made) => (none, made)
          | (some values, made) => (some (value :: values), made)

/-- The loop over the entries of a dictionary. -/
def dictionaryEntries : List ℕ → List ℕ → List (Bytes × PlistValue) → Materialized →
    Option (List (Bytes × PlistValue)) × Materialized
  | keyRef :: keyRefs, valueRef :: valueRefs, result, made =>
      let (key, made) := object keyRef made
      let (value, made) := object valueRef made
      match key, value with
      | some (.string key), some value =>
          dictionaryEntries keyRefs valueRefs (PlistValue.emplace key value result) made
      | _, _ => (none, made)
  | _, _, result, made => (some result, made)

/-- `object` from the point where the type is none of the scalars without a count. -/
def counted (decoder : Decoder) (type items offset : ℕ) (made : Materialized) :
    Option PlistValue × Materialized :=
  let left := decoder.bytes.length - offset
  if (type = 4 ∨ type = 5) ∧ offset ≤ decoder.bytes.length ∧ items ≤ left then
    let made := { made with bytes := made.bytes + items }
    if made.bytes > kMaxMaterializedBytes then (none, made)
    else
      let content := (decoder.bytes.drop offset).take items
      (some (if type = 4 then .data content else .string content), made)
  else if type = 6 ∧ offset ≤ decoder.bytes.length ∧ items ≤ left / 2 then
    let made := { made with bytes := made.bytes + items * 3 }
    if made.bytes > kMaxMaterializedBytes then (none, made)
    else (some (.string (utf16Text ((decoder.bytes.drop offset).take (items * 2)))), made)
  else if (type = 0xa ∨ type = 0xd) ∧ offset ≤ decoder.bytes.length ∧
      items ≤ left / decoder.refSize ∧
      (type ≠ 0xd ∨ items ≤ left / (2 * decoder.refSize)) then
    match decoder.readRefs (if type = 0xd then items * 2 else items) offset with
    | none => (none, made)
    | some refs =>
        if type = 0xa then
          let (values, made) := arrayItems object refs made
          (values.map .array, made)
        else
          let (entries, made) := dictionaryEntries object (refs.take items) (refs.drop items) [] made
          (entries.map .dictionary, made)
  else (none, made)

/-- `object` once the node is counted. -/
def nodeAt (decoder : Decoder) (offset : ℕ) (made : Materialized) :
    Option PlistValue × Materialized :=
  let marker := (decoder.bytes.getD offset 0).toNat
  let type := marker / 16
  let nibble := marker % 16
  if type = 0 ∧ (nibble = 8 ∨ nibble = 9) then (some (.bool (nibble = 9)), made)
  else if type = 1 then
    ((readBe decoder.bytes (offset + 1) (2 ^ nibble)).map fun value =>
      .uint64 (UInt64.ofNat value), made)
  else if type = 2 then (decoder.real offset nibble, made)
  else
    match decoder.count offset nibble with
    | none => (none, made)
    | some (items, data) => counted object decoder type items data made

end

/-- `object`, with the levels that are left; none is left below `kMaxDepth`. -/
def object (decoder : Decoder) : ℕ → ℕ → Materialized → Option PlistValue × Materialized
  | 0, _, made => (none, made)
  | levels + 1, index, made =>
      if index ≥ decoder.offsets.length then (none, made)
      else
        let made := { made with nodes := made.nodes + 1 }
        if made.nodes > kMaxMaterializedNodes then (none, made)
        else nodeAt (decoder.object levels) decoder (decoder.offsets.getD index 0) made

end Decoder

/-- The loop over the offset table, whose offsets must lie before it. -/
def readOffsets (bytes : Bytes) (table offsetSize : ℕ) : ℕ → ℕ → Option (List ℕ)
  | 0, _ => some []
  | count + 1, position =>
      match readBe bytes position offsetSize with
      | none => none
      | some offset =>
          if offset ≥ table then none
          else (readOffsets bytes table offsetSize count (position + offsetSize)).map (offset :: ·)

/-- The decoder that `decode` has when it calls `object`, and the index of the root. -/
def openBplist (bytes : Bytes) : Option (Decoder × ℕ) :=
  if bytes.length < 40 ∨ bytes.take 8 ≠ magic then none
  else
    let trailer := bytes.length - 32
    let offsetSize := (bytes.getD (trailer + 6) 0).toNat
    let refSize := (bytes.getD (trailer + 7) 0).toNat
    match readBe bytes (trailer + 8) 8, readBe bytes (trailer + 16) 8,
      readBe bytes (trailer + 24) 8 with
    | some count, some top, some table =>
        if count = 0 ∨ top ≥ count ∨ offsetSize = 0 ∨ refSize = 0 ∨ count > 65536 ∨
            table > bytes.length ∨ count > (bytes.length - table) / offsetSize then none
        else
          (readOffsets bytes table offsetSize count table).map fun offsets =>
            (⟨bytes, refSize, offsets⟩, top)
    | _, _, _ => none

def decodeBplist (bytes : Bytes) : Option PlistValue :=
  match openBplist bytes with
  | none => none
  | some (decoder, top) => (decoder.object (kMaxDepth + 1) top {}).1

end Airplay
end Aa2acp
