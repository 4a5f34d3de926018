import Aa2acp.Airplay.Bplist
import Aa2acp.Lib.Checked

/-!
# The decoder of property lists under a monitor

`Decoder` of `src/airplay/bplist.cpp` once more, expression by expression, with each
index, each computation of a size or an offset, the depth of the recursion and what is
taken out of the file watched.  A word has `word` values.  The monitor keeps a tally of
its own of the objects that are materialised and of the bytes that are copied.
-/

namespace Aa2acp
namespace Airplay
namespace Monitor

structure Tally where
  made : Materialized := {}
  objects : ℕ := 0
  copied : ℕ := 0
deriving DecidableEq, Repr

namespace Tally

def setNodes (nodes : ℕ) (tally : Tally) : Tally :=
  { tally with made := { tally.made with nodes := nodes } }

def setBytes (bytes : ℕ) (tally : Tally) : Tally :=
  { tally with made := { tally.made with bytes := bytes } }

/-- One more object. -/
def materialize (tally : Tally) : Checked Tally := do
  let objects ← Checked.atMost kMaxMaterializedNodes (tally.objects + 1)
  .ok { tally with objects := objects }

/-- So many bytes are copied out of the file. -/
def copy (count : ℕ) (tally : Tally) : Checked Tally := do
  let copied ← Checked.atMost kMaxMaterializedBytes (tally.copied + count)
  .ok { tally with copied := copied }

end Tally

variable (word : ℕ)

/-- The loop of `read_be`. -/
def readBytes (bytes : Bytes) (offset : ℕ) : ℕ → ℕ → ℕ → Checked ℕ
  | 0, _, result => .ok result
  | left + 1, index, result => do
      let position ← Checked.add word offset index
      let byte ← Checked.item bytes position
      readBytes bytes offset left (index + 1) (result * 256 + byte.toNat)

def readBe (bytes : Bytes) (offset size : ℕ) : Checked (Option ℕ) :=
  if size > 8 ∨ offset > bytes.length then .ok none
  else do
    let left ← Checked.sub bytes.length offset
    if left < size then .ok none
    else do
      let result ← readBytes word bytes offset size 0 0
      .ok (some result)

def count (decoder : Decoder) (offset nibble : ℕ) : Checked (Option (ℕ × ℕ)) :=
  if nibble ≠ 15 then do
    let data ← Checked.add word offset 1
    .ok (some (nibble, data))
  else do
    let start ← Checked.add word offset 2
    if start > decoder.bytes.length then .ok none
    else do
      let position ← Checked.add word offset 1
      let marker ← Checked.item decoder.bytes position
      if marker.toNat / 16 ≠ 1 then .ok none
      else do
        let size ← Checked.bit word (marker.toNat % 16)
        match ← readBe word decoder.bytes start size with
        | none => .ok none
        | some value => do
            let data ← Checked.add word start size
            .ok (some (value, data))

/-- The references of a container. -/
def readRefs (decoder : Decoder) (data : ℕ) : ℕ → ℕ → Checked (Option (List ℕ))
  | 0, _ => .ok (some [])
  | left + 1, item => do
      let distance ← Checked.mul word item decoder.refSize
      let position ← Checked.add word data distance
      match ← readBe word decoder.bytes position decoder.refSize with
      | none => .ok none
      | some ref =>
          if ref ≥ decoder.offsets.length then .ok none
          else do
            let refs ← readRefs decoder data left (item + 1)
            .ok (refs.map (ref :: ·))

/-- The UTF-8 text of UTF-16 units. -/
def readText (bytes : Bytes) (data : ℕ) : ℕ → ℕ → Bytes → Checked Bytes
  | 0, _, text => .ok text
  | left + 1, item, text => do
      let distance ← Checked.mul word item 2
      let high ← Checked.add word data distance
      let low ← Checked.add word high 1
      let first ← Checked.item bytes high
      let second ← Checked.item bytes low
      readText bytes data left (item + 1) (text ++ encodeUnit (first.toNat * 256 + second.toNat))

def real (decoder : Decoder) (offset nibble : ℕ) : Checked (Option PlistValue) := do
  let size ← Checked.bit word nibble
  let position ← Checked.add word offset 1
  match ← readBe word decoder.bytes position size with
  | none => .ok none
  | some value =>
      if size = 8 then .ok (some (.double (UInt64.ofNat value)))
      else if size = 4 then .ok (some (.double (doubleOfFloat value)))
      else .ok none

section

-- `object` at the next level
variable (object : ℕ → Tally → Checked (Option PlistValue × Tally))

def arrayItems : List ℕ → Tally → Checked (Option (List PlistValue) × Tally)
  | [], tally => .ok (some [], tally)
  | ref :: refs, tally => do
      match ← object ref tally with
      | (none, tally) => .ok (none, tally)
      | (some value, tally) => do
          let (values, tally) ← arrayItems refs tally
          .ok (values.map (value :: ·), tally)

def dictionaryEntries (refs : List ℕ) (items : ℕ) :
    ℕ → ℕ → List (Bytes × PlistValue) → Tally →
      Checked (Option (List (Bytes × PlistValue)) × Tally)
  | 0, _, result, tally => .ok (some result, tally)
  | left + 1, item, result, tally => do
      let keyRef ← Checked.item refs item
      let position ← Checked.add word items item
      let valueRef ← Checked.item refs position
      let (key, tally) ← object keyRef tally
      let (value, tally) ← object valueRef tally
      match key, value with
      | some (.string key), some value =>
          dictionaryEntries refs items left (item + 1) (PlistValue.emplace key value result) tally
      | _, _ => .ok (none, tally)

/-- Strings and data. -/
def copied (decoder : Decoder) (type items data : ℕ) (tally : Tally) :
    Checked (Option PlistValue × Tally) := do
  let bytes ← Checked.add word tally.made.bytes items
  let tally := tally.setBytes bytes
  if bytes > kMaxMaterializedBytes then .ok (none, tally)
  else do
    let content ← Checked.slice word decoder.bytes data items
    let tally ← tally.copy content.length
    .ok (some (if type = 4 then .data content else .string content), tally)

/-- Text in UTF-16. -/
def text (decoder : Decoder) (items data : ℕ) (tally : Tally) :
    Checked (Option PlistValue × Tally) := do
  let charge ← Checked.mul word items 3
  let bytes ← Checked.add word tally.made.bytes charge
  let tally := tally.setBytes bytes
  if bytes > kMaxMaterializedBytes then .ok (none, tally)
  else do
    let content ← readText word decoder.bytes data items 0 []
    let tally ← tally.copy content.length
    .ok (some (.string content), tally)

/-- A dictionary has two references for each entry. -/
def refCount (type items : ℕ) : Checked ℕ :=
  if type = 0xd then Checked.mul word items 2 else .ok items

/-- Arrays and dictionaries. -/
def container (decoder : Decoder) (type items data : ℕ) (tally : Tally) :
    Checked (Option PlistValue × Tally) := do
  let refCount ← refCount word type items
  match ← readRefs word decoder data refCount 0 with
  | none => .ok (none, tally)
  | some refs =>
      if type = 0xa then do
        let (values, tally) ← arrayItems object refs tally
        .ok (values.map .array, tally)
      else do
        let (entries, tally) ← dictionaryEntries word object refs items items 0 [] tally
        .ok (entries.map .dictionary, tally)

/-- `object` from the point where the type is none of the scalars without a count.  All
of its conditions ask first whether the data begin inside the file. -/
def counted (decoder : Decoder) (type items data : ℕ) (tally : Tally) :
    Checked (Option PlistValue × Tally) :=
  if data > decoder.bytes.length then .ok (none, tally)
  else do
    let left ← Checked.sub decoder.bytes.length data
    if (type = 4 ∨ type = 5) ∧ items ≤ left then copied word decoder type items data tally
    else if type = 6 ∧ items ≤ left / 2 then text word decoder items data tally
    else if type = 0xa ∨ type = 0xd then do
      let most ← Checked.div left decoder.refSize
      let width ← Checked.mul word 2 decoder.refSize
      let mostEntries ← Checked.div left width
      if items ≤ most ∧ (type ≠ 0xd ∨ items ≤ mostEntries) then
        container word object decoder type items data tally
      else .ok (none, tally)
    else .ok (none, tally)

/-- `object` once the node is counted. -/
def nodeAt (decoder : Decoder) (offset : ℕ) (tally : Tally) :
    Checked (Option PlistValue × Tally) := do
  let marker ← Checked.item decoder.bytes offset
  let type := marker.toNat / 16
  let nibble := marker.toNat % 16
  if type = 0 ∧ (nibble = 8 ∨ nibble = 9) then .ok (some (.bool (nibble = 9)), tally)
  else if type = 1 then do
    let size ← Checked.bit word nibble
    let position ← Checked.add word offset 1
    let value ← readBe word decoder.bytes position size
    .ok (value.map fun value => .uint64 (UInt64.ofNat value), tally)
  else if type = 2 then do
    let value ← real word decoder offset nibble
    .ok (value, tally)
  else do
    match ← count word decoder offset nibble with
    | none => .ok (none, tally)
    | some (items, data) => counted word object decoder type items data tally

end

/-- `object`, which may be entered at so many levels only. -/
def object (decoder : Decoder) : ℕ → ℕ → ℕ → Tally → Checked (Option PlistValue × Tally)
  | 0, _, _, _ => .error .tooDeep
  | levels + 1, depth, index, tally =>
      if index ≥ decoder.offsets.length ∨ depth > kMaxDepth then .ok (none, tally)
      else do
        let nodes ← Checked.add word tally.made.nodes 1
        let tally := tally.setNodes nodes
        if nodes > kMaxMaterializedNodes then .ok (none, tally)
        else do
          let tally ← tally.materialize
          let offset ← Checked.item decoder.offsets index
          nodeAt word (object decoder levels (depth + 1)) decoder offset tally

/-- The loop over the offset table. -/
def readOffsets (bytes : Bytes) (table offsetSize : ℕ) : ℕ → ℕ → Checked (Option (List ℕ))
  | 0, _ => .ok (some [])
  | left + 1, index => do
      let distance ← Checked.mul word index offsetSize
      let position ← Checked.add word table distance
      match ← readBe word bytes position offsetSize with
      | none => .ok none
      | some offset =>
          if offset ≥ table then .ok none
          else do
            let offsets ← readOffsets bytes table offsetSize left (index + 1)
            .ok (offsets.map (offset :: ·))

/-- The levels at which `object` is entered at most. -/
def maximumLevels : ℕ := 66

/-- `decode` from the point where the trailer is read. -/
def decodeTable (bytes : Bytes) (offsetSize refSize count top table : ℕ) :
    Checked (Option PlistValue) :=
  if count = 0 ∨ top ≥ count ∨ offsetSize = 0 ∨ refSize = 0 ∨ count > 65536 ∨
      table > bytes.length then .ok none
  else do
    let left ← Checked.sub bytes.length table
    let most ← Checked.div left offsetSize
    if count > most then .ok none
    else do
      match ← readOffsets word bytes table offsetSize count 0 with
      | none => .ok none
      | some offsets => do
          let (value, _) ← object word ⟨bytes, refSize, offsets⟩ maximumLevels 0 top {}
          .ok value

def decode (bytes : Bytes) : Checked (Option PlistValue) :=
  if bytes.length < 40 then .ok none
  else do
    let first ← Checked.slice word bytes 0 8
    if first ≠ magic then .ok none
    else do
      let trailer ← Checked.sub bytes.length 32
      let offsetSize ← Checked.item bytes (← Checked.add word trailer 6)
      let refSize ← Checked.item bytes (← Checked.add word trailer 7)
      let count ← readBe word bytes (← Checked.add word trailer 8) 8
      let top ← readBe word bytes (← Checked.add word trailer 16) 8
      let table ← readBe word bytes (← Checked.add word trailer 24) 8
      match count, top, table with
      | some count, some top, some table =>
          decodeTable word bytes offsetSize.toNat refSize.toNat count top table
      | _, _, _ => .ok none

end Monitor
end Airplay
end Aa2acp
