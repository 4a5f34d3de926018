import Aa2acp.Lib.Bytes

/-!
# Blocks with a length in front

A block travels as its length in four bytes, most significant first, and its bytes.  Such
blocks need no separator: a stream of them can be read in one way only, and a stream that
breaks off inside a block yields the blocks before it and no other.
-/

namespace Aa2acp
namespace LengthPrefix

def prefixed (block : Bytes) : Bytes := bigEndian 4 block.length ++ block

/-- The lengths that four bytes can tell apart. -/
def Fits (block : Bytes) : Prop := block.length < 2 ^ 32

def prefixedAll (blocks : List Bytes) : Bytes := blocks.flatMap prefixed

@[simp] theorem prefixedAll_nil : prefixedAll [] = [] := rfl

@[simp] theorem prefixedAll_cons (block : Bytes) (blocks : List Bytes) :
    prefixedAll (block :: blocks) = prefixed block ++ prefixedAll blocks := List.flatMap_cons

@[simp] theorem prefixedAll_append (blocks others : List Bytes) :
    prefixedAll (blocks ++ others) = prefixedAll blocks ++ prefixedAll others :=
  List.flatMap_append

@[simp] theorem length_prefixed (block : Bytes) : (prefixed block).length = 4 + block.length := by
  simp [prefixed]

theorem ofBigEndian_length {block : Bytes} (h : Fits block) :
    ofBigEndian (bigEndian 4 block.length) = block.length := by
  rw [ofBigEndian_bigEndian]
  exact h

/-- The block at the front of a stream is determined. -/
theorem prefixed_append_inj {block block' rest rest' : Bytes} (hblock : Fits block)
    (hblock' : Fits block') (h : prefixed block ++ rest = prefixed block' ++ rest') :
    block = block' ∧ rest = rest' := by
  simp only [prefixed, List.append_assoc] at h
  obtain ⟨hheader, hbody⟩ := List.append_inj h (by simp)
  have hlength : block.length = block'.length := by
    rw [← ofBigEndian_length hblock, ← ofBigEndian_length hblock', hheader]
  exact List.append_inj hbody hlength

/-- The blocks of a stream that ends with one. -/
def readAll (bytes : Bytes) : Option (List Bytes) :=
  if bytes = [] then some []
  else if 4 + ofBigEndian (bytes.take 4) ≤ bytes.length then
    (readAll (bytes.drop (4 + ofBigEndian (bytes.take 4)))).map
      (((bytes.drop 4).take (ofBigEndian (bytes.take 4))) :: ·)
  else none
termination_by bytes.length
decreasing_by
  rw [List.length_drop]
  omega

@[simp] theorem readAll_nil : readAll [] = some [] := by
  rw [readAll, if_pos rfl]

theorem readAll_prefixed_append {block : Bytes} (hblock : Fits block) (rest : Bytes) :
    readAll (prefixed block ++ rest) = (readAll rest).map (block :: ·) := by
  have hsize : ofBigEndian ((prefixed block ++ rest).take 4) = block.length := by
    rw [prefixed, List.append_assoc, List.take_left' (length_bigEndian 4 _), ofBigEndian_length hblock]
  have hbody : ((prefixed block ++ rest).drop 4).take block.length = block := by
    rw [prefixed, List.append_assoc, List.drop_left' (length_bigEndian 4 _), List.take_left]
  have hafter : (prefixed block ++ rest).drop (4 + block.length) = rest :=
    List.drop_left' (length_prefixed block)
  rw [readAll, if_neg (by simp [prefixed, bigEndian]), hsize, hbody, hafter, if_pos (by simp)]

/-- What was written with its lengths is read back. -/
theorem readAll_prefixedAll {blocks : List Bytes} (h : ∀ block ∈ blocks, Fits block) :
    readAll (prefixedAll blocks) = some blocks := by
  induction blocks with
  | nil => exact readAll_nil
  | cons block blocks ih =>
      obtain ⟨hblock, hblocks⟩ := List.forall_mem_cons.mp h
      rw [prefixedAll_cons, readAll_prefixed_append hblock, ih hblocks]
      rfl

/-- A proper part of a block with its length. -/
def Part (part : Bytes) : Prop :=
  ∃ block more, Fits block ∧ more ≠ [] ∧ part ++ more = prefixed block

theorem part_nil : Part [] :=
  ⟨[], prefixed [], by simp [Fits], by simp [prefixed, bigEndian], rfl⟩

/-- A whole block is no proper part of one. -/
theorem Part.not_whole {part block rest : Bytes} (h : Part part) (hblock : Fits block) :
    part ≠ prefixed block ++ rest := by
  rintro rfl
  obtain ⟨other, more, hother, hmore, hsplit⟩ := h
  rw [List.append_assoc, ← List.append_nil (prefixed other)] at hsplit
  have hrest := (prefixed_append_inj hblock hother hsplit).2
  exact hmore (List.append_eq_nil_iff.mp hrest).2

/-- What reads as a block at the front of a stream that breaks off is its first block. -/
theorem first_of_stream {blocks : List Bytes} (hblocks : ∀ block ∈ blocks, Fits block)
    {part block rest : Bytes} (hpart : Part part) (hblock : Fits block)
    (h : prefixedAll blocks ++ part = prefixed block ++ rest) :
    ∃ later, blocks = block :: later ∧ rest = prefixedAll later ++ part := by
  cases blocks with
  | nil => exact absurd h (hpart.not_whole hblock)
  | cons first later =>
      rw [prefixedAll_cons, List.append_assoc] at h
      obtain ⟨rfl, rfl⟩ := prefixed_append_inj (hblocks first List.mem_cons_self) hblock h
      exact ⟨later, rfl, rfl⟩

end LengthPrefix
end Aa2acp
