import Mathlib.Tactic

/-!
# Blocks with a header

A block is a header of a fixed length, which tells the size of what follows, and the payload.
Blocks that tell their size (`Tells`) can be read off a stream of them, and a stream that breaks
off yields the blocks that are there as a whole and no other (`read_take`).
-/

namespace Aa2acp
namespace HeaderFraming

variable {α : Type}

/-- A header and what follows it. -/
abbrev Block (α : Type) := List α × List α

/-- The items of the blocks, one block after the other. -/
def stream (blocks : List (Block α)) : List α := blocks.flatMap fun block => block.1 ++ block.2

@[simp] theorem stream_nil : stream ([] : List (Block α)) = [] := rfl

@[simp] theorem stream_cons (block : Block α) (blocks : List (Block α)) :
    stream (block :: blocks) = block.1 ++ block.2 ++ stream blocks := List.flatMap_cons

@[simp] theorem stream_append (blocks others : List (Block α)) :
    stream (blocks ++ others) = stream blocks ++ stream others := List.flatMap_append

variable (headerLength : ℕ) (size : List α → ℕ)

/-- The blocks that have arrived as a whole. -/
def read (hpos : 0 < headerLength) (items : List α) : List (Block α) :=
  if headerLength + size (items.take headerLength) ≤ items.length then
    (items.take headerLength, (items.drop headerLength).take (size (items.take headerLength))) ::
      read hpos (items.drop (headerLength + size (items.take headerLength)))
  else []
termination_by items.length
decreasing_by
  rw [List.length_drop]
  omega

/-- The header has the right length and tells how long the payload is. -/
structure Tells (block : Block α) : Prop where
  header : block.1.length = headerLength
  size : size block.1 = block.2.length

variable {headerLength size} {hpos : 0 < headerLength} {block : Block α} {blocks : List (Block α)}

theorem read_of_short {items : List α}
    (h : items.length < headerLength + size (items.take headerLength)) :
    read headerLength size hpos items = [] := by
  rw [read, if_neg (Nat.not_le.mpr h)]

theorem read_append (h : Tells headerLength size block) (rest : List α) :
    read headerLength size hpos (block.1 ++ block.2 ++ rest) =
      block :: read headerLength size hpos rest := by
  have hheader : (block.1 ++ block.2 ++ rest).take headerLength = block.1 := by
    rw [List.append_assoc]
    exact List.take_left' h.header
  have hpayload : ((block.1 ++ block.2 ++ rest).drop headerLength).take block.2.length = block.2 := by
    rw [List.append_assoc, List.drop_left' h.header, List.take_left]
  have hrest : (block.1 ++ block.2 ++ rest).drop (headerLength + block.2.length) = rest :=
    List.drop_left' (by rw [List.length_append, h.header])
  rw [read, hheader, h.size, if_pos (by simp [h.header]), hpayload, hrest]

/-- A block that breaks off is not read. -/
theorem read_part (h : Tells headerLength size block) {count : ℕ}
    (hcount : count < block.1.length + block.2.length) :
    read headerLength size hpos ((block.1 ++ block.2).take count) = [] := by
  apply read_of_short
  rw [List.length_take, List.length_append, Nat.min_eq_left hcount.le]
  by_cases hshort : count < headerLength
  · exact Nat.lt_add_right _ hshort
  · have hheader : ((block.1 ++ block.2).take count).take headerLength = block.1 := by
      rw [List.take_take, Nat.min_eq_left (Nat.not_lt.mp hshort)]
      exact List.take_left' h.header
    rw [hheader, h.size, ← h.header]
    exact hcount

/-- Of a stream that was cut, the first blocks are read, and all of them if it is whole. -/
theorem read_take (h : ∀ block ∈ blocks, Tells headerLength size block) (count : ℕ) :
    ∃ whole, read headerLength size hpos ((stream blocks).take count) = blocks.take whole ∧
      ((stream blocks).length ≤ count → whole = blocks.length) := by
  induction blocks generalizing count with
  | nil => exact ⟨0, by rw [stream_nil, List.take_nil, read_of_short (by simp; omega)]; rfl, fun _ => rfl⟩
  | cons block blocks ih =>
      obtain ⟨hblock, hblocks⟩ := List.forall_mem_cons.mp h
      rw [stream_cons, List.length_append, List.length_append]
      by_cases hcount : count < block.1.length + block.2.length
      · refine ⟨0, ?_, fun hall => by omega⟩
        rw [List.take_append_of_le_length (by rw [List.length_append]; exact hcount.le)]
        exact read_part hblock hcount
      · obtain ⟨whole, hread, hall⟩ := ih hblocks (count - (block.1.length + block.2.length))
        have hcut : (block.1 ++ block.2 ++ stream blocks).take count =
            block.1 ++ block.2 ++ (stream blocks).take (count - (block.1.length + block.2.length)) := by
          rw [List.take_append, List.take_of_length_le (by rw [List.length_append]; omega),
            List.length_append]
        refine ⟨whole + 1, ?_, fun hlength => ?_⟩
        · rw [hcut, read_append hblock, hread, List.take_succ_cons]
        · rw [hall (by omega), List.length_cons]

end HeaderFraming
end Aa2acp
