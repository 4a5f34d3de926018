import Mathlib.Tactic
import Aa2acp.Lib.Framing

/-!
# One item a step

A loop that handles at most one item in each of its steps falls behind when several items
become available at once.  `paced limit step` counts what it has handled when `limit` counts
what has become available.  All of `count` items are handled in time exactly if, whatever
the number of last steps that are left aside, no more items than these steps are missing
before them (`le_paced_iff`).

What becomes available here are whole blocks of a stream that comes in pieces (`handled`).
-/

namespace Aa2acp
namespace Pacing

/-- One more in every step, as far as the limit allows. -/
def paced (limit : ℕ → ℕ) : ℕ → ℕ
  | 0 => 0
  | step + 1 => min (paced limit step + 1) (limit (step + 1))

theorem le_paced_iff {limit : ℕ → ℕ} {step count : ℕ} :
    count ≤ paced limit step ↔
      count ≤ step ∧ ∀ last < count, count - last ≤ limit (step - last) := by
  induction step generalizing count with
  | zero =>
      constructor
      · intro h
        obtain rfl : count = 0 := Nat.le_zero.mp h
        exact ⟨Nat.le_refl 0, fun last hlast => absurd hlast (Nat.not_lt_zero last)⟩
      · exact fun h => h.1
  | succ step ih =>
      cases count with
      | zero =>
          constructor
          · intro _
            exact ⟨Nat.zero_le _, fun last hlast => absurd hlast (Nat.not_lt_zero last)⟩
          · exact fun _ => Nat.zero_le _
      | succ count =>
          have hstep : count + 1 ≤ paced limit (step + 1) ↔
              count ≤ paced limit step ∧ count + 1 ≤ limit (step + 1) := by
            rw [paced, le_min_iff, Nat.add_le_add_iff_right]
          -- one step back both sides speak of the steps before
          rw [hstep, ih]
          constructor
          · rintro ⟨⟨hle, hbefore⟩, hnow⟩
            refine ⟨Nat.succ_le_succ hle, fun last hlast => ?_⟩
            -- the last step itself, or one of those before it
            cases last with
            | zero => exact hnow
            | succ last =>
                have hlimit := hbefore last (Nat.lt_of_succ_lt_succ hlast)
                rw [Nat.add_sub_add_right, Nat.add_sub_add_right]
                exact hlimit
          · rintro ⟨hle, hall⟩
            refine ⟨⟨Nat.le_of_succ_le_succ hle, fun last hlast => ?_⟩, hall 0 (Nat.succ_pos _)⟩
            have hlimit := hall (last + 1) (Nat.succ_lt_succ hlast)
            rw [Nat.add_sub_add_right, Nat.add_sub_add_right] at hlimit
            exact hlimit

theorem paced_succ_of_le {limit : ℕ → ℕ} {step : ℕ}
    (h : paced limit step + 1 ≤ limit (step + 1)) :
    paced limit (step + 1) = paced limit step + 1 := min_eq_left h

theorem paced_le_limit {limit : ℕ → ℕ} (step : ℕ) : paced limit step ≤ limit step := by
  cases step with
  | zero => exact Nat.zero_le _
  | succ step => exact min_le_right _ _

/-- Nothing is handled in a step when nothing more is available. -/
theorem paced_succ_of_lt {limit : ℕ → ℕ} (hmono : Monotone limit) {step : ℕ}
    (h : limit (step + 1) < paced limit step + 1) : paced limit (step + 1) = paced limit step := by
  have hlimit := (paced_le_limit step).trans (hmono (Nat.le_succ step))
  -- the limit has not grown, and it was reached before
  have heq : limit (step + 1) = paced limit step := Nat.le_antisymm (Nat.le_of_lt_succ h) hlimit
  rw [paced, heq]
  exact min_eq_right (Nat.le_succ _)

theorem paced_mono {limit : ℕ → ℕ} (hmono : Monotone limit) : Monotone (paced limit) := by
  apply monotone_nat_of_le_succ
  intro step
  exact le_min (Nat.le_succ _) ((paced_le_limit step).trans (hmono (Nat.le_succ step)))

variable {α : Type}

/-- How many of the blocks lie as a whole in the first `size` items of their stream. -/
def wholes : List (List α) → ℕ → ℕ
  | [], _ => 0
  | block :: blocks, size =>
      if block.length ≤ size then wholes blocks (size - block.length) + 1 else 0

theorem le_wholes_iff {blocks : List (List α)} {size count : ℕ} :
    count ≤ wholes blocks size ↔
      count ≤ blocks.length ∧ (blocks.take count).flatten.length ≤ size := by
  induction blocks generalizing size count with
  | nil =>
      rw [wholes, List.take_nil, List.flatten_nil, List.length_nil, List.length_nil]
      exact ⟨fun h => ⟨h, Nat.zero_le _⟩, fun h => h.1⟩
  | cons block blocks ih =>
      cases count with
      | zero => exact ⟨fun _ => ⟨Nat.zero_le _, Nat.zero_le _⟩, fun _ => Nat.zero_le _⟩
      | succ count =>
          rw [List.take_succ_cons, List.flatten_cons, List.length_append, List.length_cons,
            Nat.add_le_add_iff_right]
          unfold wholes
          split
          · rename_i hblock
            -- the first block lies within; the others have what it leaves
            rw [Nat.add_le_add_iff_right, ih]
            omega
          · rename_i hblock
            omega

theorem wholes_mono (blocks : List (List α)) : Monotone (wholes blocks) := by
  intro size size' h
  have hself := le_wholes_iff.mp (Nat.le_refl (wholes blocks size))
  exact le_wholes_iff.mpr ⟨hself.1, hself.2.trans h⟩

/-- Whole blocks and a proper part of the next one. -/
theorem wholes_of_awaits {first later : List (List α)} {tail : List α}
    (h : Framing.Awaits tail later) :
    wholes (first ++ later) (first.flatten ++ tail).length = first.length := by
  apply Nat.le_antisymm
  · apply Nat.le_of_not_lt
    intro hlt
    obtain ⟨hcount, hsize⟩ := le_wholes_iff.mp hlt
    cases later with
    | nil =>
        rw [List.append_nil] at hcount
        exact absurd hcount (Nat.not_succ_le_self _)
    | cons block later =>
        -- one block more would need the part that is missing
        obtain ⟨more, hmore, hblock⟩ := h
        have hpos : 0 < more.length := List.length_pos_iff.mpr hmore
        have htake : (first ++ block :: later).take (first.length + 1) = first ++ [block] := by
          rw [List.take_append, List.take_of_length_le (Nat.le_succ _), Nat.add_sub_cancel_left]
          rfl
        rw [htake, List.flatten_append, List.flatten_singleton, ← hblock, List.length_append,
          List.length_append, List.length_append] at hsize
        omega
  · apply le_wholes_iff.mpr
    rw [List.take_left, List.length_append, List.length_append]
    exact ⟨Nat.le_add_right _ _, Nat.le_add_right _ _⟩

/-! ## Blocks that come in pieces -/

section Schedule

variable (blocks pieces : List (List α))

/-- How many blocks have come whole with the first pieces. -/
def complete (count : ℕ) : ℕ := wholes blocks (pieces.take count).flatten.length

/-- How many blocks are handled when with every piece at most one is. -/
def handled (count : ℕ) : ℕ := paced (complete blocks pieces) count

/-- What is there with the next piece and does not belong to a block that was handled. -/
def waiting (count : ℕ) : List α :=
  (pieces.take (count + 1)).flatten.drop (blocks.take (handled blocks pieces count)).flatten.length

end Schedule

variable {blocks pieces : List (List α)} {count : ℕ}

theorem complete_mono (blocks pieces : List (List α)) : Monotone (complete blocks pieces) := by
  intro first second hle
  apply wholes_mono
  have hextends : (pieces.take first).flatten <+: (pieces.take second).flatten := by
    rw [← List.take_append_drop first (pieces.take second), List.take_take, min_eq_left hle,
      List.flatten_append]
    exact List.prefix_append _ _
  -- a longer stream has at least as many whole blocks
  exact hextends.length_le

/-- The handled blocks have come whole. -/
theorem handled_complete (blocks pieces : List (List α)) (count : ℕ) :
    handled blocks pieces count ≤ blocks.length ∧
      (blocks.take (handled blocks pieces count)).flatten.length ≤
        (pieces.take count).flatten.length :=
  le_wholes_iff.mp (paced_le_limit count)

section NextPiece

variable {piece : List α} {later : List (List α)}

theorem take_succ_of_drop {items : List α} {index : ℕ} {item : α} {later : List α}
    (h : items.drop index = item :: later) : items.take (index + 1) = items.take index ++ [item] := by
  rw [List.take_add, h]
  rfl

theorem drop_succ_of_cons {items : List α} {index : ℕ} {item : α} {later : List α}
    (h : items.drop index = item :: later) : items.drop (index + 1) = later := by
  rw [← List.drop_drop, h]
  rfl

theorem waiting_eq (hpiece : pieces.drop count = piece :: later) :
    waiting blocks pieces count = (pieces.take count).flatten.drop
      (blocks.take (handled blocks pieces count)).flatten.length ++ piece := by
  have hle := (handled_complete blocks pieces count).2
  unfold waiting
  rw [take_succ_of_drop hpiece, List.flatten_append, List.flatten_singleton,
    List.drop_append_of_le_length hle]

/-- What waits is the beginning of the blocks that are not handled. -/
theorem waiting_append (hsplit : pieces.flatten = blocks.flatten)
    (hpiece : pieces.drop count = piece :: later) :
    waiting blocks pieces count ++ later.flatten =
      (blocks.drop (handled blocks pieces count)).flatten := by
  have hle := (handled_complete blocks pieces count).2
  have hpieces : (pieces.take count).flatten ++ (piece ++ later.flatten) = blocks.flatten := by
    rw [← hsplit, ← List.flatten_cons, ← hpiece, ← List.flatten_append, List.take_append_drop]
  have hblocks : (blocks.take (handled blocks pieces count)).flatten ++
      (blocks.drop (handled blocks pieces count)).flatten = blocks.flatten := by
    rw [← List.flatten_append, List.take_append_drop]
  -- cut off what the handled blocks take from both ways to write the stream
  have hdrop := congrArg
    (List.drop (blocks.take (handled blocks pieces count)).flatten.length)
    (hpieces.trans hblocks.symm)
  rw [List.drop_left, List.drop_append_of_le_length hle] at hdrop
  rw [waiting_eq hpiece, List.append_assoc, hdrop]

variable {block : List α} {rest : List (List α)}

/-- The next block is complete with the next piece when what waits reaches its end. -/
theorem succ_le_complete (hrest : blocks.drop (handled blocks pieces count) = block :: rest) :
    handled blocks pieces count + 1 ≤ complete blocks pieces (count + 1) ↔
      block.length ≤ (waiting blocks pieces count).length := by
  have hlength := congrArg List.length hrest
  have htake := take_succ_of_drop hrest
  obtain ⟨hcount, hend⟩ := handled_complete blocks pieces count
  have hmono : (pieces.take count).flatten.length ≤ (pieces.take (count + 1)).flatten.length := by
    rw [List.take_add, List.flatten_append, List.length_append]
    exact Nat.le_add_right _ _
  rw [List.length_drop, List.length_cons] at hlength
  unfold complete
  rw [le_wholes_iff, htake, List.flatten_append, List.flatten_singleton, List.length_append]
  unfold waiting
  rw [List.length_drop]
  omega

theorem handled_of_whole (hrest : blocks.drop (handled blocks pieces count) = block :: rest)
    (h : block.length ≤ (waiting blocks pieces count).length) :
    handled blocks pieces (count + 1) = handled blocks pieces count + 1 :=
  paced_succ_of_le ((succ_le_complete hrest).mpr h)

theorem handled_of_part (hrest : blocks.drop (handled blocks pieces count) = block :: rest)
    (h : (waiting blocks pieces count).length < block.length) :
    handled blocks pieces (count + 1) = handled blocks pieces count := by
  apply paced_succ_of_lt (complete_mono blocks pieces)
  apply Nat.lt_of_not_le
  -- with another block handled, this one would be complete
  intro hle
  exact Nat.not_le.mpr h ((succ_le_complete hrest).mp hle)

end NextPiece

end Pacing
end Aa2acp
