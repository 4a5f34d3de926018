import Mathlib.Algebra.Group.Basic
import Mathlib.Data.List.Range
import Mathlib.Data.List.Nodup

/-!
# Serial numbers

Counters that wrap around at an even modulus, and the comparison that takes the
half-range ahead of a number as "not before it".  The comparison is right as long as
the numbers in use lie within half the range: a cumulative acknowledgement of a
contiguous run of at most that many numbers removes a prefix of the run.
-/

namespace Aa2acp

/-- A type of counters modulo `2 * half`. -/
class SerialNumber (S : Type*) [AddCommGroup S] where
  half : ℕ
  number : ℕ → S
  value : S → ℕ
  number_add (a b : ℕ) : number (a + b) = number a + number b
  value_number (n : ℕ) : value (number n) = n % (2 * half)
  number_value (s : S) : number (value s) = s

namespace SerialNumber

variable {S : Type*} [AddCommGroup S] [SerialNumber S]

@[simp] theorem number_zero : number 0 = (0 : S) := by
  have h : number (0 + 0) = number 0 + (number 0 : S) := number_add 0 0
  exact left_eq_add.mp h

theorem number_mod (n : ℕ) : number (n % (2 * half S)) = (number n : S) := by
  rw [← value_number (S := S) n, number_value]

/-- A whole turn is nothing. -/
theorem number_turn : number (2 * half S) = (0 : S) := by
  rw [← number_mod, Nat.mod_self, number_zero]

theorem value_number_of_lt {n : ℕ} (h : n < 2 * half S) : value (number n : S) = n := by
  rw [value_number, Nat.mod_eq_of_lt h]

/-- Going back by `n` is going forward by the rest of the turn. -/
theorem neg_number {n : ℕ} (h : n ≤ 2 * half S) :
    -(number n : S) = number (2 * half S - n) := by
  have hsum : number (2 * half S - n) + (number n : S) = 0 := by
    rw [← number_add, Nat.sub_add_cancel h, number_turn]
  exact neg_eq_of_add_eq_zero_left hsum

/-- `mark` is at or after `s`, as far as half a turn tells. -/
def reached (s mark : S) : Bool := decide (value (mark - s) < half S)

theorem reached_add (s : S) {n : ℕ} (h : n < half S) : reached s (s + number n) = true := by
  unfold reached
  rw [add_sub_cancel_left, value_number_of_lt (by omega)]
  exact decide_eq_true h

theorem not_reached_add (mark : S) {n : ℕ} (hpos : 0 < n) (h : n ≤ half S) :
    reached (mark + number n) mark = false := by
  have hback : mark - (mark + number n) = (number (2 * half S - n) : S) := by
    rw [← neg_number (by omega)]
    simp
  unfold reached
  rw [hback, value_number_of_lt (by omega)]
  exact decide_eq_false (by omega)

/-- Less than a whole turn ahead is somewhere else. -/
theorem add_number_ne (s : S) {n : ℕ} (hpos : 0 < n) (h : n < 2 * half S) :
    s + number n ≠ s := by
  intro heq
  have hzero : (number n : S) = 0 := left_eq_add.mp heq.symm
  have hvalue := congrArg value hzero
  rw [← number_zero, value_number_of_lt h, value_number_of_lt (by omega)] at hvalue
  omega

/-! ## Contiguous runs -/

/-- The `n` numbers from `first` on. -/
def consecutive (first : S) (n : ℕ) : List S :=
  (List.range n).map fun index => first + number index

@[simp] theorem length_consecutive (first : S) (n : ℕ) : (consecutive first n).length = n := by
  simp [consecutive]

@[simp] theorem consecutive_zero (first : S) : consecutive first 0 = [] := rfl

theorem consecutive_add (first : S) (m n : ℕ) :
    consecutive first (m + n) = consecutive first m ++ consecutive (first + number m) n := by
  unfold consecutive
  rw [List.range_add, List.map_append, List.map_map, List.append_cancel_left_eq]
  refine List.map_congr_left ?_
  intro index _
  show first + number (m + index) = first + number m + number index
  rw [number_add, add_assoc]

theorem consecutive_succ (first : S) (n : ℕ) :
    consecutive first (n + 1) = consecutive first n ++ [first + number n] := by
  rw [consecutive_add]
  simp [consecutive]

/-- A mark `m` numbers into a run of at most half a turn has been reached by exactly
the first `m` of them. -/
theorem reached_consecutive {first mark : S} {m index : ℕ} (hm : m ≤ half S)
    (hindex : index < half S) (hmark : mark + number 1 = first + number m) :
    reached (first + number index) mark = decide (index < m) := by
  by_cases h : index < m
  · have hdistance : mark = first + number index + number (m - 1 - index) := by
      have hsplit : first + number index + number (m - 1 - index) + (number 1 : S) =
          first + number m := by
        rw [add_assoc, add_assoc, ← number_add, ← number_add]
        congr 2
        omega
      exact add_right_cancel (hmark.trans hsplit.symm)
    rw [decide_eq_true h, hdistance]
    exact reached_add _ (by omega)
  · have hdistance : first + number index = mark + number (index - m + 1) := by
      rw [Nat.add_comm, number_add, ← add_assoc, hmark, add_assoc, ← number_add]
      congr 2
      omega
    rw [decide_eq_false h, hdistance]
    exact not_reached_add mark (by omega) (by omega)

/-- A cumulative acknowledgement within a window of at most half a turn removes a
prefix of the window. -/
theorem filter_not_reached {α : Type*} (key : α → S) {window : List α} {first mark : S} {m : ℕ}
    (hwindow : window.map key = consecutive first window.length)
    (hlength : window.length ≤ half S) (hm : m ≤ window.length)
    (hmark : mark + number 1 = first + number m) :
    window.filter (fun item => !reached (key item) mark) = window.drop m := by
  have hkey (index : ℕ) (hindex : index < window.length) :
      key window[index] = first + number index := by
    have hget := congrArg (·[index]?) hwindow
    simpa [consecutive, hindex] using hget
  have hreached (index : ℕ) (hindex : index < window.length) :
      reached (key window[index]) mark = decide (index < m) := by
    rw [hkey index hindex]
    exact reached_consecutive (by omega) (by omega) hmark
  have hfront : (window.take m).filter (fun item => !reached (key item) mark) = [] := by
    rw [List.filter_eq_nil_iff]
    intro item hitem
    obtain ⟨index, hindex, rfl⟩ := List.getElem_of_mem hitem
    rw [List.length_take] at hindex
    rw [List.getElem_take, hreached index (by omega), decide_eq_true (by omega)]
    simp
  have hback : (window.drop m).filter (fun item => !reached (key item) mark) =
      window.drop m := by
    rw [List.filter_eq_self]
    intro item hitem
    obtain ⟨index, hindex, rfl⟩ := List.getElem_of_mem hitem
    rw [List.length_drop] at hindex
    rw [List.getElem_drop, hreached (m + index) (by omega), decide_eq_false (by omega)]
    rfl
  calc window.filter (fun item => !reached (key item) mark)
      = (window.take m ++ window.drop m).filter (fun item => !reached (key item) mark) := by
        rw [List.take_append_drop]
    _ = window.drop m := by rw [List.filter_append, hfront, hback, List.nil_append]

end SerialNumber
end Aa2acp
