import Mathlib.Tactic

/-!
# Monitored computations

A computation on machine words and byte strings in which every step is watched: sums,
differences, products and shifts must stay below the number of values of a word, and an
element may be read only where there is one.  A monitored run that ends without a fault
is therefore a proof that none of its steps went wrong.
-/

namespace Aa2acp

inductive Fault where
  /-- There is no element at this index. -/
  | outside (index : ℕ)
  /-- A result does not fit a word. -/
  | wrapped
  | dividedByZero
  /-- A recursion went deeper than it may. -/
  | tooDeep
  /-- More was used of something than may be. -/
  | tooMany
deriving DecidableEq, Repr

abbrev Checked := Except Fault

namespace Checked

variable {α β : Type} {word a b : ℕ}

@[simp] theorem ok_bind (value : α) (f : α → Checked β) :
    ((.ok value : Checked α) >>= f) = f value := rfl

def add (word a b : ℕ) : Checked ℕ := if a + b < word then .ok (a + b) else .error .wrapped

def sub (a b : ℕ) : Checked ℕ := if b ≤ a then .ok (a - b) else .error .wrapped

def mul (word a b : ℕ) : Checked ℕ := if a * b < word then .ok (a * b) else .error .wrapped

def div (a b : ℕ) : Checked ℕ := if b = 0 then .error .dividedByZero else .ok (a / b)

/-- A one, shifted to the left. -/
def bit (word shift : ℕ) : Checked ℕ := if 2 ^ shift < word then .ok (2 ^ shift) else .error .wrapped

/-- The element at this index. -/
def item (items : List α) (index : ℕ) : Checked α :=
  match items[index]? with
  | some element => .ok element
  | none => .error (.outside index)

/-- `count` elements from `offset` on. -/
def slice (word : ℕ) (items : List α) (offset count : ℕ) : Checked (List α) := do
  let stop ← add word offset count
  if stop ≤ items.length then .ok ((items.drop offset).take count) else .error (.outside stop)

/-- No more than `limit` may be used. -/
def atMost (limit count : ℕ) : Checked ℕ := if count ≤ limit then .ok count else .error .tooMany

theorem add_eq (h : a + b < word) : add word a b = .ok (a + b) := if_pos h

theorem sub_eq (h : b ≤ a) : sub a b = .ok (a - b) := if_pos h

theorem mul_eq (h : a * b < word) : mul word a b = .ok (a * b) := if_pos h

theorem div_eq (h : b ≠ 0) : div a b = .ok (a / b) := if_neg h

theorem bit_eq {shift : ℕ} (h : 2 ^ shift < word) : bit word shift = .ok (2 ^ shift) := if_pos h

theorem atMost_eq {limit count : ℕ} (h : count ≤ limit) : atMost limit count = .ok count := if_pos h

theorem item_eq (fallback : α) {items : List α} {index : ℕ} (h : index < items.length) :
    item items index = .ok (items.getD index fallback) := by
  unfold item
  rw [List.getD_eq_getElem?_getD, List.getElem?_eq_getElem h]
  rfl

theorem slice_eq {items : List α} {offset count : ℕ} (hword : offset + count < word)
    (h : offset + count ≤ items.length) :
    slice word items offset count = .ok ((items.drop offset).take count) := by
  unfold slice
  rw [add_eq hword, ok_bind, if_pos h]

end Checked
end Aa2acp
