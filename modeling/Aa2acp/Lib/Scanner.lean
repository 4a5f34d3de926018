import Mathlib.Data.List.Basic

/-!
# Scanners

A scanner reads a stream of which only a prefix has arrived.  It looks at what is
there and either takes some of it or waits for more; what it takes may depend only on
what it has seen.  Then it does not matter how the stream was cut into chunks: feeding
the chunks one by one ends in the same state, with the same items left over, as
feeding all of them at once.
-/

namespace Aa2acp

structure Scanner (S α : Type) where
  /-- How many items are taken and the state after that, or `none` to wait. -/
  look : S → List α → Option (ℕ × S)
  /-- A look that takes something takes at least one of the items there. -/
  progress : ∀ {s items n s'}, look s items = some (n, s') → 0 < n ∧ n ≤ items.length
  /-- Items that arrive later do not change what was taken. -/
  stable : ∀ {s items n s'} (more : List α),
    look s items = some (n, s') → look s (items ++ more) = some (n, s')

namespace Scanner

variable {S α : Type} (scanner : Scanner S α)

/-- Look until the scanner waits: the state reached and the items left. -/
def drain (s : S) (items : List α) : S × List α :=
  match _h : scanner.look s items with
  | none => (s, items)
  | some (n, s') => drain s' (items.drop n)
termination_by items.length
decreasing_by
  have hprogress := scanner.progress _h
  rw [List.length_drop]
  omega

theorem drain_of_none {s : S} {items : List α} (h : scanner.look s items = none) :
    scanner.drain s items = (s, items) := by
  rw [drain]
  split
  · rfl
  · rename_i hsome
    rw [h] at hsome
    cases hsome

theorem drain_of_some {s s' : S} {items : List α} {n : ℕ}
    (h : scanner.look s items = some (n, s')) :
    scanner.drain s items = scanner.drain s' (items.drop n) := by
  rw [drain]
  split
  · rename_i hnone
    rw [h] at hnone
    cases hnone
  · rename_i hsome
    rw [h] at hsome
    cases hsome
    rfl

/-- What is left over does not have to be looked at again. -/
theorem drain_append (s : S) (items more : List α) :
    scanner.drain s (items ++ more) =
      scanner.drain (scanner.drain s items).1 ((scanner.drain s items).2 ++ more) := by
  induction hlength : items.length using Nat.strongRecOn generalizing s items with
  | ind length ih =>
      cases hlook : scanner.look s items with
      | none => rw [scanner.drain_of_none hlook]
      | some taken =>
          obtain ⟨n, s'⟩ := taken
          obtain ⟨hpos, hle⟩ := scanner.progress hlook
          have hshorter : (items.drop n).length < length := by
            rw [List.length_drop]
            omega
          rw [scanner.drain_of_some (scanner.stable more hlook), scanner.drain_of_some hlook,
            List.drop_append_of_le_length hle]
          exact ih _ hshorter s' (items.drop n) rfl

/-- Chunks fed one after the other. -/
def feed (start : S × List α) (chunks : List (List α)) : S × List α :=
  chunks.foldl (fun current chunk => scanner.drain current.1 (current.2 ++ chunk)) start

/-- Feeding chunks is draining their concatenation. -/
theorem feed_eq_drain (s : S) (items : List α) (chunks : List (List α)) :
    scanner.feed (scanner.drain s items) chunks =
      scanner.drain s (items ++ chunks.flatten) := by
  induction chunks generalizing s items with
  | nil => rw [List.flatten_nil, List.append_nil]; rfl
  | cons chunk chunks ih =>
      rw [List.flatten_cons, ← List.append_assoc, ← ih s (items ++ chunk),
        scanner.drain_append s items chunk]
      rfl

/-- A state that takes items one by one and stays takes everything. -/
theorem drain_of_discards {s : S} (items : List α)
    (h : ∀ item rest, scanner.look s (item :: rest) = some (1, s))
    (hnil : scanner.look s [] = none) : scanner.drain s items = (s, []) := by
  induction items with
  | nil => exact scanner.drain_of_none hnil
  | cons item rest ih =>
      rw [scanner.drain_of_some (h item rest)]
      exact ih

end Scanner
end Aa2acp
