import Mathlib.Order.Bounds.Basic
import Mathlib.Data.Set.Insert

/-!
# Replay windows

A receiver of numbered packets that come in any order, some of them more than once, keeps
the highest number that has passed and a window of one bit for each of the numbers below
it.  A number passes when it is above the highest one, or within the window and not seen
(`Passes`).  The window is right (`Shows`) when its bits tell which numbers have passed; it
stays right when it is moved up to a higher number and when the bit of a lower one is set.
-/

namespace Aa2acp
namespace ReplayWindow

variable {width highest n : ℕ} {seen : ℕ → Bool} {passed : Set ℕ}

/-- The first number passes, and so does one above the highest, or not too far below it and
new. -/
def Passes (width : ℕ) (passed : Set ℕ) (n : ℕ) : Prop :=
  passed = ∅ ∨ ∃ highest, IsGreatest passed highest ∧
    (highest < n ∨ n ≤ highest ∧ highest - n < width ∧ n ∉ passed)

/-- Bit `d` of the window stands for the number `d` below the highest. -/
structure Shows (width highest : ℕ) (seen : ℕ → Bool) (passed : Set ℕ) : Prop where
  greatest : IsGreatest passed highest
  bits : ∀ d < width, seen d = true ↔ ∃ n ∈ passed, n + d = highest

theorem passes_of_empty (h : passed = ∅) : Passes width passed n := Or.inl h

namespace Shows

theorem passes_iff (h : Shows width highest seen passed) :
    Passes width passed n ↔
      highest < n ∨ n ≤ highest ∧ highest - n < width ∧ seen (highest - n) = false := by
  have hbit : n ≤ highest → highest - n < width → (seen (highest - n) = false ↔ n ∉ passed) := by
    intro hle hlt
    rw [← Bool.not_eq_true, h.bits _ hlt]
    constructor
    · intro hnot hmem
      exact hnot ⟨n, hmem, by omega⟩
    · rintro hnot ⟨m, hmem, hsum⟩
      have hsame : m = n := by omega
      exact hnot (hsame ▸ hmem)
  constructor
  · rintro (hempty | ⟨other, hother, hcases⟩)
    · have hmem := h.greatest.1
      rw [hempty] at hmem
      exact absurd hmem (Set.notMem_empty highest)
    · obtain rfl := hother.unique h.greatest
      rcases hcases with hlt | ⟨hle, hnear, hnew⟩
      · exact Or.inl hlt
      · exact Or.inr ⟨hle, hnear, (hbit hle hnear).mpr hnew⟩
  · rintro (hlt | ⟨hle, hnear, hnew⟩)
    · exact Or.inr ⟨highest, h.greatest, Or.inl hlt⟩
    · exact Or.inr ⟨highest, h.greatest, Or.inr ⟨hle, hnear, (hbit hle hnear).mp hnew⟩⟩

/-- The window after the first number. -/
theorem first (hseen : ∀ d < width, seen d = true ↔ d = 0) : Shows width n seen {n} := by
  constructor
  · exact isGreatest_singleton
  · intro d hd
    rw [hseen d hd]
    constructor
    · rintro rfl
      exact ⟨n, rfl, rfl⟩
    · rintro ⟨m, rfl, hsum⟩
      omega

/-- The window moves up to a higher number; what was at a distance is further away now. -/
theorem advance {seen' : ℕ → Bool} (h : Shows width highest seen passed) (hlt : highest < n)
    (hseen : ∀ d < width,
      seen' d = true ↔ d = 0 ∨ n - highest ≤ d ∧ seen (d - (n - highest)) = true) :
    Shows width n seen' (insert n passed) := by
  have hbelow : ∀ m ∈ passed, m ≤ highest := fun m hm => h.greatest.2 hm
  constructor
  · constructor
    · exact Set.mem_insert n passed
    · rintro m (rfl | hm)
      · exact Nat.le_refl m
      · exact (hbelow m hm).trans (Nat.le_of_lt hlt)
  · intro d hd
    rw [hseen d hd]
    constructor
    · rintro (rfl | ⟨hfar, hbit⟩)
      · exact ⟨n, Set.mem_insert n passed, rfl⟩
      · obtain ⟨m, hm, hsum⟩ := (h.bits _ (by omega)).mp hbit
        exact ⟨m, Set.mem_insert_of_mem n hm, by omega⟩
    · rintro ⟨m, rfl | hm, hsum⟩
      · exact Or.inl (by omega)
      · have hle := hbelow m hm
        exact Or.inr ⟨by omega, (h.bits _ (by omega)).mpr ⟨m, hm, by omega⟩⟩

/-- A number below the highest one gets its bit. -/
theorem mark {seen' : ℕ → Bool} (h : Shows width highest seen passed) (hle : n ≤ highest)
    (hseen : ∀ d < width, seen' d = true ↔ d = highest - n ∨ seen d = true) :
    Shows width highest seen' (insert n passed) := by
  constructor
  · constructor
    · exact Set.mem_insert_of_mem n h.greatest.1
    · rintro m (rfl | hm)
      · exact hle
      · exact h.greatest.2 hm
  · intro d hd
    rw [hseen d hd, h.bits d hd]
    constructor
    · rintro (rfl | ⟨m, hm, hsum⟩)
      · exact ⟨n, Set.mem_insert n passed, by omega⟩
      · exact ⟨m, Set.mem_insert_of_mem n hm, hsum⟩
    · rintro ⟨m, rfl | hm, hsum⟩
      · exact Or.inl (by omega)
      · exact Or.inr ⟨m, hm, hsum⟩

end Shows

/-- What passes has not passed before. -/
theorem Passes.notMem (h : Passes width passed n) : n ∉ passed := by
  rcases h with hempty | ⟨highest, hhighest, hlt | ⟨-, -, hnew⟩⟩
  · rw [hempty]
    exact Set.notMem_empty n
  · intro hmem
    exact absurd (hhighest.2 hmem) (Nat.not_le.mpr hlt)
  · exact hnew

end ReplayWindow
end Aa2acp
