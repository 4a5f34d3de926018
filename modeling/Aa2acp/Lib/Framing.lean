import Mathlib.Data.List.Basic

/-!
# Blocks of a stream

A stream is the concatenation of blocks, none of them empty.  Wherever it is cut, what
has arrived consists of whole blocks and a proper part of the next one (`Awaits`).  A
reader that takes whole blocks as long as there are any is left with that part.
-/

namespace Aa2acp
namespace Framing

variable {α : Type}

/-- The buffer holds a proper part of the first of these blocks, or nothing. -/
def Awaits (buffer : List α) : List (List α) → Prop
  | [] => buffer = []
  | block :: _ => ∃ more, more ≠ [] ∧ buffer ++ more = block

theorem awaits_nil {blocks : List (List α)} (h : ∀ block ∈ blocks, block ≠ []) :
    Awaits [] blocks := by
  cases blocks with
  | nil => rfl
  | cons block blocks => exact ⟨block, h block List.mem_cons_self, List.nil_append _⟩

/-- The block at the front of a stream has arrived as a whole, or a proper part of it has. -/
theorem whole_or_part {buffer later block rest : List α} (h : buffer ++ later = block ++ rest) :
    (∃ more, buffer = block ++ more ∧ more ++ later = rest) ∨
      ∃ more, more ≠ [] ∧ buffer ++ more = block ∧ later = more ++ rest := by
  rcases List.append_eq_append_iff.mp h with ⟨more, hblock, hlater⟩ | ⟨more, hbuffer, hrest⟩
  · by_cases hnil : more = []
    · -- the buffer ends right behind the block
      rw [hnil, List.append_nil] at hblock
      rw [hnil, List.nil_append] at hlater
      exact Or.inl ⟨[], by rw [List.append_nil, hblock], hlater⟩
    · exact Or.inr ⟨more, hnil, hblock.symm, hlater⟩
  · exact Or.inl ⟨more, hbuffer, hrest.symm⟩

/-- What has arrived of a stream: whole blocks, and a proper part of the next one. -/
theorem cut_flatten {blocks : List (List α)} (h : ∀ block ∈ blocks, block ≠ [])
    {first rest : List α} (hsplit : first ++ rest = blocks.flatten) :
    ∃ now later tail, blocks = now ++ later ∧ first = now.flatten ++ tail ∧
      tail ++ rest = later.flatten ∧ Awaits tail later := by
  induction blocks generalizing first with
  | nil =>
      have hnil : first = [] ∧ rest = [] := List.append_eq_nil_iff.mp hsplit
      exact ⟨[], [], [], rfl, hnil.1, hnil.2, rfl⟩
  | cons block blocks ih =>
      have hlater : ∀ other ∈ blocks, other ≠ [] := fun other hother =>
        h other (List.mem_cons_of_mem _ hother)
      rw [List.flatten_cons] at hsplit
      rcases whole_or_part hsplit with ⟨more, hfirst, hmore⟩ | ⟨more, hnil, hblock, -⟩
      · obtain ⟨now, later, tail, rfl, hcut, htail, hawaits⟩ := ih hlater hmore
        refine ⟨block :: now, later, tail, rfl, ?_, htail, hawaits⟩
        rw [hfirst, hcut, List.flatten_cons, List.append_assoc]
      · exact ⟨[], block :: blocks, first, rfl, rfl, by rw [List.flatten_cons, hsplit],
          more, hnil, hblock⟩

/-- Nothing is left of a stream that has arrived whole. -/
theorem Awaits.eq_nil {blocks : List (List α)} {buffer : List α} (h : Awaits buffer blocks)
    (hflatten : buffer = blocks.flatten) : buffer = [] ∧ blocks = [] := by
  cases blocks with
  | nil => exact ⟨h, rfl⟩
  | cons block blocks =>
      obtain ⟨more, hmore, hblock⟩ := h
      have hpos : 0 < more.length := List.length_pos_iff.mpr hmore
      have hlength := congrArg List.length hflatten
      rw [List.flatten_cons, ← hblock, List.length_append, List.length_append] at hlength
      omega

end Framing
end Aa2acp
