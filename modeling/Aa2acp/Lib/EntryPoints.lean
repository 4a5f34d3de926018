import Mathlib.Data.List.Chain

/-!
# Sequences with entry points

Some items of a sequence stand on their own (`entry`), every other one builds on the item
directly before it.  A sequence is unbroken when it begins at an entry point and each
item that is not one follows the item before it.  Such a sequence can be broken off
anywhere, and taken up again at an entry point only.
-/

namespace Aa2acp
namespace EntryPoints

variable {α : Type} {entry : α → Prop} {follows : α → α → Prop} {xs ys : List α} {x : α}

structure Unbroken (entry : α → Prop) (follows : α → α → Prop) (xs : List α) : Prop where
  head : ∀ first ∈ xs.head?, entry first
  chain : xs.IsChain fun before after => follows before after ∨ entry after

instance [DecidablePred entry] [DecidableRel follows] (xs : List α) :
    Decidable (Unbroken entry follows xs) :=
  decidable_of_iff ((∀ first ∈ xs.head?, entry first) ∧
      xs.IsChain fun before after => follows before after ∨ entry after)
    ⟨fun h => ⟨h.1, h.2⟩, fun h => ⟨h.1, h.2⟩⟩

theorem unbroken_nil : Unbroken entry follows [] where
  head := by simp
  chain := List.isChain_nil

theorem unbroken_singleton (h : entry x) : Unbroken entry follows [x] where
  head := by simpa using h
  chain := List.isChain_singleton x

/-- Whatever is broken off, what came before is unbroken. -/
theorem Unbroken.left_of_append (h : Unbroken entry follows (xs ++ ys)) :
    Unbroken entry follows xs where
  head := by
    intro first hfirst
    refine h.head first ?_
    rw [List.head?_append, Option.mem_def.mp hfirst]
    rfl
  chain := h.chain.left_of_append

/-- A sequence can be taken up at an entry point. -/
theorem Unbroken.right_of_append (h : Unbroken entry follows (xs ++ ys))
    (hhead : ∀ first ∈ ys.head?, entry first) : Unbroken entry follows ys where
  head := hhead
  chain := h.chain.right_of_append

/-- One more item is an entry point, or follows the last one. -/
theorem unbroken_append_singleton_iff :
    Unbroken entry follows (xs ++ [x]) ↔
      Unbroken entry follows xs ∧ (entry x ∨ ∃ last ∈ xs.getLast?, follows last x) := by
  constructor
  · intro h
    refine ⟨h.left_of_append, ?_⟩
    have hchain := (List.isChain_append.mp h.chain).2.2
    cases hlast : xs.getLast? with
    | none =>
        rw [List.getLast?_eq_none_iff] at hlast
        subst hlast
        exact Or.inl (h.head x rfl)
    | some last =>
        rcases hchain last hlast x rfl with hfollows | hentry
        · exact Or.inr ⟨last, rfl, hfollows⟩
        · exact Or.inl hentry
  · rintro ⟨h, hitem⟩
    refine ⟨?_, h.chain.append (List.isChain_singleton x) ?_⟩
    · intro first hfirst
      cases xs with
      | nil =>
          cases hfirst
          rcases hitem with hentry | ⟨last, hlast, -⟩
          · exact hentry
          · cases hlast
      | cons other xs => exact h.head first hfirst
    · intro last hlast first hfirst
      cases hfirst
      rcases hitem with hentry | ⟨last', hlast', hfollows⟩
      · exact Or.inr hentry
      · rw [Option.mem_unique hlast hlast']
        exact Or.inl hfollows

end EntryPoints
end Aa2acp
