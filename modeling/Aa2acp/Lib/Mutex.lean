import Mathlib.Tactic

/-!
# Mutexes

A mutex says who has it, if anyone.  `Guards` says that exactly this one is inside a section
that the mutex guards; a thread that enters takes the mutex, and one that leaves gives it back.
-/

namespace Aa2acp
namespace Mutex

variable {Holder : Type} {mutex : Option Holder} {inside inside' : Holder → Prop}
  {holder other : Holder}

/-- Exactly the one that has the mutex is inside. -/
def Guards (mutex : Option Holder) (inside : Holder → Prop) : Prop :=
  ∀ holder, mutex = some holder ↔ inside holder

namespace Guards

theorem exclusive (h : Guards mutex inside) (hholder : inside holder) (hother : inside other) :
    holder = other := by
  have hsome := (h holder).mpr hholder
  rw [(h other).mpr hother] at hsome
  exact (Option.some.inj hsome).symm

/-- While the mutex is free, nobody is inside. -/
theorem outside (h : Guards none inside) (holder : Holder) : ¬ inside holder := by
  intro hinside
  cases (h holder).mpr hinside

theorem free (h : Guards mutex inside) (hnobody : ∀ holder, ¬ inside holder) : mutex = none := by
  cases hmutex : mutex with
  | none => rfl
  | some holder => exact absurd ((h holder).mp hmutex) (hnobody holder)

theorem congr (h : Guards mutex inside) (hsame : ∀ other, inside' other ↔ inside other) :
    Guards mutex inside' :=
  fun other => (h other).trans (hsame other).symm

theorem lock (h : Guards none inside)
    (hentered : ∀ other, inside' other ↔ other = holder ∨ inside other) :
    Guards (some holder) inside' := by
  intro other
  rw [hentered, Option.some.injEq, eq_comm]
  exact ⟨Or.inl, fun hother => hother.resolve_right (h.outside other)⟩

theorem unlock (h : Guards mutex inside) (hinside : inside holder)
    (hleft : ∀ other, inside' other ↔ other ≠ holder ∧ inside other) :
    Guards none inside' := by
  intro other
  rw [hleft]
  constructor
  · intro hnone
    cases hnone
  · rintro ⟨hne, hother⟩
    exact absurd (h.exclusive hother hinside) hne

/-! One thread takes a step; `P` says whether it is inside after it. -/

section step

variable {P : Prop}
  (hstep : ∀ other, inside' other ↔ other = holder ∧ P ∨ other ≠ holder ∧ inside other)
include hstep

theorem enter (h : Guards none inside) (hinside : P) : Guards (some holder) inside' :=
  h.lock fun other => by
    rw [hstep]
    tauto

theorem leave (h : Guards mutex inside) (hinside : inside holder) (houtside : ¬ P) :
    Guards none inside' :=
  h.unlock hinside fun other => by
    rw [hstep]
    tauto

theorem apart (h : Guards mutex inside) (hbefore : ¬ inside holder) (hafter : ¬ P) :
    Guards mutex inside' :=
  h.congr fun other => by
    rw [hstep]
    constructor
    · rintro (⟨-, hinside⟩ | ⟨-, hother⟩)
      · exact absurd hinside hafter
      · exact hother
    · intro hother
      refine Or.inr ⟨?_, hother⟩
      rintro rfl
      exact hbefore hother

end step

end Guards
end Mutex
end Aa2acp
