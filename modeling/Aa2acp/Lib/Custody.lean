import Aa2acp.Lib.Machine
import Mathlib.Tactic

/-!
# Custody of things with recycled numbers

Things are known by numbers, and a number is given again as soon as it is free: a table
says what each number stands for at present (`Ledger.held`), one of our things or one of a
stranger.  The history lists every act on a number together with what the number stood for.

`Kept` says that every thing of ours is in one place, in a phase of its life, for as long as
it has a number, that the acts on it were a life (a run of the automaton `step`), and that no
act hit anything else.  There is one rule for each thing that can be done to a ledger; they
ask only that the act is possible in the phase in which the place holds the thing.
-/

namespace Aa2acp
namespace Custody

/-- What a number stands for. -/
inductive Owner where
  | ours (id : ℕ)
  | stranger
deriving DecidableEq, Repr

/-- An act on a number, and what that stood for; `none` when it was free. -/
structure Entry (Act : Type) where
  act : Act
  number : ℕ
  hit : Option Owner
deriving DecidableEq, Repr

structure Ledger (Act : Type) where
  held : ℕ → Option Owner := fun _ => none
  /-- How many things of ours there were; they are numbered in this order. -/
  born : ℕ := 0
  history : List (Entry Act) := []

variable {Act Phase Place : Type}

namespace Ledger

/-- An act on whatever the number stands for. -/
def touch (number : ℕ) (act : Act) (l : Ledger Act) : Ledger Act :=
  { l with history := l.history ++ [⟨act, number, l.held number⟩] }

/-- A new thing gets the number. -/
def acquire (number : ℕ) (act : Act) (l : Ledger Act) : Ledger Act where
  held := Function.update l.held number (some (.ours l.born))
  born := l.born + 1
  history := l.history ++ [⟨act, number, some (.ours l.born)⟩]

/-- The last act on the number, which is free then. -/
def release (number : ℕ) (act : Act) (l : Ledger Act) : Ledger Act :=
  { l.touch number act with held := Function.update l.held number none }

/-- A stranger gets the number, or gives it back. -/
def strangers (number : ℕ) (owner : Option Owner) (l : Ledger Act) : Ledger Act :=
  { l with held := Function.update l.held number owner }

end Ledger

/-- The acts on one of our things. -/
def actsOn (id : ℕ) (history : List (Entry Act)) : List Act :=
  history.filterMap fun entry => if entry.hit = some (.ours id) then some entry.act else none

theorem actsOn_append (id : ℕ) (history more : List (Entry Act)) :
    actsOn id (history ++ more) = actsOn id history ++ actsOn id more := List.filterMap_append

theorem actsOn_same (id : ℕ) (act : Act) (number : ℕ) :
    actsOn id [⟨act, number, some (.ours id)⟩] = [act] := by
  simp [actsOn]

/-- What is done to another thing. -/
theorem actsOn_append_other {id other : ℕ} (h : other ≠ id) (history : List (Entry Act))
    (act : Act) (number : ℕ) :
    actsOn id (history ++ [⟨act, number, some (.ours other)⟩]) = actsOn id history := by
  have hnone : actsOn id [⟨act, number, some (.ours other)⟩] = ([] : List Act) := by
    simp [actsOn, h]
  rw [actsOn_append, hnone, List.append_nil]

variable (step : Act → Phase → Option Phase) (start gone : Phase)

/-- The acts on a thing were a life that has come to this phase. -/
def Lives (history : List (Entry Act)) (id : ℕ) (phase : Phase) : Prop :=
  Machine.run step (actsOn id history) start = some phase

structure Kept (holds : Place → ℕ → Phase → Prop) (l : Ledger Act) : Prop where
  one : ∀ {place other number phase now}, holds place number phase → holds other number now →
    place = other ∧ phase = now
  held : ∀ {number id}, l.held number = some (.ours id) → ∃ place phase, holds place number phase
  life : ∀ {place number phase}, holds place number phase →
    ∃ id, l.held number = some (.ours id) ∧ Lives step start l.history id phase
  distinct : ∀ {number other id}, l.held number = some (.ours id) →
    l.held other = some (.ours id) → number = other
  born : ∀ {number id}, l.held number = some (.ours id) → id < l.born
  unborn : ∀ {id}, l.born ≤ id → actsOn id l.history = []
  released : ∀ {id}, id < l.born → (∀ number, l.held number ≠ some (.ours id)) →
    Lives step start l.history id gone
  ours : ∀ entry ∈ l.history, ∃ id, entry.hit = some (.ours id)

variable {step start gone}

theorem Lives.touched {history : List (Entry Act)} {id : ℕ} {phase next : Phase}
    (h : Lives step start history id phase) {act : Act} (hact : step act phase = some next)
    (number : ℕ) :
    Lives step start (history ++ [⟨act, number, some (.ours id)⟩]) id next := by
  unfold Lives
  rw [actsOn_append, actsOn_same, Machine.run_append_eq_some]
  exact ⟨phase, h, by rw [Machine.run, hact]; rfl⟩

/-- The life of a thing goes on unchanged while others are touched. -/
theorem lives_other {history : List (Entry Act)} {id other : ℕ} (h : other ≠ id) (act : Act)
    (number : ℕ) (phase : Phase) :
    Lives step start (history ++ [⟨act, number, some (.ours other)⟩]) id phase ↔
      Lives step start history id phase := by
  unfold Lives
  rw [actsOn_append_other h]

namespace Kept

variable {holds holds' : Place → ℕ → Phase → Prop} {l : Ledger Act} {place : Place} {number : ℕ}
  {phase next : Phase}

/-- At the start nothing has a number. -/
theorem empty (h : ∀ place number phase, ¬ holds place number phase) :
    Kept step start gone holds ({} : Ledger Act) where
  one := fun hold => absurd hold (h _ _ _)
  held := by simp
  life := fun hold => absurd hold (h _ _ _)
  distinct := by simp
  born := by simp
  unborn := fun _ => rfl
  released := fun hlt => absurd hlt (Nat.not_lt_zero _)
  ours := by simp

/-- What a place holds is not free and not a stranger's. -/
theorem exists_ours (h : Kept step start gone holds l) (hold : holds place number phase) :
    ∃ id, l.held number = some (.ours id) := by
  obtain ⟨id, hheld, -⟩ := h.life hold
  exact ⟨id, hheld⟩

/-- The places hold the same. -/
theorem congr (h : Kept step start gone holds l)
    (hsame : ∀ place number phase, holds' place number phase ↔ holds place number phase) :
    Kept step start gone holds' l where
  one := fun hold hother => h.one ((hsame _ _ _).mp hold) ((hsame _ _ _).mp hother)
  held := fun hheld => by
    obtain ⟨place, phase, hold⟩ := h.held hheld
    exact ⟨place, phase, (hsame _ _ _).mpr hold⟩
  life := fun hold => h.life ((hsame _ _ _).mp hold)
  distinct := h.distinct
  born := h.born
  unborn := h.unborn
  released := h.released
  ours := h.ours

/-- Only the place that holds a number has changed, and what it has new. -/
theorem changed (h : Kept step start gone holds l) (hold : holds place number phase)
    {new : ℕ → Phase → Prop}
    (hplace : ∀ n now, holds' place n now ↔ new n now ∨ n ≠ number ∧ holds place n now)
    (hothers : ∀ other, other ≠ place → ∀ n now, holds' other n now ↔ holds other n now)
    (other : Place) (n : ℕ) (now : Phase) :
    holds' other n now ↔ other = place ∧ new n now ∨ n ≠ number ∧ holds other n now := by
  by_cases hother : other = place
  · subst hother
    simpa using hplace n now
  · have hn (hheld : holds other n now) : n ≠ number := by
      rintro rfl
      exact hother (h.one hheld hold).1
    rw [hothers other hother]
    exact ⟨fun hheld => Or.inr ⟨hn hheld, hheld⟩,
      fun hnew => hnew.elim (fun hnew => absurd hnew.1 hother) And.right⟩

section moved

variable {new : Place}
  (hmoved : ∀ other n now, holds' other n now ↔
    other = new ∧ n = number ∧ now = next ∨ n ≠ number ∧ holds other n now)
include hmoved

theorem one_moved (h : Kept step start gone holds l) {first second : Place} {n : ℕ}
    {now now' : Phase} (hfirst : holds' first n now) (hsecond : holds' second n now') :
    first = second ∧ now = now' := by
  rcases (hmoved _ _ _).mp hfirst with ⟨rfl, hn, rfl⟩ | ⟨hne, hfirst⟩
  · rcases (hmoved _ _ _).mp hsecond with ⟨rfl, -, rfl⟩ | ⟨hne, -⟩
    · exact ⟨rfl, rfl⟩
    · exact absurd hn hne
  · rcases (hmoved _ _ _).mp hsecond with ⟨-, hn, -⟩ | ⟨-, hsecond⟩
    · exact absurd hn hne
    · exact h.one hfirst hsecond

theorem held_moved (h : Kept step start gone holds l) {n id : ℕ}
    (hheld : l.held n = some (.ours id)) : ∃ place phase, holds' place n phase := by
  by_cases hn : n = number
  · exact ⟨new, next, (hmoved _ _ _).mpr (Or.inl ⟨rfl, hn, rfl⟩)⟩
  · obtain ⟨other, now, hother⟩ := h.held hheld
    exact ⟨other, now, (hmoved _ _ _).mpr (Or.inr ⟨hn, hother⟩)⟩

end moved

/-- A thing goes from one place to another. -/
theorem move (h : Kept step start gone holds l) (hold : holds place number phase) {new : Place}
    (hne : new ≠ place)
    (hnew : ∀ n now, holds' new n now ↔ n = number ∧ now = phase ∨ holds new n now)
    (hplace : ∀ n now, holds' place n now ↔ n ≠ number ∧ holds place n now)
    (hothers : ∀ other, other ≠ new → other ≠ place →
      ∀ n now, holds' other n now ↔ holds other n now) :
    Kept step start gone holds' l := by
  have helsewhere {other : Place} {now : Phase} (hother : other ≠ place) :
      ¬ holds other number now := fun hheld => hother (h.one hheld hold).1
  have hmoved (other n now) : holds' other n now ↔
      other = new ∧ n = number ∧ now = phase ∨ n ≠ number ∧ holds other n now := by
    by_cases hn : n = number
    · subst hn
      by_cases hother : other = new
      · subst hother
        simp [hnew, helsewhere hne]
      · by_cases hother' : other = place
        · subst hother'
          simp [hplace, hother]
        · simp [hothers other hother hother', helsewhere hother', hother]
    · by_cases hother : other = new
      · subst hother
        simp [hnew, hn]
      · by_cases hother' : other = place
        · subst hother'
          simp [hplace, hn]
        · simp [hothers other hother hother', hn]
  constructor
  case one => exact h.one_moved hmoved
  case held => exact h.held_moved hmoved
  case life =>
    intro other n now hother
    rcases (hmoved _ _ _).mp hother with ⟨-, rfl, rfl⟩ | ⟨-, hother⟩
    · exact h.life hold
    · exact h.life hother
  case distinct => exact h.distinct
  case born => exact h.born
  case unborn => exact h.unborn
  case released => exact h.released
  case ours => exact h.ours

/-- A place acts on the thing that it holds, where the act is possible. -/
theorem touch (h : Kept step start gone holds l) (hold : holds place number phase) {act : Act}
    (hact : step act phase = some next)
    (hplace : ∀ n now, holds' place n now ↔
      n = number ∧ now = next ∨ n ≠ number ∧ holds place n now)
    (hothers : ∀ other, other ≠ place → ∀ n now, holds' other n now ↔ holds other n now) :
    Kept step start gone holds' (l.touch number act) := by
  have hmoved := h.changed hold hplace hothers
  obtain ⟨id, hheld, hlives⟩ := h.life hold
  have hhistory : (l.touch number act).history =
      l.history ++ [⟨act, number, some (.ours id)⟩] := by
    rw [← hheld]
    rfl
  have hanother {n id' : ℕ} (hn : n ≠ number) (hid : l.held n = some (.ours id')) :
      id ≠ id' := by
    rintro rfl
    exact hn (h.distinct hid hheld)
  constructor
  case one => exact h.one_moved hmoved
  case held => exact h.held_moved hmoved
  case life =>
    intro other n now hother
    rw [hhistory]
    rcases (hmoved _ _ _).mp hother with ⟨-, rfl, rfl⟩ | ⟨hne, hother⟩
    · exact ⟨id, hheld, hlives.touched hact _⟩
    · obtain ⟨id', hid, hlives'⟩ := h.life hother
      exact ⟨id', hid, (lives_other (hanother hne hid) _ _ _).mpr hlives'⟩
  case distinct => exact h.distinct
  case born => exact h.born
  case unborn =>
    intro id' hid
    have hne : id ≠ id' := (Nat.lt_of_lt_of_le (h.born hheld) hid).ne
    rw [hhistory, actsOn_append_other hne]
    exact h.unborn hid
  case released =>
    intro id' hlt hfree
    have hne : id ≠ id' := by
      rintro rfl
      exact hfree number hheld
    rw [hhistory]
    exact (lives_other hne _ _ _).mpr (h.released hlt hfree)
  case ours =>
    rw [hhistory]
    exact List.forall_mem_append.mpr ⟨h.ours, List.forall_mem_singleton.mpr ⟨id, rfl⟩⟩

/-- An act that leaves the thing in its phase. -/
theorem touchSame (h : Kept step start gone holds l) (hold : holds place number phase)
    {act : Act} (hact : step act phase = some phase) :
    Kept step start gone holds (l.touch number act) := by
  refine h.touch hold hact (fun n now => ?_) (fun _ _ _ _ => Iff.rfl)
  constructor
  · intro hother
    by_cases hn : n = number
    · subst hn
      exact Or.inl ⟨rfl, (h.one hother hold).2⟩
    · exact Or.inr ⟨hn, hother⟩
  · rintro (⟨rfl, rfl⟩ | ⟨-, hother⟩)
    · exact hold
    · exact hother

/-- A place gets a new thing, under a number that was free. -/
theorem acquire (h : Kept step start gone holds l) (place : Place)
    (hfree : l.held number = none) {act : Act}
    (hact : step act start = some next)
    (hplace : ∀ n now, holds' place n now ↔ n = number ∧ now = next ∨ holds place n now)
    (hothers : ∀ other, other ≠ place → ∀ n now, holds' other n now ↔ holds other n now) :
    Kept step start gone holds' (l.acquire number act) := by
  have hafter (other n now) : holds' other n now ↔
      (other = place ∧ n = number ∧ now = next) ∨ holds other n now := by
    by_cases hother : other = place
    · subst hother
      simpa using hplace n now
    · simpa [hother] using hothers other hother n now
  have hnobody {other : Place} {now : Phase} : ¬ holds other number now := by
    intro hother
    obtain ⟨id, hid⟩ := h.exists_ours hother
    rw [hfree] at hid
    cases hid
  have hnew : (l.acquire number act).held number = some (.ours l.born) :=
    Function.update_self _ _ _
  have hold {n : ℕ} (hn : n ≠ number) : (l.acquire number act).held n = l.held n :=
    Function.update_of_ne hn _ _
  have hfresh {n id : ℕ} (hid : l.held n = some (.ours id)) : l.born ≠ id := (h.born hid).ne'
  have hhistory : (l.acquire number act).history =
      l.history ++ [⟨act, number, some (.ours l.born)⟩] := rfl
  constructor
  case one =>
    intro first second n now now' hfirst hsecond
    rcases (hafter _ _ _).mp hfirst with ⟨rfl, hn, rfl⟩ | hfirst
    · rcases (hafter _ _ _).mp hsecond with ⟨rfl, -, rfl⟩ | hsecond
      · exact ⟨rfl, rfl⟩
      · exact absurd (hn ▸ hsecond) hnobody
    · rcases (hafter _ _ _).mp hsecond with ⟨-, hn, -⟩ | hsecond
      · exact absurd (hn ▸ hfirst) hnobody
      · exact h.one hfirst hsecond
  case held =>
    intro n id hid
    by_cases hn : n = number
    · exact ⟨place, next, (hafter _ _ _).mpr (Or.inl ⟨rfl, hn, rfl⟩)⟩
    · rw [hold hn] at hid
      obtain ⟨other, now, hother⟩ := h.held hid
      exact ⟨other, now, (hafter _ _ _).mpr (Or.inr hother)⟩
  case life =>
    intro other n now hother
    rw [hhistory]
    rcases (hafter _ _ _).mp hother with ⟨-, rfl, rfl⟩ | hother
    · have hstart : Lives step start l.history l.born start := by
        unfold Lives
        rw [h.unborn (Nat.le_refl _)]
        rfl
      exact ⟨l.born, hnew, hstart.touched hact _⟩
    · obtain ⟨id, hid, hlives⟩ := h.life hother
      have hn : n ≠ number := by
        rintro rfl
        exact hnobody hother
      exact ⟨id, by rw [hold hn]; exact hid, (lives_other (hfresh hid) _ _ _).mpr hlives⟩
  case distinct =>
    intro n m id hn hm
    by_cases hnumber : n = number
    · subst hnumber
      rw [hnew] at hn
      by_contra hne
      rw [hold (Ne.symm hne)] at hm
      cases hn
      exact hfresh hm rfl
    · rw [hold hnumber] at hn
      by_cases hother : m = number
      · subst hother
        rw [hnew] at hm
        cases hm
        exact absurd rfl (hfresh hn)
      · rw [hold hother] at hm
        exact h.distinct hn hm
  case born =>
    intro n id hid
    by_cases hn : n = number
    · subst hn
      rw [hnew] at hid
      cases hid
      exact Nat.lt_succ_self _
    · rw [hold hn] at hid
      exact Nat.lt_succ_of_lt (h.born hid)
  case unborn =>
    intro id hid
    change l.born + 1 ≤ id at hid
    rw [hhistory, actsOn_append_other (by omega)]
    exact h.unborn (by omega)
  case released =>
    intro id hlt hnone
    change id < l.born + 1 at hlt
    have hne : l.born ≠ id := by
      rintro rfl
      exact hnone number hnew
    rw [hhistory]
    refine (lives_other hne _ _ _).mpr (h.released (by omega) fun n hn => ?_)
    have hnumber : n ≠ number := by
      rintro rfl
      rw [hfree] at hn
      cases hn
    exact hnone n (by rw [hold hnumber]; exact hn)
  case ours =>
    rw [hhistory]
    exact List.forall_mem_append.mpr ⟨h.ours, List.forall_mem_singleton.mpr ⟨l.born, rfl⟩⟩

/-- A place acts on the thing that it holds for the last time. -/
theorem release (h : Kept step start gone holds l) (hold : holds place number phase) {act : Act}
    (hact : step act phase = some gone)
    (hplace : ∀ n now, holds' place n now ↔ n ≠ number ∧ holds place n now)
    (hothers : ∀ other, other ≠ place → ∀ n now, holds' other n now ↔ holds other n now) :
    Kept step start gone holds' (l.release number act) := by
  have hnothing (n now) : holds' place n now ↔ False ∨ n ≠ number ∧ holds place n now := by
    simpa using hplace n now
  have hafter := h.changed hold hnothing hothers
  simp only [and_false, false_or] at hafter
  obtain ⟨id, hheld, hlives⟩ := h.life hold
  have hhistory : (l.release number act).history =
      l.history ++ [⟨act, number, some (.ours id)⟩] := by
    rw [← hheld]
    rfl
  have hfree : (l.release number act).held number = none := Function.update_self _ _ _
  have hkept {n : ℕ} (hn : n ≠ number) : (l.release number act).held n = l.held n :=
    Function.update_of_ne hn _ _
  have hours {n id' : ℕ} (hid : (l.release number act).held n = some (.ours id')) :
      n ≠ number ∧ l.held n = some (.ours id') := by
    have hn : n ≠ number := by
      rintro rfl
      rw [hfree] at hid
      cases hid
    rw [hkept hn] at hid
    exact ⟨hn, hid⟩
  constructor
  case one =>
    intro first second n now now' hfirst hsecond
    exact h.one ((hafter _ _ _).mp hfirst).2 ((hafter _ _ _).mp hsecond).2
  case held =>
    intro n id' hid
    obtain ⟨hn, hid⟩ := hours hid
    obtain ⟨other, now, hother⟩ := h.held hid
    exact ⟨other, now, (hafter _ _ _).mpr ⟨hn, hother⟩⟩
  case life =>
    intro other n now hother
    obtain ⟨hn, hother⟩ := (hafter _ _ _).mp hother
    obtain ⟨id', hid, hlives'⟩ := h.life hother
    have hne : id ≠ id' := by
      rintro rfl
      exact hn (h.distinct hid hheld)
    rw [hhistory, hkept hn]
    exact ⟨id', hid, (lives_other hne _ _ _).mpr hlives'⟩
  case distinct =>
    intro n m id' hn hm
    exact h.distinct (hours hn).2 (hours hm).2
  case born =>
    intro n id' hid
    exact h.born (hours hid).2
  case unborn =>
    intro id' hid
    have hne : id ≠ id' := (Nat.lt_of_lt_of_le (h.born hheld) hid).ne
    rw [hhistory, actsOn_append_other hne]
    exact h.unborn hid
  case released =>
    intro id' hlt hnone
    rw [hhistory]
    by_cases hid : id = id'
    · subst hid
      exact hlives.touched hact _
    · refine (lives_other hid _ _ _).mpr (h.released hlt fun n hn => ?_)
      have hnumber : n ≠ number := by
        rintro rfl
        rw [hheld] at hn
        cases hn
        exact hid rfl
      exact hnone n (by rw [hkept hnumber]; exact hn)
  case ours =>
    rw [hhistory]
    exact List.forall_mem_append.mpr ⟨h.ours, List.forall_mem_singleton.mpr ⟨id, rfl⟩⟩

/-- What strangers do with numbers that are not ours. -/
theorem strangers (h : Kept step start gone holds l) {owner : Option Owner}
    (hbefore : ∀ id, l.held number ≠ some (.ours id)) (hafter : ∀ id, owner ≠ some (.ours id)) :
    Kept step start gone holds (l.strangers number owner) := by
  have hsame (n id : ℕ) : (l.strangers number owner).held n = some (.ours id) ↔
      l.held n = some (.ours id) := by
    by_cases hn : n = number
    · subst hn
      have hnow : (l.strangers n owner).held n = owner := Function.update_self _ _ _
      rw [hnow]
      exact ⟨fun hours => absurd hours (hafter id), fun hours => absurd hours (hbefore id)⟩
    · have hnow : (l.strangers number owner).held n = l.held n := Function.update_of_ne hn _ _
      rw [hnow]
  constructor
  case one => exact h.one
  case held => exact fun hheld => h.held ((hsame _ _).mp hheld)
  case life =>
    intro place n phase hold
    obtain ⟨id, hid, hlives⟩ := h.life hold
    exact ⟨id, (hsame _ _).mpr hid, hlives⟩
  case distinct => exact fun hn hm => h.distinct ((hsame _ _).mp hn) ((hsame _ _).mp hm)
  case born => exact fun hheld => h.born ((hsame _ _).mp hheld)
  case unborn => exact h.unborn
  case released =>
    intro id hlt hnone
    exact h.released hlt fun n hn => hnone n ((hsame _ _).mpr hn)
  case ours => exact h.ours

/-- What was ever done was done to a thing of ours. -/
theorem hit (h : Kept step start gone holds l) {entry : Entry Act} (hentry : entry ∈ l.history) :
    ∃ id < l.born, entry.hit = some (.ours id) := by
  obtain ⟨id, hid⟩ := h.ours entry hentry
  refine ⟨id, ?_, hid⟩
  by_contra hborn
  have hact : entry.act ∈ actsOn id l.history := by
    refine List.mem_filterMap.mpr ⟨entry, hentry, ?_⟩
    rw [if_pos hid]
  rw [h.unborn (Nat.not_lt.mp hborn)] at hact
  cases hact

/-- Every thing lives in some place, or its life is over. -/
theorem lives_or_gone (h : Kept step start gone holds l) {id : ℕ} (hid : id < l.born) :
    (∃ place number phase, holds place number phase ∧ Lives step start l.history id phase) ∨
      Lives step start l.history id gone := by
  by_cases hheld : ∃ number, l.held number = some (.ours id)
  · obtain ⟨number, hnumber⟩ := hheld
    obtain ⟨place, phase, hold⟩ := h.held hnumber
    obtain ⟨other, hother, hlives⟩ := h.life hold
    rw [hnumber] at hother
    cases hother
    exact Or.inl ⟨place, number, phase, hold, hlives⟩
  · exact Or.inr (h.released hid (not_exists.mp hheld))

end Kept
end Custody
end Aa2acp
