import Mathlib.Logic.Basic

/-!
# Functions that return early, and what runs as they do

A computation on a state that goes on with a value or returns from the function with a
result, as often as it likes and from the middle of it.  A guard runs when its block is left,
whichever way that is.  `Triple pre c post exit` says of a computation that, started in a state
with `pre`, it goes on with `post` or returns with `exit`; there is one rule for each way to
build a computation.
-/

namespace Aa2acp

/-- A computation that may return from the function that it is part of. -/
def Scoped (S R α : Type) : Type := S → Except R α × S

namespace Scoped

variable {S R α β : Type}

/-- Go on with another computation, unless the function has returned. -/
def bind (c : Scoped S R α) (f : α → Scoped S R β) : Scoped S R β := fun s =>
  match c s with
  | (.error result, s) => (.error result, s)
  | (.ok value, s) => f value s

instance : Monad (Scoped S R) where
  pure value := fun s => (.ok value, s)
  bind := bind

/-- `return`. -/
def leave (result : R) : Scoped S R α := fun s => (.error result, s)

/-- Look at the state. -/
def read (f : S → α) : Scoped S R α := fun s => (.ok (f s), s)

def update (f : S → S) : Scoped S R Unit := fun s => (.ok (), f s)

/-- A call of a procedure that does not return early. -/
def call (f : S → α × S) : Scoped S R α := fun s => (.ok (f s).1, (f s).2)

/-- Return with the result unless the condition holds. -/
def unlessLeave (condition : Prop) [Decidable condition] (result : R) : Scoped S R Unit :=
  if condition then pure () else leave result

def ofOption (value : Option α) (result : R) : Scoped S R α :=
  match value with
  | none => leave result
  | some value => pure value

/-- A block with a guard, which runs when the block is left. -/
def guarded (guard : S → S) (body : Scoped S R α) : Scoped S R α := fun s =>
  ((body s).1, guard (body s).2)

/-- What a function returns, and the state when it has. -/
def run (c : Scoped S R R) (s : S) : R × S :=
  match c s with
  | (.ok result, s) => (result, s)
  | (.error result, s) => (result, s)

/-- Where the computation leads to from a state with `pre`. -/
def Triple (pre : S → Prop) (c : Scoped S R α) (post : α → S → Prop) (exit : R → S → Prop) : Prop :=
  ∀ s, pre s →
    match c s with
    | (.ok value, s) => post value s
    | (.error result, s) => exit result s

namespace Triple

variable {P : S → Prop} {Q : α → S → Prop} {exit : R → S → Prop} {c : Scoped S R α}
  {f : α → Scoped S R β} {last : β → S → Prop}

theorem pure {value : α} (h : ∀ s, P s → Q value s) :
    Triple P (pure value : Scoped S R α) Q exit := fun s hs => h s hs

theorem leave {result : R} (h : ∀ s, P s → exit result s) :
    Triple P (leave result : Scoped S R α) Q exit := fun s hs => h s hs

theorem bind (hc : Triple P c Q exit) (hf : ∀ value, Triple (Q value) (f value) last exit) :
    Triple P (c >>= f) last exit := by
  intro s hs
  have hmiddle := hc s hs
  show match Scoped.bind c f s with
    | (.ok value, s) => last value s
    | (.error result, s) => exit result s
  unfold Scoped.bind
  cases hrun : c s with
  | mk outcome next =>
      rw [hrun] at hmiddle
      cases outcome with
      | error result => exact hmiddle
      | ok value => exact hf value next hmiddle

theorem update {g : S → S} {Q : Unit → S → Prop} (h : ∀ s, P s → Q () (g s)) :
    Triple P (update g : Scoped S R Unit) Q exit := fun s hs => h s hs

theorem unlessLeave {condition : Prop} [Decidable condition] {result : R} {Q : Unit → S → Prop}
    (h : ∀ s, P s → condition → Q () s) (hexit : ∀ s, P s → ¬ condition → exit result s) :
    Triple P (unlessLeave condition result) Q exit := by
  intro s hs
  unfold Scoped.unlessLeave
  by_cases hcondition : condition
  · rw [if_pos hcondition]
    exact h s hs hcondition
  · rw [if_neg hcondition]
    exact hexit s hs hcondition

theorem ofOption {value : Option α} {result : R} (h : ∀ s, P s → ∀ inner, value = some inner → Q inner s)
    (hexit : ∀ s, P s → exit result s) : Triple P (ofOption value result) Q exit := by
  cases value with
  | none => exact fun s hs => hexit s hs
  | some inner => exact fun s hs => h s hs inner rfl

/-! What follows a step is looked at for each value that it can go on with. -/

/-- With what was read. -/
theorem read_bind_eq {g : S → α} (hf : ∀ value, Triple (fun s => P s ∧ g s = value) (f value) last exit) :
    Triple P (read g >>= f) last exit := fun s hs => hf (g s) s ⟨hs, rfl⟩

/-- What is read is known already. -/
theorem read_bind_of {g : S → α} {v : α} (h : ∀ s, P s → g s = v) (hf : Triple P (f v) last exit) :
    Triple P (read g >>= f) last exit := by
  intro s hs
  have hlast := hf s hs
  rw [← h s hs] at hlast
  exact hlast

theorem call_bind {g : S → α × S} (h : ∀ s, P s → Q (g s).1 (g s).2)
    (hf : ∀ value, Triple (Q value) (f value) last exit) : Triple P (call g >>= f) last exit :=
  fun s hs => hf (g s).1 (g s).2 (h s hs)

theorem update_bind {g : S → S} {f : Unit → Scoped S R β} {M : S → Prop} (h : ∀ s, P s → M (g s))
    (hf : Triple M (f ()) last exit) : Triple P (Scoped.update g >>= f) last exit :=
  fun s hs => hf (g s) (h s hs)

theorem unlessLeave_bind {condition : Prop} [Decidable condition] {result : R} {f : Unit → Scoped S R β}
    (hf : condition → Triple P (f ()) last exit) (hexit : ∀ s, P s → exit result s) :
    Triple P (Scoped.unlessLeave condition result >>= f) last exit := by
  by_cases hcondition : condition
  · refine bind (unlessLeave (Q := fun _ => P) (fun s hs _ => hs) fun s hs _ => hexit s hs) fun _ => ?_
    exact hf hcondition
  · exact bind (unlessLeave (Q := fun _ _ => False) (fun s _ hholds => hcondition hholds)
      fun s hs _ => hexit s hs) fun _ _ hfalse => hfalse.elim

theorem unlessLeave_pass {condition : Prop} [Decidable condition] {result : R} {f : Unit → Scoped S R β}
    (hcondition : condition) (hf : Triple P (f ()) last exit) :
    Triple P (Scoped.unlessLeave condition result >>= f) last exit :=
  bind (unlessLeave (Q := fun _ => P) (fun _ hs _ => hs) fun _ _ hnot => absurd hcondition hnot) fun _ => hf

theorem ofOption_bind {value : Option α} {result : R} (hf : ∀ inner, value = some inner → Triple P (f inner) last exit)
    (hexit : value = none → ∀ s, P s → exit result s) :
    Triple P (Scoped.ofOption value result >>= f) last exit := by
  cases value with
  | none => exact fun s hs => hexit rfl s hs
  | some inner => exact hf inner rfl

/-- The guard comes between the block and whatever follows. -/
theorem guarded {guard : S → S} {I : α → S → Prop} {L : R → S → Prop}
    (hbody : Triple P c I L) (hpost : ∀ value s, I value s → Q value (guard s))
    (hexit : ∀ result s, L result s → exit result (guard s)) :
    Triple P (guarded guard c) Q exit := by
  intro s hs
  have hinside := hbody s hs
  unfold Scoped.guarded
  cases hrun : c s with
  | mk outcome next =>
      rw [hrun] at hinside
      cases outcome with
      | error result => exact hexit result next hinside
      | ok value => exact hpost value next hinside

theorem weaken {P' : S → Prop} {Q' : α → S → Prop} {exit' : R → S → Prop}
    (h : Triple P c Q exit) (hpre : ∀ s, P' s → P s) (hpost : ∀ value s, Q value s → Q' value s)
    (hexit : ∀ result s, exit result s → exit' result s) : Triple P' c Q' exit' := by
  intro s hs
  have hbefore := h s (hpre s hs)
  cases hrun : c s with
  | mk outcome next =>
      rw [hrun] at hbefore
      cases outcome with
      | error result => exact hexit result next hbefore
      | ok value => exact hpost value next hbefore

theorem ite {condition : Prop} [Decidable condition] {other : Scoped S R α}
    (hthen : condition → Triple P c Q exit) (helse : ¬ condition → Triple P other Q exit) :
    Triple P (if condition then c else other) Q exit := by
  by_cases hcondition : condition
  · rw [if_pos hcondition]
    exact hthen hcondition
  · rw [if_neg hcondition]
    exact helse hcondition

/-- Both ways out of a function lead to its caller. -/
theorem run {c : Scoped S R R} {Q : R → S → Prop} (h : Triple P c Q Q) {s : S} (hs : P s) :
    Q (c.run s).1 (c.run s).2 := by
  have hlast := h s hs
  unfold Scoped.run
  cases hrun : c s with
  | mk outcome next =>
      rw [hrun] at hlast
      cases outcome with
      | error result => exact hlast
      | ok result => exact hlast

end Triple
end Scoped
end Aa2acp
