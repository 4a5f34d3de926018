import Mathlib.Data.List.Basic

/-!
# Text that knows where it comes from

A marked text carries the origin of every character through the operations a program puts
a text together with: it is marked where it enters, concatenated, and expanded character
by character.  A text is `Confined` when the special characters in it are of allowed
origins only; every operation keeps that, and an expansion that produces no special
character establishes it for any text.
-/

namespace Aa2acp
namespace Provenance

structure Marked (α ω : Type) where
  character : α
  origin : ω
deriving DecidableEq, Repr

variable {α ω β : Type}

/-- A text that enters with one origin. -/
def mark (origin : ω) (text : List α) : List (Marked α ω) :=
  text.map fun character => ⟨character, origin⟩

/-- The text alone. -/
def plain (text : List (Marked α ω)) : List α := text.map Marked.character

/-- Every character is replaced by a text, which inherits its origin. -/
def expand (f : α → List α) (text : List (Marked α ω)) : List (Marked α ω) :=
  text.flatMap fun marked => mark marked.origin (f marked.character)

@[simp] theorem plain_nil : plain ([] : List (Marked α ω)) = [] := rfl

@[simp] theorem plain_append (text more : List (Marked α ω)) :
    plain (text ++ more) = plain text ++ plain more := List.map_append

@[simp] theorem plain_mark (origin : ω) (text : List α) : plain (mark origin text) = text := by
  simp [plain, mark, Function.comp_def]

@[simp] theorem plain_expand (f : α → List α) (text : List (Marked α ω)) :
    plain (expand f text) = (plain text).flatMap f := by
  induction text with
  | nil => rfl
  | cons marked text ih =>
      have hcons : expand f (marked :: text) =
          mark marked.origin (f marked.character) ++ expand f text := List.flatMap_cons
      rw [hcons, plain_append, plain_mark, ih]
      rfl

section Confined

variable {special : α → Prop} {allowed : ω → Prop}

/-- The special characters of the text are of allowed origins. -/
def Confined (special : α → Prop) (allowed : ω → Prop) (text : List (Marked α ω)) : Prop :=
  ∀ marked ∈ text, special marked.character → allowed marked.origin

@[simp] theorem confined_nil : Confined special allowed [] := by
  intro marked hmem
  cases hmem

@[simp] theorem confined_append {text more : List (Marked α ω)} :
    Confined special allowed (text ++ more) ↔
      Confined special allowed text ∧ Confined special allowed more := by
  unfold Confined
  exact List.forall_mem_append

@[simp] theorem confined_ite {condition : Prop} [Decidable condition]
    {text other : List (Marked α ω)} :
    Confined special allowed (if condition then text else other) ↔
      if condition then Confined special allowed text else Confined special allowed other := by
  split <;> rfl

@[simp] theorem confined_flatMap {items : List β} {f : β → List (Marked α ω)} :
    Confined special allowed (items.flatMap f) ↔
      ∀ item ∈ items, Confined special allowed (f item) := by
  unfold Confined
  simp only [List.mem_flatMap]
  exact ⟨fun h item hitem marked hmem => h marked ⟨item, hitem, hmem⟩,
    fun h marked ⟨item, hitem, hmem⟩ => h item hitem marked hmem⟩

/-- A text of an allowed origin may hold anything. -/
theorem confined_mark_of_allowed {origin : ω} (h : allowed origin) (text : List α) :
    Confined special allowed (mark origin text) := by
  intro marked hmem _
  obtain ⟨character, -, rfl⟩ := List.mem_map.mp hmem
  exact h

/-- A text without special characters may be of any origin. -/
theorem confined_mark_of_plain {text : List α} (h : ∀ character ∈ text, ¬ special character)
    (origin : ω) : Confined special allowed (mark origin text) := by
  intro marked hmem hspecial
  obtain ⟨character, hcharacter, rfl⟩ := List.mem_map.mp hmem
  exact absurd hspecial (h character hcharacter)

/-- What expands to no special character confines any text. -/
theorem confined_expand {f : α → List α}
    (h : ∀ character, ∀ produced ∈ f character, ¬ special produced)
    (text : List (Marked α ω)) : Confined special allowed (expand f text) := by
  unfold expand
  rw [confined_flatMap]
  exact fun marked _ => confined_mark_of_plain (h marked.character) marked.origin

end Confined

end Provenance
end Aa2acp
