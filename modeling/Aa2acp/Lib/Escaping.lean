import Mathlib.Data.List.Basic

/-!
# Escaped text

Text in which an escape character stands in front of every special character.  A scanner
that reads such text from left to right takes each character together with its escape
(`foldl_escape`): what it does with the text is what it does with the characters, one after
the other.
-/

namespace Aa2acp
namespace Escaping

variable {α S : Type} (mark : α) (special : α → Bool)

/-- A character, with its escape if it needs one. -/
def escapeOne (character : α) : List α :=
  if special character then [mark, character] else [character]

def escape (text : List α) : List α := text.flatMap (escapeOne mark special)

@[simp] theorem escape_nil : escape mark special [] = [] := rfl

theorem escape_cons (character : α) (text : List α) :
    escape mark special (character :: text) =
      escapeOne mark special character ++ escape mark special text := List.flatMap_cons

theorem escape_append (text more : List α) :
    escape mark special (text ++ more) = escape mark special text ++ escape mark special more :=
  List.flatMap_append

/-- A character that is not the escape stands in escaped text only where it stood. -/
theorem mem_escape {text : List α} {character : α} (hmark : character ≠ mark) :
    character ∈ escape mark special text ↔ character ∈ text := by
  unfold escape
  rw [List.mem_flatMap]
  constructor
  · rintro ⟨other, hother, hmem⟩
    unfold escapeOne at hmem
    split at hmem
    · rcases List.mem_cons.mp hmem with hsame | hlast
      · exact absurd hsame hmark
      · rwa [List.mem_singleton.mp hlast]
    · rwa [List.mem_singleton.mp hmem]
  · intro hmem
    refine ⟨character, hmem, ?_⟩
    unfold escapeOne
    split <;> simp

/-- The rule for scanners: from a state in which no escape is open, an escaped character
does what `add` does with the character. -/
theorem foldl_escape {step add : S → α → S} (Ready : S → Prop)
    (hkeep : ∀ s character, Ready s → Ready (add s character))
    (hone : ∀ s character, Ready s →
      (escapeOne mark special character).foldl step s = add s character)
    (text : List α) {s : S} (hs : Ready s) :
    (escape mark special text).foldl step s = text.foldl add s ∧ Ready (text.foldl add s) := by
  induction text generalizing s with
  | nil => exact ⟨rfl, hs⟩
  | cons character text ih =>
    rw [escape_cons, List.foldl_append, hone s character hs, List.foldl_cons]
    exact ih (hkeep s character hs)

end Escaping
end Aa2acp
