import Mathlib.Data.List.Infix

/-!
# Replacing patterns in a text

`replaceAll` goes through a text from left to right and puts the replacement in place of
every pattern it meets.  Where no pattern is the beginning of another, a pattern that
stands in the text is the one replaced (`replaceAll_pattern`), and a stretch without the
character that the patterns begin with is left alone (`replaceAll_append`).
-/

namespace Aa2acp
namespace Replacement

variable {α : Type} [BEq α]

/-- The text after the next `skip` characters, with its patterns replaced. -/
def replaceFrom (rules : List (List α × List α)) : ℕ → List α → List α
  | _, [] => []
  | skip + 1, _ :: rest => replaceFrom rules skip rest
  | 0, character :: rest =>
      match rules.find? fun rule => rule.1.isPrefixOf (character :: rest) with
      | some rule => rule.2 ++ replaceFrom rules (rule.1.length - 1) rest
      | none => character :: replaceFrom rules 0 rest

def replaceAll (rules : List (List α × List α)) (text : List α) : List α :=
  replaceFrom rules 0 text

/-- No pattern is empty or the beginning of another rule's. -/
def Unambiguous (rules : List (List α × List α)) : Prop :=
  (∀ rule ∈ rules, rule.1 ≠ []) ∧
    ∀ rule ∈ rules, ∀ other ∈ rules, rule.1.isPrefixOf other.1 = true → rule = other

instance {α : Type} [DecidableEq α] (rules : List (List α × List α)) :
    Decidable (Unambiguous rules) :=
  inferInstanceAs (Decidable (_ ∧ _))

variable {rules : List (List α × List α)}

theorem replaceFrom_append (before rest : List α) :
    replaceFrom rules before.length (before ++ rest) = replaceAll rules rest := by
  induction before with
  | nil => rfl
  | cons character before ih => exact ih

/-- A pattern is replaced. -/
theorem replaceAll_pattern [LawfulBEq α] (hrules : Unambiguous rules) {rule : List α × List α}
    (hrule : rule ∈ rules) (rest : List α) :
    replaceAll rules (rule.1 ++ rest) = rule.2 ++ replaceAll rules rest := by
  obtain ⟨pattern, replacement⟩ := rule
  cases pattern with
  | nil => exact absurd rfl (hrules.1 _ hrule)
  | cons character pattern =>
      have hfind : (rules.find? fun rule =>
          rule.1.isPrefixOf (character :: (pattern ++ rest))) =
            some (character :: pattern, replacement) := by
        cases hfound : rules.find? fun rule =>
            rule.1.isPrefixOf (character :: (pattern ++ rest)) with
        | none =>
            have hnot := List.find?_eq_none.mp hfound _ hrule
            exact absurd (List.isPrefixOf_iff_prefix.mpr (List.prefix_append _ rest)) hnot
        | some other =>
            have hother : other ∈ rules := List.mem_of_find?_eq_some hfound
            have hmatch := List.find?_some hfound
            have hbegins : other.1 <+: character :: pattern ++ rest :=
              List.isPrefixOf_iff_prefix.mp hmatch
            -- two patterns at one place are comparable
            rcases List.prefix_or_prefix_of_prefix hbegins (List.prefix_append _ rest) with
              hle | hle
            · exact congrArg some (hrules.2 _ hother _ hrule (List.isPrefixOf_iff_prefix.mpr hle))
            · exact congrArg some
                (hrules.2 _ hrule _ hother (List.isPrefixOf_iff_prefix.mpr hle)).symm
      unfold replaceAll
      rw [List.cons_append, replaceFrom, hfind]
      dsimp only
      rw [List.length_cons, Nat.add_sub_cancel, replaceFrom_append]
      rfl

/-- Where every pattern begins with the same character, a stretch without it stays as it
is. -/
theorem replaceAll_append [LawfulBEq α] {first : α}
    (hrules : ∀ rule ∈ rules, rule.1.head? = some first) {text : List α} (h : first ∉ text)
    (rest : List α) : replaceAll rules (text ++ rest) = text ++ replaceAll rules rest := by
  induction text with
  | nil => rfl
  | cons character text ih =>
      rw [List.mem_cons, not_or] at h
      have hfind : (rules.find? fun rule =>
          rule.1.isPrefixOf (character :: (text ++ rest))) = none := by
        rw [List.find?_eq_none]
        intro rule hrule hmatch
        obtain ⟨more, hpattern⟩ := List.head?_eq_some_iff.mp (hrules rule hrule)
        rw [hpattern, List.isPrefixOf_iff_prefix, List.cons_prefix_cons] at hmatch
        exact h.1 hmatch.1
      have htail := ih h.2
      unfold replaceAll at htail ⊢
      rw [List.cons_append, replaceFrom, hfind]
      dsimp only
      rw [htail]
      rfl

end Replacement
end Aa2acp
