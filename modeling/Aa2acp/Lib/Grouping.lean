import Mathlib.Data.List.Chain
import Mathlib.Data.List.Flatten

/-!
# Lists cut into groups

A list is cut into groups from the left: an item either goes to the current group or starts
a new one, which depends on the item and on the whole group before it.  The groups are the
list again (`flatten_groups`), none of them is empty, no item inside a group starts one
(`Settled`), and every group but the first begins with an item that starts one behind the
group before it (`isChain_groups`).
-/

namespace Aa2acp
namespace Grouping

variable {α : Type*} (starts : List α → α → Prop) [∀ group item, Decidable (starts group item)]

/-- The groups from a current group on. -/
def groupsFrom : List α → List α → List (List α)
  | group, [] => [group]
  | group, item :: items =>
      if starts group item then group :: groupsFrom [item] items
      else groupsFrom (group ++ [item]) items

def groups : List α → List (List α)
  | [] => []
  | item :: items => groupsFrom starts [item] items

omit [∀ group item, Decidable (starts group item)] in
/-- No item inside the group starts a new one behind those before it. -/
def Settled (group : List α) : Prop :=
  ∀ before item after, group = before ++ item :: after → before ≠ [] → ¬ starts before item

variable {starts} {group items : List α} {item : α}

omit [∀ group item, Decidable (starts group item)] in
theorem settled_singleton (item : α) : Settled starts [item] := by
  intro before other after heq hbefore
  cases before with
  | nil => exact absurd rfl hbefore
  | cons first before =>
      have hlength := congrArg List.length heq
      simp at hlength

omit [∀ group item, Decidable (starts group item)] in
theorem Settled.concat (h : Settled starts group) (hitem : ¬ starts group item) :
    Settled starts (group ++ [item]) := by
  intro before other after heq hbefore
  cases List.eq_nil_or_concat after with
  | inl hnil =>
      -- it is the last one
      subst hnil
      obtain ⟨rfl, hlast⟩ := List.append_inj' heq rfl
      cases hlast
      exact hitem
  | inr hconcat =>
      obtain ⟨after, last, rfl⟩ := hconcat
      rw [List.concat_eq_append, ← List.cons_append, ← List.append_assoc] at heq
      exact h before other after (List.append_inj' heq rfl).1 hbefore

theorem flatten_groupsFrom (group items : List α) :
    (groupsFrom starts group items).flatten = group ++ items := by
  induction items generalizing group with
  | nil => simp [groupsFrom]
  | cons item items ih =>
      rw [groupsFrom]
      split
      · rw [List.flatten_cons, ih, List.singleton_append]
      · rw [ih, List.append_assoc, List.singleton_append]

theorem groupsFrom_ne_nil (hgroup : group ≠ []) :
    ∀ other ∈ groupsFrom starts group items, other ≠ [] := by
  induction items generalizing group with
  | nil =>
      intro other hother
      rw [List.mem_singleton.mp hother]
      exact hgroup
  | cons item items ih =>
      rw [groupsFrom]
      split
      · intro other hother
        rcases List.mem_cons.mp hother with rfl | hother
        · exact hgroup
        · exact ih (List.cons_ne_nil _ _) other hother
      · exact ih (List.append_ne_nil_of_right_ne_nil _ (List.cons_ne_nil _ _))

theorem settled_groupsFrom (h : Settled starts group) :
    ∀ other ∈ groupsFrom starts group items, Settled starts other := by
  induction items generalizing group with
  | nil =>
      intro other hother
      rw [List.mem_singleton.mp hother]
      exact h
  | cons item items ih =>
      rw [groupsFrom]
      split
      · intro other hother
        rcases List.mem_cons.mp hother with rfl | hother
        · exact h
        · exact ih (settled_singleton item) other hother
      · rename_i hitem
        exact ih (h.concat hitem)

/-- The first group goes on from the current one. -/
theorem groupsFrom_eq_cons (group items : List α) :
    ∃ more others, groupsFrom starts group items = (group ++ more) :: others := by
  induction items generalizing group with
  | nil => exact ⟨[], [], by rw [groupsFrom, List.append_nil]⟩
  | cons item items ih =>
      rw [groupsFrom]
      split
      · exact ⟨[], _, by rw [List.append_nil]⟩
      · obtain ⟨more, others, heq⟩ := ih (group ++ [item])
        exact ⟨item :: more, others, by rw [heq, List.append_assoc, List.singleton_append]⟩

/-- A group begins with an item that starts one behind the group before. -/
theorem isChain_groupsFrom (group items : List α) :
    (groupsFrom starts group items).IsChain fun previous next =>
      ∃ first rest, next = first :: rest ∧ starts previous first := by
  induction items generalizing group with
  | nil => exact List.isChain_singleton _
  | cons item items ih =>
      rw [groupsFrom]
      split
      · rename_i hitem
        have hchain := ih [item]
        obtain ⟨more, others, heq⟩ : ∃ more others, groupsFrom starts [item] items =
            ([item] ++ more) :: others := groupsFrom_eq_cons [item] items
        rw [heq] at hchain ⊢
        exact List.isChain_cons_cons.mpr ⟨⟨item, more, rfl, hitem⟩, hchain⟩
      · exact ih _

theorem flatten_groups (items : List α) : (groups starts items).flatten = items := by
  cases items with
  | nil => rfl
  | cons item items => exact flatten_groupsFrom [item] items

theorem groups_ne_nil : ∀ other ∈ groups starts items, other ≠ [] := by
  cases items with
  | nil =>
      intro other hother
      cases hother
  | cons item items => exact groupsFrom_ne_nil (List.cons_ne_nil _ _)

theorem settled_groups : ∀ other ∈ groups starts items, Settled starts other := by
  cases items with
  | nil =>
      intro other hother
      cases hother
  | cons item items => exact settled_groupsFrom (settled_singleton item)

theorem isChain_groups (items : List α) :
    (groups starts items).IsChain fun previous next =>
      ∃ first rest, next = first :: rest ∧ starts previous first := by
  cases items with
  | nil => exact List.isChain_nil
  | cons item items => exact isChain_groupsFrom [item] items

end Grouping
end Aa2acp
