import Mathlib.Tactic

/-!
# Tables of keyed items

A table is a list of items with different keys.  `emplace` adds an item unless there is one
with its key, `assign` puts it in the place of that one (`std::map::emplace` and
`insert_or_assign`).  A table to which one report after the other is assigned holds, for
each key, the item of the last report that had one (`LastReported`).
-/

namespace Aa2acp
namespace Keyed

variable {α κ : Type} (key : α → κ)

/-- No two items have the same key. -/
def Distinct (table : List α) : Prop := (table.map key).Nodup

instance [DecidableEq κ] (table : List α) : Decidable (Distinct key table) :=
  inferInstanceAs (Decidable (List.Nodup _))

/-! ## Reports, one after the other -/

/-- The item is in a report, and no later one has its key. -/
def LastReported (reports : List (List α)) (item : α) : Prop :=
  ∃ before report after, reports = before ++ report :: after ∧ item ∈ report ∧
    ∀ later ∈ after, key item ∉ later.map key

section

variable {key} {reports : List (List α)} {report : List α} {item : α}

theorem not_lastReported_nil : ¬ LastReported key [] item := by
  rintro ⟨before, report, after, hsplit, -⟩
  simp at hsplit

/-- A new report has the last word on the keys in it. -/
theorem lastReported_concat : LastReported key (reports ++ [report]) item ↔
    item ∈ report ∨ LastReported key reports item ∧ key item ∉ report.map key := by
  constructor
  · rintro ⟨before, found, after, hsplit, hitem, hafter⟩
    rcases List.eq_nil_or_concat' after with rfl | ⟨rest, last, rfl⟩
    · obtain ⟨-, hlast⟩ := List.append_inj' hsplit rfl
      cases hlast
      exact Or.inl hitem
    · have hsplit' : reports ++ [report] = (before ++ found :: rest) ++ [last] := by
        rw [hsplit]
        simp
      obtain ⟨hreports, hlast⟩ := List.append_inj' hsplit' rfl
      cases hlast
      exact Or.inr ⟨⟨before, found, rest, hreports, hitem,
        fun later hlater => hafter later (List.mem_append_left _ hlater)⟩,
        hafter report (by simp)⟩
  · rintro (hitem | ⟨⟨before, found, after, rfl, hitem, hafter⟩, hnot⟩)
    · exact ⟨reports, report, [], rfl, hitem, by simp⟩
    · refine ⟨before, found, after ++ [report], by simp, hitem, fun later hlater => ?_⟩
      rcases List.mem_append.mp hlater with hold | hnew
      · exact hafter later hold
      · rw [List.mem_singleton.mp hnew]
        exact hnot

end

/-! ## Tables -/

variable [DecidableEq κ]

def emplace (table : List α) (item : α) : List α :=
  if table.any (key · = key item) then table else table ++ [item]

def assign (table : List α) (item : α) : List α := table.filter (key · ≠ key item) ++ [item]

def assignAll (table items : List α) : List α := items.foldl (assign key) table

variable {key} {table items : List α} {item other : α}

/-- Items with different keys are all taken. -/
theorem foldl_emplace (h : Distinct key (table ++ items)) :
    items.foldl (emplace key) table = table ++ items := by
  induction items generalizing table with
  | nil => simp
  | cons item items ih =>
      have hnew : ¬ table.any (key · = key item) = true := by
        intro hany
        obtain ⟨old, hold, hsame⟩ := List.any_eq_true.mp hany
        rw [Distinct, List.map_append, List.nodup_append] at h
        exact h.2.2 _ (List.mem_map_of_mem hold) _ (List.mem_map_of_mem List.mem_cons_self)
          (of_decide_eq_true hsame)
      rw [List.foldl_cons, emplace, if_neg hnew, ih (by simpa using h)]
      simp

theorem mem_assign : other ∈ assign key table item ↔
    other = item ∨ other ∈ table ∧ key other ≠ key item := by
  simp only [assign, List.mem_append, List.mem_filter, List.mem_singleton, decide_eq_true_eq]
  tauto

theorem Distinct.assign (h : Distinct key table) (item : α) :
    Distinct key (assign key table item) := by
  unfold Distinct Keyed.assign
  rw [List.map_append, List.nodup_append]
  refine ⟨h.sublist (List.filter_sublist.map key), List.nodup_singleton _, ?_⟩
  intro first hfirst second hsecond
  obtain ⟨old, hold, rfl⟩ := List.mem_map.mp hfirst
  rw [List.map_singleton, List.mem_singleton] at hsecond
  rw [hsecond]
  simpa using (List.mem_filter.mp hold).2

theorem Distinct.assignAll (h : Distinct key table) (items : List α) :
    Distinct key (assignAll key table items) := by
  induction items generalizing table with
  | nil => exact h
  | cons item items ih => exact ih (h.assign item)

/-- What was in the table stays unless an item with its key is assigned. -/
theorem mem_assignAll (h : Distinct key items) : other ∈ assignAll key table items ↔
    other ∈ items ∨ other ∈ table ∧ key other ∉ items.map key := by
  induction items generalizing table with
  | nil => simp [assignAll]
  | cons item items ih =>
      rw [Distinct, List.map_cons, List.nodup_cons] at h
      obtain ⟨hitem, hitems⟩ := h
      change other ∈ Keyed.assignAll key (assign key table item) items ↔ _
      rw [ih hitems, mem_assign, List.map_cons, List.mem_cons, List.mem_cons]
      constructor
      · rintro (hlater | ⟨rfl | ⟨hold, hne⟩, hnot⟩)
        · exact Or.inl (Or.inr hlater)
        · exact Or.inl (Or.inl rfl)
        · exact Or.inr ⟨hold, fun hmem => hmem.elim hne hnot⟩
      · rintro ((rfl | hlater) | ⟨hold, hnot⟩)
        · exact Or.inr ⟨Or.inl rfl, hitem⟩
        · exact Or.inl hlater
        · rw [not_or] at hnot
          exact Or.inr ⟨Or.inr ⟨hold, hnot.1⟩, hnot.2⟩

/-- A table that holds what was last reported goes on to, when a report is assigned to it. -/
theorem mem_assignAll_of_lastReported {reports : List (List α)} {report : List α}
    (htable : ∀ item, item ∈ table ↔ LastReported key reports item)
    (hreport : Distinct key report) (item : α) :
    item ∈ assignAll key table report ↔ LastReported key (reports ++ [report]) item := by
  rw [mem_assignAll hreport, lastReported_concat, htable]

end Keyed
end Aa2acp
