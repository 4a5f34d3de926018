import Aa2acp.Lib.Bytes

/-!
# Tagged items

An item is a tag, the length of its value in one byte, and the value.  A string of whole
items can be read in one way only, and every string is one up to a rest that is empty, a
lone tag, or an item whose value breaks off.

A longer value travels in several items of one tag.  A reader that joins the values of
each tag (`Joined`) has the value back, whatever stands between its parts.
-/

namespace Aa2acp
namespace TaggedItems

/-- An item as it is sent. -/
def sent (item : UInt8 × Bytes) : Bytes := item.1 :: UInt8.ofNat item.2.length :: item.2

/-- The lengths that one byte can tell apart. -/
def Fits (item : UInt8 × Bytes) : Prop := item.2.length < 256

def stream (items : List (UInt8 × Bytes)) : Bytes := items.flatMap sent

@[simp] theorem stream_nil : stream [] = [] := rfl

@[simp] theorem stream_cons (item : UInt8 × Bytes) (items : List (UInt8 × Bytes)) :
    stream (item :: items) = sent item ++ stream items := List.flatMap_cons

/-- The concatenation of whole items. -/
def Whole (bytes : Bytes) : Prop := ∃ items, (∀ item ∈ items, Fits item) ∧ bytes = stream items

/-- An item of which a part of the value is missing. -/
def CutValue (bytes : Bytes) : Prop :=
  ∃ tag size value, bytes = tag :: size :: value ∧ value.length < size.toNat

theorem toNat_length {item : UInt8 × Bytes} (h : Fits item) :
    (UInt8.ofNat item.2.length).toNat = item.2.length :=
  UInt8.toNat_ofNat_of_lt' h

/-- An item at the front of a string: its value, and what is behind it. -/
theorem exists_sent_append (tag : UInt8) {size : UInt8} {rest : Bytes}
    (h : size.toNat ≤ rest.length) :
    Fits (tag, rest.take size.toNat) ∧
      tag :: size :: rest = sent (tag, rest.take size.toNat) ++ rest.drop size.toNat := by
  have hlength : (rest.take size.toNat).length = size.toNat := List.length_take_of_le h
  constructor
  · unfold Fits
    rw [hlength]
    exact size.toNat_lt
  · unfold sent
    rw [hlength, UInt8.ofNat_toNat, List.cons_append, List.cons_append, List.take_append_drop]

/-- Every string is made of whole items and one of three rests. -/
theorem exists_stream_append (bytes : Bytes) :
    ∃ items rest, (∀ item ∈ items, Fits item) ∧ bytes = stream items ++ rest ∧
      (rest = [] ∨ (∃ tag, rest = [tag]) ∨ CutValue rest) := by
  match bytes with
  | [] => exact ⟨[], [], by simp, rfl, Or.inl rfl⟩
  | [tag] => exact ⟨[], [tag], by simp, rfl, Or.inr (Or.inl ⟨tag, rfl⟩)⟩
  | tag :: size :: rest =>
      by_cases hsize : size.toNat ≤ rest.length
      · obtain ⟨hfits, hfirst⟩ := exists_sent_append tag hsize
        obtain ⟨items, tail, hitems, hrest, htail⟩ := exists_stream_append (rest.drop size.toNat)
        refine ⟨(tag, rest.take size.toNat) :: items, tail, List.forall_mem_cons.mpr ⟨hfits, hitems⟩,
          ?_, htail⟩
        rw [hfirst, stream_cons, List.append_assoc, ← hrest]
      · exact ⟨[], tag :: size :: rest, by simp, rfl,
          Or.inr (Or.inr ⟨tag, size, rest, rfl, Nat.lt_of_not_le hsize⟩)⟩
termination_by bytes.length
decreasing_by
  rw [List.length_drop, List.length_cons, List.length_cons]
  omega

/-- The item at the front of a string is determined. -/
theorem sent_append_inj {item other : UInt8 × Bytes} {rest rest' : Bytes} (hitem : Fits item)
    (hother : Fits other) (h : sent item ++ rest = sent other ++ rest') :
    item = other ∧ rest = rest' := by
  simp only [sent, List.cons_append, List.cons.injEq] at h
  obtain ⟨htag, hsize, hvalue⟩ := h
  have hlength : item.2.length = other.2.length := by
    rw [← toNat_length hitem, hsize, toNat_length hother]
  obtain ⟨hvalues, hrest⟩ := List.append_inj hvalue hlength
  exact ⟨Prod.ext htag hvalues, hrest⟩

/-- A lone tag behind whole items does not belong to any. -/
theorem not_whole_append_tag {items : List (UInt8 × Bytes)} (hitems : ∀ item ∈ items, Fits item)
    (tag : UInt8) : ¬ Whole (stream items ++ [tag]) := by
  rintro ⟨others, hothers, h⟩
  induction items generalizing others with
  | nil =>
      -- one byte is less than an item
      have hlength := congrArg List.length h
      cases others with
      | nil => simp at hlength
      | cons other others => simp [sent] at hlength
  | cons item items ih =>
      obtain ⟨hitem, hitems⟩ := List.forall_mem_cons.mp hitems
      cases others with
      | nil => simp [sent] at h
      | cons other others =>
          obtain ⟨hother, hothers⟩ := List.forall_mem_cons.mp hothers
          rw [stream_cons, stream_cons, List.append_assoc] at h
          exact ih hitems others hothers (sent_append_inj hitem hother h).2

section Joining

variable {κ α : Type}

/-- A tag is on some item. -/
def Occurs (items : List (κ × List α)) (tag : κ) : Prop := ∃ item ∈ items, item.1 = tag

theorem occurs_append_singleton {items : List (κ × List α)} {item : κ × List α} {tag : κ} :
    Occurs (items ++ [item]) tag ↔ Occurs items tag ∨ item.1 = tag := by
  simp [Occurs, or_and_right, exists_or]

variable [DecidableEq κ]

/-- The values of one tag, in order. -/
def valuesOf (items : List (κ × List α)) (tag : κ) : List α :=
  (items.filter fun item => item.1 = tag).flatMap Prod.snd

@[simp] theorem valuesOf_append (items others : List (κ × List α)) (tag : κ) :
    valuesOf (items ++ others) tag = valuesOf items tag ++ valuesOf others tag := by
  unfold valuesOf
  rw [List.filter_append, List.flatMap_append]

theorem valuesOf_singleton (item : κ × List α) (tag : κ) :
    valuesOf [item] tag = if item.1 = tag then item.2 else [] := by
  unfold valuesOf
  by_cases htag : item.1 = tag <;> simp [htag]

theorem valuesOf_eq_nil {items : List (κ × List α)} {tag : κ} (h : ¬ Occurs items tag) :
    valuesOf items tag = [] := by
  have hfilter : items.filter (fun item => item.1 = tag) = [] := by
    rw [List.filter_eq_nil_iff]
    intro item hitem htag
    exact h ⟨item, hitem, of_decide_eq_true htag⟩
  rw [valuesOf, hfilter, List.flatMap_nil]

/-- One entry for each tag: its values, joined. -/
structure Joined (entries items : List (κ × List α)) : Prop where
  nodup : (entries.map Prod.fst).Nodup
  mem_iff : ∀ tag value, (tag, value) ∈ entries ↔ Occurs items tag ∧ value = valuesOf items tag

/-- A value joins the entry of its tag. -/
def joinAt (entries : List (κ × List α)) (tag : κ) (value : List α) : List (κ × List α) :=
  if entries.any fun entry => entry.1 = tag then
    entries.map fun entry => if entry.1 = tag then (entry.1, entry.2 ++ value) else entry
  else entries ++ [(tag, value)]

theorem joined_nil : Joined ([] : List (κ × List α)) [] :=
  ⟨List.nodup_nil, by simp [Occurs]⟩

theorem Joined.mem_tags_iff {entries items : List (κ × List α)} (h : Joined entries items) (tag : κ) :
    tag ∈ entries.map Prod.fst ↔ Occurs items tag := by
  constructor
  · intro htag
    obtain ⟨⟨_, value⟩, hentry, rfl⟩ := List.mem_map.mp htag
    exact ((h.mem_iff _ value).mp hentry).1
  · intro hoccurs
    exact List.mem_map.mpr ⟨_, (h.mem_iff tag _).mpr ⟨hoccurs, rfl⟩, rfl⟩

theorem any_tag_iff {entries : List (κ × List α)} {tag : κ} :
    (entries.any fun entry => entry.1 = tag) = true ↔ tag ∈ entries.map Prod.fst := by
  simp [List.any_eq_true]

theorem tags_join (entries : List (κ × List α)) (tag : κ) (value : List α) :
    (entries.map fun entry => if entry.1 = tag then (entry.1, entry.2 ++ value) else entry).map
      Prod.fst = entries.map Prod.fst := by
  rw [List.map_map]
  apply List.map_congr_left
  intro entry _
  by_cases hentry : entry.1 = tag <;> simp [hentry]

/-- The entry of the tag is longer; the entries of other tags stay. -/
theorem mem_join_iff {entries : List (κ × List α)} {tag other : κ} {value joined : List α} :
    (other, joined) ∈
        (entries.map fun entry => if entry.1 = tag then (entry.1, entry.2 ++ value) else entry) ↔
      (other = tag ∧ ∃ first, (tag, first) ∈ entries ∧ joined = first ++ value) ∨
        (other ≠ tag ∧ (other, joined) ∈ entries) := by
  rw [List.mem_map]
  constructor
  · rintro ⟨⟨found, first⟩, hentry, hjoined⟩
    by_cases hfound : found = tag
    · rw [if_pos hfound] at hjoined
      cases hjoined
      exact Or.inl ⟨hfound, first, hfound ▸ hentry, rfl⟩
    · rw [if_neg hfound] at hjoined
      cases hjoined
      exact Or.inr ⟨hfound, hentry⟩
  · rintro (⟨rfl, first, hentry, rfl⟩ | ⟨hother, hentry⟩)
    · exact ⟨_, hentry, if_pos rfl⟩
    · exact ⟨_, hentry, if_neg hother⟩

/-- Another item of a tag that is there. -/
theorem Joined.joinAt_mem {entries items : List (κ × List α)} (h : Joined entries items) {tag : κ}
    (htag : tag ∈ entries.map Prod.fst) (value : List α) :
    Joined (entries.map fun entry => if entry.1 = tag then (entry.1, entry.2 ++ value) else entry)
      (items ++ [(tag, value)]) := by
  constructor
  · rw [tags_join]
    exact h.nodup
  · intro other joined
    rw [mem_join_iff, occurs_append_singleton, valuesOf_append, valuesOf_singleton]
    by_cases hother : tag = other
    · subst hother
      rw [if_pos rfl]
      constructor
      · rintro (⟨-, first, hentry, rfl⟩ | ⟨hne, -⟩)
        · rw [((h.mem_iff tag first).mp hentry).2]
          exact ⟨Or.inr rfl, rfl⟩
        · exact absurd rfl hne
      · rintro ⟨-, rfl⟩
        have hoccurs := (h.mem_tags_iff tag).mp htag
        exact Or.inl ⟨rfl, _, (h.mem_iff _ _).mpr ⟨hoccurs, rfl⟩, rfl⟩
    · rw [if_neg hother, List.append_nil, or_iff_left hother, ← h.mem_iff]
      exact ⟨fun hjoined => hjoined.elim (fun hsame => absurd hsame.1.symm hother) And.right,
        fun hentry => Or.inr ⟨Ne.symm hother, hentry⟩⟩

/-- The first item of a tag. -/
theorem Joined.joinAt_new {entries items : List (κ × List α)} (h : Joined entries items) {tag : κ}
    (htag : tag ∉ entries.map Prod.fst) (value : List α) :
    Joined (entries ++ [(tag, value)]) (items ++ [(tag, value)]) := by
  have hoccurs : ¬ Occurs items tag := fun hoccurs => htag ((h.mem_tags_iff tag).mpr hoccurs)
  constructor
  · rw [List.map_append]
    exact List.Nodup.append h.nodup (List.nodup_singleton tag) (by simpa using htag)
  · intro other joined
    rw [occurs_append_singleton, valuesOf_append, valuesOf_singleton, List.mem_append, h.mem_iff,
      List.mem_singleton, Prod.mk.injEq]
    by_cases hother : tag = other
    · subst hother
      simp [hoccurs, valuesOf_eq_nil hoccurs]
    · simp [hother, Ne.symm hother]

/-- One more item. -/
theorem Joined.joinAt {entries items : List (κ × List α)} (h : Joined entries items) (tag : κ)
    (value : List α) : Joined (joinAt entries tag value) (items ++ [(tag, value)]) := by
  unfold TaggedItems.joinAt
  split
  · rename_i htag
    exact h.joinAt_mem (any_tag_iff.mp htag) value
  · rename_i htag
    exact h.joinAt_new (fun hmem => htag (any_tag_iff.mpr hmem)) value

theorem Joined.foldl {entries before : List (κ × List α)} (h : Joined entries before)
    (items : List (κ × List α)) :
    Joined (items.foldl (fun entries item => TaggedItems.joinAt entries item.1 item.2) entries)
      (before ++ items) := by
  induction items generalizing entries before with
  | nil => rwa [List.append_nil]
  | cons item items ih =>
      rw [List.foldl_cons, List.append_cons]
      exact ih (h.joinAt item.1 item.2)

/-- There is an entry as soon as there is an item. -/
theorem Joined.ne_nil {entries items : List (κ × List α)} (h : Joined entries items)
    (hitems : items ≠ []) : entries ≠ [] := by
  obtain ⟨item, items, rfl⟩ := List.exists_cons_of_ne_nil hitems
  exact List.ne_nil_of_mem ((h.mem_iff item.1 _).mpr ⟨⟨item, List.mem_cons_self, rfl⟩, rfl⟩)

end Joining

section Parts

variable {α : Type}

theorem toChunks_go (size : ℕ) (xs : List α) (part : Array α) (parts : Array (List α))
    (hpart : 0 < part.size) (hsize : part.size ≤ size)
    (hparts : ∀ chunk ∈ parts, 0 < chunk.length ∧ chunk.length ≤ size) :
    (List.toChunks.go size xs part parts).flatten = parts.toList.flatten ++ part.toList ++ xs ∧
      ∀ chunk ∈ List.toChunks.go size xs part parts, 0 < chunk.length ∧ chunk.length ≤ size := by
  induction xs generalizing part parts with
  | nil =>
      unfold List.toChunks.go
      refine ⟨by simp, ?_⟩
      rw [Array.toList_push, List.forall_mem_append]
      exact ⟨fun chunk hchunk => hparts chunk (Array.mem_def.mpr hchunk), by simp [hpart, hsize]⟩
  | cons x xs ih =>
      unfold List.toChunks.go
      split
      · -- the part is full
        have hpushed : ∀ chunk ∈ parts.push part.toList, 0 < chunk.length ∧ chunk.length ≤ size :=
          Array.forall_mem_push.mpr ⟨⟨hpart, hsize⟩, hparts⟩
        obtain ⟨hflatten, hall⟩ := ih ((Array.mkEmpty size).push x) _ (by simp) (by simp; omega) hpushed
        exact ⟨by rw [hflatten]; simp, hall⟩
      · rename_i hfull
        have hroom : part.size ≠ size := fun hsame => hfull (beq_iff_eq.mpr hsame)
        obtain ⟨hflatten, hall⟩ := ih (part.push x) parts (by simp) (by simp; omega) hparts
        exact ⟨by rw [hflatten]; simp, hall⟩

/-- A value in parts of at most `size`: they join to it, and none is empty. -/
theorem toChunks_spec {size : ℕ} (hsize : 0 < size) (value : List α) :
    (value.toChunks size).flatten = value ∧
      ∀ chunk ∈ value.toChunks size, 0 < chunk.length ∧ chunk.length ≤ size := by
  cases value with
  | nil =>
      rw [List.toChunks]
      exact ⟨rfl, by simp⟩
  | cons x xs =>
      obtain ⟨size, rfl⟩ := Nat.exists_eq_succ_of_ne_zero (Nat.ne_of_gt hsize)
      simpa [List.toChunks] using
        toChunks_go (size + 1) xs #[x] #[] (by simp) (by simp) (by simp)

end Parts

end TaggedItems
end Aa2acp
