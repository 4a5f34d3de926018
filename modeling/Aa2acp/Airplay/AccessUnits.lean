import Aa2acp.Airplay.SliceHeader
import Aa2acp.Bridge.MediaForwarders
import Aa2acp.Lib.Grouping

/-!
# Access units

`h264_access_units` of `airplay/session.cpp` cuts a list of NAL units into access units.
`has_vcl` says whether the current one contains a slice (`Grouping.Agrees`), so the loop is
the cutting of a list into groups (`h264AccessUnits_eq`), where a NAL unit that
`StartsAccessUnit` begins a new group.
-/

namespace Aa2acp
namespace Airplay

open Bridge.MediaForwarders (naluType)

/-- The variables of the loop. -/
structure AccessUnitLoop where
  result : List (List Bytes) := []
  current : List Bytes := []
  hasVcl : Bool := false
deriving DecidableEq

namespace AccessUnitLoop

def flush (loop : AccessUnitLoop) : AccessUnitLoop :=
  { result := if loop.current = [] then loop.result else loop.result ++ [loop.current] }

/-- One turn of the loop. -/
def add (loop : AccessUnitLoop) (nalu : Bytes) : AccessUnitLoop :=
  if nalu = [] then loop
  else
    let type := naluType nalu
    let loop := if type = 9 ∨ ((type = 7 ∨ type = 8) ∧ loop.hasVcl) then loop.flush else loop
    let loop :=
      if 1 ≤ type ∧ type ≤ 5 then
        let firstMb := firstMbInSlice nalu
        let loop := if loop.hasVcl ∧ (firstMb = none ∨ firstMb = some 0) then loop.flush else loop
        { loop with hasVcl := true }
      else loop
    { loop with current := loop.current ++ [nalu] }

end AccessUnitLoop

def h264AccessUnits (nalus : List Bytes) : List (List Bytes) :=
  (nalus.foldl AccessUnitLoop.add {}).flush.result

/-! ## Where a unit begins -/

def IsSlice (nalu : Bytes) : Prop := 1 ≤ naluType nalu ∧ naluType nalu ≤ 5

instance : DecidablePred IsSlice := fun _ => inferInstanceAs (Decidable (_ ∧ _))

/-- A sequence or picture parameter set. -/
def IsParameterSet (nalu : Bytes) : Prop := naluType nalu = 7 ∨ naluType nalu = 8

instance : DecidablePred IsParameterSet := fun _ => inferInstanceAs (Decidable (_ ∨ _))

/-- A slice of which the first macroblock is not known to be another one than the first. -/
def BeginsPicture (nalu : Bytes) : Prop := firstMbInSlice nalu = none ∨ firstMbInSlice nalu = some 0

instance : DecidablePred BeginsPicture := fun _ => inferInstanceAs (Decidable (_ ∨ _))

def ContainsSlice (accessUnit : List Bytes) : Prop := ∃ nalu ∈ accessUnit, IsSlice nalu

instance : DecidablePred ContainsSlice := fun accessUnit =>
  inferInstanceAs (Decidable (∃ nalu ∈ accessUnit, IsSlice nalu))

/-- The NAL unit does not belong to the access unit before it. -/
def StartsAccessUnit (accessUnit : List Bytes) (nalu : Bytes) : Prop :=
  naluType nalu = 9 ∨
    ContainsSlice accessUnit ∧ (IsParameterSet nalu ∨ IsSlice nalu ∧ BeginsPicture nalu)

instance (accessUnit : List Bytes) (nalu : Bytes) : Decidable (StartsAccessUnit accessUnit nalu) :=
  inferInstanceAs (Decidable (_ ∨ _))

open Grouping

/-- `has_vcl` says whether the current unit contains a slice. -/
def AccessUnitLoop.Agrees (loop : AccessUnitLoop) : Prop :=
  loop.hasVcl = true ↔ ContainsSlice loop.current

variable {loop : AccessUnitLoop} {nalu : Bytes}

theorem containsSlice_concat (accessUnit : List Bytes) (nalu : Bytes) :
    ContainsSlice (accessUnit ++ [nalu]) ↔ ContainsSlice accessUnit ∨ IsSlice nalu := by
  simp only [ContainsSlice, List.mem_append, List.mem_singleton]
  constructor
  · rintro ⟨other, hmem | rfl, hslice⟩
    · exact Or.inl ⟨other, hmem, hslice⟩
    · exact Or.inr hslice
  · rintro (⟨other, hmem, hslice⟩ | hslice)
    · exact ⟨other, Or.inl hmem, hslice⟩
    · exact ⟨nalu, Or.inr rfl, hslice⟩

theorem containsSlice_singleton : ContainsSlice [nalu] ↔ IsSlice nalu := by
  simp [ContainsSlice]

theorem not_containsSlice_nil : ¬ ContainsSlice [] := by
  rintro ⟨nalu, hmem, -⟩
  cases hmem

/-- A NAL unit that begins an access unit: one of the two conditions for a flush is met. -/
theorem AccessUnitLoop.Agrees.add_of_starts (h : loop.Agrees) (hnalu : nalu ≠ [])
    (hstarts : StartsAccessUnit loop.current nalu) :
    loop.add nalu =
      { result := loop.flush.result, current := [nalu], hasVcl := decide (IsSlice nalu) } := by
  unfold AccessUnitLoop.add
  rw [if_neg hnalu]
  dsimp only
  by_cases hslice : IsSlice nalu
  · have hrange : 1 ≤ naluType nalu ∧ naluType nalu ≤ 5 := hslice
    have hfirst : ¬ (naluType nalu = 9 ∨
        (naluType nalu = 7 ∨ naluType nalu = 8) ∧ loop.hasVcl = true) := by omega
    have hsecond : loop.hasVcl = true ∧ (firstMbInSlice nalu = none ∨ firstMbInSlice nalu = some 0) := by
      rcases hstarts with hnine | ⟨hcontains, hset | ⟨-, hbegins⟩⟩
      · omega
      · rcases hset with hseven | height
        · omega
        · omega
      · exact ⟨h.mpr hcontains, hbegins⟩
    rw [if_neg hfirst, if_pos hrange, if_pos hsecond, decide_eq_true hslice]
    rfl
  · have hrange : ¬ (1 ≤ naluType nalu ∧ naluType nalu ≤ 5) := hslice
    have hfirst : naluType nalu = 9 ∨ (naluType nalu = 7 ∨ naluType nalu = 8) ∧ loop.hasVcl = true := by
      rcases hstarts with hnine | ⟨hcontains, hset | ⟨hisSlice, -⟩⟩
      · exact Or.inl hnine
      · exact Or.inr ⟨hset, h.mpr hcontains⟩
      · exact absurd hisSlice hslice
    rw [if_pos hfirst, if_neg hrange, decide_eq_false hslice]
    rfl

/-- A NAL unit that goes to the current access unit. -/
theorem AccessUnitLoop.Agrees.add_of_not_starts (h : loop.Agrees) (hnalu : nalu ≠ [])
    (hstays : ¬ StartsAccessUnit loop.current nalu) :
    loop.add nalu =
      { loop with
        current := loop.current ++ [nalu]
        hasVcl := loop.hasVcl || decide (IsSlice nalu) } := by
  have hfirst : ¬ (naluType nalu = 9 ∨
      (naluType nalu = 7 ∨ naluType nalu = 8) ∧ loop.hasVcl = true) := by
    rintro (hnine | ⟨hset, hvcl⟩)
    · exact hstays (Or.inl hnine)
    · exact hstays (Or.inr ⟨h.mp hvcl, Or.inl hset⟩)
  unfold AccessUnitLoop.add
  rw [if_neg hnalu]
  dsimp only
  rw [if_neg hfirst]
  by_cases hslice : IsSlice nalu
  · have hrange : 1 ≤ naluType nalu ∧ naluType nalu ≤ 5 := hslice
    have hsecond : ¬ (loop.hasVcl = true ∧
        (firstMbInSlice nalu = none ∨ firstMbInSlice nalu = some 0)) := by
      rintro ⟨hvcl, hbegins⟩
      exact hstays (Or.inr ⟨h.mp hvcl, Or.inr ⟨hslice, hbegins⟩⟩)
    rw [if_pos hrange, if_neg hsecond, decide_eq_true hslice, Bool.or_true]
  · have hrange : ¬ (1 ≤ naluType nalu ∧ naluType nalu ≤ 5) := hslice
    rw [if_neg hrange, decide_eq_false hslice, Bool.or_false]

/-- One turn of the loop keeps what `has_vcl` says. -/
theorem AccessUnitLoop.Agrees.add (h : loop.Agrees) (hnalu : nalu ≠ []) : (loop.add nalu).Agrees := by
  by_cases hstarts : StartsAccessUnit loop.current nalu
  · rw [h.add_of_starts hnalu hstarts]
    exact decide_eq_true_iff.trans containsSlice_singleton.symm
  · rw [h.add_of_not_starts hnalu hstarts]
    show (loop.hasVcl || decide (IsSlice nalu)) = true ↔ ContainsSlice (loop.current ++ [nalu])
    rw [Bool.or_eq_true, decide_eq_true_iff, containsSlice_concat]
    exact or_congr_left h

/-- The loop from some point on. -/
theorem AccessUnitLoop.Agrees.foldl (h : loop.Agrees) (hcurrent : loop.current ≠ []) (nalus : List Bytes) :
    (nalus.foldl AccessUnitLoop.add loop).flush.result =
      loop.result ++ groupsFrom StartsAccessUnit loop.current (nalus.filter (· ≠ [])) := by
  induction nalus generalizing loop with
  | nil =>
      show loop.flush.result = loop.result ++ [loop.current]
      unfold flush
      exact if_neg hcurrent
  | cons nalu nalus ih =>
      rw [List.foldl_cons]
      by_cases hnalu : nalu = []
      · have hskip : loop.add nalu = loop := if_pos hnalu
        rw [hskip, ih h hcurrent, List.filter_cons_of_neg (by simpa using hnalu)]
      · have hagrees := h.add hnalu
        rw [List.filter_cons_of_pos (by simpa using hnalu), groupsFrom]
        by_cases hstarts : StartsAccessUnit loop.current nalu
        · have hflush : loop.flush.result = loop.result ++ [loop.current] := if_neg hcurrent
          have hadd := h.add_of_starts hnalu hstarts
          rw [hadd] at hagrees ⊢
          rw [if_pos hstarts, ih hagrees (List.cons_ne_nil _ _), hflush, List.append_assoc,
            List.singleton_append]
        · have hadd := h.add_of_not_starts hnalu hstarts
          rw [hadd] at hagrees ⊢
          rw [if_neg hstarts, ih hagrees (List.concat_ne_nil _ _)]

/-- The access units are the groups of the NAL units that are not empty. -/
theorem h264AccessUnits_eq (nalus : List Bytes) :
    h264AccessUnits nalus = groups StartsAccessUnit (nalus.filter (· ≠ [])) := by
  unfold h264AccessUnits
  have hempty : AccessUnitLoop.Agrees {} := iff_of_false Bool.false_ne_true not_containsSlice_nil
  induction nalus with
  | nil => rfl
  | cons nalu nalus ih =>
      rw [List.foldl_cons]
      by_cases hnalu : nalu = []
      · have hskip : AccessUnitLoop.add {} nalu = {} := if_pos hnalu
        rw [hskip, ih, List.filter_cons_of_neg (by simpa using hnalu)]
      · have hagrees := hempty.add hnalu
        -- nothing was there to flush
        have hfirst : (AccessUnitLoop.add {} nalu).current = [nalu] ∧
            (AccessUnitLoop.add {} nalu).result = [] := by
          by_cases hstarts : StartsAccessUnit [] nalu
          · rw [hempty.add_of_starts hnalu hstarts]
            exact ⟨rfl, rfl⟩
          · rw [hempty.add_of_not_starts hnalu hstarts]
            exact ⟨rfl, rfl⟩
        rw [hagrees.foldl (by rw [hfirst.1]; exact List.cons_ne_nil _ _), hfirst.1, hfirst.2,
          List.filter_cons_of_pos (by simpa using hnalu), groups, List.nil_append]

/-- The access units are the NAL units that are not empty, in order, and none of them is empty;
inside a unit no delimiter comes, no parameter set behind a slice, and no slice behind another
one that may begin a picture; and every unit but the first begins with a delimiter, or behind
a unit with a slice with a parameter set or a slice that may begin a picture. -/
theorem h264AccessUnits_exact (nalus : List Bytes) :
    (h264AccessUnits nalus).flatten = nalus.filter (· ≠ []) ∧
    (∀ accessUnit ∈ h264AccessUnits nalus, accessUnit ≠ []) ∧
    (∀ accessUnit ∈ h264AccessUnits nalus, ∀ before nalu after,
      accessUnit = before ++ nalu :: after → before ≠ [] →
        naluType nalu ≠ 9 ∧ (IsParameterSet nalu → ¬ ContainsSlice before) ∧
          (IsSlice nalu → ContainsSlice before → ∃ firstMb, firstMbInSlice nalu = some firstMb ∧
            firstMb ≠ 0)) ∧
    (∀ before previous accessUnit after,
      h264AccessUnits nalus = before ++ previous :: accessUnit :: after →
        ∃ first rest, accessUnit = first :: rest ∧
          (naluType first = 9 ∨ ContainsSlice previous ∧
            (IsParameterSet first ∨ IsSlice first ∧
              (firstMbInSlice first = none ∨ firstMbInSlice first = some 0)))) := by
  rw [h264AccessUnits_eq]
  refine ⟨flatten_groups _, groups_ne_nil, ?_, ?_⟩
  · intro accessUnit hmem before nalu after heq hbefore
    have hstays := settled_groups accessUnit hmem before nalu after heq hbefore
    unfold StartsAccessUnit at hstays
    push Not at hstays
    obtain ⟨hnine, hrest⟩ := hstays
    refine ⟨hnine, fun hset hcontains => (hrest hcontains).1 hset, fun hslice hcontains => ?_⟩
    have hdecoded := (hrest hcontains).2 hslice
    cases hfirst : firstMbInSlice nalu with
    | none => exact absurd (Or.inl hfirst) hdecoded
    | some firstMb =>
        refine ⟨firstMb, rfl, ?_⟩
        rintro rfl
        exact hdecoded (Or.inr hfirst)
  · intro before previous accessUnit after heq
    have hchain : (groups StartsAccessUnit (nalus.filter (· ≠ []))).IsChain fun previous next =>
        ∃ first rest, next = first :: rest ∧ StartsAccessUnit previous first := isChain_groups _
    rw [heq] at hchain
    exact (List.isChain_cons_cons.mp hchain.right_of_append).1

/-- Parameter sets, a picture of two slices, an empty NAL unit and the next picture. -/
def twoPictures : List Bytes := [[0x67], [0x68], [0x65, 0x80], [0x41, 0x40], [], [0x41, 0x80]]

/-- The second slice of a picture stays with the first one. -/
theorem h264AccessUnits_exact_twoPictures :
    h264AccessUnits twoPictures = [[[0x67], [0x68], [0x65, 0x80], [0x41, 0x40]], [[0x41, 0x80]]] ∧
      (∃ firstMb, firstMbInSlice [0x41, 0x40] = some firstMb ∧ firstMb ≠ 0) ∧
      (naluType [0x41, 0x80] = 9 ∨
        ContainsSlice [[0x67], [0x68], [0x65, 0x80], [0x41, 0x40]] ∧
          (IsParameterSet [0x41, 0x80] ∨ IsSlice [0x41, 0x80] ∧
            (firstMbInSlice [0x41, 0x80] = none ∨ firstMbInSlice [0x41, 0x80] = some 0))) := by
  have hunits : h264AccessUnits twoPictures =
      [[[0x67], [0x68], [0x65, 0x80], [0x41, 0x40]], [[0x41, 0x80]]] := by decide +kernel
  obtain ⟨-, -, hinside, hboundary⟩ := h264AccessUnits_exact twoPictures
  obtain ⟨first, rest, heq, hfirst⟩ := hboundary [] _ _ [] hunits
  obtain ⟨rfl, rfl⟩ := List.cons.inj heq
  refine ⟨hunits, ?_, hfirst⟩
  exact (hinside [[0x67], [0x68], [0x65, 0x80], [0x41, 0x40]] (by rw [hunits]; exact List.mem_cons_self)
    [[0x67], [0x68], [0x65, 0x80]] [0x41, 0x40] [] rfl (List.cons_ne_nil _ _)).2.2 (by decide) (by decide)

end Airplay
end Aa2acp
