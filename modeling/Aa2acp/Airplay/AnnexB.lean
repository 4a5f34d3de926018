import Aa2acp.Bridge.MediaQueue
import Mathlib.Data.List.GetD

/-!
# NAL units in a byte stream

Both overloads of `h264_nalus` in `airplay/session.cpp`, which cut a byte stream at its start
codes, and the frame that `send_access_unit` makes of an access unit.  The loops count
offsets; `VideoSocketForwarder::nalus` has a copy of them that differs in how it tests for a
start code.  All of them cut every byte stream in the same way (`h264Nalus_eq`), and what
was joined with start codes of three or four bytes comes back (`nalus_joined`).
-/

namespace Aa2acp
namespace Airplay

open Bridge.MediaForwarders LengthPrefix

/-- The length of the start code at the offset, 0 if there is none. -/
def startCodeAt (input : Bytes) (offset : ℕ) : ℕ :=
  if offset + 4 ≤ input.length ∧ input.getD offset 0 = 0 ∧ input.getD (offset + 1) 0 = 0 ∧
      input.getD (offset + 2) 0 = 0 ∧ input.getD (offset + 3) 0 = 1 then 4
  else if input.getD offset 0 = 0 ∧ input.getD (offset + 1) 0 = 0 ∧ input.getD (offset + 2) 0 = 1 then 3
  else 0

/-- The inner loop: where the next start code is, or the end of the input. -/
def naluEnd (input : Bytes) (stop : ℕ) : ℕ :=
  if stop + 3 ≤ input.length then
    if startCodeAt input stop = 0 then naluEnd input (stop + 1) else stop
  else input.length
termination_by input.length - stop

theorem offset_add_startCodeAt {input : Bytes} {offset : ℕ} (h : offset + 3 ≤ input.length) :
    offset + startCodeAt input offset ≤ input.length := by
  unfold startCodeAt
  split
  · rename_i hfour
    exact hfour.1
  · split
    · exact h
    · omega

theorem le_naluEnd {input : Bytes} {stop : ℕ} (h : stop ≤ input.length) : stop ≤ naluEnd input stop := by
  induction stop using naluEnd.induct input with
  | case1 stop hroom hzero ih =>
      rw [naluEnd, if_pos hroom, if_pos hzero]
      exact (Nat.le_succ stop).trans (ih (by omega))
  | case2 stop hroom hzero => rw [naluEnd, if_pos hroom, if_neg hzero]
  | case3 stop hroom =>
      rw [naluEnd, if_neg hroom]
      exact h

/-- The outer loop. -/
def h264NalusFrom (input : Bytes) (offset : ℕ) : List Bytes :=
  if _h : offset + 3 ≤ input.length then
    if _hzero : startCodeAt input offset = 0 then h264NalusFrom input (offset + 1)
    else
      let start := offset + startCodeAt input offset
      let stop := naluEnd input start
      let later := h264NalusFrom input stop
      if start < stop then (input.take stop).drop start :: later else later
  else []
termination_by input.length - offset
decreasing_by
  · omega
  · have hstart := offset_add_startCodeAt _h
    have hstop := le_naluEnd hstart
    omega

/-- `h264_nalus` of a byte string. -/
def h264Nalus (input : Bytes) : List Bytes := h264NalusFrom input 0

/-- `h264_nalus` of the content of a file, if it can be opened. -/
def h264NalusOfFile : Option Bytes → List Bytes
  | none => []
  | some input => h264NalusFrom input 0

/-- The frame in `send_access_unit`: the slices, each with its length in front. -/
def accessUnitFrame (accessUnit : List Bytes) : Bytes :=
  accessUnit.flatMap fun nalu =>
    if nalu = [] ∨ (naluType nalu ≠ 1 ∧ naluType nalu ≠ 5) then []
    else bigEndian 4 nalu.length ++ nalu

/-! ## Offsets and what lies behind them -/

theorem startCode_cons (first second third : UInt8) (rest : Bytes) :
    startCode (first :: second :: third :: rest) =
      if 1 ≤ rest.length ∧ first = 0 ∧ second = 0 ∧ third = 0 ∧ rest.getD 0 0 = 1 then 4
      else if first = 0 ∧ second = 0 ∧ third = 1 then 3 else 0 := by
  unfold startCode
  split
  · rename_i heq
    cases heq
    exact (if_pos (by simp)).symm
  · rename_i hnot heq
    cases heq
    rw [if_neg, if_pos ⟨rfl, rfl, rfl⟩]
    rintro ⟨-, -, -, hthird, -⟩
    cases hthird
  · rename_i hfour hthree
    rw [if_neg, if_neg]
    · rintro ⟨rfl, rfl, rfl⟩
      exact hthree _ rfl
    · rintro ⟨hlength, rfl, rfl, rfl, hfourth⟩
      cases rest with
      | nil => cases hlength
      | cons byte rest =>
          obtain rfl : byte = 1 := hfourth
          exact hfour _ rfl

theorem startCode_of_short {bytes : Bytes} (h : bytes.length < 3) : startCode bytes = 0 := by
  match bytes, h with
  | [], _ => rfl
  | [_], _ => simp [startCode]
  | [_, _], _ => simp [startCode]

/-- The test at an offset is the one on what lies from there on. -/
theorem startCodeAt_eq {input : Bytes} {offset : ℕ} (h : offset + 3 ≤ input.length) :
    startCodeAt input offset = startCode (input.drop offset) := by
  obtain ⟨front, first, second, third, rest, rfl, rfl⟩ : ∃ front first second third rest,
      input = front ++ first :: second :: third :: rest ∧ front.length = offset := by
    have hdrop : 3 ≤ (input.drop offset).length := by
      rw [List.length_drop]
      omega
    match hcases : input.drop offset, hdrop with
    | first :: second :: third :: rest, _ =>
        refine ⟨input.take offset, first, second, third, rest, ?_, ?_⟩
        · rw [← hcases, List.take_append_drop]
        · rw [List.length_take]
          omega
  have hget : ∀ index, (front ++ first :: second :: third :: rest).getD (front.length + index) 0 =
      (first :: second :: third :: rest).getD index 0 := by
    intro index
    rw [List.getD_append_right _ _ _ _ (Nat.le_add_right _ _), Nat.add_sub_cancel_left]
  have hroom : front.length + 4 ≤ (front ++ first :: second :: third :: rest).length ↔
      1 ≤ rest.length := by
    rw [List.length_append]
    simp only [List.length_cons]
    omega
  have hzero := hget 0
  rw [Nat.add_zero] at hzero
  unfold startCodeAt
  rw [List.drop_left, startCode_cons, hzero, hget, hget, hget]
  simp only [hroom]
  rfl

theorem beforeStartCode_begins (bytes : Bytes) : beforeStartCode bytes <+: bytes := by
  induction bytes with
  | nil => exact List.prefix_rfl
  | cons byte rest ih =>
      rw [beforeStartCode]
      split
      · exact (List.prefix_cons_inj byte).mpr ih
      · exact List.nil_prefix

theorem beforeStartCode_of_short {bytes : Bytes} (h : bytes.length < 3) : beforeStartCode bytes = bytes := by
  induction bytes with
  | nil => rfl
  | cons byte rest ih =>
      rw [beforeStartCode, if_pos (startCode_of_short h), ih (by
        rw [List.length_cons] at h
        omega)]

/-- The inner loop passes the bytes before the next start code. -/
theorem naluEnd_eq {input : Bytes} {stop : ℕ} (h : stop ≤ input.length) :
    naluEnd input stop = stop + (beforeStartCode (input.drop stop)).length := by
  induction stop using naluEnd.induct input with
  | case1 stop hroom hzero ih =>
      have hlt : stop < input.length := by omega
      have hcode := startCodeAt_eq hroom
      rw [hzero, List.drop_eq_getElem_cons hlt] at hcode
      rw [naluEnd, if_pos hroom, if_pos hzero, ih (by omega), List.drop_eq_getElem_cons hlt,
        beforeStartCode, if_pos hcode.symm, List.length_cons]
      omega
  | case2 stop hroom hzero =>
      have hlt : stop < input.length := by omega
      have hcode := startCodeAt_eq hroom
      rw [hcode, List.drop_eq_getElem_cons hlt] at hzero
      rw [naluEnd, if_pos hroom, if_neg (by rw [hcode, List.drop_eq_getElem_cons hlt]; exact hzero),
        List.drop_eq_getElem_cons hlt, beforeStartCode, if_neg hzero]
      rfl
  | case3 stop hroom =>
      rw [naluEnd, if_neg hroom, beforeStartCode_of_short (by
        rw [List.length_drop]
        omega), List.length_drop]
      omega

theorem nalusFrom_of_short {bytes : Bytes} (h : bytes.length < 3) (fuel : ℕ) : nalusFrom fuel bytes = [] := by
  induction fuel generalizing bytes with
  | zero => rfl
  | succ fuel ih =>
      cases bytes with
      | nil => rfl
      | cons byte rest =>
          rw [nalusFrom, if_pos (startCode_of_short h)]
          apply ih
          rw [List.length_cons] at h
          omega

theorem h264NalusFrom_of_zero {input : Bytes} {offset : ℕ} (h : offset + 3 ≤ input.length)
    (hzero : startCodeAt input offset = 0) :
    h264NalusFrom input offset = h264NalusFrom input (offset + 1) := by
  rw [h264NalusFrom, dif_pos h, dif_pos hzero]

theorem h264NalusFrom_of_code {input : Bytes} {offset : ℕ} (h : offset + 3 ≤ input.length)
    (hcode : startCodeAt input offset ≠ 0) :
    h264NalusFrom input offset =
      let start := offset + startCodeAt input offset
      let stop := naluEnd input start
      if start < stop then (input.take stop).drop start :: h264NalusFrom input stop
      else h264NalusFrom input stop := by
  rw [h264NalusFrom, dif_pos h, dif_neg hcode]

/-- The loops over offsets and the recursion over what lies behind them do the same. -/
theorem h264NalusFrom_eq {input : Bytes} {offset fuel : ℕ} (hfuel : input.length - offset ≤ fuel) :
    h264NalusFrom input offset = nalusFrom fuel (input.drop offset) := by
  induction fuel generalizing offset with
  | zero =>
      rw [h264NalusFrom, dif_neg (by omega)]
      rfl
  | succ fuel ih =>
      by_cases hroom : offset + 3 ≤ input.length
      · have hlt : offset < input.length := by omega
        have hcode := startCodeAt_eq hroom
        have hcons := List.drop_eq_getElem_cons hlt
        by_cases hzero : startCodeAt input offset = 0
        · rw [hzero, hcons] at hcode
          rw [h264NalusFrom_of_zero hroom hzero, ih (by omega), hcons, nalusFrom, if_pos hcode.symm]
        · have hstart := offset_add_startCodeAt hroom
          have hstop := naluEnd_eq hstart
          have hpast : offset < offset + startCodeAt input offset := by omega
          rw [h264NalusFrom_of_code hroom hzero]
          rw [hcode, hcons] at hzero
          rw [hcons, nalusFrom, if_neg hzero, ← hcons]
          dsimp only
          rw [List.drop_drop, ← hcode]
          generalize offset + startCodeAt input offset = start at hstart hstop hpast ⊢
          generalize naluEnd input start = stop at hstop ⊢
          -- what is cut out is what stands before the next start code
          have hnalu : (input.take stop).drop start = beforeStartCode (input.drop start) := by
            rw [List.drop_take, hstop, Nat.add_sub_cancel_left]
            exact (List.prefix_iff_eq_take.mp (beforeStartCode_begins _)).symm
          have hlater : (input.drop start).drop (beforeStartCode (input.drop start)).length =
              input.drop stop := by
            rw [List.drop_drop, ← hstop]
          have hless : start < stop ↔ beforeStartCode (input.drop start) ≠ [] := by
            rw [← List.length_pos_iff]
            omega
          rw [hlater, hnalu, ih (by omega)]
          by_cases hnil : beforeStartCode (input.drop start) = []
          · rw [if_neg (fun hlt => hless.mp hlt hnil), if_pos hnil]
          · rw [if_pos (hless.mpr hnil), if_neg hnil]
      · rw [h264NalusFrom, dif_neg hroom, nalusFrom_of_short]
        rw [List.length_drop]
        omega

/-- The copies agree on every byte string. -/
theorem h264Nalus_eq (input : Bytes) : h264Nalus input = nalus input :=
  h264NalusFrom_eq (Nat.sub_le _ _)

/-! ## Joined NAL units -/

/-- Bytes that can stand between start codes as they are. -/
structure IsNalu (nalu : Bytes) : Prop where
  ne_nil : nalu ≠ []
  no_code : ¬ [0, 0, 1] <:+: nalu
  end_ne : nalu.getLast? ≠ some 0

instance : DecidablePred IsNalu := fun nalu =>
  decidable_of_iff (nalu ≠ [] ∧ ¬ [0, 0, 1] <:+: nalu ∧ nalu.getLast? ≠ some 0)
    ⟨fun ⟨h₁, h₂, h₃⟩ => ⟨h₁, h₂, h₃⟩, fun ⟨h₁, h₂, h₃⟩ => ⟨h₁, h₂, h₃⟩⟩

/-- A start code of four or of three bytes. -/
def startCodeBytes (four : Bool) : Bytes := if four then [0, 0, 0, 1] else [0, 0, 1]

/-- NAL units behind start codes, each of them of four bytes or not. -/
def joined (units : List (Bool × Bytes)) : Bytes :=
  units.flatMap fun unit => startCodeBytes unit.1 ++ unit.2

theorem joined_cons (unit : Bool × Bytes) (units : List (Bool × Bytes)) :
    joined (unit :: units) = startCodeBytes unit.1 ++ (unit.2 ++ joined units) := by
  rw [joined, List.flatMap_cons, List.append_assoc]
  rfl

theorem startCode_startCodeBytes (four : Bool) (rest : Bytes) :
    startCode (startCodeBytes four ++ rest) = (startCodeBytes four).length := by
  cases four <;> rfl

/-- A start code is some zeros and a one. -/
theorem exists_of_startCode_ne_zero {bytes : Bytes} (h : startCode bytes ≠ 0) :
    ∃ zeros rest, 2 ≤ zeros ∧ bytes = List.replicate zeros 0 ++ 1 :: rest := by
  unfold startCode at h
  split at h
  · exact ⟨3, _, by decide, rfl⟩
  · exact ⟨2, _, by decide, rfl⟩
  · exact absurd rfl h

/-- No start code begins inside of a NAL unit, not even one that ends behind it. -/
theorem startCode_append {front part rest : Bytes} (h : IsNalu (front ++ part)) (hpart : part ≠ []) :
    startCode (part ++ rest) = 0 := by
  by_contra hcode
  obtain ⟨zeros, behind, htwo, heq⟩ := exists_of_startCode_ne_zero hcode
  rcases List.append_eq_append_iff.mp heq with ⟨more, hzeros, -⟩ | ⟨more, hmore, hone⟩
  · -- the part is made of zeros, so the NAL unit would end in one
    obtain ⟨part, last, rfl⟩ := List.eq_nil_or_concat' part |>.resolve_left hpart
    have hlast : last ∈ List.replicate zeros (0 : UInt8) := by
      rw [hzeros]
      simp
    apply h.end_ne
    rw [← List.append_assoc, List.getLast?_concat, List.eq_of_mem_replicate hlast]
  · cases more with
    | nil =>
        rw [List.append_nil] at hmore
        obtain ⟨zeros, rfl⟩ := Nat.exists_eq_add_of_le htwo
        apply h.end_ne
        rw [hmore, Nat.add_comm, List.replicate_succ', ← List.append_assoc, List.getLast?_concat]
    | cons one more =>
        -- two of the zeros and the one stand inside of the NAL unit
        obtain ⟨rfl, -⟩ := List.cons.inj hone
        obtain ⟨zeros, rfl⟩ := Nat.exists_eq_add_of_le' htwo
        refine h.no_code ⟨front ++ List.replicate zeros 0, more, ?_⟩
        rw [hmore, List.replicate_add]
        simp

theorem beforeStartCode_append {front part rest : Bytes} (h : IsNalu (front ++ part))
    (hrest : beforeStartCode rest = []) : beforeStartCode (part ++ rest) = part := by
  induction part generalizing front with
  | nil => exact hrest
  | cons byte part ih =>
      have hcode : startCode (byte :: part ++ rest) = 0 :=
        startCode_append h (List.cons_ne_nil byte part)
      rw [List.append_cons] at h
      rw [List.cons_append, beforeStartCode, ← List.cons_append, if_pos hcode, ih h]

theorem beforeStartCode_joined (units : List (Bool × Bytes)) : beforeStartCode (joined units) = [] := by
  cases units with
  | nil => rfl
  | cons unit units =>
      rw [joined_cons]
      cases unit.1 <;> rfl

theorem nalusFrom_of_code {bytes : Bytes} (h : startCode bytes ≠ 0) (fuel : ℕ) :
    nalusFrom (fuel + 1) bytes =
      let start := bytes.drop (startCode bytes)
      let nalu := beforeStartCode start
      let later := nalusFrom fuel (start.drop nalu.length)
      if nalu = [] then later else nalu :: later := by
  cases bytes with
  | nil => exact absurd rfl h
  | cons byte rest => rw [nalusFrom, if_neg h]

theorem nalusFrom_joined {units : List (Bool × Bytes)} (h : ∀ unit ∈ units, IsNalu unit.2) {fuel : ℕ}
    (hfuel : (joined units).length ≤ fuel) : nalusFrom fuel (joined units) = units.map Prod.snd := by
  induction units generalizing fuel with
  | nil => exact nalusFrom_of_short (by decide) fuel
  | cons unit units ih =>
      obtain ⟨hunit, hunits⟩ := List.forall_mem_cons.mp h
      have hcode := startCode_startCodeBytes unit.1 (unit.2 ++ joined units)
      have hnalu : beforeStartCode (unit.2 ++ joined units) = unit.2 :=
        beforeStartCode_append (show IsNalu ([] ++ unit.2) from hunit) (beforeStartCode_joined units)
      have hpos : 0 < (startCodeBytes unit.1).length := by cases unit.1 <;> decide
      rw [joined_cons, List.length_append, List.length_append] at hfuel
      obtain ⟨fuel, rfl⟩ := Nat.exists_eq_add_of_le' (le_trans hpos (le_of_add_le_left hfuel))
      rw [joined_cons, nalusFrom_of_code (by rw [hcode]; exact hpos.ne'), hcode]
      dsimp only
      rw [List.drop_left, hnalu, if_neg hunit.ne_nil, List.drop_left, ih hunits (by omega), List.map_cons]

/-- What was joined comes back. -/
theorem nalus_joined {units : List (Bool × Bytes)} (h : ∀ unit ∈ units, IsNalu unit.2) :
    nalus (joined units) = units.map Prod.snd :=
  nalusFrom_joined h le_rfl

/-! ## The frame of an access unit -/

/-- A slice that the frame carries, of an IDR picture or not. -/
def IsFramed (nalu : Bytes) : Prop := naluType nalu = 1 ∨ naluType nalu = 5

instance : DecidablePred IsFramed := fun nalu =>
  inferInstanceAs (Decidable (naluType nalu = 1 ∨ naluType nalu = 5))

theorem accessUnitFrame_eq (accessUnit : List Bytes) :
    accessUnitFrame accessUnit = prefixedAll (accessUnit.filter (IsFramed ·)) := by
  induction accessUnit with
  | nil => rfl
  | cons nalu accessUnit ih =>
      rw [accessUnitFrame, List.flatMap_cons, ← accessUnitFrame, ih]
      by_cases hframed : IsFramed nalu
      · have hne : nalu ≠ [] := by
          rintro rfl
          exact absurd hframed (by decide)
        rw [List.filter_cons_of_pos (by simpa using hframed), prefixedAll_cons, if_neg]
        · rfl
        · rintro (hnil | ⟨hone, hfive⟩)
          · exact hne hnil
          · exact hframed.elim hone hfive
      · rw [List.filter_cons_of_neg (by simpa using hframed), if_pos (Or.inr (not_or.mp hframed))]
        rfl

/-- The copies return the NAL units that were joined, in order, and agree on any byte string;
the frame of an access unit, read back, has its slices. -/
theorem h264Nalus_joined {units : List (Bool × Bytes)}
    (h : ∀ unit ∈ units, IsNalu unit.2 ∧ unit.2.length < 2 ^ 32) (input : Bytes) :
    h264Nalus (joined units) = units.map Prod.snd ∧
      h264NalusOfFile (some (joined units)) = units.map Prod.snd ∧
      nalus (joined units) = units.map Prod.snd ∧
      (h264Nalus input = nalus input ∧ h264NalusOfFile (some input) = nalus input) ∧
      readAll (accessUnitFrame (h264Nalus (joined units))) =
        some ((units.map Prod.snd).filter (IsFramed ·)) := by
  have hnalus := nalus_joined fun unit hunit => (h unit hunit).1
  have heq : h264Nalus (joined units) = units.map Prod.snd := (h264Nalus_eq _).trans hnalus
  refine ⟨heq, heq, hnalus, ⟨h264Nalus_eq input, h264Nalus_eq input⟩, ?_⟩
  rw [heq, accessUnitFrame_eq]
  apply readAll_prefixedAll
  intro nalu hnalu
  obtain ⟨unit, hunit, rfl⟩ := List.mem_map.mp (List.mem_of_mem_filter hnalu)
  exact (h unit hunit).2

/-- A parameter set behind a long start code, a slice behind a short one, and one of a single
byte. -/
theorem h264Nalus_joined_three :
    h264Nalus [0, 0, 0, 1, 0x67, 0, 0, 2, 0, 0, 1, 0x65, 0x88, 0, 0, 0, 1, 0x41] =
        [[0x67, 0, 0, 2], [0x65, 0x88], [0x41]] ∧
      readAll (accessUnitFrame [[0x67, 0, 0, 2], [0x65, 0x88], [0x41]]) =
        some [[0x65, 0x88], [0x41]] := by
  obtain ⟨hnalus, -, -, -, hframe⟩ := @h264Nalus_joined
    [(true, [0x67, 0, 0, 2]), (false, [0x65, 0x88]), (true, [0x41])] (by decide) []
  refine ⟨hnalus, ?_⟩
  rw [hnalus] at hframe
  exact hframe

end Airplay
end Aa2acp
