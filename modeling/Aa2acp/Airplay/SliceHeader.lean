import Aa2acp.Lib.Bytes
import Aa2acp.Lib.ExpGolomb
import Mathlib.Data.List.GetD

/-!
# The first macroblock of a slice

`first_mb_in_slice` of `airplay/session.cpp` copies the payload of a NAL unit and reads the
first code in it.  The copy is meant to leave out the `03` of every `00 00 03`, as the
payload of a NAL unit is to be read (`rbsp`), but the loop goes on at the `03`, so it copies
the payload as it is (`unescapeFrom_eq`).  The function decodes the syntax element exactly
when the code ends before the first such `03`, or the bits from there on happen to be the
same (`firstMbInSlice_iff`).
-/

namespace Aa2acp
namespace Airplay

open ExpGolomb

/-- `(bytes[offset / 8] >> (7 - (offset % 8))) & 1U`. -/
def bitAt (bytes : Bytes) (offset : ℕ) : Bool :=
  (bytes.getD (offset / 8) 0 >>> (7 - offset % 8).toUInt8) &&& 1 = 1

/-- The loop that copies the payload. -/
def unescapeFrom (nalu : Bytes) (index : ℕ) : Bytes :=
  if index < nalu.length then
    if index + 2 < nalu.length ∧ nalu.getD index 0 = 0 ∧ nalu.getD (index + 1) 0 = 0 ∧
        nalu.getD (index + 2) 0 = 3 then
      -- `++index`, and the increment of the loop
      0 :: 0 :: unescapeFrom nalu (index + 1 + 1)
    else nalu.getD index 0 :: unescapeFrom nalu (index + 1)
  else []
termination_by nalu.length - index

/-- The loop over the leading zero bits: where it stops and how many they are. -/
def countZeroBits (rbsp : Bytes) (bitOffset zeroBits : ℕ) : Option (ℕ × ℕ) :=
  if bitOffset < rbsp.length * 8 ∧ bitAt rbsp bitOffset = false then
    if zeroBits + 1 > 31 then none else countZeroBits rbsp (bitOffset + 1) (zeroBits + 1)
  else some (bitOffset, zeroBits)
termination_by rbsp.length * 8 - bitOffset

/-- The loop over the bits behind the one. -/
def readSuffix (rbsp : Bytes) : ℕ → ℕ → UInt32 → Option UInt32
  | 0, _, suffix => some suffix
  | count + 1, bitOffset, suffix =>
      if bitOffset ≥ rbsp.length * 8 then none
      else readSuffix rbsp count (bitOffset + 1) ((suffix <<< 1) ||| (bitAt rbsp bitOffset).toUInt32)

def firstMbInSlice (nalu : Bytes) : Option UInt32 :=
  if nalu.length < 2 then none
  else
    let rbsp := unescapeFrom nalu 1
    match countZeroBits rbsp 0 0 with
    | none => none
    | some (bitOffset, zeroBits) =>
        if bitOffset ≥ rbsp.length * 8 then none
        else
          (readSuffix rbsp zeroBits (bitOffset + 1) 0).map fun suffix =>
            ((1 : UInt32) <<< zeroBits.toUInt32) - 1 + suffix

/-! ## What is to be read -/

/-- The bits of a byte, most significant first. -/
def byteBits (byte : UInt8) : List Bool :=
  (List.range 8).map fun index => (byte >>> (7 - index).toUInt8) &&& 1 = 1

def bitsOf (bytes : Bytes) : List Bool := bytes.flatMap byteBits

/-- The payload without the `03` of every `00 00 03`. -/
def rbsp : Bytes → Bytes
  | 0 :: 0 :: 3 :: rest => 0 :: 0 :: rbsp rest
  | byte :: rest => byte :: rbsp rest
  | [] => []

/-- How many bytes stand before the `03` of the first `00 00 03`. -/
def firstEscape : Bytes → Option ℕ
  | 0 :: 0 :: 3 :: _ => some 2
  | _ :: rest => (firstEscape rest).map (· + 1)
  | [] => none

/-- The code at the front of the payload is not a whole one, or it ends before the `03` of the
first `00 00 03`, or what it has from there on is what the payload without these `03` has. -/
def ReadsUnescaped (payload : Bytes) : Prop :=
  match firstEscape payload with
  | none => True
  | some before =>
      31 < zeros (bitsOf payload) ∨ (bitsOf payload).length < codeLength (bitsOf payload) ∨
        codeLength (bitsOf payload) ≤ before * 8 ∨
          ((bitsOf payload).drop (before * 8)).take (codeLength (bitsOf payload) - before * 8) <+:
            bitsOf (rbsp (payload.drop (before + 1)))

/-! ## The loops -/

theorem unescapeFrom_eq (nalu : Bytes) (index : ℕ) : unescapeFrom nalu index = nalu.drop index := by
  induction index using unescapeFrom.induct nalu with
  | case1 index hindex hescape ih =>
      -- the two zero bytes are copied, and the `03` is the next byte
      have hlength := hescape.1
      have hfirst := hescape.2.1
      have hsecond := hescape.2.2.1
      have hnext : index + 1 < nalu.length := by omega
      rw [List.getD_eq_getElem _ _ hindex] at hfirst
      rw [List.getD_eq_getElem _ _ hnext] at hsecond
      rw [unescapeFrom, if_pos hindex, if_pos hescape, ih, List.drop_eq_getElem_cons hindex,
        List.drop_eq_getElem_cons hnext, hfirst, hsecond]
  | case2 index hindex hescape ih =>
      rw [unescapeFrom, if_pos hindex, if_neg hescape, ih, List.drop_eq_getElem_cons hindex,
        List.getD_eq_getElem _ _ hindex]
  | case3 index hindex =>
      rw [unescapeFrom, if_neg hindex, List.drop_eq_nil_of_le (Nat.le_of_not_lt hindex)]

theorem length_byteBits (byte : UInt8) : (byteBits byte).length = 8 := by
  rw [byteBits, List.length_map, List.length_range]

theorem bitsOf_append (bytes more : Bytes) : bitsOf (bytes ++ more) = bitsOf bytes ++ bitsOf more :=
  List.flatMap_append

theorem length_bitsOf (bytes : Bytes) : (bitsOf bytes).length = bytes.length * 8 := by
  induction bytes with
  | nil => rfl
  | cons byte bytes ih =>
      rw [bitsOf, List.flatMap_cons, List.length_append, length_byteBits, List.length_cons]
      show 8 + (bitsOf bytes).length = _
      omega

theorem bitsOf_getElem {bytes : Bytes} {offset : ℕ} (h : offset < (bitsOf bytes).length) :
    (bitsOf bytes)[offset] = bitAt bytes offset := by
  induction bytes generalizing offset with
  | nil => cases h
  | cons byte bytes ih =>
      have hsplit : bitsOf (byte :: bytes) = byteBits byte ++ bitsOf bytes := rfl
      simp only [hsplit]
      by_cases hfirst : offset < 8
      · rw [List.getElem_append_left (by rw [length_byteBits]; exact hfirst)]
        simp only [byteBits, List.getElem_map, List.getElem_range, bitAt, Nat.div_eq_of_lt hfirst,
          Nat.mod_eq_of_lt hfirst]
        rfl
      · rw [List.getElem_append_right (by rw [length_byteBits]; omega)]
        simp only [length_byteBits]
        rw [ih]
        have hdiv : offset / 8 = (offset - 8) / 8 + 1 := by omega
        have hmod : offset % 8 = (offset - 8) % 8 := by omega
        unfold bitAt
        rw [hdiv, hmod, List.getD_cons_succ]

section Loops

variable (bytes : Bytes) {offset : ℕ}

/-- The bit at the offset is the next one. -/
theorem drop_bitsOf {bytes : Bytes} (h : offset < bytes.length * 8) :
    (bitsOf bytes).drop offset = bitAt bytes offset :: (bitsOf bytes).drop (offset + 1) := by
  have hlength : offset < (bitsOf bytes).length := by
    rw [length_bitsOf]
    exact h
  rw [List.drop_eq_getElem_cons hlength, bitsOf_getElem hlength]

theorem drop_bitsOf_eq_nil {bytes : Bytes} (h : ¬ offset < bytes.length * 8) : (bitsOf bytes).drop offset = [] := by
  apply List.drop_eq_nil_of_le
  rw [length_bitsOf]
  exact Nat.le_of_not_lt h

/-- The first loop counts the zero bits, up to 31 of them. -/
theorem countZeroBits_eq (offset count : ℕ) (hcount : count ≤ 31) :
    countZeroBits bytes offset count =
      if 31 < count + zeros ((bitsOf bytes).drop offset) then none
      else some (offset + zeros ((bitsOf bytes).drop offset),
        count + zeros ((bitsOf bytes).drop offset)) := by
  induction offset, count using countZeroBits.induct bytes with
  | case1 offset count hzero hlarge =>
      rw [countZeroBits, if_pos hzero, if_pos hlarge, drop_bitsOf hzero.1, hzero.2, zeros_cons_false,
        if_pos (by omega)]
  | case2 offset count hzero hlarge ih =>
      rw [countZeroBits, if_pos hzero, if_neg hlarge, ih (by omega), drop_bitsOf hzero.1, hzero.2,
        zeros_cons_false]
      simp only [Nat.add_assoc, Nat.add_comm 1]
  | case3 offset count hnot =>
      have hzeros : zeros ((bitsOf bytes).drop offset) = 0 := by
        by_cases hoffset : offset < bytes.length * 8
        · have hone : bitAt bytes offset = true := by
            by_contra hbit
            exact hnot ⟨hoffset, Bool.eq_false_of_not_eq_true hbit⟩
          rw [drop_bitsOf hoffset, hone, zeros_cons_true]
        · rw [drop_bitsOf_eq_nil hoffset]
          rfl
      rw [countZeroBits, if_neg hnot, hzeros, if_neg (by omega), Nat.add_zero, Nat.add_zero]

/-- One more bit behind those of a number. -/
theorem toNat_shift_or {suffix : UInt32} (bit : Bool) (h : suffix.toNat < 2 ^ 31) :
    ((suffix <<< 1) ||| bit.toUInt32).toNat = suffix.toNat * 2 + bit.toNat := by
  have hshift : (suffix <<< 1).toNat = suffix.toNat <<< 1 := by
    rw [UInt32.toNat_shiftLeft]
    show suffix.toNat <<< 1 % 2 ^ 32 = _
    rw [Nat.shiftLeft_eq]
    omega
  have hbit : bit.toUInt32.toNat = bit.toNat := by cases bit <;> rfl
  have hlt : bit.toNat < 2 ^ 1 := by cases bit <;> decide
  rw [UInt32.toNat_or, hshift, hbit, ← Nat.shiftLeft_add_eq_or_of_lt hlt, Nat.shiftLeft_eq, pow_one]

/-- The second loop reads a number of so many bits. -/
theorem readSuffix_eq (offset count start : ℕ) {suffix : UInt32} (hstart : start + count ≤ 31)
    (hsuffix : suffix.toNat < 2 ^ start) :
    (readSuffix bytes count offset suffix).map UInt32.toNat =
      if count ≤ ((bitsOf bytes).drop offset).length then
        some (suffix.toNat * 2 ^ count + ofBits (((bitsOf bytes).drop offset).take count))
      else none := by
  induction count generalizing offset start suffix with
  | zero => simp [readSuffix, ofBits]
  | succ count ih =>
      rw [readSuffix]
      by_cases hoffset : offset < bytes.length * 8
      · have hpow : 2 ^ start ≤ 2 ^ 31 := Nat.pow_le_pow_right (by decide) (by omega)
        have hnext := toNat_shift_or (bitAt bytes offset) (Nat.lt_of_lt_of_le hsuffix hpow)
        have hbit : (bitAt bytes offset).toNat ≤ 1 := Bool.toNat_le _
        rw [if_neg (Nat.not_le.mpr hoffset), ih (offset + 1) (start + 1) (by omega) (by
            rw [hnext, pow_succ]
            omega), drop_bitsOf hoffset, hnext, List.length_cons, List.take_succ_cons, ofBits_cons]
        by_cases hlength : count ≤ ((bitsOf bytes).drop (offset + 1)).length
        · rw [if_pos hlength, if_pos (Nat.succ_le_succ hlength), List.length_take,
            Nat.min_eq_left hlength]
          congr 1
          ring
        · rw [if_neg hlength, if_neg (fun hle => hlength (Nat.le_of_succ_le_succ hle))]
      · rw [if_pos (Nat.le_of_not_lt hoffset), drop_bitsOf_eq_nil hoffset]
        rfl

/-- The number of a code with at most 31 zero bits fits into 32 bits. -/
theorem toNat_codeValue {count : ℕ} {suffix : UInt32} (hcount : count ≤ 31)
    (hsuffix : suffix.toNat < 2 ^ count) :
    (((1 : UInt32) <<< count.toUInt32) - 1 + suffix).toNat = 2 ^ count - 1 + suffix.toNat := by
  have hpow : 2 ^ count ≤ 2 ^ 31 := Nat.pow_le_pow_right (by decide) hcount
  have hpos : 0 < 2 ^ count := Nat.two_pow_pos count
  have hcountNat : count.toUInt32.toNat = count := by
    show count % 2 ^ 32 = count
    omega
  have hshift : ((1 : UInt32) <<< count.toUInt32).toNat = 2 ^ count := by
    rw [UInt32.toNat_shiftLeft, hcountNat, Nat.mod_eq_of_lt (by omega : count < 32), Nat.shiftLeft_eq]
    show 1 * 2 ^ count % 2 ^ 32 = _
    omega
  have hone : (1 : UInt32) ≤ (1 : UInt32) <<< count.toUInt32 := by
    rw [UInt32.le_iff_toNat_le, hshift]
    exact hpos
  rw [UInt32.toNat_add, UInt32.toNat_sub_of_le _ _ hone, hshift]
  show (2 ^ count - 1 + suffix.toNat) % 2 ^ 32 = _
  omega

end Loops

/-- The function reads the first code in the payload as it stands. -/
theorem firstMbInSlice_eq (nalu : Bytes) :
    (firstMbInSlice nalu).map UInt32.toNat = readCode 31 (bitsOf (nalu.drop 1)) := by
  unfold firstMbInSlice
  by_cases hshort : nalu.length < 2
  · have hnil : nalu.drop 1 = [] := List.drop_eq_nil_of_le (by omega)
    rw [if_pos hshort, hnil]
    rfl
  · rw [if_neg hshort, unescapeFrom_eq]
    dsimp only
    generalize nalu.drop 1 = payload
    have hcount := countZeroBits_eq payload 0 0 (by omega)
    rw [List.drop_zero, Nat.zero_add] at hcount
    rw [hcount]
    by_cases hlarge : 31 < zeros (bitsOf payload)
    · rw [if_pos hlarge]
      exact (readCode_eq_none_iff.mpr (Or.inl hlarge)).symm
    · rw [if_neg hlarge]
      dsimp only
      have hlength := length_bitsOf payload
      by_cases hend : payload.length * 8 ≤ zeros (bitsOf payload)
      · -- there is no one
        rw [if_pos hend]
        refine (readCode_eq_none_iff.mpr (Or.inr ?_)).symm
        unfold codeLength
        omega
      · have hsuffix := readSuffix_eq payload (zeros (bitsOf payload) + 1)
          (zeros (bitsOf payload)) 0 (by omega) (show (0 : UInt32).toNat < 2 ^ 0 by decide)
        have hroom : zeros (bitsOf payload) ≤ ((bitsOf payload).drop (zeros (bitsOf payload) + 1)).length ↔
            codeLength (bitsOf payload) ≤ (bitsOf payload).length := by
          rw [List.length_drop]
          unfold codeLength
          omega
        rw [if_neg hend]
        unfold readCode
        cases hread : readSuffix payload (zeros (bitsOf payload)) (zeros (bitsOf payload) + 1) 0 with
        | none =>
            rw [hread] at hsuffix
            rw [if_neg]
            · rfl
            · rintro ⟨-, hwhole⟩
              rw [if_pos (hroom.mpr hwhole)] at hsuffix
              cases hsuffix
        | some suffix =>
            rw [hread] at hsuffix
            split at hsuffix
            · rename_i hwhole
              have hvalue : suffix.toNat = ofBits (((bitsOf payload).drop
                  (zeros (bitsOf payload) + 1)).take (zeros (bitsOf payload))) := by
                have hsome := Option.some.inj hsuffix
                rw [hsome]
                show 0 * _ + _ = _
                omega
              have hlt := ofBits_lt (((bitsOf payload).drop (zeros (bitsOf payload) + 1)).take
                (zeros (bitsOf payload)))
              rw [List.length_take, Nat.min_eq_left hwhole, ← hvalue] at hlt
              rw [if_pos ⟨Nat.le_of_not_lt hlarge, hroom.mp hwhole⟩, Option.map_some, Option.map_some,
                toNat_codeValue (Nat.le_of_not_lt hlarge) hlt, hvalue]
            · cases hsuffix

/-! ## The payload and what is to be read -/

variable {payload : Bytes}

theorem rbsp_of_firstEscape_none (h : firstEscape payload = none) : rbsp payload = payload := by
  induction payload using rbsp.induct with
  | case1 rest => cases h
  | case2 byte rest hnot ih =>
      rw [firstEscape] at h
      · rw [rbsp, ih (Option.map_eq_none_iff.mp h)]
        exact hnot
      · exact hnot
  | case3 => rfl

/-- Up to the first `03` that is to be left out, the payload is what is to be read. -/
theorem rbsp_of_firstEscape {before : ℕ} (h : firstEscape payload = some before) :
    ∃ common rest, payload = common ++ 3 :: rest ∧ common.length = before ∧
      rbsp payload = common ++ rbsp rest := by
  induction payload using rbsp.induct generalizing before with
  | case1 rest =>
      cases h
      exact ⟨[0, 0], rest, rfl, rfl, rfl⟩
  | case2 byte rest hnot ih =>
      rw [firstEscape] at h
      · obtain ⟨other, hother, rfl⟩ := Option.map_eq_some_iff.mp h
        obtain ⟨common, behind, rfl, rfl, hrbsp⟩ := ih hother
        refine ⟨byte :: common, behind, rfl, rfl, ?_⟩
        rw [rbsp, hrbsp]
        · rfl
        · exact hnot
      · exact hnot
  | case3 => cases h

theorem length_rbsp_le (payload : Bytes) : (rbsp payload).length ≤ payload.length := by
  induction payload using rbsp.induct with
  | case1 rest ih =>
      rw [rbsp]
      simp only [List.length_cons]
      omega
  | case2 byte rest hnot ih =>
      rw [rbsp]
      · exact Nat.succ_le_succ ih
      · exact hnot
  | case3 => exact Nat.le_refl 0

/-- A code is a whole one with the `03` in it when it is one without. -/
theorem readCode_rbsp_eq_none {common rest : Bytes}
    (h : readCode 31 (bitsOf (common ++ 3 :: rest)) = none) :
    readCode 31 (bitsOf (common ++ rbsp rest)) = none := by
  by_contra hsome
  have hlengthRbsp := length_rbsp_le rest
  have hbits : bitsOf (common ++ 3 :: rest) = bitsOf common ++ bitsOf (3 :: rest) := bitsOf_append _ _
  have hbitsRbsp : bitsOf (common ++ rbsp rest) = bitsOf common ++ bitsOf (rbsp rest) :=
    bitsOf_append _ _
  have hlength : (bitsOf (common ++ 3 :: rest)).length = (common.length + (rest.length + 1)) * 8 := by
    rw [length_bitsOf, List.length_append, List.length_cons]
  have hlength' : (bitsOf (common ++ rbsp rest)).length =
      (common.length + (rbsp rest).length) * 8 := by
    rw [length_bitsOf, List.length_append]
  rw [readCode_eq_none_iff] at h hsome
  unfold codeLength at h hsome
  rw [hlength] at h
  rw [hlength'] at hsome
  have hcommon := zeros_le (bitsOf common)
  rw [length_bitsOf] at hcommon
  by_cases hone : zeros (bitsOf common) < (bitsOf common).length
  · -- the one stands before the `03`
    have hsame : zeros (bitsOf (common ++ 3 :: rest)) = zeros (bitsOf (common ++ rbsp rest)) := by
      rw [hbits, hbitsRbsp, zeros_append hone, zeros_append hone]
    omega
  · -- all the bytes before it are zero, so there are two or three of them
    have hall : zeros (bitsOf common) = common.length * 8 := by
      rw [length_bitsOf] at hone
      omega
    have hzero : bitsOf common = List.replicate (common.length * 8) false := by
      have hsplit := eq_replicate_append (bitsOf common)
      rw [hall, List.drop_eq_nil_of_le (by rw [length_bitsOf]), List.append_nil] at hsplit
      exact hsplit
    have hthree : zeros (bitsOf (3 :: rest)) = 6 := by
      show zeros ([false, false, false, false, false, false, true, true] ++ bitsOf rest) = 6
      rw [zeros_append (by decide)]
      rfl
    rw [hbits, hzero, zeros_replicate_append, hthree] at h
    rw [hbitsRbsp, hzero, zeros_replicate_append] at hsome
    omega

/-- Whether a string goes on like another one behind their common part. -/
theorem take_prefix_append_iff {first second other : List Bool} {count : ℕ} :
    (first ++ second).take count <+: first ++ other ↔
      count ≤ first.length ∨
        ((first ++ second).drop first.length).take (count - first.length) <+: other := by
  rw [List.drop_left]
  by_cases hcount : count ≤ first.length
  · rw [List.take_append_of_le_length hcount]
    exact iff_of_true ((List.take_prefix _ _).trans (List.prefix_append _ _)) (Or.inl hcount)
  · rw [List.take_append, List.take_of_length_le (Nat.le_of_not_le hcount),
      List.prefix_append_right_inj, or_iff_right hcount]

/-- The function decodes the syntax element exactly when the `03` that it leaves in place are no
part of the code, or make no difference to its bits. -/
theorem firstMbInSlice_iff (nalu : Bytes) :
    (firstMbInSlice nalu).map UInt32.toNat = readCode 31 (bitsOf (rbsp (nalu.drop 1))) ↔
      ReadsUnescaped (nalu.drop 1) := by
  rw [firstMbInSlice_eq]
  generalize nalu.drop 1 = payload
  unfold ReadsUnescaped
  cases hescape : firstEscape payload with
  | none =>
      rw [rbsp_of_firstEscape_none hescape]
      exact ⟨fun _ => trivial, fun _ => rfl⟩
  | some before =>
      obtain ⟨common, rest, rfl, rfl, hrbsp⟩ := rbsp_of_firstEscape hescape
      have hbehind : (common ++ 3 :: rest).drop (common.length + 1) = rest := by
        rw [← List.drop_drop, List.drop_left]
        rfl
      dsimp only
      rw [hrbsp, hbehind]
      by_cases hnone : readCode 31 (bitsOf (common ++ 3 :: rest)) = none
      · rw [hnone, readCode_rbsp_eq_none hnone]
        rcases readCode_eq_none_iff.mp hnone with hlarge | hshort
        · exact ⟨fun _ => Or.inl hlarge, fun _ => rfl⟩
        · exact ⟨fun _ => Or.inr (Or.inl hshort), fun _ => rfl⟩
      · have hwhole := mt readCode_eq_none_iff.mpr hnone
        rw [not_or, Nat.not_lt, Nat.not_lt] at hwhole
        have hbits : bitsOf (common ++ 3 :: rest) = bitsOf common ++ bitsOf (3 :: rest) :=
          bitsOf_append _ _
        have hlength := length_bitsOf common
        rw [eq_comm, readCode_eq_iff hwhole.1 hwhole.2, bitsOf_append common (rbsp rest)]
        rw [hbits] at hwhole ⊢
        rw [take_prefix_append_iff, hlength]
        constructor
        · intro hcases
          exact Or.inr (Or.inr hcases)
        · rintro (hlarge | hshort | hcases)
          · exact absurd hwhole.1 (Nat.not_le.mpr hlarge)
          · exact absurd hwhole.2 (Nat.not_le.mpr hshort)
          · exact hcases

/-- A slice whose code has an escape in it: the `03` is read as a part of the number. -/
theorem firstMbInSlice_escaped :
    rbsp [0x00, 0x00, 0x03, 0x02, 0x80, 0x00, 0x00] = [0x00, 0x00, 0x02, 0x80, 0x00, 0x00] ∧
      readCode 31 (bitsOf (rbsp [0x00, 0x00, 0x03, 0x02, 0x80, 0x00, 0x00])) = some 5242879 ∧
      firstMbInSlice [0x41, 0x00, 0x00, 0x03, 0x02, 0x80, 0x00, 0x00] = some 6311935 := by
  refine ⟨rfl, by decide +kernel, by decide +kernel⟩

end Airplay
end Aa2acp
