import Mathlib.Data.List.TakeWhile
import Mathlib.Tactic.Ring

/-!
# Exponential Golomb codes

An unsigned code of `zeros` zero bits, a one and as many bits again stands for one less than
the number that its last `zeros + 1` bits spell.  The codes are prefix-free, so what is read
from a string of bits (`readCode`) is determined by the code at its front, and it determines this
code (`readCode_eq_iff`).
-/

namespace Aa2acp
namespace ExpGolomb

variable {bits other rest suffix : List Bool} {limit count : ℕ}

/-- The number that these bits spell, most significant first. -/
def ofBits (bits : List Bool) : ℕ := bits.foldl (fun value bit => value * 2 + bit.toNat) 0

/-- How many zero bits stand in front of the first one. -/
def zeros (bits : List Bool) : ℕ := (bits.takeWhile (! ·)).length

/-- The length of the code at the front. -/
def codeLength (bits : List Bool) : ℕ := 2 * zeros bits + 1

/-- The number at the front, unless it has too many zero bits or is cut off. -/
def readCode (limit : ℕ) (bits : List Bool) : Option ℕ :=
  if zeros bits ≤ limit ∧ codeLength bits ≤ bits.length then
    some (2 ^ zeros bits - 1 + ofBits ((bits.drop (zeros bits + 1)).take (zeros bits)))
  else none

/-! ## Numbers -/

theorem foldl_ofBits (bits : List Bool) (start : ℕ) :
    bits.foldl (fun value bit => value * 2 + bit.toNat) start =
      start * 2 ^ bits.length + ofBits bits := by
  induction bits generalizing start with
  | nil => simp [ofBits]
  | cons bit bits ih =>
      unfold ofBits
      rw [List.foldl_cons, List.foldl_cons, ih, ih, List.length_cons]
      ring

theorem ofBits_cons (bit : Bool) (bits : List Bool) :
    ofBits (bit :: bits) = bit.toNat * 2 ^ bits.length + ofBits bits := by
  have hfold := foldl_ofBits bits bit.toNat
  unfold ofBits at hfold ⊢
  rw [List.foldl_cons, Nat.zero_mul, Nat.zero_add, hfold]

theorem ofBits_lt (bits : List Bool) : ofBits bits < 2 ^ bits.length := by
  induction bits with
  | nil => exact Nat.one_pos
  | cons bit bits ih =>
      have hbit : bit.toNat ≤ 1 := Bool.toNat_le bit
      have hmul : bit.toNat * 2 ^ bits.length ≤ 1 * 2 ^ bits.length := Nat.mul_le_mul_right _ hbit
      rw [ofBits_cons, List.length_cons, pow_succ]
      omega

/-- Bits of one length are told apart by their number. -/
theorem eq_of_ofBits (hlength : bits.length = other.length) (h : ofBits bits = ofBits other) :
    bits = other := by
  induction bits generalizing other with
  | nil => exact (List.length_eq_zero_iff.mp hlength.symm).symm
  | cons bit bits ih =>
      cases other with
      | nil => cases hlength
      | cons otherBit other =>
          have hsame : bits.length = other.length := Nat.succ.inj hlength
          have hlt := ofBits_lt bits
          have hltOther := ofBits_lt other
          rw [ofBits_cons, ofBits_cons, ← hsame] at h
          rw [← hsame] at hltOther
          cases bit with
          | false =>
              cases otherBit with
              | false => rw [ih hsame (by simpa using h)]
              | true => simp at h; omega
          | true =>
              cases otherBit with
              | false => simp at h; omega
              | true => rw [ih hsame (by simpa using h)]

/-! ## Zero bits -/

theorem zeros_cons_true (bits : List Bool) : zeros (true :: bits) = 0 := rfl

theorem zeros_cons_false (bits : List Bool) : zeros (false :: bits) = zeros bits + 1 := by
  simp [zeros]

/-- Zero bits in front. -/
theorem zeros_replicate_append (count : ℕ) (bits : List Bool) :
    zeros (List.replicate count false ++ bits) = count + zeros bits := by
  induction count with
  | zero => simp
  | succ count ih =>
      rw [List.replicate_succ, List.cons_append, zeros_cons_false, ih]
      omega

theorem zeros_le (bits : List Bool) : zeros bits ≤ bits.length :=
  (List.takeWhile_prefix _).length_le

/-- The bits are zero bits, and a one with what follows, if there is one. -/
theorem eq_replicate_append (bits : List Bool) :
    bits = List.replicate (zeros bits) false ++ bits.drop (zeros bits) := by
  have hzeros : bits.takeWhile (! ·) = List.replicate (zeros bits) false := by
    refine List.eq_replicate_iff.mpr ⟨rfl, fun bit hbit => ?_⟩
    have hfalse := List.mem_takeWhile_imp hbit
    simpa using hfalse
  have hdrop : bits.drop (zeros bits) = bits.dropWhile (! ·) := by
    have hsplit := List.takeWhile_append_dropWhile (p := (! ·)) (l := bits)
    calc bits.drop (zeros bits)
        = (bits.takeWhile (! ·) ++ bits.dropWhile (! ·)).drop (zeros bits) := by rw [hsplit]
      _ = bits.dropWhile (! ·) := List.drop_left
  rw [hdrop, ← hzeros, List.takeWhile_append_dropWhile]

/-- The bit behind the zero bits is a one. -/
theorem drop_zeros (h : zeros bits < bits.length) :
    bits.drop (zeros bits) = true :: bits.drop (zeros bits + 1) := by
  induction bits with
  | nil => cases h
  | cons bit bits ih =>
      cases bit with
      | true => rfl
      | false =>
          rw [zeros_cons_false] at h ⊢
          exact ih (Nat.lt_of_succ_lt_succ h)

/-- What follows a one does not change the zero bits in front of it. -/
theorem zeros_append (h : zeros bits < bits.length) (rest : List Bool) :
    zeros (bits ++ rest) = zeros bits := by
  conv => left; rw [eq_replicate_append bits, List.append_assoc, zeros_replicate_append, drop_zeros h]
  rw [List.cons_append, zeros_cons_true, Nat.add_zero]

/-! ## Codes -/

/-- A whole code at the front, taken apart. -/
theorem exists_code (h : codeLength bits ≤ bits.length) : ∃ suffix rest,
    suffix.length = zeros bits ∧
      bits = List.replicate (zeros bits) false ++ true :: suffix ++ rest ∧
      (bits.drop (zeros bits + 1)).take (zeros bits) = suffix := by
  unfold codeLength at h
  have hshort : zeros bits < bits.length := by omega
  have hone := drop_zeros hshort
  refine ⟨(bits.drop (zeros bits + 1)).take (zeros bits), (bits.drop (zeros bits + 1)).drop (zeros bits),
    ?_, ?_, rfl⟩
  · rw [List.length_take, List.length_drop]
    omega
  · rw [List.append_assoc, List.cons_append, List.take_append_drop, ← hone]
    exact eq_replicate_append bits

/-- A code at the front is read, whatever follows. -/
theorem readCode_append (hlimit : suffix.length ≤ limit) (rest : List Bool) :
    readCode limit (List.replicate suffix.length false ++ true :: suffix ++ rest) =
      some (2 ^ suffix.length - 1 + ofBits suffix) := by
  have hzeros : zeros (List.replicate suffix.length false ++ true :: suffix ++ rest) =
      suffix.length := by
    rw [List.append_assoc, zeros_replicate_append, List.cons_append, zeros_cons_true, Nat.add_zero]
  have hdrop : (List.replicate suffix.length false ++ true :: suffix ++ rest).drop
      (suffix.length + 1) = suffix ++ rest := by
    have hlength : (List.replicate suffix.length false ++ [true]).length = suffix.length + 1 := by
      simp
    rw [List.append_cons, List.append_assoc, ← hlength, List.drop_left]
  unfold readCode codeLength
  rw [hzeros, hdrop, List.take_left, if_pos]
  constructor
  · exact hlimit
  · simp only [List.length_append, List.length_replicate, List.length_cons]
    omega

/-- The number that was read determines the code. -/
theorem code_inj {suffix' : List Bool}
    (h : 2 ^ suffix.length - 1 + ofBits suffix = 2 ^ suffix'.length - 1 + ofBits suffix') :
    suffix = suffix' := by
  have hlt := ofBits_lt suffix
  have hlt' := ofBits_lt suffix'
  have hpos : 0 < 2 ^ suffix.length := Nat.two_pow_pos _
  have hpos' : 0 < 2 ^ suffix'.length := Nat.two_pow_pos _
  have hlength : suffix.length = suffix'.length := by
    rcases Nat.lt_trichotomy suffix.length suffix'.length with hless | heq | hmore
    · -- the numbers with more zero bits are larger
      have hpow : 2 ^ (suffix.length + 1) ≤ 2 ^ suffix'.length := Nat.pow_le_pow_right (by decide) hless
      rw [pow_succ] at hpow
      omega
    · exact heq
    · have hpow : 2 ^ (suffix'.length + 1) ≤ 2 ^ suffix.length := Nat.pow_le_pow_right (by decide) hmore
      rw [pow_succ] at hpow
      omega
  rw [hlength] at h
  exact eq_of_ofBits hlength (by omega)

/-- Two strings read the same as one that begins with a whole code exactly when they begin with
this code, too. -/
theorem readCode_eq_iff (hlimit : zeros bits ≤ limit) (h : codeLength bits ≤ bits.length) :
    readCode limit other = readCode limit bits ↔ bits.take (codeLength bits) <+: other := by
  obtain ⟨suffix, rest, hlength, hbits, -⟩ := exists_code h
  rw [← hlength] at hbits hlimit
  have htake : bits.take (codeLength bits) = List.replicate suffix.length false ++ true :: suffix := by
    have hcode : (List.replicate suffix.length false ++ true :: suffix).length = codeLength bits := by
      unfold codeLength
      rw [List.length_append, List.length_replicate, List.length_cons, hlength]
      omega
    conv => left; rw [← hcode, hbits, List.take_left]
  have hread := readCode_append hlimit rest
  rw [← hbits] at hread
  rw [htake, hread]
  constructor
  · intro hother
    have hwhole : zeros other ≤ limit ∧ codeLength other ≤ other.length := by
      by_contra hnot
      rw [readCode, if_neg hnot] at hother
      cases hother
    obtain ⟨suffix', rest', hlength', hbits', -⟩ := exists_code hwhole.2
    have hread' := readCode_append (hlength'.symm ▸ hwhole.1 : suffix'.length ≤ limit) rest'
    rw [← hlength'] at hbits'
    rw [← hbits', hother] at hread'
    obtain rfl := code_inj (Option.some.inj hread')
    rw [hbits']
    exact List.prefix_append _ _
  · rintro ⟨more, rfl⟩
    exact readCode_append hlimit more

theorem readCode_eq_none_iff : readCode limit bits = none ↔ limit < zeros bits ∨ bits.length < codeLength bits := by
  unfold readCode
  rw [ite_eq_right_iff]
  simp only [reduceCtorEq, imp_false, not_and_or, not_le]

end ExpGolomb
end Aa2acp
