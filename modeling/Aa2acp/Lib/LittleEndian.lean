import Aa2acp.Lib.Bytes
import Mathlib.Data.List.GetD

/-!
# Little-endian numbers

`littleEndian size value` are the lowest `size` bytes of a number, least significant first,
and `ofLittleEndian` reads such a string back.  A loop that collects the bytes in a 64-bit word
(`collect`) reads the same number.
-/

namespace Aa2acp

/-- The lowest `size` bytes of a number, least significant first. -/
def littleEndian (size value : ℕ) : Bytes :=
  (List.range size).map fun index => UInt8.ofNat (value >>> (index * 8))

/-- The number whose bytes these are, least significant first. -/
def ofLittleEndian (bytes : Bytes) : ℕ := bytes.foldr (fun byte value => byte.toNat + 256 * value) 0

@[simp] theorem length_littleEndian (size value : ℕ) : (littleEndian size value).length = size := by
  simp [littleEndian]

@[simp] theorem littleEndian_zero (value : ℕ) : littleEndian 0 value = [] := rfl

theorem littleEndian_succ (size value : ℕ) :
    littleEndian (size + 1) value = UInt8.ofNat value :: littleEndian size (value / 256) := by
  rw [littleEndian, List.range_succ_eq_map, List.map_cons, List.map_map, littleEndian]
  congr 1
  apply List.map_congr_left
  intro index _
  show UInt8.ofNat (value >>> ((index + 1) * 8)) = UInt8.ofNat ((value / 256) >>> (index * 8))
  rw [Nat.shiftRight_eq_div_pow, Nat.shiftRight_eq_div_pow, Nat.div_div_eq_div_mul, Nat.succ_mul,
    Nat.pow_add, Nat.mul_comm]

@[simp] theorem ofLittleEndian_nil : ofLittleEndian [] = 0 := rfl

@[simp] theorem ofLittleEndian_cons (byte : UInt8) (bytes : Bytes) :
    ofLittleEndian (byte :: bytes) = byte.toNat + 256 * ofLittleEndian bytes := rfl

theorem ofLittleEndian_lt (bytes : Bytes) : ofLittleEndian bytes < 256 ^ bytes.length := by
  induction bytes with
  | nil => exact Nat.one_pos
  | cons byte bytes ih =>
      have hbyte : byte.toNat < 256 := byte.toNat_lt
      rw [ofLittleEndian_cons, List.length_cons, pow_succ]
      omega

theorem ofLittleEndian_littleEndian_mod (size value : ℕ) :
    ofLittleEndian (littleEndian size value) = value % 256 ^ size := by
  induction size generalizing value with
  | zero => rw [pow_zero, Nat.mod_one]; rfl
  | succ size ih =>
      have hbyte : (UInt8.ofNat value).toNat = value % 256 := UInt8.toNat_ofNat'
      rw [littleEndian_succ, ofLittleEndian_cons, hbyte, ih, pow_succ', Nat.mod_mul]

/-- A number that fits comes back. -/
theorem ofLittleEndian_littleEndian {size value : ℕ} (h : value < 256 ^ size) :
    ofLittleEndian (littleEndian size value) = value := by
  rw [ofLittleEndian_littleEndian_mod, Nat.mod_eq_of_lt h]

/-- Only the lowest bytes of a number count. -/
theorem littleEndian_mod (size value : ℕ) : littleEndian size (value % 256 ^ size) = littleEndian size value := by
  induction size generalizing value with
  | zero => rfl
  | succ size ih =>
      have hbyte : UInt8.ofNat (value % 256 ^ (size + 1)) = UInt8.ofNat value := by
        apply UInt8.toNat_inj.mp
        rw [UInt8.toNat_ofNat', UInt8.toNat_ofNat', pow_succ', Nat.mod_mul_right_mod]
      have hrest : value % 256 ^ (size + 1) / 256 = value / 256 % 256 ^ size := by
        rw [pow_succ', Nat.mod_mul_right_div_self]
      rw [littleEndian_succ, littleEndian_succ, hbyte, hrest, ih]

/-- Numbers that fit have different bytes. -/
theorem littleEndian_inj {size value value' : ℕ} (h : value < 256 ^ size) (h' : value' < 256 ^ size) :
    littleEndian size value = littleEndian size value' ↔ value = value' := by
  constructor
  · intro heq
    rw [← ofLittleEndian_littleEndian h, heq, ofLittleEndian_littleEndian h']
  · rintro rfl
    rfl

/-! ## Collecting the bytes in a word -/

/-- The word that a loop over the first `count` bytes has made. -/
def collect (bytes : Bytes) (count : ℕ) : UInt64 :=
  (List.range count).foldl
    (fun word index => word ||| (bytes.getD index 0).toUInt64 <<< (index * 8).toUInt64) 0

theorem collect_succ (bytes : Bytes) (count : ℕ) :
    collect bytes (count + 1) =
      collect bytes count ||| (bytes.getD count 0).toUInt64 <<< (count * 8).toUInt64 := by
  rw [collect, List.range_succ, List.foldl_concat, collect]

theorem ofLittleEndian_append_singleton (bytes : Bytes) (byte : UInt8) :
    ofLittleEndian (bytes ++ [byte]) = ofLittleEndian bytes + 256 ^ bytes.length * byte.toNat := by
  induction bytes with
  | nil => simp
  | cons first bytes ih =>
      rw [List.cons_append, ofLittleEndian_cons, ih, ofLittleEndian_cons, List.length_cons, pow_succ']
      ring

/-- A byte above all bits of a word is added to it. -/
theorem toNat_or_shiftLeft {word : UInt64} {byte : UInt8} {count : ℕ} (hcount : count < 8)
    (hword : word.toNat < 256 ^ count) :
    (word ||| byte.toUInt64 <<< (count * 8).toUInt64).toNat = word.toNat + 256 ^ count * byte.toNat := by
  have hpow : 256 ^ count = 2 ^ (count * 8) := by rw [Nat.mul_comm, Nat.pow_mul]
  have hshift : (count * 8).toUInt64.toNat = count * 8 := Nat.mod_eq_of_lt (by omega)
  have hbyte : byte.toNat < 2 ^ 8 := byte.toNat_lt
  have hfits : byte.toNat * 2 ^ (count * 8) < 2 ^ 64 := by
    calc byte.toNat * 2 ^ (count * 8) < 2 ^ 8 * 2 ^ (count * 8) :=
          Nat.mul_lt_mul_of_pos_right hbyte (by positivity)
      _ = 2 ^ (8 + count * 8) := by rw [Nat.pow_add]
      _ ≤ 2 ^ 64 := Nat.pow_le_pow_right (by norm_num) (by omega)
  have hshifted : (byte.toUInt64 <<< (count * 8).toUInt64).toNat = byte.toNat <<< (count * 8) := by
    rw [UInt64.toNat_shiftLeft, hshift, Nat.mod_eq_of_lt (show count * 8 < 64 by omega),
      UInt8.toNat_toUInt64, Nat.shiftLeft_eq, Nat.mod_eq_of_lt hfits]
  rw [UInt64.toNat_or, hshifted, Nat.or_comm, ← Nat.shiftLeft_add_eq_or_of_lt (hpow ▸ hword),
    Nat.shiftLeft_eq, hpow]
  ring

theorem toNat_collect_take {bytes : Bytes} {count : ℕ} (hcount : count ≤ 8) (hlength : count ≤ bytes.length) :
    (collect bytes count).toNat = ofLittleEndian (bytes.take count) := by
  induction count with
  | zero => rfl
  | succ count ih =>
      have hlt : count < bytes.length := hlength
      have hbefore := ih (Nat.le_of_succ_le hcount) hlt.le
      have hbound := ofLittleEndian_lt (bytes.take count)
      rw [List.length_take, Nat.min_eq_left hlt.le, ← hbefore] at hbound
      rw [collect_succ, toNat_or_shiftLeft (by omega) hbound, hbefore, List.take_succ_eq_append_getElem hlt,
        ofLittleEndian_append_singleton, List.length_take, Nat.min_eq_left hlt.le,
        List.getD_eq_getElem _ _ hlt]

/-- The loop reads the number that the bytes stand for. -/
theorem toNat_collect {bytes : Bytes} (h : bytes.length = 8) : (collect bytes 8).toNat = ofLittleEndian bytes := by
  rw [toNat_collect_take (Nat.le_refl 8) h.ge, List.take_of_length_le h.le]

end Aa2acp
