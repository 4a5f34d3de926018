import Mathlib.Tactic

/-!
# Byte strings and big-endian numbers

A byte string is a list of bytes.  `bigEndian size value` are the lowest `size` bytes
of a number, most significant first, and `ofBigEndian` reads such a string back.
-/

namespace Aa2acp

/-- A byte string (`std::vector<std::uint8_t>` or a span of it). -/
abbrev Bytes := List UInt8

/-- The bytes of an ASCII text. -/
def ascii (text : String) : Bytes := text.toList.map fun char => UInt8.ofNat char.toNat

/-- A text by its characters; a literal is one of these, and is evaluated faster so. -/
theorem ascii_ofList (chars : List Char) :
    ascii (String.ofList chars) = chars.map fun char => UInt8.ofNat char.toNat := by
  rw [ascii, String.toList_ofList]

/-- A byte that is there does not depend on what comes after it. -/
theorem getD_append_left {bytes : Bytes} {index : ℕ} (hindex : index < bytes.length)
    (more : Bytes) : (bytes ++ more).getD index 0 = bytes.getD index 0 := by
  rw [List.getD_eq_getElem?_getD, List.getD_eq_getElem?_getD,
    List.getElem?_append_left hindex]

/-- The lowest `size` bytes of a number, most significant first. -/
def bigEndian : ℕ → ℕ → Bytes
  | 0, _ => []
  | size + 1, value => UInt8.ofNat (value / 256 ^ size) :: bigEndian size value

/-- The number whose bytes these are, most significant first. -/
def ofBigEndian (bytes : Bytes) : ℕ := bytes.foldl (fun value byte => value * 256 + byte.toNat) 0

@[simp] theorem length_bigEndian (size value : ℕ) : (bigEndian size value).length = size := by
  induction size with
  | zero => rfl
  | succ size ih => rw [bigEndian, List.length_cons, ih]

theorem foldl_bigEndian (bytes : Bytes) (start : ℕ) :
    bytes.foldl (fun value byte => value * 256 + byte.toNat) start =
      start * 256 ^ bytes.length + ofBigEndian bytes := by
  induction bytes generalizing start with
  | nil => simp [ofBigEndian]
  | cons byte bytes ih =>
      unfold ofBigEndian
      rw [List.foldl_cons, List.foldl_cons, ih, ih, List.length_cons]
      ring

theorem ofBigEndian_cons (byte : UInt8) (bytes : Bytes) :
    ofBigEndian (byte :: bytes) = byte.toNat * 256 ^ bytes.length + ofBigEndian bytes := by
  have hfold := foldl_bigEndian bytes byte.toNat
  unfold ofBigEndian at hfold ⊢
  rw [List.foldl_cons, Nat.zero_mul, Nat.zero_add, hfold]

theorem ofBigEndian_lt (bytes : Bytes) : ofBigEndian bytes < 256 ^ bytes.length := by
  induction bytes with
  | nil => exact Nat.one_pos
  | cons byte bytes ih =>
      have hbyte : byte.toNat ≤ 255 := Nat.le_of_lt_succ byte.toNat_lt
      rw [ofBigEndian_cons, List.length_cons, pow_succ]
      calc byte.toNat * 256 ^ bytes.length + ofBigEndian bytes
          < byte.toNat * 256 ^ bytes.length + 256 ^ bytes.length := by omega
        _ = (byte.toNat + 1) * 256 ^ bytes.length := by ring
        _ ≤ 256 * 256 ^ bytes.length := Nat.mul_le_mul_right _ (by omega)
        _ = 256 ^ bytes.length * 256 := Nat.mul_comm _ _

theorem ofBigEndian_bigEndian_mod (size value : ℕ) :
    ofBigEndian (bigEndian size value) = value % 256 ^ size := by
  induction size with
  | zero => rw [pow_zero, Nat.mod_one]; rfl
  | succ size ih =>
      have hbyte : (UInt8.ofNat (value / 256 ^ size)).toNat = value / 256 ^ size % 256 :=
        UInt8.toNat_ofNat'
      have hsplit : value % (256 ^ size * 256) =
          value % 256 ^ size + 256 ^ size * (value / 256 ^ size % 256) := Nat.mod_mul
      rw [bigEndian, ofBigEndian_cons, ih, length_bigEndian, hbyte, pow_succ, hsplit]
      ring

/-- A number that fits comes back. -/
theorem ofBigEndian_bigEndian {size value : ℕ} (h : value < 256 ^ size) :
    ofBigEndian (bigEndian size value) = value := by
  rw [ofBigEndian_bigEndian_mod, Nat.mod_eq_of_lt h]

theorem bigEndian_add_mul (size value count : ℕ) :
    bigEndian size (value + 256 ^ size * count) = bigEndian size value := by
  induction size generalizing value count with
  | zero => rfl
  | succ size ih =>
      have hpow : 256 ^ (size + 1) * count = 256 ^ size * (256 * count) := by ring
      have hbyte : UInt8.ofNat (value / 256 ^ size + 256 * count) =
          UInt8.ofNat (value / 256 ^ size) := by
        apply UInt8.toNat_inj.mp
        rw [UInt8.toNat_ofNat', UInt8.toNat_ofNat', Nat.add_mul_mod_self_left]
      rw [hpow, bigEndian, bigEndian, ih, Nat.add_mul_div_left _ _ (by positivity), hbyte]

/-- Only the lowest bytes of a number count. -/
theorem bigEndian_mod (size value : ℕ) : bigEndian size (value % 256 ^ size) = bigEndian size value := by
  conv => right; rw [← Nat.mod_add_div value (256 ^ size)]
  rw [bigEndian_add_mul]

/-- The bytes of a number come back. -/
theorem bigEndian_ofBigEndian (bytes : Bytes) :
    bigEndian bytes.length (ofBigEndian bytes) = bytes := by
  induction bytes with
  | nil => rfl
  | cons byte bytes ih =>
      have hlt := ofBigEndian_lt bytes
      have hhead : (byte.toNat * 256 ^ bytes.length + ofBigEndian bytes) / 256 ^ bytes.length =
          byte.toNat := by
        rw [Nat.add_comm, Nat.add_mul_div_right _ _ (by positivity), Nat.div_eq_of_lt hlt,
          Nat.zero_add]
      have htail : bigEndian bytes.length (byte.toNat * 256 ^ bytes.length + ofBigEndian bytes) =
          bytes := by
        rw [Nat.add_comm, Nat.mul_comm, bigEndian_add_mul, ih]
      rw [List.length_cons, ofBigEndian_cons, bigEndian, hhead, htail, UInt8.ofNat_toNat]

end Aa2acp
