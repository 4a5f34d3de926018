import Aa2acp.Lib.Bytes

/-!
# Encodings of Unicode text

A text is a list of scalar values.  `utf8` are its bytes in UTF-8, and `utf16` its bytes in
UTF-16, most significant byte first, where a scalar value outside the Basic Multilingual
Plane takes a pair of surrogates.
-/

namespace Aa2acp
namespace Unicode

def utf8 (text : List Char) : Bytes := text.flatMap String.utf8EncodeChar

/-- The scalar value lies in the Basic Multilingual Plane. -/
def Basic (char : Char) : Prop := char.toNat < 0x10000

instance : DecidablePred Basic := fun char => inferInstanceAs (Decidable (char.toNat < _))

/-- The code units of a scalar value. -/
def units (char : Char) : List ℕ :=
  if Basic char then [char.toNat]
  else [0xD800 + (char.toNat - 0x10000) / 1024, 0xDC00 + (char.toNat - 0x10000) % 1024]

def utf16Units (text : List Char) : List ℕ := text.flatMap units

def utf16 (text : List Char) : Bytes := (utf16Units text).flatMap (bigEndian 2)

@[simp] theorem utf8_cons (char : Char) (text : List Char) :
    utf8 (char :: text) = String.utf8EncodeChar char ++ utf8 text := List.flatMap_cons

theorem toNat_lt (char : Char) : char.toNat < 0x110000 := by
  rcases char.valid with hlow | hhigh
  · exact hlow.trans (by decide)
  · exact hhigh.2

/-- A code unit has two bytes. -/
theorem unit_lt {char : Char} {unit : ℕ} (h : unit ∈ units char) : unit < 2 ^ 16 := by
  have hchar := toNat_lt char
  unfold units at h
  split at h
  · rename_i hbasic
    rw [List.mem_singleton.mp h]
    exact hbasic
  · rw [List.mem_pair] at h
    omega

theorem utf16Units_lt {text : List Char} {unit : ℕ} (h : unit ∈ utf16Units text) : unit < 2 ^ 16 := by
  obtain ⟨char, -, hunit⟩ := List.mem_flatMap.mp h
  exact unit_lt hunit

@[simp] theorem length_utf16 (text : List Char) : (utf16 text).length = (utf16Units text).length * 2 := by
  unfold utf16
  induction utf16Units text with
  | nil => rfl
  | cons unit units ih =>
      rw [List.flatMap_cons, List.length_append, length_bigEndian, ih, List.length_cons]
      ring

/-- The four bytes outside the Basic Multilingual Plane. -/
theorem length_utf8EncodeChar_of_not_basic {char : Char} (h : ¬ Basic char) :
    (String.utf8EncodeChar char).length = 4 := by
  have hlarge : ¬ char.val.toNat ≤ 0xffff := fun hle => h (Nat.lt_succ_of_le hle)
  unfold String.utf8EncodeChar
  dsimp only
  rw [if_neg (by omega), if_neg (by omega), if_neg hlarge]
  rfl

end Unicode
end Aa2acp
