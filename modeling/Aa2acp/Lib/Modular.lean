import Mathlib.Tactic

/-!
# Arithmetic modulo a number

The operations of a big-number library on natural numbers: `powMod` squares and multiplies,
`subMod` stays in range also below zero.
-/

namespace Aa2acp
namespace Modular

/-- The power for an exponent of at most `fuel` binary digits. -/
def powModFrom : ℕ → ℕ → ℕ → ℕ → ℕ
  | 0, _, _, modulus => 1 % modulus
  | fuel + 1, base, exponent, modulus =>
      let half := powModFrom fuel (base * base % modulus) (exponent / 2) modulus
      if exponent % 2 = 1 then base * half % modulus else half

/-- `base` to the power of `exponent`, modulo `modulus`. -/
def powMod (base exponent modulus : ℕ) : ℕ := powModFrom (exponent.log2 + 1) base exponent modulus

/-- The difference modulo `modulus`, which is never negative. -/
def subMod (left right modulus : ℕ) : ℕ := (((left : ℤ) - right) % modulus).toNat

theorem powModFrom_eq (fuel base modulus : ℕ) {exponent : ℕ} (h : exponent < 2 ^ fuel) :
    powModFrom fuel base exponent modulus = base ^ exponent % modulus := by
  induction fuel generalizing base exponent with
  | zero =>
      have hzero : exponent = 0 := by simpa using h
      rw [hzero, pow_zero]
      rfl
  | succ fuel ih =>
      have hhalf : exponent / 2 < 2 ^ fuel := by
        rw [pow_succ] at h
        omega
      have hpower : (base * base % modulus) ^ (exponent / 2) % modulus =
          base ^ (2 * (exponent / 2)) % modulus := by
        rw [← Nat.pow_mod, ← pow_two, ← pow_mul]
      unfold powModFrom
      dsimp only
      rw [ih _ hhalf, hpower]
      have hsplit := Nat.div_add_mod exponent 2
      rcases Nat.mod_two_eq_zero_or_one exponent with heven | hodd
      · rw [if_neg (by omega)]
        congr 2
        omega
      · rw [if_pos hodd, Nat.mul_mod_mod, ← pow_succ']
        congr 2
        omega

theorem powMod_eq (base exponent modulus : ℕ) :
    powMod base exponent modulus = base ^ exponent % modulus :=
  powModFrom_eq _ _ _ Nat.lt_log2_self

/-- Subtracting a summand again leaves the other one. -/
theorem subMod_of_modEq {left right rest modulus : ℕ}
    (h : left ≡ right + rest [MOD modulus]) : subMod left right modulus = rest % modulus := by
  have hcast : (left : ℤ) ≡ right + rest [ZMOD modulus] := by
    exact_mod_cast (Int.natCast_modEq_iff).mpr h
  have hdiff : ((left : ℤ) - right) % modulus = (rest : ℤ) % modulus := by
    have hsub := hcast.sub_right (right : ℤ)
    rwa [add_sub_cancel_left] at hsub
  unfold subMod
  rw [hdiff, ← Int.natCast_mod, Int.toNat_natCast]

end Modular
end Aa2acp
