import Mathlib.Data.Int.Log
import Mathlib.Data.Rat.Floor
import Mathlib.Tactic.FieldSimp
import Mathlib.Tactic.Linarith
import Mathlib.Tactic.NormNum

namespace SinglePrecision

-- the nearest whole number, of two the even one
def nearest (x : ℚ) : ℤ :=
  if Int.fract x < 1 / 2 ∨ Int.fract x = 1 / 2 ∧ ⌊x⌋ % 2 = 0 then ⌊x⌋ else ⌊x⌋ + 1

-- the distance of the 24-bit numbers around `x`; below 2^-126 it stays as it is
def quantum (x : ℚ) : ℚ := (2 : ℚ) ^ max (Int.log 2 |x| - 23) (-149)

-- the value of a result before any overflow
def rounded (x : ℚ) : ℚ := nearest (x / quantum x) * quantum x

-- a conversion to a whole number cuts the fraction off
def truncate (x : ℚ) : ℤ := if 0 ≤ x then ⌊x⌋ else ⌈x⌉

theorem abs_nearest_sub (x : ℚ) : |(nearest x : ℚ) - x| ≤ 1 / 2 := by
  have hfract : (⌊x⌋ : ℚ) = x - Int.fract x := by linarith [Int.floor_add_fract x]
  have hlow : 0 ≤ Int.fract x := Int.fract_nonneg x
  have hhigh : Int.fract x < 1 := Int.fract_lt_one x
  unfold nearest
  split
  · rename_i hdown
    have hhalf : Int.fract x ≤ 1 / 2 := hdown.elim le_of_lt fun h => h.1.le
    rw [hfract, abs_le]
    constructor <;> linarith
  · rename_i hup
    have hhalf : 1 / 2 ≤ Int.fract x := not_lt.mp fun h => hup (.inl h)
    rw [Int.cast_add, Int.cast_one, hfract, abs_le]
    constructor <;> linarith

theorem quantum_pos (x : ℚ) : 0 < quantum x := zpow_pos (by norm_num) _

theorem abs_rounded_sub_quantum (x : ℚ) : |rounded x - x| ≤ quantum x / 2 := by
  have hpos : 0 < quantum x := quantum_pos x
  have hscaled : rounded x - x = (nearest (x / quantum x) - x / quantum x) * quantum x := by
    rw [rounded, sub_mul, div_mul_cancel₀ x hpos.ne']
  rw [hscaled, abs_mul, abs_of_pos hpos]
  linarith [mul_le_mul_of_nonneg_right (abs_nearest_sub (x / quantum x)) hpos.le]

theorem quantum_le {x : ℚ} (hx : x ≠ 0) : quantum x ≤ |x| / 2 ^ 23 + 1 / 2 ^ 149 := by
  have hlog : (2 : ℚ) ^ Int.log 2 |x| ≤ |x| := by
    have h := Int.zpow_log_le_self (b := 2) (r := |x|) (by decide) (abs_pos.mpr hx)
    exact_mod_cast h
  have hnonneg : 0 ≤ |x| / 2 ^ 23 := by positivity
  unfold quantum
  rcases max_choice (Int.log 2 |x| - 23) (-149) with hmax | hmax
  · rw [hmax, zpow_sub₀ (by norm_num)]
    have hdiv : (2 : ℚ) ^ Int.log 2 |x| / 2 ^ (23 : ℤ) ≤ |x| / 2 ^ 23 := by
      exact_mod_cast div_le_div_of_nonneg_right hlog (by positivity : (0 : ℚ) ≤ 2 ^ 23)
    have htiny : (0 : ℚ) ≤ 1 / 2 ^ 149 := by positivity
    linarith
  · rw [hmax, zpow_neg, ← one_div]
    have hcast : (1 : ℚ) / 2 ^ (149 : ℤ) = 1 / 2 ^ 149 := by norm_cast
    linarith

theorem abs_rounded_sub (x : ℚ) : |rounded x - x| ≤ |x| / 2 ^ 24 + 1 / 2 ^ 150 := by
  by_cases hx : x = 0
  · subst hx
    have hzero : rounded 0 = 0 := by simp [rounded, nearest]
    rw [hzero, sub_zero, abs_zero]
    norm_num
  · have hrounded := abs_rounded_sub_quantum x
    have hquantum := quantum_le hx
    have hhalf : (|x| / 2 ^ 23 + 1 / 2 ^ 149) / 2 = |x| / 2 ^ 24 + 1 / 2 ^ 150 := by
      field_simp
    linarith

theorem abs_truncate_sub (x : ℚ) : |(truncate x : ℚ) - x| < 1 := by
  unfold truncate
  split
  · rw [abs_lt]
    constructor <;> linarith [Int.floor_le x, Int.lt_floor_add_one x]
  · rw [abs_lt]
    constructor <;> linarith [Int.le_ceil x, Int.ceil_lt_add_one x]

end SinglePrecision
