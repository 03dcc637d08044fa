import Mathlib.Analysis.SpecificLimits.Basic

namespace Affine

variable {x : ℕ → ℝ} {r r' s top : ℝ}

theorem fixed_eq (hr : r < 1) : r * (s / (1 - r)) + s = s / (1 - r) := by
  have hne : 1 - r ≠ 0 := by linarith
  field_simp
  ring

-- a sequence that loses at most a factor and a constant at each step, or is back at the top
theorem lower (hr0 : 0 ≤ r) (hr : r < 1) (hs : 0 ≤ s) (htop : 0 ≤ top) (hstart : top ≤ x 0)
    (hstep : ∀ n, top ≤ x (n + 1) ∨ r * x n - s ≤ x (n + 1)) (n : ℕ) :
    r ^ n * (top + s / (1 - r)) ≤ x n + s / (1 - r) := by
  have hfixed : 0 ≤ s / (1 - r) := div_nonneg hs (by linarith)
  induction n with
  | zero =>
    rw [pow_zero, one_mul]
    linarith
  | succ n ih =>
    rcases hstep n with hback | hlost
    · have hle : r ^ (n + 1) ≤ 1 := pow_le_one₀ hr0 hr.le
      calc r ^ (n + 1) * (top + s / (1 - r)) ≤ 1 * (top + s / (1 - r)) :=
            mul_le_mul_of_nonneg_right hle (by linarith)
        _ ≤ x (n + 1) + s / (1 - r) := by linarith
    · have heq : r * (s / (1 - r)) + s = s / (1 - r) := fixed_eq hr
      calc r ^ (n + 1) * (top + s / (1 - r)) = r * (r ^ n * (top + s / (1 - r))) := by ring
        _ ≤ r * (x n + s / (1 - r)) := mul_le_mul_of_nonneg_left ih hr0
        _ = r * x n - s + s / (1 - r) := by linarith
        _ ≤ x (n + 1) + s / (1 - r) := by linarith

theorem upper (hr0 : 0 ≤ r) (hr : r < 1) (hs : 0 ≤ s) (hstep : ∀ n, x (n + 1) ≤ r * x n + s)
    (n : ℕ) : x n ≤ r ^ n * x 0 + s / (1 - r) := by
  induction n with
  | zero =>
    have hfixed : 0 ≤ s / (1 - r) := div_nonneg hs (by linarith)
    rw [pow_zero, one_mul]
    linarith
  | succ n ih =>
    have heq : r * (s / (1 - r)) + s = s / (1 - r) := fixed_eq hr
    calc x (n + 1) ≤ r * x n + s := hstep n
      _ ≤ r * (r ^ n * x 0 + s / (1 - r)) + s := by
          linarith [mul_le_mul_of_nonneg_left ih hr0]
      _ = r ^ (n + 1) * x 0 + (r * (s / (1 - r)) + s) := by ring
      _ = r ^ (n + 1) * x 0 + s / (1 - r) := by rw [heq]

theorem level_succ (hr : r < 1) (n : ℕ) :
    r ^ (n + 1) * (top + s / (1 - r)) - s / (1 - r) =
      r * (r ^ n * (top + s / (1 - r)) - s / (1 - r)) - s := by
  have heq : r * (s / (1 - r)) + s = s / (1 - r) := fixed_eq hr
  calc r ^ (n + 1) * (top + s / (1 - r)) - s / (1 - r) =
        r * (r ^ n * (top + s / (1 - r))) - s / (1 - r) := by ring
    _ = r * (r ^ n * (top + s / (1 - r)) - s / (1 - r)) - s := by
        rw [mul_sub]
        linarith

-- the larger factor keeps the higher level for as long as the other one is above zero
theorem level_mono (hr0 : 0 ≤ r) (hle : r ≤ r') (hr' : r' < 1) (hs : 0 ≤ s) (htop : 0 ≤ top)
    (n : ℕ) : r ^ n * (top + s / (1 - r)) - s / (1 - r) ≤
      max 0 (r' ^ n * (top + s / (1 - r')) - s / (1 - r')) := by
  have hr : r < 1 := hle.trans_lt hr'
  have hlower := lower (x := fun n => max 0 (r' ^ n * (top + s / (1 - r')) - s / (1 - r'))) hr0 hr
    hs htop ?_ ?_ n
  · linarith
  · apply le_max_of_le_right
    rw [pow_zero]
    linarith
  · intro n
    right
    rw [level_succ hr']
    generalize r' ^ n * (top + s / (1 - r')) - s / (1 - r') = level
    rcases le_total 0 level with hpos | hneg
    · rw [max_eq_right hpos]
      apply le_max_of_le_right
      linarith [mul_le_mul_of_nonneg_right hle hpos]
    · rw [max_eq_left hneg, mul_zero]
      apply le_max_of_le_left
      linarith

theorem eventually_lt {a b bound : ℝ} (hr0 : 0 ≤ r) (hr : r < 1) (ha : 0 ≤ a)
    (hbound : b < bound) : ∃ first, ∀ n, first ≤ n → r ^ n * a + b < bound := by
  have hgap : 0 < (bound - b) / (a + 1) := div_pos (by linarith) (by linarith)
  obtain ⟨first, hfirst⟩ := exists_pow_lt_of_lt_one hgap hr
  refine ⟨first, ?_⟩
  intro n hn
  have hsmall : r ^ n < (bound - b) / (a + 1) :=
    (pow_le_pow_of_le_one hr0 hr.le hn).trans_lt hfirst
  rw [lt_div_iff₀ (by linarith), mul_add, mul_one] at hsmall
  linarith [pow_nonneg hr0 n]

end Affine
