import Mathlib.Algebra.BigOperators.Intervals
import Mathlib.Algebra.BigOperators.Ring.Finset
import Mathlib.Tactic.Ring

namespace Symmetric

variable {R : Type} [CommSemiring R] {f : ℕ → R} {m : ℕ}

def About (f : ℕ → R) (m : ℕ) : Prop := ∀ i ≤ 2 * m, f (2 * m - i) = f i

-- the lower half of the sum is the upper half read backwards
theorem About.sum (h : About f m) :
    ∑ i ∈ Finset.range (2 * m + 1), f i = f m + ∑ i ∈ Finset.range m, 2 * f (i + 1 + m) := by
  have hlow : ∑ i ∈ Finset.range m, f i = ∑ i ∈ Finset.range m, f (i + 1 + m) := by
    rw [← Finset.sum_range_reflect]
    apply Finset.sum_congr rfl
    intro i hi
    rw [Finset.mem_range] at hi
    rw [← h (m - 1 - i) (by omega)]
    congr 1
    omega
  have hhigh : ∑ i ∈ Finset.range m, f (m + 1 + i) = ∑ i ∈ Finset.range m, f (i + 1 + m) := by
    apply Finset.sum_congr rfl
    intro i _
    congr 1
    omega
  have hsplit : 2 * m + 1 = m + 1 + m := by omega
  rw [hsplit, Finset.sum_range_add, Finset.sum_range_succ, hlow, hhigh, ← Finset.mul_sum]
  ring

end Symmetric
