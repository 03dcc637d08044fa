import SdrServer.Xlating.Amplitude

namespace SdrServer
namespace Xlating

def plainSum (buffer taps : List ℂ) (current : Nat) : ℂ :=
  ∑ i ∈ Finset.range taps.length, buffer.getD (current + i) 0 * taps.getD i 0

structure SameSums (f : Xlating ℂ) (taps : List ℂ) (current : Nat) : Prop where
  native : ∀ buffer phase, current + taps.length ≤ buffer.length →
    f.tapCf32 buffer current phase =
      some (plainSum buffer taps current * phase, phase * f.phaseIncr)
  optimized : ∀ simd buffer phase, current + taps.length ≤ buffer.length →
    f.tapOptimizedCf32 simd buffer current phase =
      some (plainSum buffer taps current * phase, phase * f.phaseIncr)

section Tables

variable {K : Type} [Semiring K]

theorem dotCf32_padded (buffer taps : List K) (start a m : Nat) (hm : m ≤ taps.length + a)
    (hb : start + a + taps.length ≤ buffer.length) :
    dotCf32 buffer start (alignedTaps taps 1 4 a) m =
      some (∑ i ∈ Finset.range (m - a), buffer.getD (start + a + i) 0 * taps.getD i 0) := by
  rw [alignedTaps, List.append_assoc]
  rcases Nat.le_total m a with hfew | hmany
  · rw [dotCf32_zeros buffer _ start a m hfew (by omega), Nat.sub_eq_zero_of_le hfew]
    rfl
  · obtain ⟨k, rfl⟩ := Nat.exists_eq_add_of_le hmany
    have hk : k ≤ taps.length := by omega
    have hkept : dotCf32 buffer (start + a) (taps ++ List.replicate (1 * (4 - 1) - a) 0) k =
        dotCf32 buffer (start + a) taps k := by
      apply dotCf32_congr
      · intro i _
        rfl
      · intro i hi
        exact List.getElem?_append_left (by omega)
    rw [dotCf32_shift buffer _ start a k (by omega), hkept,
      dotCf32_sum buffer taps (start + a) k (by omega) hk, Nat.add_sub_cancel_left]

-- a buffer that is silent but for one sample
def impulse (n len : Nat) : List K := List.replicate n 0 ++ 1 :: List.replicate len 0

theorem impulse_getD (n len k : Nat) :
    (impulse n len : List K).getD k 0 = if k = n then 1 else 0 := by
  rw [impulse, List.getD_eq_getElem?_getD]
  rcases Nat.lt_trichotomy k n with hbefore | rfl | hafter
  · rw [List.getElem?_append_left (by simpa using hbefore), List.getElem?_replicate_of_lt hbefore,
      if_neg (by omega)]
    rfl
  · rw [List.getElem?_append_right (by simp), if_pos rfl]
    simp
  · rw [List.getElem?_append_right (by simp; omega), if_neg (by omega), List.length_replicate]
    obtain ⟨j, hj⟩ : ∃ j, k - n = j + 1 := ⟨k - n - 1, by omega⟩
    rw [hj, List.getElem?_cons_succ, List.getElem?_replicate]
    split <;> rfl

end Tables

section Created

variable {f : Xlating ℂ} {taps : List ℂ} {simd : Simd} {buffer : List ℂ} {current : Nat}

theorem tapCf32_plain (ha : Aligned f taps)
    (h : f.alignmentCf32 = 32 ∧ f.workingBufferCf32Addr % 32 = 0) (phase : ℂ)
    (hb : current + taps.length ≤ buffer.length) :
    f.tapCf32 buffer current phase =
      some (plainSum buffer taps current * phase, phase * f.phaseIncr) := by
  have hlow : current % 4 < 4 := Nat.mod_lt _ (by decide)
  have hstart : current - current % 4 + current % 4 = current := by omega
  have hdot := dotCf32_padded buffer taps (current - current % 4) (current % 4)
    (taps.length + current % 4) le_rfl (by omega)
  rw [hstart, Nat.add_sub_cancel] at hdot
  simp only [tapCf32, h.1, alignedWindow_cf32 _ current h.2, ha.tables _ hlow, ← ha.length, hdot,
    Option.bind_eq_bind, Option.bind_some]
  rfl

-- the vector bodies stop after numSamples modulo 2^32 products
theorem tapOptimizedCf32_counted (ha : Aligned f taps)
    (h : f.alignmentCf32 = 32 ∧ f.workingBufferCf32Addr % 32 = 0) (hsimd : simd ≠ .off) (phase : ℂ)
    (hb : current + taps.length ≤ buffer.length) :
    f.tapOptimizedCf32 simd buffer current phase =
      some ((∑ i ∈ Finset.range ((taps.length + current % 4) % 2 ^ 32 - current % 4),
        buffer.getD (current + i) 0 * taps.getD i 0) * phase, phase * f.phaseIncr) := by
  have hlow : current % 4 < 4 := Nat.mod_lt _ (by decide)
  have hstart : current - current % 4 + current % 4 = current := by omega
  have haddr : (f.workingBufferCf32Addr + 8 * (current - current % 4)) % 32 = 0 := by omega
  have hdot := dotCf32_padded buffer taps (current - current % 4) (current % 4)
    ((taps.length + current % 4) % 2 ^ 32) (Nat.mod_le _ _) (by omega)
  rw [hstart] at hdot
  simp only [tapOptimizedCf32, h.1, alignedWindow_cf32 _ current h.2, ha.tables _ hlow, ← ha.length,
    Option.bind_eq_bind, Option.bind_some]
  cases simd with
  | off => exact absurd rfl hsimd
  | neon => simp only [dotOptimized, dotNeon_eq, hdot, Option.bind_some]
  | avx => simp only [dotOptimized, dotAvx_eq _ _ _ _ haddr, hdot, Option.bind_some]

-- what a sum that stops at `n` leaves out is silent
def SilentFrom (taps : List ℂ) (n : Nat) : Prop :=
  ∀ i, n ≤ i → i < taps.length → taps.getD i 0 = 0

theorem sum_silent {n : Nat} (hn : n ≤ taps.length) (h : SilentFrom taps n) :
    ∑ i ∈ Finset.range n, buffer.getD (current + i) 0 * taps.getD i 0 =
      plainSum buffer taps current := by
  apply Finset.sum_subset (Finset.range_mono hn)
  intro i hi hout
  rw [Finset.mem_range] at hi hout
  rw [h i (Nat.le_of_not_lt hout) hi, mul_zero]

theorem sum_impulse (taps : List ℂ) (current i n len : Nat) :
    ∑ j ∈ Finset.range n,
      (impulse (current + i) len : List ℂ).getD (current + j) 0 * taps.getD j 0 =
      if i < n then taps.getD i 0 else 0 := by
  have hterm : ∀ j, (impulse (current + i) len : List ℂ).getD (current + j) 0 * taps.getD j 0 =
      if j = i then taps.getD i 0 else 0 := by
    intro j
    rw [impulse_getD]
    by_cases hj : j = i
    · rw [if_pos (by omega), if_pos hj, one_mul, hj]
    · rw [if_neg (by omega), if_neg hj, zero_mul]
  simp only [hterm, Finset.sum_ite_eq', Finset.mem_range]

theorem silent_of_same (ha : Aligned f taps)
    (h : f.alignmentCf32 = 32 ∧ f.workingBufferCf32Addr % 32 = 0)
    (hsame : SameSums f taps current) :
    SilentFrom taps ((taps.length + current % 4) % 2 ^ 32 - current % 4) := by
  intro i hout hi
  have hb : current + taps.length ≤ (impulse (current + i) taps.length : List ℂ).length := by
    rw [impulse, List.length_append, List.length_cons, List.length_replicate, List.length_replicate]
    omega
  have hsum := hsame.optimized .neon _ 1 hb
  rw [tapOptimizedCf32_counted ha h (by decide) 1 hb, plainSum, sum_impulse, sum_impulse,
    if_neg (by omega), if_pos hi, mul_one, mul_one] at hsum
  exact (Prod.mk.inj (Option.some.inj hsum)).1.symm

theorem same_of_silent (ha : Aligned f taps)
    (h : f.alignmentCf32 = 32 ∧ f.workingBufferCf32Addr % 32 = 0)
    (hsilent : SilentFrom taps ((taps.length + current % 4) % 2 ^ 32 - current % 4)) :
    SameSums f taps current where
  native := by
    intro buffer phase hb
    exact tapCf32_plain ha h phase hb
  optimized := by
    intro simd buffer phase hb
    by_cases hsimd : simd = .off
    · subst hsimd
      exact tapCf32_plain ha h phase hb
    · have hle := Nat.mod_le (taps.length + current % 4) (2 ^ 32)
      rw [tapOptimizedCf32_counted ha h hsimd phase hb, sum_silent (by omega) hsilent]

end Created

theorem sums_equal {g : Xlating ℂ} {taps : List ℂ} (hlen : g.tapsLen = taps.length)
    (halign : g.alignmentCf32 = 32 ∧ g.workingBufferCf32Addr % 32 = 0) (current : Nat) :
    SameSums (createAlignedTaps g taps) taps current ↔
      taps.length + current % 4 < 2 ^ 32 ∨
        SilentFrom taps ((taps.length + current % 4) % 2 ^ 32 - current % 4) := by
  have ha := aligned_of hlen halign.1
  constructor
  · intro hsame
    exact Or.inr (silent_of_same ha halign hsame)
  · intro hcount
    apply same_of_silent ha halign
    rcases hcount with hshort | hsilent
    · intro i hout hi
      rw [Nat.mod_eq_of_lt hshort] at hout
      omega
    · exact hsilent

noncomputable def blank (tapsLen : Nat) : Xlating ℂ where
  decimation := 1
  tapsCf32 := []
  numberOfAlignedCf32 := 4
  alignmentCf32 := 32
  tapsCs16 := []
  numberOfAlignedCs16 := 2
  alignmentCs16 := 4
  tapsLen := tapsLen
  workingBufferCf32Addr := 0
  workingBufferCf32 := []
  workingBufferCs16Addr := 0
  workingBufferCs16 := []
  historyOffset := 0
  workingBufferLenSamples := 0
  outputLenSampls := 0
  phase := 1
  phaseIncr := 1
  phaseReal := 32767
  phaseImag := 0
  phaseIncrReal := 32767
  phaseIncrImag := 0

theorem sums_equal_ones :
    SameSums (createAlignedTaps (blank 9) (List.replicate 9 1)) (List.replicate 9 1) 6 :=
  (sums_equal (g := blank 9) List.length_replicate.symm ⟨rfl, rfl⟩ 6).mpr
    (Or.inl (by rw [List.length_replicate]; decide))

theorem sums_truncated :
    ¬ SameSums (createAlignedTaps (blank (2 ^ 32)) (List.replicate (2 ^ 32) 1))
      (List.replicate (2 ^ 32) 1) 0 := by
  intro hsame
  have hlen : (blank (2 ^ 32)).tapsLen = (List.replicate (2 ^ 32) (1 : ℂ)).length :=
    List.length_replicate.symm
  have hsilent := silent_of_same (aligned_of hlen rfl) ⟨rfl, rfl⟩ hsame
  have hzero := hsilent 0 (by rw [List.length_replicate]; decide)
    (by rw [List.length_replicate]; decide)
  rw [List.getD_eq_getElem?_getD, List.getElem?_replicate_of_lt (by decide)] at hzero
  exact one_ne_zero hzero

end Xlating
end SdrServer
