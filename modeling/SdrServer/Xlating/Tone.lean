import SdrServer.Lpf.Gain
import SdrServer.Xlating.Translation

namespace SdrServer
namespace Xlating

noncomputable section

-- what the taps make of a tone that turns by `u` from one sample to the next
def response (taps : List ℝ) (u : ℂ) : ℂ :=
  ∑ j ∈ Finset.range taps.length, (taps.getD j 0 : ℂ) * u ^ (-(j : ℤ))

def gainBound (taps : List ℝ) : ℝ := ∑ j ∈ Finset.range taps.length, |taps.getD j 0|

section Spec

variable {taps : List ℝ} {x y : ℤ → ℂ} {A z ω : ℂ} {δ : ℝ} {decimation k : Nat}

theorem mixFilterDecimate_tone (hz : z ≠ 0) (hω : ω ≠ 0) :
    mixFilterDecimate taps (fun n => A * z ^ n) ω decimation k =
      A * response taps (z / ω) * (z / ω) ^ (k * decimation) := by
  have hu : z / ω ≠ 0 := div_ne_zero hz hω
  rw [mixFilterDecimate, response, Finset.mul_sum, Finset.sum_mul]
  apply Finset.sum_congr rfl
  intro j _
  have hturn : z ^ ((k : ℤ) * decimation - j) * ω ^ (-((k : ℤ) * decimation - j)) =
      (z / ω) ^ (-(j : ℤ)) * (z / ω) ^ (k * decimation) := by
    rw [zpow_neg, ← div_eq_mul_inv, ← div_zpow, ← zpow_natCast, ← zpow_add₀ hu]
    congr 1
    push_cast
    ring
  calc (taps.getD j 0 : ℂ) * (A * z ^ ((k : ℤ) * decimation - j)) *
        ω ^ (-((k : ℤ) * decimation - j))
      = A * taps.getD j 0 *
          (z ^ ((k : ℤ) * decimation - j) * ω ^ (-((k : ℤ) * decimation - j))) := by ring
    _ = A * taps.getD j 0 * ((z / ω) ^ (-(j : ℤ)) * (z / ω) ^ (k * decimation)) := by rw [hturn]
    _ = A * (taps.getD j 0 * (z / ω) ^ (-(j : ℤ))) * (z / ω) ^ (k * decimation) := by ring

theorem mixFilterDecimate_near (hω : ‖ω‖ = 1)
    (hnear : ∀ j < taps.length, ‖x (k * decimation - j) - y (k * decimation - j)‖ ≤ δ) :
    ‖mixFilterDecimate taps x ω decimation k - mixFilterDecimate taps y ω decimation k‖ ≤
      δ * gainBound taps := by
  rw [mixFilterDecimate, mixFilterDecimate, ← Finset.sum_sub_distrib, gainBound, Finset.mul_sum]
  apply norm_sum_le_of_le
  intro j hj
  have hdiff := hnear j (Finset.mem_range.mp hj)
  rw [← sub_mul, ← mul_sub, norm_mul, norm_mul, norm_zpow, hω, one_zpow, mul_one,
    Complex.norm_real, Real.norm_eq_abs, mul_comm]
  exact mul_le_mul_of_nonneg_right hdiff (abs_nonneg _)

end Spec

-- once the window is full
theorem mixFilterDecimate_full {taps : List ℝ} {xs : List ℂ} {A z ω : ℂ} {δ : ℝ}
    {decimation k : Nat} (hz : z ≠ 0) (hω : ‖ω‖ = 1)
    (htone : ∀ n x, xs[n]? = some x → ‖x - A * z ^ n‖ ≤ δ)
    (hinside : k * decimation < xs.length) (hfull : taps.length - 1 ≤ k * decimation) :
    ‖mixFilterDecimate taps (sampleAt xs) ω decimation k -
      A * response taps (z / ω) * (z / ω) ^ (k * decimation)‖ ≤ δ * gainBound taps := by
  have hne : ω ≠ 0 := norm_ne_zero_iff.mp (by rw [hω]; exact one_ne_zero)
  rw [← mixFilterDecimate_tone hz hne]
  apply mixFilterDecimate_near hω
  intro j hj
  have hpos : (0 : ℤ) ≤ (k : ℤ) * decimation - j := by
    have hcast : ((taps.length - 1 : ℕ) : ℤ) ≤ (k : ℤ) * decimation := by exact_mod_cast hfull
    omega
  obtain ⟨n, hn⟩ := Int.eq_ofNat_of_zero_le hpos
  have hlt : n < xs.length := by
    have hcast : ((k * decimation : ℕ) : ℤ) = (k : ℤ) * decimation := Nat.cast_mul _ _
    omega
  rw [hn, sampleAt, if_pos (Int.natCast_nonneg n), zpow_natCast, Int.toNat_natCast,
    List.getD_eq_getElem?_getD, List.getElem?_eq_getElem hlt, Option.getD_some]
  exact htone n _ (List.getElem?_eq_getElem hlt)

theorem response_one (taps : List ℝ) : response taps 1 = taps.sum := by
  rw [response, Lpf.sum_getD]
  simp

section Calls

variable {heap : Nat × Nat} (format : Format) {decimation : Nat} {taps : List ℝ} {centerFreq : Int}
  {samplingFreq maxLen : Nat} {f : Xlating ℂ} {inputs : List (List format.Value)}

-- a tone with noise below `δ` comes out as the tone less the carrier, once the window is full
theorem tone_translated (hodd : taps.length % 2 = 1) (hD : 1 ≤ decimation)
    (hle : decimation ≤ taps.length)
    (hf : createFrequencyXlatingFilter heap decimation taps centerFreq samplingFreq maxLen = some f)
    (hinputs : ∀ input ∈ inputs, input.length % 2 = 0 ∧ input.length / 2 ≤ maxLen / 2)
    {A z : ℂ} {δ : ℝ} (hz : z ≠ 0)
    (htone : ∀ n x, (samples format.toCf32 inputs.flatten)[n]? = some x → ‖x - A * z ^ n‖ ≤ δ) :
    ∃ output g, calls format.processCf32 inputs f = some (output, g) ∧
      output.length = (inputs.flatten.length / 2 + decimation - 1) / decimation ∧
      ∀ k < output.length, taps.length - 1 ≤ k * decimation → ∃ y, output[k]? = some y ∧
        ‖y - A * response taps (z / carrier centerFreq samplingFreq) *
          (z / carrier centerFreq samplingFreq) ^ (k * decimation)‖ ≤ δ * gainBound taps := by
  obtain ⟨output, g, hcalls, hlength, houtput⟩ := calls_outputs hodd hD hle hf hinputs
  refine ⟨output, g, hcalls, hlength, ?_⟩
  intro k hk hfull
  obtain ⟨hinside, hget⟩ := houtput k hk
  refine ⟨_, hget, ?_⟩
  exact mixFilterDecimate_full hz (norm_carrier centerFreq samplingFreq) htone hinside hfull

end Calls

-- a quarter turn from one sample to the next, in three calls
def quarterTone : List (List Int8) := [[64, 0, 0, 64], [-64, 0], [0, -64, 64, 0, 0, 64]]

theorem quarterTone_near {n : Nat} {x : ℂ}
    (hx : (samples (Format.toCf32 .cs8) quarterTone.flatten)[n]? = some x) :
    ‖x - 1 / 2 * Complex.I ^ n‖ ≤ 0 := by
  have htone : samples (Format.toCf32 .cs8) quarterTone.flatten =
      (List.range 6).map fun n => 1 / 2 * Complex.I ^ n := by
    have hpos : (64 : ℂ) / 128 = 2⁻¹ := by norm_num
    have hneg : (-64 : ℂ) / 128 = -2⁻¹ := by norm_num
    simp [quarterTone, samples, Format.toCf32, cs8ToCf32, List.range_succ, hpos, hneg]
  rw [htone, List.getElem?_map] at hx
  obtain ⟨m, hm, rfl⟩ := Option.map_eq_some_iff.mp hx
  obtain ⟨-, rfl⟩ := List.getElem?_eq_some_iff.mp hm
  rw [List.getElem_range, sub_self, norm_zero]

theorem tone_translated_quarterTone :
    ∃ f output g,
      createFrequencyXlatingFilter (0, 1) 2 [1, 2, 3] 12000 48000 6 = some f ∧
      calls (Format.processCf32 .cs8) quarterTone f = some (output, g) ∧
      output.length = (quarterTone.flatten.length / 2 + 2 - 1) / 2 ∧
      ∀ k < output.length, [1, 2, 3].length - 1 ≤ k * 2 → ∃ y, output[k]? = some y ∧
        ‖y - 1 / 2 * response [1, 2, 3] (Complex.I / carrier 12000 48000) *
          (Complex.I / carrier 12000 48000) ^ (k * 2)‖ ≤ 0 * gainBound [1, 2, 3] := by
  obtain ⟨f, hf, -⟩ := createFrequencyXlatingFilter_spec (0, 1) 12000 48000 6 (by decide)
    (show 2 ≤ [(1 : ℝ), 2, 3].length from by simp)
  obtain ⟨output, g, hrun⟩ := tone_translated .cs8 rfl (by decide)
    (show 2 ≤ [(1 : ℝ), 2, 3].length from by simp) hf
    (show ∀ input ∈ quarterTone, input.length % 2 = 0 ∧ input.length / 2 ≤ 6 / 2 from by decide)
    Complex.I_ne_zero fun n x => quarterTone_near
  exact ⟨f, output, g, hf, hrun⟩

end

end Xlating
end SdrServer
