import SdrServer.Xlating.Float
import Mathlib.Analysis.Complex.Exponential

namespace SdrServer
namespace Xlating

section Reverse

variable {K : Type}

theorem swapTaps_get {taps : List K} {a b : Nat} (ha : a < taps.length) (hb : b < taps.length)
    (j : Nat) :
    (swapTaps taps a b)[j]? = taps[if j = b then a else if j = a then b else j]? := by
  have hswap : swapTaps taps a b = (taps.set a taps[b]).set b taps[a] := by
    simp [swapTaps, ha, hb]
  rw [hswap, List.getElem?_set, List.getElem?_set, List.length_set]
  by_cases hjb : b = j
  · subst hjb
    simp [ha, hb]
  · by_cases hja : a = j
    · subst hja
      simp [hjb, ha, hb, Ne.symm hjb]
    · simp [hjb, hja, Ne.symm hjb, Ne.symm hja]

theorem swapTaps_length (taps : List K) (a b : Nat) : (swapTaps taps a b).length = taps.length := by
  unfold swapTaps
  split <;> simp

def reversedTo (taps : List K) (m : Nat) : List K :=
  (List.range m).foldl (fun l i => swapTaps l (taps.length - 1 - i) i) taps

theorem reversedTo_succ (taps : List K) (m : Nat) :
    reversedTo taps (m + 1) = swapTaps (reversedTo taps m) (taps.length - 1 - m) m := by
  simp [reversedTo, List.range_succ]

theorem reversedTo_length (taps : List K) (m : Nat) :
    (reversedTo taps m).length = taps.length := by
  induction m with
  | zero => rfl
  | succ m ih => rw [reversedTo_succ, swapTaps_length, ih]

theorem reverseTaps_length (taps : List K) : (reverseTaps taps).length = taps.length :=
  reversedTo_length taps (taps.length / 2 + 1)

theorem reversedTo_get (taps : List K) (m : Nat) (hm : 2 * m ≤ taps.length + 1) (j : Nat)
    (hj : j < taps.length) :
    (reversedTo taps m)[j]? =
      taps[if j < m ∨ taps.length - 1 - j < m then taps.length - 1 - j else j]? := by
  induction m generalizing j with
  | zero => simp [reversedTo]
  | succ m ih =>
    have hlen := reversedTo_length taps m
    rw [reversedTo_succ, swapTaps_get (by omega) (by omega)]
    by_cases hjm : j = m
    · subst hjm
      rw [if_pos rfl, ih (by omega) _ (by omega), if_neg (by omega), if_pos (by omega)]
    · rw [if_neg hjm]
      by_cases hjo : j = taps.length - 1 - m
      · rw [if_pos hjo, ih (by omega) _ (by omega), if_neg (by omega), if_pos (by omega)]
        congr 1
        omega
      · rw [if_neg hjo, ih (by omega) _ hj]
        congr 1
        have hiff : (j < m ∨ taps.length - 1 - j < m) ↔
            (j < m + 1 ∨ taps.length - 1 - j < m + 1) := by omega
        simp only [hiff]

theorem reverseTaps_odd (taps : List K) (hodd : taps.length % 2 = 1) :
    reverseTaps taps = taps.reverse := by
  have hlen := reverseTaps_length taps
  apply List.ext_getElem? fun j => ?_
  by_cases hj : j < taps.length
  · have hget := reversedTo_get taps (taps.length / 2 + 1) (by omega) j hj
    change (reverseTaps taps)[j]? = _ at hget
    rw [hget, List.getElem?_reverse hj]
    congr 1
    by_cases hmid : j < taps.length / 2 + 1 ∨ taps.length - 1 - j < taps.length / 2 + 1
    · rw [if_pos hmid]
    · omega
  · rw [List.getElem?_eq_none (by omega), List.getElem?_eq_none (by simpa using hj)]

end Reverse

noncomputable section

def Format.toCf32 : (format : Format) → format.Value → format.Value → ℂ
  | .cu8 => cu8ToCf32
  | .cs8 => cs8ToCf32
  | .cs16 => cs16ToCf32

def sampleAt (xs : List ℂ) (n : ℤ) : ℂ := if 0 ≤ n then xs.getD n.toNat 0 else 0

def mixFilterDecimate (taps : List ℝ) (x : ℤ → ℂ) (ω : ℂ) (decimation k : Nat) : ℂ :=
  ∑ j ∈ Finset.range taps.length,
    (taps.getD j 0 : ℂ) * x (k * decimation - j) * ω ^ (-((k : ℤ) * decimation - j))

theorem hypotNormalise_unit (p : ℂ) (hp : ‖p‖ = 1) : hypotNormalise p = p := by
  rw [hypotNormalise, ← Complex.norm_eq_sqrt_sq_add_sq, hp, Complex.ofReal_one, div_one]

theorem iterate_mul (p q : ℂ) (k : Nat) : (fun p => p * q)^[k] p = p * q ^ k := by
  induction k generalizing p with
  | zero => simp
  | succ k ih => rw [Function.iterate_succ_apply, ih, pow_succ']; ring

def bandPassTaps (taps : List ℝ) (ω : ℂ) : List ℂ :=
  taps.mapIdx fun i (tap : ℝ) => (tap : ℂ) * ω ^ i

def carrier (centerFreq : Int) (samplingFreq : Nat) : ℂ :=
  Complex.exp (((2 : ℕ) * Real.pi * centerFreq / samplingFreq : ℝ) * Complex.I)

theorem carrier_ne_zero (centerFreq : Int) (samplingFreq : Nat) :
    carrier centerFreq samplingFreq ≠ 0 := Complex.exp_ne_zero _

theorem norm_carrier (centerFreq : Int) (samplingFreq : Nat) :
    ‖carrier centerFreq samplingFreq‖ = 1 := Complex.norm_exp_ofReal_mul_I _

theorem aligned_of {g : Xlating ℂ} {taps : List ℂ} (hlen : g.tapsLen = taps.length)
    (h : g.alignmentCf32 = 32) : Aligned (createAlignedTaps g taps) taps := by
  refine ⟨hlen.symm, ?_⟩
  intro i hi
  have hcount : max 1 (32 / 8) = 4 := by decide
  simp only [createAlignedTaps, h, hcount]
  rw [List.getElem?_map, List.getElem?_range hi]
  rfl

theorem bandPassTaps_carrier (taps : List ℝ) (centerFreq : Int) (samplingFreq : Nat) :
    (taps.mapIdx fun i (tap : ℝ) => (tap : ℂ) * Complex.exp
      ((i * (2 * Real.pi * centerFreq / samplingFreq) : ℝ) * Complex.I)) =
      bandPassTaps taps (carrier centerFreq samplingFreq) := by
  simp only [bandPassTaps, carrier, Nat.cast_ofNat]
  congr 1
  funext i tap
  rw [← Complex.exp_nat_mul, Complex.ofReal_mul, Complex.ofReal_natCast, mul_assoc]

theorem createFrequencyXlatingFilter_spec (heap : Nat × Nat) {decimation : Nat} {taps : List ℝ}
    (centerFreq : Int) (samplingFreq maxLen : Nat) (hD : 1 ≤ decimation)
    (hle : decimation ≤ taps.length) :
    ∃ f, createFrequencyXlatingFilter heap decimation taps centerFreq samplingFreq maxLen = some f ∧
      Sized maxLen f ∧
      Aligned f (reverseTaps (bandPassTaps taps (carrier centerFreq samplingFreq))) ∧
      f.tapsLen = taps.length ∧ f.decimation = decimation ∧ f.phase = 1 ∧
      f.phaseIncr = carrier centerFreq samplingFreq ^ (-(decimation : ℤ)) ∧
      f.floatHistory = List.replicate (taps.length - 1) 0 := by
  have hne : taps.length ≠ 0 := by omega
  have hD0 : decimation ≠ 0 := by omega
  have hincr : Complex.exp
      ((-(2 * Real.pi * centerFreq / samplingFreq) * decimation : ℝ) * Complex.I) =
      carrier centerFreq samplingFreq ^ (-(decimation : ℤ)) := by
    rw [carrier, ← Complex.exp_int_mul]
    congr 1
    push_cast
    ring
  simp only [createFrequencyXlatingFilter, hne, if_false, hD0, bandPassTaps_carrier, hincr]
  refine ⟨_, rfl, ⟨hD, hle, ⟨rfl, ?_⟩, ⟨rfl, ?_⟩, rfl, ?_, ?_, ?_, rfl⟩, aligned_of ?_ rfl, rfl, rfl,
    rfl, rfl, ?_⟩
  · exact Nat.mul_mod_right 32 _
  · exact Nat.mul_mod_right 32 _
  · exact List.length_replicate
  · exact List.length_replicate
  · change taps.length - 1 < taps.length
    omega
  · rw [reverseTaps_length, bandPassTaps, List.length_mapIdx]
  · change (List.replicate _ _).take (taps.length - 1) = _
    rw [List.take_replicate, Nat.min_eq_left (Nat.le_add_left _ _)]

-- the tables that a filter has of the taps it keeps
structure Tabled (f : Xlating ℂ) (reversed : List ℂ) : Prop where
  aligned : Aligned f reversed
  cf32 : f.alignmentCf32 = 32 ∧ f.workingBufferCf32Addr % 32 = 0
  cs16 : f.alignmentCs16 = 4 ∧ f.workingBufferCs16Addr % 32 = 0
  table : f.tapsCs16[0]? = some (quantiseTaps reversed ++ List.replicate 2 0)

theorem tabled_created {heap : Nat × Nat} {decimation : Nat} {taps : List ℝ} {centerFreq : Int}
    {samplingFreq maxLen : Nat} {f : Xlating ℂ}
    (h : createFrequencyXlatingFilter heap decimation taps centerFreq samplingFreq maxLen = some f) :
    Tabled f (reverseTaps (bandPassTaps taps (carrier centerFreq samplingFreq))) ∧
      0 < taps.length := by
  simp only [createFrequencyXlatingFilter, bandPassTaps_carrier] at h
  split at h
  · cases h
  · rename_i htaps
    split at h
    · cases h
    · obtain rfl := Option.some.inj h
      refine ⟨⟨aligned_of ?_ rfl, ⟨rfl, ?_⟩, ⟨rfl, ?_⟩, ?_⟩, Nat.pos_of_ne_zero htaps⟩
      · rw [reverseTaps_length, bandPassTaps, List.length_mapIdx]
      · exact Nat.mul_mod_right 32 _
      · exact Nat.mul_mod_right 32 _
      · have haligned : max 1 (4 / 2) = 2 := by decide
        simp only [createAlignedTaps, haligned]
        rw [List.getElem?_map, List.getElem?_range (by decide)]
        rfl

theorem Format.processCf32_eq (format : Format) :
    format.processCf32 = feedCf32 hypotNormalise format.toCf32 := by
  cases format <;> rfl

theorem window_getD (n start i : Nat) (xs : List ℂ) (hi : i ≤ n) :
    (List.replicate n 0 ++ xs).getD (start + i) 0 = sampleAt xs ((start : ℤ) - (n - i : Nat)) := by
  by_cases hbefore : start + i < n
  · have hneg : ¬ (0 : ℤ) ≤ (start : ℤ) - (n - i : Nat) := by omega
    rw [sampleAt, if_neg hneg, List.getD_eq_getElem?_getD, List.getElem?_append_left (by simpa),
      List.getElem?_replicate_of_lt hbefore, Option.getD_some]
  · have hpos : (0 : ℤ) ≤ (start : ℤ) - (n - i : Nat) := by omega
    have hidx : ((start : ℤ) - (n - i : Nat)).toNat = start + i - n := by omega
    rw [sampleAt, if_pos hpos, hidx, List.getD_eq_getElem?_getD,
      List.getElem?_append_right (by simpa using hbefore), List.length_replicate,
      List.getD_eq_getElem?_getD]

theorem bandPassTaps_getD (taps : List ℝ) (ω : ℂ) (j : Nat) :
    (bandPassTaps taps ω).getD j 0 = (taps.getD j 0 : ℂ) * ω ^ j := by
  simp only [bandPassTaps, List.getD_eq_getElem?_getD, List.getElem?_mapIdx]
  cases taps[j]? <;> simp

theorem reversed_getD (taps : List ℝ) (ω : ℂ) (j : Nat) (hj : j < taps.length) :
    (bandPassTaps taps ω).reverse.getD (taps.length - 1 - j) 0 =
      (taps.getD j 0 : ℂ) * ω ^ j := by
  have hlen : (bandPassTaps taps ω).length = taps.length := List.length_mapIdx
  rw [← bandPassTaps_getD, List.getD_eq_getElem?_getD, List.getElem?_reverse (by omega), hlen,
    List.getD_eq_getElem?_getD]
  congr 2
  omega

theorem dot_mixFilterDecimate (taps : List ℝ) (xs : List ℂ) {ω : ℂ} (hω : ω ≠ 0)
    (decimation k : Nat)
    (hk : k * decimation + taps.length ≤ taps.length - 1 + xs.length) :
    (dotCf32 (((List.replicate (taps.length - 1) 0 ++ xs).drop (k * decimation)).take taps.length) 0
      (bandPassTaps taps ω).reverse taps.length).getD 0 * (1 * (ω ^ (-(decimation : ℤ))) ^ k) =
      mixFilterDecimate taps (sampleAt xs) ω decimation k := by
  have hlen : (bandPassTaps taps ω).reverse.length = taps.length := by
    rw [List.length_reverse, bandPassTaps, List.length_mapIdx]
  have hshift : dotCf32 (((List.replicate (taps.length - 1) 0 ++ xs).drop (k * decimation)).take
      taps.length) 0 (bandPassTaps taps ω).reverse taps.length =
      dotCf32 (List.replicate (taps.length - 1) 0 ++ xs) (k * decimation)
        (bandPassTaps taps ω).reverse taps.length := by
    apply dotCf32_congr
    · intro i hi
      rw [List.getElem?_take_of_lt (by omega), List.getElem?_drop, Nat.zero_add]
    · intro i hi
      rfl
  have hroom : k * decimation + taps.length ≤
      (List.replicate (taps.length - 1) (0 : ℂ) ++ xs).length := by
    rwa [List.length_append, List.length_replicate]
  rw [hshift, dotCf32_sum _ _ _ _ hroom (le_of_eq hlen.symm), Option.getD_some,
    ← Finset.sum_range_reflect, Finset.sum_mul, mixFilterDecimate]
  apply Finset.sum_congr rfl
  intro j hj
  have hj' : j < taps.length := Finset.mem_range.mp hj
  have hpow : ω ^ j * (1 * (ω ^ (-(decimation : ℤ))) ^ k) =
      ω ^ (-((k : ℤ) * decimation - j)) := by
    rw [one_mul, ← zpow_natCast, ← zpow_natCast, ← zpow_mul, ← zpow_add₀ hω]
    congr 1
    ring
  have hback : taps.length - 1 - (taps.length - 1 - j) = j := by omega
  rw [window_getD _ _ _ _ (Nat.sub_le _ _), reversed_getD taps ω j hj', ← hpow, hback]
  push_cast
  ring

theorem count_ceil (taps decimation n : Nat) (ht : 0 < taps) (hD : 0 < decimation) :
    Decimation.count taps decimation (taps - 1 + n) = (n + decimation - 1) / decimation := by
  unfold Decimation.count
  split
  · rename_i hle
    have hn : taps - 1 + n - taps = n - 1 := by omega
    have hceil : n + decimation - 1 = n - 1 + decimation := by omega
    rw [hn, hceil, Nat.add_div_right _ hD]
  · have hn : n = 0 := by omega
    rw [hn, Nat.zero_add, Nat.div_eq_of_lt (by omega)]

theorem calls_outputs {heap : Nat × Nat} {format : Format} {decimation : Nat} {taps : List ℝ}
    {centerFreq : Int} {samplingFreq maxLen : Nat} {f : Xlating ℂ}
    {inputs : List (List format.Value)} (hodd : taps.length % 2 = 1)
    (hD : 1 ≤ decimation) (hle : decimation ≤ taps.length)
    (hf : createFrequencyXlatingFilter heap decimation taps centerFreq samplingFreq maxLen = some f)
    (hinputs : ∀ input ∈ inputs, input.length % 2 = 0 ∧ input.length / 2 ≤ maxLen / 2) :
    ∃ output g, calls format.processCf32 inputs f = some (output, g) ∧
      output.length = (inputs.flatten.length / 2 + decimation - 1) / decimation ∧
      ∀ k < output.length, k * decimation < (samples format.toCf32 inputs.flatten).length ∧
        output[k]? = some (mixFilterDecimate taps
          (sampleAt (samples format.toCf32 inputs.flatten)) (carrier centerFreq samplingFreq)
          decimation k) := by
  obtain ⟨f', hf', hsized, haligned, hlen, hdec, hphase, hincr, hhistory⟩ :=
    createFrequencyXlatingFilter_spec heap centerFreq samplingFreq maxLen hD hle
  obtain rfl := Option.some.inj (hf'.symm.trans hf)
  have hfix : ∀ k, hypotNormalise ((fun p => p * f'.phaseIncr)^[k] f'.phase) =
      (fun p => p * f'.phaseIncr)^[k] f'.phase := by
    intro k
    apply hypotNormalise_unit
    rw [iterate_mul, hphase, hincr]
    simp [norm_carrier]
  have hodd' : (bandPassTaps taps (carrier centerFreq samplingFreq)).length % 2 = 1 := by
    rwa [bandPassTaps, List.length_mapIdx]
  rw [reverseTaps_odd _ hodd'] at haligned
  obtain ⟨g, hg⟩ := calls_streamCf32 hsized haligned format.toCf32 inputs
    (fun input hinput => (hinputs input hinput).2) hfix
  have hstride : (f'.floatFilter (bandPassTaps taps
      (carrier centerFreq samplingFreq)).reverse).stride = decimation := hdec
  have htaps : (f'.floatFilter (bandPassTaps taps
      (carrier centerFreq samplingFreq)).reverse).taps = taps.length := hlen
  have hlength : f'.floatHistory.length = taps.length - 1 := by rw [hhistory, List.length_replicate]
  rw [← format.processCf32_eq, Decimation.stream_flatten _ (by omega) (by omega) _ _ (by omega),
    samples_flatten _ _ fun input hinput => (hinputs input hinput).1, hhistory, hphase,
    Decimation.feed] at hg
  refine ⟨_, g, hg, ?_, ?_⟩
  · rw [Decimation.emit_length, hstride, htaps, List.length_append, List.length_replicate,
      count_ceil _ _ _ (by omega) hD, samples_length]
  · intro k hk
    have hcount := hk
    rw [Decimation.emit_length, hstride, htaps, List.length_append, List.length_replicate,
      count_ceil _ _ _ (by omega) hD, Nat.lt_div_iff_mul_lt hD] at hcount
    refine ⟨by omega, ?_⟩
    rw [Decimation.emit_length] at hk
    rw [← dot_mixFilterDecimate taps _ (carrier_ne_zero centerFreq samplingFreq) decimation k
      (by omega), Decimation.emit_get _ _ _ _ k hk, hstride, htaps, ← hincr, ← iterate_mul]
    simp only [floatFilter, hlen]

theorem filter_translates (heap : Nat × Nat) (format : Format) {decimation : Nat} {taps : List ℝ}
    (centerFreq : Int) (samplingFreq maxLen : Nat) (hodd : taps.length % 2 = 1)
    (hD : 1 ≤ decimation) (hle : decimation ≤ taps.length) (inputs : List (List format.Value))
    (hinputs : ∀ input ∈ inputs, input.length % 2 = 0 ∧ input.length / 2 ≤ maxLen / 2) :
    ∃ f g output,
      createFrequencyXlatingFilter heap decimation taps centerFreq samplingFreq maxLen = some f ∧
      calls format.processCf32 inputs f = some (output, g) ∧
      output.length = (inputs.flatten.length / 2 + decimation - 1) / decimation ∧
      ∀ k < output.length, output[k]? = some (mixFilterDecimate taps
        (sampleAt (samples format.toCf32 inputs.flatten)) (carrier centerFreq samplingFreq)
        decimation k) := by
  obtain ⟨f, hf, -⟩ := createFrequencyXlatingFilter_spec heap centerFreq samplingFreq maxLen hD hle
  obtain ⟨output, g, hcalls, hlength, houtput⟩ := calls_outputs hodd hD hle hf hinputs
  refine ⟨f, g, output, hf, hcalls, hlength, ?_⟩
  intro k hk
  exact (houtput k hk).2

theorem threeCalls_fits :
    ∀ input ∈ threeCalls, input.length % 2 = 0 ∧ input.length / 2 ≤ 6 / 2 := by decide

theorem filter_translates_threeCalls :
    ∃ f g output,
      createFrequencyXlatingFilter (0, 1) 2 [1, 2, 3] (-12000) 48000 6 = some f ∧
      calls (Format.processCf32 .cs8) threeCalls f = some (output, g) ∧
      output.length = (threeCalls.flatten.length / 2 + 2 - 1) / 2 ∧
      ∀ k < output.length, output[k]? = some (mixFilterDecimate [1, 2, 3]
        (sampleAt (samples (Format.toCf32 .cs8) threeCalls.flatten)) (carrier (-12000) 48000) 2 k) :=
  filter_translates (0, 1) .cs8 (-12000) 48000 6 rfl (by decide)
    (show 2 ≤ [(1 : ℝ), 2, 3].length from by simp) threeCalls threeCalls_fits

end

end Xlating
end SdrServer
