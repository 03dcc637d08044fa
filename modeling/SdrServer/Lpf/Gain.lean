import SdrServer.Foundation.Symmetric
import SdrServer.Lpf.Model
import Mathlib.Tactic.FieldSimp

namespace SdrServer
namespace Lpf

variable {fwT0 : ℝ} {w taps : List ℝ} {M k : Nat}

theorem sincLoop_length (k : Nat) : (sincLoop fwT0 w M k taps).length = taps.length := by
  induction k with
  | zero => rfl
  | succ k ih => rw [sincLoop, List.length_set, ih]

-- pass `k` of the loop writes cell `k`
theorem sincLoop_getD {i : Nat} (hk : k ≤ taps.length) :
    (sincLoop fwT0 w M k taps).getD i 0 =
      if i < k then sincTap fwT0 ((i : Int) - M) (w.getD i 0) else taps.getD i 0 := by
  induction k with
  | zero => rw [sincLoop, if_neg (Nat.not_lt_zero i)]
  | succ k ih =>
    have hcell : ((-M + k : Int) + M).toNat = k := by omega
    have hoffset : (-M + k : Int) = k - M := by omega
    have hlen : (sincLoop fwT0 w M k taps).length = taps.length := sincLoop_length k
    rw [sincLoop, hcell, hoffset, List.getD_eq_getElem?_getD, List.getElem?_set]
    by_cases hi : k = i
    · subst hi
      rw [if_pos rfl, if_pos (by omega), if_pos (Nat.lt_succ_self k)]
      rfl
    · rw [if_neg hi, ← List.getD_eq_getElem?_getD, ih (by omega)]
      split
      · rw [if_pos (by omega)]
      · rw [if_neg (by omega)]

theorem sincTap_neg (n : Int) (x : ℝ) : sincTap fwT0 (-n) x = sincTap fwT0 n x := by
  simp only [sincTap, neg_eq_zero]
  split
  · rfl
  · push_cast
    rw [neg_mul, neg_mul, Real.sin_neg, neg_div_neg_eq]

noncomputable def rawTap (fwT0 : ℝ) (M i : Nat) : ℝ :=
  sincTap fwT0 ((i : Int) - M) ((hammingWindow (2 * M + 1)).getD i 0)

theorem hammingWindow_getD {i : Nat} (hi : i ≤ 2 * M) :
    (hammingWindow (2 * M + 1)).getD i 0 =
      54 / 100 - 46 / 100 * Real.cos (2 * Real.pi * i / (2 * M : ℕ)) := by
  rw [hammingWindow, List.getD_eq_getElem?_getD, List.getElem?_map,
    List.getElem?_range (by omega), Nat.add_sub_cancel, Option.map_some, Option.getD_some]
  push_cast
  rfl

theorem hammingWindow_symmetric (hM : 0 < M) :
    Symmetric.About (fun i => (hammingWindow (2 * M + 1)).getD i 0) M := by
  intro i hi
  have hne : ((2 * M : ℕ) : ℝ) ≠ 0 := by
    rw [Nat.cast_ne_zero]
    omega
  have hangle : 2 * Real.pi * ((2 * M - i : ℕ) : ℝ) / (2 * M : ℕ) =
      2 * Real.pi - 2 * Real.pi * i / (2 * M : ℕ) := by
    rw [Nat.cast_sub hi]
    field_simp
  change (hammingWindow (2 * M + 1)).getD (2 * M - i) 0 = (hammingWindow (2 * M + 1)).getD i 0
  rw [hammingWindow_getD (Nat.sub_le _ _), hammingWindow_getD hi, hangle, Real.cos_two_pi_sub]

theorem rawTap_symmetric (hM : 0 < M) : Symmetric.About (rawTap fwT0 M) M := by
  intro i hi
  have hwindow := hammingWindow_symmetric hM i hi
  have hoffset : ((2 * M - i : ℕ) : Int) - M = -((i : Int) - M) := by omega
  dsimp only at hwindow
  rw [rawTap, rawTap, hwindow, hoffset, sincTap_neg]

theorem normaliserLoop_sum (taps : List ℝ) (M n : Nat) :
    normaliserLoop taps M n =
      taps.getD M 0 + ∑ i ∈ Finset.range n, 2 * taps.getD (i + 1 + M) 0 := by
  induction n with
  | zero => rw [normaliserLoop, Nat.zero_add, Finset.sum_range_zero, add_zero]
  | succ n ih =>
    rw [normaliserLoop, ih, Finset.sum_range_succ, add_assoc]
    push_cast
    rfl

theorem sum_getD (taps : List ℝ) : taps.sum = ∑ i ∈ Finset.range taps.length, taps.getD i 0 := by
  induction taps with
  | nil => rfl
  | cons tap taps ih =>
    rw [List.sum_cons, List.length_cons, Finset.sum_range_succ', ih, add_comm]
    rfl

theorem rawTaps_getD (samplingFreq cutoffFreq : UInt32) {i : Nat} (hi : i < 2 * M + 1) :
    (rawTaps samplingFreq cutoffFreq (2 * M + 1)).getD i 0 =
      rawTap (2 * Real.pi * cutoffFreq.toNat / samplingFreq.toNat) M i := by
  have hM : (2 * M + 1 - 1) / 2 = M := by omega
  rw [rawTaps, hM, sincLoop_getD (by rw [List.length_replicate]), if_pos hi, rawTap]
  push_cast
  rfl

theorem rawTaps_length (samplingFreq cutoffFreq : UInt32) (ntaps : Nat) :
    (rawTaps samplingFreq cutoffFreq ntaps).length = ntaps := by
  rw [rawTaps, sincLoop_length, List.length_replicate]

theorem rawTaps_sum (samplingFreq cutoffFreq : UInt32) (hM : 0 < M) :
    (rawTaps samplingFreq cutoffFreq (2 * M + 1)).sum = fmax samplingFreq cutoffFreq (2 * M + 1) := by
  have hhalf : (2 * M + 1 - 1) / 2 = M := by omega
  rw [sum_getD, rawTaps_length, fmax, hhalf, normaliserLoop_sum,
    rawTaps_getD samplingFreq cutoffFreq (by omega)]
  have hall : ∑ i ∈ Finset.range (2 * M + 1),
      (rawTaps samplingFreq cutoffFreq (2 * M + 1)).getD i 0 =
      ∑ i ∈ Finset.range (2 * M + 1),
        rawTap (2 * Real.pi * cutoffFreq.toNat / samplingFreq.toNat) M i := by
    apply Finset.sum_congr rfl
    intro i hi
    exact rawTaps_getD samplingFreq cutoffFreq (Finset.mem_range.mp hi)
  have hupper : ∑ i ∈ Finset.range M,
      2 * (rawTaps samplingFreq cutoffFreq (2 * M + 1)).getD (i + 1 + M) 0 =
      ∑ i ∈ Finset.range M,
        2 * rawTap (2 * Real.pi * cutoffFreq.toNat / samplingFreq.toNat) M (i + 1 + M) := by
    apply Finset.sum_congr rfl
    intro i hi
    rw [Finset.mem_range] at hi
    rw [rawTaps_getD samplingFreq cutoffFreq (by omega)]
  rw [hall, hupper]
  exact (rawTap_symmetric hM).sum

theorem rawTaps_symmetric (samplingFreq cutoffFreq : UInt32) (hM : 0 < M) {i : Nat}
    (hi : i < 2 * M + 1) :
    (rawTaps samplingFreq cutoffFreq (2 * M + 1))[i]? =
      (rawTaps samplingFreq cutoffFreq (2 * M + 1))[2 * M - i]? := by
  have hlen := rawTaps_length samplingFreq cutoffFreq (2 * M + 1)
  have hget : ∀ j, j < 2 * M + 1 → (rawTaps samplingFreq cutoffFreq (2 * M + 1))[j]? =
      some (rawTap (2 * Real.pi * cutoffFreq.toNat / samplingFreq.toNat) M j) := by
    intro j hj
    have hvalue := rawTaps_getD samplingFreq cutoffFreq hj
    have hcell : j < (rawTaps samplingFreq cutoffFreq (2 * M + 1)).length := by
      rw [hlen]
      exact hj
    rw [List.getD_eq_getElem?_getD, List.getElem?_eq_getElem hcell, Option.getD_some] at hvalue
    rw [List.getElem?_eq_getElem hcell, hvalue]
  rw [hget i hi, hget (2 * M - i) (by omega), rawTap_symmetric hM i (by omega)]

theorem computeNtaps_odd {samplingFreq transitionWidth : UInt32} {ntaps : Nat}
    (h : computeNtaps samplingFreq transitionWidth = some ntaps) : ntaps % 2 = 1 := by
  simp only [computeNtaps] at h
  split at h
  · obtain rfl := Option.some.inj h
    split
    · omega
    · omega
  · cases h

-- making the number odd only adds to it
theorem le_computeNtaps {samplingFreq transitionWidth : UInt32} {ntaps : Nat}
    (h : computeNtaps samplingFreq transitionWidth = some ntaps) :
    53 * samplingFreq.toNat / (22 * transitionWidth.toNat) ≤ ntaps := by
  simp only [computeNtaps] at h
  split at h
  · obtain rfl := Option.some.inj h
    split
    · exact Nat.le_succ _
    · exact Nat.le_refl _
  · cases h

-- 53 / 22 leaves room for the fraction that the conversion to int drops
theorem double_le_ntaps {rate width : Nat} (factor : Nat) (hwidth : 0 < width) (hle : width ≤ rate) :
    2 * factor ≤ 53 * (rate * factor) / (22 * width) := by
  rw [Nat.le_div_iff_mul_le (Nat.mul_pos (by decide) hwidth)]
  calc 2 * factor * (22 * width) = 44 * (width * factor) := by ring
    _ ≤ 44 * (rate * factor) := Nat.mul_le_mul_left 44 (Nat.mul_le_mul_right factor hle)
    _ ≤ 53 * (rate * factor) := Nat.mul_le_mul_right _ (by decide)

theorem createLowPassFilter_ok {memory : Bool × Bool} {gain : ℝ}
    {samplingFreq cutoffFreq transitionWidth : UInt32} {taps : List ℝ}
    (h : createLowPassFilter memory gain samplingFreq cutoffFreq transitionWidth =
      some (.ok taps)) :
    sanityCheck1f samplingFreq cutoffFreq transitionWidth = .ok () ∧
      computeNtaps samplingFreq transitionWidth = some taps.length := by
  unfold createLowPassFilter at h
  split at h
  · cases h
  · rename_i hcheck
    refine ⟨hcheck, ?_⟩
    obtain ⟨ntaps, hntaps, htaps⟩ := Option.map_eq_some_iff.mp h
    split at htaps
    · cases htaps
    · split at htaps
      · cases htaps
      · cases htaps
        rw [List.length_map, rawTaps_length]
        exact hntaps

theorem scaledTaps_sum (gain : ℝ) (samplingFreq cutoffFreq : UInt32) (hM : 0 < M)
    (hsum : fmax samplingFreq cutoffFreq (2 * M + 1) ≠ 0) :
    ((rawTaps samplingFreq cutoffFreq (2 * M + 1)).map
      fun tap => tap * (gain / fmax samplingFreq cutoffFreq (2 * M + 1))).sum = gain := by
  rw [List.sum_map_mul_right, List.map_id', rawTaps_sum samplingFreq cutoffFreq hM]
  field_simp

theorem createLowPassFilter_sum {memory : Bool × Bool} {gain : ℝ}
    {samplingFreq cutoffFreq transitionWidth : UInt32} {taps : List ℝ}
    (h : createLowPassFilter memory gain samplingFreq cutoffFreq transitionWidth =
      some (.ok taps)) (h3 : 3 ≤ taps.length)
    (hsum : fmax samplingFreq cutoffFreq taps.length ≠ 0) : taps.sum = gain := by
  obtain ⟨hcheck, hntaps⟩ := createLowPassFilter_ok h
  have hodd := computeNtaps_odd hntaps
  obtain ⟨M, hM⟩ : ∃ M, taps.length = 2 * M + 1 := ⟨taps.length / 2, by omega⟩
  rw [hM] at hntaps hsum
  simp only [createLowPassFilter, hcheck, hntaps, Option.map_some, Option.some.injEq] at h
  split_ifs at h
  obtain rfl := Except.ok.inj h
  exact scaledTaps_sum gain samplingFreq cutoffFreq (by omega) hsum

theorem low_pass_symmetric {samplingFreq cutoffFreq transitionWidth : UInt32} {ntaps : Nat}
    (gain : ℝ) (hcheck : sanityCheck1f samplingFreq cutoffFreq transitionWidth = .ok ())
    (hntaps : computeNtaps samplingFreq transitionWidth = some ntaps) (h3 : 3 ≤ ntaps)
    (hsum : fmax samplingFreq cutoffFreq ntaps ≠ 0) :
    ∃ taps, createLowPassFilter (true, true) gain samplingFreq cutoffFreq transitionWidth =
        some (.ok taps) ∧
      taps.length = ntaps ∧ taps.length % 2 = 1 ∧
      (∀ i < taps.length, taps[i]? = taps[taps.length - 1 - i]?) ∧ taps.sum = gain := by
  have hodd := computeNtaps_odd hntaps
  obtain ⟨M, rfl⟩ : ∃ M, ntaps = 2 * M + 1 := ⟨ntaps / 2, by omega⟩
  have hM : 0 < M := by omega
  refine ⟨(rawTaps samplingFreq cutoffFreq (2 * M + 1)).map
    fun tap => tap * (gain / fmax samplingFreq cutoffFreq (2 * M + 1)), ?_, ?_, ?_, ?_, ?_⟩
  · simp only [createLowPassFilter, hcheck, hntaps, Option.map_some]
    rfl
  · rw [List.length_map, rawTaps_length]
  · rw [List.length_map, rawTaps_length]
    exact hodd
  · intro i hi
    rw [List.length_map, rawTaps_length] at hi ⊢
    rw [List.getElem?_map, List.getElem?_map, rawTaps_symmetric samplingFreq cutoffFreq hM hi,
      Nat.add_sub_cancel]
  · exact scaledTaps_sum gain samplingFreq cutoffFreq hM hsum

-- half the band: the sinc is zero beside its centre
theorem fmax_halfBand : fmax 48000 24000 3 = 1 := by
  have hangle : (2 * Real.pi * ((24000 : UInt32).toNat : ℝ) / ((48000 : UInt32).toNat : ℝ)) =
      Real.pi := by
    have hcutoff : (24000 : UInt32).toNat = 24000 := rfl
    have hsampling : (48000 : UInt32).toNat = 48000 := rfl
    rw [hcutoff, hsampling]
    push_cast
    ring
  have hpi := Real.pi_ne_zero
  have hcentre : rawTap Real.pi 1 1 = 1 := by
    rw [rawTap, hammingWindow_getD (by decide), sincTap, if_pos (by decide), div_self hpi]
    have hhalf : 2 * Real.pi * ((1 : ℕ) : ℝ) / ((2 * 1 : ℕ) : ℝ) = Real.pi := by
      push_cast
      ring
    rw [hhalf, Real.cos_pi]
    norm_num
  have hside : rawTap Real.pi 1 2 = 0 := by
    rw [rawTap, sincTap, if_neg (by decide)]
    have hone : (((2 : ℕ) : Int) - (1 : ℕ) : Int) = 1 := by decide
    rw [hone, Int.cast_one, one_mul, Real.sin_pi, zero_div, zero_mul]
  have hone := rawTaps_getD (M := 1) 48000 24000 (i := 1) (by decide)
  have htwo := rawTaps_getD (M := 1) 48000 24000 (i := 2) (by decide)
  rw [hangle] at hone htwo
  change normaliserLoop (rawTaps 48000 24000 (2 * 1 + 1)) 1 1 = 1
  rw [normaliserLoop_sum, Finset.sum_range_one, hone, htwo, hcentre, hside, mul_zero, add_zero]

theorem low_pass_symmetric_halfBand :
    ∃ taps, createLowPassFilter (true, true) 1 48000 24000 48000 = some (.ok taps) ∧
      taps.length = 3 ∧ taps.length % 2 = 1 ∧
      (∀ i < taps.length, taps[i]? = taps[taps.length - 1 - i]?) ∧ taps.sum = 1 :=
  low_pass_symmetric 1 (by decide) (by decide) (by decide) (by rw [fmax_halfBand]; exact one_ne_zero)

end Lpf
end SdrServer
