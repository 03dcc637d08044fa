import SdrServer.Xlating.Aligned
import SdrServer.Xlating.Interleaved

namespace SdrServer
namespace Xlating

section Swaps

variable {K : Type}

def Mirrored (taps reversed : List K) : Prop :=
  ∀ i < taps.length, reversed[i]? = taps[taps.length - 1 - i]?

theorem mirrored_iff {taps reversed : List K} (hlen : reversed.length = taps.length) :
    Mirrored taps reversed ↔ reversed = taps.reverse := by
  constructor
  · intro hmirrored
    apply List.ext_getElem? fun i => ?_
    by_cases hi : i < taps.length
    · rw [hmirrored i hi, List.getElem?_reverse hi]
    · rw [List.getElem?_eq_none (by omega), List.getElem?_eq_none (by simpa using hi)]
  · rintro rfl i hi
    exact List.getElem?_reverse hi

theorem reversedTo_half (taps : List K) {m : Nat} (hlen : taps.length = 2 * m) :
    reversedTo taps m = taps.reverse := by
  rw [← mirrored_iff (reversedTo_length taps m)]
  intro i hi
  rw [reversedTo_get taps m (by omega) i hi, if_pos (by omega)]

-- the last pass of the loop swaps the two middle values of an even number back
theorem reverseTaps_even (taps : List K) {m : Nat} (hlen : taps.length = 2 * m) :
    reverseTaps taps = swapTaps taps.reverse (m - 1) m := by
  have hhalf : taps.length / 2 + 1 = m + 1 := by omega
  have hback : taps.length - 1 - m = m - 1 := by omega
  change reversedTo taps (taps.length / 2 + 1) = _
  rw [hhalf, reversedTo_succ, reversedTo_half taps hlen, hback]

theorem swapTaps_eq_self {taps : List K} {a b : Nat} (ha : a < taps.length)
    (hb : b < taps.length) : swapTaps taps a b = taps ↔ taps[a]? = taps[b]? := by
  constructor
  · intro hsame
    have hget := swapTaps_get ha hb b
    rwa [hsame, if_pos rfl, eq_comm] at hget
  · intro heq
    apply List.ext_getElem? fun j => ?_
    rw [swapTaps_get ha hb]
    by_cases hjb : j = b
    · rw [if_pos hjb, heq, hjb]
    · rw [if_neg hjb]
      by_cases hja : j = a
      · rw [if_pos hja, ← heq, hja]
      · rw [if_neg hja]

def Centred (taps : List K) : Prop :=
  taps.length % 2 = 1 ∨ taps[taps.length / 2 - 1]? = taps[taps.length / 2]?

theorem reverseTaps_iff (taps : List K) (hne : 0 < taps.length) :
    reverseTaps taps = taps.reverse ↔ Centred taps := by
  rcases Nat.mod_two_eq_zero_or_one taps.length with heven | hodd
  · obtain ⟨m, hlen⟩ : ∃ m, taps.length = 2 * m := ⟨taps.length / 2, by omega⟩
    have hm : 0 < m := by omega
    have hfirst : taps.reverse[m - 1]? = taps[m]? := by
      rw [List.getElem?_reverse (by omega)]
      congr 1
      omega
    have hsecond : taps.reverse[m]? = taps[m - 1]? := by
      rw [List.getElem?_reverse (by omega)]
      congr 1
      omega
    have hhalf : taps.length / 2 = m := by omega
    rw [reverseTaps_even taps hlen, swapTaps_eq_self (by rw [List.length_reverse]; omega)
      (by rw [List.length_reverse]; omega), hfirst, hsecond, Centred, hhalf]
    constructor
    · intro hmiddle
      exact Or.inr hmiddle.symm
    · rintro (hodd | hmiddle)
      · omega
      · exact hmiddle.symm
  · exact ⟨fun _ => Or.inl hodd, fun _ => reverseTaps_odd taps hodd⟩

end Swaps

def convolution (buffer taps : List ℂ) (current : Nat) : ℂ :=
  ∑ j ∈ Finset.range taps.length,
    taps.getD j 0 * buffer.getD (current + (taps.length - 1 - j)) 0

structure Convolves (f : Xlating ℂ) (taps : List ℂ) : Prop where
  native : ∀ buffer current phase, current + taps.length ≤ buffer.length →
    f.tapCf32 buffer current phase =
      some (convolution buffer taps current * phase, phase * f.phaseIncr)
  optimized : ∀ simd buffer current phase, taps.length + current % 4 < 2 ^ 32 →
    current + taps.length ≤ buffer.length →
    f.tapOptimizedCf32 simd buffer current phase =
      some (convolution buffer taps current * phase, phase * f.phaseIncr)
  fixed : ∀ buffer current phase, f.tapCs16 buffer current phase =
    (dotCs16 buffer (2 * current) (quantiseTaps taps.reverse) taps.length).map fun temp =>
      (derotate temp phase, f.rotate phase)

theorem plainSum_reverse (buffer taps : List ℂ) (current : Nat) :
    plainSum buffer taps.reverse current = convolution buffer taps current := by
  rw [plainSum, List.length_reverse, ← Finset.sum_range_reflect, convolution]
  apply Finset.sum_congr rfl
  intro j hj
  have hj' : j < taps.length := Finset.mem_range.mp hj
  have hback : taps.length - 1 - (taps.length - 1 - j) = j := by omega
  have hmirror : taps.reverse.getD (taps.length - 1 - j) 0 = taps.getD j 0 := by
    rw [List.getD_eq_getElem?_getD, List.getElem?_reverse (by omega), hback,
      ← List.getD_eq_getElem?_getD]
  rw [hmirror, mul_comm]

-- the sums over all buffers tell the taps
theorem eq_of_sums {taps taps' : List ℂ} (hlen : taps.length = taps'.length)
    (hsums : ∀ buffer, taps.length ≤ buffer.length →
      plainSum buffer taps 0 = plainSum buffer taps' 0) : taps = taps' := by
  apply List.ext_getElem? fun i => ?_
  by_cases hi : i < taps.length
  · have hsum := hsums (impulse (0 + i) taps.length) (by
      rw [impulse, List.length_append, List.length_cons, List.length_replicate,
        List.length_replicate]
      omega)
    rw [plainSum, plainSum, sum_impulse, sum_impulse, if_pos hi, if_pos (hlen ▸ hi)] at hsum
    have hi' : i < taps'.length := hlen ▸ hi
    simpa [List.getD_eq_getElem?_getD, hi, hi'] using hsum
  · rw [List.getElem?_eq_none (by omega), List.getElem?_eq_none (by omega)]

theorem dotCs16_prefix (buffer taps rest : List Int16) (start n : Nat)
    (hn : 2 * n ≤ taps.length) :
    dotCs16 buffer start (taps ++ rest) n = dotCs16 buffer start taps n := by
  induction n with
  | zero => rfl
  | succ n ih =>
    rw [dotCs16, dotCs16, ih (by omega), List.getElem?_append_left (by omega),
      List.getElem?_append_left (by omega)]

section Created

variable {f : Xlating ℂ} {taps reversed : List ℂ}

theorem convolves_of_reversed (hf : Tabled f taps.reverse) : Convolves f taps where
  native := by
    intro buffer current phase hb
    rw [← plainSum_reverse]
    exact tapCf32_plain hf.aligned hf.cf32 phase (by rwa [List.length_reverse])
  optimized := by
    intro simd buffer current phase hshort hb
    have hsilent : SilentFrom taps.reverse
        ((taps.reverse.length + current % 4) % 2 ^ 32 - current % 4) := by
      intro i hout hi
      rw [List.length_reverse] at hout hi
      rw [Nat.mod_eq_of_lt hshort] at hout
      omega
    rw [← plainSum_reverse]
    exact (same_of_silent hf.aligned hf.cf32 hsilent).optimized simd buffer phase
      (by rwa [List.length_reverse])
  fixed := by
    intro buffer current phase
    have hlen : f.tapsLen = taps.length := by rw [← hf.aligned.length, List.length_reverse]
    have hdot := dotCs16_prefix buffer (quantiseTaps taps.reverse) (List.replicate 2 0)
      (2 * current) taps.length (by rw [quantiseTaps_length, List.length_reverse])
    simp only [tapCs16, hf.cs16.1, alignedWindow_cs16 _ current hf.cs16.2, hf.table, hlen, hdot,
      Nat.add_zero, Option.bind_eq_bind, Option.bind_some, Option.map_eq_bind]
    rfl

theorem convolves_iff (hf : Tabled f reversed) (hlen : reversed.length = taps.length) :
    Convolves f taps ↔ reversed = taps.reverse := by
  constructor
  · intro hconvolves
    have hsums : ∀ buffer, reversed.length ≤ buffer.length →
        plainSum buffer reversed 0 = plainSum buffer taps.reverse 0 := by
      intro buffer hb
      have hplain : f.tapCf32 buffer 0 1 =
          some (plainSum buffer reversed 0 * 1, 1 * f.phaseIncr) :=
        tapCf32_plain hf.aligned hf.cf32 1 (by omega)
      have hnative := hconvolves.native buffer 0 1 (by omega)
      rw [hplain, mul_one, mul_one, ← plainSum_reverse] at hnative
      exact (Prod.mk.inj (Option.some.inj hnative)).1
    exact eq_of_sums (by rw [List.length_reverse, hlen]) hsums
  · rintro rfl
    exact convolves_of_reversed hf

end Created

end Xlating
end SdrServer
