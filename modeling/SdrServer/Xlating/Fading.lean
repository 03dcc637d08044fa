import SdrServer.Xlating.Rotator

namespace SdrServer
namespace Xlating

section Runs

variable {f g : Xlating ℂ} {u : ℂ}

theorem tapCs16_next {buffer : List Int16} {current : Nat} {p q o : Int16 × Int16}
    (h : f.tapCs16 buffer current p = some (o, q)) : q = f.rotate p := by
  obtain ⟨window, -, h⟩ := Option.bind_eq_some_iff.mp h
  obtain ⟨taps, -, h⟩ := Option.bind_eq_some_iff.mp h
  obtain ⟨temp, -, h⟩ := Option.bind_eq_some_iff.mp h
  exact (Prod.mk.inj (Option.some.inj h)).2.symm

theorem callFixed_phase {call : Call} {output : List (Int16 × Int16)}
    (h : callFixed call f = some (output, g)) :
    (g.phaseReal, g.phaseImag) = f.rotate^[output.length] (f.phaseReal, f.phaseImag) ∧
      g.rotate = f.rotate := by
  rw [callFixed, Format.processCs16_eq] at h
  obtain ⟨stored, hstored, hprocess⟩ := Option.bind_eq_some_iff.mp h
  obtain ⟨buffer, -, rfl⟩ := Option.map_eq_some_iff.mp hstored
  obtain ⟨⟨os, phase, rest, history⟩, hblock, hout⟩ := Option.map_eq_some_iff.mp hprocess
  obtain ⟨hphase, -⟩ := Block.process_outputs (fun _ _ _ _ _ => tapCs16_next) rfl hblock
  cases hout
  exact ⟨hphase, rfl⟩

theorem run_phase {calls : List Call} {outputs : List (List (Int16 × Int16))}
    (h : Mealy.run callFixed calls f = some (outputs, g)) :
    (g.phaseReal, g.phaseImag) = f.rotate^[outputs.flatten.length] (f.phaseReal, f.phaseImag) := by
  induction calls generalizing f outputs with
  | nil =>
    obtain ⟨rfl, rfl⟩ := Prod.mk.inj (Option.some.inj h)
    rfl
  | cons call calls ih =>
    obtain ⟨output, m, rest, hcall, hrest, rfl⟩ := Mealy.run_cons.mp h
    obtain ⟨hphase, hrotate⟩ := callFixed_phase hcall
    rw [ih hrest, hphase, hrotate, List.flatten_cons, List.length_append, Nat.add_comm,
      Function.iterate_add_apply]

theorem rotator_keeps (h : Starting f u) :
    (∀ calls outputs g, Mealy.run callFixed calls f = some (outputs, g) →
        (2 ^ 14 ≤ f.leastAmplitude outputs.flatten.length → Loud (g.phaseReal, g.phaseImag)) ∧
          (f.greatestAmplitude outputs.flatten.length < 2 ^ 14 →
            ¬ Loud (g.phaseReal, g.phaseImag))) ∧
      (∀ n, n ≤ 5000 → 2 ^ 14 ≤ f.leastAmplitude n) ∧
      (f.held + f.drift < 2 ^ 14 → ∃ first, ∀ n, first ≤ n → f.greatestAmplitude n < 2 ^ 14) := by
  have hstart : (f.phaseReal, f.phaseImag) = (32767, 0) := by rw [h.phaseReal, h.phaseImag]
  refine ⟨?_, ?_, ?_⟩
  · intro calls outputs g hrun
    rw [run_phase hrun, hstart]
    exact ⟨loud_of_least h, lost_of_greatest h⟩
  · intro n hn
    exact least_of_few h hn
  · intro hheld
    exact Affine.eventually_lt (norm_nonneg _) h.turn_lt (add_nonneg (by norm_num) f.drift_nonneg)
      hheld

end Runs

theorem starting_created {heap : Nat × Nat} {decimation : Nat} {taps : List ℝ} {centerFreq : Int}
    {samplingFreq maxLen : Nat} {f : Xlating ℂ}
    (h : createFrequencyXlatingFilter heap decimation taps centerFreq samplingFreq maxLen =
      some f) : Starting f f.phaseIncr := by
  simp only [createFrequencyXlatingFilter] at h
  split at h
  · cases h
  · split at h
    · cases h
    · obtain rfl := Option.some.inj h
      exact ⟨Complex.norm_exp_ofReal_mul_I _, rfl, rfl, rfl, rfl⟩

-- an increment of (3 + 4i) / 5
noncomputable def fifths : Xlating ℂ where
  decimation := 2
  tapsCf32 := []
  numberOfAlignedCf32 := 4
  alignmentCf32 := 32
  tapsCs16 := [[16384, 0, 16384, 0], [0, 16384, 0, 16384]]
  numberOfAlignedCs16 := 2
  alignmentCs16 := 4
  tapsLen := 2
  workingBufferCf32Addr := 0
  workingBufferCf32 := [0, 0, 0, 0]
  workingBufferCs16Addr := 0
  workingBufferCs16 := List.replicate 8 0
  historyOffset := 1
  workingBufferLenSamples := 4
  outputLenSampls := 2
  phase := 1
  phaseIncr := ⟨3 / 5, 4 / 5⟩
  phaseReal := 32767
  phaseImag := 0
  phaseIncrReal := 19660
  phaseIncrImag := 26213

theorem fifths_starting : Starting fifths ⟨3 / 5, 4 / 5⟩ where
  unit := by
    rw [← sq_eq_sq₀ (norm_nonneg _) (by norm_num), ← Complex.normSq_eq_norm_sq,
      Complex.normSq_apply]
    norm_num
  phaseReal := rfl
  phaseImag := rfl
  phaseIncrReal := by
    have hfloor : ⌊(3 / 5 * 32767 : ℝ)⌋ = 19660 := by
      rw [Int.floor_eq_iff]
      norm_num
    rw [truncToInt16, if_pos (by norm_num), hfloor]
    rfl
  phaseIncrImag := by
    have hfloor : ⌊(4 / 5 * 32767 : ℝ)⌋ = 26213 := by
      rw [Int.floor_eq_iff]
      norm_num
    rw [truncToInt16, if_pos (by norm_num), hfloor]
    rfl

theorem fifths_turn : ‖fifths.turn‖ ≤ 32766.5 / 2 ^ 15 := by
  have hincr : ‖planar (fifths.phaseIncrReal, fifths.phaseIncrImag)‖ ≤ 32766.5 := by
    rw [← sq_le_sq₀ (norm_nonneg _) (by norm_num), planar_sq]
    have hvalue : (19660 : Int16).toInt ^ 2 + (26213 : Int16).toInt ^ 2 = 1073636969 := by decide
    change ((((19660 : Int16).toInt ^ 2 + (26213 : Int16).toInt ^ 2 : Int)) : ℝ) ≤ 32766.5 ^ 2
    rw [hvalue]
    norm_num
  rw [turn_norm]
  exact div_le_div_of_nonneg_right hincr (by positivity)

theorem fifths_held : fifths.held + fifths.drift < 2 ^ 14 := by
  have hhalf := half_norm_le
  have hturn := fifths_turn
  have hfar : 0.79 ≤ ‖1 - fifths.turn‖ := by
    have him : (1 - fifths.turn).im = -(26213 / 2 ^ 15) := by
      rw [Complex.sub_im, Complex.one_im, zero_sub, turn_eq]
      rfl
    have hle := Complex.abs_im_le_norm (1 - fifths.turn)
    rw [him, abs_neg, abs_of_nonneg (by norm_num)] at hle
    exact le_trans (by norm_num) hle
  have hheld : fifths.held ≤ 15500 := by
    rw [held, div_le_iff₀ (by linarith)]
    linarith
  have hdrift : fifths.drift ≤ 1 := by
    rw [drift, div_le_iff₀ (by linarith)]
    linarith
  linarith

theorem rotator_keeps_fifths :
    (∃ outputs g, Mealy.run callFixed [cu8Call [200, 100, 200, 100, 200, 100]] fifths =
          some (outputs, g) ∧
        outputs.flatten.length = 2 ∧ Loud (g.phaseReal, g.phaseImag)) ∧
      ∃ first, ∀ n, first ≤ n → fifths.greatestAmplitude n < 2 ^ 14 := by
  obtain ⟨hruns, hfew, hlost⟩ := rotator_keeps fifths_starting
  have hrun : Mealy.run callFixed [cu8Call [200, 100, 200, 100, 200, 100]] fifths = some (_, _) :=
    rfl
  exact ⟨⟨_, _, hrun, rfl, (hruns _ _ _ hrun).1 (hfew 2 (by decide))⟩, hlost fifths_held⟩

-- without an offset the shift takes one unit off the phase at every output
theorem still_phase {f : Xlating ℂ} (hre : f.phaseIncrReal = 32767) (him : f.phaseIncrImag = 0)
    {n : Nat} (hn : n ≤ 32767) :
    (f.rotate^[n] (32767, 0)).1.toInt = 32767 - n ∧ (f.rotate^[n] (32767, 0)).2.toInt = 0 := by
  have hone : (32767 : Int16).toInt = 32767 := rfl
  have hzero : (0 : Int16).toInt = 0 := rfl
  have hbound : f.phaseIncrReal.toInt ^ 2 + f.phaseIncrImag.toInt ^ 2 ≤ 32767 ^ 2 := by
    rw [hre, him, hone, hzero]
    norm_num
  induction n with
  | zero => exact ⟨rfl, rfl⟩
  | succ n ih =>
    obtain ⟨hphase, hphase'⟩ := ih (by omega)
    obtain ⟨hnext, hnext'⟩ := rotate_toInt hbound (f.rotate^[n] (32767, 0))
    rw [Function.iterate_succ_apply', hnext, hnext', hphase, hphase', hre, him, hone, hzero]
    simp only [clamp]
    omega

theorem still_created {heap : Nat × Nat} {decimation : Nat} {taps : List ℝ}
    {samplingFreq maxLen : Nat} {f : Xlating ℂ} (hpos : 1 ≤ decimation)
    (hle : decimation ≤ taps.length)
    (h : createFrequencyXlatingFilter heap decimation taps 0 samplingFreq maxLen = some f) :
    f.phaseIncrReal = 32767 ∧ f.phaseIncrImag = 0 := by
  have hstarting := starting_created h
  obtain ⟨g, hg, -, -, -, -, -, hincr, -⟩ :=
    createFrequencyXlatingFilter_spec heap 0 samplingFreq maxLen hpos hle
  obtain rfl : f = g := Option.some.inj (h.symm.trans hg)
  have hunit : f.phaseIncr = 1 := by
    rw [hincr, carrier, Int.cast_zero, mul_zero, zero_div, Complex.ofReal_zero, zero_mul,
      Complex.exp_zero, one_zpow]
  have hre := hstarting.phaseIncrReal
  have him := hstarting.phaseIncrImag
  have hfull : ⌊(32767 : ℝ)⌋ = 32767 := Int.floor_ofNat 32767
  rw [hunit, Complex.one_re, one_mul, truncToInt16, if_pos (by norm_num), hfull] at hre
  rw [hunit, Complex.one_im, zero_mul, truncToInt16, if_pos le_rfl, Int.floor_zero] at him
  exact ⟨hre, him⟩

def silence : Call := cu8Call (List.replicate 32768 128)

theorem rotator_fades : ∃ f outputs g,
    createFrequencyXlatingFilter (0, 0) 1 [1] 0 48000 32768 = some f ∧
      Mealy.run callFixed [silence] f = some (outputs, g) ∧ outputs.flatten.length = 16384 ∧
      ¬ Loud (g.phaseReal, g.phaseImag) := by
  have hcreate : ∃ f, createFrequencyXlatingFilter (0, 0) 1 [1] 0 48000 32768 = some f := ⟨_, rfl⟩
  obtain ⟨f, hf⟩ := hcreate
  have hstarting := starting_created hf
  obtain ⟨halone, hhistory⟩ := alone_created hf
  have hlen : silence.2.length = 32768 := List.length_replicate
  have hwhole : Whole 32768 silence := ⟨by rw [hlen], hlen.le⟩
  obtain ⟨output, g, hcall, -, hcount⟩ := callFixed_total (ready_created hf (by decide)) hwhole
  have hoffset : f.historyOffset = 0 := hhistory
  have htaps : f.tapsLen = 1 := halone.tapsLen
  have hproduced : output.length = 16384 := by
    rw [hcount, hlen, hoffset, htaps, halone.decimation]
    rfl
  have hrun : Mealy.run callFixed [silence] f = some ([output], g) := by
    rw [Mealy.run, hcall]
    rfl
  have htotal : [output].flatten.length = 16384 := by
    rw [List.flatten_singleton, hproduced]
  refine ⟨f, [output], g, hf, hrun, htotal, ?_⟩
  obtain ⟨hre, him⟩ := still_created le_rfl le_rfl hf
  obtain ⟨hphase, hphase'⟩ := still_phase hre him (by decide : 16384 ≤ 32767)
  rw [run_phase hrun, htotal, hstarting.phaseReal, hstarting.phaseImag, Loud, hphase, hphase']
  norm_num

end Xlating
end SdrServer
