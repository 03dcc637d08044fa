import SdrServer.DspWorker.Divisors
import SdrServer.Xlating.Bounds

namespace SdrServer
namespace DspWorker

section Rates

variable {memory : Bool × Bool} {gain : ℝ} {bandSamplingRate samplingRate rate : UInt32}
  {taps : List ℝ}

structure LongEnough (bandSamplingRate samplingRate : UInt32) (taps : List ℝ) : Prop where
  odd : taps.length % 2 = 1
  three : 3 ≤ taps.length
  positive : 1 ≤ bandSamplingRate / samplingRate
  decimation : (bandSamplingRate / samplingRate).toNat ≤ taps.length

theorem longEnough_of_low_pass (hfactor : bandSamplingRate % samplingRate = 0)
    (h : Lpf.createLowPassFilter memory gain bandSamplingRate (samplingRate / 2)
      (samplingRate / rate) = some (.ok taps)) :
    LongEnough bandSamplingRate samplingRate taps := by
  obtain ⟨hcheck, hntaps⟩ := Lpf.createLowPassFilter_ok h
  have hwidth := (Lpf.sanityCheck1f_ok hcheck).2.2
  have hodd := Lpf.computeNtaps_odd hntaps
  have hlong := Lpf.le_computeNtaps hntaps
  have hrest := congrArg UInt32.toNat hfactor
  rw [UInt32.toNat_mod, UInt32.toNat_zero] at hrest
  have hquotient := UInt32.toNat_div bandSamplingRate samplingRate
  have hproduct := Nat.mul_div_cancel' (Nat.dvd_of_mod_eq_zero hrest)
  have hle : (samplingRate / rate).toNat ≤ samplingRate.toNat := by
    rw [UInt32.toNat_div]
    exact Nat.div_le_self _ _
  have hwidth' : 0 < (samplingRate / rate).toNat := UInt32.lt_iff_toNat_lt.mp hwidth
  have hdouble := Lpf.double_le_ntaps (bandSamplingRate.toNat / samplingRate.toNat) hwidth' hle
  rw [hproduct] at hdouble
  have hne := decimation_ne_zero (createLowPassFilter_samplingFreq h) hfactor
  have hpositive : 0 < (bandSamplingRate / samplingRate).toNat :=
    UInt32.lt_iff_toNat_lt.mp (UInt32.pos_iff_ne_zero.mpr hne)
  exact ⟨hodd, by omega, UInt32.le_iff_toNat_le.mpr hpositive, by omega⟩

theorem filter_long_enough {lpfCutoffRate : Int32}
    (hfactor : bandSamplingRate % samplingRate = 0)
    (h : Lpf.createLowPassFilter memory gain bandSamplingRate (samplingRate / 2)
      (samplingRate / lpfCutoffRate.toUInt32) = some (.ok taps)) :
    LongEnough bandSamplingRate samplingRate taps ∧
      ∀ (heap : Nat × Nat) (centerFreq : Int) (maxLen : Nat), ∃ f,
        Xlating.createFrequencyXlatingFilter heap (bandSamplingRate / samplingRate).toNat taps
            centerFreq bandSamplingRate.toNat maxLen = some f ∧
          ∀ (simd : Xlating.Simd) (calls : List (Xlating.Path × Xlating.Call)),
            (∀ c ∈ calls, Xlating.Whole maxLen c.2) →
              ∃ outputs g, Mealy.run (Xlating.callBy simd) calls f = some (outputs, g) := by
  have hlong := longEnough_of_low_pass hfactor h
  refine ⟨hlong, ?_⟩
  intro heap centerFreq maxLen
  obtain ⟨f, hf, -⟩ := Xlating.createFrequencyXlatingFilter_spec heap centerFreq
    bandSamplingRate.toNat maxLen (UInt32.le_iff_toNat_le.mp hlong.positive) hlong.decimation
  refine ⟨f, hf, ?_⟩
  intro simd calls hcalls
  obtain ⟨outputs, g, hrun, -⟩ :=
    Xlating.run_inside simd (Xlating.ready_created hf hlong.decimation) hcalls
  exact ⟨outputs, g, hrun⟩

end Rates

theorem filter_long_enough_five : ∃ taps f,
    Lpf.createLowPassFilter (true, true) 1 2400000 (48000 / 2)
        (48000 / (5 : Int32).toUInt32) = some (.ok taps) ∧
      LongEnough 2400000 48000 taps ∧
      Xlating.createFrequencyXlatingFilter (0, 1) ((2400000 : UInt32) / 48000).toNat taps (-12000)
          (2400000 : UInt32).toNat 4 = some f ∧
        ∃ outputs g, Mealy.run (Xlating.callBy .avx)
          [(.native, Xlating.cu8Call [200, 100, 0, 0]), (.fixed, Xlating.cu8Call [200, 100])] f =
            some (outputs, g) := by
  have hcheck : Lpf.sanityCheck1f 2400000 (48000 / 2) (48000 / (5 : Int32).toUInt32) = .ok () := by
    decide
  have hntaps : Lpf.computeNtaps 2400000 (48000 / (5 : Int32).toUInt32) = some 603 := by decide
  have haccepted : ∃ taps, Lpf.createLowPassFilter (true, true) 1 2400000 (48000 / 2)
      (48000 / (5 : Int32).toUInt32) = some (.ok taps) := by
    simp only [Lpf.createLowPassFilter, hcheck, hntaps, Option.map_some]
    exact ⟨_, rfl⟩
  obtain ⟨taps, htaps⟩ := haccepted
  obtain ⟨hlong, hfilter⟩ := filter_long_enough (by decide) htaps
  obtain ⟨f, hf, hruns⟩ := hfilter (0, 1) (-12000) 4
  refine ⟨taps, f, htaps, hlong, hf, hruns .avx _ ?_⟩
  intro c hc
  simp only [List.mem_cons, List.not_mem_nil, or_false] at hc
  rcases hc with rfl | rfl <;> exact ⟨rfl, by decide⟩

theorem divide_eq {a b q : UInt32} (h : divide a b = .ok q) : a / b = q := by
  unfold divide at h
  split at h
  · cases h
  · exact Except.ok.inj h

theorem converted_eq {α : Type} {converted : Option α} {a : α}
    (h : converted.elim (Except.error Halt.conversion) Except.ok = .ok a) : converted = some a := by
  cases converted with
  | none => cases h
  | some b => exact congrArg some (Except.ok.inj h)

theorem startThread_started {env : Surroundings} {c : Config.ServerConfig} {filter : Xlating ℂ}
    {created : List Object} {optimization : Config.CpuOptimization}
    {worker : DspWorker (Xlating ℂ) ℂ} {actions : List Action}
    (h : startThread env c filter created = (.started optimization worker, actions)) :
    worker.filter = filter := by
  unfold startThread at h
  split at h
  · cases h
  · split at h
    · cases h
    · split at h
      · cases h
      · cases h
        rfl

theorem openOutput_started {env : Surroundings} {client : ClientConfig} {c : Config.ServerConfig}
    {filter : Xlating ℂ} {optimization : Config.CpuOptimization}
    {worker : DspWorker (Xlating ℂ) ℂ} {actions : List Action}
    (h : openOutput env client c filter = (.started optimization worker, actions)) :
    worker.filter = filter := by
  unfold openOutput at h
  split at h
  · split at h
    · exact startThread_started h
    · cases h
  · split at h
    · exact startThread_started h
    · cases h

-- the taps and the filter behind a worker that a request brings to life
theorem started_filter {fd : Nat} {c : Config.ServerConfig} {received : Received}
    {client : ClientConfig} (hserve : examine fd (served c) received = .serve client)
    {env : Surroundings} {id : UInt32} {optimization : Config.CpuOptimization}
    {worker : DspWorker (Xlating ℂ) ℂ} {actions : List Action}
    (hstart : dspWorkerStart env { client with id } c =
      .ok (.started optimization worker, actions)) :
    ∃ taps, Lpf.createLowPassFilter env.lowPassMemory 1 c.bandSamplingRate
        (client.samplingRate / 2) (client.samplingRate / c.lpfCutoffRate.toUInt32) =
          some (.ok taps) ∧
      LongEnough c.bandSamplingRate client.samplingRate taps ∧
      Xlating.createFrequencyXlatingFilter env.heap
        (c.bandSamplingRate / client.samplingRate).toNat taps
        (Int32.ofInt ((client.centerFreq.toNat : Int) - client.bandFreq.toNat)).toInt
        c.bandSamplingRate.toNat c.bufferSize.toNat = some worker.filter := by
  obtain ⟨request, hread, hvalid⟩ := examine_request hserve
  have hsampling := validateClientConfig_samplingRate hvalid
  have hfactor := readClientConfig_divides hread (UInt32.pos_iff_ne_zero.mpr hsampling)
  unfold dspWorkerStart at hstart
  split at hstart
  · cases hstart
  · obtain ⟨transitionWidth, hwidth, hstart⟩ := Config.bind_ok hstart
    obtain ⟨lowPass, hlow, hstart⟩ := Config.bind_ok hstart
    cases lowPass with
    | error failure => cases hstart
    | ok taps =>
      obtain ⟨decimation, hdecimation, hstart⟩ := Config.bind_ok hstart
      obtain ⟨created, hcreated, hopen⟩ := Config.bind_ok hstart
      rcases createFilter_cases hcreated with ⟨code, rfl, -⟩ | ⟨filter, rfl, hcreate⟩
      · cases hopen
      · obtain rfl := divide_eq hwidth
        obtain rfl := divide_eq hdecimation
        have hlow := converted_eq hlow
        refine ⟨taps, hlow, longEnough_of_low_pass hfactor hlow, ?_⟩
        rw [openOutput_started (Except.ok.inj hopen)]
        exact hcreate

-- every worker that a request brings to life has a filter that never leaves its buffers
theorem started_filter_inside {fd : Nat} {c : Config.ServerConfig} {received : Received}
    {client : ClientConfig} (hserve : examine fd (served c) received = .serve client)
    {env : Surroundings} {id : UInt32} {optimization : Config.CpuOptimization}
    {worker : DspWorker (Xlating ℂ) ℂ} {actions : List Action}
    (hstart : dspWorkerStart env { client with id } c =
      .ok (.started optimization worker, actions)) :
    worker.filter.tapsLen % 2 = 1 ∧ Xlating.Ready c.bufferSize.toNat worker.filter := by
  obtain ⟨taps, -, hlong, hcreate⟩ := started_filter hserve hstart
  have htaps := (Xlating.created worker.filter.phaseIncr hcreate).tapsLen
  exact ⟨htaps ▸ hlong.odd, Xlating.ready_created hcreate hlong.decimation⟩

-- every allocation succeeds
theorem started_of {c : Config.ServerConfig} {client : ClientConfig} {taps : List ℝ}
    (hsampling : client.samplingRate ≠ 0) (hcutoff : c.lpfCutoffRate.toUInt32 ≠ 0)
    (htaps : Lpf.createLowPassFilter (true, true) 1 c.bandSamplingRate (client.samplingRate / 2)
      (client.samplingRate / c.lpfCutoffRate.toUInt32) = some (.ok taps))
    (hlong : LongEnough c.bandSamplingRate client.samplingRate taps) :
    ∃ worker actions, dspWorkerStart wellSupplied client c =
      .ok (.started c.optimization worker, actions) := by
  obtain ⟨f, hf, -⟩ := Xlating.createFrequencyXlatingFilter_spec (0, 1)
    (Int32.ofInt ((client.centerFreq.toNat : Int) - client.bandFreq.toNat)).toInt
    c.bandSamplingRate.toNat c.bufferSize.toNat (UInt32.le_iff_toNat_le.mp hlong.positive)
    hlong.decimation
  have hne : taps.length ≠ 0 := by
    have hthree := hlong.three
    omega
  have hdivisor : c.bandSamplingRate / client.samplingRate ≠ 0 := by
    intro hzero
    have hpositive := hlong.positive
    rw [hzero] at hpositive
    exact absurd hpositive (by decide)
  have houtputs := divide_ok (a := c.bufferSize / 2) hdivisor
  have hcreated : createFilter wellSupplied (c.bandSamplingRate / client.samplingRate) taps
      (Int32.ofInt ((client.centerFreq.toNat : Int) - client.bandFreq.toNat)).toInt
      c.bandSamplingRate c.bufferSize = .ok (.ok f) := by
    have hheap : wellSupplied.heap = (0, 1) := rfl
    have houtput : ¬ wellSupplied.outputMemory = false := by decide
    rw [createFilter, if_neg hne, if_neg (by decide), if_neg (by decide), if_neg (by decide),
      if_neg (by decide), houtputs, hheap]
    simp only [bind, Except.bind, if_neg houtput, hf]
  have hopened : ∃ worker actions, openOutput wellSupplied client c f =
      (.started c.optimization worker, actions) := by
    unfold openOutput
    split <;> exact ⟨_, _, rfl⟩
  obtain ⟨worker, actions, hopen⟩ := hopened
  refine ⟨worker, actions, ?_⟩
  have hmemory : wellSupplied.lowPassMemory = (true, true) := rfl
  rw [dspWorkerStart, if_neg (by decide), divide_ok hcutoff, hmemory]
  simp only [bind, Except.bind, htaps, Option.elim_some, divide_ok hsampling, hcreated, hopen]

theorem started_five {c : Config.ServerConfig} {client : ClientConfig}
    (hband : c.bandSamplingRate = 2400000) (hcutoff : c.lpfCutoffRate = 5)
    (hsampling : client.samplingRate = 48000) :
    ∃ worker actions, dspWorkerStart wellSupplied client c =
      .ok (.started c.optimization worker, actions) := by
  have hcheck : Lpf.sanityCheck1f 2400000 (48000 / 2) (48000 / (5 : Int32).toUInt32) = .ok () := by
    decide
  have hntaps : Lpf.computeNtaps 2400000 (48000 / (5 : Int32).toUInt32) = some 603 := by decide
  have haccepted : ∃ taps, Lpf.createLowPassFilter (true, true) 1 2400000 (48000 / 2)
      (48000 / (5 : Int32).toUInt32) = some (.ok taps) := by
    simp only [Lpf.createLowPassFilter, hcheck, hntaps, Option.map_some]
    exact ⟨_, rfl⟩
  obtain ⟨taps, htaps⟩ := haccepted
  have hlong := longEnough_of_low_pass (by decide) htaps
  rw [← hband, ← hcutoff, ← hsampling] at htaps
  rw [← hband, ← hsampling] at hlong
  exact started_of (by rw [hsampling]; decide) (by rw [hcutoff]; decide) htaps hlong

end DspWorker
end SdrServer
