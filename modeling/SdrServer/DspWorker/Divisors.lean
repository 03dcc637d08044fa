import SdrServer.DspWorker.Starting
import SdrServer.Lpf.Gain

namespace SdrServer
namespace DspWorker

theorem divide_ok {a b : UInt32} (h : b ≠ 0) : divide a b = .ok (a / b) := if_neg h

theorem createLowPassFilter_samplingFreq {memory : Bool × Bool} {gain : ℝ}
    {samplingFreq cutoffFreq transitionWidth : UInt32} {taps : List ℝ}
    (h : Lpf.createLowPassFilter memory gain samplingFreq cutoffFreq transitionWidth =
      some (.ok taps)) : samplingFreq ≠ 0 :=
  UInt32.pos_iff_ne_zero.mp (Lpf.sanityCheck1f_ok (Lpf.createLowPassFilter_ok h).1).1

theorem decimation_ne_zero {bandSamplingRate samplingRate : UInt32} (hband : bandSamplingRate ≠ 0)
    (hfactor : bandSamplingRate % samplingRate = 0) : bandSamplingRate / samplingRate ≠ 0 := by
  intro hzero
  have hquotient := congrArg UInt32.toNat hzero
  have hrest := congrArg UInt32.toNat hfactor
  simp only [UInt32.toNat_div, UInt32.toNat_mod, UInt32.toNat_zero] at hquotient hrest
  have hsum := Nat.div_add_mod bandSamplingRate.toNat samplingRate.toNat
  rw [hquotient, hrest, Nat.mul_zero] at hsum
  exact hband (UInt32.toNat_inj.mp hsum.symm)

theorem createFilter_divides (env : Surroundings) {decimation : UInt32} (h : decimation ≠ 0)
    (taps : List ℝ) (centerFreq : Int) (samplingFreq maxInputBufferLength : UInt32) :
    createFilter env decimation taps centerFreq samplingFreq maxInputBufferLength ≠
      .error .divisionByZero := by
  have hdecimation : decimation.toNat ≠ 0 := fun hzero => h (UInt32.toNat_inj.mp hzero)
  unfold createFilter
  split
  · simp
  · rename_i htaps
    split
    · simp
    · split
      · simp
      · split
        · simp
        · split
          · simp
          · rw [divide_ok h]
            simp only [bind, Except.bind]
            split
            · simp
            · simp [Xlating.createFrequencyXlatingFilter, htaps, hdecimation]

theorem dspWorkerStart_divides {env : Surroundings} {client : ClientConfig}
    {c : Config.ServerConfig} (hcutoff : c.lpfCutoffRate ≠ 0) (hsampling : client.samplingRate ≠ 0)
    (hfactor : c.bandSamplingRate % client.samplingRate = 0) :
    dspWorkerStart env client c ≠ .error .divisionByZero := by
  have hrate : c.lpfCutoffRate.toUInt32 ≠ 0 := fun hzero =>
    hcutoff (congrArg UInt32.toInt32 hzero)
  unfold dspWorkerStart
  split
  · simp
  · rw [divide_ok hrate]
    simp only [bind, Except.bind]
    cases hlow : Lpf.createLowPassFilter env.lowPassMemory 1 c.bandSamplingRate
        (client.samplingRate / 2) (client.samplingRate / c.lpfCutoffRate.toUInt32) with
    | none => simp
    | some lowPass =>
      cases lowPass with
      | error failure => simp
      | ok taps =>
        have hdecimation := decimation_ne_zero (createLowPassFilter_samplingFreq hlow) hfactor
        simp only [Option.elim_some, divide_ok hsampling]
        have hfilter := createFilter_divides env hdecimation taps
        generalize (Int32.ofInt ((client.centerFreq.toNat : Int) - client.bandFreq.toNat)).toInt =
          centerFreq
        cases hcreate : createFilter env (c.bandSamplingRate / client.samplingRate) taps centerFreq
            c.bandSamplingRate c.bufferSize with
        | error halt =>
          simp only [ne_eq, Except.error.injEq]
          rintro rfl
          exact hfilter _ _ _ hcreate
        | ok filter => cases filter <;> simp

theorem dspWorkerStart_zero (env : Surroundings) {client : ClientConfig} {c : Config.ServerConfig}
    (hmemory : env.workerMemory = true) (hcutoff : c.lpfCutoffRate = 0) :
    dspWorkerStart env client c = .error .divisionByZero := by
  rw [dspWorkerStart, hmemory, hcutoff]
  rfl

def wellSupplied : Surroundings where
  workerMemory := true
  lowPassMemory := (true, true)
  filterMemory := true
  tapsMemory := true
  alignedMemory := true
  workingMemory := true
  outputMemory := true
  heap := (0, 1)
  gzopen := fun _ => true
  fopen := fun _ => true
  queueMemory := true
  threadMemory := true
  pthreadCreate := true

theorem no_division_by_zero {fd : Nat} {c : Config.ServerConfig} {received : Received}
    {client : ClientConfig} (hserve : examine fd (served c) received = .serve client) :
    (∀ env id, dspWorkerStart env { client with id } c ≠ .error .divisionByZero) ↔
      c.lpfCutoffRate ≠ 0 := by
  obtain ⟨request, hread, hvalid⟩ := examine_request hserve
  have hsampling := validateClientConfig_samplingRate hvalid
  have hfactor := readClientConfig_divides hread (UInt32.pos_iff_ne_zero.mpr hsampling)
  constructor
  · intro h hzero
    exact h wellSupplied 0 (dspWorkerStart_zero wellSupplied rfl hzero)
  · intro hcutoff env id
    exact dspWorkerStart_divides hcutoff hsampling hfactor

def cutoffOf (lpfCutoffRate : Int32) : Config.Libconfig := fun name =>
  if name = "lpf_cutoff_rate" then some ⟨lpfCutoffRate, 0, false, none⟩
  else if name = "band_sampling_rate" then some ⟨2400000, 0, false, none⟩
  else none

def narrowRequest : Received := .message 0 0 (some ⟨438000000, 48000, 438000000, 0⟩)

theorem no_division_by_zero_five : ∃ c client,
    Config.createServerConfig none (.ok (cutoffOf 5)) = .ok c ∧
      examine 7 (served c) narrowRequest = .serve client ∧
      ∀ env id, dspWorkerStart env { client with id } c ≠ .error .divisionByZero := by
  have haccepted : Config.createServerConfig none (.ok (cutoffOf 5)) = .ok _ := rfl
  have hserve : examine 7 ⟨2400000, 64⟩ narrowRequest =
      .serve ⟨438000000, 48000, 438000000, 0, 7, 0⟩ := by decide
  exact ⟨_, _, haccepted, hserve, (no_division_by_zero hserve).mpr (by decide)⟩

theorem cutoff_rate_zero_divides : ∃ c client,
    Config.createServerConfig none (.ok (cutoffOf 0)) = .ok c ∧
      examine 7 (served c) narrowRequest = .serve client ∧
      ∀ id, dspWorkerStart wellSupplied { client with id } c = .error .divisionByZero := by
  have haccepted : Config.createServerConfig none (.ok (cutoffOf 0)) = .ok _ := rfl
  have hserve : examine 7 ⟨2400000, 64⟩ narrowRequest =
      .serve ⟨438000000, 48000, 438000000, 0, 7, 0⟩ := by decide
  exact ⟨_, _, haccepted, hserve, fun id => dspWorkerStart_zero wellSupplied rfl rfl⟩

end DspWorker
end SdrServer
