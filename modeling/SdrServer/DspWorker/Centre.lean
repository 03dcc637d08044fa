import SdrServer.DspWorker.Decimating
import SdrServer.Xlating.Tone

namespace SdrServer
namespace DspWorker

def frequencyOffset (client : ClientConfig) : Int :=
  (client.centerFreq.toNat : Int) - client.bandFreq.toNat

-- the frequency that the client asks for comes out at zero, as loud as it came in
theorem worker_centres {fd : Nat} {c : Config.ServerConfig} {received : Received}
    {client : ClientConfig} (hserve : examine fd (served c) received = .serve client)
    {env : Surroundings} {id : UInt32} {optimization : Config.CpuOptimization}
    {worker : DspWorker (Xlating ℂ) ℂ} {actions : List Action}
    (hstart : dspWorkerStart env { client with id } c =
      .ok (.started optimization worker, actions))
    (hoffset : -2 ^ 31 ≤ frequencyOffset client ∧ frequencyOffset client < 2 ^ 31)
    (hsum : ∀ ntaps ∈ Lpf.computeNtaps c.bandSamplingRate
        (client.samplingRate / c.lpfCutoffRate.toUInt32),
      Lpf.fmax c.bandSamplingRate (client.samplingRate / 2) ntaps ≠ 0)
    (format : Xlating.Format) {inputs : List (List format.Value)}
    (hinputs : ∀ input ∈ inputs, input.length % 2 = 0 ∧ input.length / 2 ≤ c.bufferSize.toNat / 2)
    {A : ℂ} {δ : ℝ}
    (htone : ∀ n x, (Xlating.samples format.toCf32 inputs.flatten)[n]? = some x →
      ‖x - A * Xlating.carrier (frequencyOffset client) c.bandSamplingRate.toNat ^ n‖ ≤ δ) :
    ∃ taps output g,
      Lpf.createLowPassFilter env.lowPassMemory 1 c.bandSamplingRate (client.samplingRate / 2)
        (client.samplingRate / c.lpfCutoffRate.toUInt32) = some (.ok taps) ∧
      Xlating.calls format.processCf32 inputs worker.filter = some (output, g) ∧
      output.length =
        (inputs.flatten.length / 2 + (c.bandSamplingRate / client.samplingRate).toNat - 1) /
          (c.bandSamplingRate / client.samplingRate).toNat ∧
      ∀ k < output.length,
        taps.length - 1 ≤ k * (c.bandSamplingRate / client.samplingRate).toNat →
        ∃ y, output[k]? = some y ∧ ‖y - A‖ ≤ δ * Xlating.gainBound taps := by
  obtain ⟨taps, hlow, hlong, hcreate⟩ := started_filter hserve hstart
  have hint : (Int32.ofInt ((client.centerFreq.toNat : Int) - client.bandFreq.toNat)).toInt =
      frequencyOffset client := Int32.toInt_ofInt_of_le hoffset.1 hoffset.2
  rw [hint] at hcreate
  have hpositive : 1 ≤ (c.bandSamplingRate / client.samplingRate).toNat :=
    UInt32.le_iff_toNat_le.mp hlong.positive
  have hntaps := (Lpf.createLowPassFilter_ok hlow).2
  have hgain := Lpf.createLowPassFilter_sum hlow hlong.three (hsum _ hntaps)
  obtain ⟨output, g, hcalls, hlength, houtput⟩ :=
    Xlating.calls_outputs hlong.odd hpositive hlong.decimation hcreate hinputs
  refine ⟨taps, output, g, hlow, hcalls, hlength, ?_⟩
  intro k hk hfull
  obtain ⟨hinside, hget⟩ := houtput k hk
  have hcarrier := Xlating.carrier_ne_zero (frequencyOffset client) c.bandSamplingRate.toNat
  have hunit := Xlating.norm_carrier (frequencyOffset client) c.bandSamplingRate.toNat
  have hclose := Xlating.mixFilterDecimate_full hcarrier hunit htone hinside hfull
  rw [div_self hcarrier, Xlating.response_one, hgain, Complex.ofReal_one, one_pow, mul_one,
    mul_one] at hclose
  exact ⟨_, hget, hclose⟩

theorem carrier_zero (samplingFreq : Nat) : Xlating.carrier 0 samplingFreq = 1 := by
  simp [Xlating.carrier]

-- one client that takes the whole band
def wholeBand : Config.Libconfig := fun name =>
  if name = "lpf_cutoff_rate" then some ⟨1, 0, false, none⟩
  else if name = "band_sampling_rate" then some ⟨48000, 0, false, none⟩
  else none

def constantTone : List (List Int8) := [[64, 0, 64, 0], [64, 0, 64, 0]]

theorem constantTone_near {n : Nat} {x : ℂ} (samplingFreq : Nat)
    (hx : (Xlating.samples (Xlating.Format.toCf32 .cs8) constantTone.flatten)[n]? = some x) :
    ‖x - 1 / 2 * Xlating.carrier 0 samplingFreq ^ n‖ ≤ 0 := by
  have htone : Xlating.samples (Xlating.Format.toCf32 .cs8) constantTone.flatten =
      List.replicate 4 (1 / 2 : ℂ) := by
    have hhalf : (64 : ℂ) / 128 = 2⁻¹ := by norm_num
    simp [constantTone, Xlating.samples, Xlating.Format.toCf32, Xlating.cs8ToCf32, hhalf,
      List.replicate_succ]
  rw [htone] at hx
  rw [List.eq_of_mem_replicate (List.mem_of_getElem? hx), carrier_zero, one_pow, mul_one, sub_self,
    norm_zero]

theorem constantTone_fits (input : List Int8) (hinput : input ∈ constantTone) :
    input.length % 2 = 0 ∧ input.length / 2 ≤ (262144 : UInt32).toNat / 2 := by
  simp only [constantTone, List.mem_cons, List.not_mem_nil, or_false] at hinput
  rcases hinput with rfl | rfl <;> decide

theorem worker_centres_constant : ∃ c client,
    Config.createServerConfig none (.ok wholeBand) = .ok c ∧
      examine 7 (served c) narrowRequest = .serve client ∧
      ∃ worker actions, dspWorkerStart wellSupplied { client with id := 0 } c =
          .ok (.started c.optimization worker, actions) ∧
        ∃ taps output g,
          Lpf.createLowPassFilter wellSupplied.lowPassMemory 1 c.bandSamplingRate
            (client.samplingRate / 2) (client.samplingRate / c.lpfCutoffRate.toUInt32) =
              some (.ok taps) ∧
          Xlating.calls (Xlating.Format.processCf32 .cs8) constantTone worker.filter =
            some (output, g) ∧
          output.length =
            (constantTone.flatten.length / 2 +
              (c.bandSamplingRate / client.samplingRate).toNat - 1) /
                (c.bandSamplingRate / client.samplingRate).toNat ∧
          ∀ k < output.length,
            taps.length - 1 ≤ k * (c.bandSamplingRate / client.samplingRate).toNat →
            ∃ y, output[k]? = some y ∧ ‖y - 1 / 2‖ ≤ 0 * Xlating.gainBound taps := by
  obtain ⟨c, haccepted, hband, hcutoff, hserved⟩ : ∃ c,
      Config.createServerConfig none (.ok wholeBand) = .ok c ∧
        c.bandSamplingRate = 48000 ∧ c.lpfCutoffRate = 1 ∧ served c = ⟨48000, 64⟩ :=
    ⟨_, rfl, rfl, rfl, rfl⟩
  have hlarge : c.bufferSize = 262144 := by
    obtain rfl := Except.ok.inj haccepted
    rfl
  have hserve : examine 7 (served c) narrowRequest =
      .serve ⟨438000000, 48000, 438000000, 0, 7, 0⟩ := by
    rw [hserved]
    decide
  have hntaps : Lpf.computeNtaps c.bandSamplingRate (48000 / c.lpfCutoffRate.toUInt32) =
      some 3 := by
    rw [hband, hcutoff]
    decide
  obtain ⟨taps, htaps⟩ : ∃ taps, Lpf.createLowPassFilter (true, true) 1 c.bandSamplingRate
      (48000 / 2) (48000 / c.lpfCutoffRate.toUInt32) = some (.ok taps) := by
    have hcheck : Lpf.sanityCheck1f c.bandSamplingRate (48000 / 2)
        (48000 / c.lpfCutoffRate.toUInt32) = .ok () := by
      rw [hband, hcutoff]
      decide
    simp only [Lpf.createLowPassFilter, hcheck, hntaps, Option.map_some]
    exact ⟨_, rfl⟩
  have hlong := longEnough_of_low_pass (by rw [hband]; decide) htaps
  have hstarted : ∃ worker actions, dspWorkerStart wellSupplied
      ⟨438000000, 48000, 438000000, 0, 7, 0⟩ c = .ok (.started c.optimization worker, actions) :=
    started_of (by decide) (by rw [hcutoff]; decide) htaps hlong
  obtain ⟨worker, actions, hstart⟩ := hstarted
  refine ⟨c, _, haccepted, hserve, worker, actions, hstart, ?_⟩
  refine worker_centres hserve hstart (by decide) ?_ .cs8 ?_ fun n x => constantTone_near _
  · intro ntaps hmem
    obtain rfl := Option.some.inj (hntaps.symm.trans hmem)
    have hhalf : Lpf.fmax 48000 (48000 / 2) 3 = 1 := Lpf.fmax_halfBand
    rw [hband, hhalf]
    exact one_ne_zero
  · rw [hlarge]
    exact constantTone_fits

end DspWorker
end SdrServer
