import SdrServer.Server.Request
import Mathlib.Algebra.Group.Nat.Defs
import Mathlib.Algebra.Ring.Int.Defs

namespace SdrServer

section Edges

variable (config : ClientConfig) (server : ServerConfig)

def requestedLow : Int := config.centerFreq.toNat - config.samplingRate.toNat / 2

def requestedHigh : Int := config.centerFreq.toNat + config.samplingRate.toNat / 2

def bandLow : Int := config.bandFreq.toNat - server.bandSamplingRate.toNat / 2

def bandHigh : Int := config.bandFreq.toNat + server.bandSamplingRate.toNat / 2

def InBand : Prop :=
  bandLow config server ≤ requestedLow config ∧ requestedHigh config ≤ bandHigh config server

instance : Decidable (InBand config server) := inferInstanceAs (Decidable (_ ∧ _))

-- the offset that dsp_worker_start hands to create_frequency_xlating_filter as an int32_t
def dspWorkerOffset : Int32 :=
  (config.centerFreq.toUInt64.toInt64 - config.bandFreq.toUInt64.toInt64).toInt32

-- a band that crosses 0 or 2^32 around a request that does not, a request below 0 that comes
-- out above the low edge of the band, and one above 2^32 that comes out below the high edge
inductive Misjudged : Prop
  | crossesBelow : InBand config server → bandLow config server < 0 → 0 ≤ requestedLow config →
      Misjudged
  | crossesAbove : InBand config server → requestedHigh config < 2 ^ 32 →
      2 ^ 32 ≤ bandHigh config server → Misjudged
  | below : requestedLow config < 0 → 0 ≤ bandLow config server →
      bandLow config server ≤ requestedLow config + 2 ^ 32 →
      requestedHigh config ≤ bandHigh config server % 2 ^ 32 → Misjudged
  | above : 2 ^ 32 ≤ requestedHigh config → bandHigh config server < 2 ^ 32 →
      requestedHigh config ≤ bandHigh config server + 2 ^ 32 →
      bandLow config server % 2 ^ 32 ≤ requestedLow config → Misjudged

end Edges

variable {config : ClientConfig} {server : ServerConfig}

theorem half_toNat (x : UInt32) : (x / 2).toNat = x.toNat / 2 := by
  rw [UInt32.toNat_div]
  rfl

theorem sub_half_toNat (x y : UInt32) :
    ((x - y / 2).toNat : Int) = (x.toNat - y.toNat / 2 : Int) % 2 ^ 32 := by
  have hx := x.toNat_lt
  have hy := y.toNat_lt
  rw [UInt32.toNat_sub, half_toNat]
  omega

theorem add_half_toNat (x y : UInt32) :
    ((x + y / 2).toNat : Int) = (x.toNat + y.toNat / 2 : Int) % 2 ^ 32 := by
  have hx := x.toNat_lt
  have hy := y.toNat_lt
  rw [UInt32.toNat_add, half_toNat]
  omega

-- the two comparisons of the code, over the edges modulo 2^32
theorem validateClientConfig_iff (hcenter : config.centerFreq ≠ 0)
    (hsampling : config.samplingRate ≠ 0) (hband : config.bandFreq ≠ 0)
    (hdestination : config.destination = requestDestinationFile ∨
      config.destination = requestDestinationSocket) :
    validateClientConfig config server = true ↔
      bandLow config server % 2 ^ 32 ≤ requestedLow config % 2 ^ 32 ∧
        requestedHigh config % 2 ^ 32 ≤ bandHigh config server % 2 ^ 32 := by
  have hknown : ¬ (config.destination ≠ requestDestinationFile ∧
      config.destination ≠ requestDestinationSocket) := by
    rintro ⟨hfile, hsocket⟩
    exact hdestination.elim hfile hsocket
  rw [validateClientConfig, if_neg hcenter, if_neg hsampling, if_neg hband, if_neg hknown]
  simp only [UInt32.lt_iff_toNat_lt]
  rw [bandLow, requestedLow, requestedHigh, bandHigh, ← sub_half_toNat, ← sub_half_toNat,
    ← add_half_toNat, ← add_half_toNat]
  split
  · rename_i hlow
    exact iff_of_false (by decide) (by omega)
  · rename_i hlow
    split
    · rename_i hhigh
      exact iff_of_false (by decide) (by omega)
    · rename_i hhigh
      exact iff_of_true rfl (by omega)

theorem misjudged_iff :
    Misjudged config server ↔
      ¬ ((bandLow config server % 2 ^ 32 ≤ requestedLow config % 2 ^ 32 ∧
          requestedHigh config % 2 ^ 32 ≤ bandHigh config server % 2 ^ 32) ↔
        InBand config server) := by
  have hcenter := config.centerFreq.toNat_lt
  have hsampling := config.samplingRate.toNat_lt
  have hband := config.bandFreq.toNat_lt
  have hrate := server.bandSamplingRate.toNat_lt
  constructor
  · rintro (⟨hin, hbelow, hrequest⟩ | ⟨hin, hrequest, habove⟩ | ⟨hrequest, hbelow, hlow, hhigh⟩ |
      ⟨hrequest, habove, hhigh, hlow⟩)
    all_goals
      simp only [InBand, bandLow, bandHigh, requestedLow, requestedHigh] at *
      omega
  · intro hdiff
    rcases Decidable.em (InBand config server) with hin | hout
    · have hwrong : ¬ (bandLow config server % 2 ^ 32 ≤ requestedLow config % 2 ^ 32 ∧
          requestedHigh config % 2 ^ 32 ≤ bandHigh config server % 2 ^ 32) :=
        fun haccepted => hdiff (iff_of_true haccepted hin)
      have hcross : bandLow config server < 0 ∧ 0 ≤ requestedLow config ∨
          requestedHigh config < 2 ^ 32 ∧ 2 ^ 32 ≤ bandHigh config server := by
        simp only [InBand, bandLow, bandHigh, requestedLow, requestedHigh] at *
        omega
      rcases hcross with ⟨hbelow, hrequest⟩ | ⟨hrequest, habove⟩
      · exact .crossesBelow hin hbelow hrequest
      · exact .crossesAbove hin hrequest habove
    · have haccepted : bandLow config server % 2 ^ 32 ≤ requestedLow config % 2 ^ 32 ∧
          requestedHigh config % 2 ^ 32 ≤ bandHigh config server % 2 ^ 32 :=
        Decidable.byContradiction fun hwrong => hdiff (iff_of_false hwrong hout)
      have hwraps : requestedLow config < 0 ∧ 0 ≤ bandLow config server ∧
            bandLow config server ≤ requestedLow config + 2 ^ 32 ∧
            requestedHigh config ≤ bandHigh config server % 2 ^ 32 ∨
          2 ^ 32 ≤ requestedHigh config ∧ bandHigh config server < 2 ^ 32 ∧
            requestedHigh config ≤ bandHigh config server + 2 ^ 32 ∧
            bandLow config server % 2 ^ 32 ≤ requestedLow config := by
        simp only [InBand, bandLow, bandHigh, requestedLow, requestedHigh] at *
        omega
      rcases hwraps with ⟨hrequest, hbelow, hlow, hhigh⟩ | ⟨hrequest, habove, hhigh, hlow⟩
      · exact .below hrequest hbelow hlow hhigh
      · exact .above hrequest habove hhigh hlow

theorem toInt64_toInt (x : UInt32) : x.toUInt64.toInt64.toInt = x.toNat := by
  have hx := x.toNat_lt
  have hbmod : ((x.toNat : Int)).bmod (2 ^ 64) = x.toNat :=
    Int.bmod_eq_of_le (by omega) (by omega)
  simpa [Int64.toInt, BitVec.toInt_eq_toNat_bmod] using hbmod

theorem dspWorkerOffset_toInt
    (h : ((config.centerFreq.toNat : Int) - config.bandFreq.toNat).natAbs < 2 ^ 31) :
    (dspWorkerOffset config).toInt = config.centerFreq.toNat - config.bandFreq.toNat := by
  have hwide : ((config.centerFreq.toNat : Int) - config.bandFreq.toNat).bmod (2 ^ 64) =
      config.centerFreq.toNat - config.bandFreq.toNat :=
    Int.bmod_eq_of_le (by omega) (by omega)
  rw [dspWorkerOffset, Int64.toInt_toInt32, Int64.toInt_sub, toInt64_toInt, toInt64_toInt, hwide]
  exact Int.bmod_eq_of_le (by omega) (by omega)

theorem inBand_offset (h : InBand config server) :
    ((config.centerFreq.toNat : Int) - config.bandFreq.toNat).natAbs ≤
      server.bandSamplingRate.toNat / 2 := by
  simp only [InBand, bandLow, bandHigh, requestedLow, requestedHigh] at h
  omega

theorem validation_exact (hcenter : config.centerFreq ≠ 0) (hsampling : config.samplingRate ≠ 0)
    (hband : config.bandFreq ≠ 0)
    (hdestination : config.destination = requestDestinationFile ∨
      config.destination = requestDestinationSocket) :
    ((validateClientConfig config server = true ↔ InBand config server) ∧
      (validateClientConfig config server = true →
        ((config.centerFreq.toNat : Int) - config.bandFreq.toNat).natAbs ≤
            server.bandSamplingRate.toNat / 2 ∧
          (dspWorkerOffset config).toInt = config.centerFreq.toNat - config.bandFreq.toNat)) ↔
      ¬ Misjudged config server := by
  have hiff : validateClientConfig config server = true ↔ _ :=
    validateClientConfig_iff hcenter hsampling hband hdestination
  constructor
  · rintro ⟨hexact, -⟩ hmisjudged
    exact misjudged_iff.mp hmisjudged (hiff.symm.trans hexact)
  · intro hjudged
    have hexact : validateClientConfig config server = true ↔ InBand config server :=
      hiff.trans (Classical.byContradiction fun hdiff => hjudged (misjudged_iff.mpr hdiff))
    refine ⟨hexact, ?_⟩
    intro haccepted
    have hoffset := inBand_offset (hexact.mp haccepted)
    have hrate := server.bandSamplingRate.toNat_lt
    exact ⟨hoffset, dspWorkerOffset_toInt (by omega)⟩

def requestAt (centerFreq bandFreq : UInt32) : ClientConfig :=
  ⟨centerFreq, 48000, bandFreq, requestDestinationSocket, 0, 0⟩

theorem validation_exact_midBand :
    ((validateClientConfig (requestAt 460700000 460600000) ⟨2400000, 64⟩ = true ↔
        InBand (requestAt 460700000 460600000) ⟨2400000, 64⟩) ∧
      (validateClientConfig (requestAt 460700000 460600000) ⟨2400000, 64⟩ = true →
        (((requestAt 460700000 460600000).centerFreq.toNat : Int) -
              (requestAt 460700000 460600000).bandFreq.toNat).natAbs ≤ 2400000 / 2 ∧
          (dspWorkerOffset (requestAt 460700000 460600000)).toInt = 100000)) := by
  refine (@validation_exact (requestAt 460700000 460600000) ⟨2400000, 64⟩ (by decide) (by decide)
    (by decide) (.inr rfl)).mpr ?_
  rintro (⟨-, hbelow, -⟩ | ⟨-, -, habove⟩ | ⟨hrequest, -⟩ | ⟨hrequest, -⟩)
  · exact absurd hbelow (by decide)
  · exact absurd habove (by decide)
  · exact absurd hrequest (by decide)
  · exact absurd hrequest (by decide)

-- the middle of a band that reaches below 0 is turned away, and a request below 0 gets into a
-- band that is 4 GHz away, at an offset that an int32_t does not hold
theorem validation_wraps :
    (InBand (requestAt 1000000 1000000) ⟨2400000, 64⟩ ∧
        validateClientConfig (requestAt 1000000 1000000) ⟨2400000, 64⟩ = false) ∧
      ¬ InBand (requestAt 10 4000000000) ⟨2400000, 64⟩ ∧
        validateClientConfig (requestAt 10 4000000000) ⟨2400000, 64⟩ = true ∧
        (dspWorkerOffset (requestAt 10 4000000000)).toInt ≠ 10 - 4000000000 := by
  decide

end SdrServer
