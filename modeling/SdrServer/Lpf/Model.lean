import Mathlib.Analysis.SpecialFunctions.Trigonometric.Basic

namespace SdrServer
namespace Lpf

-- the float nearest to an uint32_t: 24 significant bits, a tie to the even one
def toFloat (x : UInt32) : Nat :=
  let ulp := 2 ^ (Nat.log2 x.toNat - 23)
  let quotient := x.toNat / ulp
  let rest := x.toNat % ulp
  if 2 * rest < ulp ∨ (2 * rest = ulp ∧ quotient % 2 = 0) then quotient * ulp
  else (quotient + 1) * ulp

inductive Failure where
  | message (text : String)
  | noMemory
  deriving DecidableEq, Repr

def sanityCheck1f (samplingFreq cutoffFreq transitionWidth : UInt32) : Except Failure Unit :=
  if samplingFreq ≤ 0 then .error (.message "sampling frequency should be positive")
  else if cutoffFreq ≤ 0 ∨ toFloat samplingFreq < 2 * toFloat cutoffFreq then
    .error (.message ("cutoff frequency should be positive and less than sampling freq / 2. got: " ++
      toString cutoffFreq))
  else if transitionWidth ≤ 0 then .error (.message "transition width should be positive")
  else .ok ()

theorem sanityCheck1f_ok {samplingFreq cutoffFreq transitionWidth : UInt32}
    (h : sanityCheck1f samplingFreq cutoffFreq transitionWidth = .ok ()) :
    0 < samplingFreq ∧ 0 < cutoffFreq ∧ 0 < transitionWidth := by
  unfold sanityCheck1f at h
  split at h
  · cases h
  · rename_i hsampling
    split at h
    · cases h
    · rename_i hcutoff
      split at h
      · cases h
      · rename_i hwidth
        exact ⟨UInt32.not_le.mp hsampling,
          UInt32.not_le.mp fun hzero => hcutoff (Or.inl hzero), UInt32.not_le.mp hwidth⟩

-- `none` is the conversion of a double that int does not hold
def computeNtaps (samplingFreq transitionWidth : UInt32) : Option Nat :=
  let ntaps := 53 * samplingFreq.toNat / (22 * transitionWidth.toNat)
  if ntaps < 2 ^ 31 then some (if ntaps % 2 = 0 then ntaps + 1 else ntaps) else none

noncomputable section

def hammingWindow (ntaps : Nat) : List ℝ :=
  (List.range ntaps).map fun n : ℕ =>
    ((54 : ℕ) : ℝ) / ((100 : ℕ) : ℝ) - ((46 : ℕ) : ℝ) / ((100 : ℕ) : ℝ) *
      Real.cos (((2 : ℕ) : ℝ) * Real.pi * (n : ℝ) / ((ntaps - 1 : ℕ) : ℝ))

def sincTap (fwT0 : ℝ) (n : Int) (w : ℝ) : ℝ :=
  if n = 0 then fwT0 / Real.pi * w
  else Real.sin (n * fwT0) / (n * Real.pi) * w

-- the loop from -M on, after `k` of its passes
def sincLoop (fwT0 : ℝ) (w : List ℝ) (M : Nat) : Nat → List ℝ → List ℝ
  | 0, taps => taps
  | k + 1, taps =>
    let n : Int := -M + k
    (sincLoop fwT0 w M k taps).set (n + M).toNat
      (sincTap fwT0 n (w.getD (n + M).toNat 0))

def normaliserLoop (taps : List ℝ) (M : Nat) : Nat → ℝ
  | 0 => taps.getD (0 + M) 0
  | n + 1 => normaliserLoop taps M n + ((2 : ℕ) : ℝ) * taps.getD (n + 1 + M) 0

def rawTaps (samplingFreq cutoffFreq : UInt32) (ntaps : Nat) : List ℝ :=
  let M := (ntaps - 1) / 2
  let fwT0 := ((2 : ℕ) : ℝ) * Real.pi * cutoffFreq.toNat / samplingFreq.toNat
  sincLoop fwT0 (hammingWindow ntaps) M (2 * M + 1) (List.replicate ntaps 0)

def fmax (samplingFreq cutoffFreq : UInt32) (ntaps : Nat) : ℝ :=
  normaliserLoop (rawTaps samplingFreq cutoffFreq ntaps) ((ntaps - 1) / 2) ((ntaps - 1) / 2)

-- `memory` is whether malloc finds room for the taps and for the window
def createLowPassFilter (memory : Bool × Bool) (gain : ℝ)
    (samplingFreq cutoffFreq transitionWidth : UInt32) : Option (Except Failure (List ℝ)) :=
  match sanityCheck1f samplingFreq cutoffFreq transitionWidth with
  | .error failure => some (.error failure)
  | .ok () =>
    (computeNtaps samplingFreq transitionWidth).map fun ntaps =>
      if memory.1 = false then .error .noMemory
      else if memory.2 = false then .error .noMemory
      else
        let gain := gain / fmax samplingFreq cutoffFreq ntaps
        .ok ((rawTaps samplingFreq cutoffFreq ntaps).map fun tap => tap * gain)

end

end Lpf
end SdrServer
