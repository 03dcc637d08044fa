import SdrServer.Xlating.Float
import Mathlib.Tactic.Ring
import Mathlib.Algebra.BigOperators.Fin
import Mathlib.Data.Fin.VecNotation

namespace SdrServer
namespace Xlating

-- the three bodies that the preprocessor chooses from
inductive Simd where
  | off
  | neon
  | avx
  deriving DecidableEq, Repr

def loadLanes (buffer : List ℂ) (i : Nat) : Option (Fin 4 → ℂ) := do
  let a ← buffer[i]?
  let b ← buffer[i + 1]?
  let c ← buffer[i + 2]?
  let d ← buffer[i + 3]?
  some ![a, b, c, d]

noncomputable section

def neonMultiply (acc : (Fin 4 → ℝ) × (Fin 4 → ℝ)) (a b : Fin 4 → ℂ) :
    (Fin 4 → ℝ) × (Fin 4 → ℝ) :=
  (fun l => acc.1 l + (a l).re * (b l).re - (a l).im * (b l).im,
    fun l => acc.2 l + (a l).im * (b l).re + (a l).re * (b l).im)

def neonBlocks (buffer : List ℂ) (start : Nat) (taps : List ℂ) :
    Nat → Option ((Fin 4 → ℝ) × (Fin 4 → ℝ))
  | 0 => some (fun _ => 0, fun _ => 0)
  | n + 1 => do
    let acc ← neonBlocks buffer start taps n
    let vec1 ← loadLanes buffer (start + 8 * n)
    let vec2 ← loadLanes taps (8 * n)
    let vec3 ← loadLanes buffer (start + 8 * n + 4)
    let vec4 ← loadLanes taps (8 * n + 4)
    some (neonMultiply (neonMultiply acc vec1 vec2) vec3 vec4)

def dotTail (buffer : List ℂ) (start : Nat) (taps : List ℂ) (first : Nat) (sum : ℝ × ℝ) :
    Nat → Option (ℝ × ℝ)
  | 0 => some sum
  | i + 1 => do
    let (realSum, imagSum) ← dotTail buffer start taps first sum i
    let a ← buffer[start + first + i]?
    let c ← taps[first + i]?
    some (realSum + a.re * c.re - a.im * c.im, imagSum + a.re * c.im + a.im * c.re)

def pairwiseSum (acc : Fin 4 → ℝ) : ℝ := acc 0 + acc 1 + (acc 2 + acc 3)

def dotNeon (buffer : List ℂ) (start : Nat) (taps : List ℂ) (numSamples : Nat) : Option ℂ := do
  let (accR, accI) ← neonBlocks buffer start taps (numSamples / 8)
  let (realSum, imagSum) ← dotTail buffer start taps (8 * (numSamples / 8))
    (0 + pairwiseSum accR, 0 + pairwiseSum accI) (numSamples % 8)
  some (realSum + Complex.I * imagSum)

def floats (a : Fin 4 → ℂ) : Fin 8 → ℝ :=
  ![(a 0).re, (a 0).im, (a 1).re, (a 1).im, (a 2).re, (a 2).im, (a 3).re, (a 3).im]

def moveldup (y : Fin 8 → ℝ) : Fin 8 → ℝ := ![y 0, y 0, y 2, y 2, y 4, y 4, y 6, y 6]

def movehdup (y : Fin 8 → ℝ) : Fin 8 → ℝ := ![y 1, y 1, y 3, y 3, y 5, y 5, y 7, y 7]

def shuffleB1 (x : Fin 8 → ℝ) : Fin 8 → ℝ := ![x 1, x 0, x 3, x 2, x 5, x 4, x 7, x 6]

def addsub (a b : Fin 8 → ℝ) : Fin 8 → ℝ :=
  ![a 0 - b 0, a 1 + b 1, a 2 - b 2, a 3 + b 3, a 4 - b 4, a 5 + b 5, a 6 - b 6, a 7 + b 7]

def avxMultiply (x y : Fin 8 → ℝ) : Fin 8 → ℝ :=
  addsub (fun i => x i * moveldup y i) (fun i => shuffleB1 x i * movehdup y i)

-- _mm256_load_ps faults on an address that is not a multiple of 32; the tap tables come from
-- aligned_alloc, so only the working buffer's address is looked at
def avxBlocks (addr : Nat) (buffer : List ℂ) (start : Nat) (taps : List ℂ) :
    Nat → Option (Fin 8 → ℝ)
  | 0 => some fun _ => 0
  | n + 1 => do
    let res ← avxBlocks addr buffer start taps n
    let x ← (if (addr + 8 * (start + 4 * n)) % 32 = 0 then loadLanes buffer (start + 4 * n) else none)
    let y ← loadLanes taps (4 * n)
    some fun i => res i + avxMultiply (floats x) (floats y) i

def dotAvx (addr : Nat) (buffer : List ℂ) (start : Nat) (taps : List ℂ) (numSamples : Nat) :
    Option ℂ := do
  let res ← avxBlocks addr buffer start taps (numSamples / 4)
  let (realSum, imagSum) ← dotTail buffer start taps (4 * (numSamples / 4)) (0, 0) (numSamples % 4)
  some (realSum + Complex.I * imagSum + (res 0 + Complex.I * res 1) + (res 2 + Complex.I * res 3) +
    (res 4 + Complex.I * res 5) + (res 6 + Complex.I * res 7))

-- numSamples is a uint32_t, the bound of the scalar loop a size_t
def dotOptimized : Simd → Nat → List ℂ → Nat → List ℂ → Nat → Option ℂ
  | .off, _, buffer, start, taps, n => dotCf32 buffer start taps n
  | .neon, _, buffer, start, taps, n => dotNeon buffer start taps (n % 2 ^ 32)
  | .avx, addr, buffer, start, taps, n => dotAvx addr buffer start taps (n % 2 ^ 32)

def tapOptimizedCf32 (simd : Simd) (f : Xlating ℂ) (buffer : List ℂ) (current : Nat) (phase : ℂ) :
    Option (ℂ × ℂ) := do
  let (start, alignIndex) ← alignedWindow f.workingBufferCf32Addr 8 f.alignmentCf32 current
  let taps ← f.tapsCf32[alignIndex]?
  let temp ← dotOptimized simd f.workingBufferCf32Addr buffer start taps (f.tapsLen + alignIndex)
  some (temp * phase, phase * f.phaseIncr)

-- the AVX body alone does not divide the phase by its modulus after the loop
def finishOptimized : Simd → ℂ → ℂ
  | .off => hypotNormalise
  | .neon => hypotNormalise
  | .avx => id

def blockOptimizedCf32 (simd : Simd) (f : Xlating ℂ) : Block ℂ ℂ ℂ where
  tapsLen := f.tapsLen
  decimation := f.decimation
  width := 1
  outputLen := f.outputLenSampls
  body := f.tapOptimizedCf32 simd
  finish := finishOptimized simd

def processOptimizedCf32 (simd : Simd) (inputLenSamples : Nat) (f : Xlating ℂ) :
    Option (List ℂ × Xlating ℂ) :=
  match simd with
  | .off => processNativeCf32 hypotNormalise inputLenSamples f
  | simd =>
    ((f.blockOptimizedCf32 simd).process f.workingBufferCf32 f.historyOffset inputLenSamples
      f.phase).map
      fun (output, phase, buffer, historyOffset) =>
        (output, { f with phase, workingBufferCf32 := buffer, historyOffset })

def feedOptimizedCf32 {α : Type} (simd : Simd) (convert : α → α → ℂ) (input : List α)
    (f : Xlating ℂ) : Option (List ℂ × Xlating ℂ) :=
  (storeCf32 convert input f).bind (processOptimizedCf32 simd (input.length / 2))

def processOptimizedCu8Cf32 (simd : Simd) :
    List UInt8 → Xlating ℂ → Option (List ℂ × Xlating ℂ) :=
  feedOptimizedCf32 simd cu8ToCf32

def processOptimizedCs8Cf32 (simd : Simd) :
    List Int8 → Xlating ℂ → Option (List ℂ × Xlating ℂ) :=
  feedOptimizedCf32 simd cs8ToCf32

def processOptimizedCs16Cf32 (simd : Simd) :
    List Int16 → Xlating ℂ → Option (List ℂ × Xlating ℂ) :=
  feedOptimizedCf32 simd cs16ToCf32

end

variable {buffer taps : List ℂ} {start n : Nat}

structure Reads (buffer taps : List ℂ) (start n : Nat) : Prop where
  buffer : start + n ≤ buffer.length
  taps : n ≤ taps.length

def product (buffer taps : List ℂ) (start i : Nat) : ℂ :=
  buffer.getD (start + i) 0 * taps.getD i 0

theorem dotCf32_sum_of (h : Reads buffer taps start n) :
    dotCf32 buffer start taps n = some (∑ i ∈ Finset.range n, product buffer taps start i) :=
  dotCf32_sum buffer taps start n h.buffer h.taps

theorem dotCf32_none (hn : 0 < n) (h : ¬ Reads buffer taps start n) :
    dotCf32 buffer start taps n = none := by
  induction n with
  | zero => exact absurd hn (Nat.lt_irrefl 0)
  | succ n ih =>
    rw [dotCf32]
    by_cases hb : start + n < buffer.length
    · have ht : taps[n]? = none := by
        apply List.getElem?_eq_none
        apply Nat.le_of_not_lt
        intro ht
        exact h ⟨hb, ht⟩
      simp [ht]
    · have hb : buffer[start + n]? = none := List.getElem?_eq_none (Nat.le_of_not_lt hb)
      simp [hb]

def lanes (buffer : List ℂ) (i : Nat) : Fin 4 → ℂ := fun l => buffer.getD (i + l) 0

theorem loadLanes_some {i : Nat} (h : i + 4 ≤ buffer.length) :
    loadLanes buffer i = some (lanes buffer i) := by
  have h0 : i < buffer.length := by omega
  have h1 : i + 1 < buffer.length := by omega
  have h2 : i + 2 < buffer.length := by omega
  have h3 : i + 3 < buffer.length := by omega
  simp only [loadLanes, List.getElem?_eq_getElem h0, List.getElem?_eq_getElem h1,
    List.getElem?_eq_getElem h2, List.getElem?_eq_getElem h3, Option.bind_eq_bind, Option.bind_some]
  congr 1
  funext l
  fin_cases l <;> simp [lanes, h0, h1, h2, h3]

theorem loadLanes_none {i : Nat} (h : ¬ i + 4 ≤ buffer.length) : loadLanes buffer i = none := by
  have h3 : buffer[i + 3]? = none := List.getElem?_eq_none (by omega)
  simp [loadLanes, h3]

theorem Reads.shorter {m : Nat} (h : Reads buffer taps start n) (hm : m ≤ n) :
    Reads buffer taps start m :=
  ⟨Nat.le_trans (Nat.add_le_add_left hm start) h.buffer, Nat.le_trans hm h.taps⟩

theorem neonBlocks_sum (h : Reads buffer taps start (8 * n)) :
    ∃ acc, neonBlocks buffer start taps n = some acc ∧
      (⟨pairwiseSum acc.1, pairwiseSum acc.2⟩ : ℂ) =
        ∑ i ∈ Finset.range (8 * n), product buffer taps start i := by
  induction n with
  | zero => exact ⟨_, rfl, by simp [pairwiseSum]; rfl⟩
  | succ n ih =>
    obtain ⟨acc, hacc, hsum⟩ := ih (h.shorter (by omega))
    have hb := h.buffer
    have ht := h.taps
    have hstep : neonBlocks buffer start taps (n + 1) =
        some (neonMultiply (neonMultiply acc (lanes buffer (start + 8 * n)) (lanes taps (8 * n)))
          (lanes buffer (start + 8 * n + 4)) (lanes taps (8 * n + 4))) := by
      rw [neonBlocks, hacc, loadLanes_some (by omega), loadLanes_some (by omega),
        loadLanes_some (by omega), loadLanes_some (by omega)]
      rfl
    refine ⟨_, hstep, ?_⟩
    rw [Nat.mul_succ, Finset.sum_range_add, ← hsum]
    apply Complex.ext
    · simp [neonMultiply, pairwiseSum, lanes, product, Finset.sum_range_succ, Nat.add_assoc]
      ring
    · simp [neonMultiply, pairwiseSum, lanes, product, Finset.sum_range_succ, Nat.add_assoc]
      ring

theorem neonBlocks_none (hn : 0 < n) (h : ¬ Reads buffer taps start (8 * n)) :
    neonBlocks buffer start taps n = none := by
  obtain ⟨n, rfl⟩ := Nat.exists_eq_succ_of_ne_zero (Nat.pos_iff_ne_zero.mp hn)
  rw [neonBlocks]
  by_cases hb : start + 8 * n + 4 + 4 ≤ buffer.length
  · have ht : loadLanes taps (8 * n + 4) = none := by
      apply loadLanes_none
      intro ht
      exact h ⟨by omega, by omega⟩
    simp [ht]
  · simp [loadLanes_none hb]

theorem dotTail_sum {first : Nat} (sum : ℝ × ℝ) (h : Reads buffer taps start (first + n)) :
    ∃ total, dotTail buffer start taps first sum n = some total ∧
      (⟨total.1, total.2⟩ : ℂ) =
        ⟨sum.1, sum.2⟩ + ∑ i ∈ Finset.range n, product buffer taps start (first + i) := by
  induction n with
  | zero => exact ⟨sum, rfl, by simp⟩
  | succ n ih =>
    obtain ⟨total, htotal, hsum⟩ := ih (h.shorter (by omega))
    have hb := h.buffer
    have ht := h.taps
    have hb : start + first + n < buffer.length := by omega
    have ht : first + n < taps.length := by omega
    have hstep : dotTail buffer start taps first sum (n + 1) =
        some (total.1 + (buffer.getD (start + first + n) 0).re * (taps.getD (first + n) 0).re -
            (buffer.getD (start + first + n) 0).im * (taps.getD (first + n) 0).im,
          total.2 + (buffer.getD (start + first + n) 0).re * (taps.getD (first + n) 0).im +
            (buffer.getD (start + first + n) 0).im * (taps.getD (first + n) 0).re) := by
      simp [dotTail, htotal, hb, ht]
    refine ⟨_, hstep, ?_⟩
    rw [Finset.sum_range_succ, ← add_assoc, ← hsum, product, ← Nat.add_assoc]
    apply Complex.ext
    · simp only [Complex.add_re, Complex.mul_re]
      ring
    · simp only [Complex.add_im, Complex.mul_im]
      ring

theorem dotTail_none {first : Nat} (sum : ℝ × ℝ) (hn : 0 < n)
    (h : ¬ Reads buffer taps start (first + n)) :
    dotTail buffer start taps first sum n = none := by
  obtain ⟨n, rfl⟩ := Nat.exists_eq_succ_of_ne_zero (Nat.pos_iff_ne_zero.mp hn)
  rw [dotTail]
  by_cases hb : start + first + n < buffer.length
  · have ht : taps[first + n]? = none := by
      apply List.getElem?_eq_none
      apply Nat.le_of_not_lt
      intro ht
      exact h ⟨by omega, by omega⟩
    simp [ht]
  · have hb : buffer[start + first + n]? = none := List.getElem?_eq_none (Nat.le_of_not_lt hb)
    simp [hb]

theorem unfold_complex (re im : ℝ) : (re : ℂ) + Complex.I * (im : ℂ) = ⟨re, im⟩ := by
  rw [mul_comm]
  exact (Complex.mk_eq_add_mul_I re im).symm

theorem dotNeon_eq (buffer taps : List ℂ) (start n : Nat) :
    dotNeon buffer start taps n = dotCf32 buffer start taps n := by
  have hsplit : 8 * (n / 8) + n % 8 = n := Nat.div_add_mod n 8
  by_cases hr : Reads buffer taps start n
  · obtain ⟨acc, hacc, hblocks⟩ := neonBlocks_sum (n := n / 8) (hr.shorter (by omega))
    obtain ⟨total, htotal, htail⟩ :=
      dotTail_sum (n := n % 8) (0 + pairwiseSum acc.1, 0 + pairwiseSum acc.2) (hsplit.symm ▸ hr)
    rw [dotCf32_sum_of hr, dotNeon, hacc]
    simp only [Option.bind_eq_bind, Option.bind_some, htotal]
    rw [unfold_complex, htail, zero_add, zero_add, hblocks, ← Finset.sum_range_add, hsplit]
  · rcases Nat.eq_zero_or_pos n with rfl | hn
    · simp [dotNeon, neonBlocks, dotTail, dotCf32, pairwiseSum]
    · rw [dotCf32_none hn hr, dotNeon]
      cases hacc : neonBlocks buffer start taps (n / 8) with
      | none => rfl
      | some acc =>
        have hrest : 0 < n % 8 := by
          apply Nat.pos_of_ne_zero
          intro hzero
          have hwhole : 8 * (n / 8) = n := by omega
          have hblocks := neonBlocks_none (n := n / 8) (by omega) (hwhole.symm ▸ hr)
          rw [hblocks] at hacc
          cases hacc
        simp [dotTail_none _ hrest (hsplit.symm ▸ hr)]

theorem avxBlocks_sum {addr : Nat} (haddr : (addr + 8 * start) % 32 = 0)
    (h : Reads buffer taps start (4 * n)) :
    ∃ res, avxBlocks addr buffer start taps n = some res ∧
      (⟨res 0, res 1⟩ + ⟨res 2, res 3⟩ + ⟨res 4, res 5⟩ + ⟨res 6, res 7⟩ : ℂ) =
        ∑ i ∈ Finset.range (4 * n), product buffer taps start i := by
  induction n with
  | zero =>
    refine ⟨_, rfl, ?_⟩
    apply Complex.ext <;> simp
  | succ n ih =>
    obtain ⟨res, hres, hsum⟩ := ih (h.shorter (by omega))
    have hb := h.buffer
    have ht := h.taps
    have hload : (addr + 8 * (start + 4 * n)) % 32 = 0 := by omega
    have hstep : avxBlocks addr buffer start taps (n + 1) =
        some fun i => res i + avxMultiply (floats (lanes buffer (start + 4 * n)))
          (floats (lanes taps (4 * n))) i := by
      rw [avxBlocks, hres, if_pos hload, loadLanes_some (by omega), loadLanes_some (by omega)]
      rfl
    refine ⟨_, hstep, ?_⟩
    rw [Nat.mul_succ, Finset.sum_range_add, ← hsum]
    apply Complex.ext
    · simp [avxMultiply, addsub, moveldup, movehdup, shuffleB1, floats, lanes, product,
        Finset.sum_range_succ, Nat.add_assoc]
      ring
    · simp [avxMultiply, addsub, moveldup, movehdup, shuffleB1, floats, lanes, product,
        Finset.sum_range_succ, Nat.add_assoc]
      ring

theorem avxBlocks_none (addr : Nat) (hn : 0 < n) (h : ¬ Reads buffer taps start (4 * n)) :
    avxBlocks addr buffer start taps n = none := by
  obtain ⟨n, rfl⟩ := Nat.exists_eq_succ_of_ne_zero (Nat.pos_iff_ne_zero.mp hn)
  rw [avxBlocks]
  by_cases hb : start + 4 * n + 4 ≤ buffer.length
  · have ht : loadLanes taps (4 * n) = none := by
      apply loadLanes_none
      intro ht
      exact h ⟨by omega, by omega⟩
    simp [ht]
  · simp [loadLanes_none hb]

theorem dotAvx_eq {addr : Nat} (buffer taps : List ℂ) (start n : Nat)
    (haddr : (addr + 8 * start) % 32 = 0) :
    dotAvx addr buffer start taps n = dotCf32 buffer start taps n := by
  have hsplit : 4 * (n / 4) + n % 4 = n := Nat.div_add_mod n 4
  by_cases hr : Reads buffer taps start n
  · obtain ⟨res, hres, hblocks⟩ := avxBlocks_sum (n := n / 4) haddr (hr.shorter (by omega))
    obtain ⟨total, htotal, htail⟩ := dotTail_sum (n := n % 4) (0, 0) (hsplit.symm ▸ hr)
    have hzero : (⟨0, 0⟩ : ℂ) = 0 := rfl
    have hsum : ∑ i ∈ Finset.range n, product buffer taps start i =
        ∑ i ∈ Finset.range (4 * (n / 4)), product buffer taps start i +
          ∑ i ∈ Finset.range (n % 4), product buffer taps start (4 * (n / 4) + i) := by
      rw [← Finset.sum_range_add, hsplit]
    rw [dotCf32_sum_of hr, dotAvx, hres]
    simp only [Option.bind_eq_bind, Option.bind_some, htotal, unfold_complex]
    rw [htail, hzero, zero_add, hsum, ← hblocks]
    congr 1
    ring
  · rcases Nat.eq_zero_or_pos n with rfl | hn
    · simp [dotAvx, avxBlocks, dotTail, dotCf32]
    · rw [dotCf32_none hn hr, dotAvx]
      cases hres : avxBlocks addr buffer start taps (n / 4) with
      | none => rfl
      | some res =>
        have hrest : 0 < n % 4 := by
          apply Nat.pos_of_ne_zero
          intro hzero
          have hwhole : 4 * (n / 4) = n := by omega
          have hblocks := avxBlocks_none (n := n / 4) addr (by omega) (hwhole.symm ▸ hr)
          rw [hblocks] at hres
          cases hres
        simp [dotTail_none _ hrest (hsplit.symm ▸ hr)]

end Xlating
end SdrServer
