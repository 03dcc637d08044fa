import SdrServer.Foundation.Affine
import SdrServer.Xlating.Interleaved

namespace SdrServer
namespace Xlating

-- at least half of full scale
def Loud (phase : Int16 × Int16) : Prop :=
  2 ^ 28 ≤ phase.1.toInt ^ 2 + phase.2.toInt ^ 2

-- the fixed-point rotator as create_frequency_xlating_filter leaves it, for any unit `u`
structure Starting {K : Type} (f : Xlating K) (u : ℂ) : Prop where
  unit : ‖u‖ = 1
  phaseReal : f.phaseReal = 32767
  phaseImag : f.phaseImag = 0
  phaseIncrReal : f.phaseIncrReal = truncToInt16 (u.re * 32767)
  phaseIncrImag : f.phaseIncrImag = truncToInt16 (u.im * 32767)

section Integers

def clamp (v : Int) : Int := max (-32768) (min 32767 v)

theorem clamp_toInt (v : Int) : (saturateToInt16 v).toInt = clamp v := by
  simp only [saturateToInt16, clamp]
  rw [Int16.toInt_ofInt_of_le (by split <;> omega) (by split <;> split <;> omega)]
  split <;> split <;> omega

theorem int32_eq {v : Int} (h : |v| < 2 ^ 31) : int32 v = v := by
  rw [abs_lt] at h
  exact Int.bmod_eq_of_le (by omega) (by omega)

theorem shift15_toInt {v : Int} (h : |v| < 2 ^ 31) :
    (shift15 v).toInt = clamp (v / 2 ^ 15) := by
  have hsmall : |v / 2 ^ 15| < 2 ^ 31 := by
    rw [abs_lt] at h ⊢
    omega
  rw [shift15, Int.shiftRight_eq_div_pow]
  exact (congrArg _ (congrArg _ (int32_eq hsmall))).trans (clamp_toInt _)

theorem abs_toInt_le (x : Int16) : |x.toInt| ≤ 2 ^ 15 := by
  have hlow := x.le_toInt
  have hhigh := x.toInt_lt
  rw [abs_le]
  omega

theorem mul_toInt_lt (x y : Int16) : |x.toInt * y.toInt| < 2 ^ 31 := by
  rw [abs_mul]
  have hle := mul_le_mul (abs_toInt_le x) (abs_toInt_le y) (abs_nonneg _) (by norm_num)
  linarith [hle]

-- no sum of two products overflows: the phase is at most 2^15 times the root of 2
theorem cross_lt {x y p q : Int} (hx : |x| ≤ 2 ^ 15) (hy : |y| ≤ 2 ^ 15)
    (hw : p ^ 2 + q ^ 2 ≤ 32767 ^ 2) : |x * p + y * q| < 2 ^ 31 := by
  have hx2 : x ^ 2 ≤ (2 ^ 15) ^ 2 := sq_le_sq' (abs_le.mp hx).1 (abs_le.mp hx).2
  have hy2 : y ^ 2 ≤ (2 ^ 15) ^ 2 := sq_le_sq' (abs_le.mp hy).1 (abs_le.mp hy).2
  have hcauchy : (x * p + y * q) ^ 2 ≤ (x ^ 2 + y ^ 2) * (p ^ 2 + q ^ 2) := by
    linarith [sq_nonneg (x * q - y * p)]
  have hbound : (x ^ 2 + y ^ 2) * (p ^ 2 + q ^ 2) ≤ 2 ^ 31 * 32767 ^ 2 :=
    mul_le_mul (by linarith) hw (by positivity) (by norm_num)
  exact abs_lt_of_sq_lt_sq (by linarith) (by norm_num)

theorem clamp_cases (v : Int) : clamp v = v ∨ 32767 ≤ |clamp v| := by
  rcases le_total v 32767 with hhigh | hhigh
  · rcases le_total (-32768) v with hlow | hlow
    · left
      rw [clamp, min_eq_right hhigh, max_eq_right hlow]
    · right
      rw [clamp, min_eq_right hhigh, max_eq_left hlow]
      norm_num
  · right
    rw [clamp, min_eq_left hhigh]
    norm_num

end Integers

section Step

variable {K : Type} {f : Xlating K}

theorem rotate_toInt
    (h : f.phaseIncrReal.toInt ^ 2 + f.phaseIncrImag.toInt ^ 2 ≤ 32767 ^ 2)
    (phase : Int16 × Int16) :
    (f.rotate phase).1.toInt = clamp ((phase.1.toInt * f.phaseIncrReal.toInt -
        phase.2.toInt * f.phaseIncrImag.toInt) / 2 ^ 15) ∧
      (f.rotate phase).2.toInt = clamp ((phase.1.toInt * f.phaseIncrImag.toInt +
        phase.2.toInt * f.phaseIncrReal.toInt) / 2 ^ 15) := by
  have hreal := cross_lt (abs_toInt_le phase.1)
    ((abs_neg phase.2.toInt).trans_le (abs_toInt_le phase.2)) h
  have himag := cross_lt (abs_toInt_le phase.1) (abs_toInt_le phase.2)
    ((add_comm _ _).trans_le h)
  rw [neg_mul, ← sub_eq_add_neg] at hreal
  simp only [rotate, mulReal, mulImag, int32_eq (mul_toInt_lt _ _), int32_eq hreal, int32_eq himag]
  exact ⟨shift15_toInt hreal, shift15_toInt himag⟩

def planar (phase : Int16 × Int16) : ℂ := ⟨phase.1.toInt, phase.2.toInt⟩

noncomputable def turn (f : Xlating K) : ℂ :=
  ⟨f.phaseIncrReal.toInt / (2 ^ 15 : ℕ), f.phaseIncrImag.toInt / (2 ^ 15 : ℕ)⟩

theorem turn_eq (f : Xlating K) :
    f.turn = ⟨f.phaseIncrReal.toInt / 2 ^ 15, f.phaseIncrImag.toInt / 2 ^ 15⟩ := by
  have hscale : ((2 ^ 15 : ℕ) : ℝ) = 2 ^ 15 := by norm_num
  rw [turn, hscale]

theorem planar_sq (phase : Int16 × Int16) :
    ‖planar phase‖ ^ 2 = ((phase.1.toInt ^ 2 + phase.2.toInt ^ 2 : Int) : ℝ) := by
  rw [← Complex.normSq_eq_norm_sq, Complex.normSq_apply]
  push_cast
  simp only [planar]
  ring

theorem loud_iff (phase : Int16 × Int16) : Loud phase ↔ (2 : ℝ) ^ 14 ≤ ‖planar phase‖ := by
  rw [Loud, ← sq_le_sq₀ (by positivity) (norm_nonneg _), planar_sq, ← Int.cast_le (R := ℝ)]
  norm_num

theorem turn_re (phase : Int16 × Int16) : (planar phase * f.turn).re =
    ((phase.1.toInt * f.phaseIncrReal.toInt - phase.2.toInt * f.phaseIncrImag.toInt : Int) : ℝ) /
      2 ^ 15 := by
  rw [Complex.mul_re]
  push_cast
  simp only [turn_eq, planar]
  ring

theorem turn_im (phase : Int16 × Int16) : (planar phase * f.turn).im =
    ((phase.1.toInt * f.phaseIncrImag.toInt + phase.2.toInt * f.phaseIncrReal.toInt : Int) : ℝ) /
      2 ^ 15 := by
  rw [Complex.mul_im]
  push_cast
  simp only [turn_eq, planar]
  ring

-- the shift drops less than one unit
theorem floor_bounds (v : Int) :
    ((v / 2 ^ 15 : Int) : ℝ) ≤ (v : ℝ) / 2 ^ 15 ∧ (v : ℝ) / 2 ^ 15 < (v / 2 ^ 15 : Int) + 1 := by
  have hlow : 2 ^ 15 * (v / 2 ^ 15) ≤ v := by omega
  have hhigh : v < 2 ^ 15 * (v / 2 ^ 15 + 1) := by omega
  rw [le_div_iff₀ (by positivity), div_lt_iff₀ (by positivity)]
  constructor
  · exact_mod_cast (mul_comm _ _).trans_le hlow
  · exact_mod_cast hhigh.trans_eq (mul_comm _ _)

theorem norm_le_of_parts {d : ℂ} {b : ℝ} (hre : |d.re| ≤ b) (him : |d.im| ≤ b) :
    ‖d‖ ≤ Real.sqrt 2 * b :=
  (Complex.norm_le_sqrt_two_mul_max d).trans
    (mul_le_mul_of_nonneg_left (max_le hre him) (Real.sqrt_nonneg 2))

theorem norm_le_of_abs {d d' : ℂ} (hre : |d.re| ≤ |d'.re|) (him : |d.im| ≤ |d'.im|) :
    ‖d‖ ≤ ‖d'‖ := by
  rw [← sq_le_sq₀ (norm_nonneg _) (norm_nonneg _), ← Complex.normSq_eq_norm_sq,
    ← Complex.normSq_eq_norm_sq, Complex.normSq_apply, Complex.normSq_apply]
  have hre2 := sq_le_sq.mpr hre
  have him2 := sq_le_sq.mpr him
  linarith

-- saturation moves no further from a point that an int16_t holds
theorem clamp_near {c : ℝ} (hc : |c| ≤ 32767) (v : Int) : |(clamp v : ℝ) - c| ≤ |(v : ℝ) - c| := by
  obtain ⟨hlow, hhigh⟩ := abs_le.mp hc
  rcases le_total v 32767 with hv | hv
  · rcases le_total (-32768) v with hv' | hv'
    · rw [clamp, min_eq_right hv, max_eq_right hv']
    · rw [clamp, min_eq_right hv, max_eq_left hv']
      have hcast : (v : ℝ) ≤ -32768 := by exact_mod_cast hv'
      push_cast
      rw [abs_of_nonpos (by linarith), abs_of_nonpos (by linarith)]
      linarith
  · rw [clamp, min_eq_left hv, max_eq_right (by norm_num)]
    have hcast : (32767 : ℝ) ≤ v := by exact_mod_cast hv
    push_cast
    rw [abs_of_nonneg (by linarith), abs_of_nonneg (by linarith)]
    linarith

theorem part_spec (v : Int) : ∃ e : ℝ, |e - 1 / 2| ≤ 1 / 2 ∧
    ((clamp (v / 2 ^ 15) : ℝ) = v / 2 ^ 15 - e ∨ 32767 ≤ |(clamp (v / 2 ^ 15) : ℝ)|) ∧
    ∀ c : ℝ, |c| ≤ 32767 → |(clamp (v / 2 ^ 15) : ℝ) - c| ≤ |(v : ℝ) / 2 ^ 15 - e - c| := by
  obtain ⟨hbelow, habove⟩ := floor_bounds v
  refine ⟨(v : ℝ) / 2 ^ 15 - (v / 2 ^ 15 : Int), ?_, ?_, ?_⟩
  · rw [abs_le]
    constructor <;> linarith
  · rw [sub_sub_cancel]
    rcases clamp_cases (v / 2 ^ 15) with hclear | hfull
    · left
      rw [hclear]
    · right
      exact_mod_cast hfull
  · intro c hc
    rw [sub_sub_cancel]
    exact clamp_near hc _

-- the mean of what the two shifts drop, and as far from it as they can be
noncomputable def half : ℂ := ⟨1 / (2 : ℕ), 1 / (2 : ℕ)⟩

theorem half_eq : half = ⟨1 / 2, 1 / 2⟩ := by
  unfold half
  push_cast
  rfl

theorem half_norm : ‖half‖ = Real.sqrt 2 * (1 / 2) := by
  rw [← sq_eq_sq₀ (norm_nonneg _) (by positivity), mul_pow, Real.sq_sqrt (by norm_num),
    ← Complex.normSq_eq_norm_sq, Complex.normSq_apply, half_eq]
  norm_num

theorem half_norm_le : ‖half‖ ≤ 0.70711 := by
  have hroot : Real.sqrt 2 ≤ 1.41422 := by
    rw [Real.sqrt_le_left (by norm_num)]
    norm_num
  rw [half_norm]
  linarith

theorem rotate_spec
    (h : f.phaseIncrReal.toInt ^ 2 + f.phaseIncrImag.toInt ^ 2 ≤ 32767 ^ 2)
    (phase : Int16 × Int16) : ∃ e : ℂ, ‖e - half‖ ≤ ‖half‖ ∧
      (planar (f.rotate phase) = planar phase * f.turn - e ∨
        32767 ≤ ‖planar (f.rotate phase)‖) ∧
      ∀ c : ℂ, ‖c‖ ≤ 32767 →
        ‖planar (f.rotate phase) - c‖ ≤ ‖planar phase * f.turn - e - c‖ := by
  obtain ⟨hre, him⟩ := rotate_toInt h phase
  obtain ⟨e, he, hkept, hnear⟩ := part_spec
    (phase.1.toInt * f.phaseIncrReal.toInt - phase.2.toInt * f.phaseIncrImag.toInt)
  obtain ⟨e', he', hkept', hnear'⟩ := part_spec
    (phase.1.toInt * f.phaseIncrImag.toInt + phase.2.toInt * f.phaseIncrReal.toInt)
  rw [← hre, ← turn_re] at hkept hnear
  rw [← him, ← turn_im] at hkept' hnear'
  have hdropped : ‖(⟨e, e'⟩ : ℂ) - half‖ ≤ ‖half‖ := by
    rw [half_norm, half_eq]
    exact norm_le_of_parts he he'
  refine ⟨⟨e, e'⟩, hdropped, ?_, ?_⟩
  · rcases hkept with hkept | hfull
    · rcases hkept' with hkept' | hfull'
      · left
        exact Complex.ext hkept hkept'
      · right
        exact hfull'.trans (Complex.abs_im_le_norm (planar (f.rotate phase)))
    · right
      exact hfull.trans (Complex.abs_re_le_norm (planar (f.rotate phase)))
  · intro c hc
    apply norm_le_of_abs
    · exact hnear c.re ((Complex.abs_re_le_norm c).trans hc)
    · exact hnear' c.im ((Complex.abs_im_le_norm c).trans hc)

-- a point about which one output turns the phase up to an error of `b`
structure Centre (f : Xlating K) (c : ℂ) (b : ℝ) : Prop where
  near : ‖c‖ ≤ 32767
  drops : ∀ e, ‖e - half‖ ≤ ‖half‖ → ‖c * f.turn - e - c‖ ≤ b

theorem Centre.nonneg {c : ℂ} {b : ℝ} (hc : Centre f c b) : 0 ≤ b := by
  have hself : ‖half - half‖ ≤ ‖half‖ := by
    rw [sub_self, norm_zero]
    exact norm_nonneg half
  exact (norm_nonneg _).trans (hc.drops half hself)

theorem Centre.rotate {c : ℂ} {b : ℝ} (hc : Centre f c b)
    (h : f.phaseIncrReal.toInt ^ 2 + f.phaseIncrImag.toInt ^ 2 ≤ 32767 ^ 2)
    (phase : Int16 × Int16) :
    (32767 - ‖c‖ ≤ ‖planar (f.rotate phase) - c‖ ∨
        ‖f.turn‖ * ‖planar phase - c‖ - b ≤ ‖planar (f.rotate phase) - c‖) ∧
      ‖planar (f.rotate phase) - c‖ ≤ ‖f.turn‖ * ‖planar phase - c‖ + b := by
  obtain ⟨e, he, hkept, hnear⟩ := rotate_spec h phase
  have hdrops := hc.drops e he
  have hturned : planar phase * f.turn - e - c =
      f.turn * (planar phase - c) + (c * f.turn - e - c) := by ring
  constructor
  · rcases hkept with hkept | hfull
    · right
      have htriangle := norm_sub_le_norm_add (f.turn * (planar phase - c)) (c * f.turn - e - c)
      rw [← hturned, ← hkept, norm_mul] at htriangle
      linarith
    · left
      linarith [norm_sub_norm_le (planar (f.rotate phase)) c]
  · have htriangle := norm_add_le (f.turn * (planar phase - c)) (c * f.turn - e - c)
    rw [← hturned, norm_mul] at htriangle
    linarith [hnear c hc.near]

theorem centre_zero : Centre f 0 (‖half‖ + ‖half‖) where
  near := by
    rw [norm_zero]
    norm_num
  drops := by
    intro e he
    have htriangle := norm_add_le (e - half) half
    rw [sub_add_cancel] at htriangle
    rw [zero_mul, zero_sub, sub_zero, norm_neg]
    linarith

theorem trunc_near {x : ℝ} (h : |x| ≤ 32767) :
    |((truncToInt16 x).toInt : ℝ)| ≤ |x| ∧ |x - (truncToInt16 x).toInt| ≤ 1 := by
  obtain ⟨hlow, hhigh⟩ := abs_le.mp h
  rcases le_or_gt 0 x with hpos | hneg
  · have hfloor : 0 ≤ ⌊x⌋ := Int.floor_nonneg.mpr hpos
    have hfits : ⌊x⌋ ≤ 32767 := Int.floor_le_iff.mpr (by push_cast; linarith)
    have hvalue : (truncToInt16 x).toInt = ⌊x⌋ := by
      rw [truncToInt16, if_pos hpos]
      exact Int16.toInt_ofInt_of_le (by omega) (by omega)
    have hcast : (0 : ℝ) ≤ ⌊x⌋ := by exact_mod_cast hfloor
    have hle := Int.floor_le x
    have hlt := Int.lt_floor_add_one x
    rw [hvalue, abs_of_nonneg hcast, abs_of_nonneg hpos, abs_le]
    exact ⟨hle, by linarith, by linarith⟩
  · have hceil : ⌈x⌉ ≤ 0 := Int.ceil_le.mpr (by push_cast; linarith)
    have hfits : -32767 ≤ ⌈x⌉ := Int.le_ceil_iff.mpr (by push_cast; linarith)
    have hvalue : (truncToInt16 x).toInt = ⌈x⌉ := by
      rw [truncToInt16, if_neg (by linarith)]
      exact Int16.toInt_ofInt_of_le (by omega) (by omega)
    have hcast : (⌈x⌉ : ℝ) ≤ 0 := by exact_mod_cast hceil
    have hle := Int.le_ceil x
    have hlt := Int.ceil_lt_add_one x
    rw [hvalue, abs_of_nonpos hcast, abs_of_neg hneg, abs_le]
    exact ⟨by linarith, by linarith, by linarith⟩

theorem turn_norm (f : Xlating K) :
    ‖f.turn‖ = ‖planar (f.phaseIncrReal, f.phaseIncrImag)‖ / 2 ^ 15 := by
  have heq : f.turn = planar (f.phaseIncrReal, f.phaseIncrImag) / ((2 ^ 15 : ℝ) : ℂ) := by
    rw [turn_eq]
    apply Complex.ext
    · rw [Complex.div_ofReal_re]
      rfl
    · rw [Complex.div_ofReal_im]
      rfl
  rw [heq, norm_div, Complex.norm_real, Real.norm_of_nonneg (by positivity)]

variable {u : ℂ}

theorem Starting.parts (h : Starting f u) : |u.re * 32767| ≤ 32767 ∧ |u.im * 32767| ≤ 32767 := by
  have hre := (Complex.abs_re_le_norm u).trans_eq h.unit
  have him := (Complex.abs_im_le_norm u).trans_eq h.unit
  rw [abs_mul, abs_mul, abs_of_nonneg (by norm_num : (0 : ℝ) ≤ 32767)]
  constructor <;> linarith

theorem Starting.bound (h : Starting f u) :
    f.phaseIncrReal.toInt ^ 2 + f.phaseIncrImag.toInt ^ 2 ≤ 32767 ^ 2 := by
  obtain ⟨hre, him⟩ := h.parts
  have hre2 := sq_le_sq.mpr (trunc_near hre).1
  have him2 := sq_le_sq.mpr (trunc_near him).1
  have hunit : u.re ^ 2 + u.im ^ 2 = 1 := by
    have hsq := Complex.normSq_eq_norm_sq u
    rw [h.unit, Complex.normSq_apply] at hsq
    linarith
  rw [← h.phaseIncrReal] at hre2
  rw [← h.phaseIncrImag] at him2
  have hcast : (f.phaseIncrReal.toInt : ℝ) ^ 2 + (f.phaseIncrImag.toInt : ℝ) ^ 2 ≤ 32767 ^ 2 := by
    linarith
  exact_mod_cast hcast

theorem Starting.turn_lower (h : Starting f u) : (32767 - Real.sqrt 2) / 2 ^ 15 ≤ ‖f.turn‖ := by
  obtain ⟨hre, him⟩ := h.parts
  have hdropped : ‖u * 32767 - planar (f.phaseIncrReal, f.phaseIncrImag)‖ ≤ Real.sqrt 2 * 1 := by
    apply norm_le_of_parts
    · have hnear := (trunc_near hre).2
      rw [← h.phaseIncrReal] at hnear
      simpa [planar] using hnear
    · have hnear := (trunc_near him).2
      rw [← h.phaseIncrImag] at hnear
      simpa [planar] using hnear
  have htriangle := norm_sub_norm_le (u * 32767) (planar (f.phaseIncrReal, f.phaseIncrImag))
  have hscale : ‖u * 32767‖ = 32767 := by
    rw [norm_mul, h.unit]
    norm_num
  rw [turn_norm]
  apply div_le_div_of_nonneg_right _ (by positivity)
  linarith

theorem Starting.turn_lt (h : Starting f u) : ‖f.turn‖ < 1 := by
  have hsq : ‖planar (f.phaseIncrReal, f.phaseIncrImag)‖ ^ 2 ≤ 32767 ^ 2 := by
    rw [planar_sq]
    exact_mod_cast h.bound
  have hle := (sq_le_sq₀ (norm_nonneg _) (by norm_num)).mp hsq
  rw [turn_norm, div_lt_one (by positivity)]
  linarith

theorem far (f : Xlating K) : 1 / 2 ^ 15 ≤ ‖1 - f.turn‖ := by
  have hincr := f.phaseIncrReal.toInt_lt
  have hcast : (f.phaseIncrReal.toInt : ℝ) ≤ 32767 := by exact_mod_cast Int.le_of_lt_add_one hincr
  have hre : (1 - f.turn).re = 1 - f.phaseIncrReal.toInt / 2 ^ 15 := by
    rw [turn_eq]
    rfl
  have hle := (le_abs_self (1 - f.turn).re).trans (Complex.abs_re_le_norm (1 - f.turn))
  rw [hre] at hle
  linarith

-- the modulus that the rounding can give or take in the long run
noncomputable def held (f : Xlating K) : ℝ := ‖half‖ / (1 - ‖f.turn‖)

-- how far from zero the mean of the rounding moves the centre of the rotation
noncomputable def drift (f : Xlating K) : ℝ := ‖half‖ / ‖1 - f.turn‖

theorem drift_nonneg (f : Xlating K) : 0 ≤ f.drift := div_nonneg (norm_nonneg _) (norm_nonneg _)

theorem drift_le (f : Xlating K) : f.drift ≤ 32767 := by
  have hfar := f.far
  rw [drift, div_le_iff₀ (by linarith)]
  linarith [half_norm_le]

theorem centre_drift (f : Xlating K) : ∃ c, Centre f c ‖half‖ ∧ ‖c‖ ≤ f.drift := by
  have hfar := f.far
  have hone : 1 - f.turn ≠ 0 := by
    rw [← norm_pos_iff]
    linarith
  have hfixed : -half / (1 - f.turn) * f.turn - half = -half / (1 - f.turn) := by
    field_simp
    ring
  have hdrift : ‖-half / (1 - f.turn)‖ ≤ f.drift := by
    rw [norm_div, norm_neg]
    exact le_rfl
  generalize -half / (1 - f.turn) = c at hfixed hdrift
  refine ⟨c, ⟨hdrift.trans f.drift_le, ?_⟩, hdrift⟩
  intro e he
  have heq : c * f.turn - e - c = -(e - half) := by linear_combination hfixed
  rw [heq, norm_neg]
  exact he

theorem planar_start : ‖planar (32767, 0)‖ = 32767 := by
  have hvalue : planar (32767, 0) = ((32767 : ℝ) : ℂ) := by
    apply Complex.ext
    · exact Int.cast_ofNat 32767
    · exact Int.cast_zero
  rw [hvalue, Complex.norm_real]
  norm_num

theorem phase_lower (h : Starting f u) {c : ℂ} {b : ℝ} (hc : Centre f c b) (n : Nat) :
    ‖f.turn‖ ^ n * (32767 - ‖c‖ + b / (1 - ‖f.turn‖)) ≤
      ‖planar (f.rotate^[n] (32767, 0)) - c‖ + b / (1 - ‖f.turn‖) := by
  apply Affine.lower (x := fun n => ‖planar (f.rotate^[n] (32767, 0)) - c‖) (norm_nonneg _)
    h.turn_lt hc.nonneg
  · linarith [hc.near]
  · have htriangle := norm_sub_norm_le (planar (32767, 0)) c
    rw [planar_start] at htriangle
    exact htriangle
  · intro n
    rw [Function.iterate_succ_apply']
    exact (hc.rotate h.bound (f.rotate^[n] (32767, 0))).1

theorem phase_upper (h : Starting f u) {c : ℂ} {b : ℝ} (hc : Centre f c b) (n : Nat) :
    ‖planar (f.rotate^[n] (32767, 0)) - c‖ ≤
      ‖f.turn‖ ^ n * ‖planar (32767, 0) - c‖ + b / (1 - ‖f.turn‖) := by
  apply Affine.upper (x := fun n => ‖planar (f.rotate^[n] (32767, 0)) - c‖) (norm_nonneg _)
    h.turn_lt hc.nonneg
  intro n
  rw [Function.iterate_succ_apply']
  exact (hc.rotate h.bound (f.rotate^[n] (32767, 0))).2

-- what the modulus keeps after `n` outputs however the shifts round: seen from zero, and
-- seen from the centre that their mean moves the rotation to
noncomputable def leastAmplitude (f : Xlating K) (n : Nat) : ℝ :=
  max (‖f.turn‖ ^ n * ((32767 : ℕ) + (f.held + f.held)) - (f.held + f.held))
    (‖f.turn‖ ^ n * ((32767 : ℕ) - f.drift + f.held) - (f.held + f.drift))

noncomputable def greatestAmplitude (f : Xlating K) (n : Nat) : ℝ :=
  ‖f.turn‖ ^ n * ((32767 : ℕ) + f.drift) + (f.held + f.drift)

theorem leastAmplitude_le (h : Starting f u) (n : Nat) :
    f.leastAmplitude n ≤ ‖planar (f.rotate^[n] (32767, 0))‖ := by
  apply max_le
  · have hlower := phase_lower h centre_zero n
    rw [norm_zero, sub_zero, sub_zero, add_div] at hlower
    push_cast
    unfold held
    linarith
  · obtain ⟨c, hc, hdrift⟩ := f.centre_drift
    have hlower := phase_lower h hc n
    have hsmaller : ‖f.turn‖ ^ n * (32767 - f.drift + f.held) ≤
        ‖f.turn‖ ^ n * (32767 - ‖c‖ + f.held) :=
      mul_le_mul_of_nonneg_left (by linarith) (pow_nonneg (norm_nonneg _) n)
    have htriangle := norm_sub_le (planar (f.rotate^[n] (32767, 0))) c
    push_cast
    unfold held at hsmaller ⊢
    linarith

theorem le_greatestAmplitude (h : Starting f u) (n : Nat) :
    ‖planar (f.rotate^[n] (32767, 0))‖ ≤ f.greatestAmplitude n := by
  obtain ⟨c, hc, hdrift⟩ := f.centre_drift
  have hupper := phase_upper h hc n
  have hstart := norm_sub_le (planar (32767, 0)) c
  rw [planar_start] at hstart
  have hlarger : ‖f.turn‖ ^ n * ‖planar (32767, 0) - c‖ ≤ ‖f.turn‖ ^ n * (32767 + f.drift) :=
    mul_le_mul_of_nonneg_left (by linarith) (pow_nonneg (norm_nonneg _) n)
  have htriangle := norm_le_norm_sub_add (planar (f.rotate^[n] (32767, 0))) c
  unfold greatestAmplitude held
  push_cast
  linarith

theorem loud_of_least (h : Starting f u) {n : Nat} (hn : 2 ^ 14 ≤ f.leastAmplitude n) :
    Loud (f.rotate^[n] (32767, 0)) := by
  rw [loud_iff]
  exact hn.trans (leastAmplitude_le h n)

theorem lost_of_greatest (h : Starting f u) {n : Nat} (hn : f.greatestAmplitude n < 2 ^ 14) :
    ¬ Loud (f.rotate^[n] (32767, 0)) := by
  rw [loud_iff, not_le]
  exact (le_greatestAmplitude h n).trans_lt hn

-- twenty blocks of 250 outputs, each by Bernoulli's inequality
theorem pow_of_few {r : ℝ} (hr : 1 - 2.41422 / 2 ^ 15 ≤ r) (hr1 : r ≤ 1) {n : Nat}
    (hn : n ≤ 5000) : 0.689 ≤ r ^ n := by
  have hblock : 0.98158 ≤ r ^ 250 := by
    have hbernoulli := one_add_mul_le_pow (by linarith : (-2 : ℝ) ≤ r - 1) 250
    rw [add_sub_cancel] at hbernoulli
    generalize r ^ 250 = block at hbernoulli ⊢
    push_cast at hbernoulli
    linarith
  calc (0.689 : ℝ) ≤ 0.98158 ^ 20 := by norm_num
    _ ≤ (r ^ 250) ^ 20 := pow_le_pow_left₀ (by norm_num) hblock 20
    _ = r ^ 5000 := by rw [← pow_mul]
    _ ≤ r ^ n := pow_le_pow_of_le_one (by linarith) hr1 hn

theorem least_of_few (h : Starting f u) {n : Nat} (hn : n ≤ 5000) :
    2 ^ 14 ≤ f.leastAmplitude n := by
  have hhalf := half_norm_le
  have hhalf0 := norm_nonneg half
  have hroot : Real.sqrt 2 = ‖half‖ + ‖half‖ := by
    rw [half_norm]
    ring
  have hturn := h.turn_lower
  rw [hroot] at hturn
  obtain ⟨r, hr⟩ : ∃ r, r = (32767 - (‖half‖ + ‖half‖)) / 2 ^ 15 := ⟨_, rfl⟩
  rw [← hr] at hturn
  have hlevel := Affine.level_mono (by linarith : 0 ≤ r) hturn h.turn_lt
    (by linarith : 0 ≤ ‖half‖ + ‖half‖) (by norm_num : (0 : ℝ) ≤ (32767 : ℕ)) n
  rw [add_div ‖half‖ ‖half‖ (1 - ‖f.turn‖)] at hlevel
  have hlost : (‖half‖ + ‖half‖) / (1 - r) ≤ 19900 := by
    rw [div_le_iff₀ (by linarith)]
    linarith
  have hlost0 : 0 ≤ (‖half‖ + ‖half‖) / (1 - r) := div_nonneg (by linarith) (by linarith)
  have hfew : 0.689 ≤ r ^ n := pow_of_few (by linarith) (by linarith) hn
  have hpow := mul_le_mul_of_nonneg_right hfew
    (by linarith : 0 ≤ 32767 + (‖half‖ + ‖half‖) / (1 - r))
  have hfull : 2 ^ 14 ≤ max 0 (‖f.turn‖ ^ n * ((32767 : ℕ) + (f.held + f.held)) -
      (f.held + f.held)) := by
    refine le_trans ?_ hlevel
    push_cast
    linarith
  apply le_max_of_le_left
  rcases le_max_iff.mp hfull with hzero | hleast
  · norm_num at hzero
  · exact hleast

end Step

end Xlating
end SdrServer
