import Mathlib.Data.Nat.GCD.Basic
import Mathlib.Data.Rat.Cast.Order
import Mathlib.Tactic.Linarith
import Mathlib.Tactic.Ring
import Mathlib.Tactic.FieldSimp

-- a remainder of a whole step, as `frac / thresh` of it with at most `limit` for `thresh`, and
-- what is missing in parts of one `fine`-th of 1 / thresh
structure FractionalN where
  thresh : Nat
  frac : Nat
  afc : Nat
  deriving DecidableEq, Repr

namespace FractionalN

def rounded (x a : Nat) : Nat := (x + a / 2) / a

def shrink (limit x : Nat) : Nat := (x + (limit - 1)) / limit

def lower (whole rest thresh frac : Nat) : Nat :=
  if rest < whole * frac / thresh then frac - 1 else frac

def missing (fine whole rest thresh frac : Nat) : Nat :=
  (rest - whole * frac / thresh) * thresh * fine / whole

def setting (limit fine whole rest : Nat) : FractionalN :=
  let g := Nat.gcd whole rest
  let a := shrink limit (whole / g)
  let thresh := rounded (whole / g) a
  let frac := lower whole rest thresh (rounded (rest / g) a)
  ⟨thresh, frac, missing fine whole rest thresh frac⟩

section Rounded

variable {a x y : Nat}

theorem rounded_le (x a : Nat) : 2 * a * rounded x a ≤ 2 * x + a := by
  have h : a * ((x + a / 2) / a) ≤ x + a / 2 := Nat.mul_div_le _ _
  rw [rounded, Nat.mul_assoc]
  omega

theorem le_rounded (ha : 0 < a) (x : Nat) : 2 * x + 1 ≤ 2 * a * rounded x a + a := by
  have h : x + a / 2 < a * ((x + a / 2) / a) + a := by
    simpa [Nat.mul_add] using Nat.lt_mul_div_succ (x + a / 2) ha
  rw [rounded, Nat.mul_assoc]
  omega

theorem rounded_one (x : Nat) : rounded x 1 = x := by
  simp [rounded]

-- the rounded fraction is at most one step of its own too high
theorem rounded_cross_le (ha : 0 < a) (hyx : y ≤ x) :
    x * rounded y a ≤ y * rounded x a + x := by
  have hhigh : x * (2 * a * rounded y a) ≤ x * (2 * y + a) := Nat.mul_le_mul_left x (rounded_le y a)
  have hlow : y * (2 * x + 1) ≤ y * (2 * a * rounded x a + a) :=
    Nat.mul_le_mul_left y (le_rounded ha x)
  have hya : y * a ≤ x * a := Nat.mul_le_mul_right a hyx
  refine Nat.le_of_mul_le_mul_left ?_ (show 0 < 2 * a by omega)
  linarith

theorem rounded_cross_ge (ha : 0 < a) (x y : Nat) :
    2 * a * (y * rounded x a) + x ≤ 2 * a * (x * rounded y a) + a * (y + x) := by
  have hhigh : y * (2 * a * rounded x a) ≤ y * (2 * x + a) := Nat.mul_le_mul_left y (rounded_le x a)
  have hlow : x * (2 * y + 1) ≤ x * (2 * a * rounded y a + a) :=
    Nat.mul_le_mul_left x (le_rounded ha y)
  linarith

end Rounded

theorem le_mul_shrink {limit : Nat} (hlimit : 0 < limit) (x : Nat) : x ≤ limit * shrink limit x := by
  have h : x + (limit - 1) < limit * ((x + (limit - 1)) / limit) + limit := by
    simpa [Nat.mul_add] using Nat.lt_mul_div_succ (x + (limit - 1)) hlimit
  rw [shrink]
  omega

theorem shrink_le {limit x : Nat} (hlimit : 0 < limit) (hx : 0 < x) : shrink limit x ≤ x := by
  apply Nat.div_le_of_le_mul
  obtain ⟨l, rfl⟩ := Nat.exists_eq_add_of_lt hlimit
  obtain ⟨k, rfl⟩ := Nat.exists_eq_add_of_lt hx
  simp only [Nat.zero_add, Nat.add_sub_cancel]
  ring_nf
  omega

theorem shrink_pos {limit x : Nat} (hlimit : 0 < limit) (hx : 0 < x) : 0 < shrink limit x :=
  Nat.div_pos (by omega) hlimit

theorem shrink_eq_one {limit x : Nat} (hx : 0 < x) (h : x ≤ limit) : shrink limit x = 1 := by
  apply Nat.div_eq_of_lt_le
  · omega
  · omega

-- `frac / thresh` of `whole` is less than one step away from `rest`, on either side
structure Close (whole rest thresh frac : Nat) : Prop where
  pos : 0 < thresh
  notHigh : whole * frac ≤ rest * thresh + whole
  notLow : rest * thresh + thresh ≤ whole * frac + whole

section Lower

variable {whole rest thresh frac : Nat}

theorem lower_cases (whole rest thresh frac : Nat) :
    (whole * frac / thresh ≤ rest ∧ lower whole rest thresh frac = frac) ∨
      ∃ f, frac = f + 1 ∧ rest < whole * (f + 1) / thresh ∧ lower whole rest thresh frac = f := by
  unfold lower
  split
  · rename_i h
    cases frac with
    | zero => simp at h
    | succ f => exact Or.inr ⟨f, rfl, h, rfl⟩
  · rename_i h
    exact Or.inl ⟨Nat.le_of_not_lt h, rfl⟩

theorem lower_le (h : Close whole rest thresh frac) :
    whole * lower whole rest thresh frac / thresh ≤ rest := by
  rcases lower_cases whole rest thresh frac with ⟨hle, heq⟩ | ⟨f, rfl, -, heq⟩ <;> rw [heq]
  · exact hle
  · apply Nat.div_le_of_le_mul
    have hhigh := h.notHigh
    rw [Nat.mul_comm thresh]
    linarith

theorem lower_gap (h : Close whole rest thresh frac) :
    (rest - whole * lower whole rest thresh frac / thresh) * thresh < whole := by
  have hlow := h.notLow
  have hdiv : ∀ x, x < x / thresh * thresh + thresh := fun x => by
    simpa [Nat.mul_add, Nat.mul_comm] using Nat.lt_mul_div_succ x h.pos
  have hq := lower_le h
  revert hq
  rcases lower_cases whole rest thresh frac with ⟨-, heq⟩ | ⟨f, rfl, hlt, heq⟩ <;> rw [heq] <;>
    intro hq
  · have hup := hdiv (whole * frac)
    have hmul := Nat.mul_le_mul_right thresh hq
    rw [Nat.sub_mul]
    omega
  · have hup := hdiv (whole * f)
    have hmul := Nat.mul_le_mul_right thresh hq
    have hover : (rest + 1) * thresh ≤ whole * (f + 1) := (Nat.le_div_iff_mul_le h.pos).mp hlt
    rw [Nat.add_mul] at hover
    rw [Nat.mul_add] at hover
    rw [Nat.sub_mul]
    omega

theorem lower_lt (hrest : rest < whole) (h : Close whole rest thresh frac) :
    lower whole rest thresh frac < thresh := by
  rcases lower_cases whole rest thresh frac with ⟨hle, heq⟩ | ⟨f, rfl, -, heq⟩ <;> rw [heq]
  · by_contra hge
    have hmul : whole * thresh ≤ whole * frac := Nat.mul_le_mul_left whole (Nat.le_of_not_lt hge)
    have hquot : whole ≤ whole * frac / thresh := (Nat.le_div_iff_mul_le h.pos).mpr hmul
    omega
  · have hhigh := h.notHigh
    have hmul : rest * thresh < whole * thresh := Nat.mul_lt_mul_of_pos_right hrest h.pos
    have hlt : whole * f < whole * thresh := by linarith
    exact Nat.lt_of_mul_lt_mul_left hlt

theorem missing_lt {fine : Nat} (hfine : 0 < fine) (h : Close whole rest thresh frac) :
    missing fine whole rest thresh (lower whole rest thresh frac) < fine := by
  have hgap := lower_gap h
  apply (Nat.div_lt_iff_lt_mul (by omega)).mpr
  rw [Nat.mul_comm fine]
  exact Nat.mul_lt_mul_of_pos_right hgap hfine

end Lower

-- the largest error there can be when `whole` and `rest` have no common divisor
def Roomy (limit whole : Nat) : Prop :=
  let a := shrink limit whole
  whole * (2 * a * rounded whole a - 2 * whole) + 2 * a * rounded whole a ≤ whole + a * whole

instance (limit whole : Nat) : Decidable (Roomy limit whole) :=
  inferInstanceAs (Decidable (_ ≤ _))

section Setting

variable {limit fine whole rest : Nat}

theorem divisor_pos (hrest : rest < whole) : 0 < Nat.gcd whole rest :=
  Nat.gcd_pos_of_pos_left rest (by omega)

theorem whole_pos (hrest : rest < whole) : 0 < whole / Nat.gcd whole rest :=
  Nat.div_pos (Nat.gcd_le_left rest (by omega)) (divisor_pos hrest)

theorem close_low (ha : 0 < shrink limit (whole / Nat.gcd whole rest)) (hrest : rest < whole)
    (hroom : Nat.gcd whole rest = 1 → Roomy limit whole) :
    rest * rounded (whole / Nat.gcd whole rest) (shrink limit (whole / Nat.gcd whole rest)) +
        rounded (whole / Nat.gcd whole rest) (shrink limit (whole / Nat.gcd whole rest)) ≤
      whole * rounded (rest / Nat.gcd whole rest) (shrink limit (whole / Nat.gcd whole rest)) +
        whole := by
  by_cases hone : Nat.gcd whole rest = 1
  · have hroom : Roomy limit whole := hroom hone
    simp only [hone, Nat.div_one] at ha ⊢
    unfold Roomy at hroom
    generalize shrink limit whole = a at ha hroom ⊢
    have hlow : whole * (2 * rest + 1) ≤ whole * (2 * a * rounded rest a + a) :=
      Nat.mul_le_mul_left whole (le_rounded ha rest)
    have hhigh : rest * (2 * a * rounded whole a) ≤
        rest * (2 * whole + (2 * a * rounded whole a - 2 * whole)) :=
      Nat.mul_le_mul_left rest (by omega)
    have hexcess : rest * (2 * a * rounded whole a - 2 * whole) ≤
        whole * (2 * a * rounded whole a - 2 * whole) := Nat.mul_le_mul_right _ hrest.le
    refine Nat.le_of_mul_le_mul_left ?_ (show 0 < 2 * a by omega)
    linarith
  · obtain ⟨x, hx⟩ := Nat.gcd_dvd_left whole rest
    obtain ⟨y, hy⟩ := Nat.gcd_dvd_right whole rest
    have hg : 0 < Nat.gcd whole rest := divisor_pos hrest
    generalize Nat.gcd whole rest = g at ha hone hx hy hg ⊢
    subst hx hy
    rw [Nat.mul_div_cancel_left x hg] at ha
    rw [Nat.mul_div_cancel_left x hg, Nat.mul_div_cancel_left y hg]
    generalize shrink limit x = a at ha ⊢
    have hcross : g * (2 * a * (y * rounded x a) + x) ≤
        g * (2 * a * (x * rounded y a) + a * (y + x)) :=
      Nat.mul_le_mul_left g (rounded_cross_ge ha x y)
    have hthresh : 2 * a * rounded x a ≤ 2 * x + a := rounded_le x a
    have htwo : 2 * x ≤ g * x := Nat.mul_le_mul_right x (by omega)
    have hroom : a * (g * y + 1) ≤ a * (g * x) := Nat.mul_le_mul_left a hrest
    refine Nat.le_of_mul_le_mul_left ?_ (show 0 < 2 * a by omega)
    linarith

theorem close_setting (hlimit : 0 < limit) (hrest : rest < whole)
    (hroom : Nat.gcd whole rest = 1 → Roomy limit whole) :
    Close whole rest (rounded (whole / Nat.gcd whole rest) (shrink limit (whole / Nat.gcd whole rest)))
      (rounded (rest / Nat.gcd whole rest) (shrink limit (whole / Nat.gcd whole rest))) := by
  have ha : 0 < shrink limit (whole / Nat.gcd whole rest) := shrink_pos hlimit (whole_pos hrest)
  refine ⟨?_, ?_, close_low ha hrest hroom⟩
  · have hle := shrink_le hlimit (whole_pos hrest)
    apply Nat.div_pos ?_ ha
    omega
  · obtain ⟨x, hx⟩ := Nat.gcd_dvd_left whole rest
    obtain ⟨y, hy⟩ := Nat.gcd_dvd_right whole rest
    have hg : 0 < Nat.gcd whole rest := divisor_pos hrest
    generalize Nat.gcd whole rest = g at ha hx hy hg ⊢
    subst hx hy
    rw [Nat.mul_div_cancel_left x hg] at ha
    rw [Nat.mul_div_cancel_left x hg, Nat.mul_div_cancel_left y hg]
    have hyx : y ≤ x := (Nat.lt_of_mul_lt_mul_left hrest).le
    have hcross := Nat.mul_le_mul_left g (rounded_cross_le ha hyx)
    linarith

theorem thresh_le (fine : Nat) (hlimit : 0 < limit) (hrest : rest < whole) :
    (setting limit fine whole rest).thresh ≤ limit := by
  have ha : 0 < shrink limit (whole / Nat.gcd whole rest) := shrink_pos hlimit (whole_pos hrest)
  have hmul := le_mul_shrink hlimit (whole / Nat.gcd whole rest)
  have hround := rounded_le (whole / Nat.gcd whole rest) (shrink limit (whole / Nat.gcd whole rest))
  change rounded _ (shrink limit _) ≤ limit
  generalize shrink limit (whole / Nat.gcd whole rest) = a at *
  by_contra hgt
  have hover : 2 * a * (limit + 1) ≤ 2 * a * rounded (whole / Nat.gcd whole rest) a :=
    Nat.mul_le_mul_left _ (by omega)
  rw [Nat.mul_comm limit] at hmul
  linarith

-- what is set, in the unit of `whole` and `rest`
def value (fine whole : Nat) (s : FractionalN) : ℚ := whole * (s.frac + s.afc / fine) / s.thresh

theorem value_close {thresh frac : Nat} (hfine : 0 < fine) (hwhole : 0 < whole) (hpos : 0 < thresh)
    (hle : whole * frac / thresh ≤ rest) :
    value fine whole ⟨thresh, frac, missing fine whole rest thresh frac⟩ < rest + 1 ∧
      rest - whole / (fine * thresh) <
        value fine whole ⟨thresh, frac, missing fine whole rest thresh frac⟩ := by
  obtain ⟨d, rfl⟩ := Nat.exists_eq_add_of_le hle
  generalize hq : whole * frac / thresh = q
  have hafc : missing fine whole (q + d) thresh frac = d * thresh * fine / whole := by
    simp [missing, hq]
  have hqle : q * thresh ≤ whole * frac := by
    rw [← hq]
    exact Nat.div_mul_le_self _ _
  have hqlt : whole * frac < q * thresh + thresh := by
    rw [← hq]
    simpa [Nat.mul_add, Nat.mul_comm] using Nat.lt_mul_div_succ (whole * frac) hpos
  have hale := Nat.div_mul_le_self (d * thresh * fine) whole
  have halt : d * thresh * fine < (d * thresh * fine / whole) * whole + whole := by
    simpa [Nat.mul_add, Nat.mul_comm] using Nat.lt_mul_div_succ (d * thresh * fine) hwhole
  rw [hafc]
  generalize d * thresh * fine / whole = afc at hale halt
  have hqle : (q : ℚ) * thresh ≤ whole * frac := by exact_mod_cast hqle
  have hqlt : (whole : ℚ) * frac < q * thresh + thresh := by exact_mod_cast hqlt
  have hale : (afc : ℚ) * whole ≤ d * thresh * fine := by exact_mod_cast hale
  have halt : (d : ℚ) * thresh * fine < afc * whole + whole := by exact_mod_cast halt
  have hthresh : (0 : ℚ) < thresh := by exact_mod_cast hpos
  have hfine : (0 : ℚ) < fine := by exact_mod_cast hfine
  have hvalue : value fine whole ⟨thresh, frac, afc⟩ =
      (whole * frac * fine + afc * whole) / (fine * thresh) := by
    simp only [value]
    field_simp
  have hfrac : (whole : ℚ) * frac * fine < (q * thresh + thresh) * fine := by gcongr
  have hfloor : (q : ℚ) * thresh * fine ≤ whole * frac * fine := by gcongr
  have hprod : (0 : ℚ) < fine * thresh := by positivity
  rw [hvalue]
  push_cast
  constructor
  · rw [div_lt_iff₀ hprod]
    linarith
  · rw [sub_lt_iff_lt_add, ← add_div, lt_div_iff₀ hprod]
    linarith

theorem setting_close (hlimit : 0 < limit) (hfine : 0 < fine) (hrest : rest < whole)
    (hroom : Nat.gcd whole rest = 1 → Roomy limit whole) :
    value fine whole (setting limit fine whole rest) < rest + 1 ∧
      rest - whole / (fine * (setting limit fine whole rest).thresh) <
        value fine whole (setting limit fine whole rest) := by
  have hclose := close_setting hlimit hrest hroom
  exact value_close hfine (by omega) hclose.pos (lower_le hclose)

-- a fraction that fits is kept as it is
theorem setting_exact (hrest : rest < whole)
    (h : whole / Nat.gcd whole rest ≤ limit) :
    value fine whole (setting limit fine whole rest) = rest := by
  have hg : 0 < Nat.gcd whole rest := divisor_pos hrest
  have hpos : 0 < whole / Nat.gcd whole rest := whole_pos hrest
  have hcross : whole * (rest / Nat.gcd whole rest) = rest * (whole / Nat.gcd whole rest) := by
    rw [← Nat.mul_div_assoc _ (Nat.gcd_dvd_right whole rest),
      ← Nat.mul_div_assoc _ (Nat.gcd_dvd_left whole rest), Nat.mul_comm]
  have hquot : whole * (rest / Nat.gcd whole rest) / (whole / Nat.gcd whole rest) = rest := by
    rw [hcross, Nat.mul_div_cancel _ hpos]
  have hset : setting limit fine whole rest =
      ⟨whole / Nat.gcd whole rest, rest / Nat.gcd whole rest, 0⟩ := by
    simp [setting, shrink_eq_one hpos h, rounded_one, lower, missing, hquot]
  have hcross : (whole : ℚ) * (rest / Nat.gcd whole rest : Nat) =
      rest * (whole / Nat.gcd whole rest : Nat) := by exact_mod_cast hcross
  have hpos : (0 : ℚ) < (whole / Nat.gcd whole rest : Nat) := by exact_mod_cast hpos
  rw [hset, value]
  simp only [Nat.cast_zero, zero_div, add_zero]
  rw [hcross, mul_div_cancel_right₀ _ hpos.ne']

theorem le_two_mul_thresh (fine : Nat) (hlimit : 0 < limit) (hrest : rest < whole)
    (h : limit < whole / Nat.gcd whole rest) :
    limit ≤ 2 * (setting limit fine whole rest).thresh := by
  have ha : 0 < shrink limit (whole / Nat.gcd whole rest) := shrink_pos hlimit (whole_pos hrest)
  have hmul : limit * shrink limit (whole / Nat.gcd whole rest) ≤
      whole / Nat.gcd whole rest + (limit - 1) := Nat.mul_div_le _ _
  have hround := le_rounded ha (whole / Nat.gcd whole rest)
  have hcover := le_mul_shrink hlimit (whole / Nat.gcd whole rest)
  change limit ≤ 2 * rounded _ (shrink limit _)
  generalize shrink limit (whole / Nat.gcd whole rest) = a at *
  generalize whole / Nat.gcd whole rest = x at *
  obtain ⟨b, rfl⟩ : ∃ b, a = b + 2 := by
    refine Nat.exists_eq_add_of_le' ?_
    by_contra hlt
    obtain rfl : a = 1 := by omega
    omega
  obtain ⟨l, rfl⟩ := Nat.exists_eq_add_of_lt hlimit
  by_contra hgt
  have hover : (b + 2) * (2 * rounded x (b + 2)) ≤ (b + 2) * (0 + l) :=
    Nat.mul_le_mul_left _ (by omega)
  simp only [Nat.zero_add, Nat.add_sub_cancel] at *
  ring_nf at *
  omega

end Setting

end FractionalN
