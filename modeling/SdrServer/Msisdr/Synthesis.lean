import SdrServer.Msisdr.Soft

namespace SdrServer
namespace Msisdr

theorem gcdLoop_toNat (a b : UInt64) : (gcdLoop a b).toNat = Nat.gcd a.toNat b.toNat := by
  induction a, b using gcdLoop.induct with
  | case1 b =>
    rw [gcdLoop]
    simp
  | case2 a b ha ih =>
    rw [gcdLoop, if_neg ha, ih, UInt64.toNat_mod, ← Nat.gcd_rec]

section Steps

variable {target loDiv n thresh frac : UInt64} {whole : Nat}

-- 96 MHz divided by the divider of the band
structure Divides (loDiv : UInt64) (whole : Nat) : Prop where
  product : loDiv.toNat * whole = 96000000
  large : 3000000 ≤ whole

theorem Divides.pos (h : Divides loDiv whole) : 0 < loDiv.toNat := by
  have := h.product
  rcases Nat.eq_zero_or_pos loDiv.toNat with h0 | h0
  · rw [h0] at this
    omega
  · exact h0

theorem Divides.le (h : Divides loDiv whole) : loDiv.toNat ≤ 32 := by
  have hmul : loDiv.toNat * 3000000 ≤ loDiv.toNat * whole := Nat.mul_le_mul_left _ h.large
  rw [h.product] at hmul
  omega

theorem Divides.whole_le (h : Divides loDiv whole) : whole ≤ 96000000 := by
  have hmul : 1 * whole ≤ loDiv.toNat * whole := Nat.mul_le_mul_right _ h.pos
  rw [h.product] at hmul
  omega

theorem fvco_toNat (h : Divides loDiv whole) (ht : target.toNat < 2 ^ 33) :
    (target * loDiv).toNat = target.toNat * loDiv.toNat := by
  have hle : target.toNat * loDiv.toNat ≤ 2 ^ 33 * 32 := Nat.mul_le_mul ht.le h.le
  rw [UInt64.toNat_mul, Nat.mod_eq_of_lt (by omega)]

theorem n_toNat (h : Divides loDiv whole) (ht : target.toNat < 2 ^ 33) :
    (target * loDiv / 96000000).toNat = target.toNat / whole := by
  rw [UInt64.toNat_div, fvco_toNat h ht]
  change _ / 96000000 = _
  rw [← h.product, Nat.mul_comm loDiv.toNat, Nat.mul_div_mul_right _ _ h.pos]

theorem thresh_toNat (h : Divides loDiv whole) : ((96000000 : UInt64) / loDiv).toNat = whole := by
  rw [UInt64.toNat_div]
  change 96000000 / _ = _
  rw [← h.product, Nat.mul_div_cancel_left _ h.pos]

theorem frac_toNat (h : Divides loDiv whole) (ht : target.toNat < 2 ^ 33) :
    (target * loDiv % 96000000 / loDiv).toNat = target.toNat % whole := by
  rw [UInt64.toNat_div, UInt64.toNat_mod, fvco_toNat h ht]
  change _ % 96000000 / _ = _
  rw [← h.product, Nat.mul_comm loDiv.toNat, Nat.mul_mod_mul_right, Nat.mul_div_cancel _ h.pos]

theorem shrink_toNat {x : UInt64} (hx : x.toNat ≤ 96000000) :
    ((x + 4094) / 4095).toNat = FractionalN.shrink 4095 x.toNat := by
  rw [UInt64.toNat_div, UInt64.toNat_add]
  change (x.toNat + 4094) % 2 ^ 64 / 4095 = (x.toNat + (4095 - 1)) / 4095
  rw [Nat.mod_eq_of_lt (by omega)]

theorem rounded_toNat {x a : UInt64} (hx : x.toNat ≤ 96000000) (ha : a.toNat ≤ 96000000) :
    ((x + a / 2) / a).toNat = FractionalN.rounded x.toNat a.toNat := by
  rw [UInt64.toNat_div, UInt64.toNat_add, UInt64.toNat_div]
  change (x.toNat + a.toNat / 2) % 2 ^ 64 / a.toNat = (x.toNat + a.toNat / 2) / a.toNat
  rw [Nat.mod_eq_of_lt (by omega)]

-- the factor 4096 falls out again, and no product leaves 64 bits
theorem rfvco_toNat (h : Divides loDiv whole) (hpos : 0 < thresh.toNat)
    (hthresh : thresh.toNat ≤ 4095) (hfrac : frac.toNat ≤ 4095) (hn : n.toNat < 2864) :
    (rfvco loDiv n thresh frac 0).toNat =
      n.toNat * whole + whole * frac.toNat / thresh.toNat := by
  have hnt : n.toNat * thresh.toNat ≤ 2863 * 4095 := Nat.mul_le_mul (by omega) hthresh
  have htl : thresh.toNat * 4096 * loDiv.toNat ≤ 4095 * 4096 * 32 :=
    Nat.mul_le_mul (Nat.mul_le_mul_right _ hthresh) h.le
  have hnum : (96000000 * (n * thresh * 4096 + (frac * 4096 + 0)) : UInt64).toNat =
      whole * (n.toNat * thresh.toNat + frac.toNat) * (4096 * loDiv.toNat) := by
    have hsum : (n * thresh * 4096 + (frac * 4096 + 0) : UInt64).toNat =
        (n.toNat * thresh.toNat + frac.toNat) * 4096 := by
      simp only [UInt64.toNat_add, UInt64.toNat_mul, UInt64.reduceToNat]
      omega
    rw [UInt64.toNat_mul, hsum]
    change 96000000 * ((n.toNat * thresh.toNat + frac.toNat) * 4096) % 2 ^ 64 = _
    rw [Nat.mod_eq_of_lt (by omega), ← h.product]
    ring
  have hden : (thresh * 4096 * loDiv : UInt64).toNat = thresh.toNat * (4096 * loDiv.toNat) := by
    simp only [UInt64.toNat_mul, UInt64.reduceToNat]
    rw [Nat.mod_eq_of_lt (a := thresh.toNat * 4096) (by omega), Nat.mod_eq_of_lt (by omega),
      Nat.mul_assoc]
  rw [rfvco, UInt64.toNat_div, hnum, hden,
    Nat.mul_div_mul_right _ _ (Nat.mul_pos (by decide) h.pos), Nat.mul_add, Nat.mul_comm n.toNat,
    Nat.mul_comm n.toNat, Nat.mul_left_comm, Nat.mul_add_div hpos]

theorem lower_toNat (h : Divides loDiv whole) (ht : target.toNat < 2 ^ 33)
    (hn : n.toNat = target.toNat / whole) (hpos : 0 < thresh.toNat) (hthresh : thresh.toNat ≤ 4095)
    (hfrac : frac.toNat ≤ 4095) :
    (if target < rfvco loDiv n thresh frac 0 then frac - 1 else frac).toNat =
      FractionalN.lower whole (target.toNat % whole) thresh.toNat frac.toNat := by
  have hlarge := h.large
  have hrfvco := rfvco_toNat (n := n) h hpos hthresh hfrac (by
    rw [hn, Nat.div_lt_iff_lt_mul (by omega)]
    omega)
  have hsplit := Nat.div_add_mod target.toNat whole
  rw [Nat.mul_comm, ← hn] at hsplit
  have hiff : target < rfvco loDiv n thresh frac 0 ↔
      target.toNat % whole < whole * frac.toNat / thresh.toNat := by
    rw [UInt64.lt_iff_toNat_lt, hrfvco]
    omega
  unfold FractionalN.lower
  by_cases hlt : target.toNat % whole < whole * frac.toNat / thresh.toNat
  · have hzero : frac.toNat ≠ 0 := by
      intro hzero
      simp [hzero] at hlt
    rw [if_pos (hiff.mpr hlt), if_pos hlt, UInt64.toNat_sub_of_le]
    · rfl
    · rw [UInt64.le_iff_toNat_le]
      change 1 ≤ frac.toNat
      omega
  · rw [if_neg (fun hc => hlt (hiff.mp hc)), if_neg hlt]

theorem missing_toNat (h : Divides loDiv whole) (ht : target.toNat < 2 ^ 33)
    (hn : n.toNat = target.toNat / whole) (hpos : 0 < thresh.toNat) (hthresh : thresh.toNat ≤ 4095)
    (hfrac : frac.toNat ≤ 4095) (hle : whole * frac.toNat / thresh.toNat ≤ target.toNat % whole)
    (hgap : (target.toNat % whole - whole * frac.toNat / thresh.toNat) * thresh.toNat < whole) :
    ((target - rfvco loDiv n thresh frac 0) * thresh * 4096 * loDiv / 96000000).toNat =
      FractionalN.missing 4096 whole (target.toNat % whole) thresh.toNat frac.toNat := by
  have hlarge := h.large
  have hwhole := h.whole_le
  have hrfvco := rfvco_toNat (n := n) h hpos hthresh hfrac (by
    rw [hn, Nat.div_lt_iff_lt_mul (by omega)]
    omega)
  have hsplit := Nat.div_add_mod target.toNat whole
  rw [Nat.mul_comm, ← hn] at hsplit
  have hdiff : (target - rfvco loDiv n thresh frac 0).toNat =
      target.toNat % whole - whole * frac.toNat / thresh.toNat := by
    rw [UInt64.toNat_sub_of_le, hrfvco]
    · omega
    · rw [UInt64.le_iff_toNat_le, hrfvco]
      omega
  unfold FractionalN.missing
  generalize whole * frac.toNat / thresh.toNat = quotient at hdiff hgap
  generalize target.toNat % whole - quotient = gap at hdiff hgap
  have hfine : gap * thresh.toNat * 4096 * loDiv.toNat ≤ 96000000 * 4096 * 32 :=
    Nat.mul_le_mul (Nat.mul_le_mul_right _ (by omega)) h.le
  have hnum : ((target - rfvco loDiv n thresh frac 0) * thresh * 4096 * loDiv : UInt64).toNat =
      gap * thresh.toNat * 4096 * loDiv.toNat := by
    simp only [UInt64.toNat_mul, hdiff, UInt64.reduceToNat]
    rw [Nat.mod_eq_of_lt (a := gap * thresh.toNat) (by omega),
      Nat.mod_eq_of_lt (a := gap * thresh.toNat * 4096) (by omega), Nat.mod_eq_of_lt (by omega)]
  rw [UInt64.toNat_div, hnum]
  change _ / 96000000 = _
  rw [← h.product, Nat.mul_comm loDiv.toNat, Nat.mul_div_mul_right _ _ h.pos]

end Steps

def Synthesis.toFractionalN (s : Synthesis) : FractionalN :=
  ⟨s.thresh.toNat, s.frac.toNat, s.afc.toNat⟩

theorem synthesise_n {target loDiv : UInt64} {whole : Nat} (h : Divides loDiv whole)
    (ht : target.toNat < 2 ^ 33) : (synthesise target loDiv).n.toNat = target.toNat / whole :=
  n_toNat h ht

theorem synthesise_setting {target loDiv : UInt64} {whole : Nat} (h : Divides loDiv whole)
    (ht : target.toNat < 2 ^ 33)
    (hroom : Nat.gcd whole (target.toNat % whole) = 1 → FractionalN.Roomy 4095 whole) :
    (synthesise target loDiv).toFractionalN =
      FractionalN.setting 4095 4096 whole (target.toNat % whole) := by
  have hlarge := h.large
  have hwhole := h.whole_le
  have hrest : target.toNat % whole < whole := Nat.mod_lt _ (by omega)
  have hclose := FractionalN.close_setting (show 0 < 4095 by decide) hrest hroom
  have hmax := FractionalN.thresh_le 4096 (show 0 < 4095 by decide) hrest
  have hn := n_toNat h ht
  have hb : (gcdLoop (96000000 / loDiv) (target * loDiv % 96000000 / loDiv)).toNat =
      Nat.gcd whole (target.toNat % whole) := by
    rw [gcdLoop_toNat, thresh_toNat h, frac_toNat h ht]
  have hx : (96000000 / loDiv / gcdLoop (96000000 / loDiv)
      (target * loDiv % 96000000 / loDiv)).toNat =
      whole / Nat.gcd whole (target.toNat % whole) := by
    rw [UInt64.toNat_div, thresh_toNat h, hb]
  have hy : (target * loDiv % 96000000 / loDiv / gcdLoop (96000000 / loDiv)
      (target * loDiv % 96000000 / loDiv)).toNat =
      target.toNat % whole / Nat.gcd whole (target.toNat % whole) := by
    rw [UInt64.toNat_div, frac_toNat h ht, hb]
  have hxle : whole / Nat.gcd whole (target.toNat % whole) ≤ whole := Nat.div_le_self _ _
  have hyle : target.toNat % whole / Nat.gcd whole (target.toNat % whole) ≤
      whole / Nat.gcd whole (target.toNat % whole) := Nat.div_le_div_right hrest.le
  simp only [FractionalN.setting] at hmax ⊢
  simp only [synthesise, Synthesis.toFractionalN]
  generalize 96000000 / loDiv / gcdLoop (96000000 / loDiv)
    (target * loDiv % 96000000 / loDiv) = x at *
  generalize target * loDiv % 96000000 / loDiv / gcdLoop (96000000 / loDiv)
    (target * loDiv % 96000000 / loDiv) = y at *
  rw [← hx, ← hy] at hclose hyle
  rw [← hx] at hxle hmax
  simp only [← hx, ← hy]
  have ha := shrink_toNat (x := x) (by omega)
  rw [← ha] at hclose hmax ⊢
  have hale : ((x + 4094) / 4095).toNat ≤ 96000000 := by
    rw [ha]
    apply Nat.div_le_of_le_mul
    omega
  generalize (x + 4094) / 4095 = a at *
  have hthresh := rounded_toNat (x := x) (a := a) (by omega) hale
  have hfrac := rounded_toNat (x := y) (a := a) (by omega) hale
  have hmono : FractionalN.rounded y.toNat a.toNat ≤ FractionalN.rounded x.toNat a.toNat :=
    Nat.div_le_div_right (by omega)
  rw [← hthresh, ← hfrac] at hclose hmono ⊢
  rw [← hthresh] at hmax
  generalize (x + a / 2) / a = thresh at *
  generalize (y + a / 2) / a = frac at *
  have hlower := lower_toNat h ht hn hclose.pos hmax (hmono.trans hmax)
  have hle := FractionalN.lower_le hclose
  have hgap := FractionalN.lower_gap hclose
  have hlt := FractionalN.lower_lt hrest hclose
  rw [← hlower] at hle hgap hlt ⊢
  rw [missing_toNat h ht hn hclose.pos hmax (by omega) hle hgap]

end Msisdr
end SdrServer
