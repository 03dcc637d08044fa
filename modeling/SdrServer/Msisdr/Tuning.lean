import SdrServer.Msisdr.Synthesis

namespace SdrServer
namespace Msisdr

-- the bands that are not mixed up, with their dividers and where the next one starts at last
def directBands : List (Int32 × UInt32 × Nat) :=
  [(modeVhf, 32, 112000000), (modeB3, 16, 261000000), (6, 8, 404000000), (modeB45, 4, 1000000000),
    (modeBl, 2, 4294967296)]

inductive Planned (freq : Nat) (plan : FreqPlan) : Prop
  | am (mode : plan.mode = modeAm) (upconvert : plan.upconvertMixerOn = 1) (port : plan.amPort = 1)
      (below : freq < 50000000) : Planned freq plan
  | direct (upper : Nat) (band : (plan.mode, plan.loDiv, upper) ∈ directBands)
      (upconvert : plan.upconvertMixerOn = 0) (below : freq < upper) : Planned freq plan

theorem switchIndex_pair (freq : UInt32) (rest : List FreqPlan) (first : FreqPlan)
    (hcut : 1000000 * first.lowCut ≤ freq) (hmode : ¬ first.mode < 0)
    (hlast : ∃ q ∈ rest, q.mode < 0) :
    ∃ q, ((first :: rest).getD (switchIndex freq (first :: rest) - 1) noPlan, q) ∈
        (first :: rest).zip rest ∧ (q.mode < 0 ∨ freq < 1000000 * q.lowCut) ∧
      1000000 * ((first :: rest).getD (switchIndex freq (first :: rest) - 1) noPlan).lowCut ≤ freq := by
  induction rest generalizing first with
  | nil => simp at hlast
  | cons q rest ih =>
    have hindex : switchIndex freq (first :: q :: rest) = switchIndex freq (q :: rest) + 1 := by
      rw [switchIndex, if_pos hcut, if_neg hmode]
    rw [hindex, Nat.add_sub_cancel]
    by_cases hstop : q.mode < 0 ∨ freq < 1000000 * q.lowCut
    · have hzero : switchIndex freq (q :: rest) = 0 := by
        rw [switchIndex]
        rcases hstop with hneg | hlt
        · rw [if_pos hneg, ite_self]
        · rw [if_neg (by simpa using hlt)]
      refine ⟨q, ?_, hstop, ?_⟩
      · simp [hzero]
      · rw [hzero]
        exact hcut
    · obtain ⟨hneg, hge⟩ := not_or.mp hstop
      have hcut' : 1000000 * q.lowCut ≤ freq := by simpa using hge
      have hlast' : ∃ r ∈ rest, r.mode < 0 := by
        obtain ⟨r, hr, hrneg⟩ := hlast
        rcases List.mem_cons.mp hr with rfl | hr
        · exact absurd hrneg hneg
        · exact ⟨r, hr, hrneg⟩
      obtain ⟨r, hpair, hr, hlow⟩ := ih q hcut' hneg hlast'
      have hsucc : switchIndex freq (q :: rest) =
          switchIndex freq (q :: rest) - 1 + 1 := by
        rw [switchIndex, if_pos hcut', if_neg hneg, Nat.add_sub_cancel]
      rw [hsucc, List.getD_cons_succ, List.zip_cons_cons]
      exact ⟨r, List.mem_cons_of_mem _ hpair, hr, hlow⟩

-- what an entry of a table and the one after it say about the frequencies between them
def Bordered (plan next : FreqPlan) : Prop :=
  (plan.mode = modeAm ∧ plan.upconvertMixerOn = 1 ∧ plan.amPort = 1 ∧ ¬ next.mode < 0 ∧
      (1000000 * next.lowCut).toNat ≤ 50000000) ∨
    ∃ b ∈ directBands, plan.mode = b.1 ∧ plan.loDiv = b.2.1 ∧ plan.upconvertMixerOn = 0 ∧
      (if next.mode < 0 then 4294967296 else (1000000 * next.lowCut).toNat) ≤ b.2.2

instance (plan next : FreqPlan) : Decidable (Bordered plan next) :=
  inferInstanceAs (Decidable (_ ∨ _))

theorem plans_bordered (flavour : HwFlavour) :
    ∀ pair ∈ (hwSwitchFreqPlan flavour).zip (hwSwitchFreqPlan flavour).tail,
      Bordered pair.1 pair.2 := by
  cases flavour <;> decide

theorem switchPlan_pair (flavour : HwFlavour) (freq : UInt32) :
    ∃ q, (switchPlan flavour freq, q) ∈
        (hwSwitchFreqPlan flavour).zip (hwSwitchFreqPlan flavour).tail ∧
      (q.mode < 0 ∨ freq < 1000000 * q.lowCut) ∧
      1000000 * (switchPlan flavour freq).lowCut ≤ freq := by
  cases flavour
  all_goals
    apply switchIndex_pair
    · exact UInt32.zero_le
    · decide
    · decide

-- the frequencies of mode 6
theorem switchPlan_gap {freq : UInt32} (h : (switchPlan .default freq).mode = 6) :
    259000000 ≤ freq.toNat ∧ freq.toNat < 330000000 := by
  obtain ⟨q, hmem, hq, hlow⟩ := switchPlan_pair .default freq
  have hgap : ∀ pair ∈ hwSwitchFreqPlanDefault.zip hwSwitchFreqPlanDefault.tail, pair.1.mode = 6 →
      pair.1.lowCut = 259 ∧ pair.2.lowCut = 330 ∧ ¬ pair.2.mode < 0 := by decide
  obtain ⟨hcut, hnext, hmode⟩ := hgap _ hmem h
  have hhigh := hq.resolve_left hmode
  rw [hcut] at hlow
  rw [hnext] at hhigh
  exact ⟨hlow, hhigh⟩

theorem switchPlan_planned (flavour : HwFlavour) (freq : UInt32) :
    Planned freq.toNat (switchPlan flavour freq) := by
  have hfreq := freq.toNat_lt
  obtain ⟨q, hmem, hq, -⟩ := switchPlan_pair flavour freq
  have hbordered : Bordered (switchPlan flavour freq) q := plans_bordered flavour _ hmem
  rcases hbordered with ⟨hmode, hup, hport, hnext, hcut⟩ |
    ⟨⟨mode, loDiv, upper⟩, hb, hmode, hdiv, hup, hcut⟩
  · refine .am hmode hup hport ?_
    have hlt := UInt32.lt_iff_toNat_lt.mp (hq.resolve_left hnext)
    omega
  · dsimp only at hcut
    refine .direct upper ?_ hup ?_
    · rw [hmode, hdiv]
      exact hb
    · by_cases hnext : q.mode < 0
      · rw [if_pos hnext] at hcut
        omega
      · rw [if_neg hnext] at hcut
        have hlt := UInt32.lt_iff_toNat_lt.mp (hq.resolve_left hnext)
        omega

-- what the tuner chip is programmed to
structure Tuner where
  mode : Nat
  upconvert : Nat
  port : Nat
  int : Nat
  frac : Nat
  thresh : Nat
  afc : Nat
  deriving DecidableEq, Repr

namespace Tuner

def ofWords (reg0 reg2 reg3 reg5 : Nat) : Tuner where
  mode := BitFields.read 4 5 reg0
  upconvert := BitFields.read 9 1 reg0
  port := BitFields.read 11 1 reg0
  int := BitFields.read 16 6 reg2
  frac := BitFields.read 4 12 reg2
  thresh := BitFields.read 4 12 reg5
  afc := BitFields.read 4 12 reg3

-- the local oscillator is the synthesizer divided down by what the mode says
def divider (t : Tuner) : Nat :=
  match t.mode with
  | 1 => 16
  | 2 => 32
  | 4 => 16
  | 6 => 8
  | 8 => 4
  | 16 => 2
  | _ => 1

def oscillator (t : Tuner) : ℚ :=
  96000000 * (t.int + (t.frac + t.afc / 4096) / t.thresh) / t.divider

-- the mixer before it moves what is received up by 120 MHz
def frequency (t : Tuner) : ℚ := t.oscillator - if t.upconvert = 1 then 120000000 else 0

structure Legal (t : Tuner) : Prop where
  thresh : 0 < t.thresh
  frac : t.frac < t.thresh

end Tuner

theorem softReg2_toNat (s : Synthesis) :
    (softReg2 s).toNat =
      BitFields.word [⟨0, 4, 2⟩, ⟨4, 12, s.frac.toNat % 2 ^ 12⟩, ⟨16, 6, s.n.toNat % 2 ^ 6⟩] := by
  have hfrac : ((0xFFF &&& s.frac) <<< 4).toUInt32.toNat = (s.frac.toNat % 2 ^ 12) <<< 4 :=
    masked_toNat s.frac 12 4 (by decide)
  have hn : ((0x3F &&& s.n) <<< 16).toUInt32.toNat = (s.n.toNat % 2 ^ 6) <<< 16 :=
    masked_toNat s.n 6 16 (by decide)
  rw [softReg2, UInt32.toNat_or, UInt32.toNat_or, UInt32.toNat_or, hfrac, hn]
  simp [BitFields.word, Nat.or_assoc, lbandLnaCalibrationOff]

theorem softReg3_toNat (s : Synthesis) :
    (softReg3 s).toNat = BitFields.word [⟨0, 4, 3⟩, ⟨4, 12, s.afc.toNat % 2 ^ 12⟩] := by
  have hafc : ((4095 &&& s.afc) <<< 4).toUInt32.toNat = (s.afc.toNat % 2 ^ 12) <<< 4 :=
    masked_toNat s.afc 12 4 (by decide)
  rw [softReg3, UInt32.toNat_or, UInt64.and_comm, hafc]
  simp [BitFields.word]

theorem softReg5_toNat (s : Synthesis) :
    (softReg5 s).toNat =
      BitFields.word [⟨0, 4, 5⟩, ⟨4, 12, s.thresh.toNat % 2 ^ 12⟩, ⟨16, 6, 0x28⟩] := by
  have hthresh : ((0xFFF &&& s.thresh) <<< 4).toUInt32.toNat = (s.thresh.toNat % 2 ^ 12) <<< 4 :=
    masked_toNat s.thresh 12 4 (by decide)
  rw [softReg5, UInt32.toNat_or, UInt32.toNat_or, hthresh]
  simp [BitFields.word, Nat.or_assoc, rfSynthesizerReservedProgramming]

theorem ifMode_lt (f : IfFreq) : f.mode.toNat < 2 ^ 2 := by
  cases f <;> decide

theorem bandwidthSelect_lt (b : Bandwidth) : b.select.toNat < 2 ^ 3 := by
  cases b <;> decide

theorem xtalSelect_lt (x : Xtal) : x.select.toNat < 2 ^ 3 := by
  cases x <;> decide

-- only the mode and the mixer depend on the frequency
def reg0Fields (plan : FreqPlan) (p : Dev) : List BitField :=
  [⟨0, 4, 0⟩, ⟨4, 5, plan.mode.toUInt32.toNat⟩, ⟨9, 1, plan.upconvertMixerOn.toNat⟩,
    ⟨11, 1, plan.upconvertMixerOn.toNat⟩, ⟨10, 1, 1⟩, ⟨12, 2, p.ifFreq.mode.toNat⟩,
    ⟨14, 3, p.bandwidth.select.toNat⟩, ⟨17, 3, p.xtal.select.toNat⟩]

theorem directMode {plan : FreqPlan} {upper : Nat}
    (h : (plan.mode, plan.loDiv, upper) ∈ directBands) :
    plan.mode ≠ modeAm ∧ plan.mode.toUInt32.toNat < 2 ^ 5 := by
  simp only [directBands, List.mem_cons, Prod.mk.injEq, List.not_mem_nil, or_false] at h
  rcases h with ⟨h, -⟩ | ⟨h, -⟩ | ⟨h, -⟩ | ⟨h, -⟩ | ⟨h, -⟩ <;> rw [h] <;> decide

theorem reg0Fields_fits {freq : Nat} {plan : FreqPlan} (h : Planned freq plan) (p : Dev) :
    BitFields.Fits (reg0Fields plan p) := by
  have hmode : plan.mode.toUInt32.toNat < 2 ^ 5 ∧ plan.upconvertMixerOn.toNat < 2 ^ 1 := by
    cases h with
    | am hmode hup =>
      rw [hmode, hup]
      decide
    | direct upper hband hup =>
      rw [hup]
      exact ⟨(directMode hband).2, by decide⟩
  simp only [reg0Fields, BitFields.fits_cons]
  exact ⟨by decide, hmode.1, hmode.2, hmode.2, by decide, ifMode_lt _, bandwidthSelect_lt _, xtalSelect_lt _,
    by simp [BitFields.Fits]⟩

theorem softReg0_toNat {freq : Nat} {plan : FreqPlan} (h : Planned freq plan) (p : Dev) :
    (softReg0 plan p).toNat = BitFields.word (reg0Fields plan p) := by
  have hif : (p.ifFreq.mode <<< 12).toNat = p.ifFreq.mode.toNat <<< 12 :=
    shifted_toNat (ifMode_lt _) (by decide)
  have hbw : (p.bandwidth.select <<< 14).toNat = p.bandwidth.select.toNat <<< 14 :=
    shifted_toNat (bandwidthSelect_lt _) (by decide)
  have hxtal : (p.xtal.select <<< 17).toNat = p.xtal.select.toNat <<< 17 :=
    shifted_toNat (xtalSelect_lt _) (by decide)
  simp only [softReg0, UInt32.toNat_or, hif, hbw, hxtal]
  cases h with
  | am hmode hup hport =>
    have ham : modeAm.toUInt32.toNat = 1 := rfl
    simp [hmode, hup, hport, ham, reg0Fields, ← Nat.or_assoc, rfSynthesizerOn, ifLpmodeNormal,
      vcoLpmodeNormal]
  | direct upper hband hup =>
    obtain ⟨hne, hlt⟩ := directMode hband
    have hmode : (plan.mode.toUInt32 <<< 4).toNat = plan.mode.toUInt32.toNat <<< 4 :=
      shifted_toNat hlt (by decide)
    simp [hne, hmode, hup, reg0Fields, Nat.or_assoc, rfSynthesizerOn, ifLpmodeNormal,
      vcoLpmodeNormal]

def tunerOf (p : Dev) : Tuner :=
  Tuner.ofWords (softReg0 (planOf p) p).toNat (softReg2 (synthesisOf p)).toNat
    (softReg3 (synthesisOf p)).toNat (softReg5 (synthesisOf p)).toNat

theorem tunerOf_eq (p : Dev) :
    tunerOf p = ⟨(planOf p).mode.toUInt32.toNat, (planOf p).upconvertMixerOn.toNat,
      (planOf p).upconvertMixerOn.toNat, (synthesisOf p).n.toNat % 2 ^ 6, (synthesisOf p).frac.toNat % 2 ^ 12,
      (synthesisOf p).thresh.toNat % 2 ^ 12, (synthesisOf p).afc.toNat % 2 ^ 12⟩ := by
  have hplanned : Planned p.freq.toNat (planOf p) := switchPlan_planned _ _
  have hfits := reg0Fields_fits hplanned p
  have h0 : (reg0Fields (planOf p) p).Pairwise BitFields.Apart := by
    simp [reg0Fields, BitFields.Apart]
  have hmod : ∀ x k : Nat, x % 2 ^ k < 2 ^ k := fun x k => Nat.mod_lt x (Nat.two_pow_pos k)
  have h2 : BitFields.Fits [⟨0, 4, 2⟩, ⟨4, 12, (synthesisOf p).frac.toNat % 2 ^ 12⟩,
      ⟨16, 6, (synthesisOf p).n.toNat % 2 ^ 6⟩] := by
    simp only [BitFields.fits_cons]
    exact ⟨by decide, hmod _ _, hmod _ _, by simp [BitFields.Fits]⟩
  have h3 : BitFields.Fits [⟨0, 4, 3⟩, ⟨4, 12, (synthesisOf p).afc.toNat % 2 ^ 12⟩] := by
    simp only [BitFields.fits_cons]
    exact ⟨by decide, hmod _ _, by simp [BitFields.Fits]⟩
  have h5 : BitFields.Fits [⟨0, 4, 5⟩, ⟨4, 12, (synthesisOf p).thresh.toNat % 2 ^ 12⟩,
      ⟨16, 6, 0x28⟩] := by
    simp only [BitFields.fits_cons]
    exact ⟨by decide, hmod _ _, by decide, by simp [BitFields.Fits]⟩
  rw [tunerOf, Tuner.ofWords, softReg0_toNat hplanned, softReg2_toNat, softReg3_toNat,
    softReg5_toNat, Tuner.mk.injEq]
  refine ⟨?_, ?_, ?_, ?_, ?_, ?_, ?_⟩
  · exact BitFields.read_word (f := ⟨4, 5, (planOf p).mode.toUInt32.toNat⟩) hfits h0
      (by simp [reg0Fields])
  · exact BitFields.read_word (f := ⟨9, 1, (planOf p).upconvertMixerOn.toNat⟩) hfits h0
      (by simp [reg0Fields])
  · exact BitFields.read_word (f := ⟨11, 1, (planOf p).upconvertMixerOn.toNat⟩) hfits h0
      (by simp [reg0Fields])
  · exact BitFields.read_word (f := ⟨16, 6, (synthesisOf p).n.toNat % 2 ^ 6⟩) h2
      (by simp [BitFields.Apart]) (by simp)
  · exact BitFields.read_word (f := ⟨4, 12, (synthesisOf p).frac.toNat % 2 ^ 12⟩) h2
      (by simp [BitFields.Apart]) (by simp)
  · exact BitFields.read_word (f := ⟨4, 12, (synthesisOf p).thresh.toNat % 2 ^ 12⟩) h5
      (by simp [BitFields.Apart]) (by simp)
  · exact BitFields.read_word (f := ⟨4, 12, (synthesisOf p).afc.toNat % 2 ^ 12⟩) h3
      (by simp [BitFields.Apart]) (by simp)

-- what is divided down, and by how much, in the band of `plan`
structure Stepped (freq : Nat) (plan : FreqPlan) (t : Tuner) (whole : Nat) : Prop where
  divides : Divides (loDivOf plan) whole
  divider : t.divider * whole = 96000000
  roomy : FractionalN.Roomy 4095 whole
  small : whole ≤ 48000000
  offset : (offsetOf plan).toNat = if t.upconvert = 1 then 120000000 else 0
  int : freq < 3072000000 → (freq + (offsetOf plan).toNat) / whole < 64

-- the five dividers there are
theorem roomy_whole :
    ∀ whole ∈ [3000000, 6000000, 12000000, 24000000, 48000000], FractionalN.Roomy 4095 whole := by
  decide +kernel

theorem Planned.stepped {freq : Nat} {plan : FreqPlan} (h : Planned freq plan) {t : Tuner}
    (hmode : t.mode = plan.mode.toUInt32.toNat) (hup : t.upconvert = plan.upconvertMixerOn.toNat) :
    ∃ whole, Stepped freq plan t whole := by
  cases h with
  | am ham hmixer hport hbelow =>
    have hoffset : (offsetOf plan).toNat = 120000000 := by simp [offsetOf, ham, hmixer]
    have hdiv : (loDivOf plan).toNat = 16 := by simp [loDivOf, ham]
    have hone : t.upconvert = 1 := by simp [hup, hmixer]
    have htmode : t.mode = 1 := by
      rw [hmode, ham]
      rfl
    refine ⟨6000000, ⟨?_, ?_⟩, ?_, roomy_whole _ (by decide), by decide, ?_, ?_⟩
    · rw [hdiv]
    · decide
    · simp [Tuner.divider, htmode]
    · rw [hoffset, if_pos hone]
    · rw [hoffset]
      omega
  | direct upper hband hmixer hbelow =>
    have hne : plan.mode ≠ modeAm := (directMode hband).1
    have hoffset : (offsetOf plan).toNat = 0 := by simp [offsetOf, hne]
    have hdiv : (loDivOf plan).toNat = plan.loDiv.toNat := by simp [loDivOf, hne]
    have hzero : ¬ t.upconvert = 1 := by simp [hup, hmixer]
    simp only [directBands, List.mem_cons, Prod.mk.injEq, List.not_mem_nil, or_false] at hband
    have hstep : ∃ whole ∈ [3000000, 6000000, 12000000, 24000000, 48000000],
        plan.loDiv.toNat * whole = 96000000 ∧ t.divider * whole = 96000000 ∧
          (freq < 3072000000 → freq / whole < 64) := by
      rcases hband with ⟨hm, hl, rfl⟩ | ⟨hm, hl, rfl⟩ | ⟨hm, hl, rfl⟩ | ⟨hm, hl, rfl⟩ |
        ⟨hm, hl, rfl⟩ <;> rw [hm] at hmode
      · have htmode : t.mode = 2 := hmode
        exact ⟨3000000, by simp, by rw [hl]; rfl, by simp [Tuner.divider, htmode], by omega⟩
      · have htmode : t.mode = 4 := hmode
        exact ⟨6000000, by simp, by rw [hl]; rfl, by simp [Tuner.divider, htmode], by omega⟩
      · have htmode : t.mode = 6 := hmode
        exact ⟨12000000, by simp, by rw [hl]; rfl, by simp [Tuner.divider, htmode], by omega⟩
      · have htmode : t.mode = 8 := hmode
        exact ⟨24000000, by simp, by rw [hl]; rfl, by simp [Tuner.divider, htmode], by omega⟩
      · have htmode : t.mode = 16 := hmode
        exact ⟨48000000, by simp, by rw [hl]; rfl, by simp [Tuner.divider, htmode], by omega⟩
    obtain ⟨whole, hmem, hproduct, hdivider, hint⟩ := hstep
    have hbounds : 3000000 ≤ whole ∧ whole ≤ 48000000 := by
      simp only [List.mem_cons, List.not_mem_nil, or_false] at hmem
      omega
    refine ⟨whole, ⟨?_, hbounds.1⟩, hdivider, roomy_whole _ hmem, hbounds.2, ?_, ?_⟩
    · rw [hdiv, hproduct]
    · rw [hoffset, if_neg hzero]
    · rw [hoffset]
      exact hint

def Synthesis.tuner (s : Synthesis) (mode upconvert port : Nat) : Tuner :=
  ⟨mode, upconvert, port, s.n.toNat, s.frac.toNat, s.thresh.toNat, s.afc.toNat⟩

theorem value_error {whole rest : Nat} (hrest : rest < whole) (hsmall : whole ≤ 48000000)
    (hroom : FractionalN.Roomy 4095 whole) :
    FractionalN.value 4096 whole (FractionalN.setting 4095 4096 whole rest) < rest + 1 ∧
      rest - 6 < FractionalN.value 4096 whole (FractionalN.setting 4095 4096 whole rest) := by
  by_cases hfit : whole / Nat.gcd whole rest ≤ 4095
  · rw [FractionalN.setting_exact hrest hfit]
    exact ⟨by linarith, by linarith⟩
  · obtain ⟨hbelow, habove⟩ := FractionalN.setting_close (show 0 < 4095 by decide)
      (show 0 < 4096 by decide) hrest (fun _ => hroom)
    have hthresh := FractionalN.le_two_mul_thresh 4096 (show 0 < 4095 by decide) hrest
      (by omega)
    refine ⟨hbelow, ?_⟩
    have hlarge : (2048 : ℚ) ≤ (FractionalN.setting 4095 4096 whole rest).thresh := by
      have : 2048 ≤ (FractionalN.setting 4095 4096 whole rest).thresh := by omega
      exact_mod_cast this
    have hwhole : (whole : ℚ) ≤ 48000000 := by exact_mod_cast hsmall
    have hstep : (whole : ℚ) / ((4096 : Nat) *
        (FractionalN.setting 4095 4096 whole rest).thresh) < 6 := by
      rw [div_lt_iff₀ (by positivity)]
      push_cast
      linarith
    linarith

-- the oscillator is less than 6 Hz below the target and less than 1 Hz above it
theorem oscillator_close {target : UInt64} {whole freq : Nat} {plan : FreqPlan} {t : Tuner}
    (ht : t = (synthesise target (loDivOf plan)).tuner t.mode t.upconvert t.port)
    (hstep : Stepped freq plan t whole) (htarget : target.toNat < 2 ^ 33) :
    t.Legal ∧ (target.toNat : ℚ) - 6 < t.oscillator ∧ t.oscillator < target.toNat + 1 := by
  have hlarge := hstep.divides.large
  have hrest : target.toNat % whole < whole := Nat.mod_lt _ (by omega)
  have hn := synthesise_n hstep.divides htarget
  have hset := synthesise_setting hstep.divides htarget (fun _ => hstep.roomy)
  have hclose := FractionalN.close_setting (show 0 < 4095 by decide) hrest fun _ => hstep.roomy
  obtain ⟨hbelow, habove⟩ := value_error hrest hstep.small hstep.roomy
  rw [← hset] at hbelow habove
  have hint : t.int = target.toNat / whole := by
    rw [ht]
    exact hn
  have hthresh : t.thresh = (synthesise target (loDivOf plan)).thresh.toNat := by rw [ht]; rfl
  have hfrac : t.frac = (synthesise target (loDivOf plan)).frac.toNat := by rw [ht]; rfl
  have hafc : t.afc = (synthesise target (loDivOf plan)).afc.toNat := by rw [ht]; rfl
  have hvalue : FractionalN.value 4096 whole (synthesise target (loDivOf plan)).toFractionalN =
      whole * (t.frac + t.afc / 4096) / t.thresh := by
    rw [hthresh, hfrac, hafc]
    rfl
  have hpos : 0 < t.thresh := by
    rw [hthresh.trans (congrArg FractionalN.thresh hset)]
    exact hclose.pos
  have hlt : t.frac < t.thresh := by
    rw [hthresh.trans (congrArg FractionalN.thresh hset),
      hfrac.trans (congrArg FractionalN.frac hset)]
    exact FractionalN.lower_lt hrest hclose
  refine ⟨⟨hpos, hlt⟩, ?_⟩
  rw [hvalue] at hbelow habove
  have hdivider : (t.divider : ℚ) * whole = 96000000 := by exact_mod_cast hstep.divider
  have hne : (t.divider : ℚ) ≠ 0 := by
    intro h0
    rw [h0] at hdivider
    norm_num at hdivider
  have hosc : t.oscillator = t.int * whole + whole * (t.frac + t.afc / 4096) / t.thresh := by
    rw [Tuner.oscillator, ← hdivider]
    field_simp
  have hsplit : (target.toNat : ℚ) = t.int * whole + (target.toNat % whole : Nat) := by
    rw [hint]
    exact_mod_cast (Nat.div_add_mod' target.toNat whole).symm
  rw [hosc, hsplit]
  exact ⟨by linarith, by linarith⟩

theorem synthesis_fits {target : UInt64} {freq whole : Nat} {plan : FreqPlan} {t : Tuner}
    (hstep : Stepped freq plan t whole) (htarget : target.toNat < 2 ^ 33) :
    (synthesise target (loDivOf plan)).thresh.toNat < 2 ^ 12 ∧
      (synthesise target (loDivOf plan)).frac.toNat < 2 ^ 12 ∧
      (synthesise target (loDivOf plan)).afc.toNat < 2 ^ 12 := by
  have hlarge := hstep.divides.large
  have hrest : target.toNat % whole < whole := Nat.mod_lt _ (by omega)
  have hset := synthesise_setting hstep.divides htarget (fun _ => hstep.roomy)
  have hclose := FractionalN.close_setting (show 0 < 4095 by decide) hrest fun _ => hstep.roomy
  have hthresh : (synthesise target (loDivOf plan)).thresh.toNat =
      (FractionalN.setting 4095 4096 whole (target.toNat % whole)).thresh :=
    congrArg FractionalN.thresh hset
  have hfrac : (synthesise target (loDivOf plan)).frac.toNat =
      (FractionalN.setting 4095 4096 whole (target.toNat % whole)).frac :=
    congrArg FractionalN.frac hset
  have hafc : (synthesise target (loDivOf plan)).afc.toNat =
      (FractionalN.setting 4095 4096 whole (target.toNat % whole)).afc :=
    congrArg FractionalN.afc hset
  have hmax := FractionalN.thresh_le 4096 (show 0 < 4095 by decide) hrest
  have hlt : (FractionalN.setting 4095 4096 whole (target.toNat % whole)).frac <
      (FractionalN.setting 4095 4096 whole (target.toNat % whole)).thresh :=
    FractionalN.lower_lt hrest hclose
  have hmiss : (FractionalN.setting 4095 4096 whole (target.toNat % whole)).afc < 4096 :=
    FractionalN.missing_lt (by decide) hclose
  rw [hthresh, hfrac, hafc]
  omega

theorem targetOf_toNat {p : Dev} {t : Tuner} {whole : Nat}
    (hstep : Stepped p.freq.toNat (planOf p) t whole) :
    (p.freq.toUInt64 + offsetOf (planOf p)).toNat =
      p.freq.toNat + if t.upconvert = 1 then 120000000 else 0 := by
  have hfreq := p.freq.toNat_lt
  have hle : (if t.upconvert = 1 then 120000000 else 0) ≤ 120000000 := by
    split <;> omega
  rw [UInt64.toNat_add, hstep.offset, UInt32.toNat_toUInt64]
  omega

-- every field keeps what was computed for it, and the tuner is where it should be
theorem tunerOf_close (p : Dev) (hfreq : p.freq.toNat < 3072000000) :
    (tunerOf p).Legal ∧ (p.freq.toNat : ℚ) - 6 < (tunerOf p).frequency ∧
      (tunerOf p).frequency < p.freq.toNat + 1 := by
  have hplanned : Planned p.freq.toNat (planOf p) := switchPlan_planned _ _
  have heq := tunerOf_eq p
  obtain ⟨whole, hstep⟩ := hplanned.stepped (t := tunerOf p) (by rw [heq]) (by rw [heq])
  have htarget := targetOf_toNat hstep
  have hoffset : (if (tunerOf p).upconvert = 1 then 120000000 else 0) ≤ 120000000 := by
    split <;> omega
  have hlt : (p.freq.toUInt64 + offsetOf (planOf p)).toNat < 2 ^ 33 := by omega
  have hint : (synthesisOf p).n.toNat < 2 ^ 6 := by
    rw [synthesisOf, synthesise_n hstep.divides hlt, htarget, ← hstep.offset]
    exact hstep.int hfreq
  obtain ⟨hthresh, hfrac, hafc⟩ : (synthesisOf p).thresh.toNat < 2 ^ 12 ∧
      (synthesisOf p).frac.toNat < 2 ^ 12 ∧ (synthesisOf p).afc.toNat < 2 ^ 12 :=
    synthesis_fits hstep hlt
  have ht : tunerOf p = (synthesisOf p).tuner (tunerOf p).mode (tunerOf p).upconvert
      (tunerOf p).port := by
    rw [heq, Synthesis.tuner, Nat.mod_eq_of_lt hint, Nat.mod_eq_of_lt hfrac,
      Nat.mod_eq_of_lt hthresh, Nat.mod_eq_of_lt hafc]
  obtain ⟨hlegal, hlow, hhigh⟩ := oscillator_close ht hstep hlt
  refine ⟨hlegal, ?_⟩
  rw [htarget] at hlow hhigh
  rw [Tuner.frequency]
  push_cast at hlow hhigh
  exact ⟨by linarith, by linarith⟩

end Msisdr
end SdrServer
