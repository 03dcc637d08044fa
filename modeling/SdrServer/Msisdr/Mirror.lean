import SdrServer.Msisdr.Calls

namespace SdrServer
namespace Msisdr

theorem low_word {fs : List BitField} {k : Nat} (hfits : BitFields.Fits fs)
    (hapart : fs.Pairwise BitFields.Apart) (hmem : ⟨0, 4, k⟩ ∈ fs) : BitFields.word fs % 16 = k :=
  BitFields.read_word (f := ⟨0, 4, k⟩) hfits hapart hmem

theorem softReg0_word (p : Dev) :
    (softReg0 (planOf p) p).toNat % 16 = 0 ∧ (softReg0 (planOf p) p).toNat < 2 ^ 24 := by
  have hplanned : Planned p.freq.toNat (planOf p) := switchPlan_planned _ _
  have hfits := reg0Fields_fits hplanned p
  rw [softReg0_toNat hplanned]
  exact ⟨low_word hfits (by simp [reg0Fields, BitFields.Apart]) (by simp [reg0Fields]),
    BitFields.word_lt hfits (by simp [reg0Fields])⟩

theorem softReg2_word (s : Synthesis) :
    (softReg2 s).toNat % 16 = 2 ∧ (softReg2 s).toNat < 2 ^ 24 := by
  have hfits : BitFields.Fits [⟨0, 4, 2⟩, ⟨4, 12, s.frac.toNat % 2 ^ 12⟩,
      ⟨16, 6, s.n.toNat % 2 ^ 6⟩] := by
    simp only [BitFields.fits_cons]
    exact ⟨by decide, Nat.mod_lt _ (by decide), Nat.mod_lt _ (by decide), by simp [BitFields.Fits]⟩
  rw [softReg2_toNat]
  exact ⟨low_word hfits (by simp [BitFields.Apart]) (by simp),
    BitFields.word_lt hfits (by simp)⟩

theorem softReg3_word (s : Synthesis) :
    (softReg3 s).toNat % 16 = 3 ∧ (softReg3 s).toNat < 2 ^ 24 := by
  have hfits : BitFields.Fits [⟨0, 4, 3⟩, ⟨4, 12, s.afc.toNat % 2 ^ 12⟩] := by
    simp only [BitFields.fits_cons]
    exact ⟨by decide, Nat.mod_lt _ (by decide), by simp [BitFields.Fits]⟩
  rw [softReg3_toNat]
  exact ⟨low_word hfits (by simp [BitFields.Apart]) (by simp),
    BitFields.word_lt hfits (by simp)⟩

theorem softReg5_word (s : Synthesis) :
    (softReg5 s).toNat % 16 = 5 ∧ (softReg5 s).toNat < 2 ^ 24 := by
  have hfits : BitFields.Fits [⟨0, 4, 5⟩, ⟨4, 12, s.thresh.toNat % 2 ^ 12⟩, ⟨16, 6, 0x28⟩] := by
    simp only [BitFields.fits_cons]
    exact ⟨by decide, Nat.mod_lt _ (by decide), by decide, by simp [BitFields.Fits]⟩
  rw [softReg5_toNat]
  exact ⟨low_word hfits (by simp [BitFields.Apart]) (by simp),
    BitFields.word_lt hfits (by simp)⟩

theorem softRegD_word (p : Dev) :
    (softRegD p).toNat % 16 = 13 ∧ (softRegD p).toNat < 2 ^ 24 := by
  unfold softRegD
  split <;> decide

theorem gainReg1_word {p : Dev} (h : GainRange p) :
    (gainReg1 p).toNat % 16 = 1 ∧ (gainReg1 p).toNat < 2 ^ 24 := by
  have hfits := reg1Fields_fits h
  rw [gainReg1_toNat h]
  exact ⟨low_word hfits (by simp [reg1Fields, BitFields.Apart]) (by simp [reg1Fields]),
    BitFields.word_lt hfits (by simp [reg1Fields])⟩

theorem hardReg3Of_lt (p : Dev) : (hardReg3Of p).toNat < 2 ^ 24 := by
  rw [hardReg3Of, hardReg3_toNat]
  exact BitFields.word_lt (reg3Fields_fits _ _ _ _) (by simp [reg3Fields])

theorem hardReg4Of_lt (p : Dev) : (hardReg4Of p).toNat < 2 ^ 24 := by
  rw [hardReg4Of, hardReg4_toNat]
  omega

theorem register_tuner {w : UInt32} {k : Nat} (h : w.toNat % 16 = k ∧ w.toNat < 2 ^ 24) (p : Dev)
    (r : Register) :
    (writeReg p 0x09 w).register r = if r = .tuner k then some w.toNat else p.register r := by
  rw [register_writeReg, targetOf, if_pos rfl, h.1, Nat.mod_eq_of_lt h.2]
  simp only [eq_comm]

theorem register_usb {reg : UInt8} {w : UInt32} (hreg : reg ≠ 0x09) (h : w.toNat < 2 ^ 24) (p : Dev)
    (r : Register) :
    (writeReg p reg w).register r = if r = .usb reg then some w.toNat else p.register r := by
  rw [register_writeReg, targetOf, if_neg hreg, Nat.mod_eq_of_lt h]
  simp only [eq_comm]

-- the word of the antenna switch
theorem register_updateReg8 (p : Dev) (r : Register) (hr : r ≠ .usb 8) :
    (updateReg8 p).register r = p.register r := by
  rw [updateReg8, register_writeReg, targetOf, if_neg (show (0x08 : UInt8) ≠ 0x09 by decide),
    if_neg hr.symm]

-- each word ends up in a register of its own
theorem register_setSoft (p : Dev) {r : Register} (hr : r ≠ .usb 8) :
    (setSoft p).register r =
      if r = .tuner 13 then some (softRegD p).toNat
      else if r = .tuner 2 then some (softReg2 (synthesisOf p)).toNat
      else if r = .tuner 5 then some (softReg5 (synthesisOf p)).toNat
      else if r = .tuner 0 then some (softReg0 (planOf p) p).toNat
      else if r = .tuner 3 then some (softReg3 (synthesisOf p)).toNat
      else if r = .tuner 14 then some 14
      else p.register r := by
  have h14 : (0x0e : UInt32).toNat % 16 = 14 ∧ (0x0e : UInt32).toNat < 2 ^ 24 := by decide
  simp only [setSoft]
  rw [register_tuner (softRegD_word p), register_tuner (softReg2_word _),
    register_tuner (softReg5_word _), register_tuner (softReg0_word p),
    register_tuner (softReg3_word _), register_tuner h14, register_updateReg8 _ _ hr]
  rfl

theorem register_setGain {p : Dev} (h : GainRange p) (r : Register) :
    (setGain p).register r =
      if r = .tuner 6 then some gainReg6.toNat
      else if r = .tuner 1 then some (gainReg1 p).toNat
      else if r = .usb 8 then some 0xf380
      else p.register r := by
  have h6 : gainReg6.toNat % 16 = 6 ∧ gainReg6.toNat < 2 ^ 24 := by decide
  simp only [setGain]
  rw [register_tuner h6, register_tuner (gainReg1_word h),
    register_usb (by decide) (by decide)]
  rfl

theorem register_adcStop (p : Dev) {r : Register} (hr : r ≠ .usb 3) :
    (adcStop p).register r = p.register r := by
  rw [adcStop, register_usb (by decide) (by decide), if_neg hr]

theorem formatRegister_lt (f : Format) : f.register.toNat < 2 ^ 24 := by
  cases f <;> decide

theorem register_programHard (p : Dev) (r : Register) :
    (programHard p).register r =
      if r = .usb 3 then some (hardReg3Of (settled p)).toNat
      else if r = .usb 4 then some (hardReg4Of (settled p)).toNat
      else if r = .usb 7 then some (settled p).format.register.toNat
      else p.register r := by
  have hsettled : (settled p).register r = p.register r := by
    unfold settled
    dsimp only
    split <;> rfl
  simp only [programHard]
  rw [register_usb (by decide) (hardReg3Of_lt _), register_usb (by decide) (hardReg4Of_lt _),
    register_usb (by decide) (formatRegister_lt _), ← hsettled]
  rfl

structure SoftMirrored (p : Dev) : Prop where
  reg0 : p.register (.tuner 0) = some (softReg0 (planOf p) p).toNat
  reg2 : p.register (.tuner 2) = some (softReg2 (synthesisOf p)).toNat
  reg3 : p.register (.tuner 3) = some (softReg3 (synthesisOf p)).toNat
  reg5 : p.register (.tuner 5) = some (softReg5 (synthesisOf p)).toNat
  regd : p.register (.tuner 13) = some (softRegD p).toNat

structure GainMirrored (p : Dev) : Prop where
  range : GainRange p
  reg1 : p.register (.tuner 1) = some (gainReg1 p).toNat

structure HardMirrored (p : Dev) : Prop where
  low : 1300000 ≤ p.rate.toNat
  high : p.rate.toNat ≤ 15000000
  reg3 : p.register (.usb 3) = some (hardReg3Of p).toNat
  reg4 : p.register (.usb 4) = some (hardReg4Of p).toNat
  reg7 : p.register (.usb 7) = some p.format.register.toNat

-- the registers hold what the fields of the handle say
structure Mirrored (p : Dev) : Prop where
  soft : SoftMirrored p
  gain : GainMirrored p
  hard : HardMirrored p
  band : bandOf (planOf p) p.band = p.band
  port : p.band ≠ .am1

section Parts

variable {p : Dev}

-- the words of `q` are those of `p` when nothing they are made of differs
structure SameTuning (p q : Dev) : Prop where
  freq : q.freq = p.freq
  hwFlavour : q.hwFlavour = p.hwFlavour
  ifFreq : q.ifFreq = p.ifFreq
  bandwidth : q.bandwidth = p.bandwidth
  xtal : q.xtal = p.xtal

theorem SameTuning.planOf_eq {q : Dev} (h : SameTuning p q) : planOf q = planOf p := by
  rw [planOf, planOf, h.freq, h.hwFlavour]

theorem SameTuning.synthesisOf_eq {q : Dev} (h : SameTuning p q) : synthesisOf q = synthesisOf p := by
  rw [synthesisOf, synthesisOf, h.planOf_eq, h.freq]

theorem SameTuning.softReg0_eq {q : Dev} (h : SameTuning p q) :
    softReg0 (planOf q) q = softReg0 (planOf p) p := by
  simp only [softReg0, h.planOf_eq, h.ifFreq, h.bandwidth, h.xtal]

theorem SameTuning.softRegD_eq {q : Dev} (h : SameTuning p q) : softRegD q = softRegD p := by
  rw [softRegD, softRegD, h.bandwidth]

theorem sameTuning_setSoft (p : Dev) : SameTuning p (setSoft p) := by
  constructor <;> simp only [setSoft, updateReg8, writeReg]

theorem softMirrored_setSoft (p : Dev) : SoftMirrored (setSoft p) := by
  have hsame := sameTuning_setSoft p
  constructor
  · rw [hsame.softReg0_eq, register_setSoft p (by decide)]
    rfl
  · rw [hsame.synthesisOf_eq, register_setSoft p (by decide)]
    rfl
  · rw [hsame.synthesisOf_eq, register_setSoft p (by decide)]
    rfl
  · rw [hsame.synthesisOf_eq, register_setSoft p (by decide)]
    rfl
  · rw [hsame.softRegD_eq, register_setSoft p (by decide)]
    rfl

theorem SoftMirrored.of_registers {q : Dev} (h : SoftMirrored p)
    (hregister : ∀ k, k ∈ [0, 2, 3, 5, 13] → q.register (.tuner k) = p.register (.tuner k))
    (hsame : SameTuning p q) : SoftMirrored q := by
  constructor
  · rw [hregister 0 (by decide), hsame.softReg0_eq, h.reg0]
  · rw [hregister 2 (by decide), hsame.synthesisOf_eq, h.reg2]
  · rw [hregister 3 (by decide), hsame.synthesisOf_eq, h.reg3]
  · rw [hregister 5 (by decide), hsame.synthesisOf_eq, h.reg5]
  · rw [hregister 13 (by decide), hsame.softRegD_eq, h.regd]

theorem sameTuning_setGain (p : Dev) : SameTuning p (setGain p) := by
  constructor <;> simp only [setGain, writeReg]

theorem SoftMirrored.setGain (h : SoftMirrored p) (hrange : GainRange p) :
    SoftMirrored (setGain p) := by
  refine h.of_registers ?_ (sameTuning_setGain p)
  intro k hk
  rw [register_setGain hrange]
  simp only [List.mem_cons, List.not_mem_nil, or_false] at hk
  rcases hk with rfl | rfl | rfl | rfl | rfl <;> rfl

theorem settled_fields (p : Dev) :
    (settled p).freq = p.freq ∧ (settled p).hwFlavour = p.hwFlavour ∧
      (settled p).ifFreq = p.ifFreq ∧ (settled p).bandwidth = p.bandwidth ∧
      (settled p).xtal = p.xtal ∧ (settled p).band = p.band ∧
      (settled p).rate = limitRate p.rate := by
  unfold settled
  dsimp only
  split <;> exact ⟨rfl, rfl, rfl, rfl, rfl, rfl, rfl⟩

theorem sameTuning_programHard (p : Dev) : SameTuning p (programHard p) := by
  obtain ⟨hfreq, hflavour, hif, hbandwidth, hxtal, -, -⟩ := settled_fields p
  constructor <;> simp only [programHard, writeReg, hfreq, hflavour, hif, hbandwidth, hxtal]

theorem SoftMirrored.programHard (h : SoftMirrored p) : SoftMirrored (programHard p) := by
  refine h.of_registers ?_ (sameTuning_programHard p)
  intro k _
  rw [register_programHard]
  rfl

theorem gainMirrored_setGain (hrange : GainRange p) : GainMirrored (setGain p) where
  range := ⟨hrange.baseband, hrange.mixbuffer, hrange.mixer, hrange.lna⟩
  reg1 := by rw [register_setGain hrange]; rfl

structure SameGain (p q : Dev) : Prop where
  band : q.band = p.band
  baseband : q.gainReductionBaseband = p.gainReductionBaseband
  mixbuffer : q.gainReductionMixbuffer = p.gainReductionMixbuffer
  mixer : q.gainReductionMixer = p.gainReductionMixer
  lna : q.gainReductionLna = p.gainReductionLna

theorem SameGain.range {q : Dev} (h : SameGain p q) (hrange : GainRange p) : GainRange q where
  baseband := by rw [h.baseband]; exact hrange.baseband
  mixbuffer := by rw [h.mixbuffer]; exact hrange.mixbuffer
  mixer := by rw [h.mixer]; exact hrange.mixer
  lna := by rw [h.lna]; exact hrange.lna

theorem GainMirrored.of_registers {q : Dev} (h : GainMirrored p)
    (hregister : q.register (.tuner 1) = p.register (.tuner 1)) (hsame : SameGain p q) :
    GainMirrored q := by
  have hreg1 : gainReg1 q = gainReg1 p := by
    simp only [gainReg1, hsame.band, hsame.baseband, hsame.mixbuffer, hsame.mixer, hsame.lna]
  refine ⟨hsame.range h.range, ?_⟩
  rw [hregister, hreg1, h.reg1]

theorem hardMirrored_programHard (p : Dev) : HardMirrored (programHard p) := by
  have hrate : (programHard p).rate = limitRate p.rate := by
    simp only [programHard, writeReg, (settled_fields p).2.2.2.2.2.2]
  obtain ⟨hlow, hhigh⟩ := limitRate_bounds p.rate
  constructor
  · rwa [hrate]
  · rwa [hrate]
  · rw [register_programHard]
    rfl
  · rw [register_programHard]
    rfl
  · rw [register_programHard]
    rfl

theorem HardMirrored.of_registers {q : Dev} (h : HardMirrored p)
    (hregister : ∀ k, k ∈ [3, 4, 7] → q.register (.usb k) = p.register (.usb k))
    (hrate : q.rate = p.rate) (hformat : q.format = p.format) : HardMirrored q := by
  have hreg3 : hardReg3Of q = hardReg3Of p := by rw [hardReg3Of, hardReg3Of, hrate, hformat]
  have hreg4 : hardReg4Of q = hardReg4Of p := by rw [hardReg4Of, hardReg4Of, hrate]
  constructor
  · rw [hrate]
    exact h.low
  · rw [hrate]
    exact h.high
  · rw [hregister 3 (by decide), hreg3, h.reg3]
  · rw [hregister 4 (by decide), hreg4, h.reg4]
  · rw [hregister 7 (by decide), hformat, h.reg7]

theorem bandOf_bandOf (plan : FreqPlan) (band : Band) :
    bandOf plan (bandOf plan band) = bandOf plan band := by
  unfold bandOf
  split_ifs <;> rfl

-- neither table has an entry for the first AM port
theorem bandOf_port (hport : p.band ≠ .am1) : bandOf (planOf p) p.band ≠ .am1 := by
  have hplanned : Planned p.freq.toNat (planOf p) := switchPlan_planned _ _
  unfold bandOf
  cases hplanned with
  | am ham hup hone hbelow => simp [ham, hone]
  | direct upper hband hup hbelow =>
    rw [if_neg (directMode hband).1]
    split_ifs <;> simp [hport]

theorem mirrored_retune (hrange : GainRange p) (hhard : HardMirrored p) (hport : p.band ≠ .am1) :
    Mirrored (setGain (setSoft p)) := by
  have hrange' : GainRange (setSoft p) := by
    obtain ⟨h1, h2, h3, h4⟩ := hrange
    constructor <;> simpa only [setSoft, updateReg8, writeReg]
  have hsame := sameTuning_setSoft p
  have hband : (setGain (setSoft p)).band = bandOf (planOf p) p.band := by
    simp only [setGain, setSoft, updateReg8, writeReg]
  refine ⟨(softMirrored_setSoft p).setGain hrange', gainMirrored_setGain hrange', ?_, ?_, ?_⟩
  · refine hhard.of_registers ?_ ?_ ?_
    · intro k hk
      simp only [List.mem_cons, List.not_mem_nil, or_false] at hk
      rw [register_setGain hrange']
      rcases hk with rfl | rfl | rfl <;> exact register_setSoft p (by decide)
    · simp only [setGain, setSoft, updateReg8, writeReg]
    · simp only [setGain, setSoft, updateReg8, writeReg]
  · have hplan : planOf (setGain (setSoft p)) = planOf p := by
      rw [(sameTuning_setGain (setSoft p)).planOf_eq, hsame.planOf_eq]
    rw [hplan, hband, bandOf_bandOf]
  · rw [hband]
    exact bandOf_port hport

theorem Mirrored.regain {q : Dev} (h : Mirrored p) (hrange : GainRange q) (hwrites : q.writes = p.writes)
    (hsame : SameTuning p q) (hrate : q.rate = p.rate) (hformat : q.format = p.format)
    (hband : q.band = p.band) : Mirrored (setGain q) := by
  have hregister : ∀ r, q.register r = p.register r := fun r => by
    rw [Dev.register, Dev.register, hwrites]
  have hsoft : SoftMirrored q := h.soft.of_registers (fun k _ => hregister _) hsame
  have hhard : HardMirrored q := h.hard.of_registers (fun k _ => hregister _) hrate hformat
  have hbandq : (setGain q).band = p.band := by
    simp only [setGain, writeReg, hband]
  refine ⟨hsoft.setGain hrange, gainMirrored_setGain hrange, ?_, ?_, ?_⟩
  · refine hhard.of_registers ?_ ?_ ?_
    · intro k hk
      simp only [List.mem_cons, List.not_mem_nil, or_false] at hk
      rw [register_setGain hrange]
      rcases hk with rfl | rfl | rfl <;> rfl
    · simp only [setGain, writeReg]
    · simp only [setGain, writeReg]
  · rw [(sameTuning_setGain q).planOf_eq, hsame.planOf_eq, hbandq, h.band]
  · rw [hbandq]
    exact h.port

theorem sameGain_programHard (p : Dev) : SameGain p (programHard p) := by
  unfold programHard settled
  dsimp only
  split <;> constructor <;> simp only [writeReg]

theorem Mirrored.reprogram {q : Dev} (h : Mirrored p)
    (hregister : ∀ r, r ≠ .usb 3 → q.register r = p.register r) (hsame : SameTuning p q)
    (hgain : SameGain p q) : Mirrored (programHard q) := by
  have hsoft : SoftMirrored q := h.soft.of_registers (fun k _ => hregister _ (by simp)) hsame
  have hgainq : GainMirrored q := h.gain.of_registers (hregister _ (by simp)) hgain
  refine ⟨hsoft.programHard, ?_, hardMirrored_programHard q, ?_, ?_⟩
  · refine hgainq.of_registers ?_ (sameGain_programHard q)
    rw [register_programHard]
    rfl
  · rw [(sameTuning_programHard q).planOf_eq, (sameGain_programHard q).band, hsame.planOf_eq,
      hgain.band, h.band]
  · rw [(sameGain_programHard q).band, hgain.band]
    exact h.port

theorem Mirrored.of_registers {q : Dev} (h : Mirrored p)
    (hregister : ∀ r, r ≠ .usb 8 → q.register r = p.register r) (hsame : SameTuning p q)
    (hgain : SameGain p q) (hrate : q.rate = p.rate) (hformat : q.format = p.format) :
    Mirrored q := by
  refine ⟨h.soft.of_registers (fun k _ => hregister _ (by simp)) hsame,
    h.gain.of_registers (hregister _ (by simp)) hgain, h.hard.of_registers ?_ hrate hformat, ?_, ?_⟩
  · intro k hk
    apply hregister
    simp only [List.mem_cons, List.not_mem_nil, or_false] at hk
    rcases hk with rfl | rfl | rfl <;> decide
  · rw [hsame.planOf_eq, hgain.band, h.band]
  · rw [hgain.band]
    exact h.port

end Parts

-- a baseband gain that the register has room for, and a stream that stops when it is asked to
def Call.Valid (p : Dev) : Call → Prop
  | .setBasebandGain gain => 0 ≤ gain ∧ gain ≤ 59
  | .setSampleRate _ restart => p.asyncStatus = .running → restart.stops = true
  | .setSampleFormat _ restart => p.asyncStatus = .running → restart.stops = true
  | _ => True

section Runs

variable {p : Dev}

theorem Mirrored.stream (h : Mirrored p) (asyncStatus : AsyncStatus) :
    Mirrored { p with asyncStatus } :=
  h.of_registers (fun _ _ => rfl) ⟨rfl, rfl, rfl, rfl, rfl⟩ ⟨rfl, rfl, rfl, rfl, rfl⟩ rfl rfl

theorem Mirrored.setHard {q : Dev} {restart : Restart} (h : Mirrored p)
    (hregister : ∀ r, q.register r = p.register r) (hsame : SameTuning p q) (hgain : SameGain p q)
    (hstops : q.asyncStatus = .running → restart.stops = true) :
    Mirrored (setHard restart q).2 := by
  unfold Msisdr.setHard
  by_cases hrunning : q.asyncStatus = .running
  · have hprogrammed : Mirrored (programHard (adcStop { q with asyncStatus := .paused })) := by
      refine h.reprogram ?_ ?_ ?_
      · intro r hr
        rw [register_adcStop _ hr]
        exact hregister r
      · obtain ⟨h1, h2, h3, h4, h5⟩ := hsame
        constructor <;> simpa only [adcStop, writeReg]
      · obtain ⟨h1, h2, h3, h4, h5⟩ := hgain
        constructor <;> simpa only [adcStop, writeReg]
    rw [if_pos hrunning, if_pos (hstops hrunning)]
    cases restart.starts with
    | true => exact hprogrammed.stream .running
    | false => exact hprogrammed
  · rw [if_neg hrunning]
    exact h.reprogram (fun r _ => hregister r) hsame hgain

theorem Mirrored.setSampleFormat {restart : Restart} (h : Mirrored p) (v : String)
    (hstops : p.asyncStatus = .running → restart.stops = true) :
    Mirrored (setSampleFormat restart v p).2 := by
  unfold Msisdr.setSampleFormat
  split
  · exact h.setHard (fun _ => rfl) ⟨rfl, rfl, rfl, rfl, rfl⟩ ⟨rfl, rfl, rfl, rfl, rfl⟩ hstops
  · cases formatNamed v with
    | some format =>
      exact h.setHard (fun _ => rfl) ⟨rfl, rfl, rfl, rfl, rfl⟩ ⟨rfl, rfl, rfl, rfl, rfl⟩ hstops
    | none =>
      exact h.of_registers (fun _ _ => rfl) ⟨rfl, rfl, rfl, rfl, rfl⟩ ⟨rfl, rfl, rfl, rfl, rfl⟩ rfl rfl

theorem chooseBandwidth_eq (bw : UInt32) (p : Dev) :
    ∃ bandwidth ifFreq, chooseBandwidth bw p = { p with bandwidth, ifFreq } := by
  have hnarrow : ∀ (limit : UInt32) (b : Bandwidth) (f : Dev → IfFreq) (q : Dev),
      (∃ bandwidth ifFreq, q = { p with bandwidth, ifFreq }) →
      ∃ bandwidth ifFreq, narrow bw limit b f q = { p with bandwidth, ifFreq } := by
    rintro limit b f _ ⟨bandwidth, ifFreq, rfl⟩
    unfold narrow
    split
    · exact ⟨_, _, rfl⟩
    · exact ⟨_, _, rfl⟩
  unfold chooseBandwidth
  dsimp only
  iterate 8 apply hnarrow
  exact ⟨_, _, rfl⟩

theorem Mirrored.setTunerGain (h : Mirrored p) (gain : Int) :
    Mirrored (setTunerGain gain p).2 := by
  by_cases hneg : gain < 0
  · have heq : (Msisdr.setTunerGain gain p).2 = { p with gain } := by
      unfold Msisdr.setTunerGain
      dsimp only
      rw [if_pos hneg]
    rw [heq]
    exact h.of_registers (fun _ _ => rfl) ⟨rfl, rfl, rfl, rfl, rfl⟩ ⟨rfl, rfl, rfl, rfl, rfl⟩ rfl rfl
  · obtain ⟨lna, mixbuffer, mixer, baseband, hsplit, heq⟩ := setTunerGain_split (show 0 ≤ gain by omega) p
    rw [heq]
    have hstage := hsplit.stage
    exact h.regain ⟨hsplit.rest, by dsimp only; omega, hsplit.second, by dsimp only; omega⟩ rfl
      ⟨rfl, rfl, rfl, rfl, rfl⟩ rfl rfl rfl

theorem Mirrored.updateReg8 (h : Mirrored p) : Mirrored (updateReg8 p) :=
  h.of_registers (fun r hr => register_updateReg8 p r hr) ⟨rfl, rfl, rfl, rfl, rfl⟩
    ⟨rfl, rfl, rfl, rfl, rfl⟩ rfl rfl

theorem Mirrored.retune {q : Dev} (h : Mirrored p) (hregister : ∀ r, q.register r = p.register r)
    (hgain : SameGain p q) (hrate : q.rate = p.rate) (hformat : q.format = p.format) :
    Mirrored (setGain (setSoft q)) :=
  mirrored_retune (hgain.range h.gain.range)
    (h.hard.of_registers (fun _ _ => hregister _) hrate hformat) (by rw [hgain.band]; exact h.port)

-- without a new gain the band must not have changed
theorem Mirrored.setOffsetTuning (h : Mirrored p) (on : Int) :
    Mirrored (setOffsetTuning on p).2 := by
  unfold Msisdr.setOffsetTuning
  generalize (if on ≠ 0 then IfFreq.if450kHz else IfFreq.zero) = ifFreq
  have hplan : planOf { p with ifFreq } = planOf p := rfl
  have hband : (setSoft { p with ifFreq }).band = p.band := by
    simp only [setSoft, Msisdr.updateReg8, writeReg, hplan, h.band]
  refine ⟨softMirrored_setSoft _, ?_, ?_, ?_, ?_⟩
  · refine h.gain.of_registers (register_setSoft _ (by decide)) ⟨hband, ?_, ?_, ?_, ?_⟩ <;>
      simp only [setSoft, Msisdr.updateReg8, writeReg]
  · refine h.hard.of_registers ?_ ?_ ?_
    · intro k hk
      simp only [List.mem_cons, List.not_mem_nil, or_false] at hk
      rcases hk with rfl | rfl | rfl <;> exact register_setSoft _ (by decide)
    · simp only [setSoft, Msisdr.updateReg8, writeReg]
    · simp only [setSoft, Msisdr.updateReg8, writeReg]
  · rw [(sameTuning_setSoft _).planOf_eq, hband, hplan, h.band]
  · rw [hband]
    exact h.port

theorem Mirrored.resetBuffer (h : Mirrored p) (restart : Restart) :
    Mirrored (resetBuffer restart p).2 := by
  unfold Msisdr.resetBuffer
  split_ifs
  · exact h.stream _
  · exact h.stream _
  · exact h.stream _
  · exact h

theorem Mirrored.run (h : Mirrored p) (call : Call) (hvalid : call.Valid p) :
    Mirrored (call.run p).2 := by
  obtain ⟨hbaseband, hmixbuffer, hmixer, hlna⟩ := h.gain.range
  cases call with
  | setCenterFreq freq =>
    exact h.retune (q := { p with freq }) (fun _ => rfl) ⟨rfl, rfl, rfl, rfl, rfl⟩ rfl rfl
  | setIfFreq freq =>
    change Mirrored (Msisdr.setIfFreq freq p).2
    unfold Msisdr.setIfFreq
    cases ifFreqOf freq with
    | some ifFreq =>
      exact h.retune (q := { p with ifFreq }) (fun _ => rfl) ⟨rfl, rfl, rfl, rfl, rfl⟩ rfl rfl
    | none => exact h
  | setBandwidth bw =>
    obtain ⟨bandwidth, ifFreq, heq⟩ := chooseBandwidth_eq bw p
    change Mirrored (setGain (setSoft (chooseBandwidth bw p)))
    rw [heq]
    exact h.retune (q := { p with bandwidth, ifFreq }) (fun _ => rfl) ⟨rfl, rfl, rfl, rfl, rfl⟩ rfl rfl
  | setOffsetTuning on => exact h.setOffsetTuning on
  | setHwFlavour hwFlavour =>
    exact h.retune (q := { p with hwFlavour }) (fun _ => rfl) ⟨rfl, rfl, rfl, rfl, rfl⟩ rfl rfl
  | setBias bias =>
    have hbias : Mirrored { p with bias } :=
      h.of_registers (fun _ _ => rfl) ⟨rfl, rfl, rfl, rfl, rfl⟩ ⟨rfl, rfl, rfl, rfl, rfl⟩ rfl rfl
    exact hbias.updateReg8
  | setSampleRate rate restart =>
    exact h.setHard (fun _ => rfl) ⟨rfl, rfl, rfl, rfl, rfl⟩ ⟨rfl, rfl, rfl, rfl, rfl⟩ hvalid
  | setSampleFormat v restart => exact h.setSampleFormat v hvalid
  | setTunerGain gain => exact h.setTunerGain gain
  | setTunerGainMode mode => exact h
  | setMixerGain gain =>
    refine h.regain ⟨hbaseband, hmixbuffer, ?_, hlna⟩ rfl ⟨rfl, rfl, rfl, rfl, rfl⟩ rfl rfl rfl
    dsimp only
    split <;> simp
  | setMixbufferGain gain =>
    change Mirrored (Msisdr.setMixbufferGain gain p).2
    unfold Msisdr.setMixbufferGain
    split
    · exact h
    · refine h.regain ⟨hbaseband, ?_, hmixer, hlna⟩ rfl ⟨rfl, rfl, rfl, rfl, rfl⟩ rfl rfl rfl
      dsimp only
      omega
  | setLnaGain gain =>
    refine h.regain ⟨hbaseband, hmixbuffer, hmixer, ?_⟩ rfl ⟨rfl, rfl, rfl, rfl, rfl⟩ rfl rfl rfl
    dsimp only
    split <;> simp
  | setBasebandGain gain =>
    obtain ⟨h0, h59⟩ := hvalid
    refine h.regain ⟨?_, hmixbuffer, hmixer, hlna⟩ rfl ⟨rfl, rfl, rfl, rfl, rfl⟩ rfl rfl rfl
    dsimp only
    omega
  | resetBuffer restart => exact h.resetBuffer restart
  | stream asyncStatus => exact h.stream asyncStatus

theorem mirrored_setup (pid : UInt16) : Mirrored (setup pid) := by
  have hrange : GainRange (programHard (adcInit (opened pid))) := by
    have hsame := sameGain_programHard (adcInit (opened pid))
    refine hsame.range ⟨?_, ?_, ?_, ?_⟩ <;> simp [adcInit, writeReg, opened]
  refine mirrored_retune hrange (hardMirrored_programHard _) ?_
  rw [(sameGain_programHard _).band]
  simp [adcInit, writeReg, opened]

theorem mirrored_reaches {pid : UInt16}
    (h : Transition.Reaches step (fun p call => call.Valid p) (setup pid) p) : Mirrored p := by
  refine h.invariant (mirrored_setup pid) ?_
  intro s call t _ hs hvalid ht
  obtain rfl := Option.some.inj ht
  exact hs.run _ hvalid

end Runs

-- the fields that only the caller's setting of them changes
def knobs (p : Dev) : Dev :=
  { p with band := .vhf, addr := 0, reg8 := 0, writes := [] }

theorem knobs_retune {p q : Dev} (h : knobs p = q) :
    knobs (setGain (setSoft p)) = q := by
  rw [← h]
  simp only [knobs, setGain, setSoft, updateReg8, writeReg]

theorem knobs_programHard {p q : Dev} (h : knobs p = q) :
    knobs (programHard p) = settled q := by
  rw [← h]
  unfold programHard settled
  dsimp only [knobs]
  split <;> rfl

-- what the two chips make of the last word in each of their registers
def Dev.tuner (p : Dev) : Option Tuner := do
  let reg0 ← p.register (.tuner 0)
  let reg2 ← p.register (.tuner 2)
  let reg3 ← p.register (.tuner 3)
  let reg5 ← p.register (.tuner 5)
  return .ofWords reg0 reg2 reg3 reg5

def Dev.sampling (p : Dev) : Option Sampling := do
  let reg3 ← p.register (.usb 3)
  let reg4 ← p.register (.usb 4)
  return .ofWords reg3 reg4

def Dev.gainControl (p : Dev) : Option GainControl := do
  let reg1 ← p.register (.tuner 1)
  return .ofWord reg1

-- the input that is switched to the mixer
def Tuner.input (t : Tuner) : Band :=
  if t.mode = 1 then if t.port = 1 then .am2 else .am1 else .vhf

-- mode 6, from 259 (or 261) to 330 (or 404) MHz, leaves the band of the handle alone
structure Faithful (p : Dev) : Prop where
  tuner : p.freq.toNat < 3072000000 → ∃ t, p.tuner = some t ∧ t.Legal ∧
    (p.freq.toNat : ℚ) - 6 < t.frequency ∧ t.frequency < p.freq.toNat + 1
  sampling : ∃ s, p.sampling = some s ∧ s.agc = p.format.agc.toNat ∧
    (p.rate.toNat : ℚ) - 1 / 2 < s.rate ∧ s.rate ≤ p.rate.toNat
  format : p.register (.usb 7) = some p.format.register.toNat
  gain : (planOf p).mode ≠ 6 → 0 ≤ p.gain →
    ∃ t g, p.tuner = some t ∧ p.gainControl = some g ∧ g.total t.input = getTunerGain p

section Faithful

variable {p : Dev}

theorem Mirrored.tuner_eq (h : Mirrored p) : p.tuner = some (tunerOf p) := by
  simp [Dev.tuner, h.soft.reg0, h.soft.reg2, h.soft.reg3, h.soft.reg5, tunerOf]

theorem input_total (h : bandOf (planOf p) p.band = p.band) (hmode : (planOf p).mode ≠ 6)
    (g : GainControl) : g.total (tunerOf p).input = g.total p.band := by
  have hplanned : Planned p.freq.toNat (planOf p) := switchPlan_planned _ _
  rw [Tuner.input, tunerOf_eq]
  dsimp only
  cases hplanned with
  | am ham hup hport hbelow =>
    have hband : p.band = .am2 := by rw [← h]; simp [bandOf, ham, hport]
    have hone : modeAm.toUInt32.toNat = 1 := rfl
    rw [ham, hup, hband, hone]
    rfl
  | direct upper hband hup hbelow =>
    have hrf : (planOf p).mode.toUInt32.toNat ≠ 1 ∧
        ((planOf p).mode = 6 ∨ bandOf (planOf p) p.band ∈ [.vhf, .b3, .b45, .l]) := by
      simp only [directBands, List.mem_cons, Prod.mk.injEq, List.not_mem_nil, or_false] at hband
      rcases hband with ⟨hm, -⟩ | ⟨hm, -⟩ | ⟨hm, -⟩ | ⟨hm, -⟩ | ⟨hm, -⟩ <;> rw [bandOf, hm] <;>
        exact ⟨by decide, by simp [modeAm, modeVhf, modeB3, modeB45, modeBl]⟩
    have hmem := hrf.2.resolve_left hmode
    rw [h] at hmem
    rw [if_neg hrf.1]
    simp only [List.mem_cons, List.not_mem_nil, or_false] at hmem
    rcases hmem with hb | hb | hb | hb <;> rw [hb] <;> rfl

theorem Mirrored.faithful (h : Mirrored p) : Faithful p where
  tuner hfreq := ⟨_, h.tuner_eq, tunerOf_close p hfreq⟩
  sampling := by
    obtain ⟨hagc, -, hclose⟩ := samplingOf_close h.hard.low h.hard.high
    exact ⟨samplingOf p, by simp [Dev.sampling, h.hard.reg3, h.hard.reg4, samplingOf], hagc, hclose⟩
  format := h.hard.reg7
  gain hmode hgain := by
    refine ⟨_, gainControlOf p, h.tuner_eq, by simp [Dev.gainControl, h.gain.reg1, gainControlOf], ?_⟩
    rw [input_total h.band hmode, total_eq_getTunerGain h.gain.range hgain]

end Faithful

-- after any calls the chips are set to what the handle says
theorem faithful_reaches (pid : UInt16) {p : Dev}
    (h : Transition.Reaches step (fun p call => call.Valid p) (setup pid) p) : Faithful p :=
  (mirrored_reaches h).faithful

theorem faithful_retuned :
    Faithful ((Call.setTunerGain 40).run ((Call.setCenterFreq 433920000).run (setup 0x2500)).2).2 :=
  faithful_reaches 0x2500
    (.next (.next .start (e := .setCenterFreq 433920000) trivial rfl) (e := .setTunerGain 40)
      trivial rfl)

end Msisdr
end SdrServer
