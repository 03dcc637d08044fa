import SdrServer.Foundation.BitFields
import SdrServer.Msisdr.Model

namespace SdrServer
namespace Msisdr

def dcOffsetCalibrationPeriodic2 : UInt32 := 2
def dcOffsetCalibrationSpeedupOff : UInt32 := 0

-- `x << k` of an int, as the uint32_t it is or'ed into
def shiftInt (x : Int) (k : UInt32) : UInt32 := UInt32.ofInt x <<< k

def gainReg1 (p : Dev) : UInt32 :=
  (1 : UInt32) ||| shiftInt p.gainReductionBaseband 4 |||
    (match p.band with
    | .am1 => (UInt32.ofInt p.gainReductionMixbuffer &&& 0x03) <<< 10
    | .am2 => (if p.gainReductionMixbuffer = 0 then (0x0 : UInt32) else 0x03) <<< 10
    | _ => (0x0 : UInt32) <<< 10) |||
    shiftInt p.gainReductionMixer 12 |||
    (if p.band = .am1 ∨ p.band = .am2 then (0x0 : UInt32) <<< 13
    else shiftInt p.gainReductionLna 13) |||
    dcOffsetCalibrationPeriodic2 <<< 14 ||| dcOffsetCalibrationSpeedupOff <<< 17

def gainReg6 : UInt32 := (6 : UInt32) ||| (0x1F : UInt32) <<< 4 ||| (0x800 : UInt32) <<< 10

-- always returns 0
def setGain (p : Dev) : Dev :=
  let reg1 := gainReg1 p
  let p := writeReg p 0x08 0xf380
  let p := writeReg p 0x09 reg1
  writeReg p 0x09 gainReg6

def setTunerGain (gain : Int) (p : Dev) : Int × Dev :=
  let p := { p with gain }
  if p.gain < 0 then (0, p)
  else
    let p := if p.gain > 102 then { p with gain := 102 } else p
    if p.gain ≥ 43 then
      (0, setGain
        { p with
          gainReductionLna := 0
          gainReductionMixbuffer := 0
          gainReductionMixer := 0
          gainReductionBaseband := 59 - (p.gain - 43) })
    else if p.gain ≥ 19 then
      (0, setGain
        { p with
          gainReductionLna := 1
          gainReductionMixbuffer := 3
          gainReductionMixer := 0
          gainReductionBaseband := 59 - (p.gain - 19) })
    else
      (0, setGain
        { p with
          gainReductionLna := 1
          gainReductionMixbuffer := 3
          gainReductionMixer := 1
          gainReductionBaseband := 59 - p.gain })

def getTunerGain (p : Dev) : Int :=
  if p.gain < 0 then -1
  else
    59 - p.gainReductionBaseband +
      (match p.band with
      | .am1 => 18 - 6 * p.gainReductionMixbuffer
      | .am2 => if p.gainReductionMixbuffer = 0 then 24 else 0
      | _ => if p.gainReductionLna = 0 then 24 else 0) +
      if p.gainReductionMixer = 0 then 19 else 0

-- the body of msisdr_set_tuner_gain_mode is commented out
def setTunerGainMode (_mode : Int) (p : Dev) : Int × Dev := (0, p)

def getTunerGainMode (p : Dev) : Int := if p.gain < 0 then 0 else 1

def setMixerGain (gain : Int) (p : Dev) : Int × Dev :=
  (0, setGain { p with gainReductionMixer := if gain ≠ 0 then 0 else 1 })

def setMixbufferGain (gain : Int) (p : Dev) : Int × Dev :=
  if gain < 0 then (-1, p)
  else
    let gain := if gain > 18 then 18 else gain
    (0, setGain { p with gainReductionMixbuffer := (3 - gain / 6) % 4 })

def setLnaGain (gain : Int) (p : Dev) : Int × Dev :=
  (0, setGain { p with gainReductionLna := if gain ≠ 0 then 0 else 1 })

def setBasebandGain (gain : Int) (p : Dev) : Int × Dev :=
  (0, setGain { p with gainReductionBaseband := 59 - gain })

def getMixerGain (p : Dev) : Int := if p.gainReductionMixer ≠ 0 then 0 else 19

def getMixbufferGain (p : Dev) : Int := 18 - 6 * p.gainReductionMixbuffer

def getLnaGain (p : Dev) : Int := if p.gainReductionLna ≠ 0 then 0 else 24

def getBasebandGain (p : Dev) : Int := 59 - p.gainReductionBaseband

-- what the tuner chip is told about its gain
structure GainControl where
  baseband : Nat
  mixbuffer : Nat
  mixer : Nat
  lna : Nat
  calibration : Nat
  deriving DecidableEq, Repr

namespace GainControl

def ofWord (reg1 : Nat) : GainControl where
  baseband := BitFields.read 4 6 reg1
  mixbuffer := BitFields.read 10 2 reg1
  mixer := BitFields.read 12 1 reg1
  lna := BitFields.read 13 1 reg1
  calibration := BitFields.read 14 3 reg1

-- 60 to 63 take no more off the baseband than 59; the AM inputs have the mixer buffer in place of
-- the LNA
def total (g : GainControl) (band : Band) : Int :=
  59 - (min g.baseband 59 : Nat) +
    (match band with
    | .am1 => 18 - 6 * g.mixbuffer
    | .am2 => if g.mixbuffer = 0 then 24 else 0
    | _ => if g.lna = 0 then 24 else 0) +
    if g.mixer = 0 then 19 else 0

end GainControl

structure GainRange (p : Dev) : Prop where
  baseband : 0 ≤ p.gainReductionBaseband ∧ p.gainReductionBaseband ≤ 59
  mixbuffer : 0 ≤ p.gainReductionMixbuffer ∧ p.gainReductionMixbuffer ≤ 3
  mixer : p.gainReductionMixer = 0 ∨ p.gainReductionMixer = 1
  lna : p.gainReductionLna = 0 ∨ p.gainReductionLna = 1

def mixbufferBits (p : Dev) : Nat :=
  match p.band with
  | .am1 => p.gainReductionMixbuffer.toNat
  | .am2 => if p.gainReductionMixbuffer = 0 then 0 else 3
  | _ => 0

def lnaBits (p : Dev) : Nat :=
  if p.band = .am1 ∨ p.band = .am2 then 0 else p.gainReductionLna.toNat

def reg1Fields (p : Dev) : List BitField :=
  [⟨0, 4, 1⟩, ⟨4, 6, p.gainReductionBaseband.toNat⟩, ⟨10, 2, mixbufferBits p⟩,
    ⟨12, 1, p.gainReductionMixer.toNat⟩, ⟨13, 1, lnaBits p⟩, ⟨14, 3, 2⟩]

theorem ofInt_toNat {x : Int} (width : Nat) (h0 : 0 ≤ x) (h : x.toNat < 2 ^ width)
    (hwidth : width ≤ 32) : (UInt32.ofInt x).toNat = x.toNat := by
  have hpow : (2 : Nat) ^ width ≤ 2 ^ 32 := Nat.pow_le_pow_right (by decide) hwidth
  rw [UInt32.ofInt, UInt32.toNat_ofNat']
  omega

theorem shiftInt_toNat {x : Int} (width offset : Nat) (h0 : 0 ≤ x) (h : x.toNat < 2 ^ width)
    (hfits : width + offset ≤ 32) :
    (shiftInt x (UInt32.ofNat offset)).toNat = x.toNat <<< offset := by
  have hx := ofInt_toNat width h0 h (by omega)
  rw [shiftInt, shifted_toNat (by rwa [hx]) hfits, hx]

theorem mixbufferBits_lt {p : Dev} (h : GainRange p) : mixbufferBits p < 2 ^ 2 := by
  have hrange := h.mixbuffer
  unfold mixbufferBits
  split
  · omega
  · split <;> decide
  · decide

theorem lnaBits_lt {p : Dev} (h : GainRange p) : lnaBits p < 2 ^ 1 := by
  unfold lnaBits
  split
  · decide
  · rcases h.lna with h | h <;> rw [h] <;> decide

theorem mixer_lt {p : Dev} (h : GainRange p) : p.gainReductionMixer.toNat < 2 ^ 1 := by
  rcases h.mixer with h | h <;> rw [h] <;> decide

theorem reg1Fields_fits {p : Dev} (h : GainRange p) : BitFields.Fits (reg1Fields p) := by
  have hbaseband := h.baseband
  simp only [reg1Fields, BitFields.fits_cons]
  exact ⟨by decide, by omega, mixbufferBits_lt h, mixer_lt h, lnaBits_lt h, by decide,
    by simp [BitFields.Fits]⟩

theorem mixbuffer_toNat {p : Dev} (h : GainRange p) :
    (match p.band with
      | .am1 => (UInt32.ofInt p.gainReductionMixbuffer &&& 0x03) <<< 10
      | .am2 => (if p.gainReductionMixbuffer = 0 then (0x0 : UInt32) else 0x03) <<< 10
      | _ => (0x0 : UInt32) <<< 10).toNat = mixbufferBits p <<< 10 := by
  have hrange := h.mixbuffer
  have hint := ofInt_toNat 2 hrange.1 (by omega) (by decide)
  unfold mixbufferBits
  split
  · have hmask : (UInt32.ofInt p.gainReductionMixbuffer &&& 0x03).toNat =
        p.gainReductionMixbuffer.toNat := by
      rw [UInt32.toNat_and, hint]
      exact (Nat.and_two_pow_sub_one_eq_mod _ 2).trans (Nat.mod_eq_of_lt (by omega))
    have hlt : (UInt32.ofInt p.gainReductionMixbuffer &&& 0x03).toNat < 2 ^ 2 := by
      omega
    exact (shifted_toNat hlt (by decide)).trans (by rw [hmask])
  · split <;> rfl
  · rfl

theorem gainReg1_toNat {p : Dev} (h : GainRange p) :
    (gainReg1 p).toNat = BitFields.word (reg1Fields p) := by
  have hbaseband : (shiftInt p.gainReductionBaseband 4).toNat =
      p.gainReductionBaseband.toNat <<< 4 :=
    shiftInt_toNat 6 4 h.baseband.1 (by have := h.baseband; omega) (by decide)
  have hmixer : (shiftInt p.gainReductionMixer 12).toNat = p.gainReductionMixer.toNat <<< 12 :=
    shiftInt_toNat 1 12 (by have := h.mixer; omega) (mixer_lt h) (by decide)
  have hlna : (if p.band = .am1 ∨ p.band = .am2 then (0x0 : UInt32) <<< 13
      else shiftInt p.gainReductionLna 13).toNat = lnaBits p <<< 13 := by
    have hrange := h.lna
    unfold lnaBits
    split
    · rfl
    · exact shiftInt_toNat 1 13 (by omega) (by omega) (by decide)
  have hends : (dcOffsetCalibrationPeriodic2 <<< 14).toNat = 2 <<< 14 ∧
      (dcOffsetCalibrationSpeedupOff <<< 17).toNat = 0 ∧ (1 : UInt32).toNat = 1 := by decide
  simp only [gainReg1, UInt32.toNat_or, hbaseband, mixbuffer_toNat h, hmixer, hlna, hends, reg1Fields,
    BitFields.word_cons, BitFields.word_nil, Nat.or_assoc, Nat.or_zero, Nat.shiftLeft_zero]

def gainControlOf (p : Dev) : GainControl := .ofWord (gainReg1 p).toNat

theorem gainControlOf_eq {p : Dev} (h : GainRange p) :
    gainControlOf p = ⟨p.gainReductionBaseband.toNat, mixbufferBits p, p.gainReductionMixer.toNat,
      lnaBits p, 2⟩ := by
  have hfits := reg1Fields_fits h
  have hapart : (reg1Fields p).Pairwise BitFields.Apart := by simp [reg1Fields, BitFields.Apart]
  rw [gainControlOf, GainControl.ofWord, gainReg1_toNat h, GainControl.mk.injEq]
  refine ⟨?_, ?_, ?_, ?_, ?_⟩
  · exact BitFields.read_word (f := ⟨4, 6, p.gainReductionBaseband.toNat⟩) hfits hapart
      (by simp [reg1Fields])
  · exact BitFields.read_word (f := ⟨10, 2, mixbufferBits p⟩) hfits hapart (by simp [reg1Fields])
  · exact BitFields.read_word (f := ⟨12, 1, p.gainReductionMixer.toNat⟩) hfits hapart
      (by simp [reg1Fields])
  · exact BitFields.read_word (f := ⟨13, 1, lnaBits p⟩) hfits hapart (by simp [reg1Fields])
  · exact BitFields.read_word (f := ⟨14, 3, 2⟩) hfits hapart (by simp [reg1Fields])

-- the gain the driver reports is the one the chip is told
theorem total_eq_getTunerGain {p : Dev} (h : GainRange p) (hgain : 0 ≤ p.gain) :
    (gainControlOf p).total p.band = getTunerGain p := by
  obtain ⟨hb0, hb59⟩ := h.baseband
  obtain ⟨hm0, hm3⟩ := h.mixbuffer
  have hmin : 59 - ((min p.gainReductionBaseband.toNat 59 : Nat) : Int) =
      59 - p.gainReductionBaseband := by omega
  have hmixer : p.gainReductionMixer.toNat = 0 ↔ p.gainReductionMixer = 0 := by
    rcases h.mixer with h | h <;> rw [h] <;> decide
  have hlna : p.gainReductionLna.toNat = 0 ↔ p.gainReductionLna = 0 := by
    rcases h.lna with h | h <;> rw [h] <;> decide
  have hneg : ¬ p.gain < 0 := by omega
  simp only [gainControlOf_eq h, GainControl.total, getTunerGain, if_neg hneg, hmin, hmixer]
  cases hband : p.band with
  | am1 => simp [mixbufferBits, hband, Int.toNat_of_nonneg hm0]
  | am2 =>
    by_cases hzero : p.gainReductionMixbuffer = 0 <;> simp [mixbufferBits, hband, hzero]
  | vhf => simp [lnaBits, hband, hlna]
  | b3 => simp [lnaBits, hband, hlna]
  | b45 => simp [lnaBits, hband, hlna]
  | l => simp [lnaBits, hband, hlna]

-- how a gain is split up: the LNA (or the mixer buffer) and the mixer are whole stages
structure Split (gain lna mixbuffer mixer baseband : Int) : Prop where
  stage : lna = 0 ∧ mixbuffer = 0 ∨ lna = 1 ∧ mixbuffer = 3
  second : mixer = 0 ∨ mixer = 1
  rest : 0 ≤ baseband ∧ baseband ≤ 59
  total : 59 - baseband + (if lna = 0 then 24 else 0) + (if mixer = 0 then 19 else 0) = gain

theorem setTunerGain_split {gain : Int} (h : 0 ≤ gain) (p : Dev) :
    ∃ lna mixbuffer mixer baseband, Split (min gain 102) lna mixbuffer mixer baseband ∧
      setTunerGain gain p =
        (0, setGain
          { p with
            gain := min gain 102
            gainReductionLna := lna
            gainReductionMixbuffer := mixbuffer
            gainReductionMixer := mixer
            gainReductionBaseband := baseband }) := by
  unfold setTunerGain
  dsimp only
  rw [if_neg (by omega)]
  have hgain : (if gain > 102 then { p with gain := 102 } else { p with gain }) =
      { p with gain := min gain 102 } := by
    split
    · rw [min_eq_right (by omega)]
    · rw [min_eq_left (by omega)]
  rw [hgain]
  generalize hg : min gain 102 = g
  have hg0 : 0 ≤ g ∧ g ≤ 102 := by omega
  dsimp only
  split_ifs
  · exact ⟨0, 0, 0, 59 - (g - 43), ⟨by simp, by simp, by omega, by simp; omega⟩, rfl⟩
  · exact ⟨1, 3, 0, 59 - (g - 19), ⟨by simp, by simp, by omega, by simp⟩, rfl⟩
  · exact ⟨1, 3, 1, 59 - g, ⟨by simp, by simp, by omega, by simp⟩, rfl⟩

-- the two stages make up for each other, so that the input does not matter
theorem Split.getTunerGain_eq {p : Dev} (h : Split p.gain p.gainReductionLna p.gainReductionMixbuffer
    p.gainReductionMixer p.gainReductionBaseband) (hgain : 0 ≤ p.gain) (hband : p.band ≠ .am1) :
    getTunerGain p = p.gain := by
  obtain ⟨hstage, hmixer, hbaseband, htotal⟩ := h
  have hneg : ¬ p.gain < 0 := by omega
  have hiff : p.gainReductionMixbuffer = 0 ↔ p.gainReductionLna = 0 := by omega
  simp only [getTunerGain, if_neg hneg]
  cases hb : p.band with
  | am1 => exact absurd hb hband
  | am2 => simpa only [hiff] using htotal
  | vhf => exact htotal
  | b3 => exact htotal
  | b45 => exact htotal
  | l => exact htotal

-- on every input but the first AM port, what was asked for, up to 102 dB
theorem getTunerGain_setTunerGain {gain : Int} (h : 0 ≤ gain) {p : Dev} (hband : p.band ≠ .am1) :
    getTunerGain (setTunerGain gain p).2 = min gain 102 := by
  obtain ⟨lna, mixbuffer, mixer, baseband, hsplit, heq⟩ := setTunerGain_split h p
  rw [heq]
  exact Split.getTunerGain_eq (p := (setGain _)) hsplit (show 0 ≤ min gain 102 by omega) hband

end Msisdr
end SdrServer
