import SdrServer.Msisdr.Tuning

namespace SdrServer
namespace Msisdr

def sampleRateMin : UInt32 := 1300000
def sampleRateMax : UInt32 := 15000000

def limitRate (rate : UInt32) : UInt32 :=
  if rate > sampleRateMax then sampleRateMax
  else if rate < sampleRateMin then sampleRateMin
  else rate

def chooseFormat (rate : UInt32) : Format :=
  if rate ≤ 6048000 then .s16_252
  else if rate ≤ 8064000 then .s16_336
  else if rate ≤ 9216000 then .s16_384
  else .s16_504

-- what the switch on the format writes to register 7 and where the next block is expected
def Format.register : Format → UInt32
  | .s16_252 => 0x000094
  | .s16_336 => 0x000085
  | .s16_384 => 0x0000a5
  | .s16_504 => 0x000c94
  | .s8_504 => 0x000c94

def Format.firstAddr : Format → UInt32
  | .s16_252 => 252 + 2
  | .s16_336 => 336 + 2
  | .s16_384 => 384 + 2
  | .s16_504 => 504 + 2
  | .s8_504 => 504 + 2

def Format.agc : Format → UInt32
  | .s16_252 => 0x01
  | .s16_336 => 0x05
  | .s16_384 => 0x09
  | .s16_504 => 0x0d
  | .s8_504 => 0x0d

-- for (i = 4; i < 16; i+= 2): `i` and `vco` where the loop stops
def vcoLoop (rate vco : UInt64) : List UInt64 → UInt64 × UInt64
  | [] => (16, vco)
  | i :: is =>
    let vco := rate * i * 12
    if 202000000 ≤ vco then (i, vco) else vcoLoop rate vco is

def vcoOf (rate : UInt32) : UInt64 × UInt64 := vcoLoop rate.toUInt64 0 [4, 6, 8, 10, 12, 14]

def fractOf (vco : UInt64) : UInt64 := 0x200000 * (vco % 48000000) / 48000000

def hardReg3 (format : Format) (i n fract : UInt64) : UInt32 :=
  (0x03 &&& 3 : UInt32) ||| ((0x07 &&& (i / 2 - 1)) <<< 2).toUInt32 ||| (0x03 &&& 0 : UInt32) <<< 5 |||
    (((0x01 : UInt64) &&& fract >>> 20) <<< 7).toUInt32 ||| ((0x0f &&& n) <<< 8).toUInt32 |||
    (0x0f &&& format.agc) <<< 12 ||| (0x01 &&& 1 : UInt32) <<< 16

def hardReg4 (fract : UInt64) : UInt32 := (0xfffff &&& fract).toUInt32

def hardReg3Of (p : Dev) : UInt32 :=
  let (i, vco) := vcoOf p.rate
  hardReg3 p.format i (vco / 48000000) (fractOf vco)

def hardReg4Of (p : Dev) : UInt32 := hardReg4 (fractOf (vcoOf p.rate).2)

-- the rate and the format that msisdr_set_hard settles for
def settled (p : Dev) : Dev :=
  let p := { p with rate := limitRate p.rate }
  if p.formatAuto then { p with format := chooseFormat p.rate } else p

-- everything between stopping the stream and starting it again
def programHard (p : Dev) : Dev :=
  let p := settled p
  let reg3 := hardReg3Of p
  let reg4 := hardReg4Of p
  let p := writeReg { p with addr := p.format.firstAddr } 0x07 p.format.register
  let p := writeReg p 0x04 reg4
  writeReg p 0x03 reg3

def adcStop (p : Dev) : Dev := writeReg p 0x03 0x010000

-- whether msisdr_stop_async and msisdr_start_async succeed
structure Restart where
  stops : Bool
  starts : Bool
  deriving DecidableEq, Repr

def setHard (restart : Restart) (p : Dev) : Int × Dev :=
  if p.asyncStatus = .running then
    if restart.stops then
      let p := programHard (adcStop { p with asyncStatus := .paused })
      if restart.starts then (0, { p with asyncStatus := .running }) else (-1, p)
    else (-1, p)
  else (0, programHard p)

def setSampleRate (restart : Restart) (rate : UInt32) (p : Dev) : Int × Dev :=
  setHard restart { p with rate }

def formatNamed : String → Option Format
  | "252_S16" => some .s16_252
  | "336_S16" => some .s16_336
  | "384_S16" => some .s16_384
  | "504_S16" => some .s16_504
  | "504_S8" => some .s8_504
  | _ => none

def setSampleFormat (restart : Restart) (v : String) (p : Dev) : Int × Dev :=
  if v = "AUTO" then setHard restart { p with formatAuto := true }
  else
    let p := { p with formatAuto := false }
    match formatNamed v with
    | some format => setHard restart { p with format }
    | none => (-1, p)

def getSampleFormat (p : Dev) : String :=
  if p.formatAuto then "AUTO"
  else
    match p.format with
    | .s16_252 => "252_S16"
    | .s16_336 => "336_S16"
    | .s16_384 => "384_S16"
    | .s16_504 => "504_S16"
    | .s8_504 => "504_S8"

-- what the converter is programmed to
structure Sampling where
  resolution : Nat
  n : Nat
  fract : Nat
  agc : Nat
  deriving DecidableEq, Repr

namespace Sampling

-- the top bit of the fraction stands in register 3
def ofWords (reg3 reg4 : Nat) : Sampling where
  resolution := BitFields.read 2 3 reg3
  n := BitFields.read 8 4 reg3
  fract := BitFields.read 7 1 reg3 * 2 ^ 20 + BitFields.read 0 20 reg4
  agc := BitFields.read 12 4 reg3

def vco (s : Sampling) : ℚ := 48000000 * (s.n + s.fract / 2 ^ 21)

def rate (s : Sampling) : ℚ := s.vco / (12 * (2 * (s.resolution + 1)))

end Sampling

theorem limitRate_bounds (rate : UInt32) :
    1300000 ≤ (limitRate rate).toNat ∧ (limitRate rate).toNat ≤ 15000000 := by
  unfold limitRate sampleRateMin sampleRateMax
  split
  · decide
  · split
    · decide
    · rename_i hhigh hlow
      have h1 : ¬ 15000000 < rate.toNat := fun h => hhigh (UInt32.lt_iff_toNat_lt.mpr h)
      have h2 : ¬ rate.toNat < 1300000 := fun h => hlow (UInt32.lt_iff_toNat_lt.mpr h)
      omega

structure Chosen (rate : Nat) (stop : UInt64 × UInt64) (k : Nat) : Prop where
  steps : k ≤ 5
  i : stop.1.toNat = 2 * (k + 2)
  vco : stop.2.toNat = rate * (2 * (k + 2)) * 12
  low : 202000000 ≤ stop.2.toNat
  high : stop.2.toNat ≤ 720000000

theorem vcoLoop_cons (rate : UInt32) (vco : UInt64) {i : UInt64} (hi : i.toNat ≤ 14)
    (is : List UInt64) :
    (vcoLoop rate.toUInt64 vco (i :: is) = (i, rate.toUInt64 * i * 12) ∧
        202000000 ≤ (rate.toUInt64 * i * 12).toNat ∨
      vcoLoop rate.toUInt64 vco (i :: is) = vcoLoop rate.toUInt64 (rate.toUInt64 * i * 12) is ∧
        rate.toNat * i.toNat * 12 < 202000000) ∧
      (rate.toUInt64 * i * 12).toNat = rate.toNat * i.toNat * 12 := by
  have hrate := rate.toNat_lt
  have hmul : rate.toNat * i.toNat ≤ 2 ^ 32 * 14 := Nat.mul_le_mul hrate.le hi
  have hvco : (rate.toUInt64 * i * 12).toNat = rate.toNat * i.toNat * 12 := by
    simp only [UInt64.toNat_mul, UInt32.toNat_toUInt64, UInt64.reduceToNat]
    omega
  refine ⟨?_, hvco⟩
  rw [vcoLoop]
  by_cases h : (202000000 : UInt64) ≤ rate.toUInt64 * i * 12
  · exact Or.inl ⟨if_pos h, UInt64.le_iff_toNat_le.mp h⟩
  · refine Or.inr ⟨if_neg h, ?_⟩
    rw [← hvco]
    exact Nat.lt_of_not_le fun hle => h (UInt64.le_iff_toNat_le.mpr hle)

def evenAt (k : Nat) : UInt64 := UInt64.ofNat (2 * (k + 2))

theorem evenAt_toNat {k : Nat} (hk : k ≤ 5) : (evenAt k).toNat = 2 * (k + 2) := by
  rw [evenAt, UInt64.toNat_ofNat']
  omega

-- the loop stops before `i` gets to 16: induction on the rounds that are left
theorem vcoLoop_chosen {rate : UInt32} (hlow : 1300000 ≤ rate.toNat)
    (hhigh : rate.toNat ≤ 15000000) (m k : Nat) (vco : UInt64) (hkm : k + m = 6)
    (hprev : k = 0 ∨ rate.toNat * (2 * (k + 1)) * 12 < 202000000) :
    ∃ k', Chosen rate.toNat (vcoLoop rate.toUInt64 vco ((List.range' k m).map evenAt)) k' := by
  induction m generalizing k vco with
  | zero =>
    obtain rfl : k = 6 := by omega
    omega
  | succ m ih =>
    have hi := evenAt_toNat (k := k) (by omega)
    rw [List.range'_succ, List.map_cons]
    obtain ⟨⟨heq, hge⟩ | ⟨heq, hlt⟩, hvco⟩ :=
      vcoLoop_cons rate vco (i := evenAt k) (by omega) ((List.range' (k + 1) m).map evenAt)
    · rw [heq]
      rw [hi] at hvco
      refine ⟨k, by omega, hi, hvco, hge, ?_⟩
      rw [hvco]
      rcases hprev with rfl | hprev
      · omega
      · have hnext : rate.toNat * (2 * (k + 2)) * 12 =
            rate.toNat * (2 * (k + 1)) * 12 + rate.toNat * 24 := by ring
        omega
    · rw [heq]
      rw [hi] at hlt
      exact ih (k + 1) _ (by omega) (Or.inr hlt)

theorem vcoOf_chosen {rate : UInt32} (hlow : 1300000 ≤ rate.toNat) (hhigh : rate.toNat ≤ 15000000) :
    ∃ k, Chosen rate.toNat (vcoOf rate) k :=
  vcoLoop_chosen hlow hhigh 6 0 0 rfl (Or.inl rfl)

theorem agc_lt (f : Format) : f.agc.toNat < 2 ^ 4 := by
  cases f <;> decide

def reg3Fields (format : Format) (i n fract : UInt64) : List BitField :=
  [⟨0, 2, 3⟩, ⟨2, 3, (i / 2 - 1).toNat % 2 ^ 3⟩, ⟨7, 1, (fract >>> 20).toNat % 2 ^ 1⟩,
    ⟨8, 4, n.toNat % 2 ^ 4⟩, ⟨12, 4, format.agc.toNat⟩, ⟨16, 1, 1⟩]

theorem hardReg3_toNat (format : Format) (i n fract : UInt64) :
    (hardReg3 format i n fract).toNat = BitFields.word (reg3Fields format i n fract) := by
  have hi : ((0x07 &&& (i / 2 - 1)) <<< 2).toUInt32.toNat = ((i / 2 - 1).toNat % 2 ^ 3) <<< 2 :=
    masked_toNat _ 3 2 (by decide)
  have hfract : (((0x01 : UInt64) &&& fract >>> 20) <<< 7).toUInt32.toNat =
      ((fract >>> 20).toNat % 2 ^ 1) <<< 7 := masked_toNat _ 1 7 (by decide)
  have hn : ((0x0f &&& n) <<< 8).toUInt32.toNat = (n.toNat % 2 ^ 4) <<< 8 :=
    masked_toNat _ 4 8 (by decide)
  have hagc : ((0x0f &&& format.agc) <<< 12).toNat = format.agc.toNat <<< 12 := by
    cases format <;> rfl
  have hends : ((0x03 : UInt32) &&& 3).toNat = 3 ∧ (((0x03 : UInt32) &&& 0) <<< 5).toNat = 0 ∧
      (((0x01 : UInt32) &&& 1) <<< 16).toNat = 1 <<< 16 := by decide
  simp only [hardReg3, UInt32.toNat_or, hi, hfract, hn, hagc, hends, reg3Fields,
    BitFields.word_cons, BitFields.word_nil, Nat.or_assoc, Nat.or_zero,
    Nat.shiftLeft_zero]

theorem hardReg4_toNat (fract : UInt64) : (hardReg4 fract).toNat = fract.toNat % 2 ^ 20 := by
  have h := masked_toNat fract 20 0 (by decide)
  rw [Nat.shiftLeft_zero] at h
  rw [← h]
  simp [hardReg4]

theorem reg3Fields_fits (format : Format) (i n fract : UInt64) :
    BitFields.Fits (reg3Fields format i n fract) := by
  have hmod : ∀ x k : Nat, x % 2 ^ k < 2 ^ k := fun x k => Nat.mod_lt x (Nat.two_pow_pos k)
  simp only [reg3Fields, BitFields.fits_cons]
  exact ⟨by decide, hmod _ _, hmod _ _, hmod _ _, agc_lt _, by decide, by simp [BitFields.Fits]⟩

def samplingOf (p : Dev) : Sampling :=
  Sampling.ofWords (hardReg3Of p).toNat (hardReg4Of p).toNat

theorem ofWords_eq (format : Format) (i n fract : UInt64) (hfract : fract.toNat < 2 ^ 21) :
    Sampling.ofWords (hardReg3 format i n fract).toNat (hardReg4 fract).toNat =
      ⟨(i / 2 - 1).toNat % 2 ^ 3, n.toNat % 2 ^ 4, fract.toNat, format.agc.toNat⟩ := by
  have hfits := reg3Fields_fits format i n fract
  have hapart : (reg3Fields format i n fract).Pairwise BitFields.Apart := by
    simp [reg3Fields, BitFields.Apart]
  have htop : BitFields.read 7 1 (BitFields.word (reg3Fields format i n fract)) =
      (fract >>> 20).toNat % 2 ^ 1 :=
    BitFields.read_word (f := ⟨7, 1, (fract >>> 20).toNat % 2 ^ 1⟩) hfits hapart
      (by simp [reg3Fields])
  have hshift : (fract >>> 20).toNat = fract.toNat / 2 ^ 20 := by
    rw [UInt64.toNat_shiftRight]
    exact Nat.shiftRight_eq_div_pow _ _
  rw [Sampling.ofWords, hardReg3_toNat, hardReg4_toNat, htop, hshift, Sampling.mk.injEq]
  refine ⟨?_, ?_, ?_, ?_⟩
  · exact BitFields.read_word (f := ⟨2, 3, (i / 2 - 1).toNat % 2 ^ 3⟩) hfits hapart
      (by simp [reg3Fields])
  · exact BitFields.read_word (f := ⟨8, 4, n.toNat % 2 ^ 4⟩) hfits hapart (by simp [reg3Fields])
  · simp only [BitFields.read, Nat.shiftRight_zero]
    omega
  · exact BitFields.read_word (f := ⟨12, 4, format.agc.toNat⟩) hfits hapart (by simp [reg3Fields])

theorem fractOf_toNat (vco : UInt64) :
    (fractOf vco).toNat = 2 ^ 21 * (vco.toNat % 48000000) / 48000000 := by
  simp only [fractOf, UInt64.toNat_div, UInt64.toNat_mul, UInt64.toNat_mod, UInt64.reduceToNat]
  omega

-- a rate the driver accepts is met from below, to less than half a sample per second
theorem samplingOf_close {p : Dev} (hlow : 1300000 ≤ p.rate.toNat) (hhigh : p.rate.toNat ≤ 15000000) :
    (samplingOf p).agc = p.format.agc.toNat ∧ 4 ≤ (samplingOf p).n ∧
      (p.rate.toNat : ℚ) - 1 / 2 < (samplingOf p).rate ∧ (samplingOf p).rate ≤ p.rate.toNat := by
  obtain ⟨k, hchosen⟩ := vcoOf_chosen hlow hhigh
  have hfract := fractOf_toNat (vcoOf p.rate).2
  have hlt : (fractOf (vcoOf p.rate).2).toNat < 2 ^ 21 := by
    rw [hfract]
    omega
  have heq := ofWords_eq p.format (vcoOf p.rate).1 ((vcoOf p.rate).2 / 48000000)
    (fractOf (vcoOf p.rate).2) hlt
  have hn : ((vcoOf p.rate).2 / 48000000).toNat = (vcoOf p.rate).2.toNat / 48000000 :=
    UInt64.toNat_div _ _
  have hi : ((vcoOf p.rate).1 / 2 - 1).toNat = k + 1 := by
    have hhalf : ((vcoOf p.rate).1 / 2).toNat = k + 2 := by
      rw [UInt64.toNat_div, hchosen.i]
      change 2 * (k + 2) / 2 = k + 2
      omega
    rw [UInt64.toNat_sub_of_le, hhalf]
    · rfl
    · rw [UInt64.le_iff_toNat_le, hhalf]
      change 1 ≤ k + 2
      omega
  have hsampling : samplingOf p = ⟨k + 1, (vcoOf p.rate).2.toNat / 48000000,
      2 ^ 21 * ((vcoOf p.rate).2.toNat % 48000000) / 48000000, p.format.agc.toNat⟩ := by
    have hsteps := hchosen.steps
    have hhigh := hchosen.high
    have h48 : (vcoOf p.rate).2.toNat / 48000000 % 2 ^ 4 = (vcoOf p.rate).2.toNat / 48000000 := by
      omega
    have hk : (k + 1) % 2 ^ 3 = k + 1 := by omega
    rw [hi, hn, hfract, h48, hk] at heq
    exact heq
  have hvco := hchosen.vco
  have hmin := hchosen.low
  generalize (vcoOf p.rate).2.toNat = vco at hsampling hvco hmin
  have hsplit := Nat.div_add_mod vco 48000000
  have hfloor := Nat.div_mul_le_self (2 ^ 21 * (vco % 48000000)) 48000000
  have hceil := Nat.lt_div_mul_add (a := 2 ^ 21 * (vco % 48000000)) (b := 48000000) (by decide)
  rw [hsampling]
  refine ⟨rfl, ?_, ?_⟩
  · dsimp only
    omega
  · generalize vco / 48000000 = n at hsplit
    generalize 2 ^ 21 * (vco % 48000000) / 48000000 = fract at hfloor hceil
    generalize vco % 48000000 = rest at hsplit hfloor hceil
    have hrate : (p.rate.toNat : ℚ) * (2 * (k + 2)) * 12 = 48000000 * n + rest := by
      have : p.rate.toNat * (2 * (k + 2)) * 12 = 48000000 * n + rest := by omega
      exact_mod_cast this
    have hfloor : (fract : ℚ) * 48000000 ≤ 2 ^ 21 * rest := by exact_mod_cast hfloor
    have hceil : (2 : ℚ) ^ 21 * rest < fract * 48000000 + 48000000 := by exact_mod_cast hceil
    have hk : (0 : ℚ) ≤ k := Nat.cast_nonneg k
    have hpos : (0 : ℚ) < 12 * (2 * ((k + 1 : Nat) + 1)) := by positivity
    simp only [Sampling.rate, Sampling.vco]
    rw [lt_div_iff₀ hpos, div_le_iff₀ hpos]
    push_cast
    constructor
    · linarith
    · linarith

end Msisdr
end SdrServer
