import SdrServer.Foundation.BitFields
import SdrServer.Foundation.FractionalN
import SdrServer.Msisdr.Model

namespace SdrServer
namespace Msisdr

-- hw_switch_freq_plan_t
structure FreqPlan where
  lowCut : UInt32
  mode : Int32
  upconvertMixerOn : UInt32
  amPort : UInt32
  loDiv : UInt32
  bandSelectWord : UInt32
  deriving DecidableEq, Repr

def modeAm : Int32 := 0x01
def modeVhf : Int32 := 0x02
def modeB3 : Int32 := 0x04
def modeB45 : Int32 := 0x08
def modeBl : Int32 := 0x10

def hwSwitchFreqPlanDefault : List FreqPlan :=
  [⟨0, modeAm, 1, 1, 16, 0xf780⟩, ⟨12, modeAm, 1, 1, 16, 0xff80⟩, ⟨30, modeAm, 1, 1, 16, 0xf280⟩,
    ⟨50, modeVhf, 0, 0, 32, 0xf380⟩, ⟨108, modeB3, 0, 0, 16, 0xfa80⟩, ⟨250, modeB3, 0, 0, 16, 0xf680⟩,
    ⟨259, 6, 0, 0, 8, 0xf680⟩, ⟨330, modeB45, 0, 0, 4, 0xf380⟩, ⟨960, modeBl, 0, 0, 2, 0xfa80⟩,
    ⟨2400, -1, 0, 0, 0, 0x0000⟩]

def hwSwitchFreqPlanSdrplay : List FreqPlan :=
  [⟨0, modeAm, 1, 1, 16, 0xf580⟩, ⟨12, modeAm, 1, 1, 16, 0xf580⟩, ⟨30, modeAm, 1, 1, 16, 0xf580⟩,
    ⟨50, modeVhf, 0, 0, 32, 0xf180⟩, ⟨112, modeB3, 0, 0, 16, 0xf580⟩, ⟨250, modeB3, 0, 0, 16, 0xf480⟩,
    ⟨261, 6, 0, 0, 8, 0xf480⟩, ⟨404, modeB45, 0, 0, 4, 0xf580⟩, ⟨1000, modeBl, 0, 0, 2, 0xf580⟩,
    ⟨2400, -1, 0, 0, 0, 0x0000⟩]

def hwSwitchFreqPlan : HwFlavour → List FreqPlan
  | .default => hwSwitchFreqPlanDefault
  | .sdrplay => hwSwitchFreqPlanSdrplay

-- `i` after the while loop of msisdr_set_soft
def switchIndex (freq : UInt32) : List FreqPlan → Nat
  | [] => 0
  | plan :: plans =>
    if 1000000 * plan.lowCut ≤ freq then
      if plan.mode < 0 then 0 else switchIndex freq plans + 1
    else 0

def noPlan : FreqPlan := ⟨0, 0, 0, 0, 0, 0⟩

def switchPlan (flavour : HwFlavour) (freq : UInt32) : FreqPlan :=
  (hwSwitchFreqPlan flavour).getD (switchIndex freq (hwSwitchFreqPlan flavour) - 1) noPlan

def offsetOf (plan : FreqPlan) : UInt64 :=
  if plan.mode = modeAm ∧ plan.upconvertMixerOn ≠ 0 then 120000000 else 0

def loDivOf (plan : FreqPlan) : UInt64 := if plan.mode = modeAm then 16 else plan.loDiv.toUInt64

-- mode 6 has no band of its own: the band stays what it was
def bandOf (plan : FreqPlan) (band : Band) : Band :=
  if plan.mode = modeAm then
    if plan.amPort = 0 then .am1 else .am2
  else if plan.mode = modeVhf then .vhf
  else if plan.mode = modeB3 then .b3
  else if plan.mode = modeB45 then .b45
  else if plan.mode = modeBl then .l
  else band

structure Synthesis where
  n : UInt64
  thresh : UInt64
  frac : UInt64
  afc : UInt64
  deriving DecidableEq, Repr

-- for (a = thresh, b = frac; a != 0;) { c = a; a = b % a; b = c; }
def gcdLoop (a b : UInt64) : UInt64 :=
  if a = 0 then b else gcdLoop (b % a) a
termination_by a.toNat
decreasing_by
  rw [UInt64.toNat_mod]
  exact Nat.mod_lt _ (Nat.pos_of_ne_zero fun h => ‹a ≠ 0› (UInt64.toNat_inj.mp h))

def rfvco (loDiv n thresh frac afc : UInt64) : UInt64 :=
  96000000 * (n * thresh * 4096 + (frac * 4096 + afc)) / (thresh * 4096 * loDiv)

-- `target` is p->freq + offset
def synthesise (target loDiv : UInt64) : Synthesis :=
  let fvco := target * loDiv
  let n := fvco / 96000000
  let thresh := 96000000 / loDiv
  let frac := fvco % 96000000 / loDiv
  let b := gcdLoop thresh frac
  let thresh := thresh / b
  let frac := frac / b
  let a := (thresh + 4094) / 4095
  let thresh := (thresh + a / 2) / a
  let frac := (frac + a / 2) / a
  let frac := if target < rfvco loDiv n thresh frac 0 then frac - 1 else frac
  let afc := (target - rfvco loDiv n thresh frac 0) * thresh * 4096 * loDiv / 96000000
  ⟨n, thresh, frac, afc⟩

def IfFreq.mode : IfFreq → UInt32
  | .zero => 3
  | .if450kHz => 2
  | .if1620kHz => 1
  | .if2048kHz => 0

def Bandwidth.select : Bandwidth → UInt32
  | .bw200kHz => 0x00
  | .bw300kHz => 0x01
  | .bw600kHz => 0x02
  | .bw1536kHz => 0x03
  | .bw5MHz => 0x04
  | .bw6MHz => 0x05
  | .bw7MHz => 0x06
  | .bw8MHz => 0x07
  | .max => 0x07

def Xtal.select : Xtal → UInt32
  | .xtal19_2M => 0x00
  | .xtal22M => 0x01
  | .xtal24M => 0x02
  | .xtal24_576M => 0x02
  | .xtal26M => 0x03
  | .xtal38_4M => 0x04

def rfSynthesizerOn : UInt32 := 1
def ifLpmodeNormal : UInt32 := 0
def vcoLpmodeNormal : UInt32 := 0
def rfSynthesizerReservedProgramming : UInt32 := 0x28
def lbandLnaCalibrationOff : UInt32 := 0
def biasGpio : UInt32 := 3

def softReg0 (plan : FreqPlan) (p : Dev) : UInt32 :=
  (if plan.mode = modeAm then
    modeAm.toUInt32 <<< 4 ||| plan.upconvertMixerOn <<< 9 ||| plan.amPort <<< 11
  else plan.mode.toUInt32 <<< 4) ||| rfSynthesizerOn <<< 10 ||| p.ifFreq.mode <<< 12 |||
    p.bandwidth.select <<< 14 ||| p.xtal.select <<< 17 ||| ifLpmodeNormal <<< 20 |||
    vcoLpmodeNormal <<< 23

def softReg3 (s : Synthesis) : UInt32 := (3 : UInt32) ||| ((s.afc &&& 4095) <<< 4).toUInt32

def softReg5 (s : Synthesis) : UInt32 :=
  (5 : UInt32) ||| ((0xFFF &&& s.thresh) <<< 4).toUInt32 |||
    rfSynthesizerReservedProgramming <<< 16

def softReg2 (s : Synthesis) : UInt32 :=
  (2 : UInt32) ||| ((0xFFF &&& s.frac) <<< 4).toUInt32 ||| ((0x3F &&& s.n) <<< 16).toUInt32 |||
    lbandLnaCalibrationOff <<< 22

def softRegD (p : Dev) : UInt32 :=
  if p.bandwidth = .max then (0x0d : UInt32) ||| (1 : UInt32) <<< 4 else 0x0d

def planOf (p : Dev) : FreqPlan := switchPlan p.hwFlavour p.freq

def synthesisOf (p : Dev) : Synthesis :=
  synthesise (p.freq.toUInt64 + offsetOf (planOf p)) (loDivOf (planOf p))

def updateReg8 (p : Dev) : Dev :=
  writeReg p 0x08 (p.reg8 ||| if p.bias ≠ 0 then (1 : UInt32) <<< (biasGpio + 8) else 0)

-- always returns 0
def setSoft (p : Dev) : Dev :=
  let plan := planOf p
  let s := synthesisOf p
  let reg0 := softReg0 plan p
  let regd := softRegD p
  let p := updateReg8 { p with band := bandOf plan p.band, reg8 := plan.bandSelectWord }
  let p := writeReg p 0x09 0x0e
  let p := writeReg p 0x09 (softReg3 s)
  let p := writeReg p 0x09 reg0
  let p := writeReg p 0x09 (softReg5 s)
  let p := writeReg p 0x09 (softReg2 s)
  writeReg p 0x09 regd

end Msisdr
end SdrServer
