import Mathlib.Data.List.Basic
import Mathlib.Data.Nat.Bitwise
import Mathlib.Data.UInt

namespace SdrServer
namespace Msisdr

inductive HwFlavour where
  | default | sdrplay
  deriving DecidableEq, Repr

inductive Band where
  | am1 | am2 | vhf | b3 | b45 | l
  deriving DecidableEq, Repr

inductive Format where
  | s16_252 | s16_336 | s16_384 | s16_504 | s8_504
  deriving DecidableEq, Repr

inductive Bandwidth where
  | bw200kHz | bw300kHz | bw600kHz | bw1536kHz | bw5MHz | bw6MHz | bw7MHz | bw8MHz | max
  deriving DecidableEq, Repr

inductive IfFreq where
  | zero | if450kHz | if1620kHz | if2048kHz
  deriving DecidableEq, Repr

inductive Xtal where
  | xtal19_2M | xtal22M | xtal24M | xtal24_576M | xtal26M | xtal38_4M
  deriving DecidableEq, Repr

inductive AsyncStatus where
  | inactive | canceling | running | paused | failed
  deriving DecidableEq, Repr

-- wValue and wIndex of the vendor request 0x41
structure ControlTransfer where
  value : UInt16
  index : UInt16
  deriving DecidableEq, Repr

-- `writes` lists the register writes of the open device, the last one first
structure Dev where
  pid : UInt16
  freq : UInt32
  rate : UInt32
  gain : Int
  gainReductionLna : Int
  gainReductionMixbuffer : Int
  gainReductionMixer : Int
  gainReductionBaseband : Int
  hwFlavour : HwFlavour
  band : Band
  formatAuto : Bool
  format : Format
  bandwidth : Bandwidth
  ifFreq : IfFreq
  xtal : Xtal
  asyncStatus : AsyncStatus
  addr : UInt32
  bias : Int
  reg8 : UInt32
  writes : List ControlTransfer
  deriving DecidableEq, Repr

def controlTransfer (reg : UInt8) (val : UInt32) : ControlTransfer where
  value := ((val &&& 0xff) <<< 8 ||| reg.toUInt32).toUInt16
  index := (val >>> 8 &&& 0xffff).toUInt16

def writeReg (p : Dev) (reg : UInt8) (val : UInt32) : Dev :=
  { p with writes := controlTransfer reg val :: p.writes }

namespace ControlTransfer

-- what the chip makes of the two halves
def reg (t : ControlTransfer) : UInt8 := t.value.toUInt8

def val (t : ControlTransfer) : Nat := t.index.toNat * 256 + t.value.toNat / 256

end ControlTransfer

theorem value_controlTransfer (reg : UInt8) (val : UInt32) :
    (controlTransfer reg val).value.toNat = val.toNat % 256 * 256 + reg.toNat := by
  have hreg : reg.toNat < 2 ^ 8 := reg.toNat_lt
  have hlow : val.toNat &&& 255 = val.toNat % 256 := Nat.and_two_pow_sub_one_eq_mod _ 8
  have hshift : (val.toNat % 256) <<< 8 = val.toNat % 256 * 256 := Nat.shiftLeft_eq _ _
  simp only [controlTransfer, UInt32.toNat_toUInt16, UInt32.toNat_or, UInt32.toNat_shiftLeft,
    UInt32.toNat_and, UInt32.toNat_ofNat, UInt8.toNat_toUInt32, Nat.reduceMod, Nat.reducePow, hlow]
  rw [Nat.mod_eq_of_lt (a := (val.toNat % 256) <<< 8) (by omega),
    ← Nat.shiftLeft_add_eq_or_of_lt hreg, hshift]
  omega

theorem index_controlTransfer (reg : UInt8) (val : UInt32) :
    (controlTransfer reg val).index.toNat = val.toNat / 256 % 65536 := by
  have hlow : ∀ x : Nat, x &&& 65535 = x % 65536 := fun x => Nat.and_two_pow_sub_one_eq_mod x 16
  simp [controlTransfer, hlow, Nat.shiftRight_eq_div_pow]

@[simp] theorem reg_controlTransfer (reg : UInt8) (val : UInt32) :
    (controlTransfer reg val).reg = reg := by
  apply UInt8.toNat_inj.mp
  have hreg : reg.toNat < 256 := reg.toNat_lt
  rw [ControlTransfer.reg, UInt16.toNat_toUInt8, value_controlTransfer]
  omega

theorem val_controlTransfer (reg : UInt8) (val : UInt32) :
    (controlTransfer reg val).val = val.toNat % 2 ^ 24 := by
  have hreg : reg.toNat < 256 := reg.toNat_lt
  rw [ControlTransfer.val, value_controlTransfer, index_controlTransfer]
  omega

-- requests to register 9 are passed on to the tuner chip, whose own register is in the low 4 bits
inductive Register where
  | usb (reg : UInt8)
  | tuner (addr : Nat)
  deriving DecidableEq, Repr

def targetOf (reg : UInt8) (val : Nat) : Register :=
  if reg = 0x09 then .tuner (val % 16) else .usb reg

def Dev.register (p : Dev) (r : Register) : Option Nat :=
  (p.writes.find? fun t => targetOf t.reg t.val = r).map ControlTransfer.val

theorem register_writeReg (p : Dev) (reg : UInt8) (val : UInt32) (r : Register) :
    (writeReg p reg val).register r =
      if targetOf reg val.toNat = r then some (val.toNat % 2 ^ 24) else p.register r := by
  have htarget : targetOf (controlTransfer reg val).reg (controlTransfer reg val).val =
      targetOf reg val.toNat := by
    rw [reg_controlTransfer, val_controlTransfer, targetOf, targetOf]
    congr 2
    omega
  rw [Dev.register, writeReg, List.find?_cons, htarget]
  by_cases h : targetOf reg val.toNat = r
  · simp [h, val_controlTransfer]
  · simp [h, Dev.register]

theorem masked_toNat (x : UInt64) (width offset : Nat) (h : width + offset ≤ 32) :
    (((UInt64.ofNat (2 ^ width - 1) &&& x) <<< UInt64.ofNat offset).toUInt32).toNat =
      (x.toNat % 2 ^ width) <<< offset := by
  have hwidth : (2 : Nat) ^ width ≤ 2 ^ 32 := Nat.pow_le_pow_right (by decide) (by omega)
  have hpos : 0 < 2 ^ width := Nat.two_pow_pos width
  have hlt : (x.toNat % 2 ^ width) <<< offset < 2 ^ 32 := by
    rw [Nat.shiftLeft_eq]
    calc x.toNat % 2 ^ width * 2 ^ offset < 2 ^ width * 2 ^ offset :=
          Nat.mul_lt_mul_of_pos_right (Nat.mod_lt _ hpos) (Nat.two_pow_pos offset)
      _ = 2 ^ (width + offset) := (Nat.pow_add 2 width offset).symm
      _ ≤ 2 ^ 32 := Nat.pow_le_pow_right (by decide) h
  have hmask : (UInt64.ofNat (2 ^ width - 1)).toNat = 2 ^ width - 1 := by
    rw [UInt64.toNat_ofNat']
    omega
  have hoffset : (UInt64.ofNat offset).toNat % 64 = offset := by
    rw [UInt64.toNat_ofNat']
    omega
  rw [UInt64.toNat_toUInt32, UInt64.toNat_shiftLeft, UInt64.toNat_and, hmask, hoffset, Nat.and_comm,
    Nat.and_two_pow_sub_one_eq_mod, Nat.mod_eq_of_lt (hlt.trans (by decide)), Nat.mod_eq_of_lt hlt]

theorem shifted_toNat {x : UInt32} {width offset : Nat} (hx : x.toNat < 2 ^ width)
    (h : width + offset ≤ 32) : (x <<< UInt32.ofNat offset).toNat = x.toNat <<< offset := by
  have hlt : x.toNat <<< offset < 2 ^ 32 := by
    rw [Nat.shiftLeft_eq]
    calc x.toNat * 2 ^ offset < 2 ^ width * 2 ^ offset :=
          Nat.mul_lt_mul_of_pos_right hx (Nat.two_pow_pos offset)
      _ = 2 ^ (width + offset) := (Nat.pow_add 2 width offset).symm
      _ ≤ 2 ^ 32 := Nat.pow_le_pow_right (by decide) h
  by_cases hw : width = 0
  · have hzero : x = 0 := UInt32.toNat_inj.mp (by simpa [hw] using hx)
    simp [hzero]
  · have hoffset : (UInt32.ofNat offset).toNat % 32 = offset := by
      rw [UInt32.toNat_ofNat']
      omega
    rw [UInt32.toNat_shiftLeft, hoffset, Nat.mod_eq_of_lt hlt]

end Msisdr
end SdrServer
