import SdrServer.Foundation.Transition
import SdrServer.Msisdr.Gain
import SdrServer.Msisdr.Hard

namespace SdrServer
namespace Msisdr

def setCenterFreq (freq : UInt32) (p : Dev) : Int × Dev := (0, setGain (setSoft { p with freq }))

def getCenterFreq (p : Dev) : UInt32 := p.freq

def getSampleRate (p : Dev) : UInt32 := p.rate

def ifFreqOf (freq : UInt32) : Option IfFreq :=
  if freq = 0 then some .zero
  else if freq = 450000 then some .if450kHz
  else if freq = 1620000 then some .if1620kHz
  else if freq = 2048000 then some .if2048kHz
  else none

def setIfFreq (freq : UInt32) (p : Dev) : Int × Dev :=
  match ifFreqOf freq with
  | some ifFreq => (0, setGain (setSoft { p with ifFreq }))
  | none => (-1, p)

def getIfFreq (p : Dev) : UInt32 :=
  match p.ifFreq with
  | .zero => 0
  | .if450kHz => 450000
  | .if1620kHz => 1620000
  | .if2048kHz => 2048000

-- one of the tests of msisdr_set_bandwidth: the last one that holds counts
def narrow (bw limit : UInt32) (bandwidth : Bandwidth) (ifFreq : Dev → IfFreq) (p : Dev) : Dev :=
  if bw ≤ limit then { p with bandwidth, ifFreq := ifFreq p } else p

def chooseBandwidth (bw : UInt32) (p : Dev) : Dev :=
  let p := { p with bandwidth := .max }
  let p := narrow bw 8000000 .bw8MHz (·.ifFreq) p
  let p := narrow bw 7000000 .bw7MHz (·.ifFreq) p
  let p := narrow bw 6000000 .bw6MHz (·.ifFreq) p
  let p := narrow bw 5000000 .bw5MHz (·.ifFreq) p
  let p := narrow bw 1536000 .bw1536kHz
    (fun p => if p.rate ≥ 5000000 then .if1620kHz else p.ifFreq) p
  let p := narrow bw 600000 .bw600kHz (fun _ => .if450kHz) p
  let p := narrow bw 300000 .bw300kHz (fun _ => .if450kHz) p
  narrow bw 200000 .bw200kHz (fun _ => .if450kHz) p

def setBandwidth (bw : UInt32) (p : Dev) : Int × Dev :=
  (0, setGain (setSoft (chooseBandwidth bw p)))

def Bandwidth.hertz : Bandwidth → UInt32
  | .bw200kHz => 200000
  | .bw300kHz => 300000
  | .bw600kHz => 600000
  | .bw1536kHz => 1536000
  | .bw5MHz => 5000000
  | .bw6MHz => 6000000
  | .bw7MHz => 7000000
  | .bw8MHz => 8000000
  | .max => 14000000

def getBandwidth (p : Dev) : UInt32 := p.bandwidth.hertz

def setOffsetTuning (on : Int) (p : Dev) : Int × Dev :=
  (0, setSoft { p with ifFreq := if on ≠ 0 then .if450kHz else .zero })

def setHwFlavour (hwFlavour : HwFlavour) (p : Dev) : Int × Dev :=
  (0, setGain (setSoft { p with hwFlavour }))

def setBias (bias : Int) (p : Dev) : Int × Dev := (0, updateReg8 { p with bias })

-- msisdr_stop_async and then msisdr_start_async, their results not looked at
def resetBuffer (restart : Restart) (p : Dev) : Int × Dev :=
  if p.asyncStatus = .running ∧ restart.stops then
    (0, { p with asyncStatus := if restart.starts then .running else .paused })
  else if p.asyncStatus = .paused ∧ restart.starts then (0, { p with asyncStatus := .running })
  else (0, p)

def adcInit (p : Dev) : Dev :=
  let p := writeReg p 0x08 0x006080
  let p := writeReg p 0x05 0x00000c
  let p := writeReg p 0x00 0x000200
  let p := writeReg p 0x02 0x004801
  writeReg p 0x08 0x00f380

-- the fields after the memset of msisdr_open and the assignments of msisdr_setup
def opened (pid : UInt16) : Dev where
  pid := pid
  freq := 90000000
  rate := 2000000
  gain := 43
  gainReductionLna := 0
  gainReductionMixbuffer := 0
  gainReductionMixer := 0
  gainReductionBaseband := 43
  hwFlavour := if pid = 0x3000 ∨ pid = 0x3010 then .sdrplay else .default
  band := .vhf
  formatAuto := true
  format := .s16_252
  bandwidth := .bw8MHz
  ifFreq := .zero
  xtal := .xtal24M
  asyncStatus := .inactive
  addr := 0
  bias := 0
  reg8 := 0
  writes := [controlTransfer 0x03 0x010000]

def setup (pid : UInt16) : Dev := setGain (setSoft (programHard (adcInit (opened pid))))

inductive Call where
  | setCenterFreq (freq : UInt32)
  | setIfFreq (freq : UInt32)
  | setBandwidth (bw : UInt32)
  | setOffsetTuning (on : Int)
  | setHwFlavour (hwFlavour : HwFlavour)
  | setBias (bias : Int)
  | setSampleRate (rate : UInt32) (restart : Restart)
  | setSampleFormat (v : String) (restart : Restart)
  | setTunerGain (gain : Int)
  | setTunerGainMode (mode : Int)
  | setMixerGain (gain : Int)
  | setMixbufferGain (gain : Int)
  | setLnaGain (gain : Int)
  | setBasebandGain (gain : Int)
  | resetBuffer (restart : Restart)
  | stream (asyncStatus : AsyncStatus)
  deriving DecidableEq, Repr

-- `stream` is what the reading thread does to the status in between
def Call.run : Call → Dev → Int × Dev
  | .setCenterFreq freq => Msisdr.setCenterFreq freq
  | .setIfFreq freq => Msisdr.setIfFreq freq
  | .setBandwidth bw => Msisdr.setBandwidth bw
  | .setOffsetTuning on => Msisdr.setOffsetTuning on
  | .setHwFlavour hwFlavour => Msisdr.setHwFlavour hwFlavour
  | .setBias bias => Msisdr.setBias bias
  | .setSampleRate rate restart => Msisdr.setSampleRate restart rate
  | .setSampleFormat v restart => Msisdr.setSampleFormat restart v
  | .setTunerGain gain => Msisdr.setTunerGain gain
  | .setTunerGainMode mode => Msisdr.setTunerGainMode mode
  | .setMixerGain gain => Msisdr.setMixerGain gain
  | .setMixbufferGain gain => Msisdr.setMixbufferGain gain
  | .setLnaGain gain => Msisdr.setLnaGain gain
  | .setBasebandGain gain => Msisdr.setBasebandGain gain
  | .resetBuffer restart => Msisdr.resetBuffer restart
  | .stream asyncStatus => fun p => (0, { p with asyncStatus })

def step (p : Dev) (call : Call) : Option Dev := some (call.run p).2

end Msisdr
end SdrServer
