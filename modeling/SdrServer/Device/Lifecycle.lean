import SdrServer.Device.Buffers

namespace SdrServer
namespace Device

open Config (airspyGainAuto airspyGainSensitivity airspyGainLinearity airspyGainManual)

inductive LibCall where
  | pthreadCreate
  | rtlsdrOpen
  | rtlsdrSetSampleRate
  | rtlsdrSetTunerGainMode
  | rtlsdrSetFreqCorrection
  | rtlsdrCountTunerGains
  | rtlsdrGetTunerGains
  | rtlsdrSetTunerGain
  | rtlsdrSetBiasTee
  | rtlsdrResetBuffer
  | rtlsdrSetCenterFreq
  | airspyOpen
  | airspySetSampleType
  | airspySetSamplerate
  | airspySetPacking
  | airspySetRfBias
  | airspySetSensitivityGain
  | airspySetLinearityGain
  | airspySetLnaAgc
  | airspySetMixerAgc
  | airspySetVgaGain
  | airspySetMixerGain
  | airspySetLnaGain
  | airspySetFreq
  | airspyStartRx
  | hackrfInit
  | hackrfOpenBySerial
  | hackrfOpen
  | hackrfVersionStringRead
  | hackrfUsbApiVersionRead
  | hackrfSetFreq
  | hackrfSetSampleRate
  | hackrfSetBasebandFilterBandwidth
  | hackrfSetAmpEnable
  | hackrfSetLnaGain
  | hackrfSetVgaGain
  | hackrfSetAntennaEnable
  | hackrfStartRx
  | msisdrOpen
  | msisdrSetHwFlavour
  | msisdrRsp1aGpioInit
  | msisdrSetSampleFormat
  | msisdrSetIfFreq
  | msisdrSetBandwidth
  | msisdrSetSampleRate
  | msisdrSetCenterFreq
  | msisdrSetTunerGainMode
  | msisdrSetTunerGain
  | msisdrResetBuffer
  deriving DecidableEq, Repr

namespace LibCall

def opens : LibCall → Bool
  | .rtlsdrOpen => true
  | .airspyOpen => true
  | .hackrfOpenBySerial => true
  | .hackrfOpen => true
  | .msisdrOpen => true
  | _ => false

-- what the driver takes for the result: find_nearest_gain looks for a positive count, and
-- nobody looks at what msisdr_rsp1a_gpio_init returns
def result (call : LibCall) (code : Int32) : Int32 :=
  match call with
  | .rtlsdrCountTunerGains => if code ≤ 0 then -1 else 0
  | .rtlsdrGetTunerGains => if code ≤ 0 then -1 else 0
  | .msisdrRsp1aGpioInit => 0
  | _ => code

end LibCall

-- the codes of one start; the vendored msisdr_open returns 0, -1 or -ENOMEM
structure Codes where
  code : LibCall → Int32
  msisdrOpen : code .msisdrOpen ≤ 0

def Codes.succeeding : Codes where
  code := fun _ => 0
  msisdrOpen := by decide

def Codes.failing (failed : LibCall) : Codes where
  code := fun call =>
    if call = failed then if failed = .pthreadCreate then 11 else -1 else 0
  msisdrOpen := by
    split
    · rename_i hfailed
      subst hfailed
      decide
    · decide

inductive RxThread where
  | none
  | created
  | testing
  | loading
  | calling (dev : Option Nat)
  | reading
  | ended
  deriving DecidableEq, Repr

inductive StopOp where
  | halt
  | stopRx
  | cancelAsync
  | close
  | clear
  | join
  deriving DecidableEq, Repr

inductive Phase where
  | idle
  | started
  | stopping (rest : List StopOp)
  | destroyed
  deriving DecidableEq, Repr

-- handles are numbered in the order of opening, and `misused` records a call on a closed handle,
-- an open over an open one and any use of a plugin that is not allocated
structure Rig where
  plugin : Bool
  dev : Option Nat
  running : Bool
  thread : RxThread
  phase : Phase
  allocated : Nat
  freed : Nat
  opened : Nat
  live : List Nat
  misused : Bool
  deriving DecidableEq, Repr

namespace Rig

def init : Rig :=
  ⟨false, none, false, .none, .idle, 0, 0, 0, [], false⟩

def touch (s : Rig) : Rig := { s with misused := s.misused || s.allocated ≤ s.freed }

def allocate (s : Rig) : Rig :=
  { s with plugin := true, dev := none, running := false, allocated := s.allocated + 1 }

def free (s : Rig) : Rig := { s.touch with freed := s.freed + 1 }

def openDev (s : Rig) : Rig :=
  { s with
    dev := some s.opened
    opened := s.opened + 1
    live := s.opened :: s.live
    misused := s.misused || s.live ≠ [] }

-- the libraries return at once for NULL
def callOn (dev : Option Nat) (s : Rig) : Rig :=
  { s with misused := s.misused || dev.any (· ∉ s.live) }

def close (s : Rig) : Rig :=
  match s.dev with
  | none => s
  | some dev => { s.callOn (some dev) with live := s.live.erase dev }

def clear (s : Rig) : Rig := { s with dev := none }

def perform (codes : Codes) (call : LibCall) (s : Rig) : Rig :=
  if call.opens then
    if codes.code call = 0 then s.touch.openDev else s.touch
  else s.touch.callOn s.dev

end Rig

def fails (driver : Driver) (code : Int32) : Bool :=
  match driver with
  | .msisdr => code < 0
  | _ => code ≠ 0

-- what each driver's ERROR_CHECK does before it returns; hackrf's is hackrf_device_stop_rx
def cleanup (driver : Driver) (s : Rig) : Rig :=
  match driver with
  | .rtlsdr => s.close.clear
  | .hackrf => if s.dev = none then s else (s.callOn s.dev).close.clear
  | _ => if s.dev = none then s else s.close.clear

def errorCheck (driver : Driver) (codes : Codes) (s : Rig) (call : LibCall) :
    Except (Int32 × Rig) Rig :=
  if fails driver (call.result (codes.code call)) then
    .error (call.result (codes.code call), cleanup driver (s.perform codes call))
  else .ok (s.perform codes call)

open LibCall in
def rtlsdrCalls (c : Config.ServerConfig) : List LibCall :=
  [rtlsdrSetSampleRate, rtlsdrSetTunerGainMode] ++
    (if c.ppm ≠ 0 then [rtlsdrSetFreqCorrection] else []) ++
    (if c.gainMode = 1 then
      [rtlsdrCountTunerGains, rtlsdrGetTunerGains, rtlsdrSetTunerGain] else []) ++
    [rtlsdrSetBiasTee, rtlsdrResetBuffer, rtlsdrSetCenterFreq]

def airspyCalls : List LibCall :=
  [.airspySetSampleType, .airspySetSamplerate, .airspySetPacking, .airspySetRfBias]

-- the switch over the gain mode: `none` is its default
def airspyGainCalls (c : Config.ServerConfig) : Option (List LibCall) :=
  if c.airspyGainMode = airspyGainSensitivity then some [.airspySetSensitivityGain]
  else if c.airspyGainMode = airspyGainLinearity then some [.airspySetLinearityGain]
  else if c.airspyGainMode = airspyGainAuto then some [.airspySetLnaAgc, .airspySetMixerAgc]
  else if c.airspyGainMode = airspyGainManual then
    some [.airspySetVgaGain, .airspySetMixerGain, .airspySetLnaGain]
  else none

def hackrfOpenCall (c : Config.ServerConfig) : LibCall :=
  if c.deviceSerial = none then .hackrfOpen else .hackrfOpenBySerial

def hackrfCalls : List LibCall :=
  [.hackrfVersionStringRead, .hackrfUsbApiVersionRead, .hackrfSetFreq, .hackrfSetSampleRate,
    .hackrfSetBasebandFilterBandwidth, .hackrfSetAmpEnable, .hackrfSetLnaGain, .hackrfSetVgaGain,
    .hackrfSetAntennaEnable, .hackrfStartRx]

open LibCall in
def msisdrCalls (c : Config.ServerConfig) : List LibCall :=
  [msisdrSetHwFlavour] ++
    (if c.msisdrHwFlavour = 1 then [msisdrRsp1aGpioInit] else []) ++
    [msisdrSetSampleFormat, msisdrSetIfFreq, msisdrSetBandwidth, msisdrSetSampleRate,
      msisdrSetCenterFreq, msisdrSetTunerGainMode] ++
    (if c.msisdrGainMode = 1 then [msisdrSetTunerGain] else []) ++
    [msisdrResetBuffer]

def rtlsdrDeviceStartRx (c : Config.ServerConfig) (codes : Codes) (s : Rig) :
    Except (Int32 × Rig) Rig := do
  let s ← errorCheck .rtlsdr codes s .rtlsdrOpen
  let s ← (rtlsdrCalls c).foldlM (errorCheck .rtlsdr codes) s
  if codes.code .pthreadCreate ≠ 0 then .error (4, s.touch)
  else .ok { s.touch with thread := .created }

def airspyDeviceStartRx (c : Config.ServerConfig) (codes : Codes) (s : Rig) :
    Except (Int32 × Rig) Rig := do
  let s ← errorCheck .airspy codes s .airspyOpen
  let s ← airspyCalls.foldlM (errorCheck .airspy codes) s
  match airspyGainCalls c with
  | none => .error (1, s.free)
  | some gainCalls =>
    let s ← gainCalls.foldlM (errorCheck .airspy codes) s
    let s ← errorCheck .airspy codes s .airspySetFreq
    let s := s.perform codes .airspyStartRx
    if codes.code .airspyStartRx ≠ 0 then .error (codes.code .airspyStartRx, s) else .ok s

def hackrfDeviceStartRx (c : Config.ServerConfig) (codes : Codes) (s : Rig) :
    Except (Int32 × Rig) Rig := do
  let s ← errorCheck .hackrf codes s (hackrfOpenCall c)
  hackrfCalls.foldlM (errorCheck .hackrf codes) s

def msisdrDeviceStartRx (c : Config.ServerConfig) (codes : Codes) (s : Rig) :
    Except (Int32 × Rig) Rig := do
  let s ← errorCheck .msisdr codes s .msisdrOpen
  let s ← (msisdrCalls c).foldlM (errorCheck .msisdr codes) s
  let s := { s.touch with running := true }
  if codes.code .pthreadCreate ≠ 0 then
    .error (-codes.code .pthreadCreate, { s.close.clear with running := false })
  else .ok { s with thread := .created }

def deviceStartRx (driver : Driver) (c : Config.ServerConfig) (codes : Codes) (s : Rig) :
    Except (Int32 × Rig) Rig :=
  match driver with
  | .rtlsdr => rtlsdrDeviceStartRx c codes s
  | .airspy => airspyDeviceStartRx c codes s
  | .hackrf => hackrfDeviceStartRx c codes s
  | .msisdr => msisdrDeviceStartRx c codes s

def deviceCreate (driver : Driver) (codes : Codes) (s : Rig) : Except (Int32 × Rig) Rig :=
  if driver = .hackrf ∧ codes.code .hackrfInit ≠ 0 then .error (codes.code .hackrfInit, s)
  else .ok s.allocate

def pluginOf (driver : Driver) (codes : Codes) (s : Rig) : Except (Int32 × Rig) Rig :=
  if s.plugin then .ok s else deviceCreate driver codes s

-- sdr_device_start returns 4 for every failure, and after 0 the caller goes on to stop
def Rig.returned : Except (Int32 × Rig) Rig → Rig
  | .ok s => { s with phase := .started }
  | .error r => { r.2 with phase := .idle }

def sdrDeviceStart (driver : Driver) (c : Config.ServerConfig) (codes : Codes) (s : Rig) : Rig :=
  Rig.returned (pluginOf driver codes s >>= deviceStartRx driver c codes)

def Driver.stopOps : Driver → List StopOp
  | .rtlsdr => [.halt, .close, .clear, .join]
  | .airspy => [.stopRx, .close]
  | .hackrf => [.stopRx, .close, .clear]
  | .msisdr => [.halt, .cancelAsync, .join, .close, .clear]

-- rtlsdr_device_stop_rx is the one that does not look at the handle first
def deviceStopRx (driver : Driver) (dev : Option Nat) : List StopOp :=
  if driver = .rtlsdr ∨ dev ≠ none then Driver.stopOps driver else []

namespace Rig

def stopOp (op : StopOp) (s : Rig) : Option Rig :=
  match op with
  | .halt => some { s.touch with running := false }
  | .stopRx => some (s.touch.callOn s.dev)
  | .cancelAsync => some (s.touch.callOn s.dev)
  | .close => some s.touch.close
  | .clear => some s.touch.clear
  | .join => if s.thread = .ended then some { s.touch with thread := .none } else none

def rx (driver : Driver) (code : Int32) (s : Rig) : Option Rig :=
  match driver, s.thread with
  | .rtlsdr, .created => some { s.touch with running := true, thread := .testing }
  | .rtlsdr, .testing =>
    some { s.touch with thread := if s.running then .loading else .ended }
  | .rtlsdr, .loading => some { s.touch with thread := .calling s.dev }
  | .rtlsdr, .reading =>
    if code ≠ 0 then some { s with thread := .ended }
    else some { s.touch with thread := .testing }
  | .msisdr, .created => some { s.touch with thread := .calling s.dev }
  | .msisdr, .reading => some { s with thread := .ended }
  | _, .calling dev => some { s.callOn dev with thread := .reading }
  | _, _ => none

def destroy (s : Rig) : Rig :=
  { (if s.plugin then s.free else s) with plugin := false, phase := .destroyed }

end Rig

inductive RigEvent where
  | start (codes : Codes)
  | stop
  | stopNext
  | rx (code : Int32)
  | destroy

-- sdr_device_stop is called after a start that returned 0, and sdr_device_destroy at the end
def rigStep (driver : Driver) (c : Config.ServerConfig) (s : Rig) : RigEvent → Option Rig
  | .start codes => if s.phase = .idle then some (sdrDeviceStart driver c codes s) else none
  | .stop =>
    if s.phase = .started then
      some { s.touch with phase := .stopping (deviceStopRx driver s.dev) }
    else none
  | .stopNext =>
    match s.phase with
    | .stopping [] => some { s with phase := .idle }
    | .stopping (op :: rest) => (s.stopOp op).map ({ · with phase := .stopping rest })
    | _ => none
  | .rx code => s.rx driver code
  | .destroy => if s.phase = .idle then some s.destroy else none

structure HandlesKept (s : Rig) : Prop where
  used : s.misused = false
  closed : s.phase = .idle → s.live = []
  released : s.phase = .destroyed → s.live = [] ∧ s.freed = s.allocated

def Passes (driver : Driver) (codes : Codes) (calls : List LibCall) : Prop :=
  ∀ call ∈ calls, fails driver (call.result (codes.code call)) = false

instance (driver : Driver) (codes : Codes) (calls : List LibCall) :
    Decidable (Passes driver codes calls) :=
  inferInstanceAs (Decidable (∀ call ∈ calls, _))

def RxThread.settled : RxThread → Bool
  | .created => false
  | .loading => false
  | .calling _ => false
  | _ => true

structure RtlsdrStarts (c : Config.ServerConfig) (codes : Codes) : Prop where
  thread : Passes .rtlsdr codes (.rtlsdrOpen :: rtlsdrCalls c) → codes.code .pthreadCreate = 0

structure AirspyStarts (c : Config.ServerConfig) (codes : Codes) (s : Rig) : Prop where
  reopens : s.dev = none ∨ codes.code .airspyOpen = 0
  gainMode : Passes .airspy codes (.airspyOpen :: airspyCalls) → airspyGainCalls c ≠ none
  rx : ∀ gainCalls ∈ airspyGainCalls c,
    Passes .airspy codes (.airspyOpen :: airspyCalls ++ gainCalls ++ [.airspySetFreq]) →
    codes.code .airspyStartRx = 0

instance (c : Config.ServerConfig) (codes : Codes) : Decidable (RtlsdrStarts c codes) :=
  decidable_of_iff (Passes .rtlsdr codes (.rtlsdrOpen :: rtlsdrCalls c) →
    codes.code .pthreadCreate = 0) ⟨fun h => ⟨h⟩, (·.thread)⟩

instance (c : Config.ServerConfig) (codes : Codes) (s : Rig) :
    Decidable (AirspyStarts c codes s) :=
  decidable_of_iff ((s.dev = none ∨ codes.code .airspyOpen = 0) ∧
    (Passes .airspy codes (.airspyOpen :: airspyCalls) → airspyGainCalls c ≠ none) ∧
    ∀ gainCalls ∈ airspyGainCalls c,
      Passes .airspy codes (.airspyOpen :: airspyCalls ++ gainCalls ++ [.airspySetFreq]) →
      codes.code .airspyStartRx = 0)
    ⟨fun h => ⟨h.1, h.2.1, h.2.2⟩, fun h => ⟨h.reopens, h.gainMode, h.rx⟩⟩

def Phase.closes : Phase → Bool
  | .stopping (.close :: _) => true
  | _ => false

-- `stopNext`: where rtlsdr_device_stop_rx closes the handle, its thread has gone by the last
-- test of running or will find it false
def Careful (driver : Driver) (c : Config.ServerConfig) (s : Rig) : RigEvent → Prop
  | .start codes =>
    (driver = .rtlsdr → RtlsdrStarts c codes) ∧ (driver = .airspy → AirspyStarts c codes s)
  | .stopNext =>
    driver = .rtlsdr → s.phase.closes = true → s.running = false ∧ s.thread.settled = true
  | _ => True

instance (driver : Driver) (c : Config.ServerConfig) (s : Rig) :
    ∀ e, Decidable (Careful driver c s e)
  | .start _ => inferInstanceAs (Decidable (_ ∧ _))
  | .stop => inferInstanceAs (Decidable True)
  | .stopNext => inferInstanceAs (Decidable (_ → _))
  | .rx _ => inferInstanceAs (Decidable True)
  | .destroy => inferInstanceAs (Decidable True)

end Device
end SdrServer
