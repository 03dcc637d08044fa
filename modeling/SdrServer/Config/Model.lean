import Mathlib.Data.Rat.Floor

namespace SdrServer
namespace Config

-- what libconfig's accessors return for one setting; `text` is `none` where
-- config_setting_get_string returns NULL
structure Setting where
  int : Int32
  float : Rat
  bool : Bool
  text : Option String

abbrev Libconfig := String → Option Setting

inductive CpuOptimization where
  | nativeCf32
  | optimizedCf32
  deriving DecidableEq, Repr

structure ServerConfig where
  bindAddress : String
  port : Int32
  readTimeoutSeconds : Int32
  deviceSerial : Option String
  optimization : CpuOptimization
  sdrType : Int32
  deviceIndex : Int32
  gainMode : Int32
  gain : Int32
  ppm : Int32
  biasT : Int32
  bufferSize : UInt32
  bandSamplingRate : UInt32
  queueSize : Int32
  lpfCutoffRate : Int32
  airspyGainMode : Int32
  airspyVgaGain : Int32
  airspyMixerGain : Int32
  airspyLnaGain : Int32
  airspyLinearityGain : Int32
  airspySensitivityGain : Int32
  hackrfBiasT : UInt8
  hackrfAmp : Int32
  hackrfLnaGain : Int32
  hackrfVgaGain : Int32
  msisdrGain : Int32
  msisdrGainMode : Int32
  msisdrIfFreq : Int32
  msisdrBandwidth : UInt32
  msisdrHwFlavour : Int32
  basePath : String
  useGzip : Bool
  deriving DecidableEq, Repr

def sdrTypeRtl : Int32 := 0

def sdrTypeAirspy : Int32 := 1

def sdrTypeHackrf : Int32 := 2

def sdrTypeMsi : Int32 := 3

def airspyGainAuto : Int32 := 0

def airspyGainSensitivity : Int32 := 1

def airspyGainLinearity : Int32 := 2

def airspyGainManual : Int32 := 3

def airspyBufferSize : UInt32 := 262144

-- `nullString` is strlen or strcmp of the NULL that a setting of another type gives
inductive Refusal where
  | message (text : String)
  | nullString
  deriving DecidableEq, Repr

def readAndCopyStr (setting : Option Setting) (defaultValue : Option String) :
    Except Refusal (Option String) :=
  match setting with
  | none => .ok defaultValue
  | some setting =>
    match setting.text with
    | none => .error .nullString
    | some text => .ok (some text)

def configReadInt (libconfig : Libconfig) (name : String) (defaultValue : Int32) : Int32 :=
  match libconfig name with
  | none => defaultValue
  | some setting => setting.int

def configReadFloat (libconfig : Libconfig) (name : String) (defaultValue : Rat) : Rat :=
  match libconfig name with
  | none => defaultValue
  | some setting => setting.float

def configReadBool (libconfig : Libconfig) (name : String) (defaultValue : Bool) : Bool :=
  match libconfig name with
  | none => defaultValue
  | some setting => setting.bool

def configReadUint32 (libconfig : Libconfig) (name : String) (defaultValue : UInt32) : UInt32 :=
  match libconfig name with
  | none => defaultValue
  | some setting => setting.int.toUInt32

def truncToInt (x : Rat) : Int32 := Int32.ofInt (x.num.tdiv x.den)

def configParseCpuOptimization (str : String) : Option CpuOptimization :=
  if str = "NATIVE_CF32" then some .nativeCf32
  else if str = "OPTIMIZED_CF32" then some .optimizedCf32
  else none

def check (bad : Bool) (text : String) : Except Refusal Unit :=
  if bad then .error (.message text) else .ok ()

def readOptimization (libconfig : Libconfig) : Except Refusal CpuOptimization :=
  match libconfig "cpu_optimization" with
  | none => .ok .nativeCf32
  | some setting =>
    match setting.text with
    | none => .error .nullString
    | some str =>
      match configParseCpuOptimization str with
      | none => .error (.message ("invalid cpu_optimization: " ++ str))
      | some optimization => .ok optimization

def forcedBufferSize (sdrType : Int32) (bufferSize : UInt32) : UInt32 :=
  if sdrType = sdrTypeAirspy ∧ bufferSize ≠ airspyBufferSize then airspyBufferSize else bufferSize

-- `file` is what config_read_file makes of the path: the text of libconfig's error, or the settings
def createServerConfig (tmpdir : Option String) (file : Except String Libconfig) :
    Except Refusal ServerConfig := do
  let libconfig ← file.mapError fun text => .message ("unable to read configuration: " ++ text)
  let sdrType := configReadInt libconfig "sdr_type" 0
  let biasT := configReadInt libconfig "bias_t" 0
  let gainMode := configReadInt libconfig "gain_mode" 0
  let gain := truncToInt (configReadFloat libconfig "gain" 0 * 10)
  let ppm := configReadInt libconfig "ppm" 0
  let airspyGainMode := configReadInt libconfig "airspy_gain_mode" airspyGainManual
  let airspyVgaGain := configReadInt libconfig "airspy_vga_gain" 5
  check (airspyVgaGain > 15 ∨ airspyVgaGain < 0) "invalid airspy_vga_gain configuration"
  let airspyMixerGain := configReadInt libconfig "airspy_mixer_gain" 0
  check (airspyMixerGain > 15 ∨ airspyMixerGain < 0) "invalid airspy_mixer_gain configuration"
  let airspyLnaGain := configReadInt libconfig "airspy_lna_gain" 1
  check (airspyLnaGain > 14 ∨ airspyLnaGain < 0) "invalid airspy_lna_gain configuration"
  let airspyLinearityGain := configReadInt libconfig "airspy_linearity_gain" 0
  check (airspyLinearityGain > 21 ∨ airspyLinearityGain < 0)
    "invalid airspy_linearity_gain configuration"
  let airspySensitivityGain := configReadInt libconfig "airspy_sensitivity_gain" 0
  check (airspySensitivityGain > 21 ∨ airspySensitivityGain < 0)
    "invalid airspy_sensitivity_gain configuration"
  let hackrfBiasT := (configReadInt libconfig "hackrf_bias_t" 0).toUInt32.toUInt8
  let hackrfAmp := configReadInt libconfig "hackrf_amp" 0
  check (hackrfAmp > 1) "hackrf_amp is either turned on (1) or off (0)"
  let hackrfLnaGain := configReadInt libconfig "hackrf_lna_gain" 16
  check (hackrfLnaGain < 0 ∨ hackrfLnaGain > 40) "invalid hackrf_lna_gain configuration"
  let hackrfVgaGain := configReadInt libconfig "hackrf_vga_gain" 16
  check (hackrfVgaGain < 0 ∨ hackrfVgaGain > 62) "invalid hackrf_vga_gain configuration"
  let msisdrGainMode := configReadInt libconfig "msisdr_gain_mode" 1
  let msisdrGain := configReadInt libconfig "msisdr_gain" 40
  check (msisdrGain < 0 ∨ msisdrGain > 102) "invalid msisdr_gain: must be 0..102"
  let msisdrIfFreq := configReadInt libconfig "msisdr_if_freq" 0
  let msisdrBandwidth := configReadUint32 libconfig "msisdr_bandwidth" 0
  let msisdrHwFlavour := configReadInt libconfig "msisdr_hw_flavour" 0
  let queueSize := configReadInt libconfig "queue_size" 64
  check (queueSize ≤ 0) ("queue size should be positive: " ++ toString queueSize)
  let bandSamplingRate ←
    ((libconfig "band_sampling_rate").map fun setting => setting.int.toUInt32).elim
      (.error (.message "missing required configuration: band_sampling_rate")) .ok
  let deviceIndex := configReadInt libconfig "device_index" 0
  let deviceSerial ← readAndCopyStr (libconfig "device_serial") none
  let bufferSize := forcedBufferSize sdrType (configReadUint32 libconfig "buffer_size" 262144)
  let lpfCutoffRate := configReadInt libconfig "lpf_cutoff_rate" 5
  let bindAddress ← readAndCopyStr (libconfig "bind_address") (some "127.0.0.1")
  let port := configReadInt libconfig "port" 8090
  let readTimeoutSeconds := configReadInt libconfig "read_timeout_seconds" 5
  check (readTimeoutSeconds ≤ 0)
    ("read timeout should be positive: " ++ toString readTimeoutSeconds)
  let basePath ← readAndCopyStr (libconfig "base_path") (some (tmpdir.getD "/tmp"))
  let useGzip := configReadBool libconfig "use_gzip" true
  let optimization ← readOptimization libconfig
  .ok
    { bindAddress := bindAddress.getD ""
      port, readTimeoutSeconds, deviceSerial, optimization, sdrType, deviceIndex, gainMode, gain,
      ppm, biasT, bufferSize, bandSamplingRate, queueSize, lpfCutoffRate, airspyGainMode,
      airspyVgaGain, airspyMixerGain, airspyLnaGain, airspyLinearityGain, airspySensitivityGain,
      hackrfBiasT, hackrfAmp, hackrfLnaGain, hackrfVgaGain, msisdrGain, msisdrGainMode,
      msisdrIfFreq, msisdrBandwidth, msisdrHwFlavour
      basePath := basePath.getD ""
      useGzip }

theorem bind_ok {ε α β : Type} {x : Except ε α} {f : α → Except ε β} {b : β}
    (h : x >>= f = .ok b) : ∃ a, x = .ok a ∧ f a = .ok b := by
  cases x with
  | error e => cases h
  | ok a => exact ⟨a, rfl, h⟩

theorem check_ok {bad : Bool} {text : String} {u : Unit} (h : check bad text = .ok u) :
    bad = false := by
  cases bad with
  | false => rfl
  | true => cases h

theorem createServerConfig_ok {tmpdir : Option String} {file : Except String Libconfig}
    {c : ServerConfig} (h : createServerConfig tmpdir file = .ok c) :
    0 < c.queueSize ∧ ∃ bufferSize, c.bufferSize = forcedBufferSize c.sdrType bufferSize := by
  obtain ⟨libconfig, -, h⟩ := bind_ok h
  -- the nine checks of gains and amplifier before the one of queue_size
  obtain ⟨_, -, h⟩ := bind_ok h
  obtain ⟨_, -, h⟩ := bind_ok h
  obtain ⟨_, -, h⟩ := bind_ok h
  obtain ⟨_, -, h⟩ := bind_ok h
  obtain ⟨_, -, h⟩ := bind_ok h
  obtain ⟨_, -, h⟩ := bind_ok h
  obtain ⟨_, -, h⟩ := bind_ok h
  obtain ⟨_, -, h⟩ := bind_ok h
  obtain ⟨_, -, h⟩ := bind_ok h
  obtain ⟨_, hqueue, h⟩ := bind_ok h
  have hsize := check_ok hqueue
  obtain ⟨bandSamplingRate, -, h⟩ := bind_ok h
  obtain ⟨deviceSerial, -, h⟩ := bind_ok h
  obtain ⟨bindAddress, -, h⟩ := bind_ok h
  obtain ⟨_, -, h⟩ := bind_ok h
  obtain ⟨basePath, -, h⟩ := bind_ok h
  obtain ⟨optimization, -, h⟩ := bind_ok h
  cases h
  exact ⟨by simpa using hsize, _, rfl⟩

theorem msisdrGain_bounds {tmpdir : Option String} {file : Except String Libconfig}
    {c : ServerConfig} (h : createServerConfig tmpdir file = .ok c) :
    0 ≤ c.msisdrGain.toInt ∧ c.msisdrGain.toInt ≤ 102 := by
  obtain ⟨libconfig, -, h⟩ := bind_ok h
  -- the eight checks of the other devices
  obtain ⟨_, -, h⟩ := bind_ok h
  obtain ⟨_, -, h⟩ := bind_ok h
  obtain ⟨_, -, h⟩ := bind_ok h
  obtain ⟨_, -, h⟩ := bind_ok h
  obtain ⟨_, -, h⟩ := bind_ok h
  obtain ⟨_, -, h⟩ := bind_ok h
  obtain ⟨_, -, h⟩ := bind_ok h
  obtain ⟨_, -, h⟩ := bind_ok h
  obtain ⟨_, hgain, h⟩ := bind_ok h
  have hrange := check_ok hgain
  obtain ⟨_, -, h⟩ := bind_ok h
  obtain ⟨bandSamplingRate, -, h⟩ := bind_ok h
  obtain ⟨deviceSerial, -, h⟩ := bind_ok h
  obtain ⟨bindAddress, -, h⟩ := bind_ok h
  obtain ⟨_, -, h⟩ := bind_ok h
  obtain ⟨basePath, -, h⟩ := bind_ok h
  obtain ⟨optimization, -, h⟩ := bind_ok h
  cases h
  simp only [decide_eq_false_iff_not, not_or, Int32.not_lt] at hrange
  exact ⟨Int32.le_iff_toInt_le.mp hrange.1, Int32.le_iff_toInt_le.mp hrange.2⟩

theorem forcedBufferSize_airspy (bufferSize : UInt32) :
    forcedBufferSize sdrTypeAirspy bufferSize = airspyBufferSize := by
  by_cases h : bufferSize = airspyBufferSize <;> simp [forcedBufferSize, h]

end Config
end SdrServer
