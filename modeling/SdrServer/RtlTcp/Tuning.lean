import SdrServer.Msisdr.Mirror
import SdrServer.RtlTcp.Settings

namespace SdrServer
namespace RtlTcp

open Msisdr (Restart knobs knobs_retune knobs_programHard)

-- device_open_and_configure once msisdr_open gave it a device; its results are not looked at, and
-- msisdr_rsp1a_gpio_init writes no register
def configureCalls (state : Settings) (restart : Restart) : List Msisdr.Call :=
  [.setHwFlavour .default, .setSampleFormat "AUTO" restart, .setIfFreq 0, .setBandwidth 8000000,
    .setSampleRate state.sampleRate restart, .setCenterFreq state.centerFreq,
    .setTunerGainMode state.gainMode.toInt, .setTunerGain state.gain.toInt, .resetBuffer restart]

def deviceOpenAndConfigure (state : Settings) (restart : Restart) (pid : UInt16) : Msisdr.Dev :=
  (configureCalls state restart).foldl (fun p call => (call.run p).2) (Msisdr.setup pid)

-- what msisdr_setup leaves the device at
def atOpen : Settings where
  centerFreq := 90000000
  sampleRate := 2000000
  gainMode := 1
  gain := 43

def Setter.call? (state : Settings) (restart : Restart) : Setter → Option Msisdr.Call
  | .setCenterFreq freq => some (.setCenterFreq freq)
  | .setSampleRate rate => some (.setSampleRate rate restart)
  | .setTunerGainMode => some (.setTunerGainMode state.gainMode.toInt)
  | .setTunerGain => if state.gainMode = 1 then some (.setTunerGain state.gain.toInt) else none

-- `device` holds what the calls asked for and `chip` what the driver made of them
structure Served where
  device : DeviceState
  chip : Option Msisdr.Dev

-- `stream` is what the streaming thread does to the status of the device
inductive ServedEvent where
  | command (cmd : UInt8) (param : UInt32)
  | setter (restart : Restart)
  | close
  | openAndConfigure (pid : UInt16) (restart : Restart)
  | stream (asyncStatus : Msisdr.AsyncStatus)
  deriving DecidableEq, Repr

def ServedEvent.asked : ServedEvent → Option DeviceEvent
  | .command cmd param => some (.command cmd param)
  | .setter _ => some .setter
  | .close => some .close
  | .openAndConfigure _ _ => some (.openAndConfigure atOpen)
  | .stream _ => none

namespace Served

def start (state : Settings) (restart : Restart) (pid : UInt16) : Served where
  device := .start state atOpen
  chip := some (deviceOpenAndConfigure state restart pid)

def chipAfter (s : Served) : ServedEvent → Option Msisdr.Dev
  | .command _ _ => s.chip
  | .setter restart =>
    match s.device.inProgress.bind (Setter.call? s.device.state restart) with
    | some call => s.chip.map fun p => (call.run p).2
    | none => s.chip
  | .close => none
  | .openAndConfigure pid restart => some (deviceOpenAndConfigure s.device.state restart pid)
  | .stream asyncStatus => s.chip.map fun p => { p with asyncStatus }

def step (s : Served) (e : ServedEvent) : Option Served :=
  match e.asked with
  | some asked => (s.device.step asked).map fun device => { device, chip := s.chipAfter e }
  | none => some { s with chip := s.chipAfter e }

-- every command takes effect, and a stream stops when it is asked to
structure Orderly (s : Served) (e : ServedEvent) : Prop where
  effective : ∀ asked, e.asked = some asked → Effective s.device asked
  stops : ∀ restart, e = .setter restart → ∀ p, s.chip = some p → p.asyncStatus = .running →
    restart.stops = true

end Served

-- the device is set to `a`, as far as the fields of its handle go
structure Held (a : Settings) (p : Msisdr.Dev) : Prop where
  flavour : p.hwFlavour = .default
  freq : p.freq = a.centerFreq
  rate : p.rate = Msisdr.limitRate a.sampleRate
  formatAuto : p.formatAuto = true
  format : p.format = Msisdr.chooseFormat p.rate

structure HeldGain (a : Settings) (p : Msisdr.Dev) : Prop where
  gain : p.gain = min a.gain.toInt 102
  split : Msisdr.Split p.gain p.gainReductionLna p.gainReductionMixbuffer p.gainReductionMixer
    p.gainReductionBaseband

structure Shows (a : Settings) (p : Msisdr.Dev) : Prop where
  mirrored : Msisdr.Mirrored p
  held : Held a p
  gain : 0 ≤ a.gain.toInt → HeldGain a p

section Calls

variable {a : Settings} {p : Msisdr.Dev}

theorem held_knobs : Held a (knobs p) ↔ Held a p := by
  constructor <;> exact fun h => ⟨h.flavour, h.freq, h.rate, h.formatAuto, h.format⟩

theorem heldGain_knobs : HeldGain a (knobs p) ↔ HeldGain a p := by
  constructor <;> exact fun h => ⟨h.gain, h.split⟩

theorem Held.retune (h : Held a p) : Held a (Msisdr.setGain (Msisdr.setSoft p)) := by
  rw [← held_knobs, knobs_retune rfl]
  exact held_knobs.mpr h

theorem HeldGain.retune (h : HeldGain a p) : HeldGain a (Msisdr.setGain (Msisdr.setSoft p)) := by
  rw [← heldGain_knobs, knobs_retune rfl]
  exact heldGain_knobs.mpr h

theorem held_programHard (hflavour : p.hwFlavour = .default) (hfreq : p.freq = a.centerFreq)
    (hrate : p.rate = a.sampleRate) (hauto : p.formatAuto = true) : Held a (Msisdr.programHard p) := by
  rw [← held_knobs, knobs_programHard rfl, Msisdr.settled, if_pos (show (knobs p).formatAuto by exact hauto)]
  exact ⟨hflavour, hfreq, congrArg Msisdr.limitRate hrate, hauto, rfl⟩

theorem HeldGain.programHard (h : HeldGain a p) : HeldGain a (Msisdr.programHard p) := by
  rw [← heldGain_knobs, knobs_programHard rfl, Msisdr.settled]
  split <;> exact ⟨h.gain, h.split⟩

theorem held_setHard {restart : Restart} (hflavour : p.hwFlavour = .default)
    (hfreq : p.freq = a.centerFreq) (hrate : p.rate = a.sampleRate) (hauto : p.formatAuto = true)
    (hstops : p.asyncStatus = .running → restart.stops = true) :
    Held a (Msisdr.setHard restart p).2 := by
  unfold Msisdr.setHard
  split
  · rename_i hrunning
    have hheld : Held a (Msisdr.programHard (Msisdr.adcStop { p with asyncStatus := .paused })) :=
      held_programHard hflavour hfreq hrate hauto
    rw [if_pos (hstops hrunning)]
    cases restart.starts with
    | true => exact ⟨hheld.flavour, hheld.freq, hheld.rate, hheld.formatAuto, hheld.format⟩
    | false => exact hheld
  · exact held_programHard hflavour hfreq hrate hauto

theorem HeldGain.setHard {restart : Restart} (h : HeldGain a p) :
    HeldGain a (Msisdr.setHard restart p).2 := by
  unfold Msisdr.setHard
  split_ifs
  · have hgain : HeldGain a (Msisdr.programHard (Msisdr.adcStop { p with asyncStatus := .paused })) :=
      HeldGain.programHard ⟨h.gain, h.split⟩
    exact ⟨hgain.gain, hgain.split⟩
  · exact HeldGain.programHard ⟨h.gain, h.split⟩
  · exact h
  · exact h.programHard

theorem heldGain_setTunerGain (h : 0 ≤ a.gain.toInt) :
    HeldGain a (Msisdr.setTunerGain a.gain.toInt p).2 := by
  obtain ⟨lna, mixbuffer, mixer, baseband, hsplit, heq⟩ := Msisdr.setTunerGain_split h p
  rw [heq]
  exact ⟨rfl, hsplit⟩

theorem Held.setTunerGain (h : Held a p) (gain : Int) : Held a (Msisdr.setTunerGain gain p).2 := by
  unfold Msisdr.setTunerGain
  dsimp only
  split_ifs <;> exact ⟨h.flavour, h.freq, h.rate, h.formatAuto, h.format⟩

theorem shows_call {s : DeviceState} {restart : Restart} (setter : Setter) (hdev : s.dev = some a)
    (h : Shows a p) (hstops : p.asyncStatus = .running → restart.stops = true) :
    ∃ b, s.call setter = some b ∧
      Shows b (((setter.call? s.state restart).map fun call => (call.run p).2).getD p) := by
  cases setter with
  | setCenterFreq freq =>
    refine ⟨a.setCenterFreq freq, by rw [DeviceState.call, hdev]; rfl, ?_, ?_, ?_⟩
    · exact h.mirrored.run (.setCenterFreq freq) trivial
    · exact Held.retune (p := { p with freq })
        ⟨h.held.flavour, rfl, h.held.rate, h.held.formatAuto, h.held.format⟩
    · intro h0
      exact HeldGain.retune (p := { p with freq }) ⟨(h.gain h0).gain, (h.gain h0).split⟩
  | setSampleRate rate =>
    refine ⟨a.setSampleRate rate, by rw [DeviceState.call, hdev]; rfl, ?_, ?_, ?_⟩
    · exact h.mirrored.run (.setSampleRate rate restart) hstops
    · exact held_setHard (p := { p with rate }) h.held.flavour h.held.freq rfl h.held.formatAuto hstops
    · intro h0
      exact HeldGain.setHard (p := { p with rate }) ⟨(h.gain h0).gain, (h.gain h0).split⟩
  | setTunerGainMode =>
    refine ⟨a.setTunerGainMode s.state.gainMode, by rw [DeviceState.call, hdev]; rfl, h.mirrored, ?_, ?_⟩
    · exact ⟨h.held.flavour, h.held.freq, h.held.rate, h.held.formatAuto, h.held.format⟩
    · exact fun h0 => ⟨(h.gain h0).gain, (h.gain h0).split⟩
  | setTunerGain =>
    by_cases hmanual : s.state.gainMode = 1
    · refine ⟨a.setTunerGain s.state.gain, by rw [DeviceState.call, if_pos hmanual, hdev]; rfl, ?_⟩
      rw [Setter.call?, if_pos hmanual]
      refine ⟨h.mirrored.run (.setTunerGain s.state.gain.toInt) trivial, ?_, ?_⟩
      · have hheld := h.held.setTunerGain s.state.gain.toInt
        exact ⟨hheld.flavour, hheld.freq, hheld.rate, hheld.formatAuto, hheld.format⟩
      · exact fun h0 => heldGain_setTunerGain (a := a.setTunerGain s.state.gain) h0
    · refine ⟨a, by rw [DeviceState.call, if_neg hmanual, hdev], ?_⟩
      rw [Setter.call?, if_neg hmanual]
      exact h

end Calls

section Configure

variable {p : Msisdr.Dev}

-- a device that nothing but its configuration was done to yet
structure AsOpened (p : Msisdr.Dev) : Prop where
  flavour : p.hwFlavour = .default
  formatAuto : p.formatAuto = true
  idle : p.asyncStatus = .inactive

theorem asOpened_knobs : AsOpened (knobs p) ↔ AsOpened p := by
  constructor <;> exact fun h => ⟨h.flavour, h.formatAuto, h.idle⟩

theorem AsOpened.retune (h : AsOpened p) : AsOpened (Msisdr.setGain (Msisdr.setSoft p)) := by
  rw [← asOpened_knobs, knobs_retune rfl]
  exact asOpened_knobs.mpr h

theorem AsOpened.programHard (h : AsOpened p) : AsOpened (Msisdr.programHard p) := by
  rw [← asOpened_knobs, knobs_programHard rfl, Msisdr.settled]
  split <;> exact ⟨h.flavour, h.formatAuto, h.idle⟩

theorem setHard_idle (restart : Restart) (h : p.asyncStatus = .inactive) :
    Msisdr.setHard restart p = (0, Msisdr.programHard p) := by
  rw [Msisdr.setHard, if_neg (by rw [h]; decide)]

theorem asOpened_setHwFlavour (pid : UInt16) :
    AsOpened ((Msisdr.Call.setHwFlavour .default).run (Msisdr.setup pid)).2 := by
  have hopened : knobs (Msisdr.setup pid) = { Msisdr.opened pid with writes := [] } :=
    knobs_retune (knobs_programHard rfl)
  have hauto : (knobs (Msisdr.setup pid)).formatAuto = true := by rw [hopened]; rfl
  have hidle : (knobs (Msisdr.setup pid)).asyncStatus = .inactive := by rw [hopened]; rfl
  exact AsOpened.retune (p := { Msisdr.setup pid with hwFlavour := .default }) ⟨rfl, hauto, hidle⟩

theorem AsOpened.setSampleFormat (h : AsOpened p) (restart : Restart) :
    AsOpened ((Msisdr.Call.setSampleFormat "AUTO" restart).run p).2 := by
  have hrun : (Msisdr.Call.setSampleFormat "AUTO" restart).run p =
      Msisdr.setHard restart { p with formatAuto := true } := by
    rw [Msisdr.Call.run, Msisdr.setSampleFormat, if_pos rfl]
  rw [hrun, setHard_idle (p := { p with formatAuto := true }) restart h.idle]
  exact AsOpened.programHard ⟨h.flavour, rfl, h.idle⟩

theorem AsOpened.setIfFreq (h : AsOpened p) : AsOpened ((Msisdr.Call.setIfFreq 0).run p).2 := by
  have hrun : (Msisdr.Call.setIfFreq 0).run p =
      (0, Msisdr.setGain (Msisdr.setSoft { p with ifFreq := .zero })) := by
    simp [Msisdr.Call.run, Msisdr.setIfFreq, Msisdr.ifFreqOf]
  rw [hrun]
  exact AsOpened.retune (p := { p with ifFreq := .zero }) ⟨h.flavour, h.formatAuto, h.idle⟩

theorem AsOpened.setBandwidth (h : AsOpened p) (bw : UInt32) :
    AsOpened ((Msisdr.Call.setBandwidth bw).run p).2 := by
  obtain ⟨bandwidth, ifFreq, heq⟩ := Msisdr.chooseBandwidth_eq bw p
  have hrun : (Msisdr.Call.setBandwidth bw).run p =
      (0, Msisdr.setGain (Msisdr.setSoft { p with bandwidth, ifFreq })) := by
    rw [Msisdr.Call.run, Msisdr.setBandwidth, heq]
  rw [hrun]
  exact AsOpened.retune (p := { p with bandwidth, ifFreq }) ⟨h.flavour, h.formatAuto, h.idle⟩

theorem Held.setCenterFreq {a : Settings} (h : Held a p) (freq : UInt32) :
    Held { a with centerFreq := freq } (Msisdr.setCenterFreq freq p).2 :=
  Held.retune (p := { p with freq }) ⟨h.flavour, rfl, h.rate, h.formatAuto, h.format⟩

theorem Shows.stream {a : Settings} (h : Shows a p) (asyncStatus : Msisdr.AsyncStatus) :
    Shows a { p with asyncStatus } where
  mirrored := h.mirrored.stream asyncStatus
  held := ⟨h.held.flavour, h.held.freq, h.held.rate, h.held.formatAuto, h.held.format⟩
  gain h0 := ⟨(h.gain h0).gain, (h.gain h0).split⟩

theorem Shows.resetBuffer {a : Settings} (h : Shows a p) (restart : Restart) :
    Shows a (Msisdr.resetBuffer restart p).2 := by
  unfold Msisdr.resetBuffer
  split_ifs
  · exact h.stream _
  · exact h.stream _
  · exact h.stream _
  · exact h

-- the calls that depend on g_dev
theorem shows_late (state : Settings) (restart : Restart) (h : AsOpened p) (hp : Msisdr.Mirrored p) :
    Shows state
      (([.setSampleRate state.sampleRate restart, .setCenterFreq state.centerFreq,
        .setTunerGainMode state.gainMode.toInt, .setTunerGain state.gain.toInt,
        .resetBuffer restart] : List Msisdr.Call).foldl (fun p call => (call.run p).2) p) := by
  have hrate : (Msisdr.Call.setSampleRate state.sampleRate restart).run p =
      (0, Msisdr.programHard { p with rate := state.sampleRate }) :=
    setHard_idle (p := { p with rate := state.sampleRate }) restart h.idle
  have hmirrored := hp.run (.setSampleRate state.sampleRate restart)
    (fun hrunning => absurd hrunning (by rw [h.idle]; decide))
  have hheld : Held { state with centerFreq := p.freq }
      (Msisdr.programHard { p with rate := state.sampleRate }) :=
    held_programHard h.flavour rfl rfl h.formatAuto
  rw [hrate] at hmirrored
  rw [List.foldl_cons, hrate, List.foldl_cons]
  generalize Msisdr.programHard { p with rate := state.sampleRate } = q at *
  have htuned := hmirrored.run (.setCenterFreq state.centerFreq) trivial
  have hheld' := (hheld.setCenterFreq state.centerFreq).setTunerGain state.gain.toInt
  have hgain : Shows state ((Msisdr.Call.setTunerGain state.gain.toInt).run
      ((Msisdr.Call.setCenterFreq state.centerFreq).run q).2).2 :=
    ⟨htuned.run (.setTunerGain state.gain.toInt) trivial, hheld', heldGain_setTunerGain⟩
  exact hgain.resetBuffer restart

theorem shows_deviceOpenAndConfigure (state : Settings) (restart : Restart) (pid : UInt16) :
    Shows (Settings.configure state atOpen) (deviceOpenAndConfigure state restart pid) := by
  have hflavour := asOpened_setHwFlavour pid
  have hmirrored := (Msisdr.mirrored_setup pid).run (.setHwFlavour .default) trivial
  rw [deviceOpenAndConfigure, configureCalls, List.foldl_cons]
  generalize ((Msisdr.Call.setHwFlavour .default).run (Msisdr.setup pid)).2 = p at *
  have hformat := hmirrored.run (.setSampleFormat "AUTO" restart)
    (fun hrunning => absurd hrunning (by rw [hflavour.idle]; decide))
  have hbandwidth := (hformat.run (.setIfFreq 0) trivial).run (.setBandwidth 8000000)
    trivial
  rw [List.foldl_cons, List.foldl_cons, List.foldl_cons]
  exact shows_late state restart ((hflavour.setSampleFormat restart).setIfFreq.setBandwidth 8000000)
    hbandwidth

end Configure

section Runs

variable {state : Settings} {s t : Served}

theorem rel_chipAfter {restart : Restart} {device : DeviceState}
    (h : Option.Rel Shows s.device.dev s.chip)
    (hstops : ∀ p, s.chip = some p → p.asyncStatus = .running → restart.stops = true)
    (hstep : s.device.step .setter = some device) :
    Option.Rel Shows device.dev (s.chipAfter (.setter restart)) := by
  obtain ⟨setter, hpending, rfl⟩ := Option.map_eq_some_iff.mp hstep
  have hchip : s.chipAfter (.setter restart) =
      s.chip.map fun p => ((setter.call? s.device.state restart).map fun call => (call.run p).2).getD p := by
    simp only [Served.chipAfter, hpending, Option.bind_some]
    cases setter.call? s.device.state restart with
    | none => simp
    | some call => rfl
  rw [hchip]
  generalize hdev : s.device.dev = dev at h
  generalize hp : s.chip = chip at h hstops
  cases h with
  | some h =>
    obtain ⟨b, hcall, hshows⟩ := shows_call setter hdev h (hstops _ rfl)
    dsimp only
    rw [hcall]
    exact .some hshows
  | none =>
    have hcall : s.device.call setter = none := by
      cases setter <;> simp [DeviceState.call, hdev]
    dsimp only
    rw [hcall]
    exact .none

structure Served.Sound (state : Settings) (s : Served) : Prop where
  follows : Follows state s.device
  shows : Option.Rel Shows s.device.dev s.chip

theorem sound_start (state : Settings) (restart : Restart) (pid : UInt16) :
    (Served.start state restart pid).Sound state where
  follows := follows_start state atOpen
  shows := .some (shows_deviceOpenAndConfigure state restart pid)

theorem Served.Sound.asked {e : ServedEvent} {device : DeviceState} {asked : DeviceEvent}
    (h : s.Sound state) (horderly : s.Orderly e) (hasked : e.asked = some asked)
    (hstep : s.device.step asked = some device) :
    Option.Rel Shows device.dev (s.chipAfter e) := by
  cases e with
  | command cmd param =>
    obtain rfl := Option.some.inj hasked
    simp only [DeviceState.step] at hstep
    split at hstep
    · obtain rfl := Option.some.inj hstep
      have hdev : (s.device.receive (decodeCmd cmd param)).dev = s.device.dev := by
        cases decodeCmd cmd param with
        | setSampleRate rate =>
          simp only [DeviceState.receive]
          split <;> rfl
        | _ => rfl
      change Option.Rel Shows (s.device.receive (decodeCmd cmd param)).dev s.chip
      rw [hdev]
      exact h.shows
    · cases hstep
  | setter restart =>
    obtain rfl := Option.some.inj hasked
    exact rel_chipAfter h.shows (horderly.stops restart rfl) hstep
  | close =>
    obtain rfl := Option.some.inj hasked
    obtain rfl := Option.some.inj hstep
    exact .none
  | openAndConfigure pid restart =>
    obtain rfl := Option.some.inj hasked
    simp only [DeviceState.step] at hstep
    split at hstep
    · obtain rfl := Option.some.inj hstep
      exact .some (shows_deviceOpenAndConfigure s.device.state restart pid)
    · cases hstep
  | stream asyncStatus => cases hasked

theorem Served.Sound.step {e : ServedEvent} (h : s.Sound state) (horderly : s.Orderly e)
    (hstep : s.step e = some t) : t.Sound state := by
  unfold Served.step at hstep
  cases hasked : e.asked with
  | some asked =>
    rw [hasked] at hstep
    obtain ⟨device, hdevice, rfl⟩ := Option.map_eq_some_iff.mp hstep
    exact ⟨follows_step h.follows (horderly.effective asked hasked) hdevice,
      h.asked horderly hasked hdevice⟩
  | none =>
    rw [hasked] at hstep
    obtain rfl := Option.some.inj hstep
    cases e with
    | stream asyncStatus =>
      refine ⟨h.follows, ?_⟩
      have hshows := h.shows
      generalize s.device.dev = dev at *
      generalize hchip : s.chip = chip at *
      simp only [Served.chipAfter, hchip]
      cases hshows with
      | some hp => exact .some (hp.stream asyncStatus)
      | none => exact .none
    | _ => cases hasked

end Runs

-- mode 6 of the tuner covers 259 to 330 MHz
structure TunedTo (a : Settings) (p : Msisdr.Dev) : Prop where
  tuner : a.centerFreq.toNat < 3072000000 → ∃ t, p.tuner = some t ∧ t.Legal ∧
    (a.centerFreq.toNat : ℚ) - 6 < t.frequency ∧ t.frequency < a.centerFreq.toNat + 1
  sampling : ∃ s, p.sampling = some s ∧
    ((Msisdr.limitRate a.sampleRate).toNat : ℚ) - 1 / 2 < s.rate ∧
    s.rate ≤ (Msisdr.limitRate a.sampleRate).toNat
  format : p.register (.usb 7) =
    some (Msisdr.chooseFormat (Msisdr.limitRate a.sampleRate)).register.toNat
  gain : a.gainMode = 1 → 0 ≤ a.gain.toInt →
    a.centerFreq.toNat < 259000000 ∨ 330000000 ≤ a.centerFreq.toNat →
    ∃ t g, p.tuner = some t ∧ p.gainControl = some g ∧ g.total t.input = min a.gain.toInt 102

theorem Shows.tunedTo {a b : Settings} {p : Msisdr.Dev} (h : Shows a p) (hagrees : Agrees a b) :
    TunedTo b p := by
  have hfaithful := h.mirrored.faithful
  have hfreq : p.freq = b.centerFreq := h.held.freq.trans hagrees.centerFreq
  have hrate : p.rate = Msisdr.limitRate b.sampleRate := by
    rw [h.held.rate, hagrees.sampleRate]
  refine ⟨?_, ?_, ?_, ?_⟩
  · rw [← hfreq]
    exact hfaithful.tuner
  · rw [← hrate]
    obtain ⟨s, hs, -, hclose⟩ := hfaithful.sampling
    exact ⟨s, hs, hclose⟩
  · rw [← hrate, ← h.held.format]
    exact hfaithful.format
  · intro hmanual h0 haway
    have hgain : a.gain = b.gain := hagrees.gain hmanual
    rw [← hgain] at h0 ⊢
    obtain ⟨heq, hsplit⟩ := h.gain h0
    have hpos : 0 ≤ p.gain := by omega
    have hmode : (Msisdr.planOf p).mode ≠ 6 := by
      intro hgap
      rw [Msisdr.planOf, h.held.flavour, hfreq] at hgap
      have hbounds := Msisdr.switchPlan_gap hgap
      omega
    obtain ⟨t, g, ht, hg, htotal⟩ := hfaithful.gain hmode hpos
    exact ⟨t, g, ht, hg, by rw [htotal, hsplit.getTunerGain_eq hpos h.mirrored.port, heq]⟩

end RtlTcp
end SdrServer
