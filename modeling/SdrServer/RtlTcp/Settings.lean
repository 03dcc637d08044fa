import SdrServer.Foundation.Transition
import Mathlib.Data.List.Basic

namespace SdrServer
namespace RtlTcp

structure Settings where
  centerFreq : UInt32
  sampleRate : UInt32
  gainMode : Int32
  gain : Int32
  deriving DecidableEq, Repr

inductive Command where
  | setFreq (param : UInt32)
  | setSampleRate (param : UInt32)
  | setGainMode (gainMode : Int32)
  | setGain (gain : Int32)
  | ignored
  deriving DecidableEq, Repr

-- the switch of client_cmd_thread: SET_AGC is a gain mode too
def decodeCmd (cmd : UInt8) (param : UInt32) : Command :=
  if cmd = 0x01 then .setFreq param
  else if cmd = 0x02 then .setSampleRate param
  else if cmd = 0x03 then .setGainMode param.toInt32
  else if cmd = 0x04 then .setGain (param / 10).toInt32
  else if cmd = 0x08 then .setGainMode (if param ≠ 0 then 0 else 1)
  else .ignored

-- the call on the device that a command still has to make
inductive Setter where
  | setCenterFreq (freq : UInt32)
  | setSampleRate (rate : UInt32)
  | setTunerGainMode
  | setTunerGain
  deriving DecidableEq, Repr

-- `dev` holds the settings of the open device and `state` the fields of g_dev; `commands` lists
-- every command so far, the last one first
structure DeviceState where
  dev : Option Settings
  state : Settings
  inProgress : Option Setter
  commands : List Command
  deriving DecidableEq, Repr

inductive DeviceEvent where
  | command (cmd : UInt8) (param : UInt32)
  | setter
  | close
  | openAndConfigure (opened : Settings)
  deriving DecidableEq, Repr

def applyRate (param : UInt32) : UInt32 :=
  let applied := param
  let applied := if applied < 1300000 then 1300000 else applied
  if applied > 15000000 then 15000000 else applied

namespace Settings

def setSampleRate (rate : UInt32) (a : Settings) : Settings := { a with sampleRate := rate }

def setCenterFreq (freq : UInt32) (a : Settings) : Settings := { a with centerFreq := freq }

def setTunerGainMode (mode : Int32) (a : Settings) : Settings := { a with gainMode := mode }

def setTunerGain (gain : Int32) (a : Settings) : Settings := { a with gain := gain }

-- `opened` is what a device that was just opened is set to
def configure (state opened : Settings) : Settings :=
  (((opened.setSampleRate state.sampleRate).setCenterFreq state.centerFreq).setTunerGainMode
    state.gainMode).setTunerGain state.gain

end Settings

namespace DeviceState

def start (state opened : Settings) : DeviceState where
  dev := some (Settings.configure state opened)
  state := state
  inProgress := none
  commands := []

def receive (s : DeviceState) : Command → DeviceState
  | .setFreq param =>
    { s with
      state := { s.state with centerFreq := param }, inProgress := some (.setCenterFreq param) }
  | .setSampleRate param =>
    if param ≠ s.state.sampleRate ∧ s.dev.isSome then
      let applied := applyRate param
      { s with
        state := { s.state with sampleRate := applied }, inProgress := some (.setSampleRate applied) }
    else s
  | .setGainMode gainMode =>
    { s with state := { s.state with gainMode }, inProgress := some .setTunerGainMode }
  | .setGain gain => { s with state := { s.state with gain }, inProgress := some .setTunerGain }
  | .ignored => s

-- a setter does nothing to a device that was closed in the meantime
def call (s : DeviceState) : Setter → Option Settings
  | .setCenterFreq freq => s.dev.map (Settings.setCenterFreq freq)
  | .setSampleRate rate => s.dev.map (Settings.setSampleRate rate)
  | .setTunerGainMode => s.dev.map (Settings.setTunerGainMode s.state.gainMode)
  | .setTunerGain =>
    if s.state.gainMode = 1 then s.dev.map (Settings.setTunerGain s.state.gain) else s.dev

def step (s : DeviceState) : DeviceEvent → Option DeviceState
  | .command cmd param =>
    match s.inProgress with
    | none =>
      let command := decodeCmd cmd param
      some { s.receive command with commands := command :: s.commands }
    | some _ => none
  | .setter => s.inProgress.map fun setter => { s with dev := s.call setter, inProgress := none }
  | .close => some { s with dev := none }
  | .openAndConfigure opened =>
    match s.dev with
    | none => some { s with dev := some (Settings.configure s.state opened) }
    | some _ => none

end DeviceState

def Command.freq? : Command → Option UInt32
  | .setFreq param => some param
  | _ => none

def Command.rate? : Command → Option UInt32
  | .setSampleRate param => some (applyRate param)
  | _ => none

def Command.gainMode? : Command → Option Int32
  | .setGainMode gainMode => some gainMode
  | _ => none

def Command.gain? : Command → Option Int32
  | .setGain gain => some gain
  | _ => none

-- the settings last commanded, or the start values
def commanded (state : Settings) (commands : List Command) : Settings where
  centerFreq := (commands.findSome? Command.freq?).getD state.centerFreq
  sampleRate := (commands.findSome? Command.rate?).getD state.sampleRate
  gainMode := (commands.findSome? Command.gainMode?).getD state.gainMode
  gain := (commands.findSome? Command.gain?).getD state.gain

-- the tuner gain counts in manual mode only
structure Agrees (a b : Settings) : Prop where
  centerFreq : a.centerFreq = b.centerFreq
  sampleRate : a.sampleRate = b.sampleRate
  gainMode : a.gainMode = b.gainMode
  gain : b.gainMode = 1 → a.gain = b.gain

def Settled (state : Settings) (s : DeviceState) : Prop :=
  s.inProgress = none → ∀ a, s.dev = some a → Agrees a (commanded state s.commands)

-- a rate command finds the device open and asks for another rate than g_dev.sample_rate, or its
-- rate is in force already; a command to manual mode finds the gain of g_dev on the device
def Effective (s : DeviceState) : DeviceEvent → Prop
  | .command cmd param => ∀ rate, decodeCmd cmd param = .setSampleRate rate →
    (rate ≠ s.state.sampleRate ∧ s.dev.isSome) ∨ applyRate rate = s.state.sampleRate
  | .setter => s.inProgress = some .setTunerGainMode → s.state.gainMode = 1 →
    ∀ a, s.dev = some a → a.gain = s.state.gain
  | _ => True

def Awaits (a state : Settings) : Option Setter → Prop
  | none => Agrees a state
  | some (.setCenterFreq _) => a.sampleRate = state.sampleRate ∧ a.gainMode = state.gainMode ∧
    (state.gainMode = 1 → a.gain = state.gain)
  | some (.setSampleRate _) => a.centerFreq = state.centerFreq ∧ a.gainMode = state.gainMode ∧
    (state.gainMode = 1 → a.gain = state.gain)
  | some .setTunerGainMode => a.centerFreq = state.centerFreq ∧ a.sampleRate = state.sampleRate
  | some .setTunerGain => a.centerFreq = state.centerFreq ∧ a.sampleRate = state.sampleRate ∧
    a.gainMode = state.gainMode

structure Follows (start : Settings) (s : DeviceState) : Prop where
  state : s.state = commanded start s.commands
  freq : ∀ freq, s.inProgress = some (.setCenterFreq freq) → freq = s.state.centerFreq
  rate : ∀ rate, s.inProgress = some (.setSampleRate rate) → rate = s.state.sampleRate
  device : ∀ a, s.dev = some a → Awaits a s.state s.inProgress

theorem agrees_configure (state opened : Settings) : Agrees (Settings.configure state opened) state :=
  ⟨rfl, rfl, rfl, fun _ => rfl⟩

theorem awaits_of_agrees {a state : Settings} (h : Agrees a state) (inProgress : Option Setter) :
    Awaits a state inProgress := by
  cases inProgress with
  | none => exact h
  | some setter =>
    cases setter with
    | setCenterFreq freq => exact ⟨h.sampleRate, h.gainMode, h.gain⟩
    | setSampleRate rate => exact ⟨h.centerFreq, h.gainMode, h.gain⟩
    | setTunerGainMode => exact ⟨h.centerFreq, h.sampleRate⟩
    | setTunerGain => exact ⟨h.centerFreq, h.sampleRate, h.gainMode⟩

theorem follows_start (state opened : Settings) : Follows state (DeviceState.start state opened) where
  state := rfl
  freq := by simp [DeviceState.start]
  rate := by simp [DeviceState.start]
  device := by
    intro a ha
    obtain rfl := Option.some.inj ha
    exact agrees_configure state opened

section Steps

variable {start : Settings} {s t : DeviceState}

theorem follows_command {command : Command} (hs : Follows start s) (hidle : s.inProgress = none)
    (hrate : ∀ rate, command = .setSampleRate rate →
      (rate ≠ s.state.sampleRate ∧ s.dev.isSome) ∨ applyRate rate = s.state.sampleRate) :
    Follows start { s.receive command with commands := command :: s.commands } := by
  have hdevice : ∀ a, s.dev = some a → Agrees a s.state := by
    intro a ha
    have hawaits := hs.device a ha
    rw [hidle] at hawaits
    exact hawaits
  have hstate := hs.state
  cases command with
  | setFreq param =>
    refine ⟨?_, ?_, by simp [DeviceState.receive], ?_⟩
    · simp only [DeviceState.receive, hstate]
      rfl
    · intro freq h
      cases h
      rfl
    · intro a ha
      have hagrees := hdevice a ha
      exact ⟨hagrees.sampleRate, hagrees.gainMode, hagrees.gain⟩
  | setSampleRate param =>
    simp only [DeviceState.receive]
    split
    · refine ⟨?_, by simp, ?_, ?_⟩
      · simp only [hstate]
        rfl
      · intro rate h
        cases h
        rfl
      · intro a ha
        have hagrees := hdevice a ha
        exact ⟨hagrees.centerFreq, hagrees.gainMode, hagrees.gain⟩
    · rename_i hskipped
      have hsame : applyRate param = s.state.sampleRate := (hrate param rfl).resolve_left hskipped
      refine ⟨?_, by simp [hidle], by simp [hidle], hs.device⟩
      have hcommanded : commanded start (.setSampleRate param :: s.commands) =
          { commanded start s.commands with sampleRate := applyRate param } := rfl
      change s.state = commanded start (.setSampleRate param :: s.commands)
      rw [hcommanded, hsame, ← hstate]
  | setGainMode gainMode =>
    refine ⟨?_, by simp [DeviceState.receive], by simp [DeviceState.receive], ?_⟩
    · simp only [DeviceState.receive, hstate]
      rfl
    · intro a ha
      have hagrees := hdevice a ha
      exact ⟨hagrees.centerFreq, hagrees.sampleRate⟩
  | setGain gain =>
    refine ⟨?_, by simp [DeviceState.receive], by simp [DeviceState.receive], ?_⟩
    · simp only [DeviceState.receive, hstate]
      rfl
    · intro a ha
      have hagrees := hdevice a ha
      exact ⟨hagrees.centerFreq, hagrees.sampleRate, hagrees.gainMode⟩
  | ignored => exact ⟨hstate, hs.freq, hs.rate, hs.device⟩

theorem follows_setter {setter : Setter} (hs : Follows start s)
    (hpending : s.inProgress = some setter)
    (hmode : setter = .setTunerGainMode → s.state.gainMode = 1 →
      ∀ a, s.dev = some a → a.gain = s.state.gain) :
    Follows start { s with dev := s.call setter, inProgress := none } := by
  have hdevice : ∀ a, s.dev = some a → Awaits a s.state (some setter) := by
    intro a ha
    exact hpending ▸ hs.device a ha
  refine ⟨hs.state, by simp, by simp, ?_⟩
  intro b hb
  cases setter with
  | setCenterFreq freq =>
    obtain ⟨a, ha, rfl⟩ := Option.map_eq_some_iff.mp hb
    obtain ⟨hrate, hgainMode, hgain⟩ := hdevice a ha
    exact ⟨hs.freq freq hpending, hrate, hgainMode, hgain⟩
  | setSampleRate rate =>
    obtain ⟨a, ha, rfl⟩ := Option.map_eq_some_iff.mp hb
    obtain ⟨hfreq, hgainMode, hgain⟩ := hdevice a ha
    exact ⟨hfreq, hs.rate rate hpending, hgainMode, hgain⟩
  | setTunerGainMode =>
    obtain ⟨a, ha, rfl⟩ := Option.map_eq_some_iff.mp hb
    obtain ⟨hfreq, hrate⟩ := hdevice a ha
    exact ⟨hfreq, hrate, rfl, fun hmanual => hmode rfl hmanual a ha⟩
  | setTunerGain =>
    simp only [DeviceState.call] at hb
    split at hb
    · obtain ⟨a, ha, rfl⟩ := Option.map_eq_some_iff.mp hb
      obtain ⟨hfreq, hrate, hgainMode⟩ := hdevice a ha
      exact ⟨hfreq, hrate, hgainMode, fun _ => rfl⟩
    · rename_i hauto
      obtain ⟨hfreq, hrate, hgainMode⟩ := hdevice b hb
      exact ⟨hfreq, hrate, hgainMode, fun hmanual => absurd hmanual hauto⟩

theorem follows_step {e : DeviceEvent} (hs : Follows start s) (heffective : Effective s e)
    (h : s.step e = some t) : Follows start t := by
  cases e with
  | command cmd param =>
    simp only [DeviceState.step] at h
    split at h
    · rename_i hidle
      obtain rfl := Option.some.inj h
      exact follows_command hs hidle heffective
    · cases h
  | setter =>
    obtain ⟨setter, hpending, rfl⟩ := Option.map_eq_some_iff.mp h
    apply follows_setter hs hpending
    rintro rfl hmanual a ha
    exact heffective hpending hmanual a ha
  | close =>
    obtain rfl := Option.some.inj h
    exact ⟨hs.state, hs.freq, hs.rate, by simp⟩
  | openAndConfigure opened =>
    simp only [DeviceState.step] at h
    split at h
    · obtain rfl := Option.some.inj h
      refine ⟨hs.state, hs.freq, hs.rate, ?_⟩
      intro a ha
      obtain rfl := Option.some.inj ha
      exact awaits_of_agrees (agrees_configure s.state opened) s.inProgress
    · cases h

theorem Follows.settled (hs : Follows start s) : Settled start s := by
  intro hidle a ha
  have hawaits := hs.device a ha
  rw [hidle, hs.state] at hawaits
  exact hawaits

end Steps

theorem agrees_of_commanded {a b e : Settings} (ha : Agrees a e) (hb : Agrees b e) : Agrees a b where
  centerFreq := ha.centerFreq.trans hb.centerFreq.symm
  sampleRate := ha.sampleRate.trans hb.sampleRate.symm
  gainMode := ha.gainMode.trans hb.gainMode.symm
  gain := by
    intro hmanual
    have he : e.gainMode = 1 := hb.gainMode ▸ hmanual
    exact (ha.gain he).trans (hb.gain he).symm

theorem settings_follow_commands (state opened : Settings) :
    (∀ s, Transition.Reaches DeviceState.step Effective (DeviceState.start state opened) s →
      Settled state s) ∧
    ∀ s t, Transition.Reaches DeviceState.step Effective (DeviceState.start state opened) s →
      Transition.Reaches DeviceState.step Effective (DeviceState.start state opened) t →
      s.commands = t.commands → s.inProgress = none → t.inProgress = none →
      ∀ a b, s.dev = some a → t.dev = some b → Agrees a b := by
  have hsettled : ∀ s,
      Transition.Reaches DeviceState.step Effective (DeviceState.start state opened) s →
      Settled state s := by
    intro s hs
    have hfollows : Follows state s := hs.invariant (follows_start state opened)
      fun _ _ _ _ hfollows heffective h => follows_step hfollows heffective h
    exact hfollows.settled
  refine ⟨hsettled, ?_⟩
  intro s t hs ht hsame hidle hidle' a b ha hb
  have hleft := hsettled s hs hidle a ha
  rw [hsame] at hleft
  exact agrees_of_commanded hleft (hsettled t ht hidle' b hb)

def defaults : Settings where
  centerFreq := 100000000
  sampleRate := 2400000
  gainMode := 1
  gain := 40

def reopen : List DeviceEvent := [.close, .openAndConfigure defaults]

theorem settings_follow_commands_reopened : ∃ s,
    Transition.run DeviceState.step (DeviceState.start defaults defaults)
      ([.command 0x02 2048000, .setter] ++ reopen) = some s ∧ Settled defaults s := by
  refine ⟨_, rfl, (settings_follow_commands defaults defaults).1 _ ?_⟩
  have hcommand : Effective (DeviceState.start defaults defaults) (.command 0x02 2048000) := by
    intro rate hrate
    obtain rfl : (2048000 : UInt32) = rate := Command.setSampleRate.inj hrate
    exact Or.inl ⟨by decide, rfl⟩
  have hsent : Transition.Reaches DeviceState.step Effective
      (DeviceState.start defaults defaults) _ := Transition.Reaches.start.next hcommand rfl
  have hsetter : ∀ s, s.inProgress = some (.setSampleRate 2048000) → Effective s .setter := by
    intro s hpending hmode
    rw [hpending] at hmode
    cases hmode
  have hclose : ∀ s, Effective s .close := fun _ => trivial
  have hopen : ∀ s, Effective s (.openAndConfigure defaults) := fun _ => trivial
  exact ((hsent.next (hsetter _ rfl) rfl).next (hclose _) rfl).next (hopen _) rfl

theorem settings_lost : (∃ s,
    Transition.run DeviceState.step (DeviceState.start defaults defaults)
      [.close, .command 0x02 2048000, .openAndConfigure defaults] = some s ∧ ¬ Settled defaults s) ∧
    ∃ s, Transition.run DeviceState.step (DeviceState.start defaults defaults)
      [.command 0x03 0, .setter, .command 0x04 300, .setter, .command 0x03 1, .setter] = some s ∧
      ¬ Settled defaults s := by
  constructor
  · refine ⟨_, rfl, ?_⟩
    intro hsettled
    have hrate := (hsettled rfl _ rfl).sampleRate
    revert hrate
    decide
  · refine ⟨_, rfl, ?_⟩
    intro hsettled
    have hgain := (hsettled rfl _ rfl).gain (by decide)
    revert hgain
    decide

end RtlTcp
end SdrServer
