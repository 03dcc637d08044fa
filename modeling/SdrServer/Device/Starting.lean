import SdrServer.Device.Lifecycle

namespace SdrServer
namespace Device

-- what an open that returned 0 leaves where no handle was open
def Rig.holding (s : Rig) : Rig :=
  { s with dev := some s.opened, opened := s.opened + 1, live := [s.opened] }

-- `handle` is the one open handle, and the plugin is allocated
structure Held (handle : Nat) (s : Rig) : Prop where
  alive : s.freed < s.allocated
  dev : s.dev = some handle
  live : s.live = [handle]

namespace Rig

theorem touch_eq {s : Rig} (h : s.freed < s.allocated) : s.touch = s := by
  have hle : ¬ s.allocated ≤ s.freed := by omega
  simp [touch, hle]

theorem callOn_eq {dev : Option Nat} {s : Rig} (h : ∀ d ∈ dev, d ∈ s.live) : s.callOn dev = s := by
  have hany : dev.any (· ∉ s.live) = false := by
    cases dev with
    | none => rfl
    | some d => simpa using h d rfl
  rw [callOn, hany, Bool.or_false]

theorem close_none {s : Rig} (h : s.dev = none) : s.close = s := by
  simp [close, h]

theorem close_held {handle : Nat} {s : Rig} (h : Held handle s) : s.close = { s with live := [] } := by
  have hcall : s.callOn (some handle) = s := callOn_eq (by simp [h.live])
  simp [close, h.dev, hcall, h.live]

theorem clear_none {s : Rig} (h : s.dev = none) : s.clear = s := by
  simp [clear, ← h]

end Rig

theorem Held.release {handle : Nat} {s : Rig} (h : Held handle s) :
    s.close.clear = { s with dev := none, live := [] } := by
  rw [Rig.close_held h]
  rfl

theorem cleanup_held {handle : Nat} {s : Rig} (h : Held handle s) (driver : Driver) :
    cleanup driver s = { s with dev := none, live := [] } := by
  have hne : ¬ s.dev = none := by simp [h.dev]
  have hcall : s.callOn s.dev = s := Rig.callOn_eq (by simp [h.dev, h.live])
  cases driver <;> simp [cleanup, hne, hcall, h.release]

theorem cleanup_none {s : Rig} (h : s.dev = none) (driver : Driver) : cleanup driver s = s := by
  cases driver with
  | rtlsdr => rw [cleanup, Rig.close_none h, Rig.clear_none h]
  | airspy => simp [cleanup, h]
  | hackrf => simp [cleanup, h]
  | msisdr => simp [cleanup, h]

theorem perform_held {handle : Nat} {s : Rig} (h : Held handle s) (codes : Codes) {call : LibCall}
    (hcall : call.opens = false) : s.perform codes call = s := by
  have hon : s.callOn s.dev = s := Rig.callOn_eq (by simp [h.dev, h.live])
  simp [Rig.perform, hcall, Rig.touch_eq h.alive, hon]

section Chain

variable {driver : Driver} {codes : Codes} {handle : Nat} {s : Rig}

theorem errorCheck_held (h : Held handle s) {call : LibCall} (hcall : call.opens = false) :
    errorCheck driver codes s call =
      if fails driver (call.result (codes.code call)) then
        .error (call.result (codes.code call), { s with dev := none, live := [] })
      else .ok s := by
  rw [errorCheck, perform_held h codes hcall, cleanup_held h]

theorem errorChecks_held (driver : Driver) (codes : Codes) (h : Held handle s) {calls : List LibCall}
    (hcalls : ∀ call ∈ calls, call.opens = false) :
    (Passes driver codes calls ∧ calls.foldlM (errorCheck driver codes) s = .ok s) ∨
      ∃ code, calls.foldlM (errorCheck driver codes) s =
        .error (code, { s with dev := none, live := [] }) := by
  induction calls with
  | nil => exact .inl ⟨by simp [Passes], rfl⟩
  | cons call calls ih =>
    rw [List.foldlM_cons, errorCheck_held h (hcalls call (by simp))]
    cases hfails : fails driver (call.result (codes.code call)) with
    | true => exact .inr ⟨_, rfl⟩
    | false =>
      rcases ih (fun call hmem => hcalls call (by simp [hmem])) with ⟨hpass, heq⟩ | ⟨code, heq⟩
      · refine .inl ⟨?_, heq⟩
        intro call' hmem
        rcases List.mem_cons.mp hmem with rfl | hmem
        · exact hfails
        · exact hpass call' hmem
      · exact .inr ⟨code, heq⟩

-- what the driver's open leaves: a new handle, or no handle
theorem errorCheck_opens (halive : s.freed < s.allocated) (hlive : s.live = [])
    {call : LibCall} (hopens : call.opens = true) (hdev : s.dev = none ∨ codes.code call = 0)
    (hfails : fails driver (call.result (codes.code call)) = true ↔ codes.code call ≠ 0) :
    (fails driver (call.result (codes.code call)) = false ∧
        errorCheck driver codes s call = .ok s.holding) ∨
      ∃ code, errorCheck driver codes s call = .error (code, { s with dev := none }) := by
  rw [errorCheck, Rig.perform, if_pos hopens, Rig.touch_eq halive]
  rcases Decidable.em (codes.code call = 0) with hcode | hcode
  · have hok : fails driver (call.result (codes.code call)) = false := by
      simpa [hcode] using hfails
    refine .inl ⟨hok, ?_⟩
    rw [if_neg (by simp [hok]), if_pos hcode]
    simp [Rig.openDev, Rig.holding, hlive]
  · have hnone : s.dev = none := hdev.resolve_right hcode
    refine .inr ⟨call.result (codes.code call), ?_⟩
    rw [if_pos (hfails.mpr hcode), if_neg hcode, cleanup_none hnone, ← hnone]

end Chain

def Driver.threaded : Driver → Bool
  | .rtlsdr => true
  | .airspy => false
  | .hackrf => false
  | .msisdr => true

-- a start either leaves no handle behind or exactly one, with the thread that reads from it
inductive StartsWith (driver : Driver) (s : Rig) : Except (Int32 × Rig) Rig → Prop
  | refused (code : Int32) (opened : Nat) (running : Bool) :
      (driver = .rtlsdr → running = s.running) → StartsWith driver s
        (.error (code, { s with dev := none, opened := opened, running := running }))
  | started (running : Bool) :
      StartsWith driver s (.ok
        { s.holding with
          running := running
          thread := if Driver.threaded driver then .created else s.thread })

section StartRx

variable {c : Config.ServerConfig} {codes : Codes} {s : Rig}

theorem rtlsdrCalls_opens (c : Config.ServerConfig) :
    ∀ call ∈ rtlsdrCalls c, call.opens = false := by
  unfold rtlsdrCalls
  split <;> split <;> decide

theorem airspyCalls_opens : ∀ call ∈ airspyCalls, call.opens = false := by
  decide

theorem airspyGainCalls_opens {gainCalls : List LibCall}
    (h : airspyGainCalls c = some gainCalls) : ∀ call ∈ gainCalls, call.opens = false := by
  unfold airspyGainCalls at h
  split at h
  · obtain rfl := Option.some.inj h
    decide
  · split at h
    · obtain rfl := Option.some.inj h
      decide
    · split at h
      · obtain rfl := Option.some.inj h
        decide
      · split at h
        · obtain rfl := Option.some.inj h
          decide
        · cases h

theorem hackrfOpenCall_opens (c : Config.ServerConfig) : (hackrfOpenCall c).opens = true := by
  unfold hackrfOpenCall
  split <;> rfl

theorem hackrfCalls_opens : ∀ call ∈ hackrfCalls, call.opens = false := by
  decide

theorem msisdrCalls_opens (c : Config.ServerConfig) :
    ∀ call ∈ msisdrCalls c, call.opens = false := by
  unfold msisdrCalls
  split <;> split <;> decide

theorem passes_cons {driver : Driver} {call : LibCall} {calls : List LibCall}
    (hcall : fails driver (call.result (codes.code call)) = false)
    (hcalls : Passes driver codes calls) : Passes driver codes (call :: calls) := by
  intro call' hmem
  rcases List.mem_cons.mp hmem with rfl | hmem
  · exact hcall
  · exact hcalls call' hmem

theorem passes_append {driver : Driver} {calls calls' : List LibCall}
    (hcalls : Passes driver codes calls) (hcalls' : Passes driver codes calls') :
    Passes driver codes (calls ++ calls') := by
  intro call hmem
  rcases List.mem_append.mp hmem with hmem | hmem
  · exact hcalls call hmem
  · exact hcalls' call hmem

theorem fails_iff (driver : Driver) (h : driver ≠ .msisdr) (code : Int32) :
    fails driver code = true ↔ code ≠ 0 := by
  cases driver with
  | msisdr => exact absurd rfl h
  | rtlsdr => exact decide_eq_true_iff
  | airspy => exact decide_eq_true_iff
  | hackrf => exact decide_eq_true_iff

theorem holding_held (h : s.freed < s.allocated) : Held s.opened s.holding :=
  ⟨h, rfl, rfl⟩

theorem holding_released (hlive : s.live = []) :
    { s.holding with dev := none, live := [] } =
      { s with dev := none, opened := s.opened + 1, running := s.running } := by
  rw [← hlive]
  rfl

-- the part that the four drivers share: the open and the checked calls that follow it
theorem opens_then (driver : Driver) (call : LibCall) (halive : s.freed < s.allocated)
    (hlive : s.live = []) (hopens : call.opens = true) (hdev : s.dev = none ∨ codes.code call = 0)
    (hfails : fails driver (call.result (codes.code call)) = true ↔ codes.code call ≠ 0)
    {calls : List LibCall} (hcalls : ∀ call ∈ calls, call.opens = false) :
    (Passes driver codes (call :: calls) ∧
        (errorCheck driver codes s call >>= fun s => calls.foldlM (errorCheck driver codes) s) =
          .ok s.holding) ∨
      ∃ code opened,
        (errorCheck driver codes s call >>= fun s => calls.foldlM (errorCheck driver codes) s) =
          .error (code, { s with dev := none, opened := opened }) := by
  rcases errorCheck_opens halive hlive hopens hdev hfails with ⟨hopen, heq⟩ | ⟨code, heq⟩
  · rw [heq]
    rcases errorChecks_held driver codes (holding_held halive) hcalls with
      ⟨hpass, hchain⟩ | ⟨code, hchain⟩
    · exact .inl ⟨passes_cons hopen hpass, hchain⟩
    · rw [holding_released hlive] at hchain
      exact .inr ⟨code, s.opened + 1, hchain⟩
  · rw [heq]
    exact .inr ⟨code, s.opened, rfl⟩

theorem rtlsdrDeviceStartRx_startsWith (halive : s.freed < s.allocated) (hlive : s.live = [])
    (hdev : s.dev = none) (hok : RtlsdrStarts c codes) :
    StartsWith .rtlsdr s (rtlsdrDeviceStartRx c codes s) := by
  rw [rtlsdrDeviceStartRx, ← bind_assoc]
  rcases opens_then .rtlsdr .rtlsdrOpen halive hlive rfl (.inl hdev)
      (fails_iff .rtlsdr (by decide) _)
      (rtlsdrCalls_opens c)
    with ⟨hpass, heq⟩ | ⟨code, opened, heq⟩
  · rw [heq]
    change StartsWith _ _ (if _ then _ else _)
    rw [hok.thread hpass, Rig.touch_eq (holding_held halive).alive]
    exact .started s.running
  · rw [heq]
    exact .refused code opened s.running (fun _ => rfl)

theorem airspyDeviceStartRx_startsWith (halive : s.freed < s.allocated) (hlive : s.live = [])
    (hok : AirspyStarts c codes s) : StartsWith .airspy s (airspyDeviceStartRx c codes s) := by
  rw [airspyDeviceStartRx, ← bind_assoc]
  rcases opens_then .airspy .airspyOpen halive hlive rfl hok.reopens (fails_iff .airspy (by decide) _)
      airspyCalls_opens with ⟨hpass, heq⟩ | ⟨code, opened, heq⟩
  · rw [heq]
    have hheld := holding_held halive
    cases hgain : airspyGainCalls c with
    | none => exact absurd hgain (hok.gainMode hpass)
    | some gainCalls =>
      have hcalls : ∀ call ∈ gainCalls ++ [.airspySetFreq], call.opens = false := by
        intro call hmem
        rcases List.mem_append.mp hmem with hmem | hmem
        · exact airspyGainCalls_opens hgain call hmem
        · obtain rfl := List.mem_singleton.mp hmem
          rfl
      have hchains := errorChecks_held .airspy codes hheld hcalls
      rw [List.foldlM_append] at hchains
      simp only [List.foldlM_cons, List.foldlM_nil, bind_pure] at hchains
      change StartsWith _ _ (gainCalls.foldlM (errorCheck .airspy codes) s.holding >>= _)
      rw [← bind_assoc]
      rcases hchains with ⟨hgainPass, hchain⟩ | ⟨code, hchain⟩
      · have hrx := hok.rx gainCalls hgain
          (by simpa using passes_append hpass hgainPass)
        rw [hchain]
        change StartsWith _ _ (if _ then _ else _)
        rw [perform_held hheld codes rfl, hrx]
        exact .started s.running
      · rw [hchain, holding_released hlive]
        exact .refused code (s.opened + 1) s.running (fun _ => rfl)
  · rw [heq]
    exact .refused code opened s.running (fun _ => rfl)

theorem hackrfOpen_fails (c : Config.ServerConfig) (codes : Codes) :
    fails .hackrf ((hackrfOpenCall c).result (codes.code (hackrfOpenCall c))) = true ↔
      codes.code (hackrfOpenCall c) ≠ 0 := by
  rw [fails_iff .hackrf (by decide)]
  unfold hackrfOpenCall
  split <;> rfl

theorem hackrfDeviceStartRx_startsWith (halive : s.freed < s.allocated) (hlive : s.live = [])
    (hdev : s.dev = none) : StartsWith .hackrf s (hackrfDeviceStartRx c codes s) := by
  rw [hackrfDeviceStartRx]
  rcases opens_then .hackrf (hackrfOpenCall c) halive hlive (hackrfOpenCall_opens c) (.inl hdev)
      (hackrfOpen_fails c codes) hackrfCalls_opens
    with ⟨-, heq⟩ | ⟨code, opened, heq⟩
  · rw [heq]
    exact .started s.running
  · rw [heq]
    exact .refused code opened s.running (fun _ => rfl)

theorem msisdrOpen_fails (codes : Codes) :
    fails .msisdr (LibCall.result .msisdrOpen (codes.code .msisdrOpen)) = true ↔
      codes.code .msisdrOpen ≠ 0 := by
  have hle := codes.msisdrOpen
  change decide (codes.code .msisdrOpen < 0) = true ↔ codes.code .msisdrOpen ≠ 0
  rw [decide_eq_true_iff]
  constructor
  · intro hlt heq
    rw [heq] at hlt
    exact absurd hlt (by decide)
  · exact fun hne => Int32.lt_of_le_of_ne hle hne

theorem msisdrDeviceStartRx_startsWith (halive : s.freed < s.allocated) (hlive : s.live = [])
    (hdev : s.dev = none) : StartsWith .msisdr s (msisdrDeviceStartRx c codes s) := by
  rw [msisdrDeviceStartRx, ← bind_assoc]
  rcases opens_then .msisdr .msisdrOpen halive hlive rfl (.inl hdev) (msisdrOpen_fails codes)
      (msisdrCalls_opens c)
    with ⟨-, heq⟩ | ⟨code, opened, heq⟩
  · rw [heq]
    change StartsWith _ _ (if _ then _ else _)
    rw [Rig.touch_eq (holding_held halive).alive]
    rcases Decidable.em (codes.code .pthreadCreate ≠ 0) with hthread | hthread
    · have hheld : Held s.opened { s.holding with running := true } := ⟨halive, rfl, rfl⟩
      rw [if_pos hthread, hheld.release, ← hlive]
      exact .refused _ (s.opened + 1) false (by simp)
    · rw [if_neg hthread]
      exact .started true
  · rw [heq]
    exact .refused code opened s.running (fun _ => rfl)

theorem deviceStartRx_startsWith {driver : Driver} (halive : s.freed < s.allocated)
    (hlive : s.live = []) (hdev : driver ≠ .airspy → s.dev = none)
    (hok : Careful driver c s (.start codes)) :
    StartsWith driver s (deviceStartRx driver c codes s) := by
  cases driver with
  | rtlsdr =>
    exact rtlsdrDeviceStartRx_startsWith halive hlive (hdev (by decide)) (hok.1 rfl)
  | airspy => exact airspyDeviceStartRx_startsWith halive hlive (hok.2 rfl)
  | hackrf => exact hackrfDeviceStartRx_startsWith halive hlive (hdev (by decide))
  | msisdr => exact msisdrDeviceStartRx_startsWith halive hlive (hdev (by decide))

theorem careful_allocate {driver : Driver} (hok : Careful driver c s (.start codes)) :
    Careful driver c s.allocate (.start codes) := by
  refine ⟨hok.1, ?_⟩
  intro hairspy
  have hstarts := hok.2 hairspy
  exact ⟨.inl rfl, hstarts.gainMode, hstarts.rx⟩

end StartRx

end Device
end SdrServer
