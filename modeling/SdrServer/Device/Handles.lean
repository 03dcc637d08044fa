import SdrServer.Device.Starting

namespace SdrServer
namespace Device

open Config (sdrTypeRtl sdrTypeAirspy)

-- what rtlsdr_device_stop_rx and its siblings have yet to do before the next start
def Phase.ops (driver : Driver) : Phase → List StopOp
  | .started => Driver.stopOps driver
  | .stopping rest => rest
  | _ => []

-- the memory of the plugin
structure Allocated (s : Rig) : Prop where
  balance : s.freed + s.plugin.toNat = s.allocated
  busy : s.phase ≠ .idle → s.phase ≠ .destroyed → s.plugin = true
  gone : s.phase = .destroyed → s.plugin = false

structure Sound (driver : Driver) (s : Rig) : Prop where
  clean : s.misused = false
  memory : Allocated s
  suffix : s.phase.ops driver <:+ Driver.stopOps driver
  held : .close ∈ s.phase.ops driver → ∃ handle, s.dev = some handle ∧ s.live = [handle]
  closed : .close ∉ s.phase.ops driver → s.live = []
  joins : s.thread ≠ .none ↔ .join ∈ s.phase.ops driver
  calling : ∀ handle, s.thread = .calling (some handle) →
    .close ∈ s.phase.ops driver ∧ s.dev = some handle
  quiet : driver = .rtlsdr → .close ∉ s.phase.ops driver →
    s.running = false ∧ s.thread.settled = true
  cleared : driver ≠ .airspy → .clear ∉ s.phase.ops driver → s.dev = none

theorem Allocated.alive {s : Rig} (h : Allocated s) (hplugin : s.plugin = true) :
    s.freed < s.allocated := by
  have hbalance := h.balance
  rw [hplugin] at hbalance
  simp only [Bool.toNat_true] at hbalance
  omega

section Ops

theorem ops_nodup (driver : Driver) : ∀ ops ∈ (Driver.stopOps driver).tails, ops.Nodup := by
  cases driver <;> decide

theorem ops_call_close (driver : Driver) :
    ∀ ops ∈ (Driver.stopOps driver).tails,
      (ops.head? = some .stopRx ∨ ops.head? = some .cancelAsync ∨ ops.head? = some .halt) →
        .close ∈ ops.tail := by
  cases driver <;> decide

theorem ops_clear_close (driver : Driver) :
    ∀ ops ∈ (Driver.stopOps driver).tails, ops.head? = some .clear → .close ∉ ops := by
  cases driver <;> decide

theorem ops_close_join {driver : Driver} (h : driver ≠ .rtlsdr) :
    ∀ ops ∈ (Driver.stopOps driver).tails, ops.head? = some .close → .join ∉ ops := by
  cases driver with
  | rtlsdr => exact absurd rfl h
  | airspy => decide
  | hackrf => decide
  | msisdr => decide

theorem ops_join_close {driver : Driver} (h : driver ≠ .rtlsdr) :
    ∀ ops ∈ (Driver.stopOps driver).tails, .join ∈ ops → .close ∈ ops := by
  cases driver with
  | rtlsdr => exact absurd rfl h
  | airspy => decide
  | hackrf => decide
  | msisdr => decide

theorem join_mem_iff (driver : Driver) :
    .join ∈ Driver.stopOps driver ↔ Driver.threaded driver = true := by
  cases driver <;> decide

theorem close_mem (driver : Driver) : .close ∈ Driver.stopOps driver := by
  cases driver <;> decide

theorem clear_mem {driver : Driver} (h : driver ≠ .airspy) : .clear ∈ Driver.stopOps driver := by
  cases driver with
  | airspy => exact absurd rfl h
  | rtlsdr => decide
  | hackrf => decide
  | msisdr => decide

end Ops

theorem sound_init (driver : Driver) : Sound driver Rig.init where
  clean := rfl
  memory := ⟨rfl, fun h => absurd rfl h, fun _ => rfl⟩
  suffix := List.nil_suffix
  held := by simp [Rig.init, Phase.ops]
  closed := fun _ => rfl
  joins := by simp [Rig.init, Phase.ops]
  calling := by simp [Rig.init]
  quiet := fun _ _ => ⟨rfl, rfl⟩
  cleared := fun _ _ => rfl

section Steps

variable {driver : Driver} {c : Config.ServerConfig} {codes : Codes} {s t : Rig}

theorem Sound.idle_thread (hs : Sound driver s) (hidle : s.phase = .idle) : s.thread = .none := by
  have hjoin : .join ∉ s.phase.ops driver := by simp [hidle, Phase.ops]
  exact Decidable.not_not.mp (mt hs.joins.mp hjoin)

theorem Sound.idle_live (hs : Sound driver s) (hidle : s.phase = .idle) : s.live = [] :=
  hs.closed (by simp [hidle, Phase.ops])

theorem Sound.idle_dev (hs : Sound driver s) (hidle : s.phase = .idle) (hdriver : driver ≠ .airspy) :
    s.dev = none :=
  hs.cleared hdriver (by simp [hidle, Phase.ops])

theorem sound_allocate (hs : Sound driver s) (hidle : s.phase = .idle) (hplugin : s.plugin = false) :
    Sound driver s.allocate where
  clean := hs.clean
  memory := by
    have hbalance := hs.memory.balance
    simp only [hplugin, Bool.toNat_false] at hbalance
    exact ⟨by simp [Rig.allocate, ← hbalance], fun h => absurd hidle h, by simp [Rig.allocate, hidle]⟩
  suffix := hs.suffix
  held := by simp [Rig.allocate, hidle, Phase.ops]
  closed := hs.closed
  joins := hs.joins
  calling := by simp [Rig.allocate, hs.idle_thread hidle]
  quiet := fun _ _ => ⟨rfl, by rw [Rig.allocate, hs.idle_thread hidle]; rfl⟩
  cleared := fun _ _ => rfl

theorem sound_refused (hs : Sound driver s) (hidle : s.phase = .idle) (opened : Nat)
    {running : Bool} (hrunning : driver = .rtlsdr → running = false) :
    Sound driver { s with dev := none, opened := opened, running := running, phase := .idle } where
  clean := hs.clean
  memory := ⟨hs.memory.balance, fun h => absurd rfl h, by simp⟩
  suffix := List.nil_suffix
  held := by simp [Phase.ops]
  closed := fun _ => hs.idle_live hidle
  joins := by simp [Phase.ops, hs.idle_thread hidle]
  calling := by simp [hs.idle_thread hidle]
  quiet := fun hrtlsdr _ => ⟨hrunning hrtlsdr, by rw [hs.idle_thread hidle]; rfl⟩
  cleared := fun _ _ => rfl

theorem sound_started (hs : Sound driver s) (hidle : s.phase = .idle) (hplugin : s.plugin = true)
    (running : Bool) :
    Sound driver
      { s.holding with
        running := running
        thread := if Driver.threaded driver then .created else s.thread
        phase := .started } where
  clean := hs.clean
  memory := ⟨hs.memory.balance, fun _ _ => hplugin, by simp⟩
  suffix := List.suffix_rfl
  held := fun _ => ⟨s.opened, rfl, rfl⟩
  closed := fun hclose => absurd (close_mem driver) hclose
  joins := by
    rw [Phase.ops, join_mem_iff]
    cases Driver.threaded driver <;> simp [hs.idle_thread hidle]
  calling := by
    intro handle
    cases Driver.threaded driver <;> simp [hs.idle_thread hidle]
  quiet := fun _ hclose => absurd (close_mem driver) hclose
  cleared := fun hdriver hclear => absurd (clear_mem hdriver) hclear

theorem sound_startRx (hs : Sound driver s) (hidle : s.phase = .idle) (hplugin : s.plugin = true)
    {r : Except (Int32 × Rig) Rig} (hr : StartsWith driver s r) :
    Sound driver (Rig.returned r) := by
  cases hr with
  | refused code opened running hrunning =>
    refine sound_refused hs hidle opened ?_
    intro hrtlsdr
    rw [hrunning hrtlsdr]
    exact (hs.quiet hrtlsdr (by simp [hidle, Phase.ops])).1
  | started running => exact sound_started hs hidle hplugin running

theorem sound_start (hs : Sound driver s) (hidle : s.phase = .idle)
    (hok : Careful driver c s (.start codes)) : Sound driver (sdrDeviceStart driver c codes s) := by
  have hstart : ∀ s, Sound driver s → s.phase = .idle → s.plugin = true →
      Careful driver c s (.start codes) → StartsWith driver s (deviceStartRx driver c codes s) :=
    fun s hs hidle hplugin hok => deviceStartRx_startsWith (hs.memory.alive hplugin)
      (hs.idle_live hidle) (hs.idle_dev hidle) hok
  rw [sdrDeviceStart, pluginOf]
  cases hplugin : s.plugin with
  | true => exact sound_startRx hs hidle hplugin (hstart s hs hidle hplugin hok)
  | false =>
    have hallocate := sound_allocate hs hidle hplugin
    rw [if_neg (by decide), deviceCreate]
    split
    · change Sound driver { s with phase := .idle }
      rw [← hidle]
      exact hs
    · exact sound_startRx hallocate hidle rfl
        (hstart s.allocate hallocate hidle rfl (careful_allocate hok))

theorem Sound.rephase (hs : Sound driver s) {phase : Phase}
    (hops : phase.ops driver = s.phase.ops driver) (hbusy : phase ≠ .idle → s.plugin = true)
    (hgone : phase ≠ .destroyed) :
    Sound driver { s with phase := phase } where
  clean := hs.clean
  memory := ⟨hs.memory.balance, fun hne _ => hbusy hne, fun h => absurd h hgone⟩
  suffix := hops ▸ hs.suffix
  held := hops ▸ hs.held
  closed := hops ▸ hs.closed
  joins := hops ▸ hs.joins
  calling := hops ▸ hs.calling
  quiet := hops ▸ hs.quiet
  cleared := hops ▸ hs.cleared

theorem sound_stop (hs : Sound driver s) (hstarted : s.phase = .started) :
    Sound driver { s.touch with phase := .stopping (deviceStopRx driver s.dev) } := by
  have hplugin : s.plugin = true := hs.memory.busy (by simp [hstarted]) (by simp [hstarted])
  obtain ⟨handle, hdev, -⟩ := hs.held (by simp [hstarted, Phase.ops, close_mem])
  rw [Rig.touch_eq (hs.memory.alive hplugin), deviceStopRx, if_pos (.inr (by simp [hdev]))]
  exact hs.rephase (by simp [hstarted, Phase.ops]) (fun _ => hplugin) (by simp)

variable {op : StopOp} {rest : List StopOp}

theorem Sound.stopping_plugin (hs : Sound driver s) (hphase : s.phase = .stopping rest) :
    s.plugin = true :=
  hs.memory.busy (by simp [hphase]) (by simp [hphase])

theorem Sound.stopping_tails (hs : Sound driver s) (hphase : s.phase = .stopping rest) :
    rest ∈ (Driver.stopOps driver).tails := by
  have hsuffix := hs.suffix
  rw [hphase] at hsuffix
  exact (List.mem_tails _ _).mpr hsuffix

theorem Sound.stopping_not_mem (hs : Sound driver s) (hphase : s.phase = .stopping (op :: rest)) :
    op ∉ rest :=
  (List.nodup_cons.mp (ops_nodup driver _ (hs.stopping_tails hphase))).1

theorem Sound.stopping_suffix (hs : Sound driver s) (hphase : s.phase = .stopping (op :: rest)) :
    rest <:+ Driver.stopOps driver :=
  (List.suffix_cons op rest).trans ((List.mem_tails _ _).mp (hs.stopping_tails hphase))

theorem stopping_mem {first : StopOp} (hphase : s.phase = .stopping (first :: rest))
    (hne : op ≠ first) : op ∈ s.phase.ops driver ↔ op ∈ rest := by
  rw [hphase, Phase.ops, List.mem_cons, or_iff_right hne]

-- the operations before the close: they touch neither the handle nor the thread
theorem sound_before_close (hs : Sound driver s) (hphase : s.phase = .stopping (op :: rest))
    (hclose : .close ∈ rest) (hclear : op ≠ .clear) (hjoin : op ≠ .join) (running : Bool) :
    Sound driver { s with running := running, phase := .stopping rest } where
  clean := hs.clean
  memory := ⟨hs.memory.balance, fun _ _ => hs.stopping_plugin hphase, by simp⟩
  suffix := hs.stopping_suffix hphase
  held := fun _ => hs.held (by rw [hphase]; exact List.mem_cons_of_mem _ hclose)
  closed := fun hno => absurd hclose hno
  joins := hs.joins.trans (stopping_mem hphase hjoin.symm)
  calling := by
    intro handle hcalling
    exact ⟨hclose, (hs.calling handle hcalling).2⟩
  quiet := fun _ hno => absurd hclose hno
  cleared := by
    intro hdriver hno
    exact hs.cleared hdriver (mt (stopping_mem hphase hclear.symm).mp hno)

theorem sound_close (hs : Sound driver s) (hphase : s.phase = .stopping (.close :: rest))
    (hquiet : driver = .rtlsdr → s.running = false ∧ s.thread.settled = true) :
    Sound driver { s with live := [], phase := .stopping rest } where
  clean := hs.clean
  memory := ⟨hs.memory.balance, fun _ _ => hs.stopping_plugin hphase, by simp⟩
  suffix := hs.stopping_suffix hphase
  held := fun hclose => absurd hclose (hs.stopping_not_mem hphase)
  closed := fun _ => rfl
  joins := hs.joins.trans (stopping_mem hphase (by decide))
  calling := by
    intro handle hcalling
    rcases Decidable.em (driver = .rtlsdr) with hrtlsdr | hdriver
    · have hsettled := (hquiet hrtlsdr).2
      simp only at hcalling
      rw [hcalling] at hsettled
      cases hsettled
    · have hno := ops_close_join hdriver _ (hs.stopping_tails hphase) rfl
      have hthread : s.thread = .none := by
        refine Decidable.not_not.mp (mt hs.joins.mp ?_)
        rw [hphase]
        exact hno
      simp only at hcalling
      rw [hthread] at hcalling
      cases hcalling
  quiet := fun hrtlsdr _ => hquiet hrtlsdr
  cleared := by
    intro hdriver hno
    exact hs.cleared hdriver (mt (stopping_mem hphase (by decide)).mp hno)

theorem sound_clear (hs : Sound driver s) (hphase : s.phase = .stopping (.clear :: rest)) :
    Sound driver { s with dev := none, phase := .stopping rest } := by
  have hops := ops_clear_close driver _ (hs.stopping_tails hphase) rfl
  have hclose : .close ∉ s.phase.ops driver := by rw [hphase]; exact hops
  have hrest : .close ∉ rest := fun hmem => hops (List.mem_cons_of_mem _ hmem)
  constructor
  case clean => exact hs.clean
  case memory => exact ⟨hs.memory.balance, fun _ _ => hs.stopping_plugin hphase, by simp⟩
  case suffix => exact hs.stopping_suffix hphase
  case held => exact fun hmem => absurd hmem hrest
  case closed => exact fun _ => hs.closed hclose
  case joins => exact hs.joins.trans (stopping_mem hphase (by decide))
  case calling => exact fun handle hcalling => absurd (hs.calling handle hcalling).1 hclose
  case quiet => exact fun hrtlsdr _ => hs.quiet hrtlsdr hclose
  case cleared => exact fun _ _ => rfl

theorem sound_join (hs : Sound driver s) (hphase : s.phase = .stopping (.join :: rest)) :
    Sound driver { s with thread := .none, phase := .stopping rest } := by
  have hclose : .close ∈ s.phase.ops driver ↔ .close ∈ rest := stopping_mem hphase (by decide)
  constructor
  case clean => exact hs.clean
  case memory => exact ⟨hs.memory.balance, fun _ _ => hs.stopping_plugin hphase, by simp⟩
  case suffix => exact hs.stopping_suffix hphase
  case held => exact fun hmem => hs.held (hclose.mpr hmem)
  case closed => exact fun hno => hs.closed (mt hclose.mp hno)
  case joins => simp [Phase.ops, hs.stopping_not_mem hphase]
  case calling => simp
  case quiet =>
    intro hrtlsdr hno
    exact ⟨(hs.quiet hrtlsdr (mt hclose.mp hno)).1, rfl⟩
  case cleared =>
    intro hdriver hno
    exact hs.cleared hdriver (mt (stopping_mem hphase (by decide)).mp hno)

theorem sound_stopOp (hs : Sound driver s) (hphase : s.phase = .stopping (op :: rest))
    (hok : Careful driver c s .stopNext) (h : s.stopOp op = some t) :
    Sound driver { t with phase := .stopping rest } := by
  have halive := hs.memory.alive (hs.stopping_plugin hphase)
  have htails := hs.stopping_tails hphase
  have hcall : .close ∈ rest → s.touch.callOn s.dev = s := by
    intro hclose
    obtain ⟨handle, hdev, hlive⟩ := hs.held (by rw [hphase]; exact List.mem_cons_of_mem _ hclose)
    rw [Rig.touch_eq halive]
    exact Rig.callOn_eq (by simp [hdev, hlive])
  cases op with
  | halt =>
    obtain rfl := Option.some.inj h
    rw [Rig.touch_eq halive]
    have hclose : .close ∈ rest := ops_call_close driver _ htails (by simp)
    exact sound_before_close hs hphase hclose (by decide) (by decide) false
  | stopRx =>
    obtain rfl := Option.some.inj h
    have hclose : .close ∈ rest := ops_call_close driver _ htails (by simp)
    rw [hcall hclose]
    exact sound_before_close hs hphase hclose (by decide) (by decide) s.running
  | cancelAsync =>
    obtain rfl := Option.some.inj h
    have hclose : .close ∈ rest := ops_call_close driver _ htails (by simp)
    rw [hcall hclose]
    exact sound_before_close hs hphase hclose (by decide) (by decide) s.running
  | close =>
    obtain rfl := Option.some.inj h
    obtain ⟨handle, hdev, hlive⟩ := hs.held (by simp [hphase, Phase.ops])
    rw [Rig.touch_eq halive, Rig.close_held ⟨halive, hdev, hlive⟩]
    have hnext := sound_close hs hphase (fun hrtlsdr => hok hrtlsdr (by rw [hphase]; rfl))
    exact hnext
  | clear =>
    obtain rfl := Option.some.inj h
    rw [Rig.touch_eq halive]
    have hnext := sound_clear hs hphase
    exact hnext
  | join =>
    rw [Rig.stopOp, Rig.touch_eq halive] at h
    split at h
    · obtain rfl := Option.some.inj h
      have hnext := sound_join hs hphase
      exact hnext
    · cases h

theorem sound_stopNext (hs : Sound driver s) (hok : Careful driver c s .stopNext)
    (h : rigStep driver c s .stopNext = some t) : Sound driver t := by
  cases hphase : s.phase with
  | idle => simp [rigStep, hphase] at h
  | started => simp [rigStep, hphase] at h
  | destroyed => simp [rigStep, hphase] at h
  | stopping rest =>
    cases rest with
    | nil =>
      simp only [rigStep, hphase, Option.some.injEq] at h
      subst h
      exact hs.rephase (by simp [hphase, Phase.ops]) (fun hne => absurd rfl hne) (by simp)
    | cons op rest =>
      simp only [rigStep, hphase, Option.map_eq_some_iff] at h
      obtain ⟨r, hr, rfl⟩ := h
      exact sound_stopOp hs hphase hok hr

-- the steps of the thread keep all but `running` and where the thread is
theorem Sound.rethread (hs : Sound driver s) (hthread : s.thread ≠ .none) {thread : RxThread}
    {running : Bool} (hnone : thread ≠ .none)
    (hcalling : ∀ handle, thread = .calling (some handle) →
      .close ∈ s.phase.ops driver ∧ s.dev = some handle)
    (hquiet : driver = .rtlsdr → .close ∉ s.phase.ops driver →
      running = false ∧ thread.settled = true) :
    Sound driver { s with running := running, thread := thread } where
  clean := hs.clean
  memory := ⟨hs.memory.balance, hs.memory.busy, hs.memory.gone⟩
  suffix := hs.suffix
  held := hs.held
  closed := hs.closed
  joins := ⟨fun _ => hs.joins.mp hthread, fun _ => hnone⟩
  calling := hcalling
  quiet := hquiet
  cleared := hs.cleared

theorem Sound.threaded_plugin (hs : Sound driver s) (hthread : s.thread ≠ .none) :
    s.plugin = true := by
  have hjoin := hs.joins.mp hthread
  refine hs.memory.busy ?_ ?_
  · intro hidle
    simp [hidle, Phase.ops] at hjoin
  · intro hdestroyed
    simp [hdestroyed, Phase.ops] at hjoin

theorem sound_calling (hs : Sound driver s) {dev : Option Nat} (hthread : s.thread = .calling dev) :
    Sound driver { s.callOn dev with thread := .reading } := by
  have hcall : s.callOn dev = s := by
    refine Rig.callOn_eq ?_
    rintro handle rfl
    obtain ⟨hclose, hdev⟩ := hs.calling handle hthread
    obtain ⟨handle', hdev', hlive⟩ := hs.held hclose
    obtain rfl := Option.some.inj (hdev.symm.trans hdev')
    simp [hlive]
  rw [hcall]
  refine hs.rethread (by simp [hthread]) (by simp) (by simp) ?_
  intro hrtlsdr hclose
  exact ⟨(hs.quiet hrtlsdr hclose).1, rfl⟩

theorem Sound.unsettled_close (hs : Sound driver s) (hrtlsdr : driver = .rtlsdr)
    (hthread : s.thread.settled = false) : .close ∈ s.phase.ops driver := by
  refine Decidable.byContradiction fun hclose => ?_
  have hsettled := (hs.quiet hrtlsdr hclose).2
  rw [hthread] at hsettled
  cases hsettled

-- the thread takes the handle while the close is still to come
theorem sound_loads (hs : Sound driver s) (hthread : s.thread ≠ .none)
    (hclose : .close ∈ s.phase.ops driver) :
    Sound driver { s with thread := .calling s.dev } := by
  refine hs.rethread hthread (by simp) ?_ (fun _ hno => absurd hclose hno)
  intro handle heq
  exact ⟨hclose, by simpa using heq⟩

theorem sound_rx {code : Int32} (hs : Sound driver s) (h : s.rx driver code = some t) :
    Sound driver t := by
  have htouch : s.thread ≠ .none → s.touch = s := fun hthread =>
    Rig.touch_eq (hs.memory.alive (hs.threaded_plugin hthread))
  unfold Rig.rx at h
  split at h
  -- rtlsdr: created, testing, loading and reading
  case h_1 hthread =>
    obtain rfl := Option.some.inj h
    rw [htouch (by simp [hthread])]
    have hclose := hs.unsettled_close rfl (by rw [hthread]; rfl)
    exact hs.rethread (by simp [hthread]) (by simp) (by simp) (fun _ hno => absurd hclose hno)
  case h_2 hthread =>
    obtain rfl := Option.some.inj h
    rw [htouch (by simp [hthread])]
    refine hs.rethread (by simp [hthread]) (by split <;> simp) (by split <;> simp) ?_
    intro hrtlsdr hclose
    have hrunning := (hs.quiet hrtlsdr hclose).1
    exact ⟨hrunning, by rw [hrunning]; rfl⟩
  case h_3 hthread =>
    obtain rfl := Option.some.inj h
    rw [htouch (by simp [hthread])]
    exact sound_loads hs (by simp [hthread]) (hs.unsettled_close rfl (by rw [hthread]; rfl))
  case h_4 hthread =>
    split at h
    · obtain rfl := Option.some.inj h
      refine hs.rethread (by simp [hthread]) (by simp) (by simp) ?_
      exact fun hrtlsdr hclose => ⟨(hs.quiet hrtlsdr hclose).1, rfl⟩
    · obtain rfl := Option.some.inj h
      rw [htouch (by simp [hthread])]
      refine hs.rethread (by simp [hthread]) (by simp) (by simp) ?_
      exact fun hrtlsdr hclose => ⟨(hs.quiet hrtlsdr hclose).1, rfl⟩
  -- msisdr: created and reading
  case h_5 hthread =>
    obtain rfl := Option.some.inj h
    rw [htouch (by simp [hthread])]
    have hjoin := hs.joins.mp (by simp [hthread])
    exact sound_loads hs (by simp [hthread])
      (ops_join_close (by decide) _ ((List.mem_tails _ _).mpr hs.suffix) hjoin)
  case h_6 hthread =>
    obtain rfl := Option.some.inj h
    exact hs.rethread (by simp [hthread]) (by simp) (by simp) (fun hdriver => by cases hdriver)
  case h_7 hthread =>
    obtain rfl := Option.some.inj h
    exact sound_calling hs hthread
  case h_8 => cases h

theorem destroy_eq (hs : Sound driver s) :
    s.destroy = { s with plugin := false, freed := s.allocated, phase := .destroyed } := by
  have hbalance := hs.memory.balance
  unfold Rig.destroy
  cases hplugin : s.plugin with
  | true =>
    have hfreed : s.freed + 1 = s.allocated := by simpa [hplugin] using hbalance
    simp [Rig.free, Rig.touch_eq (hs.memory.alive hplugin), hfreed]
  | false =>
    have hfreed : s.freed = s.allocated := by simpa [hplugin] using hbalance
    simp [hfreed]

theorem sound_destroy (hs : Sound driver s) (hidle : s.phase = .idle) : Sound driver s.destroy := by
  rw [destroy_eq hs]
  constructor
  case clean => exact hs.clean
  case memory => exact ⟨rfl, fun _ hne => absurd rfl hne, fun _ => rfl⟩
  case suffix => exact List.nil_suffix
  case held => simp [Phase.ops]
  case closed => exact fun _ => hs.idle_live hidle
  case joins => simp [Phase.ops, hs.idle_thread hidle]
  case calling => simp [hs.idle_thread hidle]
  case quiet => exact fun hrtlsdr _ => hs.quiet hrtlsdr (by simp [hidle, Phase.ops])
  case cleared => exact fun hdriver _ => hs.idle_dev hidle hdriver

theorem sound_step {e : RigEvent} (hs : Sound driver s) (hok : Careful driver c s e)
    (h : rigStep driver c s e = some t) : Sound driver t := by
  cases e with
  | start codes =>
    simp only [rigStep, Option.ite_none_right_eq_some, Option.some.injEq] at h
    obtain ⟨hidle, rfl⟩ := h
    exact sound_start hs hidle hok
  | stop =>
    simp only [rigStep, Option.ite_none_right_eq_some, Option.some.injEq] at h
    obtain ⟨hstarted, rfl⟩ := h
    exact sound_stop hs hstarted
  | stopNext => exact sound_stopNext hs hok h
  | rx code => exact sound_rx hs h
  | destroy =>
    simp only [rigStep, Option.ite_none_right_eq_some, Option.some.injEq] at h
    obtain ⟨hidle, rfl⟩ := h
    exact sound_destroy hs hidle

end Steps

theorem Sound.kept {driver : Driver} {s : Rig} (hs : Sound driver s) : HandlesKept s where
  used := hs.clean
  closed := hs.idle_live
  released := by
    intro hdestroyed
    have hbalance := hs.memory.balance
    rw [hs.memory.gone hdestroyed] at hbalance
    exact ⟨hs.closed (by simp [hdestroyed, Phase.ops]), hbalance⟩

theorem handles_kept {driver : Driver} {c : Config.ServerConfig} {s : Rig}
    (h : Transition.Reaches (rigStep driver c) (Careful driver c) Rig.init s) : HandlesKept s := by
  have hsound : Sound driver s :=
    h.invariant (sound_init driver) (fun _ _ _ _ hs hok hstep => sound_step hs hok hstep)
  exact hsound.kept

def accept (libconfig : Config.Libconfig)
    (h : (Config.createServerConfig none (.ok libconfig)).toOption.isSome = true) :
    Config.ServerConfig :=
  (Config.createServerConfig none (.ok libconfig)).toOption.get h

-- a start that fails at its last call, and one that is stopped while the thread is reading
def rtlsdrRun : List RigEvent :=
  [.start (.failing .rtlsdrSetCenterFreq), .start .succeeding, .rx 0, .rx 0, .rx 0, .rx 0, .stop,
    .stopNext, .stopNext, .stopNext, .rx (-1), .stopNext, .stopNext, .destroy]

theorem handles_kept_rtlsdr : ∃ s : Rig,
    Transition.run (rigStep .rtlsdr (accept (settings sdrTypeRtl 131072) rfl)) Rig.init rtlsdrRun =
        some s ∧
      s.phase = .destroyed ∧ s.opened = 2 ∧ HandlesKept s := by
  have hrun : Transition.run
      (Transition.guarded (rigStep .rtlsdr (accept (settings sdrTypeRtl 131072) rfl))
        (Careful .rtlsdr (accept (settings sdrTypeRtl 131072) rfl))) Rig.init rtlsdrRun = some _ :=
    rfl
  exact ⟨_, rfl, rfl, rfl, handles_kept (Transition.reaches_guarded .start hrun)⟩

def Breaks (driver : Driver) (c : Config.ServerConfig) (events : List RigEvent) : Prop :=
  ∃ s, Transition.run (rigStep driver c) Rig.init events = some s ∧ ¬ HandlesKept s

theorem breaks_of_open {driver : Driver} {c : Config.ServerConfig} {events : List RigEvent} {s : Rig}
    (h : Transition.run (rigStep driver c) Rig.init events = some s) (hidle : s.phase = .idle)
    (hlive : s.live ≠ []) : Breaks driver c events :=
  ⟨s, h, fun hkept => hlive (hkept.closed hidle)⟩

theorem breaks_of_misused {driver : Driver} {c : Config.ServerConfig} {events : List RigEvent}
    {s : Rig} (h : Transition.run (rigStep driver c) Rig.init events = some s)
    (hmisused : s.misused = true) : Breaks driver c events :=
  ⟨s, h, fun hkept => by simp [hkept.used] at hmisused⟩

def unknownGainMode : Config.Libconfig := fun name =>
  if name = "airspy_gain_mode" then some ⟨7, 0, false, none⟩
  else settings sdrTypeAirspy 262144 name

-- the handle left open by pthread_create, by airspy_start_rx and by the unknown gain mode, the
-- stale handle closed by a later failed open, and the thread that reads behind the close
theorem handles_lost :
    Breaks .rtlsdr (accept (settings sdrTypeRtl 131072) rfl) [.start (.failing .pthreadCreate)] ∧
    Breaks .airspy (accept (settings sdrTypeAirspy 262144) rfl)
      [.start (.failing .airspyStartRx)] ∧
    Breaks .airspy (accept unknownGainMode rfl) [.start .succeeding] ∧
    Breaks .airspy (accept (settings sdrTypeAirspy 262144) rfl)
      [.start .succeeding, .stop, .stopNext, .stopNext, .stopNext,
        .start (.failing .airspyOpen)] ∧
    Breaks .rtlsdr (accept (settings sdrTypeRtl 131072) rfl)
      [.start .succeeding, .rx 0, .rx 0, .rx 0, .stop, .stopNext, .stopNext, .rx 0] := by
  refine ⟨?_, ?_, ?_, ?_, ?_⟩
  · exact breaks_of_open rfl rfl (by decide)
  · exact breaks_of_open rfl rfl (by decide)
  · exact breaks_of_open rfl rfl (by decide)
  · exact breaks_of_misused rfl rfl
  · exact breaks_of_misused rfl rfl

end Device
end SdrServer
