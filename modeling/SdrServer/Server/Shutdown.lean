import SdrServer.Server.Flags
import SdrServer.Server.Lifetime

namespace SdrServer

-- the newest call comes first
def Alternating : List DeviceCall → Prop
  | [] => True
  | .start :: calls => calls.head? ≠ some .start ∧ Alternating calls
  | .stop :: calls => calls.head? = some .start ∧ Alternating calls

namespace Server

variable {s t : Server} {c : ServerConfig}

def Deadlocked (s : Server) : Prop :=
  s.mutex = some .acceptor ∧ s.acceptor.joins = true ∧ s.shutdownThreadCreated = true ∧
    s.shutdown = .locking

structure Orderly (s : Server) : Prop where
  alternating : Alternating s.deviceCalls
  joins : s.acceptor.joins = true → s.shutdownThreadCreated = true → s.shutdown = .done
  free : ¬ s.Deadlocked

-- a worker that finds no running client leaves an SDR that still runs
def OrderlyExit (s : Server) : Event → Prop
  | .worker _ .scan => s.someRunning s.nodes s.tcpNodes = false → s.shutdownThreadCreated = false →
      s.sdrStopped = false
  | _ => True

instance (s : Server) (e : Event) : Decidable (s.OrderlyExit e) := by
  unfold OrderlyExit
  split <;> infer_instance

theorem deadlocked_stuck (h : s.Deadlocked) (e : AcceptorEvent) (f : ShutdownEvent) :
    s.acceptorStep c e = none ∧ s.shutdownStep f = none := by
  obtain ⟨hmutex, hjoins, hcreated, hlocking⟩ := h
  constructor
  · cases ht : s.acceptorStep c e with
    | none => rfl
    | some t =>
      cases acceptorStep_move ht with
      | joinShutdown heq hdone => simp [hdone hcreated] at hlocking
      | joinSdr heq hdone => simp [hdone hcreated] at hlocking
      | _ => simp_all [Acceptor.joins]
  · cases f with
    | stopSdr => simp [shutdownStep, hlocking]
    | lock => simp [shutdownStep, hmutex]

structure Alternated (s : Server) : Prop where
  alternating : Alternating s.deviceCalls
  latest : s.device = none ↔ s.deviceCalls.head? ≠ some .start
  launched : s.shutdown = .stopping ∨ s.shutdown = .locking → s.sdrStopped = false

theorem alternated_start : Alternated start := by
  refine ⟨trivial, by simp [start], ?_⟩
  rintro (hstopping | hlocking)
  · cases hstopping
  · cases hlocking

theorem Alternated.same (h : Alternated s) (hsame : SameFlags s t) : Alternated t := by
  obtain ⟨hstopped, -, hshutdown, hdevice, hcalls⟩ := hsame
  constructor
  · rw [hcalls]
    exact h.alternating
  · rw [hcalls, hdevice]
    exact h.latest
  · rw [hshutdown, hstopped]
    exact h.launched

theorem alternated_step {e : Event} (h : Alternated s) (hflags : Flags s) (hok : s.OrderlyExit e)
    (ht : Switch s e t) : Alternated t := by
  cases ht with
  | steady hsame => exact h.same hsame
  | passes hsame => exact h.same hsame
  | joined hjoins hdone hsame =>
    have hjoined : Alternated s.afterJoin := by
      refine ⟨h.alternating, h.latest, ?_⟩
      rw [hflags.afterJoin_absent]
      rintro (hstopping | hlocking)
      · cases hstopping
      · cases hlocking
    exact hjoined.same hsame
  | starts heq =>
    have hquiet := h.latest.mp (hflags.stopped_quiet heq)
    exact ⟨⟨hquiet, h.alternating⟩, by simp [deviceStarted], fun _ => rfl⟩
  | launches hacceptor hnone hflag =>
    exact ⟨h.alternating, h.latest, fun _ => hok hnone hflag⟩
  | stops heq =>
    have hrunning := h.launched (Or.inl heq)
    have hdevice : s.device ≠ none := by
      intro hdevice
      have hlocking := hflags.silent hrunning hdevice
      rw [heq] at hlocking
      cases hlocking
    have hlast : s.deviceCalls.head? = some .start :=
      Classical.byContradiction fun hne => hdevice (h.latest.mpr hne)
    exact ⟨⟨hlast, h.alternating⟩, by simp, fun _ => hrunning⟩
  | ends heq =>
    refine ⟨h.alternating, h.latest, ?_⟩
    rintro (hstopping | hlocking)
    · cases hstopping
    · cases hlocking

theorem Alternated.orderly (h : Alternated s) (hflags : Flags s) : Orderly s := by
  have hjoins : s.acceptor.joins = true → s.shutdownThreadCreated = true → s.shutdown = .done := by
    intro hjoins hcreated
    have hstopped := hflags.past (Acceptor.joins_pastStop hjoins)
    have hlaunched := mt h.launched (by simp [hstopped])
    cases hshutdown : s.shutdown with
    | done => rfl
    | absent => exact absurd hshutdown (hflags.created.mp hcreated)
    | stopping => exact absurd (Or.inl hshutdown) hlaunched
    | locking => exact absurd (Or.inr hshutdown) hlaunched
  refine ⟨h.alternating, hjoins, ?_⟩
  rintro ⟨-, hacceptor, hcreated, hlocking⟩
  rw [hjoins hacceptor hcreated] at hlocking
  cases hlocking

theorem shutdown_orderly (h : Transition.Reaches (step c) OrderlyExit start s) : Orderly s := by
  have halternated : Alternated s := by
    refine h.invariant (P := Alternated) alternated_start ?_
    intro s e t hs hprev hok ht
    obtain ⟨links, ho⟩ := owned_reaches hs
    exact alternated_step hprev (flags_reaches hs) hok (switch_step ho ht)
  exact halternated.orderly (flags_reaches h)

def replySent : List Event := [.acceptor (.reply 7), .acceptor .replied]

def departs (node : Nat) : List Event :=
  [.worker node .leave, .worker node .lock, .worker node .close, .worker node .scan,
    .worker node .destroyNode, .dsp node .finish, .worker node .joinDsp]

def sdrStops : List Event := [.shutdown .stopSdr, .shutdown .lock]

theorem shutdown_orderly_session : ∃ s,
    Transition.run (Transition.guarded (step narrowBand) OrderlyExit) start
      (arrives 5 100000 ++ firstLinked ++ replySent ++ departs 0 ++ sdrStops) = some s ∧
      s.deviceCalls = [.stop, .start] ∧ Orderly s := by
  have hrun : (Transition.run (Transition.guarded (step narrowBand) OrderlyExit) start
      (arrives 5 100000 ++ firstLinked ++ replySent ++ departs 0 ++ sdrStops)).isSome := by decide
  refine ⟨_, (Option.some_get hrun).symm, rfl, ?_⟩
  exact shutdown_orderly (Transition.reaches_guarded .start (Option.some_get hrun).symm)

def leavesEarly : List Event :=
  arrives 5 100000 ++ departs 0 ++ [.shutdown .stopSdr, .acceptor .lock]

theorem stop_without_start : ∃ s, Transition.run (step narrowBand) start leavesEarly = some s ∧
    Transition.Reachable (step narrowBand) start s ∧ ¬ Alternating s.deviceCalls ∧ Deadlocked s := by
  have hrun : (Transition.run (step narrowBand) start leavesEarly).isSome := by decide
  refine ⟨_, (Option.some_get hrun).symm,
    Transition.reachable_run .start (Option.some_get hrun).symm, ?_, rfl, rfl, rfl, rfl⟩
  rintro ⟨hstart, -⟩
  cases hstart

end Server
end SdrServer
