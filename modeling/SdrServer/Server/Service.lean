import SdrServer.Server.Shutdown

namespace SdrServer

namespace Acceptor

def waits : Acceptor → Bool
  | .waitingStopped _ => true
  | .waitingSdr => true
  | _ => false

end Acceptor

def Worker.scans : Worker → Bool
  | .closing => true
  | .scanning => true
  | _ => false

theorem Worker.scans_holds {worker : Worker} (h : worker.scans = true) : worker.holds = true := by
  cases worker with
  | closing => rfl
  | scanning => rfl
  | _ => cases h

namespace Server

variable {s t : Server} {c : ServerConfig} {links : List Nat}

def Linked (s : Server) (node : Nat) : Prop :=
  ∃ links, Chain.Path s.next s.tcpNodes links none ∧ node ∈ links

def Attended (s : Server) : Prop := ∃ node, s.Linked node ∧ s.running node = true

structure Serving (s : Server) : Prop where
  attended : s.mutex = none → s.sdrStopped = false → s.Attended ∨ s.shutdownThreadCreated = true
  signalled : s.shutdownThreadCreated = true → s.sdrStopped = false →
    s.shutdown = .stopping ∨ s.shutdown = .locking
  streaming : s.mutex = none → s.device ≠ none → s.Attended ∨ s.shutdown = .stopping
  waits : s.mutex = none → s.acceptor.waits = true → s.sdrStopped = false →
    s.shutdown = .stopping ∨ s.shutdown = .locking

-- the client the SDR starts for has not left
def StartsAttended (s : Server) : Event → Prop
  | .acceptor (.startSdr true) => ∀ node ∈ s.acceptor.owned, s.running node = true
  | _ => True

instance (s : Server) (e : Event) : Decidable (s.StartsAttended e) := by
  unfold StartsAttended
  split <;> infer_instance

theorem switch_running {e : AcceptorEvent} (hflags : Flags s) (ht : Switch s (.acceptor e) t)
    (hrunning : t.sdrStopped = false) :
    (∃ node, e = .startSdr true ∧ s.acceptor = .startingSdr node ∧ t = s.deviceStarted node) ∨
      s.sdrStopped = false ∧ t.shutdownThreadCreated = s.shutdownThreadCreated := by
  cases ht with
  | steady hsame => exact Or.inr ⟨hsame.sdrStopped ▸ hrunning, hsame.created⟩
  | passes hsame => exact Or.inr ⟨hsame.sdrStopped ▸ hrunning, hsame.created⟩
  | joined hjoins hdone hsame =>
    have hstopped := hflags.past (Acceptor.joins_pastStop hjoins)
    have hsame := hsame.sdrStopped
    rw [hrunning] at hsame
    change false = s.sdrStopped at hsame
    rw [hstopped] at hsame
    cases hsame
  | starts heq => exact Or.inl ⟨_, rfl, heq, rfl⟩

def Serves (s : Server) (links : List Nat) : Prop :=
  s.sdrStopped = false → (∃ node ∈ links, s.running node = true) ∨
    s.shutdownThreadCreated = true ∨ ∃ node, (s.worker node).scans = true

theorem ended_stopped (h : Owned s links) {node : Nat} (hended : s.worker node = .ended) :
    s.running node = false := by
  have hpermits := h.permits node (h.allocated (by simp [hended]))
  rw [hended] at hpermits
  exact hpermits.1

theorem relinks_running {links' : List Nat} {e : AcceptorEvent} (h : Owned s links)
    (hrelinks : Relinks s t links e links') (hframe : AcceptorFrame s t) {node : Nat}
    (hnode : node ∈ links) (hrunning : s.running node = true) (hstarting : s.acceptor.pastStop = false) :
    node ∈ links' ∧ t.running node = true := by
  have hkept : node ∈ s.remaining links := List.mem_filter.mpr ⟨hnode, hrunning⟩
  have hrun : t.running node = true := (hframe.running node (h.linked node hnode).1.1).trans hrunning
  refine ⟨?_, hrun⟩
  cases hrelinks with
  | same => exact hnode
  | enters heq hentered =>
    cases hentered with
    | joins hempty => simp [hempty] at hkept
    | waits hempty => simp [hempty] at hkept
    | rejects => exact hkept
    | appends => exact List.mem_append_left _ hkept
  | starts heq =>
    rw [heq] at hstarting
    cases hstarting
  | @unlinks e head hhead hended =>
    have hpath := h.path
    rw [hhead] at hpath
    cases links with
    | nil => cases hnode
    | cons first rest =>
      obtain rfl : head = first := Option.some.inj hpath.1
      rcases List.mem_cons.mp hnode with rfl | hm
      · rw [ended_stopped h hended] at hrunning
        cases hrunning
      · exact hm

theorem serves_acceptor {e : AcceptorEvent} (h : Owned s links) (hflags : Flags s)
    (hserves : Serves s links) (hok : s.StartsAttended (.acceptor e)) (ht : AcceptorMove c s e t) :
    ∃ links', Owned t links' ∧ Serves t links' := by
  obtain ⟨links', howned, hrelinks⟩ := owned_acceptor h ht
  have hframe := acceptor_frame h ht
  refine ⟨links', howned, ?_⟩
  intro hrunning
  rcases switch_running hflags (switch_acceptor h ht) hrunning with ⟨node, rfl, heq, rfl⟩ | ⟨hs, hcreated⟩
  · refine Or.inl ⟨node, ?_, hok node (by rw [heq]; rfl)⟩
    have hhead : some node = links'.head? := Chain.path_head _ howned.path
    exact List.mem_of_head? hhead.symm
  · have hpast : s.acceptor.pastStop = false := by
      refine Bool.eq_false_iff.mpr fun hpast => ?_
      rw [hflags.past hpast] at hs
      cases hs
    rcases hserves hs with ⟨node, hnode, hrun⟩ | hflag | ⟨node, hscans⟩
    · exact Or.inl ⟨node, relinks_running h hrelinks hframe hnode hrun hpast⟩
    · exact Or.inr (Or.inl (hcreated.trans hflag))
    · refine Or.inr (Or.inr ⟨node, ?_⟩)
      rw [hframe.worker node (fun habsent => by rw [habsent] at hscans; cases hscans)]
      exact hscans

theorem serves_worker {node : Nat} {e : WorkerEvent} (h : Owned s links) (hserves : Serves s links)
    (ht : WorkerMove s node e t) : Serves t links := by
  have hother : ∀ worker, (s.worker node).scans = false →
      (∃ other, (s.worker other).scans = true) →
      ∃ other, (Function.update s.worker node worker other).scans = true := by
    rintro worker hnode ⟨other, hscans⟩
    have hne : other ≠ node := by
      rintro rfl
      rw [hnode] at hscans
      cases hscans
    exact ⟨other, by rwa [Function.update_of_ne hne]⟩
  intro hrunning
  cases ht with
  | leave heq | destroyNode heq | joinDsp heq =>
    rcases hserves hrunning with hrun | hflag | hscans
    · exact Or.inl hrun
    · exact Or.inr (Or.inl hflag)
    · exact Or.inr (Or.inr (hother _ (by rw [heq]; rfl) hscans))
  | lock => exact Or.inr (Or.inr ⟨node, by simp [setWorker, Worker.scans]⟩)
  | close => exact Or.inr (Or.inr ⟨node, by simp [setWorker, Worker.scans]⟩)
  | scan heq hkept =>
    rcases hkept with hsome | hflag
    · rw [someRunning_spec h.path h.fits, List.any_eq_true] at hsome
      exact Or.inl hsome
    · exact Or.inr (Or.inl hflag)
  | scanLast => exact Or.inr (Or.inl rfl)

theorem serves_step {e : Event} (h : Owned s links) (hflags : Flags s) (hserves : Serves s links)
    (hok : s.StartsAttended e) (ht : s.step c e = some t) :
    ∃ links', Owned t links' ∧ Serves t links' := by
  cases e with
  | stopTcpServer =>
    obtain rfl := Option.some.inj ht
    exact ⟨links, { h with }, hserves⟩
  | sdrCallback =>
    obtain ⟨queue, rfl⟩ := callback_frame ht
    exact ⟨links, { h with }, hserves⟩
  | acceptor event => exact serves_acceptor h hflags hserves hok (acceptorStep_move ht)
  | worker node event =>
    have hmove := workerStep_move ht
    exact ⟨links, owned_worker h hmove, serves_worker h hserves hmove⟩
  | shutdown event =>
    cases shutdownStep_move ht with
    | stopSdr => exact ⟨links, { h with }, hserves⟩
    | lock => exact ⟨links, { h with }, by simp [Serves]⟩
  | dsp node event =>
    have howned := owned_dsp h ht
    obtain ⟨dsp, queue, rfl⟩ := dsp_frame ht
    exact ⟨links, howned, hserves⟩

theorem serves_reaches (h : Transition.Reaches (step c) StartsAttended start s) :
    ∃ links, Owned s links ∧ Serves s links := by
  refine h.invariant (P := fun s => ∃ links, Owned s links ∧ Serves s links)
    ⟨[], owned_start, by simp [Serves, start]⟩ ?_
  rintro s e t hs ⟨links, howned, hserves⟩ hok ht
  exact serves_step howned (flags_reaches hs) hserves hok ht

theorem Flags.signalled (h : Flags s) (hcreated : s.shutdownThreadCreated = true)
    (hrunning : s.sdrStopped = false) : s.shutdown = .stopping ∨ s.shutdown = .locking := by
  cases hshutdown : s.shutdown with
  | absent => exact absurd hshutdown (h.created.mp hcreated)
  | stopping => exact Or.inl rfl
  | locking => exact Or.inr rfl
  | done =>
    rw [h.done hshutdown] at hrunning
    cases hrunning

theorem waits_empty (h : Owned s links) (hwaits : s.acceptor.waits = true) : links = [] := by
  have hexpects := h.expects
  cases hacceptor : s.acceptor with
  | waitingStopped node =>
    rw [hacceptor] at hexpects
    exact hexpects
  | waitingSdr =>
    rw [hacceptor] at hexpects
    exact hexpects
  | _ => simp [hacceptor, Acceptor.waits] at hwaits

def startsForNobody : List Event := arrives 5 100000 ++ departs 0 ++ sdrStops ++ firstLinked

end Server
end SdrServer
