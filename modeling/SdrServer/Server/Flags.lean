import SdrServer.Server.Safety

namespace SdrServer

namespace Acceptor

def joins : Acceptor → Bool
  | .joiningShutdown _ => true
  | .joiningSdr => true
  | _ => false

def pastStop : Acceptor → Bool
  | .joiningShutdown _ => true
  | .startingSdr _ => true
  | .joiningSdr => true
  | _ => false

theorem joins_pastStop {a : Acceptor} (h : a.joins = true) : a.pastStop = true := by
  cases a with
  | joiningShutdown => rfl
  | joiningSdr => rfl
  | _ => cases h

theorem starting_pastStop {a : Acceptor} {node : Nat} (h : a = .startingSdr node) :
    a.pastStop = true := by
  rw [h]
  rfl

end Acceptor

namespace Server

variable {s t : Server} {c : ServerConfig} {links : List Nat}

structure SameFlags (s t : Server) : Prop where
  sdrStopped : t.sdrStopped = s.sdrStopped
  created : t.shutdownThreadCreated = s.shutdownThreadCreated
  shutdown : t.shutdown = s.shutdown
  device : t.device = s.device
  deviceCalls : t.deviceCalls = s.deviceCalls

theorem sameFlags_refl (s : Server) : SameFlags s s := ⟨rfl, rfl, rfl, rfl, rfl⟩

inductive Switch (s : Server) : Event → Server → Prop
  | steady {e t} (hsame : SameFlags s t)
      (hacceptor : t.acceptor = s.acceptor ∨ t.acceptor.pastStop = false) : Switch s e t
  | passes {e t} (hsame : SameFlags s t) (hstopped : s.sdrStopped = true)
      (hjoins : t.acceptor.joins = true) : Switch s e t
  | joined {e t} (hjoins : s.acceptor.joins = true)
      (hdone : s.shutdownThreadCreated = true → s.shutdown = .done) (hsame : SameFlags s.afterJoin t)
      (hacceptor : t.acceptor.joins = false) : Switch s e t
  | starts {node} (heq : s.acceptor = .startingSdr node) :
      Switch s (.acceptor (.startSdr true)) (s.deviceStarted node)
  | launches {node} (hacceptor : s.acceptor.holds = false)
      (hnone : s.someRunning s.nodes s.tcpNodes = false) (hflag : s.shutdownThreadCreated = false) :
      Switch s (.worker node .scan)
        { s.setWorker node .destroying with shutdown := .stopping, shutdownThreadCreated := true }
  | stops (heq : s.shutdown = .stopping) : Switch s (.shutdown .stopSdr)
      { s with shutdown := .locking, device := none, deviceCalls := .stop :: s.deviceCalls }
  | ends (heq : s.shutdown = .locking) : Switch s (.shutdown .lock)
      { s with shutdown := .done, sdrStopped := true }

theorem switch_acceptor {e : AcceptorEvent} (h : Owned s links) (ht : AcceptorMove c s e t) :
    Switch s (.acceptor e) t := by
  have hrefl := sameFlags_refl s
  cases ht with
  | checkRunning => exact .steady { hrefl with } (Or.inr (by dsimp only; split <;> rfl))
  | receive heq ht => cases ht <;> exact .steady { hrefl with } (Or.inr rfl)
  | lock heq hfree ht =>
    obtain ⟨links', -, hentered⟩ := owned_enterList h heq hfree ht
    cases hentered with
    | joins hempty hstopped => exact .passes { hrefl with } hstopped rfl
    | _ => exact .steady { hrefl with } (Or.inr rfl)
  | wakeStopped heq hfree hstopped => exact .passes { hrefl with } hstopped rfl
  | joinShutdown heq hdone => exact .joined (by rw [heq]; rfl) hdone ⟨rfl, rfl, rfl, rfl, rfl⟩ rfl
  | startSdr heq => exact .starts heq
  | @replyFails fd _ _ after heq => cases after <;> exact .steady { hrefl with } (Or.inr rfl)
  | @replied fd _ after heq => cases after <;> exact .steady { hrefl with } (Or.inr rfl)
  | @close fd after heq => cases after <;> exact .steady { hrefl with } (Or.inr rfl)
  | stopStopped heq => exact .steady { hrefl with } (Or.inl rfl)
  | stopLast heq hhead hstopped => exact .passes { hrefl with } hstopped rfl
  | wakeSdr heq hfree hstopped => exact .passes { hrefl with } hstopped rfl
  | joinSdr heq hdone => exact .joined (by rw [heq]; rfl) hdone ⟨rfl, rfl, rfl, rfl, rfl⟩ rfl
  | _ => exact .steady { hrefl with } (Or.inr rfl)

theorem switch_worker {node : Nat} {e : WorkerEvent} (h : Owned s links) (ht : WorkerMove s node e t) :
    Switch s (.worker node e) t := by
  have hrefl := sameFlags_refl s
  cases ht with
  | scanLast heq hnone hflag =>
    have hmutex : s.mutex = some (.worker node) := (h.mutexWorker node).mpr (by rw [heq]; rfl)
    exact .launches (h.unlocked (by simp [hmutex])) hnone hflag
  | _ => exact .steady { hrefl with } (Or.inl rfl)

theorem switch_step {e : Event} (h : Owned s links) (ht : s.step c e = some t) : Switch s e t := by
  have hrefl := sameFlags_refl s
  cases e with
  | stopTcpServer =>
    obtain rfl := Option.some.inj ht
    exact .steady { hrefl with } (Or.inl rfl)
  | sdrCallback =>
    obtain ⟨queue, rfl⟩ := callback_frame ht
    exact .steady { hrefl with } (Or.inl rfl)
  | acceptor event => exact switch_acceptor h (acceptorStep_move ht)
  | worker node event => exact switch_worker h (workerStep_move ht)
  | shutdown event =>
    cases shutdownStep_move ht with
    | stopSdr heq => exact .stops heq
    | lock heq => exact .ends heq
  | dsp node event =>
    obtain ⟨dsp, queue, rfl⟩ := dsp_frame ht
    exact .steady { hrefl with } (Or.inl rfl)

structure Flags (s : Server) : Prop where
  created : s.shutdownThreadCreated = true ↔ s.shutdown ≠ .absent
  done : s.shutdown = .done → s.sdrStopped = true
  quiet : s.sdrStopped = true ∨ s.shutdown = .locking → s.device = none
  silent : s.sdrStopped = false → s.device = none → s.shutdown = .locking
  past : s.acceptor.pastStop = true → s.sdrStopped = true
  starts : ∀ node, s.acceptor = .startingSdr node → s.shutdown = .absent

theorem flags_start : Flags start := by
  refine ⟨by simp [start], by simp [start], fun _ => rfl, ?_, ?_, ?_⟩
  · intro hstopped
    cases hstopped
  · intro hpast
    cases hpast
  · intro node hstart
    cases hstart

namespace Flags

theorem same (h : Flags s) (hsame : SameFlags s t) (hpast : t.acceptor.pastStop = true → s.sdrStopped = true)
    (hstarts : ∀ node, t.acceptor = .startingSdr node → s.shutdown = .absent) : Flags t := by
  obtain ⟨hstopped, hcreated, hshutdown, hdevice, -⟩ := hsame
  refine ⟨?_, ?_, ?_, ?_, ?_, ?_⟩
  · rw [hcreated, hshutdown]
    exact h.created
  · rw [hshutdown, hstopped]
    exact h.done
  · rw [hshutdown, hstopped, hdevice]
    exact h.quiet
  · rw [hshutdown, hstopped, hdevice]
    exact h.silent
  · rw [hstopped]
    exact hpast
  · rw [hshutdown]
    exact hstarts

theorem afterJoin_absent (h : Flags s) : s.afterJoin.shutdown = .absent := by
  change (if s.shutdownThreadCreated = true then Shutdown.absent else s.shutdown) = .absent
  split
  · rfl
  · rename_i hflag
    exact Classical.byContradiction fun hne => hflag (h.created.mpr hne)

theorem joined (h : Flags s) (hjoins : s.acceptor.joins = true) : Flags s.afterJoin := by
  have habsent := h.afterJoin_absent
  have hstopped : s.sdrStopped = true := h.past (Acceptor.joins_pastStop hjoins)
  refine ⟨?_, fun _ => hstopped, fun _ => h.quiet (Or.inl hstopped), ?_, fun _ => hstopped,
    fun _ _ => habsent⟩
  · rw [habsent]
    simp [afterJoin]
  · intro hrunning
    change s.sdrStopped = false at hrunning
    rw [hstopped] at hrunning
    cases hrunning

theorem stopped_quiet (h : Flags s) {node : Nat} (heq : s.acceptor = .startingSdr node) :
    s.device = none := h.quiet (Or.inl (h.past (Acceptor.starting_pastStop heq)))

end Flags

theorem flags_step {e : Event} (h : Flags s) (ht : Switch s e t) : Flags t := by
  cases ht with
  | steady hsame hacceptor =>
    rcases hacceptor with heq | hpast
    · refine h.same hsame ?_ ?_
      · rw [heq]
        exact h.past
      · rw [heq]
        exact h.starts
    · refine h.same hsame (by simp [hpast]) ?_
      intro node hstart
      rw [Acceptor.starting_pastStop hstart] at hpast
      cases hpast
  | passes hsame hstopped hjoins =>
    refine h.same hsame (fun _ => hstopped) ?_
    intro node hstart
    rw [hstart] at hjoins
    cases hjoins
  | joined hjoins hdone hsame hacceptor =>
    have hstopped := h.past (Acceptor.joins_pastStop hjoins)
    exact (h.joined hjoins).same hsame (fun _ => hstopped) fun _ _ => h.afterJoin_absent
  | @starts node heq =>
    have habsent := h.starts node heq
    refine ⟨h.created, ?_, ?_, ?_, ?_, ?_⟩
    · intro hdone
      change s.shutdown = .done at hdone
      rw [habsent] at hdone
      cases hdone
    · rintro (hstopped | hlocking)
      · cases hstopped
      · change s.shutdown = .locking at hlocking
        rw [habsent] at hlocking
        cases hlocking
    · intro _ hdevice
      cases hdevice
    · intro hpast
      cases hpast
    · intro other hstart
      cases hstart
  | launches hacceptor hnone hflag =>
    have habsent : s.shutdown = .absent :=
      Classical.byContradiction fun hne => by simp [h.created.mpr hne] at hflag
    refine ⟨by simp, ?_, ?_, ?_, h.past, ?_⟩
    · intro hdone
      cases hdone
    · rintro (hstopped | hlocking)
      · exact h.quiet (Or.inl hstopped)
      · cases hlocking
    · intro hrunning hdevice
      have hlocking := h.silent hrunning hdevice
      rw [habsent] at hlocking
      cases hlocking
    · intro other hstart
      change s.acceptor = _ at hstart
      rw [hstart] at hacceptor
      cases hacceptor
  | stops heq =>
    refine ⟨?_, ?_, fun _ => rfl, fun _ _ => rfl, h.past, ?_⟩
    · have hcreated := h.created
      rw [heq] at hcreated
      exact ⟨fun _ => by simp, fun _ => hcreated.mpr (by simp)⟩
    · intro hdone
      cases hdone
    · intro other hstart
      have habsent := h.starts other hstart
      rw [heq] at habsent
      cases habsent
  | ends heq =>
    refine ⟨?_, fun _ => rfl, fun _ => h.quiet (Or.inr heq), ?_, fun _ => rfl, ?_⟩
    · have hcreated := h.created
      rw [heq] at hcreated
      exact ⟨fun _ => by simp, fun _ => hcreated.mpr (by simp)⟩
    · intro hrunning
      cases hrunning
    · intro other hstart
      have habsent := h.starts other hstart
      rw [heq] at habsent
      cases habsent

theorem flags_reaches {ok : Server → Event → Prop} (h : Transition.Reaches (step c) ok start s) :
    Flags s := by
  refine h.invariant (P := Flags) flags_start ?_
  intro s e t hs hflags _ ht
  obtain ⟨links, ho⟩ := owned_reaches hs
  exact flags_step hflags (switch_step ho ht)

end Server
end SdrServer
