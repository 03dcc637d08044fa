import SdrServer.Server.Safety

namespace SdrServer
namespace Server

variable {s t : Server} {c : ServerConfig} {links : List Nat}

structure Delivered (c : ServerConfig) (links : List Nat) (s t : Server) : Prop where
  once : ∀ node ∈ links, s.running node = true →
    (s.queue node).put c.queueSize s.deviceBuffers = some (t.queue node)
  frame : ∀ node, (node ∈ links → s.running node = false) → t.queue node = s.queue node

theorem callbackLoop_spec {fuel : Nat} {head : Option Nat}
    (hpath : Chain.Path s.next head links none) (hnodup : links.Nodup)
    (ht : callbackLoop c fuel head s = some t) : Delivered c links s t := by
  induction links generalizing s head fuel with
  | nil =>
    obtain rfl : head = none := hpath
    obtain rfl : s = t := by cases fuel <;> exact Option.some.inj ht
    exact ⟨by simp, fun _ _ => rfl⟩
  | cons node rest ih =>
    obtain ⟨rfl, hrest⟩ := hpath
    obtain ⟨hnode, hrestNodup⟩ := List.nodup_cons.mp hnodup
    cases fuel with
    | zero => cases ht
    | succ fuel =>
      simp only [callbackLoop] at ht
      split at ht
      · rename_i hrunning
        obtain ⟨r, hr, hloop⟩ := Option.bind_eq_some_iff.mp ht
        simp only [dspWorkerProcess] at hr
        split at hr
        · cases hr
        · obtain ⟨queue, hqueue, rfl⟩ := Option.map_eq_some_iff.mp hr
          have hother := ih (s := { s with queue := Function.update s.queue node queue }) hrest
            hrestNodup hloop
          have hsame : t.queue node = queue := by
            rw [hother.frame node fun hm => absurd hm hnode]
            exact Function.update_self ..
          constructor
          · intro other ho hrun
            rcases List.mem_cons.mp ho with rfl | hm
            · rw [hsame]
              exact hqueue
            · have hne : other ≠ node := fun he => hnode (he ▸ hm)
              have hput :
                  Fifo.put c.queueSize (Function.update s.queue node queue other) s.deviceBuffers = _ :=
                hother.once other hm hrun
              rwa [Function.update_of_ne hne] at hput
          · intro other ho
            have hne : other ≠ node := by
              rintro rfl
              rw [ho List.mem_cons_self] at hrunning
              cases hrunning
            rw [hother.frame other fun hm => ho (List.mem_cons_of_mem _ hm)]
            exact Function.update_of_ne hne _ _
      · rename_i hstopped
        have hother := ih hrest hrestNodup ht
        constructor
        · intro other ho hrun
          rcases List.mem_cons.mp ho with rfl | hm
          · exact absurd hrun hstopped
          · exact hother.once other hm hrun
        · exact fun other ho => hother.frame other fun hm => ho (List.mem_cons_of_mem _ hm)

theorem put_isSome {capacity : Nat} (hcapacity : 2 ≤ capacity) (q : Fifo Nat) (x : Nat) :
    ∃ r, q.put capacity x = some r := by
  by_cases hroom : q.size < capacity
  · exact ⟨_, Fifo.put_room hroom x⟩
  · refine ⟨_, Fifo.put_full hroom ?_ x⟩
    intro hempty
    have hheld : q.held.toList.length ≤ 1 := by cases q.held <;> simp
    simp only [Fifo.size, hempty, List.length_nil] at hroom
    omega

theorem callbackLoop_isSome {fuel : Nat} {head : Option Nat} (hcapacity : 2 ≤ c.queueSize)
    (hpath : Chain.Path s.next head links none) (hfuel : links.length ≤ fuel)
    (hlive : ∀ node ∈ links, s.running node = true → (s.dsp node).live = true) :
    ∃ t, callbackLoop c fuel head s = some t := by
  induction links generalizing s head fuel with
  | nil =>
    obtain rfl : head = none := hpath
    exact ⟨s, by cases fuel <;> rfl⟩
  | cons node rest ih =>
    obtain ⟨rfl, hrest⟩ := hpath
    obtain ⟨fuel, rfl⟩ := Nat.exists_eq_add_of_le' (show 1 ≤ fuel by
      simp only [List.length_cons] at hfuel
      omega)
    have hfuel' : rest.length ≤ fuel := by simpa using hfuel
    have htail : ∀ other ∈ rest, s.running other = true → (s.dsp other).live = true :=
      fun other ho => hlive other (List.mem_cons_of_mem _ ho)
    rw [callbackLoop]
    split
    · rename_i hrunning
      have hnode := hlive node List.mem_cons_self hrunning
      have hpresent : ¬ (s.dsp node = .destroyed ∨ s.dsp node = .uninitialised) := by
        rintro (hd | hd) <;> rw [hd] at hnode <;> cases hnode
      obtain ⟨queue, hqueue⟩ := put_isSome hcapacity (s.queue node) s.deviceBuffers
      rw [dspWorkerProcess, if_neg hpresent, hqueue]
      exact ih (s := { s with queue := Function.update s.queue node queue }) hrest hfuel' htail
    · exact ih hrest hfuel' htail

structure Lifetimes (c : ServerConfig) (s : Server) (links : List Nat) : Prop where
  path : Chain.Path s.next s.tcpNodes links none
  nodup : links.Nodup
  linked : ∀ node ∈ links, s.freed node = 0
  threads : ∀ node, s.worker node ≠ .absent → s.worker node ≠ .ended → s.freed node = 0
  joinFirst : ∀ node, s.freed node ≤ s.joined node ∧ s.joined node ≤ 1
  finished : s.acceptor = .ended → ∀ node, s.worker node ≠ .absent →
    s.worker node = .ended ∧ s.joined node = 1 ∧ s.freed node = 1
  cleanup : ∀ node, s.acceptor = .locking node → s.mutex = none →
    ∃ t, s.cleanupTerminatedThreads = some t ∧
      Chain.Path t.next t.tcpNodes (links.filter fun node => s.running node) none
  dspLive : ∀ node ∈ links, s.running node = true → (s.dsp node).live = true
  callback : ∀ t, s.step c .sdrCallback = some t → Delivered c links s t
  enabled : 2 ≤ c.queueSize → s.mutex = none → s.device ≠ none →
    ∃ t, s.step c .sdrCallback = some t

theorem Owned.dspLive (h : Owned s links) {node : Nat} (hn : node ∈ links)
    (hrunning : s.running node = true) : (s.dsp node).live = true := by
  obtain ⟨hactive, hw, -⟩ := h.linked node hn
  have hpermits := h.permits node hactive.1
  cases hworker : s.worker node with
  | absent => exact absurd hworker hw
  | reading =>
    rw [hworker] at hpermits
    exact hpermits.2.1
  | stopping =>
    rw [hworker] at hpermits
    exact hpermits.2.1
  | _ => simp [hworker, Worker.Permits, hrunning] at hpermits

theorem Owned.counts (h : Owned s links) (node : Nat) :
    s.freed node = 0 ∧ s.joined node = 0 ∨
      s.worker node = .ended ∧ s.joined node = 1 ∧ s.freed node = 1 := by
  by_cases hl : node ∈ links
  · obtain ⟨hactive, -, -⟩ := h.linked node hl
    exact Or.inl ⟨hactive.2.2, hactive.2.1⟩
  · by_cases ho : s.acceptor.owned = some node
    · obtain ⟨hactive, -, -⟩ := h.current node ho
      exact Or.inl ⟨hactive.2.2, hactive.2.1⟩
    · rcases h.retired node hl ho with hu | hr
      · exact Or.inl ⟨hu.2.2, hu.2.1⟩
      · exact Or.inr hr

theorem callback_delivered (h : Owned s links) (ht : s.step c .sdrCallback = some t) :
    Delivered c links s t := by
  simp only [step] at ht
  split at ht
  · obtain ⟨r, hr, rfl⟩ := Option.map_eq_some_iff.mp ht
    have hdelivered := callbackLoop_spec h.path h.nodup hr
    exact ⟨hdelivered.once, hdelivered.frame⟩
  · cases ht

theorem client_list_safe (h : Transition.Reachable (step c) start s) :
    ∃ links, Lifetimes c s links := by
  obtain ⟨links, ho⟩ := owned_reaches h
  refine ⟨links, ho.path, ho.nodup, ?_, ?_, ?_, ?_, ?_, ?_, ?_, ?_⟩
  · intro node hn
    exact (ho.linked node hn).1.2.2
  · intro node hw he
    rcases ho.counts node with hc | hc
    · exact hc.1
    · exact absurd hc.1 he
  · intro node
    rcases ho.counts node with hc | hc <;> omega
  · intro hended node hw
    have hexpects := ho.expects
    rw [hended] at hexpects
    obtain rfl : links = [] := hexpects
    have howned : s.acceptor.owned ≠ some node := by
      rw [hended]
      simp [Acceptor.owned]
    rcases ho.retired node (by simp) howned with hu | hr
    · exact absurd hu.1 hw
    · exact hr
  · intro node heq hfree
    obtain ⟨head, next, hcleanup, hpruned⟩ := ho.prunes heq hfree
    exact ⟨_, hcleanup, hpruned.path⟩
  · intro node hn hrunning
    exact ho.dspLive hn hrunning
  · intro t ht
    exact callback_delivered ho ht
  · intro hcapacity hfree hdevice
    obtain ⟨t, ht⟩ := callbackLoop_isSome hcapacity ho.path ho.fits
      fun node hn hrunning => ho.dspLive hn hrunning
    exact ⟨_, by rw [step, if_pos ⟨hfree, hdevice⟩, sdrCallback, ht, Option.map_some]⟩

def narrowBand : ServerConfig := ⟨48000, 4⟩

def requestAt (bandFreq : UInt32) : Received :=
  .message protocolVersion typeRequest (some ⟨bandFreq, 48000, bandFreq, requestDestinationSocket⟩)

-- a client is accepted on descriptor `fd` and its threads are created
def arrives (fd : Nat) (bandFreq : UInt32) : List Event :=
  [.acceptor .checkRunning, .acceptor (.accept fd), .acceptor (.receive (requestAt bandFreq)),
    .acceptor (.startDsp true), .acceptor (.createThread true)]

def firstLinked : List Event :=
  [.acceptor .lock, .acceptor .joinShutdown, .acceptor (.startSdr true)]

theorem client_list_safe_first : ∃ s,
    Transition.run (step narrowBand) start (arrives 5 100000 ++ firstLinked) = some s ∧
      s.tcpNodes = some 0 ∧ ∃ links, Lifetimes narrowBand s links := by
  have hrun : (Transition.run (step narrowBand) start
      (arrives 5 100000 ++ firstLinked)).isSome := by decide
  refine ⟨_, (Option.some_get hrun).symm, rfl, ?_⟩
  exact client_list_safe (Transition.reachable_run .start (Option.some_get hrun).symm)

end Server
end SdrServer
