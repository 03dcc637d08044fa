import SdrServer.Server.Nodes
import SdrServer.Foundation.Transition
import Mathlib.Data.List.Perm.Subperm

namespace SdrServer

def After.node : After → Option Nat
  | .keep => none
  | .drop => none
  | .destroy node => some node
  | .reject node => some node
  | .abandon node => some node

def After.holds : After → Bool
  | .reject _ => true
  | _ => false

def After.threaded : After → Bool
  | .reject _ => true
  | .abandon _ => true
  | _ => false

namespace Acceptor

def owned : Acceptor → Option Nat
  | .startingDsp node => some node
  | .creatingThread node => some node
  | .locking node => some node
  | .waitingStopped node => some node
  | .joiningShutdown node => some node
  | .startingSdr node => some node
  | .replying _ _ _ after => after.node
  | .closing _ after => after.node
  | .unlocking node => some node
  | .closingNode node => some node
  | .cleaning node => some node
  | .destroying node => some node
  | .joiningDsp node => some node
  | _ => none

def holds : Acceptor → Bool
  | .joiningShutdown _ => true
  | .startingSdr _ => true
  | .replying _ _ _ after => after.holds
  | .closing _ after => after.holds
  | .unlocking _ => true
  | .stopping => true
  | .joiningSdr => true
  | _ => false

def threaded : Acceptor → Bool
  | .startingDsp _ => false
  | .creatingThread _ => false
  | .replying _ _ _ after => after.threaded
  | .closing _ after => after.threaded
  | .destroying _ => false
  | .joiningDsp _ => false
  | _ => true

end Acceptor

namespace Worker

def holds : Worker → Bool
  | .closing => true
  | .scanning => true
  | .destroying => true
  | .joining => true
  | _ => false

end Worker

def Dsp.live : Dsp → Bool
  | .waiting => true
  | .writing _ => true
  | .failed => true
  | _ => false

def Worker.Permits : Worker → Bool → Dsp → Bool → Prop
  | .absent, running, _, _ => running = true
  | .reading, running, dsp, poison => running = true ∧ dsp.live = true ∧ poison = false
  | .stopping, running, dsp, poison => running = true ∧ dsp.live = true ∧ poison = false
  | .closing, running, dsp, poison => running = false ∧ dsp.live = true ∧ poison = false
  | .scanning, running, dsp, poison => running = false ∧ dsp.live = true ∧ poison = false
  | .destroying, running, dsp, poison => running = false ∧ dsp.live = true ∧ poison = false
  | .joining, running, dsp, _ => running = false ∧ (dsp.live = true ∨ dsp = .ended)
  | .ended, running, dsp, _ => running = false ∧ dsp = .destroyed

namespace Server

variable {s t : Server} {c : ServerConfig} {links : List Nat}

def Active (s : Server) (node : Nat) : Prop :=
  node < s.nodes ∧ s.joined node = 0 ∧ s.freed node = 0

theorem Active.below {node other : Nat} (h : s.Active node) (ho : s.nodes ≤ other) :
    other ≠ node := by
  rintro rfl
  exact absurd h.1 (Nat.not_lt.mpr ho)

def Untouched (s : Server) (node : Nat) : Prop :=
  s.worker node = .absent ∧ s.joined node = 0 ∧ s.freed node = 0

def Released (s : Server) (node : Nat) : Prop :=
  s.worker node = .ended ∧ s.joined node = 1 ∧ s.freed node = 1

def Expects (s : Server) (links : List Nat) : Acceptor → Prop
  | .startingDsp node => s.poisonPill node = false
  | .creatingThread node => (s.dsp node).live = true ∧ s.poisonPill node = false
  | .waitingStopped _ => links = []
  | .joiningShutdown _ => links = []
  | .startingSdr _ => links = []
  | .waitingTerminated node next => s.tcpNodes = some node ∧ s.next node = next
  | .waitingSdr => links = []
  | .joiningSdr => links = []
  | .ended => links = []
  | _ => True

structure Owned (s : Server) (links : List Nat) : Prop where
  path : Chain.Path s.next s.tcpNodes links none
  nodup : links.Nodup
  linked : ∀ node ∈ links, s.Active node ∧ s.worker node ≠ .absent ∧ s.acceptor.owned ≠ some node
  current : ∀ node, s.acceptor.owned = some node → s.Active node ∧ s.next node = none ∧
    (s.worker node = .absent ↔ s.acceptor.threaded = false)
  retired : ∀ node, node ∉ links → s.acceptor.owned ≠ some node →
    s.Untouched node ∨ s.Released node
  fresh : ∀ node, s.nodes ≤ node → s.Untouched node ∧ s.poisonPill node = false
  permits : ∀ node < s.nodes,
    (s.worker node).Permits (s.running node) (s.dsp node) (s.poisonPill node)
  mutexAcceptor : s.mutex = some .acceptor ↔ s.acceptor.holds = true
  mutexWorker : ∀ node, s.mutex = some (.worker node) ↔ (s.worker node).holds = true
  expects : s.Expects links s.acceptor

theorem owned_start : Owned start [] := by
  refine ⟨rfl, List.nodup_nil, by simp, by simp [start, Acceptor.owned], ?_, ?_, by simp [start],
    by simp [start, Acceptor.holds], by simp [start, Worker.holds], trivial⟩
  · exact fun _ _ _ => Or.inl ⟨rfl, rfl, rfl⟩
  · exact fun _ _ => ⟨⟨rfl, rfl, rfl⟩, rfl⟩

namespace Owned

theorem fits (h : Owned s links) : links.length ≤ s.nodes := by
  have hsub : links ⊆ List.range s.nodes :=
    fun node hn => List.mem_range.mpr (h.linked node hn).1.1
  simpa using (List.subperm_of_subset h.nodup hsub).length_le

theorem empty (h : Owned s links) (hhead : s.tcpNodes = none) : links = [] := by
  have hpath := h.path
  rw [hhead] at hpath
  exact List.head?_eq_none_iff.mp (Chain.path_head _ hpath).symm

theorem allocated (h : Owned s links) {node : Nat} (hw : s.worker node ≠ .absent) :
    node < s.nodes := by
  by_contra hn
  exact hw (h.fresh node (by omega)).1.1

theorem present (h : Owned s links) {node : Nat} (hw : s.worker node ≠ .absent)
    (he : s.worker node ≠ .ended) : node ∈ links ∨ s.acceptor.owned = some node := by
  by_contra hno
  rw [not_or] at hno
  rcases h.retired node hno.1 hno.2 with hu | hr
  · exact hw hu.1
  · exact he hr.1

theorem of_unthreaded (h : Owned s links) {node : Nat} {a : Acceptor} (heq : s.acceptor = a)
    (howned : a.owned = some node) (hthreaded : a.threaded = false) :
    s.Active node ∧ s.next node = none ∧ s.worker node = .absent ∧ s.running node = true := by
  subst heq
  obtain ⟨hactive, hnext, hw⟩ := h.current node howned
  have habsent : s.worker node = .absent := hw.mpr hthreaded
  have hpermits := h.permits node hactive.1
  rw [habsent] at hpermits
  exact ⟨hactive, hnext, habsent, hpermits⟩

theorem of_threaded (h : Owned s links) {node : Nat} {a : Acceptor} (heq : s.acceptor = a)
    (howned : a.owned = some node) (hthreaded : a.threaded = true) :
    s.Active node ∧ s.next node = none ∧ s.worker node ≠ .absent := by
  subst heq
  obtain ⟨hactive, hnext, hw⟩ := h.current node howned
  refine ⟨hactive, hnext, ?_⟩
  intro habsent
  rw [hw.mp habsent] at hthreaded
  cases hthreaded

theorem unlocked (h : Owned s links) (hmutex : s.mutex ≠ some .acceptor) :
    s.acceptor.holds = false :=
  Bool.eq_false_iff.mpr (mt h.mutexAcceptor.mpr hmutex)

theorem stopped_ended (h : Owned s links) (hfree : ∀ node, s.mutex ≠ some (.worker node))
    {node : Nat} (hn : node < s.nodes) (hw : s.worker node ≠ .absent)
    (hstopped : s.running node = false) : s.worker node = .ended := by
  have hpermits := h.permits node hn
  have hholds := mt (h.mutexWorker node).mpr (hfree node)
  cases hworker : s.worker node with
  | absent => exact absurd hworker hw
  | ended => rfl
  | reading => simp [hworker, Worker.Permits, hstopped] at hpermits
  | stopping => simp [hworker, Worker.Permits, hstopped] at hpermits
  | _ => simp [hworker, Worker.holds] at hholds

theorem moves (h : Owned s links) {a : Acceptor} (howned : a.owned = s.acceptor.owned)
    (hthreaded : a.owned ≠ none → a.threaded = s.acceptor.threaded) {m : Option Thread}
    (hacceptor : m = some .acceptor ↔ a.holds = true)
    (hworker : ∀ node, m = some (.worker node) ↔ (s.worker node).holds = true)
    (hexpects : s.Expects links a) : Owned { s with acceptor := a, mutex := m } links := by
  refine ⟨h.path, h.nodup, ?_, ?_, ?_, h.fresh, h.permits, hacceptor, hworker, ?_⟩
  · intro node hn
    obtain ⟨hactive, hw, hne⟩ := h.linked node hn
    exact ⟨hactive, hw, howned ▸ hne⟩
  · intro node hn
    obtain ⟨hactive, hnext, hw⟩ := h.current node (howned ▸ hn)
    refine ⟨hactive, hnext, ?_⟩
    have hsome : a.owned ≠ none := by
      intro hnone
      rw [hnone] at hn
      cases hn
    change s.worker node = .absent ↔ a.threaded = false
    rw [hthreaded hsome]
    exact hw
  · intro node hn hne
    exact h.retired node hn (howned ▸ hne)
  · cases a <;> exact hexpects

theorem steps (h : Owned s links) {a₀ a : Acceptor} (heq : s.acceptor = a₀)
    (howned : a.owned = a₀.owned) (hthreaded : a.owned ≠ none → a.threaded = a₀.threaded)
    (hholds : a.holds = a₀.holds) (hexpects : s.Expects links a) :
    Owned { s with acceptor := a } links := by
  subst heq
  refine h.moves howned hthreaded ?_ h.mutexWorker hexpects
  rw [hholds]
  exact h.mutexAcceptor

theorem acquires (h : Owned s links) (hfree : s.mutex = none) {a₀ a : Acceptor}
    (heq : s.acceptor = a₀) (howned : a.owned = a₀.owned)
    (hthreaded : a.owned ≠ none → a.threaded = a₀.threaded) (hholds : a.holds = true)
    (hexpects : s.Expects links a) :
    Owned { s with acceptor := a, mutex := some .acceptor } links := by
  subst heq
  refine h.moves howned hthreaded (by simp [hholds]) ?_ hexpects
  intro node
  rw [← h.mutexWorker node, hfree]
  simp

theorem releases (h : Owned s links) {a₀ a : Acceptor} (heq : s.acceptor = a₀)
    (hheld : a₀.holds = true) (howned : a.owned = a₀.owned)
    (hthreaded : a.owned ≠ none → a.threaded = a₀.threaded) (hholds : a.holds = false)
    (hexpects : s.Expects links a) : Owned { s with acceptor := a, mutex := none } links := by
  subst heq
  have hmutex : s.mutex = some .acceptor := h.mutexAcceptor.mpr hheld
  refine h.moves howned hthreaded (by simp [hholds]) ?_ hexpects
  intro node
  rw [← h.mutexWorker node, hmutex]
  simp

theorem serves (h : Owned s links) {fd connection : Nat} (heq : s.acceptor = .reading fd connection)
    (config : ClientConfig) : Owned (s.newNode connection config) links := by
  obtain ⟨hfresh, hpoison⟩ := h.fresh s.nodes (Nat.le_refl _)
  have hout : s.nodes ∉ links := fun hm => absurd (h.linked _ hm).1.1 (Nat.lt_irrefl _)
  have hnone : s.acceptor.owned = none := by rw [heq]; rfl
  refine ⟨?_, h.nodup, ?_, ?_, ?_, ?_, ?_, ?_, h.mutexWorker, hpoison⟩
  · exact (Chain.path_update s.next _ _ _ hout).mpr h.path
  · intro node hn
    obtain ⟨hactive, hw, -⟩ := h.linked node hn
    refine ⟨⟨Nat.lt_succ_of_lt hactive.1, hactive.2⟩, hw, ?_⟩
    rintro ⟨⟩
    exact hout hn
  · rintro node ⟨⟩
    refine ⟨⟨Nat.lt_succ_self _, hfresh.2⟩, Function.update_self .., ?_⟩
    exact ⟨fun _ => rfl, fun _ => hfresh.1⟩
  · intro node hn _
    exact h.retired node hn (by simp [hnone])
  · intro node hn
    exact h.fresh node (Nat.le_of_succ_le hn)
  · intro node hn
    change (s.worker node).Permits (Function.update s.running s.nodes true node) (s.dsp node)
      (s.poisonPill node)
    by_cases he : node = s.nodes
    · subst he
      rw [hfresh.1, Function.update_self]
      rfl
    · rw [Function.update_of_ne he]
      exact h.permits node (Nat.lt_of_le_of_ne (Nat.le_of_lt_succ hn) he)
  · have hm := h.mutexAcceptor
    rw [heq] at hm
    exact hm

theorem permits_update (h : Owned s links) (node : Nat) (worker : Worker) (running : Bool)
    (dsp : Dsp) (poison : Bool) (hp : node < s.nodes → worker.Permits running dsp poison) :
    ∀ other < s.nodes, (Function.update s.worker node worker other).Permits
      (Function.update s.running node running other) (Function.update s.dsp node dsp other)
      (Function.update s.poisonPill node poison other) := by
  intro other ho
  by_cases he : other = node
  · subst he
    simpa using hp ho
  · simpa [he] using h.permits other ho

theorem setsDsp (h : Owned s links) {node : Nat} {d : Dsp}
    (hp : node < s.nodes → (s.worker node).Permits (s.running node) d (s.poisonPill node))
    (hlive : s.acceptor = .creatingThread node → d.live = true) : Owned (s.setDsp node d) links := by
  have hpermits := h.permits_update node _ _ d _ hp
  simp only [Function.update_eq_self] at hpermits
  refine { h with permits := hpermits, expects := ?_ }
  have hexpects := h.expects
  change Expects (s.setDsp node d) links s.acceptor
  cases hacc : s.acceptor with
  | creatingThread other =>
    rw [hacc] at hexpects
    refine ⟨?_, hexpects.2⟩
    change (Function.update s.dsp node d other).live = true
    by_cases he : other = node
    · subst he
      rw [Function.update_self]
      exact hlive hacc
    · rw [Function.update_of_ne he]
      exact hexpects.1
  | _ =>
    rw [hacc] at hexpects
    exact hexpects

theorem worker_moves (h : Owned s links) (node : Nat) (worker : Worker) (running : Bool) (dsp : Dsp)
    (poison : Bool) (mutex : Option Thread) (hw : s.worker node ≠ .absent) (he : s.worker node ≠ .ended)
    (hnew : worker ≠ .absent) (hp : worker.Permits running dsp poison)
    (hacceptor : mutex = some .acceptor ↔ s.acceptor.holds = true)
    (hworker : ∀ other, mutex = some (.worker other) ↔
      (Function.update s.worker node worker other).holds = true) :
    Owned { s with
      worker := Function.update s.worker node worker
      running := Function.update s.running node running
      dsp := Function.update s.dsp node dsp
      poisonPill := Function.update s.poisonPill node poison
      mutex } links := by
  have hlt := h.allocated hw
  have hpresent := h.present hw he
  have hsame : ∀ other, other ≠ node → Function.update s.worker node worker other = s.worker other :=
    fun other ho => Function.update_of_ne ho _ _
  have habsent : ∀ other, Function.update s.worker node worker other = .absent ↔
      s.worker other = .absent := by
    intro other
    by_cases ho : other = node
    · subst ho
      simp [hnew, hw]
    · rw [hsame other ho]
  refine ⟨h.path, h.nodup, ?_, ?_, ?_, ?_, h.permits_update node _ _ _ _ fun _ => hp, hacceptor, hworker, ?_⟩
  · intro other ho
    obtain ⟨hactive, hwo, hne⟩ := h.linked other ho
    exact ⟨hactive, mt (habsent other).mp hwo, hne⟩
  · intro other ho
    obtain ⟨hactive, hnext, hwo⟩ := h.current other ho
    exact ⟨hactive, hnext, (habsent other).trans hwo⟩
  · intro other ho hne
    have hother : other ≠ node := by
      rintro rfl
      rcases hpresent with hm | hm
      · exact ho hm
      · exact hne hm
    rcases h.retired other ho hne with hu | hr
    · exact Or.inl ⟨(hsame other hother).trans hu.1, hu.2⟩
    · exact Or.inr ⟨(hsame other hother).trans hr.1, hr.2⟩
  · intro other ho
    have hother : other ≠ node := fun heq => absurd hlt (by change s.nodes ≤ other at ho; omega)
    obtain ⟨hu, hpo⟩ := h.fresh other ho
    exact ⟨⟨(hsame other hother).trans hu.1, hu.2⟩,
      (Function.update_of_ne hother _ _).trans hpo⟩
  · have hexpects := h.expects
    change Expects _ links s.acceptor
    cases hacc : s.acceptor with
    | startingDsp other =>
      rw [hacc] at hexpects
      have hother : other ≠ node := by
        rintro rfl
        exact hw ((h.current other (by rw [hacc]; rfl)).2.2.mpr (by rw [hacc]; rfl))
      exact (Function.update_of_ne hother _ _).trans hexpects
    | creatingThread other =>
      rw [hacc] at hexpects
      have hother : other ≠ node := by
        rintro rfl
        exact hw ((h.current other (by rw [hacc]; rfl)).2.2.mpr (by rw [hacc]; rfl))
      refine ⟨?_, (Function.update_of_ne hother _ _).trans hexpects.2⟩
      change (Function.update s.dsp node dsp other).live = true
      rw [Function.update_of_ne hother]
      exact hexpects.1
    | _ =>
      rw [hacc] at hexpects
      exact hexpects

end Owned
end Server
end SdrServer
