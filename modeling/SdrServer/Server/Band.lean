import SdrServer.Server.Shutdown

namespace SdrServer

def After.turnsDown : After → Bool
  | .reject _ => true
  | .abandon _ => true
  | _ => false

namespace Acceptor

-- handle_new_client on its way out after a failed start or a band that does not fit
def turnedDown : Acceptor → Bool
  | .replying _ _ _ after => after.turnsDown
  | .closing _ after => after.turnsDown
  | .unlocking _ => true
  | .closingNode _ => true
  | .cleaning _ => true
  | _ => false

def tuning : Acceptor → Option Nat
  | .waitingStopped node => some node
  | .joiningShutdown node => some node
  | .startingSdr node => some node
  | _ => none

end Acceptor

namespace Server

variable {s t : Server} {c : ServerConfig} {links : List Nat}

def rejected (s : Server) (node : Nat) : Acceptor :=
  respondFailure (s.config node).clientSocket (s.connection node) responseDetailsOutOfBandFreq
    (.reject node)

structure SameTuning (s t : Server) : Prop where
  next : t.next = s.next
  tcpNodes : t.tcpNodes = s.tcpNodes
  currentBandFreq : t.currentBandFreq = s.currentBandFreq
  device : t.device = s.device
  deviceCalls : t.deviceCalls = s.deviceCalls

structure Agreement (c : ServerConfig) (s : Server) (links : List Nat) : Prop where
  path : Chain.Path s.next s.tcpNodes links none
  linked : ∀ node ∈ links, (s.config node).bandFreq = s.currentBandFreq
  device : ∀ b, s.device = some b → (∀ node, s.acceptor ≠ .waitingStopped node) →
    b = s.currentBandFreq
  waiting : ∀ node, s.acceptor = .waitingStopped node → links = []
  verdict : ∀ node t, s.acceptor = .locking node → s.step c (.acceptor .lock) = some t →
    (t.acceptor = s.rejected node ↔ ∃ other ∈ links, s.running other = true ∧
      (s.config other).bandFreq ≠ (s.config node).bandFreq)
  rejection : ∀ node t, s.acceptor = .locking node → s.step c (.acceptor .lock) = some t →
    t.acceptor = s.rejected node →
      Chain.Path t.next t.tcpNodes (links.filter fun node => s.running node) none ∧
      t.currentBandFreq = s.currentBandFreq ∧ t.device = s.device ∧ t.deviceCalls = s.deviceCalls
  afterwards : ∀ e t, s.acceptor.turnedDown = true → s.step c (.acceptor e) = some t → SameTuning s t

structure Banded (s : Server) (links : List Nat) : Prop where
  linked : ∀ node ∈ links, (s.config node).bandFreq = s.currentBandFreq
  tuned : ∀ node, s.acceptor.tuning = some node → (s.config node).bandFreq = s.currentBandFreq
  valid : ∀ node < s.nodes, (s.config node).bandFreq ≠ 0
  device : ∀ b, s.device = some b → b = s.currentBandFreq ∨ ∃ node, s.acceptor = .waitingStopped node

theorem banded_start : Banded start [] := by
  refine ⟨by simp, ?_, ?_, ?_⟩
  · intro node htuning
    cases htuning
  · intro node hn
    cases hn
  · intro b hdevice
    cases hdevice

theorem waiting_stopped {e : AcceptorEvent} (ht : AcceptorMove c s e t) {node : Nat}
    (hwaiting : s.acceptor = .waitingStopped node) : s.sdrStopped = true := by
  cases ht with
  | wakeStopped _ _ hstopped => exact hstopped
  | _ => simp_all

theorem fits_band (h : Owned s links) (hbanded : Banded s links) {node : Nat}
    (hkept : s.remaining links ≠ []) (hband : ¬ s.OutOfBand node) :
    (s.config node).bandFreq = s.currentBandFreq := by
  obtain ⟨other, hother⟩ := List.exists_mem_of_ne_nil _ hkept
  have hmem := (List.mem_filter.mp hother).1
  have hset : s.currentBandFreq ≠ 0 := by
    rw [← hbanded.linked other hmem]
    exact hbanded.valid other (h.linked other hmem).1.1
  exact Classical.byContradiction fun hne => hband ⟨hset, fun he => hne he.symm⟩

theorem linked_acceptor {e : AcceptorEvent} {links' : List Nat} (h : Owned s links)
    (hbanded : Banded s links) (hframe : AcceptorFrame s t) (hrelinks : Relinks s t links e links')
    {node : Nat} (hnode : node ∈ links') : (t.config node).bandFreq = t.currentBandFreq := by
  have hkept : ∀ other ∈ links, t.currentBandFreq = s.currentBandFreq →
      (t.config other).bandFreq = t.currentBandFreq := by
    intro other ho hband
    rw [hband, hframe.config other (h.linked other ho).1.1]
    exact hbanded.linked other ho
  cases hrelinks with
  | same hband => exact hkept node hnode hband
  | enters heq hentered =>
    cases hentered with
    | joins => cases hnode
    | waits => cases hnode
    | rejects => exact hkept node (List.mem_filter.mp hnode).1 rfl
    | appends hremaining hband =>
      rcases List.mem_append.mp hnode with hm | hm
      · exact hkept node (List.mem_filter.mp hm).1 rfl
      · obtain rfl := List.mem_singleton.mp hm
        exact fits_band h hbanded hremaining hband
  | @starts new heq ht =>
    obtain rfl := List.mem_singleton.mp hnode
    subst ht
    exact hbanded.tuned node (by rw [heq]; rfl)
  | unlinks hhead hended hband => exact hkept node (List.mem_of_mem_tail hnode) hband

theorem tuned_acceptor {e : AcceptorEvent} (h : Owned s links) (hbanded : Banded s links)
    (ht : AcceptorMove c s e t) {node : Nat} (htuning : t.acceptor.tuning = some node) :
    (t.config node).bandFreq = t.currentBandFreq := by
  cases ht with
  | checkRunning =>
    dsimp only at htuning
    split at htuning <;> cases htuning
  | receive heq ht => cases ht <;> cases htuning
  | lock heq hfree ht =>
    obtain ⟨links', -, hentered⟩ := owned_enterList h heq hfree ht
    cases hentered with
    | joins =>
      obtain rfl := Option.some.inj htuning
      rfl
    | waits =>
      obtain rfl := Option.some.inj htuning
      rfl
    | _ => cases htuning
  | wakeStopped heq => exact hbanded.tuned node (by rw [heq]; exact htuning)
  | joinShutdown heq => exact hbanded.tuned node (by rw [heq]; exact htuning)
  | @replyFails fd _ _ after heq => cases after <;> cases htuning
  | @replied fd _ after heq => cases after <;> cases htuning
  | @close fd after heq => cases after <;> cases htuning
  | stopStopped heq => exact hbanded.tuned node htuning
  | _ => cases htuning

theorem valid_acceptor {e : AcceptorEvent} (h : Owned s links) (hbanded : Banded s links)
    (ht : AcceptorMove c s e t) {node : Nat} (hnode : node < t.nodes) :
    (t.config node).bandFreq ≠ 0 := by
  by_cases hold : node < s.nodes
  · rw [(acceptor_frame h ht).config node hold]
    exact hbanded.valid node hold
  · cases ht with
    | receive heq ht =>
      cases ht with
      | serves hserve =>
        obtain rfl : node = s.nodes := by
          change node < s.nodes + 1 at hnode
          omega
        change (Function.update s.config s.nodes _ s.nodes).bandFreq ≠ 0
        rw [Function.update_self]
        exact (examine_serve hserve).2.1
      | _ => exact absurd hnode hold
    | lock heq hfree ht =>
      obtain ⟨links', -, hentered⟩ := owned_enterList h heq hfree ht
      cases hentered <;> exact absurd hnode hold
    | _ => exact absurd hnode hold

theorem switch_device {e : AcceptorEvent} (ht : Switch s (.acceptor e) t) {b : UInt32}
    (hdevice : t.device = some b) :
    s.device = some b ∨ ∃ node, s.acceptor = .startingSdr node ∧ t = s.deviceStarted node := by
  cases ht with
  | steady hsame => exact Or.inl (hsame.device ▸ hdevice)
  | passes hsame => exact Or.inl (hsame.device ▸ hdevice)
  | joined hjoins hdone hsame => exact Or.inl (hsame.device.symm.trans hdevice)
  | starts heq => exact Or.inr ⟨_, heq, rfl⟩

theorem device_acceptor {e : AcceptorEvent} {links' : List Nat} (h : Owned s links)
    (hflags : Flags s) (hbanded : Banded s links) (ht : AcceptorMove c s e t)
    (hrelinks : Relinks s t links e links') {b : UInt32} (hdevice : t.device = some b) :
    b = t.currentBandFreq ∨ ∃ node, t.acceptor = .waitingStopped node := by
  rcases switch_device (switch_acceptor h ht) hdevice with hsame | ⟨node, heq, rfl⟩
  · have hrunning : s.sdrStopped ≠ true := by
      intro hstopped
      rw [hflags.quiet (Or.inl hstopped)] at hsame
      cases hsame
    have hband : b = s.currentBandFreq := by
      refine (hbanded.device b hsame).resolve_right ?_
      rintro ⟨node, hwaiting⟩
      exact hrunning (waiting_stopped ht hwaiting)
    cases hrelinks with
    | same heq => exact Or.inl (hband.trans heq.symm)
    | enters heq hentered =>
      cases hentered with
      | joins hempty hstopped => exact absurd hstopped hrunning
      | waits => exact Or.inr ⟨_, rfl⟩
      | rejects => exact Or.inl hband
      | appends => exact Or.inl hband
    | starts heq => exact absurd (hflags.past (Acceptor.starting_pastStop heq)) hrunning
    | unlinks hhead hended heq => exact Or.inl (hband.trans heq.symm)
  · obtain rfl := Option.some.inj hdevice
    exact Or.inl (hbanded.tuned node (by rw [heq]; rfl))

theorem banded_step {e : Event} (h : Owned s links) (hflags : Flags s) (hbanded : Banded s links)
    (ht : s.step c e = some t) : ∃ links', Owned t links' ∧ Banded t links' := by
  cases e with
  | stopTcpServer =>
    obtain rfl := Option.some.inj ht
    exact ⟨links, { h with }, { hbanded with }⟩
  | sdrCallback =>
    obtain ⟨queue, rfl⟩ := callback_frame ht
    exact ⟨links, { h with }, { hbanded with }⟩
  | acceptor event =>
    have hmove := acceptorStep_move ht
    obtain ⟨links', howned, hrelinks⟩ := owned_acceptor h hmove
    have hframe := acceptor_frame h hmove
    refine ⟨links', howned, ?_, ?_, ?_, ?_⟩
    · exact fun node hn => linked_acceptor h hbanded hframe hrelinks hn
    · exact fun node htuning => tuned_acceptor h hbanded hmove htuning
    · exact fun node hn => valid_acceptor h hbanded hmove hn
    · exact fun b hdevice => device_acceptor h hflags hbanded hmove hrelinks hdevice
  | worker node event =>
    have hmove := workerStep_move ht
    refine ⟨links, owned_worker h hmove, ?_⟩
    cases hmove <;> exact { hbanded with }
  | shutdown event =>
    cases shutdownStep_move ht with
    | stopSdr => exact ⟨links, { h with }, { hbanded with device := by simp }⟩
    | lock => exact ⟨links, { h with }, { hbanded with }⟩
  | dsp node event =>
    have howned := owned_dsp h ht
    obtain ⟨dsp, queue, rfl⟩ := dsp_frame ht
    exact ⟨links, howned, { hbanded with }⟩

theorem banded_reaches {ok : Server → Event → Prop} (h : Transition.Reaches (step c) ok start s) :
    ∃ links, Owned s links ∧ Banded s links := by
  refine h.invariant (P := fun s => ∃ links, Owned s links ∧ Banded s links)
    ⟨[], owned_start, banded_start⟩ ?_
  rintro s e t hs ⟨links, howned, hbanded⟩ - ht
  exact banded_step howned (flags_reaches hs) hbanded ht

theorem entered_rejected (h : Owned s links) (hbanded : Banded s links) {node : Nat}
    {links' : List Nat} (ht : Entered s links node links' t) :
    t.acceptor = s.rejected node ↔ ∃ other ∈ links, s.running other = true ∧
      (s.config other).bandFreq ≠ (s.config node).bandFreq := by
  have hnone : s.remaining links = [] → ¬ ∃ other ∈ links, s.running other = true ∧
      (s.config other).bandFreq ≠ (s.config node).bandFreq := by
    rintro hempty ⟨other, ho, hrunning, -⟩
    have hmem : other ∈ s.remaining links := List.mem_filter.mpr ⟨ho, hrunning⟩
    rw [hempty] at hmem
    cases hmem
  cases ht with
  | joins hempty => exact iff_of_false (by simp [rejected, respondFailure]) (hnone hempty)
  | waits hempty => exact iff_of_false (by simp [rejected, respondFailure]) (hnone hempty)
  | rejects hkept hband =>
    refine iff_of_true rfl ?_
    obtain ⟨other, hother⟩ := List.exists_mem_of_ne_nil _ hkept
    obtain ⟨ho, hrunning⟩ := List.mem_filter.mp hother
    refine ⟨other, ho, hrunning, ?_⟩
    rw [hbanded.linked other ho]
    exact hband.2
  | appends hkept hband =>
    refine iff_of_false ?_ ?_
    · intro heq
      injection heq with _ _ _ hafter
      cases hafter
    · rintro ⟨other, ho, -, hne⟩
      exact hne ((hbanded.linked other ho).trans (fits_band h hbanded hkept hband).symm)

theorem turnedDown_move {e : AcceptorEvent} (ht : AcceptorMove c s e t)
    (hdown : s.acceptor.turnedDown = true) : SameTuning s t := by
  have hrefl : SameTuning s s := ⟨rfl, rfl, rfl, rfl, rfl⟩
  cases ht with
  | reply => exact { hrefl with }
  | replyFails => exact { hrefl with }
  | replied => exact { hrefl with }
  | close => exact { hrefl with }
  | unlock => exact { hrefl with }
  | closeNode => exact { hrefl with }
  | cleanup => exact { hrefl with }
  | _ => simp_all [Acceptor.turnedDown]

def twoBands : List Event :=
  arrives 5 100000 ++ firstLinked ++ replySent ++ arrives 6 200000 ++ [.acceptor .lock]

def tunedTooEarly : List Event :=
  arrives 5 100000 ++ firstLinked ++ replySent ++ departs 0 ++ arrives 6 200000 ++ [.acceptor .lock]

end Server
end SdrServer
