import SdrServer.Server.Issued

namespace SdrServer

namespace Acceptor

def serving : Acceptor → Bool
  | .replying _ _ _ .keep => true
  | .replying _ _ _ .drop => true
  | .replying _ _ _ _ => false
  | .closing _ .drop => true
  | .closing _ _ => false
  | .unlocking _ => false
  | .closingNode _ => false
  | .cleaning _ => false
  | .destroying _ => false
  | .joiningDsp _ => false
  | _ => true

def descriptor : Acceptor → Option Nat
  | .reading fd _ => some fd
  | .replying fd _ _ .drop => some fd
  | .closing fd _ => some fd
  | _ => none

end Acceptor

namespace Server

variable {s t : Server} {c : ServerConfig} {k k' : Sockets} {links : List Nat}

-- the server is done with the client of the node
def Finished (s : Server) (node : Nat) : Prop :=
  node < s.nodes ∧ (s.worker node = .ended ∨ s.worker node = .absent ∧ s.acceptor.owned ≠ some node)

instance (s : Server) (node : Nat) : Decidable (s.OutOfBand node) :=
  inferInstanceAs (Decidable (_ ∧ _))

structure Undisturbed (s : Server) (k : Sockets) : Prop where
  workers : ∀ node, s.worker node = .absent ∨ s.worker node = .reading
  dsp : ∀ node, s.dsp node ≠ .failed
  serving : s.acceptor.serving = true
  once : ∀ fd, k.closes fd ≤ 1
  current : ∀ fd, s.acceptor.descriptor = some fd →
    k.closes fd = 0 ∧ ∀ other, k.owner fd = some other → other + 1 = s.accepted
  own : ∀ p ∈ k.hits, p.1 = p.2

theorem undisturbed_start : Undisturbed start Sockets.start := by
  constructor <;> simp [start, Sockets.start, Acceptor.serving, Acceptor.descriptor]

theorem Undisturbed.moves (h : Undisturbed s k)
    (hworkers : ∀ node, t.worker node = .absent ∨ t.worker node = .reading)
    (hdsp : ∀ node, t.dsp node ≠ .failed) (hserving : t.acceptor.serving = true)
    (hcloses : SameCloses k k') (haccepted : t.accepted = s.accepted)
    (hdescriptor : t.acceptor.descriptor = none ∨ t.acceptor.descriptor = s.acceptor.descriptor) :
    Undisturbed t k' := by
  obtain ⟨howner, hcloses, -, hhits⟩ := hcloses
  refine ⟨hworkers, hdsp, hserving, ?_, ?_, ?_⟩
  · rw [hcloses]
    exact h.once
  · intro fd hfd
    rw [hcloses, howner, haccepted]
    rcases hdescriptor with hnone | hsame
    · rw [hnone] at hfd
      cases hfd
    · exact h.current fd (hsame ▸ hfd)
  · rw [hhits]
    exact h.own

theorem Undisturbed.accepts (h : Undisturbed s k) {fd : Nat} (hk : k.accept fd s.accepted = some k') :
    Undisturbed { s with acceptor := .reading fd s.accepted, accepted := s.accepted + 1 } k' := by
  unfold Sockets.accept at hk
  split at hk
  · obtain rfl := Option.some.inj hk
    refine ⟨h.workers, h.dsp, rfl, ?_, ?_, h.own⟩
    · intro other
      change Function.update k.closes fd 0 other ≤ 1
      by_cases he : other = fd
      · rw [he, Function.update_self]
        exact Nat.zero_le _
      · rw [Function.update_of_ne he]
        exact h.once other
    · intro other hother
      obtain rfl := Option.some.inj hother
      refine ⟨Function.update_self .., ?_⟩
      intro conn howner
      change Function.update k.owner fd (some s.accepted) fd = some conn at howner
      rw [Function.update_self] at howner
      rw [Option.some.inj howner]
  · cases hk

theorem Undisturbed.closes (h : Undisturbed s k) {fd : Nat} {after : After}
    (heq : s.acceptor = .closing fd after) :
    Undisturbed { s with acceptor := afterClose after } (k.close fd (s.accepted - 1)) := by
  obtain ⟨hzero, howner⟩ := h.current fd (by rw [heq]; rfl)
  have hserving := h.serving
  rw [heq] at hserving
  obtain rfl : after = .drop := by
    cases after <;> first | rfl | cases hserving
  refine ⟨h.workers, h.dsp, rfl, ?_, ?_, ?_⟩
  · intro other
    change Function.update k.closes fd (k.closes fd + 1) other ≤ 1
    by_cases he : other = fd
    · exact Nat.le_of_eq (by rw [he, Function.update_self, hzero])
    · rw [Function.update_of_ne he]
      exact h.once other
  · intro other hother
    cases hother
  · intro p hp
    rcases List.mem_append.mp hp with hnew | hold
    · obtain ⟨conn, hconn, rfl⟩ := List.mem_map.mp hnew
      have hlatest := howner conn (Option.mem_toList.mp hconn)
      change s.accepted - 1 = conn
      omega
    · exact h.own p hold

-- no client that was given a node goes away or is turned away, and no write to one fails
def KeepsClients (s : Server) : Event → Prop
  | .worker _ .leave => False
  | .dsp _ .writeFails => False
  | .acceptor (.startDsp started) => started = true
  | .acceptor (.createThread created) => created = true
  | .acceptor (.startSdr started) => started = true
  | .acceptor .lock => ∀ node ∈ s.acceptor.owned, s.someRunning s.nodes s.tcpNodes = true →
      ¬ s.OutOfBand node
  | _ => True

instance (s : Server) (e : Event) : Decidable (s.KeepsClients e) := by
  unfold KeepsClients
  split <;> infer_instance

theorem Undisturbed.entered (h : Undisturbed s k) (ho : Owned s links) {node : Nat}
    {links' : List Nat} (heq : s.acceptor = .locking node) (hok : s.KeepsClients (.acceptor .lock))
    (ht : Entered s links node links' t) : Undisturbed t k := by
  have hrefl := sameCloses_refl k
  cases ht with
  | rejects hkept hband =>
    obtain ⟨other, hother⟩ := List.exists_mem_of_ne_nil _ hkept
    obtain ⟨hlinked, hrunning⟩ := List.mem_filter.mp hother
    have hsome : s.someRunning s.nodes s.tcpNodes = true := by
      rw [someRunning_spec ho.path ho.fits, List.any_eq_true]
      exact ⟨other, hlinked, hrunning⟩
    exact absurd hband (hok node (by rw [heq]; rfl) hsome)
  | _ => exact h.moves h.workers h.dsp rfl hrefl rfl (Or.inl rfl)

theorem Undisturbed.acceptor (h : Undisturbed s k) (ho : Owned s links) {e : AcceptorEvent}
    (hok : s.KeepsClients (.acceptor e)) (ht : AcceptorMove c s e t)
    (hk : k.acceptorStep s e = some k') : Undisturbed t k' := by
  have hrefl := sameCloses_refl k
  have hserving := h.serving
  cases ht with
  | checkRunning heq =>
    obtain rfl := Option.some.inj hk
    cases s.isRunning <;> exact h.moves h.workers h.dsp rfl hrefl rfl (Or.inl rfl)
  | accept heq => exact h.accepts hk
  | receive heq ht =>
    obtain rfl := Option.some.inj hk
    cases ht with
    | serves => exact h.moves h.workers h.dsp rfl hrefl rfl (Or.inl rfl)
    | _ =>
      exact h.moves h.workers h.dsp rfl hrefl rfl (Or.inr (by rw [heq]; rfl))
  | @startDsp node heq =>
    obtain rfl := Option.some.inj hk
    refine h.moves h.workers ?_ rfl hrefl rfl (Or.inl rfl)
    intro other
    change Function.update s.dsp node .waiting other ≠ .failed
    by_cases he : other = node
    · rw [he, Function.update_self]
      simp
    · rw [Function.update_of_ne he]
      exact h.dsp other
  | startDspFails heq => cases hok
  | @createThread node heq =>
    obtain rfl := Option.some.inj hk
    refine h.moves ?_ h.dsp rfl hrefl rfl (Or.inl rfl)
    intro other
    change Function.update s.worker node .reading other = .absent ∨
      Function.update s.worker node .reading other = .reading
    by_cases he : other = node
    · rw [he, Function.update_self]
      exact Or.inr rfl
    · rw [Function.update_of_ne he]
      exact h.workers other
  | createThreadFails heq => cases hok
  | lock heq hfree ht =>
    obtain rfl := Option.some.inj hk
    obtain ⟨links', -, hentered⟩ := owned_enterList ho heq hfree ht
    exact h.entered ho heq hok hentered
  | startSdrFails heq => cases hok
  | @reply fd conn left after n heq =>
    simp only [Sockets.acceptorStep, heq] at hk
    rw [heq] at hserving
    refine h.moves h.workers h.dsp ?_ (sameCloses_write hk) rfl ?_
    · cases after <;> exact hserving
    · rw [heq]
      cases after <;> exact Or.inr rfl
  | @replyFails fd conn left after heq =>
    simp only [Sockets.acceptorStep, heq] at hk
    have hcloses := sameCloses_writeFails hk
    rw [heq] at hserving
    cases after with
    | keep => exact h.moves h.workers h.dsp rfl hcloses rfl (Or.inl rfl)
    | drop => exact h.moves h.workers h.dsp rfl hcloses rfl (Or.inr (by rw [heq]; rfl))
    | _ => cases hserving
  | @replied fd conn after heq =>
    simp only [Sockets.acceptorStep, heq] at hk
    obtain rfl := Option.some.inj hk
    rw [heq] at hserving
    cases after with
    | keep => exact h.moves h.workers h.dsp rfl ⟨rfl, rfl, rfl, rfl⟩ rfl (Or.inl rfl)
    | drop =>
      exact h.moves h.workers h.dsp rfl ⟨rfl, rfl, rfl, rfl⟩ rfl (Or.inr (by rw [heq]; rfl))
    | _ => cases hserving
  | close heq =>
    simp only [Sockets.acceptorStep, heq] at hk
    obtain rfl := Option.some.inj hk
    exact h.closes heq
  | unlock heq | closeNode heq | cleanup heq | destroyNode heq | destroyEmpty heq | joinDsp heq =>
    rw [heq] at hserving
    cases hserving
  | stopRunning heq hhead =>
    simp only [Sockets.acceptorStep, hhead] at hk
    obtain rfl := Option.some.inj hk
    exact h.moves h.workers h.dsp rfl (sameCloses_shutdown k _) rfl (Or.inl rfl)
  | stopStopped heq hhead =>
    simp only [Sockets.acceptorStep, hhead] at hk
    obtain rfl := Option.some.inj hk
    exact h.moves h.workers h.dsp hserving (sameCloses_shutdown k _) rfl (Or.inr rfl)
  | stopLast heq hhead | stopWaits heq hhead =>
    simp only [Sockets.acceptorStep, hhead] at hk
    obtain rfl := Option.some.inj hk
    exact h.moves h.workers h.dsp rfl hrefl rfl (Or.inl rfl)
  | acceptFails | wakeStopped | joinShutdown | startSdr | lockStop | wakeTerminated | wakeSdr
  | joinSdr =>
    obtain rfl := Option.some.inj hk
    exact h.moves h.workers h.dsp rfl hrefl rfl (Or.inl rfl)

theorem Undisturbed.worker (h : Undisturbed s k) {node : Nat} {e : WorkerEvent}
    (hok : s.KeepsClients (.worker node e)) (ht : WorkerMove s node e t) : Undisturbed t k' := by
  have hworker := h.workers node
  cases ht with
  | leave => cases hok
  | lock heq | close heq | scan heq | scanLast heq | destroyNode heq | joinDsp heq =>
    rw [heq] at hworker
    rcases hworker with hw | hw <;> cases hw

theorem Undisturbed.dspThread (h : Undisturbed s k) {node : Nat} {e : DspThreadEvent}
    (hok : s.KeepsClients (.dsp node e)) (ht : s.dspStep node e = some t)
    (hk : k.dspStep s node e = some k') : Undisturbed t k' := by
  have hset : ∀ new, new ≠ Dsp.failed → ∀ other, Function.update s.dsp node new other ≠ .failed := by
    intro new hnew other
    by_cases he : other = node
    · rwa [he, Function.update_self]
    · rw [Function.update_of_ne he]
      exact h.dsp other
  have hthread : ∀ {k' : Sockets}, SameCloses k k' → (∀ other, t.dsp other ≠ .failed) →
      Undisturbed t k' := by
    intro k' hcloses hdsp
    obtain ⟨dsp, queue, rfl⟩ := dsp_frame ht
    exact h.moves h.workers hdsp h.serving hcloses rfl (Or.inr rfl)
  have hrefl := sameCloses_refl k
  cases dspStep_move ht with
  | writeFails => cases hok
  | close heq => exact absurd heq (h.dsp node)
  | @write n left heq hn =>
    have hdsp := hset (.writing (left - n)) (by simp)
    simp only [Sockets.dspStep] at hk
    split at hk
    · exact hthread (sameCloses_write hk) hdsp
    · obtain rfl := Option.some.inj hk
      exact hthread hrefl hdsp
  | take | complete | finish =>
    obtain rfl := Option.some.inj hk
    exact hthread hrefl (hset _ (by simp))

theorem Undisturbed.step {e : Event} (h : Undisturbed s k) (ho : Owned s links)
    (hok : s.KeepsClients e) (ht : s.step c e = some t) (hk : k.step s e = some k') :
    Undisturbed t k' := by
  cases e with
  | acceptor event => exact h.acceptor ho hok (acceptorStep_move ht) hk
  | worker node event => exact h.worker hok (workerStep_move ht)
  | dsp node event => exact h.dspThread hok ht hk
  | stopTcpServer =>
    obtain rfl := Option.some.inj ht
    obtain rfl := Option.some.inj hk
    exact { h with }
  | sdrCallback =>
    obtain ⟨queue, rfl⟩ := callback_frame ht
    obtain rfl := Option.some.inj hk
    exact { h with }
  | shutdown event =>
    obtain rfl := Option.some.inj hk
    cases shutdownStep_move ht <;> exact { h with }

end Server

namespace System

variable {s t : System} {c : ServerConfig}

structure ClosedOnce (s : System) : Prop where
  once : ∀ fd, s.sockets.closes fd ≤ 1
  own : ∀ p ∈ s.sockets.hits, p.1 = p.2

def KeepsClients (s : System) : SystemEvent → Prop
  | .server event => s.server.KeepsClients event
  | .hangUp _ => True

instance (s : System) (e : SystemEvent) : Decidable (s.KeepsClients e) := by
  unfold KeepsClients
  split <;> infer_instance

theorem issued_reaches (h : Transition.Reachable (step c) start s) :
    s.server.Issued s.sockets := by
  refine h.invariant (P := fun s => s.server.Issued s.sockets) Server.issued_start ?_
  intro s e t hs hissued _ ht
  obtain ⟨links, ho⟩ := Server.owned_reaches (reaches_server hs)
  cases e with
  | server event =>
    obtain ⟨hserver, hsockets⟩ := step_server ht
    exact hissued.step ho hserver hsockets
  | hangUp connection =>
    obtain rfl := Option.some.inj ht
    exact { hissued with }

theorem undisturbed_reaches (h : Transition.Reaches (step c) KeepsClients start s) :
    s.server.Undisturbed s.sockets := by
  refine h.invariant (P := fun s => s.server.Undisturbed s.sockets) Server.undisturbed_start ?_
  intro s e t hs hprev hok ht
  obtain ⟨links, ho⟩ := Server.owned_reaches (reaches_server hs)
  cases e with
  | server event =>
    obtain ⟨hserver, hsockets⟩ := step_server ht
    exact hprev.step ho hok hserver hsockets
  | hangUp connection =>
    obtain rfl := Option.some.inj ht
    exact { hprev with }

theorem closed_once (h : Transition.Reachable (step c) start s) :
    (Transition.Reaches (step c) KeepsClients start s → s.ClosedOnce) ∧
      ∀ node, s.server.Finished node → 2 ≤ s.sockets.issued (s.server.connection node) := by
  constructor
  · intro hkeeps
    have hundisturbed := undisturbed_reaches hkeeps
    exact ⟨hundisturbed.once, hundisturbed.own⟩
  · intro node hfinished
    have hissued := issued_reaches h
    obtain ⟨hn, hended | ⟨habsent, hfree⟩⟩ := hfinished
    · have hcloses := hissued.workers node hn
      rw [hended] at hcloses
      exact hcloses
    · exact hissued.forgotten node hn habsent hfree

def pinged (fd : Nat) : List Event :=
  [.acceptor .checkRunning, .acceptor (.accept fd),
    .acceptor (.receive (.message protocolVersion typePing none)), .acceptor (.reply 7),
    .acceptor .replied, .acceptor .close]

def pingedTwice : List SystemEvent :=
  (Server.arrives 5 100000 ++ Server.firstLinked ++ Server.replySent ++ pinged 6 ++ pinged 6).map .server

theorem closed_once_pinged : ∃ s,
    Transition.run (Transition.guarded (step Server.narrowBand) KeepsClients) start pingedTwice = some s ∧
      s.sockets.hits = [(2, 2), (1, 1)] ∧ s.ClosedOnce := by
  have hrun : (Transition.run (Transition.guarded (step Server.narrowBand) KeepsClients) start
      pingedTwice).isSome := by decide
  refine ⟨_, (Option.some_get hrun).symm, rfl, ?_⟩
  have hkeeps := Transition.reaches_guarded .start (Option.some_get hrun).symm
  exact (closed_once hkeeps.reachable).1 hkeeps

def servedAndGone : List SystemEvent :=
  (Server.arrives 5 100000 ++ Server.firstLinked ++ Server.replySent ++ Server.departs 0).map .server

-- the second client is accepted between the two closes of the first one's descriptor
def betweenCloses : List Event :=
  [.worker 0 .leave, .worker 0 .lock, .worker 0 .close, .acceptor .checkRunning,
    .acceptor (.accept 5), .worker 0 .scan, .worker 0 .destroyNode]

def acceptedMeanwhile : List SystemEvent :=
  (Server.arrives 5 100000 ++ Server.firstLinked ++ Server.replySent ++ betweenCloses).map .server

theorem closed_twice :
    (∃ s, Transition.run (step Server.narrowBand) start servedAndGone = some s ∧
      Transition.Reachable (step Server.narrowBand) start s ∧ s.sockets.closes 5 = 2) ∧
    ∃ s, Transition.run (step Server.narrowBand) start acceptedMeanwhile = some s ∧
      Transition.Reachable (step Server.narrowBand) start s ∧ (0, 1) ∈ s.sockets.hits := by
  have hgone : (Transition.run (step Server.narrowBand) start servedAndGone).isSome := by decide
  have hmeanwhile : (Transition.run (step Server.narrowBand) start acceptedMeanwhile).isSome := by decide
  constructor
  · exact ⟨_, (Option.some_get hgone).symm,
      Transition.reachable_run .start (Option.some_get hgone).symm, rfl⟩
  · have hhits : ((Transition.run (step Server.narrowBand) start acceptedMeanwhile).get
        hmeanwhile).sockets.hits = [(0, 1), (0, 0)] := rfl
    refine ⟨_, (Option.some_get hmeanwhile).symm,
      Transition.reachable_run .start (Option.some_get hmeanwhile).symm, ?_⟩
    rw [hhits]
    exact List.mem_cons_self

end System
end SdrServer
