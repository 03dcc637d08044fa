import SdrServer.Server.Linking
import SdrServer.Server.Moves

namespace SdrServer
namespace Server

variable {s t : Server} {c : ServerConfig} {links : List Nat}

theorem owned_receive (h : Owned s links) {fd connection : Nat} {received : Received}
    (heq : s.acceptor = .reading fd connection) (ht : Reception c s fd connection received t) :
    Owned t links := by
  cases ht with
  | closes =>
    have hmoved := h.steps (a := .closing fd .drop) heq rfl
      (by simp [Acceptor.owned, After.node]) rfl trivial
    exact { hmoved with }
  | @answers _ status details =>
    have hmoved := h.steps (a := .replying fd connection (writeMessage status details) .drop) heq rfl
      (by simp [Acceptor.owned, After.node]) rfl trivial
    exact { hmoved with }
  | @serves counter config =>
    have hcounted : Owned { s with clientCounter := counter } links := { h with }
    exact hcounted.serves heq config

abbrev remaining (s : Server) (links : List Nat) : List Nat := links.filter fun node => s.running node

def OutOfBand (s : Server) (node : Nat) : Prop :=
  s.currentBandFreq ≠ 0 ∧ s.currentBandFreq ≠ (s.config node).bandFreq

inductive Entered (s : Server) (links : List Nat) (node : Nat) : List Nat → Server → Prop
  | joins {next joined freed} (hempty : s.remaining links = []) (hstopped : s.sdrStopped = true) :
      Entered s links node []
        { s with
          tcpNodes := none
          next
          joined
          freed
          currentBandFreq := (s.config node).bandFreq
          mutex := some .acceptor
          acceptor := .joiningShutdown node }
  | waits {next joined freed} (hempty : s.remaining links = []) (hstopped : s.sdrStopped = false) :
      Entered s links node []
        { s with
          tcpNodes := none
          next
          joined
          freed
          currentBandFreq := (s.config node).bandFreq
          acceptor := .waitingStopped node }
  | rejects {head next joined freed} (hkept : s.remaining links ≠ []) (hband : s.OutOfBand node) :
      Entered s links node (s.remaining links)
        { s with
          tcpNodes := head
          next
          joined
          freed
          mutex := some .acceptor
          acceptor := respondFailure (s.config node).clientSocket (s.connection node)
            responseDetailsOutOfBandFreq (.reject node) }
  | appends {head next joined freed} (hkept : s.remaining links ≠ [])
      (hband : ¬ s.OutOfBand node) :
      Entered s links node (s.remaining links ++ [node])
        { s with
          tcpNodes := head
          next
          joined
          freed
          acceptor := respondSuccess (s.config node).clientSocket (s.connection node)
            (s.config node).id .keep }

theorem owned_enterList (h : Owned s links) {node : Nat} (heq : s.acceptor = .locking node)
    (hfree : s.mutex = none) (ht : s.enterList node = some t) :
    ∃ links', Owned t links' ∧ Entered s links node links' t := by
  obtain ⟨head, next, hcleanup, hpruned⟩ := h.prunes heq hfree
  simp only [enterList, hcleanup, Option.map_some, Option.some.injEq] at ht
  subst ht
  have hhead := Chain.path_head _ hpruned.path
  cases head with
  | none =>
    have hempty : s.remaining links = [] := List.head?_eq_none_iff.mp hhead.symm
    have hnil := hpruned
    rw [show (links.filter fun node => s.running node) = [] from hempty] at hnil
    refine ⟨[], ?_⟩
    dsimp only
    split
    · rename_i hstopped
      have hjoins := hnil.acquires (a := .joiningShutdown node) hfree heq rfl (fun _ => rfl) rfl rfl
      exact ⟨{ hjoins with }, .joins hempty hstopped⟩
    · rename_i hstopped
      have hwaits := hnil.steps (a := .waitingStopped node) heq rfl (fun _ => rfl) rfl rfl
      exact ⟨{ hwaits with }, .waits hempty (by simpa using hstopped)⟩
  | some first =>
    have hkept : s.remaining links ≠ [] := by
      intro hempty
      change some first = (s.remaining links).head? at hhead
      rw [hempty] at hhead
      cases hhead
    dsimp only
    split
    · rename_i hband
      exact ⟨_, hpruned.acquires hfree heq rfl (fun _ => rfl) rfl trivial, .rejects hkept hband⟩
    · rename_i hband
      exact ⟨_, hpruned.appends heq rfl, .appends hkept hband⟩

inductive Relinks (s t : Server) (links : List Nat) : AcceptorEvent → List Nat → Prop
  | same {e} (hband : t.currentBandFreq = s.currentBandFreq) : Relinks s t links e links
  | enters {node links'} (heq : s.acceptor = .locking node) (hentered : Entered s links node links' t) :
      Relinks s t links .lock links'
  | starts {node} (heq : s.acceptor = .startingSdr node) (ht : t = s.deviceStarted node) :
      Relinks s t links (.startSdr true) [node]
  | unlinks {e node} (hhead : s.tcpNodes = some node) (hended : s.worker node = .ended)
      (hband : t.currentBandFreq = s.currentBandFreq) : Relinks s t links e links.tail

theorem owned_wakeTerminated (h : Owned s links) {node : Nat} {next : Option Nat}
    (heq : s.acceptor = .waitingTerminated node next) (hfree : s.mutex = none)
    (hended : s.worker node = .ended) :
    Owned { s with
      joined := Function.update s.joined node (s.joined node + 1)
      freed := Function.update s.freed node (s.freed node + 1)
      tcpNodes := next
      mutex := some .acceptor
      acceptor := .stopping } links.tail := by
  have hexpects := h.expects
  rw [heq] at hexpects
  obtain ⟨hhead, rfl⟩ := hexpects
  have hacquired := h.acquires (a := .stopping) hfree heq rfl (by simp [Acceptor.owned]) rfl trivial
  exact hacquired.unlinksHead rfl hhead hended

theorem owned_startDsp (h : Owned s links) {node : Nat} (heq : s.acceptor = .startingDsp node) :
    Owned { s.setDsp node .waiting with acceptor := .creatingThread node } links := by
  have hexpects := h.expects
  rw [heq] at hexpects
  obtain ⟨-, -, habsent, hrunning⟩ := h.of_unthreaded heq rfl rfl
  have hset : Owned (s.setDsp node .waiting) links := by
    refine h.setsDsp (fun _ => ?_) (by simp [heq])
    rw [habsent]
    exact hrunning
  refine hset.steps heq rfl (fun _ => rfl) rfl ⟨?_, hexpects⟩
  change (Function.update s.dsp node .waiting node).live = true
  rw [Function.update_self]
  rfl

theorem owned_destroyNode (h : Owned s links) {node : Nat} (heq : s.acceptor = .destroying node) :
    Owned { s with
      poisonPill := Function.update s.poisonPill node true
      acceptor := .joiningDsp node } links := by
  obtain ⟨hactive, -, habsent, hrunning⟩ := h.of_unthreaded heq rfl rfl
  have hmoved := h.steps (a := .joiningDsp node) heq rfl (fun _ => rfl) rfl trivial
  have hnew := h.permits_update node (s.worker node) (s.running node) (s.dsp node) true (by
    rw [habsent]
    exact fun _ => hrunning)
  simp only [Function.update_eq_self] at hnew
  refine { hmoved with fresh := ?_, permits := hnew, expects := trivial }
  intro other ho
  have hother := hactive.below ho
  obtain ⟨hu, hp⟩ := h.fresh other ho
  exact ⟨hu, (Function.update_of_ne hother _ _).trans hp⟩

theorem owned_joinDsp (h : Owned s links) {node : Nat} (heq : s.acceptor = .joiningDsp node) :
    Owned { s.setDsp node .destroyed with acceptor := .looping } links := by
  obtain ⟨-, -, habsent, hrunning⟩ := h.of_unthreaded heq rfl rfl
  have hset : Owned (s.setDsp node .destroyed) links := by
    refine h.setsDsp (fun _ => ?_) (by simp [heq])
    rw [habsent]
    exact hrunning
  exact hset.forgets heq rfl rfl

theorem owned_acceptor {e : AcceptorEvent} (h : Owned s links) (ht : AcceptorMove c s e t) :
    ∃ links', Owned t links' ∧ Relinks s t links e links' := by
  have hexpects := h.expects
  cases ht with
  | checkRunning heq =>
    refine ⟨links, ?_, .same rfl⟩
    split
    · exact h.steps heq rfl (fun _ => rfl) rfl trivial
    · exact h.steps heq rfl (fun _ => rfl) rfl trivial
  | @accept fd heq =>
    have hmoved := h.steps (a := .reading fd s.accepted) heq rfl (fun _ => rfl) rfl trivial
    exact ⟨links, { hmoved with }, .same rfl⟩
  | acceptFails heq => exact ⟨links, h.steps heq rfl (fun _ => rfl) rfl trivial, .same rfl⟩
  | receive heq ht =>
    refine ⟨links, owned_receive h heq ht, .same ?_⟩
    cases ht <;> rfl
  | startDsp heq => exact ⟨links, owned_startDsp h heq, .same rfl⟩
  | startDspFails heq => exact ⟨links, h.steps heq rfl (fun _ => rfl) rfl trivial, .same rfl⟩
  | createThread heq => exact ⟨links, h.creates heq, .same rfl⟩
  | createThreadFails heq => exact ⟨links, h.steps heq rfl (fun _ => rfl) rfl trivial, .same rfl⟩
  | lock heq hfree ht =>
    obtain ⟨links', howned, hentered⟩ := owned_enterList h heq hfree ht
    exact ⟨links', howned, .enters heq hentered⟩
  | wakeStopped heq hfree =>
    rw [heq] at hexpects
    exact ⟨links, h.acquires hfree heq rfl (fun _ => rfl) rfl hexpects, .same rfl⟩
  | @joinShutdown node heq =>
    rw [heq] at hexpects
    have hmoved := h.steps (a := .startingSdr node) heq rfl (fun _ => rfl) rfl hexpects
    exact ⟨links, { hmoved with }, .same rfl⟩
  | startSdr heq => exact ⟨_, h.starts heq, .starts heq rfl⟩
  | startSdrFails heq => exact ⟨links, h.releases heq rfl rfl (fun _ => rfl) rfl trivial, .same rfl⟩
  | reply heq => exact ⟨links, h.steps heq rfl (fun _ => rfl) rfl trivial, .same rfl⟩
  | @replyFails fd connection left after heq =>
    refine ⟨links, ?_, .same rfl⟩
    cases after with
    | keep => exact h.steps heq rfl (fun hn => absurd rfl hn) rfl trivial
    | _ => exact h.steps heq rfl (fun _ => rfl) rfl trivial
  | @replied fd connection after heq =>
    refine ⟨links, ?_, .same rfl⟩
    cases after with
    | keep => exact h.steps heq rfl (fun hn => absurd rfl hn) rfl trivial
    | _ => exact h.steps heq rfl (fun _ => rfl) rfl trivial
  | @close fd after heq =>
    refine ⟨links, ?_, .same rfl⟩
    cases after with
    | keep => exact h.steps heq rfl (fun hn => absurd rfl hn) rfl trivial
    | drop => exact h.steps heq rfl (fun hn => absurd rfl hn) rfl trivial
    | _ => exact h.steps heq rfl (fun _ => rfl) rfl trivial
  | unlock heq => exact ⟨links, h.releases heq rfl rfl (fun _ => rfl) rfl trivial, .same rfl⟩
  | closeNode heq => exact ⟨links, h.steps heq rfl (fun _ => rfl) rfl trivial, .same rfl⟩
  | cleanup heq hended => exact ⟨links, h.frees heq hended, .same rfl⟩
  | destroyNode heq => exact ⟨links, owned_destroyNode h heq, .same rfl⟩
  | destroyEmpty heq => exact ⟨links, h.forgets heq rfl rfl, .same rfl⟩
  | joinDsp heq => exact ⟨links, owned_joinDsp h heq, .same rfl⟩
  | lockStop heq hfree => exact ⟨links, h.acquires hfree heq rfl (fun _ => rfl) rfl trivial, .same rfl⟩
  | stopRunning heq hhead =>
    exact ⟨links, h.releases heq rfl rfl (fun _ => rfl) rfl ⟨hhead, rfl⟩, .same rfl⟩
  | stopStopped heq hhead hended =>
    exact ⟨links.tail, h.unlinksHead heq hhead hended, .unlinks hhead hended rfl⟩
  | stopLast heq hhead => exact ⟨links, h.steps heq rfl (fun _ => rfl) rfl (h.empty hhead), .same rfl⟩
  | stopWaits heq hhead =>
    exact ⟨links, h.releases heq rfl rfl (fun _ => rfl) rfl (h.empty hhead), .same rfl⟩
  | wakeTerminated heq hfree hended =>
    obtain ⟨hhead, -⟩ : s.tcpNodes = some _ ∧ _ := heq ▸ hexpects
    exact ⟨links.tail, owned_wakeTerminated h heq hfree hended, .unlinks hhead hended rfl⟩
  | wakeSdr heq hfree =>
    rw [heq] at hexpects
    exact ⟨links, h.acquires hfree heq rfl (fun _ => rfl) rfl hexpects, .same rfl⟩
  | joinSdr heq =>
    rw [heq] at hexpects
    have hmoved := h.releases (a := .ended) heq rfl rfl (fun _ => rfl) rfl hexpects
    exact ⟨links, { hmoved with }, .same rfl⟩

theorem worker_permits (h : Owned s links) {node : Nat} {worker : Worker}
    (heq : s.worker node = worker) (hne : worker ≠ .absent) :
    worker.Permits (s.running node) (s.dsp node) (s.poisonPill node) := by
  subst heq
  exact h.permits node (h.allocated hne)

theorem owned_continues (h : Owned s links) {node : Nat} {old worker : Worker} {poison : Bool}
    (heq : s.worker node = old) (hold : old ≠ .absent) (hended : old ≠ .ended)
    (hnew : worker ≠ .absent) (hholds : worker.holds = old.holds)
    (hp : worker.Permits (s.running node) (s.dsp node) poison) :
    Owned { s.setWorker node worker with
      poisonPill := Function.update s.poisonPill node poison } links := by
  subst heq
  have hmoved := h.worker_moves node worker _ _ poison _ hold hended hnew hp h.mutexAcceptor
    (holds_update h hholds)
  simp only [Function.update_eq_self] at hmoved
  exact hmoved

theorem owned_keeps_poison (h : Owned s links) {node : Nat} {old worker : Worker}
    (heq : s.worker node = old) (hold : old ≠ .absent) (hended : old ≠ .ended)
    (hnew : worker ≠ .absent) (hholds : worker.holds = old.holds)
    (hp : worker.Permits (s.running node) (s.dsp node) (s.poisonPill node)) :
    Owned (s.setWorker node worker) links := by
  have hmoved := owned_continues h heq hold hended hnew hholds hp
  simp only [Function.update_eq_self] at hmoved
  exact hmoved

theorem owned_worker {node : Nat} {e : WorkerEvent} (h : Owned s links)
    (ht : WorkerMove s node e t) : Owned t links := by
  cases ht with
  | leave heq =>
    have hp := worker_permits h heq (by simp)
    exact owned_keeps_poison h heq (by simp) (by simp) (by simp) rfl hp
  | lock heq hfree =>
    obtain ⟨-, hlive, hpoison⟩ := worker_permits h heq (by simp)
    have hacceptor : s.acceptor.holds = false := h.unlocked (by simp [hfree])
    have hmoved := h.worker_moves node .closing false (s.dsp node) (s.poisonPill node)
      (some (.worker node)) (by simp [heq]) (by simp [heq]) (by simp) ⟨rfl, hlive, hpoison⟩
      (by simp [hacceptor])
      (mutex_update h (by simp [Worker.holds]) (by simp +contextual [hfree, eq_comm]))
    simp only [Function.update_eq_self] at hmoved
    exact hmoved
  | close heq =>
    have hp := worker_permits h heq (by simp)
    exact owned_keeps_poison h heq (by simp) (by simp) (by simp) rfl hp
  | scan heq =>
    have hp := worker_permits h heq (by simp)
    exact owned_keeps_poison h heq (by simp) (by simp) (by simp) rfl hp
  | scanLast heq =>
    have hp := worker_permits h heq (by simp)
    have hmoved : Owned (s.setWorker node .destroying) links :=
      owned_keeps_poison h heq (by simp) (by simp) (by simp) rfl hp
    exact { hmoved with }
  | destroyNode heq =>
    obtain ⟨hstopped, hlive, -⟩ := worker_permits h heq (by simp)
    exact owned_continues h heq (by simp) (by simp) (by simp) rfl ⟨hstopped, Or.inl hlive⟩
  | joinDsp heq hended =>
    obtain ⟨hstopped, -⟩ := worker_permits h heq (by simp)
    have hmutex : s.mutex = some (.worker node) := (h.mutexWorker node).mpr (by rw [heq]; rfl)
    have hacceptor : s.acceptor.holds = false := h.unlocked (by simp [hmutex])
    have hmoved := h.worker_moves node .ended (s.running node) .destroyed (s.poisonPill node) none
      (by simp [heq]) (by simp [heq]) (by simp) ⟨hstopped, rfl⟩ (by simp [hacceptor])
      (mutex_update h (by simp [Worker.holds]) (by simp +contextual [hmutex, eq_comm]))
    simp only [Function.update_eq_self] at hmoved
    exact hmoved

theorem permits_live {worker : Worker} {running poison : Bool} {old new : Dsp}
    (h : worker.Permits running old poison) (hold : old.live = true) (hnew : new.live = true) :
    worker.Permits running new poison := by
  cases worker with
  | absent => exact h
  | joining => exact ⟨h.1, Or.inl hnew⟩
  | ended =>
    obtain ⟨-, rfl⟩ := h
    cases hold
  | _ => exact ⟨h.1, hnew, h.2.2⟩

theorem owned_lives (h : Owned s links) {node : Nat} {d : Dsp} (hold : (s.dsp node).live = true)
    (hnew : d.live = true) (queue : Nat → Fifo Nat) :
    Owned { s.setDsp node d with queue } links := by
  have hset := h.setsDsp (fun hlt => permits_live (h.permits node hlt) hold hnew) fun _ => hnew
  exact { hset with }

theorem owned_finishes (h : Owned s links) {node : Nat} (hwaiting : s.dsp node = .waiting)
    (hpoison : s.poisonPill node = true) : Owned (s.setDsp node .ended) links := by
  have hexpects := h.expects
  refine h.setsDsp (fun hlt => ?_) ?_
  · have hpermits := h.permits node hlt
    rw [hwaiting, hpoison] at hpermits
    rw [hpoison]
    cases hworker : s.worker node with
    | absent =>
      rw [hworker] at hpermits
      exact hpermits
    | joining =>
      rw [hworker] at hpermits
      exact ⟨hpermits.1, Or.inr rfl⟩
    | _ => simp [hworker, Worker.Permits] at hpermits
  · intro hcreating
    rw [hcreating] at hexpects
    obtain ⟨-, hclear⟩ := hexpects
    rw [hpoison] at hclear
    cases hclear

theorem owned_dsp {node : Nat} {e : DspThreadEvent} (h : Owned s links)
    (ht : s.dspStep node e = some t) : Owned t links := by
  cases dspStep_move ht with
  | take heq | write heq | writeFails heq | complete heq | close heq =>
    exact owned_lives h (by rw [heq]; rfl) rfl _
  | finish heq hempty hpoison => exact owned_finishes h heq hpoison

theorem callbackLoop_frame {fuel : Nat} {head : Option Nat}
    (ht : callbackLoop c fuel head s = some t) : ∃ queue, t = { s with queue } := by
  induction fuel generalizing s head with
  | zero =>
    cases head with
    | none => exact ⟨s.queue, (Option.some.inj ht).symm⟩
    | some node => cases ht
  | succ fuel ih =>
    cases head with
    | none => exact ⟨s.queue, (Option.some.inj ht).symm⟩
    | some node =>
      simp only [callbackLoop] at ht
      split at ht
      · obtain ⟨r, hr, hloop⟩ := Option.bind_eq_some_iff.mp ht
        simp only [dspWorkerProcess] at hr
        split at hr
        · cases hr
        · obtain ⟨queue, -, rfl⟩ := Option.map_eq_some_iff.mp hr
          obtain ⟨queue', rfl⟩ := ih hloop
          exact ⟨queue', rfl⟩
      · exact ih ht

theorem sdrCallback_frame (ht : s.sdrCallback c = some t) :
    ∃ queue, t = { s with queue, deviceBuffers := s.deviceBuffers + 1 } := by
  obtain ⟨r, hr, rfl⟩ := Option.map_eq_some_iff.mp ht
  obtain ⟨queue, rfl⟩ := callbackLoop_frame hr
  exact ⟨queue, rfl⟩

theorem owned_step {e : Event} (h : Owned s links) (ht : s.step c e = some t) :
    ∃ links', Owned t links' := by
  cases e with
  | stopTcpServer =>
    obtain rfl := Option.some.inj ht
    exact ⟨links, { h with }⟩
  | sdrCallback =>
    simp only [step] at ht
    split at ht
    · obtain ⟨queue, rfl⟩ := sdrCallback_frame ht
      exact ⟨links, { h with }⟩
    · cases ht
  | acceptor event =>
    obtain ⟨links', howned, -⟩ := owned_acceptor h (acceptorStep_move ht)
    exact ⟨links', howned⟩
  | worker node event => exact ⟨links, owned_worker h (workerStep_move ht)⟩
  | shutdown event =>
    refine ⟨links, ?_⟩
    cases shutdownStep_move ht with
    | stopSdr => exact { h with }
    | lock => exact { h with }
  | dsp node event => exact ⟨links, owned_dsp h ht⟩

theorem owned_reaches {ok : Server → Event → Prop}
    (h : Transition.Reaches (step c) ok start s) : ∃ links, Owned s links := by
  refine h.invariant (P := fun s => ∃ links, Owned s links) ⟨[], owned_start⟩ ?_
  rintro s e t - ⟨links, hs⟩ - ht
  exact owned_step hs ht

theorem callback_frame (ht : s.step c .sdrCallback = some t) :
    ∃ queue, t = { s with queue, deviceBuffers := s.deviceBuffers + 1 } := by
  simp only [step] at ht
  split at ht
  · exact sdrCallback_frame ht
  · cases ht

structure AcceptorFrame (s t : Server) : Prop where
  nodes : s.nodes ≤ t.nodes
  running : ∀ node < s.nodes, t.running node = s.running node
  config : ∀ node < s.nodes, t.config node = s.config node
  connection : ∀ node < s.nodes, t.connection node = s.connection node
  worker : ∀ node, s.worker node ≠ .absent → t.worker node = s.worker node

theorem acceptorFrame_refl (s : Server) : AcceptorFrame s s :=
  ⟨Nat.le_refl _, fun _ _ => rfl, fun _ _ => rfl, fun _ _ => rfl, fun _ _ => rfl⟩

theorem acceptorFrame_newNode (s : Server) (connection : Nat) (config : ClientConfig) :
    AcceptorFrame s (s.newNode connection config) := by
  have hne : ∀ node < s.nodes, node ≠ s.nodes := fun node hn => Nat.ne_of_lt hn
  refine ⟨Nat.le_succ _, ?_, ?_, ?_, fun _ _ => rfl⟩
  · exact fun node hn => Function.update_of_ne (hne node hn) _ _
  · exact fun node hn => Function.update_of_ne (hne node hn) _ _
  · exact fun node hn => Function.update_of_ne (hne node hn) _ _

theorem acceptor_frame {e : AcceptorEvent} (h : Owned s links) (ht : AcceptorMove c s e t) :
    AcceptorFrame s t := by
  have hrefl := acceptorFrame_refl s
  cases ht with
  | @receive fd connection received t heq ht =>
    cases ht with
    | closes => exact { hrefl with }
    | answers => exact { hrefl with }
    | @serves counter config =>
      have hnew := acceptorFrame_newNode { s with clientCounter := counter } connection config
      exact { hnew with }
  | @createThread node heq =>
    have habsent : s.worker node = .absent :=
      (h.current node (by rw [heq]; rfl)).2.2.mpr (by rw [heq]; rfl)
    refine { hrefl with worker := ?_ }
    intro other ho
    have hne : other ≠ node := fun he => ho (he ▸ habsent)
    exact Function.update_of_ne hne _ _
  | lock heq hfree ht =>
    obtain ⟨links', -, hentered⟩ := owned_enterList h heq hfree ht
    cases hentered <;> exact { hrefl with }
  | _ => exact { hrefl with }

end Server
end SdrServer
