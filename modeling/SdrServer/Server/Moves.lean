import SdrServer.Server.Model

namespace SdrServer
namespace Server

variable {s t : Server} {c : ServerConfig}

def afterJoin (s : Server) : Server :=
  { s with
    shutdown := if s.shutdownThreadCreated then .absent else s.shutdown
    shutdownThreadCreated := false }

theorem afterJoin_uncreated (h : s.shutdownThreadCreated = false) : s.afterJoin = s := by
  cases s
  simp only at h
  subst h
  rfl

inductive Reception (c : ServerConfig) (s : Server) (fd connection : Nat) (received : Received) :
    Server → Prop
  | closes {counter} : Reception c s fd connection received
      { s with clientCounter := counter, acceptor := .closing fd .drop }
  | answers {counter status details} : Reception c s fd connection received
      { s with
        clientCounter := counter
        acceptor := .replying fd connection (writeMessage status details) .drop }
  | serves {counter config} (hserve : examine fd c received = .serve config) :
      Reception c s fd connection received
        (newNode { s with clientCounter := counter } connection config)

theorem receive_reception (fd connection : Nat) (received : Received) :
    Reception c s fd connection received (s.receive c fd connection received) := by
  cases hverdict : examine fd c received with
  | closeOnly =>
    cases received <;> simp only [receive, hverdict] <;> exact .closes
  | respond status details =>
    cases received <;> simp only [receive, hverdict] <;> exact .answers
  | serve config =>
    cases received <;> simp only [receive, hverdict] <;> exact .serves hverdict

inductive AcceptorMove (c : ServerConfig) (s : Server) : AcceptorEvent → Server → Prop
  | checkRunning (h : s.acceptor = .looping) : AcceptorMove c s .checkRunning
      { s with acceptor := if s.isRunning then .accepting else .lockingStop }
  | accept {fd} (h : s.acceptor = .accepting) : AcceptorMove c s (.accept fd)
      { s with acceptor := .reading fd s.accepted, accepted := s.accepted + 1 }
  | acceptFails (h : s.acceptor = .accepting) : AcceptorMove c s .acceptFails
      { s with acceptor := .lockingStop }
  | receive {fd connection received t} (h : s.acceptor = .reading fd connection)
      (ht : Reception c s fd connection received t) : AcceptorMove c s (.receive received) t
  | startDsp {node} (h : s.acceptor = .startingDsp node) : AcceptorMove c s (.startDsp true)
      { s.setDsp node .waiting with acceptor := .creatingThread node }
  | startDspFails {node} (h : s.acceptor = .startingDsp node) : AcceptorMove c s (.startDsp false)
      { s with
        acceptor := respondFailure (s.config node).clientSocket (s.connection node)
          responseDetailsInternalError (.destroy node) }
  | createThread {node} (h : s.acceptor = .creatingThread node) :
      AcceptorMove c s (.createThread true)
        { s.setWorker node .reading with acceptor := .locking node }
  | createThreadFails {node} (h : s.acceptor = .creatingThread node) :
      AcceptorMove c s (.createThread false)
        { s with
          acceptor := respondFailure (s.config node).clientSocket (s.connection node)
            responseDetailsInternalError (.destroy node) }
  | lock {node t} (h : s.acceptor = .locking node) (hfree : s.mutex = none)
      (ht : s.enterList node = some t) : AcceptorMove c s .lock t
  | wakeStopped {node} (h : s.acceptor = .waitingStopped node) (hfree : s.mutex = none)
      (hstopped : s.sdrStopped = true) : AcceptorMove c s .wakeStopped
        { s with mutex := some .acceptor, acceptor := .joiningShutdown node }
  | joinShutdown {node} (h : s.acceptor = .joiningShutdown node)
      (hdone : s.shutdownThreadCreated = true → s.shutdown = .done) :
      AcceptorMove c s .joinShutdown { s.afterJoin with acceptor := .startingSdr node }
  | startSdr {node} (h : s.acceptor = .startingSdr node) :
      AcceptorMove c s (.startSdr true) (s.deviceStarted node)
  | startSdrFails {node} (h : s.acceptor = .startingSdr node) : AcceptorMove c s (.startSdr false)
      { s with
        mutex := none
        acceptor := respondFailure (s.config node).clientSocket (s.connection node)
          responseDetailsInternalError (.abandon node) }
  | reply {fd connection left after n} (h : s.acceptor = .replying fd connection left after)
      (hn : 0 < n ∧ n ≤ left.length) : AcceptorMove c s (.reply n)
        { s with acceptor := .replying fd connection (left.drop n) after }
  | replyFails {fd connection left after} (h : s.acceptor = .replying fd connection left after) :
      AcceptorMove c s .replyFails { s with acceptor := afterReply fd after }
  | replied {fd connection after} (h : s.acceptor = .replying fd connection [] after) :
      AcceptorMove c s .replied { s with acceptor := afterReply fd after }
  | close {fd after} (h : s.acceptor = .closing fd after) :
      AcceptorMove c s .close { s with acceptor := afterClose after }
  | unlock {node} (h : s.acceptor = .unlocking node) :
      AcceptorMove c s .unlock { s with mutex := none, acceptor := .closingNode node }
  | closeNode {node} (h : s.acceptor = .closingNode node) :
      AcceptorMove c s .closeNode { s with acceptor := .cleaning node }
  | cleanup {node} (h : s.acceptor = .cleaning node) (hended : s.worker node = .ended) :
      AcceptorMove c s .cleanup
        { s with
          joined := Function.update s.joined node (s.joined node + 1)
          freed := Function.update s.freed node (s.freed node + 1)
          acceptor := .looping }
  | destroyNode {node} (h : s.acceptor = .destroying node) (hdsp : s.dsp node ≠ .uninitialised) :
      AcceptorMove c s .destroyNode
        { s with
          poisonPill := Function.update s.poisonPill node true
          acceptor := .joiningDsp node }
  | destroyEmpty {node} (h : s.acceptor = .destroying node) (hdsp : s.dsp node = .uninitialised) :
      AcceptorMove c s .destroyNode { s with acceptor := .looping }
  | joinDsp {node} (h : s.acceptor = .joiningDsp node) (hended : s.dsp node = .ended) :
      AcceptorMove c s .joinDsp { s.setDsp node .destroyed with acceptor := .looping }
  | lockStop (h : s.acceptor = .lockingStop) (hfree : s.mutex = none) :
      AcceptorMove c s .lockStop { s with mutex := some .acceptor, acceptor := .stopping }
  | stopRunning {node} (h : s.acceptor = .stopping) (hhead : s.tcpNodes = some node)
      (hrunning : s.running node = true) : AcceptorMove c s .stopNode
        { s with mutex := none, acceptor := .waitingTerminated node (s.next node) }
  | stopStopped {node} (h : s.acceptor = .stopping) (hhead : s.tcpNodes = some node)
      (hended : s.worker node = .ended) : AcceptorMove c s .stopNode
        { s with
          joined := Function.update s.joined node (s.joined node + 1)
          freed := Function.update s.freed node (s.freed node + 1)
          tcpNodes := s.next node }
  | stopLast (h : s.acceptor = .stopping) (hhead : s.tcpNodes = none)
      (hstopped : s.sdrStopped = true) :
      AcceptorMove c s .stopNode { s with acceptor := .joiningSdr }
  | stopWaits (h : s.acceptor = .stopping) (hhead : s.tcpNodes = none)
      (hstopped : s.sdrStopped = false) :
      AcceptorMove c s .stopNode { s with mutex := none, acceptor := .waitingSdr }
  | wakeTerminated {node next} (h : s.acceptor = .waitingTerminated node next)
      (hfree : s.mutex = none) (hended : s.worker node = .ended) :
      AcceptorMove c s .wakeTerminated
        { s with
          joined := Function.update s.joined node (s.joined node + 1)
          freed := Function.update s.freed node (s.freed node + 1)
          tcpNodes := next
          mutex := some .acceptor
          acceptor := .stopping }
  | wakeSdr (h : s.acceptor = .waitingSdr) (hfree : s.mutex = none)
      (hstopped : s.sdrStopped = true) :
      AcceptorMove c s .wakeSdr { s with mutex := some .acceptor, acceptor := .joiningSdr }
  | joinSdr (h : s.acceptor = .joiningSdr)
      (hdone : s.shutdownThreadCreated = true → s.shutdown = .done) :
      AcceptorMove c s .joinSdr { s.afterJoin with mutex := none, acceptor := .ended }

theorem finalCleanup_some {node : Nat} (ht : s.tcpNodeFinalCleanup node = some t) :
    s.worker node = .ended ∧ t = { s with
      joined := Function.update s.joined node (s.joined node + 1)
      freed := Function.update s.freed node (s.freed node + 1) } := by
  unfold tcpNodeFinalCleanup at ht
  split at ht
  · rename_i hended
    exact ⟨hended, (Option.some.inj ht).symm⟩
  · cases ht

theorem stopNode_move (h : s.acceptor = .stopping) (ht : s.acceptorStep c .stopNode = some t) :
    AcceptorMove c s .stopNode t := by
  simp only [acceptorStep, h, if_true] at ht
  split at ht
  · rename_i node hhead
    unfold stopHead at ht
    split at ht
    · rename_i hrunning
      obtain rfl := Option.some.inj ht
      exact .stopRunning h hhead hrunning
    · obtain ⟨r, hr, rfl⟩ := Option.map_eq_some_iff.mp ht
      obtain ⟨hended, rfl⟩ := finalCleanup_some hr
      exact .stopStopped h hhead hended
  · rename_i hhead
    split at ht
    · rename_i hstopped
      obtain rfl := Option.some.inj ht
      exact .stopLast h hhead hstopped
    · rename_i hstopped
      obtain rfl := Option.some.inj ht
      exact .stopWaits h hhead (Bool.not_eq_true _ ▸ hstopped)

theorem afterJoin_some (f : Server → Server)
    (ht : (if s.shutdownThreadCreated = false then some (f s)
      else if s.shutdown = .done then
        some (f { s with shutdown := .absent, shutdownThreadCreated := false })
      else none) = some t) :
    (s.shutdownThreadCreated = true → s.shutdown = .done) ∧ t = f s.afterJoin := by
  cases hflag : s.shutdownThreadCreated with
  | false =>
    rw [afterJoin_uncreated hflag]
    rw [if_pos hflag] at ht
    exact ⟨by simp, (Option.some.inj ht).symm⟩
  | true =>
    rw [if_neg (by simp [hflag])] at ht
    split at ht
    · rename_i hdone
      simp only [afterJoin, hflag, if_true]
      exact ⟨fun _ => hdone, (Option.some.inj ht).symm⟩
    · cases ht

theorem acceptorStep_move {e : AcceptorEvent} (ht : s.acceptorStep c e = some t) :
    AcceptorMove c s e t := by
  cases e with
  | stopNode =>
    by_cases h : s.acceptor = .stopping
    · exact stopNode_move h ht
    · simp [acceptorStep, h] at ht
  | startDsp started =>
    cases started <;> simp only [acceptorStep] at ht <;> split at ht
    · obtain rfl := Option.some.inj ht
      exact .startDspFails ‹_›
    · cases ht
    · obtain rfl := Option.some.inj ht
      exact .startDsp ‹_›
    · cases ht
  | createThread created =>
    cases created <;> simp only [acceptorStep] at ht <;> split at ht
    · obtain rfl := Option.some.inj ht
      exact .createThreadFails ‹_›
    · cases ht
    · obtain rfl := Option.some.inj ht
      exact .createThread ‹_›
    · cases ht
  | startSdr started =>
    cases started <;> simp only [acceptorStep] at ht <;> split at ht
    · obtain rfl := Option.some.inj ht
      exact .startSdrFails ‹_›
    · cases ht
    · obtain rfl := Option.some.inj ht
      exact .startSdr ‹_›
    · cases ht
  | joinShutdown =>
    simp only [acceptorStep] at ht
    split at ht
    · rename_i node heq
      obtain ⟨hdone, rfl⟩ := afterJoin_some (fun s => { s with acceptor := .startingSdr node }) ht
      exact .joinShutdown heq hdone
    · cases ht
  | joinSdr =>
    simp only [acceptorStep] at ht
    split at ht
    · obtain ⟨hdone, rfl⟩ :=
        afterJoin_some (fun s => { s with mutex := none, acceptor := .ended }) ht
      exact .joinSdr ‹_› hdone
    · cases ht
  | cleanup =>
    simp only [acceptorStep] at ht
    split at ht
    · obtain ⟨r, hr, rfl⟩ := Option.map_eq_some_iff.mp ht
      obtain ⟨hended, rfl⟩ := finalCleanup_some hr
      exact .cleanup ‹_› hended
    · cases ht
  | wakeTerminated =>
    simp only [acceptorStep] at ht
    split at ht
    · rename_i node next heq
      split at ht
      · rename_i hguard
        obtain ⟨r, hr, rfl⟩ := Option.map_eq_some_iff.mp ht
        obtain ⟨hended, rfl⟩ := finalCleanup_some hr
        exact .wakeTerminated heq hguard.1 hended
      · cases ht
    · cases ht
  | checkRunning =>
    simp only [acceptorStep] at ht
    split at ht
    · obtain rfl := Option.some.inj ht
      exact .checkRunning ‹_›
    · cases ht
  | accept fd =>
    simp only [acceptorStep] at ht
    split at ht
    · obtain rfl := Option.some.inj ht
      exact .accept ‹_›
    · cases ht
  | acceptFails =>
    simp only [acceptorStep] at ht
    split at ht
    · obtain rfl := Option.some.inj ht
      exact .acceptFails ‹_›
    · cases ht
  | receive received =>
    simp only [acceptorStep] at ht
    split at ht
    · obtain rfl := Option.some.inj ht
      exact .receive ‹_› (receive_reception ..)
    · cases ht
  | lock =>
    simp only [acceptorStep] at ht
    split at ht
    · rename_i node heq
      split at ht
      · exact .lock heq ‹_› ht
      · cases ht
    · cases ht
  | wakeStopped =>
    simp only [acceptorStep] at ht
    split at ht
    · rename_i node heq
      split at ht
      · rename_i hguard
        obtain rfl := Option.some.inj ht
        exact .wakeStopped heq hguard.1 hguard.2
      · cases ht
    · cases ht
  | reply n =>
    simp only [acceptorStep] at ht
    split at ht
    · rename_i fd connection left after heq
      split at ht
      · obtain rfl := Option.some.inj ht
        exact .reply heq ‹_›
      · cases ht
    · cases ht
  | replyFails =>
    simp only [acceptorStep] at ht
    split at ht
    · obtain rfl := Option.some.inj ht
      exact .replyFails ‹_›
    · cases ht
  | replied =>
    simp only [acceptorStep] at ht
    split at ht
    · obtain rfl := Option.some.inj ht
      exact .replied ‹_›
    · cases ht
  | close =>
    simp only [acceptorStep] at ht
    split at ht
    · obtain rfl := Option.some.inj ht
      exact .close ‹_›
    · cases ht
  | unlock =>
    simp only [acceptorStep] at ht
    split at ht
    · obtain rfl := Option.some.inj ht
      exact .unlock ‹_›
    · cases ht
  | closeNode =>
    simp only [acceptorStep] at ht
    split at ht
    · obtain rfl := Option.some.inj ht
      exact .closeNode ‹_›
    · cases ht
  | destroyNode =>
    simp only [acceptorStep] at ht
    split at ht
    · rename_i node heq
      split at ht
      · obtain rfl := Option.some.inj ht
        exact .destroyEmpty heq ‹_›
      · obtain rfl := Option.some.inj ht
        exact .destroyNode heq ‹_›
    · cases ht
  | joinDsp =>
    simp only [acceptorStep] at ht
    split at ht
    · rename_i node heq
      split at ht
      · obtain rfl := Option.some.inj ht
        exact .joinDsp heq ‹_›
      · cases ht
    · cases ht
  | lockStop =>
    simp only [acceptorStep] at ht
    split at ht
    · rename_i hguard
      obtain rfl := Option.some.inj ht
      exact .lockStop hguard.1 hguard.2
    · cases ht
  | wakeSdr =>
    simp only [acceptorStep] at ht
    split at ht
    · rename_i hguard
      obtain rfl := Option.some.inj ht
      exact .wakeSdr hguard.1 hguard.2.1 hguard.2.2
    · cases ht

inductive WorkerMove (s : Server) (node : Nat) : WorkerEvent → Server → Prop
  | leave (h : s.worker node = .reading) : WorkerMove s node .leave (s.setWorker node .stopping)
  | lock (h : s.worker node = .stopping) (hfree : s.mutex = none) : WorkerMove s node .lock
      { s.setWorker node .closing with
        mutex := some (.worker node)
        running := Function.update s.running node false }
  | close (h : s.worker node = .closing) : WorkerMove s node .close (s.setWorker node .scanning)
  | scan (h : s.worker node = .scanning)
      (hkept : s.someRunning s.nodes s.tcpNodes = true ∨ s.shutdownThreadCreated = true) :
      WorkerMove s node .scan (s.setWorker node .destroying)
  | scanLast (h : s.worker node = .scanning) (hnone : s.someRunning s.nodes s.tcpNodes = false)
      (hflag : s.shutdownThreadCreated = false) : WorkerMove s node .scan
      { s.setWorker node .destroying with shutdown := .stopping, shutdownThreadCreated := true }
  | destroyNode (h : s.worker node = .destroying) : WorkerMove s node .destroyNode
      { s.setWorker node .joining with poisonPill := Function.update s.poisonPill node true }
  | joinDsp (h : s.worker node = .joining) (hended : s.dsp node = .ended) :
      WorkerMove s node .joinDsp
        { (s.setWorker node .ended).setDsp node .destroyed with mutex := none }

theorem workerStep_move {node : Nat} {e : WorkerEvent} (ht : s.workerStep node e = some t) :
    WorkerMove s node e t := by
  cases e with
  | leave =>
    simp only [workerStep] at ht
    split at ht
    · obtain rfl := Option.some.inj ht
      exact .leave ‹_›
    · cases ht
  | lock =>
    simp only [workerStep] at ht
    split at ht
    · rename_i hguard
      obtain rfl := Option.some.inj ht
      exact .lock hguard.1 hguard.2
    · cases ht
  | close =>
    simp only [workerStep] at ht
    split at ht
    · obtain rfl := Option.some.inj ht
      exact .close ‹_›
    · cases ht
  | scan =>
    simp only [workerStep] at ht
    split at ht
    · rename_i heq
      split at ht
      · rename_i hlast
        obtain rfl := Option.some.inj ht
        simp only [Bool.and_eq_true, Bool.not_eq_true'] at hlast
        exact .scanLast heq hlast.1 hlast.2
      · rename_i hkept
        obtain rfl := Option.some.inj ht
        refine .scan heq ?_
        cases hrun : s.someRunning s.nodes s.tcpNodes with
        | true => exact Or.inl rfl
        | false => exact Or.inr (by simpa [hrun] using hkept)
    · cases ht
  | destroyNode =>
    simp only [workerStep] at ht
    split at ht
    · obtain rfl := Option.some.inj ht
      exact .destroyNode ‹_›
    · cases ht
  | joinDsp =>
    simp only [workerStep] at ht
    split at ht
    · rename_i hguard
      obtain rfl := Option.some.inj ht
      exact .joinDsp hguard.1 hguard.2
    · cases ht

inductive ShutdownMove (s : Server) : ShutdownEvent → Server → Prop
  | stopSdr (h : s.shutdown = .stopping) : ShutdownMove s .stopSdr
      { s with shutdown := .locking, device := none, deviceCalls := .stop :: s.deviceCalls }
  | lock (h : s.shutdown = .locking) (hfree : s.mutex = none) : ShutdownMove s .lock
      { s with shutdown := .done, sdrStopped := true }

theorem shutdownStep_move {e : ShutdownEvent} (ht : s.shutdownStep e = some t) :
    ShutdownMove s e t := by
  cases e with
  | stopSdr =>
    simp only [shutdownStep] at ht
    split at ht
    · obtain rfl := Option.some.inj ht
      exact .stopSdr ‹_›
    · cases ht
  | lock =>
    simp only [shutdownStep] at ht
    split at ht
    · rename_i hguard
      obtain rfl := Option.some.inj ht
      exact .lock hguard.1 hguard.2
    · cases ht

inductive DspMove (s : Server) (node : Nat) : DspThreadEvent → Server → Prop
  | take {outputLen queue} (h : s.dsp node = .waiting) (hqueue : (s.queue node).take = some queue) :
      DspMove s node (.take outputLen)
        { s.setDsp node (.writing outputLen) with queue := Function.update s.queue node queue }
  | write {n left} (h : s.dsp node = .writing left) (hn : 0 < n ∧ n ≤ left) :
      DspMove s node (.write n) (s.setDsp node (.writing (left - n)))
  | writeFails {left} (h : s.dsp node = .writing left) : DspMove s node .writeFails
      { s.setDsp node .failed with
        queue := Function.update s.queue node (s.queue node).complete }
  | complete (h : s.dsp node = .writing 0) : DspMove s node .complete
      { s.setDsp node .waiting with
        queue := Function.update s.queue node (s.queue node).complete }
  | close (h : s.dsp node = .failed) : DspMove s node .close (s.setDsp node .waiting)
  | finish (h : s.dsp node = .waiting) (hempty : (s.queue node).pending = [])
      (hpoison : s.poisonPill node = true) : DspMove s node .finish (s.setDsp node .ended)

theorem dspStep_move {node : Nat} {e : DspThreadEvent} (ht : s.dspStep node e = some t) :
    DspMove s node e t := by
  cases e with
  | take outputLen =>
    simp only [dspStep] at ht
    split at ht
    · obtain ⟨queue, hqueue, rfl⟩ := Option.map_eq_some_iff.mp ht
      exact .take ‹_› hqueue
    · cases ht
  | write n =>
    simp only [dspStep] at ht
    split at ht
    · rename_i left heq
      split at ht
      · obtain rfl := Option.some.inj ht
        exact .write heq ‹_›
      · cases ht
    · cases ht
  | writeFails =>
    simp only [dspStep] at ht
    split at ht
    · obtain rfl := Option.some.inj ht
      exact .writeFails ‹_›
    · cases ht
  | complete =>
    simp only [dspStep] at ht
    split at ht
    · obtain rfl := Option.some.inj ht
      exact .complete ‹_›
    · cases ht
  | close =>
    simp only [dspStep] at ht
    split at ht
    · obtain rfl := Option.some.inj ht
      exact .close ‹_›
    · cases ht
  | finish =>
    simp only [dspStep] at ht
    split at ht
    · rename_i hguard
      obtain rfl := Option.some.inj ht
      exact .finish hguard.1 hguard.2.1 hguard.2.2
    · cases ht

theorem dsp_frame {node : Nat} {e : DspThreadEvent} (ht : s.dspStep node e = some t) :
    ∃ dsp queue, t = { s with dsp, queue } := by
  cases dspStep_move ht <;> exact ⟨_, _, rfl⟩

end Server
end SdrServer
