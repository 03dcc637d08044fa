import SdrServer.Foundation.Fifo
import SdrServer.Server.Request
import Mathlib.Logic.Function.Basic

namespace SdrServer

-- what handle_new_client still does with the socket and the node once a reply is written
inductive After where
  | keep
  | drop
  | destroy (node : Nat)
  | reject (node : Nat)
  | abandon (node : Nat)
  deriving DecidableEq, Repr

inductive Acceptor where
  | looping
  | accepting
  | reading (fd connection : Nat)
  | startingDsp (node : Nat)
  | creatingThread (node : Nat)
  | locking (node : Nat)
  | waitingStopped (node : Nat)
  | joiningShutdown (node : Nat)
  | startingSdr (node : Nat)
  | replying (fd connection : Nat) (left : List UInt8) (after : After)
  | closing (fd : Nat) (after : After)
  | unlocking (node : Nat)
  | closingNode (node : Nat)
  | cleaning (node : Nat)
  | destroying (node : Nat)
  | joiningDsp (node : Nat)
  | lockingStop
  | stopping
  | waitingTerminated (node : Nat) (next : Option Nat)
  | waitingSdr
  | joiningSdr
  | ended
  deriving DecidableEq, Repr

inductive Worker where
  | absent
  | reading
  | stopping
  | closing
  | scanning
  | destroying
  | joining
  | ended
  deriving DecidableEq, Repr

inductive Shutdown where
  | absent
  | stopping
  | locking
  | done
  deriving DecidableEq, Repr

inductive Dsp where
  | uninitialised
  | waiting
  | writing (left : Nat)
  | failed
  | ended
  | destroyed
  deriving DecidableEq, Repr

inductive Thread where
  | acceptor
  | worker (node : Nat)
  deriving DecidableEq, Repr

inductive DeviceCall where
  | start
  | stop
  deriving DecidableEq, Repr

structure Server where
  isRunning : Bool
  clientCounter : UInt32
  currentBandFreq : UInt32
  tcpNodes : Option Nat
  mutex : Option Thread
  sdrStopped : Bool
  shutdownThreadCreated : Bool
  -- the nodes malloc has handed out are those below `nodes`
  nodes : Nat
  next : Nat → Option Nat
  config : Nat → ClientConfig
  connection : Nat → Nat
  running : Nat → Bool
  worker : Nat → Worker
  joined : Nat → Nat
  freed : Nat → Nat
  dsp : Nat → Dsp
  poisonPill : Nat → Bool
  queue : Nat → Fifo Nat
  acceptor : Acceptor
  shutdown : Shutdown
  -- the band_freq of the last successful sdr_device_start that is not stopped yet
  device : Option UInt32
  deviceCalls : List DeviceCall
  deviceBuffers : Nat
  accepted : Nat

inductive AcceptorEvent where
  | checkRunning
  | accept (fd : Nat)
  | acceptFails
  | receive (received : Received)
  | startDsp (started : Bool)
  | createThread (created : Bool)
  | lock
  | wakeStopped
  | joinShutdown
  | startSdr (started : Bool)
  | reply (n : Nat)
  | replyFails
  | replied
  | close
  | unlock
  | closeNode
  | cleanup
  | destroyNode
  | joinDsp
  | lockStop
  | stopNode
  | wakeTerminated
  | wakeSdr
  | joinSdr
  deriving DecidableEq, Repr

inductive WorkerEvent where
  | leave
  | lock
  | close
  | scan
  | destroyNode
  | joinDsp
  deriving DecidableEq, Repr

inductive ShutdownEvent where
  | stopSdr
  | lock
  deriving DecidableEq, Repr

inductive DspThreadEvent where
  | take (outputLen : Nat)
  | write (n : Nat)
  | writeFails
  | complete
  | close
  | finish
  deriving DecidableEq, Repr

inductive Event where
  | stopTcpServer
  | sdrCallback
  | acceptor (event : AcceptorEvent)
  | worker (node : Nat) (event : WorkerEvent)
  | shutdown (event : ShutdownEvent)
  | dsp (node : Nat) (event : DspThreadEvent)
  deriving DecidableEq, Repr

namespace Server

def start : Server where
  isRunning := true
  clientCounter := -1
  currentBandFreq := 0
  tcpNodes := none
  mutex := none
  sdrStopped := true
  shutdownThreadCreated := false
  nodes := 0
  next := fun _ => none
  config := fun _ => ⟨0, 0, 0, 0, 0, 0⟩
  connection := fun _ => 0
  running := fun _ => false
  worker := fun _ => .absent
  joined := fun _ => 0
  freed := fun _ => 0
  dsp := fun _ => .uninitialised
  poisonPill := fun _ => false
  queue := fun _ => ⟨[], none⟩
  acceptor := .looping
  shutdown := .absent
  device := none
  deviceCalls := []
  deviceBuffers := 0
  accepted := 0

def respondSuccess (fd connection : Nat) (id : UInt32) (after : After) : Acceptor :=
  .replying fd connection (writeMessage responseStatusSuccess id) after

def respondFailure (fd connection : Nat) (details : UInt32) (after : After) : Acceptor :=
  .replying fd connection (writeMessage responseStatusFailure details) after

def setWorker (s : Server) (node : Nat) (worker : Worker) : Server :=
  { s with worker := Function.update s.worker node worker }

def setDsp (s : Server) (node : Nat) (dsp : Dsp) : Server :=
  { s with dsp := Function.update s.dsp node dsp }

-- pthread_join waits for the end of the thread: `none` while it runs
def tcpNodeFinalCleanup (s : Server) (node : Nat) : Option Server :=
  if s.worker node = .ended then
    some { s with
      joined := Function.update s.joined node (s.joined node + 1)
      freed := Function.update s.freed node (s.freed node + 1) }
  else none

def unlinkAfter (s : Server) (previous next : Option Nat) : Server :=
  match previous with
  | none => { s with tcpNodes := next }
  | some node => { s with next := Function.update s.next node next }

def cleanupLoop : Nat → Option Nat → Option Nat → Server → Option Server
  | _, none, _, s => some s
  | 0, some _, _, _ => none
  | fuel + 1, some node, previous, s =>
    let next := s.next node
    if s.running node then cleanupLoop fuel next (some node) s
    else ((s.unlinkAfter previous next).tcpNodeFinalCleanup node).bind
      (cleanupLoop fuel next previous)

def cleanupTerminatedThreads (s : Server) : Option Server :=
  cleanupLoop s.nodes s.tcpNodes none s

def lastNode (next : Nat → Option Nat) : Nat → Nat → Nat
  | 0, node => node
  | fuel + 1, node =>
    match next node with
    | none => node
    | some following => lastNode next fuel following

def someRunning (s : Server) : Nat → Option Nat → Bool
  | fuel + 1, some node => if s.running node then true else someRunning s fuel (s.next node)
  | _, _ => false

def newNode (s : Server) (connection : Nat) (config : ClientConfig) : Server :=
  { s with
    nodes := s.nodes + 1
    next := Function.update s.next s.nodes none
    config := Function.update s.config s.nodes { config with id := s.clientCounter }
    connection := Function.update s.connection s.nodes connection
    running := Function.update s.running s.nodes true
    acceptor := .startingDsp s.nodes }

-- handle_new_client from pthread_mutex_lock to its first wait, unlock or reply
def enterList (s : Server) (node : Nat) : Option Server :=
  s.cleanupTerminatedThreads.map fun s =>
    let config := s.config node
    match s.tcpNodes with
    | none =>
      let s := { s with currentBandFreq := config.bandFreq }
      if s.sdrStopped then { s with mutex := some .acceptor, acceptor := .joiningShutdown node }
      else { s with acceptor := .waitingStopped node }
    | some head =>
      if s.currentBandFreq ≠ 0 ∧ s.currentBandFreq ≠ config.bandFreq then
        { s with
          mutex := some .acceptor
          acceptor := respondFailure config.clientSocket (s.connection node)
            responseDetailsOutOfBandFreq (.reject node) }
      else
        { s with
          next := Function.update s.next (lastNode s.next s.nodes head) (some node)
          acceptor := respondSuccess config.clientSocket (s.connection node) config.id .keep }

def deviceStarted (s : Server) (node : Nat) : Server :=
  { s with
    device := some (s.config node).bandFreq
    deviceCalls := .start :: s.deviceCalls
    tcpNodes := some node
    sdrStopped := false
    mutex := none
    acceptor := respondSuccess (s.config node).clientSocket (s.connection node)
      (s.config node).id .keep }

def afterReply (fd : Nat) : After → Acceptor
  | .keep => .looping
  | after => .closing fd after

def afterClose : After → Acceptor
  | .keep => .looping
  | .drop => .looping
  | .destroy node => .destroying node
  | .reject node => .unlocking node
  | .abandon node => .closingNode node

def receive (c : ServerConfig) (s : Server) (fd connection : Nat) (received : Received) : Server :=
  let s := match received with
    | .unconfigured => s
    | _ => { s with clientCounter := s.clientCounter + 1 }
  match examine fd c received with
  | .closeOnly => { s with acceptor := .closing fd .drop }
  | .respond status details =>
    { s with acceptor := .replying fd connection (writeMessage status details) .drop }
  | .serve config => s.newNode connection config

def stopHead (s : Server) (node : Nat) : Option Server :=
  if s.running node then
    some { s with mutex := none, acceptor := .waitingTerminated node (s.next node) }
  else (s.tcpNodeFinalCleanup node).map fun t => { t with tcpNodes := s.next node }

def acceptorStep (c : ServerConfig) (s : Server) : AcceptorEvent → Option Server
  | .checkRunning =>
    if s.acceptor = .looping then
      some { s with acceptor := if s.isRunning then .accepting else .lockingStop }
    else none
  | .accept fd =>
    if s.acceptor = .accepting then
      some { s with acceptor := .reading fd s.accepted, accepted := s.accepted + 1 }
    else none
  | .acceptFails =>
    if s.acceptor = .accepting then some { s with acceptor := .lockingStop } else none
  | .receive received =>
    match s.acceptor with
    | .reading fd connection => some (s.receive c fd connection received)
    | _ => none
  | .startDsp started =>
    match s.acceptor with
    | .startingDsp node =>
      if started then some { s.setDsp node .waiting with acceptor := .creatingThread node }
      else some { s with
        acceptor := respondFailure (s.config node).clientSocket (s.connection node)
          responseDetailsInternalError (.destroy node) }
    | _ => none
  | .createThread created =>
    match s.acceptor with
    | .creatingThread node =>
      if created then some { s.setWorker node .reading with acceptor := .locking node }
      else some { s with
        acceptor := respondFailure (s.config node).clientSocket (s.connection node)
          responseDetailsInternalError (.destroy node) }
    | _ => none
  | .lock =>
    match s.acceptor with
    | .locking node => if s.mutex = none then s.enterList node else none
    | _ => none
  | .wakeStopped =>
    match s.acceptor with
    | .waitingStopped node =>
      if s.mutex = none ∧ s.sdrStopped = true then
        some { s with mutex := some .acceptor, acceptor := .joiningShutdown node }
      else none
    | _ => none
  | .joinShutdown =>
    match s.acceptor with
    | .joiningShutdown node =>
      if s.shutdownThreadCreated = false then some { s with acceptor := .startingSdr node }
      else if s.shutdown = .done then
        some { s with
          shutdown := .absent
          shutdownThreadCreated := false
          acceptor := .startingSdr node }
      else none
    | _ => none
  | .startSdr started =>
    match s.acceptor with
    | .startingSdr node =>
      if started then some (s.deviceStarted node)
      else some { s with
        mutex := none
        acceptor := respondFailure (s.config node).clientSocket (s.connection node)
          responseDetailsInternalError (.abandon node) }
    | _ => none
  | .reply n =>
    match s.acceptor with
    | .replying fd connection left after =>
      if 0 < n ∧ n ≤ left.length then
        some { s with acceptor := .replying fd connection (left.drop n) after }
      else none
    | _ => none
  | .replyFails =>
    match s.acceptor with
    | .replying fd _ _ after => some { s with acceptor := afterReply fd after }
    | _ => none
  | .replied =>
    match s.acceptor with
    | .replying fd _ [] after => some { s with acceptor := afterReply fd after }
    | _ => none
  | .close =>
    match s.acceptor with
    | .closing _ after => some { s with acceptor := afterClose after }
    | _ => none
  | .unlock =>
    match s.acceptor with
    | .unlocking node => some { s with mutex := none, acceptor := .closingNode node }
    | _ => none
  | .closeNode =>
    match s.acceptor with
    | .closingNode node => some { s with acceptor := .cleaning node }
    | _ => none
  | .cleanup =>
    match s.acceptor with
    | .cleaning node =>
      (s.tcpNodeFinalCleanup node).map fun s => { s with acceptor := .looping }
    | _ => none
  -- tcp_node_destroy; the field dsp_worker of a node whose dsp_worker_start failed is read
  -- uninitialised, and only the content NULL is followed here
  | .destroyNode =>
    match s.acceptor with
    | .destroying node =>
      if s.dsp node = .uninitialised then some { s with acceptor := .looping }
      else some { s with
        poisonPill := Function.update s.poisonPill node true
        acceptor := .joiningDsp node }
    | _ => none
  | .joinDsp =>
    match s.acceptor with
    | .joiningDsp node =>
      if s.dsp node = .ended then some { s.setDsp node .destroyed with acceptor := .looping }
      else none
    | _ => none
  | .lockStop =>
    if s.acceptor = .lockingStop ∧ s.mutex = none then
      some { s with mutex := some .acceptor, acceptor := .stopping }
    else none
  | .stopNode =>
    if s.acceptor = .stopping then
      match s.tcpNodes with
      | some node => s.stopHead node
      | none =>
        if s.sdrStopped then some { s with acceptor := .joiningSdr }
        else some { s with mutex := none, acceptor := .waitingSdr }
    else none
  | .wakeTerminated =>
    match s.acceptor with
    | .waitingTerminated node next =>
      if s.mutex = none ∧ s.running node = false then
        (s.tcpNodeFinalCleanup node).map fun s =>
          { s with tcpNodes := next, mutex := some .acceptor, acceptor := .stopping }
      else none
    | _ => none
  | .wakeSdr =>
    if s.acceptor = .waitingSdr ∧ s.mutex = none ∧ s.sdrStopped = true then
      some { s with mutex := some .acceptor, acceptor := .joiningSdr }
    else none
  | .joinSdr =>
    if s.acceptor = .joiningSdr then
      if s.shutdownThreadCreated = false then some { s with mutex := none, acceptor := .ended }
      else if s.shutdown = .done then
        some { s with
          shutdown := .absent
          shutdownThreadCreated := false
          mutex := none
          acceptor := .ended }
      else none
    else none

def workerStep (s : Server) (node : Nat) : WorkerEvent → Option Server
  -- the client disconnects, asks for it, or its socket fails
  | .leave => if s.worker node = .reading then some (s.setWorker node .stopping) else none
  | .lock =>
    if s.worker node = .stopping ∧ s.mutex = none then
      some { s.setWorker node .closing with
        mutex := some (.worker node)
        running := Function.update s.running node false }
    else none
  | .close => if s.worker node = .closing then some (s.setWorker node .scanning) else none
  | .scan =>
    if s.worker node = .scanning then
      let t := s.setWorker node .destroying
      if !s.someRunning s.nodes s.tcpNodes && !s.shutdownThreadCreated then
        some { t with shutdown := .stopping, shutdownThreadCreated := true }
      else some t
    else none
  | .destroyNode =>
    if s.worker node = .destroying then
      some { s.setWorker node .joining with
        poisonPill := Function.update s.poisonPill node true }
    else none
  | .joinDsp =>
    if s.worker node = .joining ∧ s.dsp node = .ended then
      some { (s.setWorker node .ended).setDsp node .destroyed with mutex := none }
    else none

def shutdownStep (s : Server) : ShutdownEvent → Option Server
  | .stopSdr =>
    if s.shutdown = .stopping then
      some { s with shutdown := .locking, device := none, deviceCalls := .stop :: s.deviceCalls }
    else none
  | .lock =>
    if s.shutdown = .locking ∧ s.mutex = none then
      some { s with shutdown := .done, sdrStopped := true }
    else none

-- `none` is a queue that dsp_worker_destroy has freed or a put without a node to fill
def dspWorkerProcess (c : ServerConfig) (s : Server) (node : Nat) : Option Server :=
  if s.dsp node = .destroyed ∨ s.dsp node = .uninitialised then none
  else ((s.queue node).put c.queueSize s.deviceBuffers).map fun queue =>
    { s with queue := Function.update s.queue node queue }

def callbackLoop (c : ServerConfig) : Nat → Option Nat → Server → Option Server
  | _, none, s => some s
  | 0, some _, _ => none
  | fuel + 1, some node, s =>
    if s.running node then (s.dspWorkerProcess c node).bind (callbackLoop c fuel (s.next node))
    else callbackLoop c fuel (s.next node) s

def sdrCallback (c : ServerConfig) (s : Server) : Option Server :=
  (callbackLoop c s.nodes s.tcpNodes s).map fun t => { t with deviceBuffers := s.deviceBuffers + 1 }

def dspStep (s : Server) (node : Nat) : DspThreadEvent → Option Server
  | .take outputLen =>
    if s.dsp node = .waiting then
      (s.queue node).take.map fun queue =>
        { s.setDsp node (.writing outputLen) with queue := Function.update s.queue node queue }
    else none
  | .write n =>
    match s.dsp node with
    | .writing left => if 0 < n ∧ n ≤ left then some (s.setDsp node (.writing (left - n))) else none
    | _ => none
  | .writeFails =>
    match s.dsp node with
    | .writing _ =>
      some { s.setDsp node .failed with
        queue := Function.update s.queue node (s.queue node).complete }
    | _ => none
  | .complete =>
    if s.dsp node = .writing 0 then
      some { s.setDsp node .waiting with
        queue := Function.update s.queue node (s.queue node).complete }
    else none
  | .close => if s.dsp node = .failed then some (s.setDsp node .waiting) else none
  | .finish =>
    if s.dsp node = .waiting ∧ (s.queue node).pending = [] ∧ s.poisonPill node = true then
      some (s.setDsp node .ended)
    else none

def step (c : ServerConfig) (s : Server) : Event → Option Server
  | .stopTcpServer => some { s with isRunning := false }
  | .sdrCallback => if s.mutex = none ∧ s.device ≠ none then s.sdrCallback c else none
  | .acceptor event => s.acceptorStep c event
  | .worker node event => s.workerStep node event
  | .shutdown event => s.shutdownStep event
  | .dsp node event => s.dspStep node event

end Server

end SdrServer
