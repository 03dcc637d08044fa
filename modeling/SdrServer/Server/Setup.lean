import SdrServer.DspWorker.Divisors
import SdrServer.Foundation.Transition
import SdrServer.Server.Model

namespace SdrServer
namespace Setup

open DspWorker (Surroundings Halt Action Object Start Balanced dspWorkerStart served)

-- a field of a structure from malloc; the content `none` is NULL
inductive Field where
  | malloced (contents : Option Nat)
  | assigned (contents : Option Nat)
  deriving DecidableEq, Repr

structure TcpNode where
  config : ClientConfig
  dspWorker : Field
  deriving DecidableEq, Repr

inductive Effect where
  | dsp (action : Action)
  | writeMessage (fd : Nat) (status : UInt8) (details : UInt32)
  | close (fd : Nat)
  | readDspWorker (assigned : Bool)
  | destroyDspWorker (address : Nat)
  deriving DecidableEq, Repr

namespace Field

def isAssigned : Field → Bool
  | .malloced _ => false
  | .assigned _ => true

def contents : Field → Option Nat
  | .malloced contents => contents
  | .assigned contents => contents

end Field

namespace Effect

def action : Effect → Option Action
  | .dsp action => some action
  | _ => none

def message : Effect → Option (Nat × UInt8 × UInt32)
  | .writeMessage fd status details => some (fd, status, details)
  | _ => none

end Effect

def respondFailure (fd : Nat) (details : UInt32) : List Effect :=
  [.writeMessage fd responseStatusFailure details, .close fd]

def tcpNodeDestroy (node : TcpNode) : List Effect :=
  [.close node.config.clientSocket, .readDspWorker node.dspWorker.isAssigned] ++
    node.dspWorker.contents.toList.map .destroyDspWorker

noncomputable section

-- handle_new_client up to pthread_create; `memory` is the node malloc returns, by the content of
-- its field dsp_worker
def handleNewClient (env : Surroundings) (memory : Option (Option Nat)) (c : Config.ServerConfig)
    (s : Server) (clientSocket connection : Nat) (request : Option Request) :
    Except Halt (Server × List Effect) :=
  match readClientConfig clientSocket (served c) request with
  | none =>
    .ok ({ s with acceptor := .looping }, respondFailure clientSocket responseDetailsInvalidRequest)
  | some config =>
    if validateClientConfig config (served c) = false then
      .ok ({ s with acceptor := .looping },
        respondFailure clientSocket responseDetailsInvalidRequest)
    else
      match memory with
      | none =>
        .ok ({ s with acceptor := .looping },
          respondFailure clientSocket responseDetailsInternalError)
      | some contents => do
        let config := { config with id := s.clientCounter }
        let node := s.nodes
        let s := s.newNode connection config
        let (start, actions) ← dspWorkerStart env config c
        match start with
        | .failed _ =>
          .ok ({ s with acceptor := .looping },
            actions.map .dsp ++ (respondFailure clientSocket responseDetailsInternalError ++
              tcpNodeDestroy ⟨config, .malloced contents⟩))
        | .started _ _ =>
          .ok ({ s.setDsp node .waiting with acceptor := .creatingThread node }, actions.map .dsp)

end

structure Untouched (before after : Server) : Prop where
  tcpNodes : after.tcpNodes = before.tcpNodes
  currentBandFreq : after.currentBandFreq = before.currentBandFreq
  sdrStopped : after.sdrStopped = before.sdrStopped
  shutdownThreadCreated : after.shutdownThreadCreated = before.shutdownThreadCreated
  mutex : after.mutex = before.mutex
  device : after.device = before.device
  acceptor : after.acceptor = .looping
  config : ∀ node < before.nodes, after.config node = before.config node
  next : ∀ node < before.nodes, after.next node = before.next node
  running : ∀ node < before.nodes, after.running node = before.running node
  worker : after.worker = before.worker
  dsp : after.dsp = before.dsp
  queue : after.queue = before.queue
  poisonPill : after.poisonPill = before.poisonPill
  joined : after.joined = before.joined
  freed : after.freed = before.freed

structure Refused (fd : Nat) (before after : Server) (effects : List Effect) : Prop where
  answered : effects.filterMap Effect.message =
    [(fd, responseStatusFailure, responseDetailsInternalError)]
  untouched : Untouched before after

structure LeftAlone (fd : Nat) (before after : Server) (effects : List Effect) : Prop
    extends Refused fd before after effects where
  assigned : .readDspWorker false ∉ effects
  own : ∀ o, effects.count (.dsp (.destroy o)) ≤ effects.count (.dsp (.create o))
  ownWorker : ∀ address, .destroyDspWorker address ∉ effects
  once : ∀ o, effects.count (.dsp (.destroy o)) ≤ 1
  closedOnce : effects.count (.close fd) ≤ 1

theorem untouched_newNode (s : Server) (connection : Nat) (config : ClientConfig) :
    Untouched s { s.newNode connection config with acceptor := .looping } where
  tcpNodes := rfl
  currentBandFreq := rfl
  sdrStopped := rfl
  shutdownThreadCreated := rfl
  mutex := rfl
  device := rfl
  acceptor := rfl
  config := fun _ hnode => Function.update_of_ne (Nat.ne_of_lt hnode) _ _
  next := fun _ hnode => Function.update_of_ne (Nat.ne_of_lt hnode) _ _
  running := fun _ hnode => Function.update_of_ne (Nat.ne_of_lt hnode) _ _
  worker := rfl
  dsp := rfl
  queue := rfl
  poisonPill := rfl
  joined := rfl
  freed := rfl

theorem action_map_dsp (actions : List Action) :
    (actions.map Effect.dsp).filterMap Effect.action = actions := by
  rw [List.filterMap_map]
  exact List.filterMap_some

theorem message_map_dsp (actions : List Action) :
    (actions.map Effect.dsp).filterMap Effect.message = [] := by
  rw [List.filterMap_map]
  exact List.filterMap_eq_nil_iff.mpr fun _ _ => rfl

theorem close_map_dsp (actions : List Action) (fd : Nat) :
    (actions.map Effect.dsp).count (.close fd) = 0 := by
  apply List.count_eq_zero_of_not_mem
  simp

theorem tcpNodeDestroy_message (node : TcpNode) :
    (tcpNodeDestroy node).filterMap Effect.message = [] := by
  rw [tcpNodeDestroy]
  cases node.dspWorker.contents <;> rfl

theorem tcpNodeDestroy_action (node : TcpNode) :
    (tcpNodeDestroy node).filterMap Effect.action = [] := by
  rw [tcpNodeDestroy]
  cases node.dspWorker.contents <;> rfl

theorem tcpNodeDestroy_close {node : TcpNode} {fd : Nat} (h : node.config.clientSocket = fd) :
    (tcpNodeDestroy node).count (.close fd) = 1 := by
  rw [tcpNodeDestroy, h]
  cases node.dspWorker.contents <;> simp

section Failed

variable {env : Surroundings} {c : Config.ServerConfig} {s : Server}
  {clientSocket connection : Nat} {request : Option Request} {config : ClientConfig} {code : Int}
  {actions : List Action}

theorem handleNewClient_failed (contents : Option Nat)
    (hread : readClientConfig clientSocket (served c) request = some config)
    (hvalid : validateClientConfig config (served c) = true)
    (hstart : dspWorkerStart env { config with id := s.clientCounter } c =
      .ok (.failed code, actions)) :
    handleNewClient env (some contents) c s clientSocket connection request =
      .ok ({ s.newNode connection { config with id := s.clientCounter } with acceptor := .looping },
        actions.map .dsp ++ (respondFailure clientSocket responseDetailsInternalError ++
          tcpNodeDestroy ⟨{ config with id := s.clientCounter }, .malloced contents⟩)) := by
  unfold handleNewClient
  simp only [hread, hvalid, hstart]
  rfl

-- the same path in the steps of the acceptor, on a field whose content is NULL
theorem acceptor_failed (hread : readClientConfig clientSocket (served c) request = some config)
    (hvalid : validateClientConfig config (served c) = true)
    (hstart : dspWorkerStart env { config with id := s.clientCounter } c =
      .ok (.failed code, actions)) (hdsp : s.dsp s.nodes = .uninitialised) :
    ∃ t effects,
      handleNewClient env (some none) c s clientSocket connection request = .ok (t, effects) ∧
        Transition.run (Server.acceptorStep (served c))
            (s.newNode connection { config with id := s.clientCounter })
            [.startDsp false, .reply 7, .replied, .close, .destroyNode] = some t := by
  refine ⟨_, _, handleNewClient_failed none hread hvalid hstart, ?_⟩
  simp [Transition.run, Server.acceptorStep, Server.newNode, Server.respondFailure,
    Server.afterReply, Server.afterClose, writeMessage, bigEndian, hdsp]

-- whatever the other threads do in between
inductive Failing (node : Nat) : Acceptor → AcceptorEvent → Prop
  | startDsp : Failing node (.startingDsp node) (.startDsp false)
  | reply {fd connection : Nat} {left : List UInt8} (n : Nat) :
    Failing node (.replying fd connection left (.destroy node)) (.reply n)
  | replyFails {fd connection : Nat} {left : List UInt8} :
    Failing node (.replying fd connection left (.destroy node)) .replyFails
  | replied {fd connection : Nat} {left : List UInt8} :
    Failing node (.replying fd connection left (.destroy node)) .replied
  | close {fd : Nat} : Failing node (.closing fd (.destroy node)) .close
  | destroyNode : Failing node (.destroying node) .destroyNode

theorem acceptorStep_failing {d : ServerConfig} {t : Server} {node : Nat} {event : AcceptorEvent}
    (hfailing : Failing node s.acceptor event) (hdsp : s.dsp node = .uninitialised)
    (h : s.acceptorStep d event = some t) : t = { s with acceptor := t.acceptor } := by
  generalize hacceptor : s.acceptor = acceptor at hfailing
  cases hfailing with
  | startDsp =>
    simp only [Server.acceptorStep, hacceptor] at h
    cases h
    rfl
  | reply n =>
    simp only [Server.acceptorStep, hacceptor] at h
    split at h
    · cases h
      rfl
    · cases h
  | replyFails =>
    simp only [Server.acceptorStep, hacceptor] at h
    cases h
    rfl
  | @replied fd connection left =>
    simp only [Server.acceptorStep, hacceptor] at h
    cases left with
    | nil =>
      cases h
      rfl
    | cons byte rest => cases h
  | close =>
    simp only [Server.acceptorStep, hacceptor] at h
    cases h
    rfl
  | destroyNode =>
    simp only [Server.acceptorStep, hacceptor, if_pos hdsp] at h
    cases h
    rfl

theorem failed_setup (contents : Option Nat)
    (hread : readClientConfig clientSocket (served c) request = some config)
    (hvalid : validateClientConfig config (served c) = true)
    (hstart : dspWorkerStart env { config with id := s.clientCounter } c =
      .ok (.failed code, actions)) :
    ∃ t effects,
      handleNewClient env (some contents) c s clientSocket connection request = .ok (t, effects) ∧
        ¬ LeftAlone clientSocket s t effects ∧ .readDspWorker false ∈ effects ∧
        effects.count (.close clientSocket) = 2 ∧ Refused clientSocket s t effects ∧
        Balanced (effects.filterMap Effect.action) := by
  have hsocket := readClientConfig_socket hread
  refine ⟨_, _, handleNewClient_failed contents hread hvalid hstart, ?_⟩
  have hunassigned : .readDspWorker false ∈
      actions.map Effect.dsp ++ (respondFailure clientSocket responseDetailsInternalError ++
        tcpNodeDestroy ⟨{ config with id := s.clientCounter }, .malloced contents⟩) := by
    simp [tcpNodeDestroy, Field.isAssigned]
  refine ⟨fun hleft => hleft.assigned hunassigned, hunassigned, ?_, ⟨?_, ?_⟩, ?_⟩
  · rw [List.count_append, List.count_append, close_map_dsp, tcpNodeDestroy_close hsocket]
    simp [respondFailure]
  · rw [List.filterMap_append, List.filterMap_append, message_map_dsp, tcpNodeDestroy_message]
    rfl
  · exact untouched_newNode s connection _
  · rw [List.filterMap_append, List.filterMap_append, action_map_dsp, tcpNodeDestroy_action,
      List.append_nil]
    exact (List.append_nil actions).symm ▸ (DspWorker.dspWorkerStart_failed hstart).2

end Failed

def slowRequest : Request := ⟨438000000, 1, 438000000, 0⟩

def slowClient : ClientConfig := ⟨438000000, 1, 438000000, 0, 7, 0⟩

-- half of one sample a second is no cutoff frequency
theorem dspWorkerStart_slow {c : Config.ServerConfig} (hband : c.bandSamplingRate = 2400000)
    (hcutoff : c.lpfCutoffRate = 5) (id : UInt32) :
    dspWorkerStart DspWorker.wellSupplied { slowClient with id } c =
      .ok (.failed (-1), [.create .worker, .destroy .worker]) := by
  have hwidth : DspWorker.divide 1 (Int32.toUInt32 5) = .ok 0 := by decide
  have hlow : Lpf.createLowPassFilter (true, true) 1 2400000 (1 / 2) 0 =
      some (.error (.message ("cutoff frequency should be positive and less than " ++
        "sampling freq / 2. got: 0"))) := rfl
  simp only [dspWorkerStart, hband, hcutoff, slowClient, DspWorker.wellSupplied, hwidth, bind,
    Except.bind, hlow]
  rfl

theorem slow_accepted : ∃ c,
    Config.createServerConfig none (.ok (DspWorker.cutoffOf 5)) = .ok c ∧
      readClientConfig 7 (served c) (some slowRequest) = some slowClient ∧
      validateClientConfig slowClient (served c) = true ∧
      ∀ id, dspWorkerStart DspWorker.wellSupplied { slowClient with id } c =
        .ok (.failed (-1), [.create .worker, .destroy .worker]) := by
  obtain ⟨c, haccepted, hband, hcutoff, hserved⟩ : ∃ c,
      Config.createServerConfig none (.ok (DspWorker.cutoffOf 5)) = .ok c ∧
        c.bandSamplingRate = 2400000 ∧ c.lpfCutoffRate = 5 ∧ served c = ⟨2400000, 64⟩ :=
    ⟨_, rfl, rfl, rfl, rfl⟩
  refine ⟨c, haccepted, ?_, ?_, dspWorkerStart_slow hband hcutoff⟩
  · rw [hserved]
    decide
  · rw [hserved]
    decide

theorem failed_setup_slow : ∃ c, Config.createServerConfig none (.ok (DspWorker.cutoffOf 5)) = .ok c ∧
    ∃ t effects,
      handleNewClient DspWorker.wellSupplied (some none) c Server.start 7 0 (some slowRequest) =
          .ok (t, effects) ∧
        ¬ LeftAlone 7 Server.start t effects := by
  obtain ⟨c, haccepted, hread, hvalid, hstart⟩ := slow_accepted
  obtain ⟨t, effects, hhandled, hleft, -⟩ := failed_setup none hread hvalid (hstart _)
  exact ⟨c, haccepted, t, effects, hhandled, hleft⟩

theorem garbage_worker_destroyed : ∃ c,
    Config.createServerConfig none (.ok (DspWorker.cutoffOf 5)) = .ok c ∧
      ∃ t effects,
        handleNewClient DspWorker.wellSupplied (some (some 48)) c Server.start 7 0
            (some slowRequest) = .ok (t, effects) ∧
          effects = [.dsp (.create .worker), .dsp (.destroy .worker), .writeMessage 7 1 3, .close 7,
            .close 7, .readDspWorker false, .destroyDspWorker 48] ∧
          ¬ LeftAlone 7 Server.start t effects := by
  obtain ⟨c, haccepted, hread, hvalid, hstart⟩ := slow_accepted
  refine ⟨c, haccepted, _, _, handleNewClient_failed (some 48) hread hvalid (hstart _), rfl, ?_⟩
  intro hleft
  exact hleft.ownWorker 48 (by decide)

end Setup
end SdrServer
