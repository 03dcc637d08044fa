import SdrServer.Server.Shutdown

namespace SdrServer

inductive OutByte where
  | reply (byte : UInt8)
  | sample (node : Nat)
  deriving DecidableEq, Repr

structure Sockets where
  -- the connection an open descriptor refers to
  owner : Nat → Option Nat
  -- connections on which write fails from now on
  broken : Nat → Bool
  written : Nat → List OutByte
  -- the calls of write_message on a connection that returned 0
  replies : Nat → Nat
  -- the calls of close on a descriptor since accept last returned it
  closes : Nat → Nat
  issued : Nat → Nat
  -- on behalf of which connection which connection was closed
  hits : List (Nat × Nat)

structure System where
  server : Server
  sockets : Sockets

inductive SystemEvent where
  | server (event : Event)
  | hangUp (connection : Nat)
  deriving DecidableEq, Repr

namespace Sockets

def start : Sockets where
  owner := fun _ => none
  broken := fun _ => false
  written := fun _ => []
  replies := fun _ => 0
  closes := fun _ => 0
  issued := fun _ => 0
  hits := []

def accept (k : Sockets) (fd connection : Nat) : Option Sockets :=
  if k.owner fd = none then
    some { k with
      owner := Function.update k.owner fd (some connection)
      closes := Function.update k.closes fd 0 }
  else none

def write (k : Sockets) (fd : Nat) (bytes : List OutByte) : Option Sockets :=
  match k.owner fd with
  | none => none
  | some connection =>
    if k.broken connection then none
    else some { k with
      written := Function.update k.written connection (k.written connection ++ bytes) }

def writeFails (k : Sockets) (fd : Nat) : Option Sockets :=
  match k.owner fd with
  | none => some k
  | some connection => if k.broken connection then some k else none

def close (k : Sockets) (fd connection : Nat) : Sockets :=
  { k with
    owner := Function.update k.owner fd none
    closes := Function.update k.closes fd (k.closes fd + 1)
    issued := Function.update k.issued connection (k.issued connection + 1)
    hits := (k.owner fd).toList.map (connection, ·) ++ k.hits }

def hangUp (k : Sockets) (connection : Nat) : Sockets :=
  { k with broken := Function.update k.broken connection true }

def shutdown (k : Sockets) (fd : Nat) : Sockets :=
  match k.owner fd with
  | none => k
  | some connection => k.hangUp connection

def closeNode (k : Sockets) (s : Server) (node : Nat) : Sockets :=
  k.close (s.config node).clientSocket (s.connection node)

-- what the event of the server in state `s` does to the descriptors; the acceptor deals with
-- one connection at a time, so a close of its own is on behalf of the last one accepted
def acceptorStep (s : Server) (k : Sockets) : AcceptorEvent → Option Sockets
  | .accept fd => k.accept fd s.accepted
  | .reply n =>
    match s.acceptor with
    | .replying fd _ left _ => k.write fd ((left.take n).map .reply)
    | _ => none
  | .replyFails =>
    match s.acceptor with
    | .replying fd _ _ _ => k.writeFails fd
    | _ => none
  | .replied =>
    match s.acceptor with
    | .replying _ connection _ _ =>
      some { k with replies := Function.update k.replies connection (k.replies connection + 1) }
    | _ => none
  | .close =>
    match s.acceptor with
    | .closing fd _ => some (k.close fd (s.accepted - 1))
    | _ => none
  | .closeNode =>
    match s.acceptor with
    | .closingNode node => some (k.closeNode s node)
    | _ => none
  | .destroyNode =>
    match s.acceptor with
    | .destroying node => some (k.closeNode s node)
    | _ => none
  | .stopNode =>
    match s.tcpNodes with
    | some node => some (k.shutdown (s.config node).clientSocket)
    | none => some k
  | _ => some k

def workerStep (s : Server) (k : Sockets) (node : Nat) : WorkerEvent → Option Sockets
  | .close => some (k.closeNode s node)
  | .destroyNode => some (k.closeNode s node)
  | _ => some k

def dspStep (s : Server) (k : Sockets) (node : Nat) : DspThreadEvent → Option Sockets
  | .write n =>
    if (s.config node).destination = requestDestinationSocket then
      k.write (s.config node).clientSocket (List.replicate n (.sample node))
    else some k
  | .writeFails =>
    if (s.config node).destination = requestDestinationSocket then
      k.writeFails (s.config node).clientSocket
    else some k
  | .close => some (k.closeNode s node)
  | _ => some k

def step (s : Server) (k : Sockets) : Event → Option Sockets
  | .acceptor event => k.acceptorStep s event
  | .worker node event => k.workerStep s node event
  | .dsp node event => k.dspStep s node event
  | _ => some k

end Sockets

namespace System

def start : System := ⟨Server.start, Sockets.start⟩

def step (c : ServerConfig) (s : System) : SystemEvent → Option System
  | .server event =>
    (s.server.step c event).bind fun server =>
      (s.sockets.step s.server event).map fun sockets => ⟨server, sockets⟩
  | .hangUp connection => some { s with sockets := s.sockets.hangUp connection }

variable {s t : System} {c : ServerConfig}

theorem step_server {event : Event} (ht : s.step c (.server event) = some t) :
    s.server.step c event = some t.server ∧ s.sockets.step s.server event = some t.sockets := by
  obtain ⟨server, hserver, hrest⟩ := Option.bind_eq_some_iff.mp ht
  obtain ⟨sockets, hsockets, rfl⟩ := Option.map_eq_some_iff.mp hrest
  exact ⟨hserver, hsockets⟩

theorem reaches_server {ok : System → SystemEvent → Prop}
    (h : Transition.Reaches (step c) ok start s) :
    Transition.Reachable (Server.step c) Server.start s.server := by
  refine h.invariant (P := fun s => Transition.Reachable (Server.step c) Server.start s.server)
    .start ?_
  intro s e t _ hs _ ht
  cases e with
  | server event => exact hs.next trivial (step_server ht).1
  | hangUp connection =>
    obtain rfl := Option.some.inj ht
    exact hs

end System

end SdrServer
