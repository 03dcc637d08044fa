import SdrServer.Foundation.Transition
import Mathlib.Logic.Function.Basic
import Mathlib.Data.List.Basic

namespace SdrServer
namespace RtlTcp

def maxClients : Nat := 4

inductive CmdThread where
  | notCreated
  | receiving
  | disconnected
  | ended
  deriving DecidableEq, Repr

-- one entry for each client main has placed, in the order of placement
structure Client where
  slot : Nat
  sock : Nat
  thread : CmdThread
  sendFailed : Bool
  deriving DecidableEq, Repr

inductive MainPc where
  | accepting
  | accepted (csock : Nat)
  | placed (client : Nat)
  deriving DecidableEq, Repr

-- the callback inside its loop over the slots, with g_clients_mtx held
structure Broadcast where
  i : Nat
  nSamples : Nat
  sentTo : List Nat
  deriving DecidableEq, Repr

-- `sock i` is g_clients[i].sock and `clientFds i` is g_client_fds[i], `none` for -1
structure Slots where
  main : MainPc
  sock : Nat → Option Nat
  clientFds : Nat → Option Nat
  clients : List Client
  broadcast : Option Broadcast

inductive Sent where
  | bytes (r : Nat)
  | again
  | error
  | zero
  deriving DecidableEq, Repr

inductive SlotEvent where
  | accept (csock : Nat)
  | place (headerWritten : Bool)
  | createThread (created : Bool)
  | recvEnds (client : Nat)
  | exitThread (client : Nat)
  | lockClients (nSamples : Nat)
  | send (results : List Sent)
  | unlockClients
  deriving DecidableEq, Repr

-- the while loop around send(): `some true` keeps the slot, `some false` clears it, and `none`
-- is a list of results that the loop does not consume as it is
def sendLoop (nSamples : Nat) : Nat → List Sent → Option Bool
  | sent, [] => if sent < nSamples then none else some true
  | sent, result :: results =>
    if sent < nSamples then
      match result, results with
      | .bytes r, _ =>
        if 0 < r ∧ r ≤ nSamples - sent then sendLoop nSamples (sent + r) results else none
      | .again, [] => some true
      | .error, [] => some false
      | .zero, [] => some false
      | _, _ => none
    else none

namespace Client

def failSend (sock : Nat) (c : Client) : Client :=
  if c.thread ≠ .ended ∧ c.sock = sock then { c with sendFailed := true } else c

end Client

namespace Slots

def start : Slots where
  main := .accepting
  sock := fun _ => none
  clientFds := fun _ => none
  clients := []
  broadcast := none

def freeSlot (s : Slots) : Option Nat := (List.range maxClients).find? fun i => s.sock i = none

def fill (slot : Nat) (sock : Option Nat) (s : Slots) : Slots :=
  { s with
    sock := Function.update s.sock slot sock
    clientFds := Function.update s.clientFds slot sock }

def setThread (k : Nat) (thread : CmdThread) (s : Slots) : Slots :=
  { s with clients := s.clients.modify k fun c => { c with thread } }

def step (s : Slots) : SlotEvent → Option Slots
  | .accept csock =>
    match s.main with
    | .accepting =>
      -- accept() gives a descriptor that no client has open
      if s.clients.all fun c => c.thread = .ended ∨ c.sock ≠ csock then
        some { s with main := .accepted csock }
      else none
    | _ => none
  | .place headerWritten =>
    match s.main, s.broadcast with
    | .accepted csock, none =>
      match s.freeSlot with
      | none => some { s with main := .accepting }
      | some slot =>
        if headerWritten then some
          { s.fill slot (some csock) with
            clients := s.clients ++ [⟨slot, csock, .notCreated, false⟩]
            main := .placed s.clients.length }
        else some { s with main := .accepting }
    | _, _ => none
  | .createThread created =>
    match s.main with
    | .placed k =>
      let s := if created then s.setThread k .receiving else s
      some { s with main := .accepting }
    | _ => none
  | .recvEnds k =>
    match s.clients[k]? with
    | some c => if c.thread = .receiving then some (s.setThread k .disconnected) else none
    | none => none
  | .exitThread k =>
    match s.clients[k]?, s.broadcast with
    | some c, none =>
      if c.thread = .disconnected then some ((s.fill c.slot none).setThread k .ended) else none
    | _, _ => none
  | .lockClients nSamples =>
    match s.broadcast with
    | none => some { s with broadcast := some ⟨0, nSamples, []⟩ }
    | some _ => none
  | .send results =>
    match s.broadcast with
    | some b =>
      if b.i < maxClients then
        match s.sock b.i with
        | none =>
          if results = [] then some { s with broadcast := some { b with i := b.i + 1 } } else none
        | some sock =>
          (sendLoop b.nSamples 0 results).map fun kept =>
            let broadcast := some { b with i := b.i + 1, sentTo := b.sentTo ++ [sock] }
            if kept then { s with broadcast }
            else { s.fill b.i none with clients := s.clients.map (Client.failSend sock), broadcast }
      else none
    | none => none
  | .unlockClients =>
    match s.broadcast with
    | some b => if b.i = maxClients then some { s with broadcast := none } else none
    | none => none

-- what a step can do
inductive Acts (s : Slots) : SlotEvent → Slots → Prop
  | accept {csock : Nat} : s.main = .accepting →
    (∀ c ∈ s.clients, c.thread = .ended ∨ c.sock ≠ csock) →
    Acts s (.accept csock) { s with main := .accepted csock }
  | place {csock slot : Nat} : s.main = .accepted csock → s.broadcast = none →
    s.freeSlot = some slot →
    Acts s (.place true)
      { s.fill slot (some csock) with
        clients := s.clients ++ [⟨slot, csock, .notCreated, false⟩]
        main := .placed s.clients.length }
  | reject {headerWritten : Bool} : s.broadcast = none →
    Acts s (.place headerWritten) { s with main := .accepting }
  | createThread {k : Nat} : s.main = .placed k →
    Acts s (.createThread true) { s.setThread k .receiving with main := .accepting }
  | noThread {k : Nat} : s.main = .placed k →
    Acts s (.createThread false) { s with main := .accepting }
  | recvEnds {k : Nat} {c : Client} : s.clients[k]? = some c → c.thread = .receiving →
    Acts s (.recvEnds k) (s.setThread k .disconnected)
  | exitThread {k : Nat} {c : Client} : s.clients[k]? = some c → c.thread = .disconnected →
    s.broadcast = none → Acts s (.exitThread k) ((s.fill c.slot none).setThread k .ended)
  | lockClients {nSamples : Nat} : s.broadcast = none →
    Acts s (.lockClients nSamples) { s with broadcast := some ⟨0, nSamples, []⟩ }
  | skip {b : Broadcast} : s.broadcast = some b → s.sock b.i = none →
    Acts s (.send []) { s with broadcast := some { b with i := b.i + 1 } }
  | send {b : Broadcast} {sock : Nat} {results : List Sent} : s.broadcast = some b →
    s.sock b.i = some sock → sendLoop b.nSamples 0 results = some true →
    Acts s (.send results)
      { s with broadcast := some { b with i := b.i + 1, sentTo := b.sentTo ++ [sock] } }
  | sendFails {b : Broadcast} {sock : Nat} {results : List Sent} : s.broadcast = some b →
    s.sock b.i = some sock → sendLoop b.nSamples 0 results = some false →
    Acts s (.send results)
      { s.fill b.i none with
        clients := s.clients.map (Client.failSend sock)
        broadcast := some { b with i := b.i + 1, sentTo := b.sentTo ++ [sock] } }
  | unlockClients {b : Broadcast} : s.broadcast = some b → b.i = maxClients →
    Acts s .unlockClients { s with broadcast := none }

theorem step_acts {s t : Slots} {e : SlotEvent} (h : s.step e = some t) : Acts s e t := by
  cases e with
  | accept csock =>
    simp only [step] at h
    split at h
    · rename_i hmain
      split at h
      · rename_i hunused
        obtain rfl := Option.some.inj h
        exact .accept hmain fun c hc => of_decide_eq_true (List.all_eq_true.mp hunused c hc)
      · cases h
    · cases h
  | place headerWritten =>
    simp only [step] at h
    split at h
    · rename_i hmain hidle
      split at h
      · obtain rfl := Option.some.inj h
        exact .reject hidle
      · rename_i hslot
        cases headerWritten with
        | true =>
          obtain rfl := Option.some.inj h
          exact .place hmain hidle hslot
        | false =>
          obtain rfl := Option.some.inj h
          exact .reject hidle
    · cases h
  | createThread created =>
    simp only [step] at h
    split at h
    · rename_i hmain
      obtain rfl := Option.some.inj h
      cases created with
      | true => exact .createThread hmain
      | false => exact .noThread hmain
    · cases h
  | recvEnds k =>
    simp only [step] at h
    split at h
    · rename_i hk
      split at h
      · rename_i hthread
        obtain rfl := Option.some.inj h
        exact .recvEnds hk hthread
      · cases h
    · cases h
  | exitThread k =>
    simp only [step] at h
    split at h
    · rename_i hk hidle
      split at h
      · rename_i hthread
        obtain rfl := Option.some.inj h
        exact .exitThread hk hthread hidle
      · cases h
    · cases h
  | lockClients nSamples =>
    simp only [step] at h
    split at h
    · rename_i hidle
      obtain rfl := Option.some.inj h
      exact .lockClients hidle
    · cases h
  | send results =>
    simp only [step] at h
    split at h
    · rename_i hb
      split at h
      · split at h
        · rename_i hempty
          split at h
          · rename_i hnone
            obtain rfl := Option.some.inj h
            rw [hnone]
            exact .skip hb hempty
          · cases h
        · rename_i hsock
          obtain ⟨kept, hloop, rfl⟩ := Option.map_eq_some_iff.mp h
          cases kept with
          | true => exact .send hb hsock hloop
          | false => exact .sendFails hb hsock hloop
      · cases h
    · cases h
  | unlockClients =>
    simp only [step] at h
    split at h
    · rename_i hb
      split at h
      · rename_i hend
        obtain rfl := Option.some.inj h
        exact .unlockClients hb hend
      · cases h
    · cases h

end Slots

end RtlTcp
end SdrServer
