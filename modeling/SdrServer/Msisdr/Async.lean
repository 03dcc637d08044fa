import SdrServer.Foundation.Transition
import SdrServer.Msisdr.Model

namespace SdrServer
namespace Msisdr

-- libusb_transfer_status
inductive TransferStatus where
  | completed | error | timedOut | cancelled | stall | noDevice | overflow
  deriving DecidableEq, Repr

-- the drain loop has seen enough of these
def TransferStatus.Drained (status : TransferStatus) : Prop :=
  status = .cancelled ∨ status = .noDevice ∨ status = .completed ∨ status = .error

instance (status : TransferStatus) : Decidable status.Drained :=
  inferInstanceAs (Decidable (_ ∨ _))

inductive TransferKind where
  | bulk | isoc
  deriving DecidableEq, Repr

-- a transfer and its buffer: what it completed with last, and whether libusb has it now
structure Urb where
  status : TransferStatus
  inFlight : Bool
  deriving DecidableEq, Repr

-- how far msisdr_read_async is: each of its waits is in libusb_handle_events_timeout
inductive Reader where
  | submitting (i : Nat)
  | fallingBack
  | waiting
  | cancelling (i : Nat) (semafor : Bool)
  | settling
  | abandoning (i : Nat)
  | draining (tries : Nat)
  | returned (r : Int)
  deriving DecidableEq, Repr

-- how far msisdr_stop_async or msisdr_start_async is, on the thread that changes the rate
inductive Control where
  | idle
  | stopping (i : Nat) (semafor : Bool)
  | stopWaiting
  | pausing
  | starting (i : Nat)
  | resuming
  deriving DecidableEq, Repr

inductive Handled where
  | ok | interrupted | failed
  deriving DecidableEq, Repr

-- what libusb does not provide for
inductive Misuse where
  | cancelledIdle (urb : Urb)
  | freedInFlight (urb : Urb)
  deriving DecidableEq, Repr

-- `xfer` is p->xfer, with `none` for a slot that is NULL; it is empty once it was freed
structure Async where
  status : AsyncStatus
  kind : TransferKind
  num : Nat
  xfer : List (Option Urb)
  reader : Reader
  control : Control
  misuses : List Misuse
  deriving DecidableEq, Repr

-- `submitted` is whether libusb_submit_transfer succeeds
inductive AsyncEvent where
  | submit (submitted : Bool)
  | handled (r : Handled)
  | read
  | completed (i : Nat) (status : TransferStatus) (submitted : Bool)
  | cancel
  | giveUp
  | stop
  | start
  | stopHandled (r : Handled)
  | resubmit (submitted : Bool)
  | control
  deriving DecidableEq, Repr

namespace Async

def asyncAlloc (num : Nat) : List (Option Urb) := List.replicate num (some ⟨.completed, false⟩)

-- msisdr_read_async of an inactive device, once the interface is set
def start (kind : TransferKind) (num : Nat) : Async where
  status := .inactive
  kind := kind
  num := num
  xfer := asyncAlloc num
  reader := .submitting 0
  control := .idle
  misuses := []

def put (s : Async) (i : Nat) (slot : Option Urb) : Async := { s with xfer := s.xfer.set i slot }

def fail (s : Async) : Async := if s.status = .running then { s with status := .failed } else s

-- _libusb_callback of the transfer in slot `i`
def libusbCallback (s : Async) (i : Nat) (status : TransferStatus) (submitted : Bool) : Async :=
  match status with
  | .cancelled => s.put i (some ⟨.cancelled, false⟩)
  | .noDevice => (s.put i none).fail
  | .overflow => s.put i (if submitted then some ⟨.overflow, true⟩ else none)
  | status => if submitted then s.put i (some ⟨status, true⟩) else (s.put i none).fail

def cancelTransfer (s : Async) (urb : Urb) : Async :=
  if urb.inFlight then s else { s with misuses := .cancelledIdle urb :: s.misuses }

def inFlight (slots : List (Option Urb)) : List Urb := slots.reduceOption.filter Urb.inFlight

def asyncFree (s : Async) : Async :=
  { s with xfer := [], misuses := (inFlight s.xfer).map .freedInFlight ++ s.misuses }

-- one slot of the loops that cancel what was not cancelled, and whether there was nothing to do;
-- there is no telling what they do to an array that is gone
def visit (s : Async) (i : Nat) : Option (Async × Bool) :=
  match s.xfer[i]? with
  | none => none
  | some none => some (s, true)
  | some (some urb) =>
    if urb.status = .cancelled then some (s, true) else some (s.cancelTransfer urb, false)

-- the label failed_free
def abandon (s : Async) : Async := { s with status := .canceling, reader := .abandoning 0 }

def fallBack (s : Async) : Async :=
  { s.asyncFree with kind := .bulk, xfer := asyncAlloc s.num, reader := .submitting 0 }

def submit (s : Async) (submitted : Bool) : Option Async :=
  match s.reader with
  | .submitting i =>
    match s.xfer[i]? with
    | some (some urb) =>
      if submitted then
        some { s.put i (some { urb with inFlight := true }) with reader := .submitting (i + 1) }
      else
        match s.kind with
        | .isoc =>
          let s := (s.xfer.take i).reduceOption.foldl cancelTransfer s
          some (if 0 < i then { s with reader := .fallingBack } else s.fallBack)
        | .bulk => some { s with xfer := s.xfer.take i ++ List.replicate (s.num - i) none }.abandon
    | _ => none
  | _ => none

def Undrained (s : Async) (tries : Nat) : Prop :=
  tries < 20 ∧ ∃ urb ∈ s.xfer.reduceOption, ¬ urb.status.Drained

instance (s : Async) (tries : Nat) : Decidable (s.Undrained tries) :=
  inferInstanceAs (Decidable (_ ∧ _))

def handled (s : Async) (r : Handled) : Option Async :=
  match s.reader with
  | .waiting =>
    match r with
    | .interrupted => some s
    | .failed => some s.abandon
    | .ok =>
      match s.status with
      | .canceling => some { s with reader := .cancelling 0 true }
      | .failed => some s.abandon
      | .inactive => some { s.asyncFree with reader := .returned 0 }
      | .running => some s
      | .paused => some s
  | .fallingBack => some s.fallBack
  | .settling => some { s.asyncFree with reader := .returned 0 }
  | .draining tries =>
    if s.Undrained tries then some { s with reader := .draining (tries + 1) } else none
  | _ => none

def read (s : Async) : Option Async :=
  match s.reader with
  | .submitting i => if i = s.num then some { s with status := .running, reader := .waiting } else none
  | .cancelling i semafor =>
    if i < s.num then
      (s.visit i).map fun (s, cancelled) => { s with reader := .cancelling (i + 1) (semafor && cancelled) }
    else if semafor then some { s with status := .inactive, reader := .settling }
    else some { s with reader := .waiting }
  | .abandoning i =>
    if i < s.num then
      s.xfer[i]?.map fun slot => { slot.elim s s.cancelTransfer with reader := .abandoning (i + 1) }
    else some { s with reader := .draining 0 }
  | .draining tries =>
    if s.Undrained tries then none
    else some { s.asyncFree with status := .inactive, reader := .returned (-1) }
  | _ => none

def cancelAsync (s : Async) : Async :=
  if s.status = .running ∨ s.status = .paused then { s with status := .canceling } else s

-- msisdr_cancel_async_now after 150 rounds
def giveUp (s : Async) : Async :=
  if s.status = .inactive ∨ s.status = .failed then s else { s with status := .failed }

def stop (s : Async) : Option Async :=
  match s.control with
  | .idle => some (if s.status = .running then { s with control := .stopping 0 true } else s)
  | _ => none

def stopHandled (s : Async) (r : Handled) : Option Async :=
  match s.control with
  | .stopWaiting =>
    some { s with
      control := if r ≠ .failed ∧ s.status = .running then .stopping 0 true else .idle }
  | _ => none

def startAsync (s : Async) : Option Async :=
  match s.control with
  | .idle => some (if s.status = .paused then { s with control := .starting 0 } else s)
  | _ => none

-- a transfer that libusb has already is refused
def resubmit (s : Async) (submitted : Bool) : Option Async :=
  match s.control with
  | .starting i =>
    match s.xfer[i]? with
    | some (some urb) =>
      if submitted then
        if urb.inFlight then none
        else some { s.put i (some { urb with inFlight := true }) with control := .starting (i + 1) }
      else some { s with control := .idle }
    | _ => none
  | _ => none

def controlStep (s : Async) : Option Async :=
  match s.control with
  | .stopping i semafor =>
    if i < s.num then
      (s.visit i).map fun (s, cancelled) => { s with control := .stopping (i + 1) (semafor && cancelled) }
    else if semafor then
      some { s with control := if s.status = .running then .pausing else .idle }
    else some { s with control := .stopWaiting }
  | .pausing => some { s with status := .paused, control := .idle }
  | .starting i =>
    if i < s.num then
      match s.xfer[i]? with
      | some none => some { s with control := .starting (i + 1) }
      | _ => none
    else some { s with control := if s.status = .paused then .resuming else .idle }
  | .resuming => some { s with status := .running, control := .idle }
  | _ => none

-- a transfer completes while libusb handles events, on whatever thread that is
def completed (s : Async) (i : Nat) (status : TransferStatus) (submitted : Bool) : Option Async :=
  match s.xfer[i]? with
  | some (some urb) => if urb.inFlight then some (s.libusbCallback i status submitted) else none
  | _ => none

def step (s : Async) : AsyncEvent → Option Async
  | .submit submitted => s.submit submitted
  | .handled r => s.handled r
  | .read => s.read
  | .completed i status submitted => s.completed i status submitted
  | .cancel => some s.cancelAsync
  | .giveUp => some s.giveUp
  | .stop => s.stop
  | .start => s.startAsync
  | .stopHandled r => s.stopHandled r
  | .resubmit submitted => s.resubmit submitted
  | .control => s.controlStep

end Async

end Msisdr
end SdrServer
