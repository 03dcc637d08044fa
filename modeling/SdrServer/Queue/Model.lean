import SdrServer.Foundation.Chain
import SdrServer.Foundation.Fifo

namespace SdrServer

structure Queue where
  firstFreeNode : Option Nat
  lastFreeNode : Option Nat
  firstFilledNode : Option Nat
  lastFilledNode : Option Nat
  detachedNode : Option Nat
  poisonPill : Bool
  next : Nat → Option Nat
  buffer : Nat → List UInt8
  len : Nat → Nat

namespace Queue

def createNodes : Nat → Option Nat × Option Nat × (Nat → Option Nat)
  | 0 => (none, none, fun _ => none)
  | i + 1 =>
    let (first, last, next) := createNodes i
    let next := Function.update next i none
    match last with
    | none => (some i, some i, next)
    | some l => (first, some i, Function.update next l (some i))

def createQueue (bufferSize queueSize : Nat) : Queue :=
  let (first, last, next) := createNodes queueSize
  { firstFreeNode := first
    lastFreeNode := last
    firstFilledNode := none
    lastFilledNode := none
    detachedNode := none
    poisonPill := false
    next := next
    buffer := fun _ => List.replicate bufferSize 0
    len := fun _ => 0 }

def fill (node : Nat) (data : List UInt8) (q : Queue) : Queue :=
  { q with
    buffer := Function.update q.buffer node (data ++ (q.buffer node).drop data.length)
    len := Function.update q.len node data.length }

def moveToFilled (node : Nat) (q : Queue) : Queue :=
  let rest := q.next node
  let next := Function.update q.next node none
  let q := { q with
    firstFreeNode := rest
    lastFreeNode := if rest = none then none else q.lastFreeNode
    next := next }
  match q.lastFilledNode with
  | none => { q with firstFilledNode := some node, lastFilledNode := some node }
  | some l =>
    { q with next := Function.update q.next l (some node), lastFilledNode := some node }

-- `none` is the dereference of a NULL `last_filled_node`
def queuePut (data : List UInt8) (q : Queue) : Option Queue :=
  match q.firstFreeNode with
  | none => q.lastFilledNode.map fun node => q.fill node data
  | some node => some ((q.moveToFilled node).fill node data)

inductive Taken where
  | wait
  | null
  | buffer (node len : Nat)
  deriving DecidableEq, Repr

-- one pass under the mutex: the entry check and the check after every wakeup decide alike
def takeBufferForProcessing (q : Queue) : Taken × Queue :=
  match q.firstFilledNode with
  | none => if q.poisonPill then (.null, q) else (.wait, q)
  | some node =>
    let rest := q.next node
    (.buffer node (q.len node),
      { q with
        detachedNode := some node
        firstFilledNode := rest
        next := Function.update q.next node none
        lastFilledNode := if rest = none then none else q.lastFilledNode })

def completeBufferProcessing (q : Queue) : Queue :=
  let q := match q.lastFreeNode with
    | none => { q with firstFreeNode := q.detachedNode }
    | some l => { q with next := Function.update q.next l q.detachedNode }
  { q with lastFreeNode := q.detachedNode, detachedNode := none }

def interruptWaitingTheData (q : Queue) : Queue := { q with poisonPill := true }

def contents (q : Queue) (node : Nat) : List UInt8 := (q.buffer node).take (q.len node)

structure Shape (bufferSize queueSize : Nat) (q : Queue) (free filled : List Nat) : Prop where
  freePath : Chain.Path q.next q.firstFreeNode free none
  freeLast : q.lastFreeNode = free.getLast?
  filledPath : Chain.Path q.next q.firstFilledNode filled none
  filledLast : q.lastFilledNode = filled.getLast?
  detachedNext : ∀ node, q.detachedNode = some node → q.next node = none
  partition : (free ++ filled ++ q.detachedNode.toList).Perm (List.range queueSize)
  buffers : ∀ node < queueSize, (q.buffer node).length = bufferSize

def abstraction (q : Queue) (filled : List Nat) : Fifo (List UInt8) :=
  ⟨filled.map q.contents, q.detachedNode.map q.contents⟩

end Queue

end SdrServer
