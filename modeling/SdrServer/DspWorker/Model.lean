import SdrServer.Queue.Model
import SdrServer.Xlating.Model

namespace SdrServer

open Xlating (Format)

inductive SdrType where
  | rtl
  | airspy
  | hackrf
  | msi
  deriving DecidableEq, Repr

inductive Driver where
  | rtlsdr
  | airspy
  | hackrf
  | msisdr
  deriving DecidableEq, Repr

def sdrDeviceCreate : SdrType → Driver
  | .rtl => .rtlsdr
  | .airspy => .airspy
  | .hackrf => .hackrf
  | .msi => .msisdr

def Driver.sampleFormat : Driver → Format
  | .rtlsdr => .cu8
  | .hackrf => .cs8
  | .airspy => .cs16
  | .msisdr => .cs16

def littleEndianInt16s : List UInt8 → List Int16
  | low :: high :: rest =>
    (UInt16.ofNat (low.toNat + 2 ^ 8 * high.toNat)).toInt16 :: littleEndianInt16s rest
  | _ => []

def decode : (format : Format) → List UInt8 → List format.Value
  | .cu8, input => input
  | .cs8, input => input.map UInt8.toInt8
  | .cs16, input => littleEndianInt16s input

inductive Destination where
  | file
  | socket
  deriving DecidableEq, Repr

inductive Sink where
  | file
  | gz
  | socket
  deriving DecidableEq, Repr

-- the fields that dsp_worker_start sets once; `floatComplex` is the memory of one output sample
structure DspSetup (F O : Type) where
  sdrType : SdrType
  destination : Destination
  useGzip : Bool
  xlatingProcessCu8 : List UInt8 → F → List O × F
  xlatingProcessCs8 : List Int8 → F → List O × F
  xlatingProcessCs16 : List Int16 → F → List O × F
  floatComplex : O → List UInt8
  sizeofFloatComplex : ∀ o, (floatComplex o).length = 8

inductive DspPc where
  | taking
  | processing (node len : Nat)
  | writing (left : List UInt8)
  | failed
  | ended
  deriving DecidableEq, Repr

structure DspWorker (F O : Type) where
  queue : Queue
  filter : F
  filterOutput : List O
  pc : DspPc
  destroying : Bool
  puts : List (List UInt8)
  written : Sink → List UInt8
  closes : Nat

inductive DspEvent where
  | process (buf : List UInt8)
  | destroy
  | takeBuffer
  | filterInput
  | write (n : Nat)
  | writeError
  | completeBuffer
  deriving DecidableEq, Repr

variable {F O : Type}

namespace DspSetup

def sink (c : DspSetup F O) : Sink :=
  match c.destination with
  | .file => if c.useGzip then .gz else .file
  | .socket => .socket

def process (c : DspSetup F O) : (format : Format) → List format.Value → F → List O × F
  | .cu8 => c.xlatingProcessCu8
  | .cs8 => c.xlatingProcessCs8
  | .cs16 => c.xlatingProcessCs16

def bytes (c : DspSetup F O) (output : List O) : List UInt8 := output.flatMap c.floatComplex

end DspSetup

namespace DspWorker

def start (bufferSize queueSize : Nat) (filter : F) : DspWorker F O where
  queue := Queue.createQueue bufferSize queueSize
  filter := filter
  filterOutput := []
  pc := .taking
  destroying := false
  puts := []
  written := fun _ => []
  closes := 0

-- the switch of the thread: the last case is `default`, which leaves the output pointer alone
def filterInput (c : DspSetup F O) (input : List UInt8) (w : DspWorker F O) : List O × F :=
  match c.sdrType with
  | .hackrf => c.xlatingProcessCs8 (decode .cs8 input) w.filter
  | .rtl => c.xlatingProcessCu8 (decode .cu8 input) w.filter
  | .airspy => c.xlatingProcessCs16 (decode .cs16 input) w.filter
  | _ => (w.filterOutput, w.filter)

def step (c : DspSetup F O) (w : DspWorker F O) : DspEvent → Option (DspWorker F O)
  | .process buf =>
    if w.destroying then none
    else (w.queue.queuePut buf).map fun queue => { w with queue, puts := w.puts ++ [buf] }
  | .destroy =>
    if w.destroying then none
    else some { w with queue := w.queue.interruptWaitingTheData, destroying := true }
  | .takeBuffer =>
    match w.pc, w.queue.takeBufferForProcessing with
    | .taking, (.null, queue) => some { w with queue, pc := .ended }
    | .taking, (.buffer node len, queue) => some { w with queue, pc := .processing node len }
    | _, _ => none
  | .filterInput =>
    match w.pc with
    | .processing node len =>
      let (filterOutput, filter) := w.filterInput c ((w.queue.buffer node).take len)
      some { w with filter, filterOutput, pc := .writing (c.bytes filterOutput) }
    | _ => none
  | .write n =>
    match w.pc with
    | .writing left =>
      if 0 < n ∧ n ≤ left.length ∧ (c.destination = .file → n = left.length) then
        some { w with
          pc := .writing (left.drop n)
          written := Function.update w.written c.sink (w.written c.sink ++ left.take n) }
      else none
    | _ => none
  | .writeError =>
    match w.pc with
    | .writing _ => some { w with pc := .failed }
    | _ => none
  | .completeBuffer =>
    match w.pc with
    | .writing [] => some { w with queue := w.queue.completeBufferProcessing, pc := .taking }
    | .failed => some
      { w with
        queue := w.queue.completeBufferProcessing
        pc := .taking
        closes := w.closes + 1 }
    | _ => none

inductive Acts (c : DspSetup F O) (w : DspWorker F O) : DspEvent → DspWorker F O → Prop
  | process {buf : List UInt8} {queue : Queue} (hrun : w.destroying = false)
    (hput : w.queue.queuePut buf = some queue) :
    Acts c w (.process buf) { w with queue, puts := w.puts ++ [buf] }
  | destroy (hrun : w.destroying = false) :
    Acts c w .destroy { w with queue := w.queue.interruptWaitingTheData, destroying := true }
  | ends {queue : Queue} (hpc : w.pc = .taking)
    (htake : w.queue.takeBufferForProcessing = (.null, queue)) :
    Acts c w .takeBuffer { w with queue, pc := .ended }
  | takes {node len : Nat} {queue : Queue} (hpc : w.pc = .taking)
    (htake : w.queue.takeBufferForProcessing = (.buffer node len, queue)) :
    Acts c w .takeBuffer { w with queue, pc := .processing node len }
  | filterInput {node len : Nat} (hpc : w.pc = .processing node len) :
    Acts c w .filterInput
      { w with
        filter := (w.filterInput c ((w.queue.buffer node).take len)).2
        filterOutput := (w.filterInput c ((w.queue.buffer node).take len)).1
        pc := .writing (c.bytes (w.filterInput c ((w.queue.buffer node).take len)).1) }
  | write {n : Nat} {left : List UInt8} (hpc : w.pc = .writing left)
    (hn : 0 < n ∧ n ≤ left.length ∧ (c.destination = .file → n = left.length)) :
    Acts c w (.write n)
      { w with
        pc := .writing (left.drop n)
        written := Function.update w.written c.sink (w.written c.sink ++ left.take n) }
  | writeError {left : List UInt8} (hpc : w.pc = .writing left) :
    Acts c w .writeError { w with pc := .failed }
  | complete (hpc : w.pc = .writing []) :
    Acts c w .completeBuffer { w with queue := w.queue.completeBufferProcessing, pc := .taking }
  | completeFailed (hpc : w.pc = .failed) :
    Acts c w .completeBuffer
      { w with
        queue := w.queue.completeBufferProcessing
        pc := .taking
        closes := w.closes + 1 }

theorem step_acts {c : DspSetup F O} {w t : DspWorker F O} {e : DspEvent}
    (h : w.step c e = some t) : Acts c w e t := by
  cases e with
  | process buf =>
    simp only [step] at h
    split at h
    · cases h
    · rename_i hrun
      obtain ⟨queue, hput, rfl⟩ := Option.map_eq_some_iff.mp h
      exact .process (Bool.eq_false_iff.mpr hrun) hput
  | destroy =>
    simp only [step] at h
    split at h
    · cases h
    · rename_i hrun
      obtain rfl := Option.some.inj h
      exact .destroy (Bool.eq_false_iff.mpr hrun)
  | takeBuffer =>
    simp only [step] at h
    split at h
    · rename_i hpc htake
      obtain rfl := Option.some.inj h
      exact .ends hpc htake
    · rename_i hpc htake
      obtain rfl := Option.some.inj h
      exact .takes hpc htake
    · cases h
  | filterInput =>
    simp only [step] at h
    split at h
    · rename_i hpc
      obtain rfl := Option.some.inj h
      exact .filterInput hpc
    · cases h
  | write n =>
    simp only [step] at h
    split at h
    · rename_i hpc
      split at h
      · rename_i hn
        obtain rfl := Option.some.inj h
        exact .write hpc hn
      · cases h
    · cases h
  | writeError =>
    simp only [step] at h
    split at h
    · rename_i hpc
      obtain rfl := Option.some.inj h
      exact .writeError hpc
    · cases h
  | completeBuffer =>
    simp only [step] at h
    split at h
    · rename_i hpc
      obtain rfl := Option.some.inj h
      exact .complete hpc
    · rename_i hpc
      obtain rfl := Option.some.inj h
      exact .completeFailed hpc
    · cases h

end DspWorker

end SdrServer
