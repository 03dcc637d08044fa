import SdrServer.Foundation.Generations
import Mathlib.Logic.Function.Basic

namespace SdrServer
namespace Logger

-- the content of each file that exists, by its path
abbrev Files := List UInt8 → Option (List UInt8)

def logMaxBytesDefault : Nat := 5 * 1024 * 1024

def logErrPriority : Nat := 3

def logInfoPriority : Nat := 6

-- s_file by the path it was opened with; `initial` is the size of that file when it was opened
structure State where
  files : Files
  sFile : Option (List UInt8)
  sPath : List UInt8
  sMaxBytes : Nat
  sWritten : Nat
  initial : Nat
  entries : List (List UInt8)

inductive Event where
  | logInit
  | logInfo (ts message : List UInt8)
  | logErr (ts message : List UInt8)
  | logClose
  deriving DecidableEq, Repr

def fopenAppend (files : Files) (path : List UInt8) : Files :=
  Function.update files path (some ((files path).getD []))

def fopenWrite (files : Files) (path : List UInt8) : Files := Function.update files path (some [])

def rename (files : Files) (path new : List UInt8) : Files :=
  if path = new then files
  else
    match files path with
    | none => files
    | some bytes => Function.update (Function.update files new (some bytes)) path none

-- ".old"
def dotOld : List UInt8 := [46, 111, 108, 100]

-- "ERR " and "INFO"
def level (priority : Nat) : List UInt8 :=
  if priority ≤ logErrPriority then [69, 82, 82, 32] else [73, 78, 70, 79]

-- "[%s] %s  "
def entryHeader (priority : Nat) (ts : List UInt8) : List UInt8 :=
  [91] ++ ts ++ [93, 32] ++ level priority ++ [32, 32]

def entry (priority : Nat) (ts message : List UInt8) : List UInt8 :=
  entryHeader priority ts ++ message ++ [10]

namespace State

def start (files : Files) : State where
  files := files
  sFile := none
  sPath := []
  sMaxBytes := 0
  sWritten := 0
  initial := 0
  entries := []

def logInit (path : List UInt8) (maxBytes : Nat) (s : State) : State :=
  { s with
    files := fopenAppend s.files path
    sFile := some path
    sPath := path.take 511
    sMaxBytes := if maxBytes ≠ 0 then maxBytes else logMaxBytesDefault
    sWritten := 0
    initial := ((s.files path).getD []).length }

def put (s : State) (bytes : List UInt8) : State :=
  match s.sFile with
  | none => s
  | some path =>
    { s with
      files := Function.update s.files path (some ((s.files path).getD [] ++ bytes))
      sWritten := s.sWritten + bytes.length }

def maybeRotate (s : State) : State :=
  match s.sFile with
  | none => s
  | some _ =>
    if s.sWritten < s.sMaxBytes then s
    else
      { s with
        files := fopenWrite (rename s.files s.sPath ((s.sPath ++ dotOld).take 519)) s.sPath
        sFile := some s.sPath
        sWritten := 0
        initial := 0 }

def writeEntry (priority : Nat) (ts message : List UInt8) (s : State) : State :=
  match s.sFile with
  | none => s
  | some _ =>
    let s := ((s.put (entryHeader priority ts)).put message).put [10]
    { s with entries := s.entries ++ [entry priority ts message] }.maybeRotate

-- log_close ends a run of the program and the next one starts with log_init
def step (path : List UInt8) (maxBytes : Nat) (s : State) : Event → Option State
  | .logInit => if s.sFile = none then some (s.logInit path maxBytes) else none
  | .logInfo ts message =>
    if s.sFile = none then none else some (s.writeEntry logInfoPriority ts message)
  | .logErr ts message =>
    if s.sFile = none then none else some (s.writeEntry logErrPriority ts message)
  | .logClose => if s.sFile = none then none else some { s with sFile := none }

end State

end Logger
end SdrServer
