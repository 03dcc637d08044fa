import SdrServer.Config.Model
import SdrServer.DspWorker.Model
import SdrServer.Lpf.Model
import SdrServer.Server.Request

namespace SdrServer
namespace DspWorker

-- what ends the process, or leaves open what it does
inductive Halt where
  | divisionByZero
  | conversion
  | nullPointer
  deriving DecidableEq, Repr

inductive Object where
  | worker
  | filter
  | gz
  | file
  | queue
  | thread
  deriving DecidableEq, Repr

inductive Action where
  | create (object : Object)
  | destroy (object : Object)
  deriving DecidableEq, Repr

-- the answers of malloc, of the file system and of pthread_create
structure Surroundings where
  workerMemory : Bool
  lowPassMemory : Bool × Bool
  filterMemory : Bool
  tapsMemory : Bool
  alignedMemory : Bool
  workingMemory : Bool
  outputMemory : Bool
  heap : Nat × Nat
  gzopen : List UInt8 → Bool
  fopen : List UInt8 → Bool
  queueMemory : Bool
  threadMemory : Bool
  pthreadCreate : Bool

inductive Start where
  | failed (code : Int)
  | started (optimization : Config.CpuOptimization) (worker : DspWorker (Xlating ℂ) ℂ)

def enomem : Int := 12

-- what the requests are checked against
def served (c : Config.ServerConfig) : ServerConfig where
  bandSamplingRate := c.bandSamplingRate
  queueSize := c.queueSize.toInt.toNat

def divide (a b : UInt32) : Except Halt UInt32 :=
  if b = 0 then .error .divisionByZero else .ok (a / b)

-- each field of the worker that is not NULL, in the order of dsp_worker_destroy
def dspWorkerDestroy (created : List Object) : List Action :=
  ([.thread, .queue, .file, .gz, .filter, .worker].filter created.contains).map .destroy

def giveUp (code : Int) (created : List Object) : Start × List Action :=
  (.failed code, created.map .create ++ dspWorkerDestroy created)

def filePath (c : Config.ServerConfig) (id : UInt32) (suffix : String) : List UInt8 :=
  (c.basePath ++ "/" ++ toString id.toInt32 ++ suffix).toUTF8.toList.take 4095

def failureCode : Lpf.Failure → Int
  | .message _ => -1
  | .noMemory => -enomem

noncomputable section

def createFilter (env : Surroundings) (decimation : UInt32) (taps : List ℝ) (centerFreq : Int)
    (samplingFreq maxInputBufferLength : UInt32) : Except Halt (Except Int (Xlating ℂ)) :=
  if taps.length = 0 then .ok (.error (-1))
  else if env.filterMemory = false then .ok (.error (-enomem))
  else if env.tapsMemory = false then .ok (.error (-1))
  -- the aligned copies of the taps are filled without a check
  else if env.alignedMemory = false then .error .nullPointer
  else if env.workingMemory = false then .ok (.error (-enomem))
  else do
    let _ ← divide (maxInputBufferLength / 2) decimation
    if env.outputMemory = false then .ok (.error (-enomem))
    else
      match Xlating.createFrequencyXlatingFilter env.heap decimation.toNat taps centerFreq
        samplingFreq.toNat maxInputBufferLength.toNat with
      | none => .error .divisionByZero
      | some filter => .ok (.ok filter)

def startThread (env : Surroundings) (c : Config.ServerConfig) (filter : Xlating ℂ)
    (created : List Object) : Start × List Action :=
  if env.queueMemory = false then giveUp (-1) created
  else if env.threadMemory = false then giveUp (-enomem) (created ++ [.queue])
  else if env.pthreadCreate = false then
    (.failed (-1), (created ++ [Object.queue, .thread]).map Action.create ++
      .destroy .thread :: dspWorkerDestroy (created ++ [.queue]))
  else
    (.started c.optimization (start c.bufferSize.toNat c.queueSize.toInt.toNat filter),
      (created ++ [Object.queue, .thread]).map Action.create)

def openOutput (env : Surroundings) (client : ClientConfig) (c : Config.ServerConfig)
    (filter : Xlating ℂ) : Start × List Action :=
  if c.useGzip then
    if env.gzopen (filePath c client.id ".cf32.gz") then
      startThread env c filter [.worker, .filter, .gz]
    else giveUp (-1) [.worker, .filter]
  else if env.fopen (filePath c client.id ".cf32") then
    startThread env c filter [.worker, .filter, .file]
  else giveUp (-1) [.worker, .filter]

def dspWorkerStart (env : Surroundings) (client : ClientConfig) (c : Config.ServerConfig) :
    Except Halt (Start × List Action) :=
  if env.workerMemory = false then .error .nullPointer
  else do
    let transitionWidth ← divide client.samplingRate c.lpfCutoffRate.toUInt32
    let lowPass ← (Lpf.createLowPassFilter env.lowPassMemory 1 c.bandSamplingRate
      (client.samplingRate / 2) transitionWidth).elim (.error .conversion) .ok
    match lowPass with
    | .error failure => .ok (giveUp (failureCode failure) [.worker])
    | .ok taps =>
      let decimation ← divide c.bandSamplingRate client.samplingRate
      let centerFreq := Int32.ofInt ((client.centerFreq.toNat : Int) - client.bandFreq.toNat)
      let filter ← createFilter env decimation taps centerFreq.toInt c.bandSamplingRate
        c.bufferSize
      match filter with
      | .error code => .ok (giveUp code [.worker])
      | .ok filter => .ok (openOutput env client c filter)

end

-- everything made is unmade, and nothing twice
structure Balanced (actions : List Action) : Prop where
  destroyed : ∀ o, actions.count (.destroy o) = actions.count (.create o)
  once : ∀ o, actions.count (.create o) ≤ 1

theorem forall_object {p : Object → Prop} (hworker : p .worker) (hfilter : p .filter) (hgz : p .gz)
    (hfile : p .file) (hqueue : p .queue) (hthread : p .thread) : ∀ o, p o := by
  intro o
  cases o <;> assumption

theorem giveUp_balanced {code code' : Int} {created : List Object} {actions : List Action}
    (hcreated : created ∈ [[.worker], [.worker, .filter], [.worker, .filter, .gz],
      [.worker, .filter, .file], [.worker, .filter, .gz, .queue], [.worker, .filter, .file, .queue]])
    (h : giveUp code created = (.failed code', actions)) : code' = code ∧ Balanced actions := by
  obtain ⟨hcode, rfl⟩ := Prod.mk.inj h
  refine ⟨(Start.failed.inj hcode).symm, ?_⟩
  simp only [List.mem_cons, List.not_mem_nil, or_false] at hcreated
  rcases hcreated with rfl | rfl | rfl | rfl | rfl | rfl <;>
    exact ⟨forall_object rfl rfl rfl rfl rfl rfl, forall_object (by decide) (by decide) (by decide)
      (by decide) (by decide) (by decide)⟩

theorem startThread_failed {env : Surroundings} {c : Config.ServerConfig} {filter : Xlating ℂ}
    {created : List Object} {code : Int} {actions : List Action}
    (hcreated : created ∈ [[.worker, .filter, .gz], [.worker, .filter, .file]])
    (h : startThread env c filter created = (.failed code, actions)) :
    code < 0 ∧ Balanced actions := by
  simp only [List.mem_cons, List.not_mem_nil, or_false] at hcreated
  unfold startThread at h
  split at h
  · obtain ⟨rfl, hbalanced⟩ := giveUp_balanced (by rcases hcreated with rfl | rfl <;> simp) h
    exact ⟨by decide, hbalanced⟩
  · split at h
    · obtain ⟨rfl, hbalanced⟩ := giveUp_balanced (by rcases hcreated with rfl | rfl <;> simp) h
      exact ⟨by decide, hbalanced⟩
    · split at h
      · obtain ⟨hcode, rfl⟩ := Prod.mk.inj h
        obtain rfl := Start.failed.inj hcode
        refine ⟨by decide, ?_⟩
        rcases hcreated with rfl | rfl <;>
          exact ⟨forall_object rfl rfl rfl rfl rfl rfl, forall_object (by decide) (by decide)
            (by decide) (by decide) (by decide) (by decide)⟩
      · cases h

theorem openOutput_failed {env : Surroundings} {client : ClientConfig} {c : Config.ServerConfig}
    {filter : Xlating ℂ} {code : Int} {actions : List Action}
    (h : openOutput env client c filter = (.failed code, actions)) :
    code < 0 ∧ Balanced actions := by
  unfold openOutput at h
  split at h
  · split at h
    · exact startThread_failed (by simp) h
    · obtain ⟨rfl, hbalanced⟩ := giveUp_balanced (by simp) h
      exact ⟨by decide, hbalanced⟩
  · split at h
    · exact startThread_failed (by simp) h
    · obtain ⟨rfl, hbalanced⟩ := giveUp_balanced (by simp) h
      exact ⟨by decide, hbalanced⟩

theorem failureCode_neg (failure : Lpf.Failure) : failureCode failure < 0 := by
  cases failure with
  | message text => exact Int.negSucc_lt_zero 0
  | noMemory => decide

theorem createFilter_cases {env : Surroundings} {decimation : UInt32} {taps : List ℝ}
    {centerFreq : Int} {samplingFreq maxInputBufferLength : UInt32}
    {created : Except Int (Xlating ℂ)}
    (h : createFilter env decimation taps centerFreq samplingFreq maxInputBufferLength =
      .ok created) :
    (∃ code, created = .error code ∧ code < 0) ∨
      ∃ filter, created = .ok filter ∧
        Xlating.createFrequencyXlatingFilter env.heap decimation.toNat taps centerFreq
          samplingFreq.toNat maxInputBufferLength.toNat = some filter := by
  unfold createFilter at h
  split at h
  · exact Or.inl ⟨_, (Except.ok.inj h).symm, by decide⟩
  · split at h
    · exact Or.inl ⟨_, (Except.ok.inj h).symm, by decide⟩
    · split at h
      · exact Or.inl ⟨_, (Except.ok.inj h).symm, by decide⟩
      · split at h
        · cases h
        · split at h
          · exact Or.inl ⟨_, (Except.ok.inj h).symm, by decide⟩
          · obtain ⟨_, -, h⟩ := Config.bind_ok h
            split at h
            · exact Or.inl ⟨_, (Except.ok.inj h).symm, by decide⟩
            · split at h
              · cases h
              · rename_i hcreate
                exact Or.inr ⟨_, (Except.ok.inj h).symm, hcreate⟩

-- every failing exit returns an error code and leaves nothing behind
theorem dspWorkerStart_failed {env : Surroundings} {client : ClientConfig}
    {c : Config.ServerConfig} {code : Int} {actions : List Action}
    (h : dspWorkerStart env client c = .ok (.failed code, actions)) :
    code < 0 ∧ Balanced actions := by
  unfold dspWorkerStart at h
  split at h
  · cases h
  · obtain ⟨transitionWidth, -, h⟩ := Config.bind_ok h
    obtain ⟨lowPass, -, h⟩ := Config.bind_ok h
    split at h
    · obtain ⟨rfl, hbalanced⟩ := giveUp_balanced (by simp) (Except.ok.inj h)
      exact ⟨failureCode_neg _, hbalanced⟩
    · obtain ⟨decimation, -, h⟩ := Config.bind_ok h
      obtain ⟨filter, hfilter, h⟩ := Config.bind_ok h
      split at h
      · obtain ⟨rfl, hbalanced⟩ := giveUp_balanced (by simp) (Except.ok.inj h)
        rcases createFilter_cases hfilter with ⟨code, hcode, hneg⟩ | ⟨filter, hcode, -⟩
        · obtain rfl := Except.error.inj hcode
          exact ⟨hneg, hbalanced⟩
        · cases hcode
      · exact openOutput_failed (Except.ok.inj h)

end DspWorker
end SdrServer
