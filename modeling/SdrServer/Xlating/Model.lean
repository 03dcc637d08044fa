import SdrServer.Foundation.Buffer
import Mathlib.Analysis.Complex.Trigonometric
import Mathlib.Analysis.Real.Pi.Bounds

namespace SdrServer

structure Xlating (K : Type) where
  decimation : Nat
  tapsCf32 : List (List K)
  numberOfAlignedCf32 : Nat
  alignmentCf32 : Nat
  tapsCs16 : List (List Int16)
  numberOfAlignedCs16 : Nat
  alignmentCs16 : Nat
  tapsLen : Nat
  workingBufferCf32Addr : Nat
  workingBufferCf32 : List K
  workingBufferCs16Addr : Nat
  workingBufferCs16 : List Int16
  historyOffset : Nat
  workingBufferLenSamples : Nat
  outputLenSampls : Nat
  phase : K
  phaseIncr : K
  phaseReal : Int16
  phaseImag : Int16
  phaseIncrReal : Int16
  phaseIncrImag : Int16

namespace Xlating

-- the skeleton that process_native_cf32 and process_native_cs16 share: `width` array cells hold
-- one sample, `body` is one pass of the loop and `finish` what follows the loop
structure Block (X P O : Type) where
  tapsLen : Nat
  decimation : Nat
  width : Nat
  outputLen : Nat
  body : List X → Nat → P → Option (O × P)
  finish : P → P

variable {X P O K : Type}

namespace Block

def loop (b : Block X P O) (buffer : List X) (maxIndex : Nat) :
    Nat → Nat → Nat → P → Option (List O × Nat × P)
  | 0, current, _, p => if current < maxIndex then none else some ([], current, p)
  | fuel + 1, current, produced, p =>
    if current < maxIndex then
      if produced < b.outputLen then do
        let (o, p) ← b.body buffer current p
        let (os, current, p) ← loop b buffer maxIndex fuel (current + b.decimation) (produced + 1) p
        some (o :: os, current, p)
      else none
    else some ([], current, p)

-- `none` is undefined behaviour: an access outside an array, or `working_len - current_index`
-- wrapping below zero
def process (b : Block X P O) (buffer : List X) (historyOffset inputLenSamples : Nat) (p : P) :
    Option (List O × P × List X × Nat) := do
  let workingLen := historyOffset + inputLenSamples
  let (out, current, p) ←
    if b.tapsLen - 1 < workingLen then
      let maxIndex := workingLen - (b.tapsLen - 1)
      (b.loop buffer maxIndex maxIndex 0 0 p).map fun (out, current, p) =>
        (out, current, b.finish p)
    else some ([], 0, p)
  if current ≤ workingLen then
    let historyOffset := workingLen - current
    let buffer ←
      if 0 < current then
        Buffer.moveDown buffer (b.width * current) (b.width * historyOffset)
      else some buffer
    some (out, p, buffer, historyOffset)
  else none

end Block

-- the array cell where the aligned pointer below `buf` points, and `align_index`
def alignedWindow (addr size alignment index : Nat) : Option (Nat × Nat) :=
  let buf := addr + size * index
  let alignedBuffer := buf / alignment * alignment
  if addr ≤ alignedBuffer then
    some ((alignedBuffer - addr) / size, (buf - alignedBuffer) / size)
  else none

section Cf32

variable [Zero K] [Add K] [Mul K]

def dotCf32 (buffer : List K) (start : Nat) (taps : List K) : Nat → Option K
  | 0 => some 0
  | i + 1 => do
    let temp ← dotCf32 buffer start taps i
    let a ← buffer[start + i]?
    let b ← taps[i]?
    some (temp + a * b)

def tapCf32 (f : Xlating K) (buffer : List K) (current : Nat) (phase : K) : Option (K × K) := do
  let (start, alignIndex) ← alignedWindow f.workingBufferCf32Addr 8 f.alignmentCf32 current
  let taps ← f.tapsCf32[alignIndex]?
  let temp ← dotCf32 buffer start taps (f.tapsLen + alignIndex)
  some (temp * phase, phase * f.phaseIncr)

def blockCf32 (normalise : K → K) (f : Xlating K) : Block K K K where
  tapsLen := f.tapsLen
  decimation := f.decimation
  width := 1
  outputLen := f.outputLenSampls
  body := f.tapCf32
  finish := normalise

def processNativeCf32 (normalise : K → K) (inputLenSamples : Nat) (f : Xlating K) :
    Option (List K × Xlating K) :=
  ((f.blockCf32 normalise).process f.workingBufferCf32 f.historyOffset inputLenSamples f.phase).map
    fun (output, phase, buffer, historyOffset) =>
      (output, { f with phase, workingBufferCf32 := buffer, historyOffset })

end Cf32

def int32 (x : Int) : Int := x.bmod (2 ^ 32)

def int64 (x : Int) : Int := x.bmod (2 ^ 64)

def saturateToInt16 (value : Int) : Int16 :=
  let result := if 32767 < value then 32767 else value
  let result := if result < -32768 then -32768 else result
  Int16.ofInt result

def mulReal (ar ai br bi : Int16) : Int :=
  int32 (int32 (ar.toInt * br.toInt) - int32 (ai.toInt * bi.toInt))

def mulImag (ar ai br bi : Int16) : Int :=
  int32 (int32 (ar.toInt * bi.toInt) + int32 (ai.toInt * br.toInt))

def dotCs16 (buffer : List Int16) (start : Nat) (taps : List Int16) : Nat → Option (Int × Int)
  | 0 => some (0, 0)
  | i + 1 => do
    let (tempReal, tempImag) ← dotCs16 buffer start taps i
    let ar ← buffer[start + 2 * i]?
    let ai ← buffer[start + 2 * i + 1]?
    let br ← taps[2 * i]?
    let bi ← taps[2 * i + 1]?
    some (int64 (tempReal + mulReal ar ai br bi), int64 (tempImag + mulImag ar ai br bi))

def shift15 (x : Int) : Int16 := saturateToInt16 (int32 (x >>> (15 : Nat)))

def derotate (temp : Int × Int) (phase : Int16 × Int16) : Int16 × Int16 :=
  let accReal := shift15 temp.1
  let accImag := shift15 temp.2
  (shift15 (mulReal accReal accImag phase.1 phase.2),
    shift15 (mulImag accReal accImag phase.1 phase.2))

def rotate (f : Xlating K) (phase : Int16 × Int16) : Int16 × Int16 :=
  (shift15 (mulReal phase.1 phase.2 f.phaseIncrReal f.phaseIncrImag),
    shift15 (mulImag phase.1 phase.2 f.phaseIncrReal f.phaseIncrImag))

def tapCs16 (f : Xlating K) (buffer : List Int16) (current : Nat) (phase : Int16 × Int16) :
    Option ((Int16 × Int16) × (Int16 × Int16)) := do
  let (start, alignIndex) ← alignedWindow f.workingBufferCs16Addr 2 f.alignmentCs16 (2 * current)
  let taps ← f.tapsCs16[alignIndex]?
  let temp ← dotCs16 buffer start taps (f.tapsLen + alignIndex)
  some (derotate temp phase, f.rotate phase)

def blockCs16 (f : Xlating K) : Block Int16 (Int16 × Int16) (Int16 × Int16) where
  tapsLen := f.tapsLen
  decimation := f.decimation
  width := 2
  outputLen := f.outputLenSampls
  body := f.tapCs16
  finish := id

def processNativeCs16 (inputLenSamples : Nat) (f : Xlating K) :
    Option (List (Int16 × Int16) × Xlating K) :=
  (f.blockCs16.process f.workingBufferCs16 f.historyOffset inputLenSamples
    (f.phaseReal, f.phaseImag)).map
    fun (output, phase, buffer, historyOffset) =>
      (output,
        { f with
          phaseReal := phase.1
          phaseImag := phase.2
          workingBufferCs16 := buffer
          historyOffset })

def samples {α : Type} (convert : α → α → K) : List α → List K
  | re :: im :: rest => convert re im :: samples convert rest
  | _ => []

def storeCf32 {α : Type} (convert : α → α → K) (input : List α) (f : Xlating K) :
    Option (Xlating K) :=
  (Buffer.storeAt f.workingBufferCf32 f.historyOffset (samples convert input)).map
    fun buffer => { f with workingBufferCf32 := buffer }

def feedCf32 [Zero K] [Add K] [Mul K] {α : Type} (normalise : K → K) (convert : α → α → K)
    (input : List α) (f : Xlating K) : Option (List K × Xlating K) :=
  (storeCf32 convert input f).bind (processNativeCf32 normalise (input.length / 2))

def storeCs16 {α : Type} (convert : α → Int16) (input : List α) (f : Xlating K) :
    Option (Xlating K) :=
  (Buffer.storeAt f.workingBufferCs16 (2 * f.historyOffset) (input.map convert)).map
    fun buffer => { f with workingBufferCs16 := buffer }

def feedCs16 {α : Type} (convert : α → Int16) (input : List α) (f : Xlating K) :
    Option (List (Int16 × Int16) × Xlating K) :=
  (storeCs16 convert input f).bind (processNativeCs16 (input.length / 2))

def cu8ToCs16 (x : UInt8) : Int16 := Int16.ofInt (((x.toNat : Int) - 128) * 2 ^ 8)

def cs8ToCs16 (x : Int8) : Int16 := Int16.ofInt (x.toInt * 2 ^ 8)

def processNativeCu8Cs16 : List UInt8 → Xlating K → Option (List (Int16 × Int16) × Xlating K) :=
  feedCs16 cu8ToCs16

def processNativeCs8Cs16 : List Int8 → Xlating K → Option (List (Int16 × Int16) × Xlating K) :=
  feedCs16 cs8ToCs16

def processNativeCs16Cs16 : List Int16 → Xlating K → Option (List (Int16 × Int16) × Xlating K) :=
  feedCs16 id

noncomputable section

def hypotNormalise (phase : ℂ) : ℂ := phase / (Real.sqrt (phase.re ^ 2 + phase.im ^ 2) : ℝ)

def cu8ToCf32 (re im : UInt8) : ℂ :=
  (((re.toNat : ℝ) - 127.5) / 128 : ℝ) + (((im.toNat : ℝ) - 127.5) / 128 : ℝ) * Complex.I

def cs8ToCf32 (re im : Int8) : ℂ :=
  ((re.toInt : ℝ) / 128 : ℝ) + ((im.toInt : ℝ) / 128 : ℝ) * Complex.I

def cs16ToCf32 (re im : Int16) : ℂ :=
  ((re.toInt : ℝ) / 32768 : ℝ) + ((im.toInt : ℝ) / 32768 : ℝ) * Complex.I

def processNativeCu8Cf32 : List UInt8 → Xlating ℂ → Option (List ℂ × Xlating ℂ) :=
  feedCf32 hypotNormalise cu8ToCf32

def processNativeCs8Cf32 : List Int8 → Xlating ℂ → Option (List ℂ × Xlating ℂ) :=
  feedCf32 hypotNormalise cs8ToCf32

def processNativeCs16Cf32 : List Int16 → Xlating ℂ → Option (List ℂ × Xlating ℂ) :=
  feedCf32 hypotNormalise cs16ToCf32

end

inductive Format where
  | cu8
  | cs8
  | cs16
  deriving DecidableEq, Repr

def Format.Value : Format → Type
  | .cu8 => UInt8
  | .cs8 => Int8
  | .cs16 => Int16

def Format.processCs16 :
    (format : Format) → List format.Value → Xlating K → Option (List (Int16 × Int16) × Xlating K)
  | .cu8 => processNativeCu8Cs16
  | .cs8 => processNativeCs8Cs16
  | .cs16 => processNativeCs16Cs16

noncomputable def Format.processCf32 :
    (format : Format) → List format.Value → Xlating ℂ → Option (List ℂ × Xlating ℂ)
  | .cu8 => processNativeCu8Cf32
  | .cs8 => processNativeCs8Cf32
  | .cs16 => processNativeCs16Cf32

def calls {α : Type} (process : List α → Xlating K → Option (List O × Xlating K)) :
    List (List α) → Xlating K → Option (List O × Xlating K)
  | [], f => some ([], f)
  | input :: inputs, f => do
    let (output, f) ← process input f
    let (outputs, f) ← calls process inputs f
    some (output ++ outputs, f)

structure Sized (maxInputBufferLength : Nat) (f : Xlating K) : Prop where
  decimationPos : 1 ≤ f.decimation
  decimationLe : f.decimation ≤ f.tapsLen
  alignedCf32 : f.alignmentCf32 = 32 ∧ f.workingBufferCf32Addr % 32 = 0
  alignedCs16 : f.alignmentCs16 = 4 ∧ f.workingBufferCs16Addr % 32 = 0
  bufferLen : f.workingBufferLenSamples = maxInputBufferLength / 2 + (f.tapsLen - 1)
  bufferCf32 : f.workingBufferCf32.length = f.workingBufferLenSamples
  bufferCs16 : f.workingBufferCs16.length = 2 * f.workingBufferLenSamples
  history : f.historyOffset < f.tapsLen
  outputLen : f.outputLenSampls = maxInputBufferLength / 2 / f.decimation + 1

def swapTaps (taps : List K) (a b : Nat) : List K :=
  match taps[a]?, taps[b]? with
  | some x, some y => (taps.set a y).set b x
  | _, _ => taps

def reverseTaps (taps : List K) : List K :=
  (List.range (taps.length / 2 + 1)).foldl (fun l i => swapTaps l (taps.length - 1 - i) i) taps

def alignedTaps [Zero K] (taps : List K) (width numberOfAligned i : Nat) : List K :=
  List.replicate i 0 ++ taps ++ List.replicate (width * (numberOfAligned - 1) - i) 0

noncomputable section

-- conversion of a float to int16_t drops the fraction
def truncToInt16 (x : ℝ) : Int16 := Int16.ofInt (if 0 ≤ x then ⌊x⌋ else ⌈x⌉)

def quantiseTaps (taps : List ℂ) : List Int16 :=
  taps.flatMap fun tap => [truncToInt16 (tap.re * 2 ^ 15), truncToInt16 (tap.im * 2 ^ 15)]

def createAlignedTaps (f : Xlating ℂ) (bpfTaps : List ℂ) : Xlating ℂ :=
  let numberOfAlignedCf32 := max 1 (f.alignmentCf32 / 8)
  let numberOfAlignedCs16 := max 1 (f.alignmentCs16 / 2)
  { f with
    tapsCf32 := (List.range numberOfAlignedCf32).map (alignedTaps bpfTaps 1 numberOfAlignedCf32)
    numberOfAlignedCf32
    tapsCs16 := (List.range numberOfAlignedCs16).map
      (alignedTaps (quantiseTaps bpfTaps) 2 numberOfAlignedCs16)
    numberOfAlignedCs16 }

-- `heap` chooses the two blocks of 32 bytes at which aligned_alloc places the working buffers
def createFrequencyXlatingFilter (heap : Nat × Nat) (decimation : Nat) (taps : List ℝ)
    (centerFreq : Int) (samplingFreq maxInputBufferLength : Nat) : Option (Xlating ℂ) :=
  if taps.length = 0 then none
  else
    let fwT0 : ℝ := 2 * Real.pi * centerFreq / samplingFreq
    let bpfTaps := taps.mapIdx fun i (tap : ℝ) => (tap : ℂ) * Complex.exp ((i * fwT0 : ℝ) * Complex.I)
    let bpfTaps := reverseTaps bpfTaps
    let phaseIncr := Complex.exp ((-fwT0 * decimation : ℝ) * Complex.I)
    let historyOffset := taps.length - 1
    let workingBufferLenSamples := maxInputBufferLength / 2 + historyOffset
    -- division by zero traps
    if decimation = 0 then none
    else some (createAlignedTaps
      { decimation
        tapsCf32 := []
        numberOfAlignedCf32 := 0
        alignmentCf32 := 32
        tapsCs16 := []
        numberOfAlignedCs16 := 0
        alignmentCs16 := 4
        tapsLen := taps.length
        workingBufferCf32Addr := 32 * heap.1
        workingBufferCf32 := List.replicate workingBufferLenSamples 0
        workingBufferCs16Addr := 32 * heap.2
        workingBufferCs16 := List.replicate (2 * workingBufferLenSamples) 0
        historyOffset
        workingBufferLenSamples
        outputLenSampls := maxInputBufferLength / 2 / decimation + 1
        phase := 1
        phaseIncr
        phaseReal := 32767
        phaseImag := 0
        phaseIncrReal := truncToInt16 (phaseIncr.re * 32767)
        phaseIncrImag := truncToInt16 (phaseIncr.im * 32767) } bpfTaps)

end

end Xlating

end SdrServer
