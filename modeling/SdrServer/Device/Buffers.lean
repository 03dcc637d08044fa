import SdrServer.Config.Model
import SdrServer.DspWorker.Model
import SdrServer.Foundation.Transition
import SdrServer.Queue.Refinement
import SdrServer.Server.Request

namespace SdrServer
namespace Device

open Config (sdrTypeRtl sdrTypeAirspy sdrTypeHackrf sdrTypeMsi)
open Xlating (Format)

-- the switch of sdr_device_create: `none` is its default, with which no device is made
def sdrTypeOf (c : Config.ServerConfig) : Option SdrType :=
  if c.sdrType = sdrTypeRtl then some .rtl
  else if c.sdrType = sdrTypeAirspy then some .airspy
  else if c.sdrType = sdrTypeHackrf then some .hackrf
  else if c.sdrType = sdrTypeMsi then some .msi
  else none

-- what the library hands to the callback of each driver
inductive Transfer where
  | rtlsdr (nRead : Int32)
  | airspy (sampleCount : Int32)
  | hackrf (bufferLength : Int32)
  | msisdr (len : UInt32)
  deriving DecidableEq, Repr

namespace Transfer

def driver : Transfer → Driver
  | .rtlsdr _ => .rtlsdr
  | .airspy _ => .airspy
  | .hackrf _ => .hackrf
  | .msisdr _ => .msisdr

-- the uint32_t that the callback passes on to sdr_callback
def len : Transfer → UInt32
  | .rtlsdr nRead => nRead.toUInt32
  | .airspy sampleCount => sampleCount.toUInt32 * 2 * 2
  | .hackrf bufferLength => bufferLength.toUInt32
  | .msisdr len => len

-- what the libraries promise: rtlsdr_read_sync is asked for `(int) output_len` bytes and
-- msisdr_read_async for buffer_size of them
def Promised (c : Config.ServerConfig) : Transfer → Prop
  | .rtlsdr nRead => 0 ≤ nRead ∧ nRead ≤ c.bufferSize.toInt32
  | .airspy sampleCount => 0 ≤ sampleCount ∧ sampleCount ≤ 65536
  | .hackrf bufferLength => bufferLength = 262144
  | .msisdr len => len = c.bufferSize

end Transfer

def Delivers (c : Config.ServerConfig) (buf : List UInt8) : Prop :=
  ∃ sdrType transfer, sdrTypeOf c = some sdrType ∧
    Transfer.driver transfer = sdrDeviceCreate sdrType ∧ transfer.Promised c ∧
    buf.length = transfer.len.toNat

def Fed (c : Config.ServerConfig) : DspEvent → Prop
  | .process buf => Delivers c buf
  | _ => True

-- what dsp_worker_start makes of the filter taps, its files left out
noncomputable def createWorker (heap : Nat × Nat) (taps : List ℝ) (client : ClientConfig)
    (c : Config.ServerConfig) : Option (DspWorker (Xlating ℂ) ℂ) :=
  (Xlating.createFrequencyXlatingFilter heap (c.bandSamplingRate / client.samplingRate).toNat taps
    ((client.centerFreq.toNat : Int) - client.bandFreq.toNat) c.bandSamplingRate.toNat
    c.bufferSize.toNat).map (DspWorker.start c.bufferSize.toNat c.queueSize.toInt.toNat)

-- the count of the switch in the thread: bytes for cs8 and cu8, int16 elements for cs16
def filterInputLen (sdrType : SdrType) (input : List UInt8) : Nat :=
  match sdrType with
  | .hackrf => (decode .cs8 input).length
  | .rtl => (decode .cu8 input).length
  | .airspy => (decode .cs16 input).length
  | _ => 0

structure Fits (setup : DspSetup (Xlating ℂ) ℂ) (c : Config.ServerConfig)
    (w : DspWorker (Xlating ℂ) ℂ) : Prop where
  queuePut : ∀ buf t, Delivers c buf → DspWorker.step setup w (.process buf) = some t →
    buf.length ≤ c.bufferSize.toNat
  filterInput : ∀ node len, w.pc = .processing node len →
    filterInputLen setup.sdrType ((w.queue.buffer node).take len) ≤ c.bufferSize.toNat

-- over every run of every client's worker
def BuffersFit (c : Config.ServerConfig) : Prop :=
  ∀ heap taps client setup start w, createWorker heap taps client c = some start →
    sdrTypeOf c = some setup.sdrType →
    Transition.Reaches (DspWorker.step setup) (fun _ e => Fed c e) start w → Fits setup c w

structure Bounded {F O : Type} (size : Nat) (w : DspWorker F O) : Prop where
  len : ∀ node, w.queue.len node ≤ size
  taken : ∀ node len, w.pc = .processing node len → len ≤ size

theorem takeBufferForProcessing_len {q r : Queue} {taken : Queue.Taken}
    (h : q.takeBufferForProcessing = (taken, r)) :
    r.len = q.len ∧ ∀ node len, taken = .buffer node len → len = q.len node := by
  unfold Queue.takeBufferForProcessing at h
  cases hfilled : q.firstFilledNode with
  | none =>
    rw [hfilled] at h
    cases hpill : q.poisonPill <;> rw [hpill] at h <;> obtain ⟨rfl, rfl⟩ := Prod.mk.inj h <;>
      exact ⟨rfl, by simp⟩
  | some node =>
    rw [hfilled] at h
    obtain ⟨rfl, rfl⟩ := Prod.mk.inj h
    refine ⟨rfl, ?_⟩
    intro node' len heq
    cases heq
    rfl

section Runs

variable {F O : Type} {setup : DspSetup F O} {size : Nat} {w t : DspWorker F O}

theorem bounded_start (queueSize : Nat) (filter : F) :
    Bounded size (DspWorker.start (O := O) size queueSize filter) where
  len := fun _ => Nat.zero_le size
  taken := by
    intro node len h
    cases h

theorem bounded_step {e : DspEvent} (hw : Bounded size w)
    (hfed : ∀ buf, e = .process buf → buf.length ≤ size) (h : DspWorker.step setup w e = some t) :
    Bounded size t := by
  cases DspWorker.step_acts h with
  | @process buf queue hrun hput =>
    obtain ⟨filled, hlen⟩ := (Queue.queuePut_frame hput).len
    refine ⟨?_, hw.taken⟩
    intro node
    simp only [hlen, Function.update_apply]
    split
    · exact hfed buf rfl
    · exact hw.len node
  | destroy => exact ⟨hw.len, hw.taken⟩
  | ends hpc htake =>
    obtain ⟨hlen, -⟩ := takeBufferForProcessing_len htake
    exact ⟨fun node => hlen ▸ hw.len node, by simp⟩
  | takes hpc htake =>
    obtain ⟨hlen, htaken⟩ := takeBufferForProcessing_len htake
    refine ⟨fun node => hlen ▸ hw.len node, ?_⟩
    intro node len hprocessing
    obtain ⟨rfl, rfl⟩ := DspPc.processing.inj hprocessing
    exact htaken _ _ rfl ▸ hw.len _
  | filterInput => exact ⟨hw.len, by simp⟩
  | write => exact ⟨hw.len, by simp⟩
  | writeError => exact ⟨hw.len, by simp⟩
  | complete | completeFailed =>
    exact ⟨fun node => w.queue.complete_frame.len ▸ hw.len node, by simp⟩

end Runs

theorem quadruple_le {count : UInt32} (h : count ≤ 65536) : (count * 2 * 2).toNat ≤ 262144 := by
  have hcount : count.toNat ≤ 65536 := h
  simp only [UInt32.toNat_mul, UInt32.reduceToNat]
  omega

theorem littleEndianInt16s_length (input : List UInt8) :
    (littleEndianInt16s input).length ≤ input.length := by
  induction input using littleEndianInt16s.induct with
  | case1 low high rest ih =>
    simp only [littleEndianInt16s, List.length_cons]
    omega
  | case2 input hshort =>
    rw [littleEndianInt16s]
    · exact Nat.zero_le _
    · exact hshort

theorem filterInputLen_le (sdrType : SdrType) (input : List UInt8) :
    filterInputLen sdrType input ≤ input.length := by
  cases sdrType with
  | rtl => exact Nat.le_refl _
  | airspy => exact littleEndianInt16s_length input
  | hackrf => exact Nat.le_of_eq (List.length_map _)
  | msi => exact Nat.zero_le _

theorem sdrTypeOf_hackrf {c : Config.ServerConfig} :
    sdrTypeOf c = some .hackrf ↔ c.sdrType = sdrTypeHackrf := by
  unfold sdrTypeOf
  constructor
  · intro h
    split at h
    · cases h
    · split at h
      · cases h
      · split at h
        · assumption
        · split at h <;> cases h
  · intro h
    simp [h, sdrTypeRtl, sdrTypeAirspy, sdrTypeHackrf]

theorem sdrTypeOf_airspy {c : Config.ServerConfig} :
    sdrTypeOf c = some .airspy ↔ c.sdrType = sdrTypeAirspy := by
  unfold sdrTypeOf
  constructor
  · intro h
    split at h
    · cases h
    · split at h
      · assumption
      · split at h
        · cases h
        · split at h <;> cases h
  · intro h
    simp [h, sdrTypeRtl, sdrTypeAirspy]

section Accepted

variable {tmpdir : Option String} {file : Except String Config.Libconfig}
  {c : Config.ServerConfig}

theorem airspy_bufferSize (h : Config.createServerConfig tmpdir file = .ok c)
    (hairspy : c.sdrType = sdrTypeAirspy) : c.bufferSize = Config.airspyBufferSize := by
  obtain ⟨-, bufferSize, hforced⟩ := Config.createServerConfig_ok h
  rw [hforced, hairspy, Config.forcedBufferSize_airspy]

theorem delivers_le (h : Config.createServerConfig tmpdir file = .ok c)
    (hhackrf : c.sdrType = sdrTypeHackrf → 262144 ≤ c.bufferSize) {buf : List UInt8}
    (hbuf : Delivers c buf) : buf.length ≤ c.bufferSize.toNat := by
  obtain ⟨sdrType, transfer, htype, hdriver, hpromised, hlen⟩ := hbuf
  rw [hlen]
  cases transfer with
  | rtlsdr nRead =>
    have hread := Int32.toUInt32_le hpromised.1 hpromised.2
    rw [UInt32.toUInt32_toInt32] at hread
    exact hread
  | airspy sampleCount =>
    cases sdrType <;> cases hdriver
    rw [airspy_bufferSize h (sdrTypeOf_airspy.mp htype)]
    have hcount := Int32.toUInt32_le hpromised.1 hpromised.2
    exact quadruple_le hcount
  | hackrf bufferLength =>
    cases sdrType <;> cases hdriver
    obtain rfl := hpromised
    exact hhackrf (sdrTypeOf_hackrf.mp htype)
  | msisdr len =>
    obtain rfl := hpromised
    exact Nat.le_refl _

theorem createWorker_start {heap : Nat × Nat} {taps : List ℝ} {client : ClientConfig}
    {start : DspWorker (Xlating ℂ) ℂ} (h : createWorker heap taps client c = some start) :
    ∃ filter, start = DspWorker.start c.bufferSize.toNat c.queueSize.toInt.toNat filter := by
  obtain ⟨filter, -, rfl⟩ := Option.map_eq_some_iff.mp h
  exact ⟨filter, rfl⟩

theorem buffersFit_of_delivers (h : ∀ buf, Delivers c buf → buf.length ≤ c.bufferSize.toNat) :
    BuffersFit c := by
  intro heap taps client setup start w hcreate htype hreach
  obtain ⟨filter, rfl⟩ := createWorker_start hcreate
  have hbounded : Bounded c.bufferSize.toNat w := by
    apply hreach.invariant (bounded_start _ _)
    intro s e t _ hs hfed hstep
    apply bounded_step hs _ hstep
    rintro buf rfl
    exact h buf hfed
  constructor
  · intro buf t hbuf _
    exact h buf hbuf
  · intro node len hpc
    have htake : ((w.queue.buffer node).take len).length ≤ len := List.length_take_le _ _
    exact Nat.le_trans (filterInputLen_le _ _) (Nat.le_trans htake (hbounded.taken node len hpc))

theorem queuePut_createQueue (bufferSize : Nat) {queueSize : Nat} (hpos : 0 < queueSize)
    (data : List UInt8) : ∃ q, (Queue.createQueue bufferSize queueSize).queuePut data = some q := by
  have hshape := Queue.shape_createQueue bufferSize queueSize
  have hfirst := Chain.path_head _ hshape.freePath
  cases queueSize with
  | zero => cases hpos
  | succ n =>
    rw [List.range_succ_eq_map] at hfirst
    unfold Queue.queuePut
    rw [hfirst]
    exact ⟨_, rfl⟩

theorem createWorker_noRate (hrate : c.bandSamplingRate = 0) (heap : Nat × Nat) (taps : List ℝ)
    (client : ClientConfig) : createWorker heap taps client c = none := by
  have hzero : (c.bandSamplingRate / client.samplingRate).toNat = 0 := by
    rw [hrate, UInt32.zero_div]
    rfl
  unfold createWorker Xlating.createFrequencyXlatingFilter
  rw [hzero]
  split <;> rfl

def wholeBand (c : Config.ServerConfig) : ClientConfig where
  centerFreq := 100000000
  samplingRate := c.bandSamplingRate
  bandFreq := 100000000
  destination := requestDestinationFile
  clientSocket := 0
  id := 0

theorem createWorker_wholeBand (hrate : c.bandSamplingRate ≠ 0) :
    ∃ start, createWorker (0, 0) [1] (wholeBand c) c = some start := by
  have hpos : 0 < c.bandSamplingRate.toNat := by
    apply Nat.pos_of_ne_zero
    intro hzero
    exact hrate (UInt32.toNat_inj.mp hzero)
  have hone : (c.bandSamplingRate / (wholeBand c).samplingRate).toNat = 1 := by
    rw [wholeBand, UInt32.toNat_div, Nat.div_self hpos]
  unfold createWorker Xlating.createFrequencyXlatingFilter
  rw [hone]
  exact ⟨_, rfl⟩

def unread (sdrType : SdrType) : DspSetup (Xlating ℂ) ℂ where
  sdrType := sdrType
  destination := .file
  useGzip := false
  xlatingProcessCu8 := fun _ filter => ([], filter)
  xlatingProcessCs8 := fun _ filter => ([], filter)
  xlatingProcessCs16 := fun _ filter => ([], filter)
  floatComplex := fun _ => List.replicate 8 0
  sizeofFloatComplex := fun _ => List.length_replicate

theorem delivers_hackrf (htype : c.sdrType = sdrTypeHackrf) :
    Delivers c (List.replicate 262144 0) := by
  refine ⟨.hackrf, .hackrf 262144, sdrTypeOf_hackrf.mpr htype, rfl, rfl, ?_⟩
  rw [List.length_replicate]
  rfl

theorem bufferSize_of_fits (h : Config.createServerConfig tmpdir file = .ok c)
    (hfits : BuffersFit c) (htype : c.sdrType = sdrTypeHackrf) (hrate : c.bandSamplingRate ≠ 0) :
    262144 ≤ c.bufferSize := by
  obtain ⟨start, hcreate⟩ := createWorker_wholeBand hrate
  obtain ⟨filter, hstart⟩ := createWorker_start hcreate
  have hsize : 0 < c.queueSize.toInt.toNat := by
    have hpos := Int32.lt_iff_toInt_lt.mp (Config.createServerConfig_ok h).1
    exact Int.pos_iff_toNat_pos.mp hpos
  obtain ⟨queue, hput⟩ := queuePut_createQueue c.bufferSize.toNat hsize
    (List.replicate 262144 0)
  have hstep : DspWorker.step (unread .hackrf) start (.process (List.replicate 262144 0)) =
      some { start with queue, puts := start.puts ++ [List.replicate 262144 0] } := by
    subst hstart
    simp only [DspWorker.step, DspWorker.start, hput, Option.map_some]
    rfl
  have hle := (hfits _ _ _ (unread .hackrf) start start hcreate (sdrTypeOf_hackrf.mpr htype)
    .start).queuePut _ _ (delivers_hackrf htype) hstep
  rw [List.length_replicate] at hle
  exact hle

end Accepted

def settings (sdrType bufferSize : Int32) : Config.Libconfig := fun name =>
  if name = "sdr_type" then some ⟨sdrType, 0, false, none⟩
  else if name = "buffer_size" then some ⟨bufferSize, 0, false, none⟩
  else if name = "band_sampling_rate" then some ⟨2400000, 0, false, none⟩
  else none

end Device
end SdrServer
