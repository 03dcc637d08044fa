import SdrServer.DspWorker.Model
import SdrServer.Queue.Delivery

namespace SdrServer

open Xlating (Format)

variable {F O : Type}

namespace DspSetup

def filtered (c : DspSetup F O) (format : Format) : List (List UInt8) → F → List O × F
  | [], filter => ([], filter)
  | input :: inputs, filter =>
    let (output, filter) := c.process format (decode format input) filter
    let (outputs, filter) := filtered c format inputs filter
    (output ++ outputs, filter)

def deviceStream (c : DspSetup F O) (inputs : List (List UInt8)) (filter : F) : List O :=
  (c.filtered (sdrDeviceCreate c.sdrType).sampleFormat inputs filter).1

def handled (c : DspSetup F O) (inputs : List (List UInt8)) (filter : F) : List O × F :=
  if c.sdrType = .msi then ([], filter)
  else c.filtered (sdrDeviceCreate c.sdrType).sampleFormat inputs filter

theorem filtered_append (c : DspSetup F O) (format : Format) (inputs : List (List UInt8))
    (input : List UInt8) (filter : F) :
    c.filtered format (inputs ++ [input]) filter =
      ((c.filtered format inputs filter).1 ++
          (c.process format (decode format input) (c.filtered format inputs filter).2).1,
        (c.process format (decode format input) (c.filtered format inputs filter).2).2) := by
  induction inputs generalizing filter with
  | nil => simp [filtered]
  | cons head inputs ih => simp only [List.cons_append, filtered, ih, List.append_assoc]

theorem bytes_append (c : DspSetup F O) (first second : List O) :
    c.bytes (first ++ second) = c.bytes first ++ c.bytes second := List.flatMap_append

theorem bytes_eq_nil (c : DspSetup F O) (output : List O) : c.bytes output = [] ↔ output = [] := by
  constructor
  · intro h
    cases output with
    | nil => rfl
    | cons o rest =>
      have hsize := c.sizeofFloatComplex o
      rw [bytes, List.flatMap_cons, List.append_eq_nil_iff] at h
      rw [h.1] at hsize
      cases hsize
  · rintro rfl
    rfl

end DspSetup

namespace DspWorker

variable {c : DspSetup F O} {bufferSize queueSize : Nat} {filter : F} {w t : DspWorker F O}
  {free filled : List Nat} {done : List (List UInt8)}

def inHand (w : DspWorker F O) : List (List UInt8) :=
  match w.pc with
  | .processing node _ => [w.queue.contents node]
  | _ => []

def left (w : DspWorker F O) : List UInt8 :=
  match w.pc with
  | .writing left => left
  | _ => []

def Holds (w : DspWorker F O) : Prop :=
  match w.pc with
  | .taking => w.queue.detachedNode = none
  | .processing node len => w.queue.detachedNode = some node ∧ w.queue.len node = len
  | .writing _ => ∃ node, w.queue.detachedNode = some node
  | .failed => False
  | .ended => w.queue.firstFilledNode = none ∧ w.destroying = true

structure Streams (c : DspSetup F O) (bufferSize queueSize : Nat) (filter : F) (w : DspWorker F O)
    (free filled : List Nat) (done : List (List UInt8)) : Prop where
  shape : Queue.Shape bufferSize queueSize w.queue free filled
  holds : w.Holds
  poison : w.queue.poisonPill = w.destroying
  carried : w.filter = (c.handled done filter).2
  idle : c.sdrType = .msi → w.filterOutput = []
  puts : w.puts = done ++ w.inHand ++ filled.map w.queue.contents
  bytes : w.written c.sink ++ w.left = c.bytes (c.handled done filter).1

-- no overflow, buffers that fit, and no write that fails
def Succeeds (bufferSize : Nat) (w : DspWorker F O) : DspEvent → Prop
  | .process buf => w.queue.firstFreeNode ≠ none ∧ buf.length ≤ bufferSize
  | .writeError => False
  | _ => True

instance (bufferSize : Nat) (w : DspWorker F O) (e : DspEvent) :
    Decidable (Succeeds bufferSize w e) :=
  match e with
  | .process _ => inferInstanceAs (Decidable (_ ∧ _))
  | .writeError => inferInstanceAs (Decidable False)
  | .destroy => inferInstanceAs (Decidable True)
  | .takeBuffer => inferInstanceAs (Decidable True)
  | .filterInput => inferInstanceAs (Decidable True)
  | .write _ => inferInstanceAs (Decidable True)
  | .completeBuffer => inferInstanceAs (Decidable True)

theorem streams_start : Streams c bufferSize queueSize filter
    (start bufferSize queueSize filter : DspWorker F O) (List.range queueSize) [] [] := by
  refine ⟨Queue.shape_createQueue bufferSize queueSize, ?_, rfl, ?_, fun _ => rfl, rfl, ?_⟩
  · rfl
  · simp [DspSetup.handled, DspSetup.filtered, start]
  · by_cases hmsi : c.sdrType = .msi <;>
      simp [DspSetup.handled, DspSetup.filtered, start, left, DspSetup.bytes, hmsi]

theorem filterInput_msi (hmsi : c.sdrType = .msi) (input : List UInt8) :
    w.filterInput c input = (w.filterOutput, w.filter) := by
  simp only [filterInput, hmsi]

theorem filterInput_device (hmsi : c.sdrType ≠ .msi) (input : List UInt8) :
    w.filterInput c input = c.process (sdrDeviceCreate c.sdrType).sampleFormat
      (decode (sdrDeviceCreate c.sdrType).sampleFormat input) w.filter := by
  unfold filterInput
  cases hc : c.sdrType with
  | rtl => rfl
  | airspy => rfl
  | hackrf => rfl
  | msi => exact absurd hc hmsi

theorem handled_append (h : Streams c bufferSize queueSize filter w free filled done)
    (input : List UInt8) :
    c.handled (done ++ [input]) filter =
      ((c.handled done filter).1 ++ (w.filterInput c input).1, (w.filterInput c input).2) := by
  have hfilter := h.carried
  by_cases hmsi : c.sdrType = .msi
  · simp only [DspSetup.handled, if_pos hmsi] at hfilter ⊢
    rw [filterInput_msi hmsi, h.idle hmsi, hfilter, List.append_nil]
  · simp only [DspSetup.handled, if_neg hmsi] at hfilter ⊢
    rw [c.filtered_append, filterInput_device hmsi, hfilter]

theorem put_room {q : Queue} {data : List UInt8} (h : Queue.Shape bufferSize queueSize q free filled)
    (hfree : q.firstFreeNode ≠ none) (hfits : data.length ≤ bufferSize) :
    ∃ r free' filled', q.queuePut data = some r ∧
      Queue.Shape bufferSize queueSize r free' filled' ∧
      filled'.map r.contents = filled.map q.contents ++ [data] := by
  cases free with
  | nil => exact absurd h.freePath hfree
  | cons node rest =>
    obtain ⟨r, hr, hs, ha⟩ := h.put_room hfits
    exact ⟨r, rest, filled ++ [node], hr, hs, congrArg Fifo.pending ha⟩

theorem streams_process {buf : List UInt8} {queue : Queue}
    (hok : Succeeds bufferSize w (.process buf))
    (h : Streams c bufferSize queueSize filter w free filled done) (hrun : w.destroying = false)
    (hput : w.queue.queuePut buf = some queue) :
    ∃ free' filled' done', Streams c bufferSize queueSize filter
      { w with queue, puts := w.puts ++ [buf] } free' filled' done' := by
  obtain ⟨r, free', filled', hr, hs, hmap⟩ := put_room h.shape hok.1 hok.2
  obtain rfl := Option.some.inj (hput.symm.trans hr)
  have hframe := Queue.queuePut_frame hr
  have hdet := hframe.detached
  have hholds := h.holds
  have hputs := h.puts
  have hbytes := h.bytes
  refine ⟨free', filled', done, hs, ?_, hframe.poison.trans h.poison, h.carried, h.idle, ?_, ?_⟩
  · cases hpc : w.pc with
    | taking =>
      simp only [Holds, hpc, hdet] at hholds ⊢
      exact hholds
    | processing node len =>
      simp only [Holds, hpc, hdet] at hholds ⊢
      exact ⟨hholds.1, (Queue.System.put_untouched h.shape hholds.1 hr).2.trans hholds.2⟩
    | writing left =>
      simp only [Holds, hpc, hdet] at hholds ⊢
      exact hholds
    | failed => simp only [Holds, hpc] at hholds
    | ended =>
      simp only [Holds, hpc] at hholds
      exact absurd hholds.2 (by simp [hrun])
  · change w.puts ++ [buf] = _
    rw [hmap, hputs]
    cases hpc : w.pc with
    | processing node len =>
      simp only [Holds, hpc] at hholds
      have hun := Queue.System.put_untouched h.shape hholds.1 hr
      simp only [inHand, hpc, Queue.contents, hun, List.append_assoc]
    | _ => simp only [inHand, hpc, List.append_assoc]
  · exact hbytes

structure Follows (c : DspSetup F O) (e : DspEvent) (w t : DspWorker F O) : Prop where
  step : w.step c e = some t
  destroying : t.destroying = w.destroying
  puts : t.puts = w.puts

theorem contents_take (q : Queue) : q.takeBufferForProcessing.2.contents = q.contents := by
  unfold Queue.takeBufferForProcessing
  cases q.firstFilledNode with
  | none => cases q.poisonPill <;> rfl
  | some node => rfl

theorem takeBuffer_filled {node : Nat} {rest : List Nat}
    (h : Streams c bufferSize queueSize filter w free (node :: rest) done) (hpc : w.pc = .taking) :
    ∃ t, Follows c .takeBuffer w t ∧ t.pc = .processing node (w.queue.len node) ∧
      Streams c bufferSize queueSize filter t free rest done := by
  have hholds := h.holds
  have hputs := h.puts
  have hbytes := h.bytes
  simp only [Holds, hpc] at hholds
  simp only [inHand, hpc, List.append_nil] at hputs
  simp only [left, hpc] at hbytes
  have hf : w.queue.firstFilledNode = some node := h.shape.filledPath.1
  have htake : w.queue.takeBufferForProcessing =
      (.buffer node (w.queue.len node), w.queue.takeBufferForProcessing.2) := by
    simp only [Queue.takeBufferForProcessing, hf]
  have hdet : w.queue.takeBufferForProcessing.2.detachedNode = some node := by
    simp only [Queue.takeBufferForProcessing, hf]
  have hpoison : w.queue.takeBufferForProcessing.2.poisonPill = w.queue.poisonPill := by
    simp only [Queue.takeBufferForProcessing, hf]
  have hlen : w.queue.takeBufferForProcessing.2.len = w.queue.len := by
    simp only [Queue.takeBufferForProcessing, hf]
  refine ⟨{ w with
      queue := w.queue.takeBufferForProcessing.2, pc := .processing node (w.queue.len node) },
    ⟨?_, rfl, rfl⟩, rfl, h.shape.take hholds, ⟨hdet, congrFun hlen node⟩, hpoison.trans h.poison,
    h.carried, h.idle, ?_, hbytes⟩
  · simp only [step, hpc]
    rw [htake]
  · change w.puts = done ++ [w.queue.takeBufferForProcessing.2.contents node] ++
      rest.map w.queue.takeBufferForProcessing.2.contents
    rw [contents_take, hputs, List.map_cons, List.append_assoc]
    rfl

theorem takeBuffer_empty (h : Streams c bufferSize queueSize filter w free [] done)
    (hpc : w.pc = .taking) (hd : w.destroying = true) :
    ∃ t, Follows c .takeBuffer w t ∧ t.pc = .ended ∧
      Streams c bufferSize queueSize filter t free [] done := by
  have hputs := h.puts
  have hbytes := h.bytes
  have hpoison := h.poison
  simp only [inHand, hpc] at hputs
  simp only [left, hpc] at hbytes
  have hf : w.queue.firstFilledNode = none := h.shape.filledPath
  rw [hd] at hpoison
  refine ⟨{ w with pc := .ended }, ⟨?_, rfl, rfl⟩, rfl, h.shape, ⟨hf, hd⟩, h.poison, h.carried,
    h.idle, hputs, hbytes⟩
  simp only [step, hpc, Queue.takeBufferForProcessing, hf, hpoison, if_true]

theorem filterInput_next {node len : Nat}
    (h : Streams c bufferSize queueSize filter w free filled done)
    (hpc : w.pc = .processing node len) :
    ∃ t left, Follows c .filterInput w t ∧ t.pc = .writing left ∧
      Streams c bufferSize queueSize filter t free filled (done ++ [w.queue.contents node]) := by
  have hholds := h.holds
  have hputs := h.puts
  have hbytes := h.bytes
  simp only [Holds, hpc] at hholds
  simp only [inHand, hpc] at hputs
  simp only [left, hpc, List.append_nil] at hbytes
  have hcontents : (w.queue.buffer node).take len = w.queue.contents node := by
    rw [Queue.contents, hholds.2]
  refine ⟨{ w with
      filter := (w.filterInput c (w.queue.contents node)).2
      filterOutput := (w.filterInput c (w.queue.contents node)).1
      pc := .writing (c.bytes (w.filterInput c (w.queue.contents node)).1) },
    _, ⟨?_, rfl, rfl⟩, rfl, h.shape, ⟨node, hholds.1⟩, h.poison, ?_, ?_, ?_, ?_⟩
  · simp only [step, hpc, hcontents]
  · rw [handled_append h]
  · intro hmsi
    change (w.filterInput c _).1 = []
    rw [filterInput_msi hmsi]
    exact h.idle hmsi
  · change w.puts = done ++ [w.queue.contents node] ++ [] ++ _
    rw [hputs, List.append_nil]
  · change w.written c.sink ++ c.bytes _ = _
    rw [handled_append h, c.bytes_append, hbytes]

theorem write_next {n : Nat} {rest : List UInt8}
    (h : Streams c bufferSize queueSize filter w free filled done) (hpc : w.pc = .writing rest)
    (hn : 0 < n ∧ n ≤ rest.length ∧ (c.destination = .file → n = rest.length)) :
    ∃ t, Follows c (.write n) w t ∧ t.pc = .writing (rest.drop n) ∧
      Streams c bufferSize queueSize filter t free filled done := by
  have hholds := h.holds
  have hputs := h.puts
  have hbytes := h.bytes
  simp only [Holds, hpc] at hholds
  simp only [inHand, hpc] at hputs
  simp only [left, hpc] at hbytes
  refine ⟨{ w with
      pc := .writing (rest.drop n)
      written := Function.update w.written c.sink (w.written c.sink ++ rest.take n) },
    ⟨?_, rfl, rfl⟩, rfl, h.shape, hholds, h.poison, h.carried, h.idle, hputs, ?_⟩
  · simp only [step, hpc, if_pos hn]
  · change Function.update w.written c.sink _ c.sink ++ rest.drop n = _
    rw [Function.update_self, List.append_assoc, List.take_append_drop, hbytes]

theorem completeBuffer_next (h : Streams c bufferSize queueSize filter w free filled done)
    (hpc : w.pc = .writing []) :
    ∃ t free', Follows c .completeBuffer w t ∧ t.pc = .taking ∧
      Streams c bufferSize queueSize filter t free' filled done := by
  have hholds := h.holds
  have hputs := h.puts
  have hbytes := h.bytes
  simp only [Holds, hpc] at hholds
  simp only [inHand, hpc] at hputs
  simp only [left, hpc] at hbytes
  obtain ⟨node, hnode⟩ := hholds
  have hframe := w.queue.complete_frame
  refine ⟨{ w with queue := w.queue.completeBufferProcessing, pc := .taking }, free ++ [node],
    ⟨?_, rfl, rfl⟩, rfl, h.shape.complete hnode, hframe.detached, hframe.poison.trans h.poison,
    h.carried, h.idle, ?_, hbytes⟩
  · simp only [step, hpc]
  · change w.puts = done ++ [] ++ filled.map w.queue.completeBufferProcessing.contents
    rw [hframe.contents, hputs]

theorem streams_destroy (h : Streams c bufferSize queueSize filter w free filled done)
    (hrun : w.destroying = false) :
    Streams c bufferSize queueSize filter
      { w with queue := w.queue.interruptWaitingTheData, destroying := true } free filled done := by
  have hholds := h.holds
  refine ⟨h.shape.interrupt, ?_, rfl, h.carried, h.idle, h.puts, h.bytes⟩
  cases hpc : w.pc with
  | ended =>
    simp only [Holds, hpc] at hholds
    exact absurd hholds.2 (by simp [hrun])
  | failed => simp only [Holds, hpc] at hholds
  | _ =>
    simp only [Holds, hpc] at hholds ⊢
    exact hholds

theorem streams_takeBuffer (h : Streams c bufferSize queueSize filter w free filled done)
    (hpc : w.pc = .taking) (ht : w.step c .takeBuffer = some t) :
    ∃ free' filled' done', Streams c bufferSize queueSize filter t free' filled' done' := by
  cases filled with
  | nil =>
    cases hd : w.destroying with
    | false =>
      have hf : w.queue.firstFilledNode = none := h.shape.filledPath
      have hp : w.queue.poisonPill = false := h.poison.trans hd
      simp [step, hpc, Queue.takeBufferForProcessing, hf, hp] at ht
    | true =>
      obtain ⟨r, hr, -, hs⟩ := takeBuffer_empty h hpc hd
      obtain rfl := Option.some.inj (ht.symm.trans hr.step)
      exact ⟨_, _, _, hs⟩
  | cons node rest =>
    obtain ⟨r, hr, -, hs⟩ := takeBuffer_filled h hpc
    obtain rfl := Option.some.inj (ht.symm.trans hr.step)
    exact ⟨_, _, _, hs⟩

theorem streams_step {e : DspEvent} (hok : Succeeds bufferSize w e)
    (h : Streams c bufferSize queueSize filter w free filled done) (ht : w.step c e = some t) :
    ∃ free' filled' done', Streams c bufferSize queueSize filter t free' filled' done' := by
  cases step_acts ht with
  | process hrun hput => exact streams_process hok h hrun hput
  | destroy hrun => exact ⟨_, _, _, streams_destroy h hrun⟩
  | ends hpc => exact streams_takeBuffer h hpc ht
  | takes hpc => exact streams_takeBuffer h hpc ht
  | filterInput hpc =>
    obtain ⟨r, -, hr, -, hs⟩ := filterInput_next h hpc
    obtain rfl := Option.some.inj (ht.symm.trans hr.step)
    exact ⟨_, _, _, hs⟩
  | write hpc hn =>
    obtain ⟨r, hr, -, hs⟩ := write_next h hpc hn
    obtain rfl := Option.some.inj (ht.symm.trans hr.step)
    exact ⟨_, _, _, hs⟩
  | writeError => exact hok.elim
  | complete hpc =>
    obtain ⟨r, free', hr, -, hs⟩ := completeBuffer_next h hpc
    obtain rfl := Option.some.inj (ht.symm.trans hr.step)
    exact ⟨_, _, _, hs⟩
  | completeFailed hpc =>
    have hholds := h.holds
    simp only [Holds, hpc] at hholds

theorem streams_reaches
    (h : Transition.Reaches (step c) (Succeeds bufferSize) (start bufferSize queueSize filter) w) :
    ∃ free filled done, Streams c bufferSize queueSize filter w free filled done := by
  refine h.invariant
    (P := fun w => ∃ free filled done, Streams c bufferSize queueSize filter w free filled done)
    ⟨_, _, _, streams_start⟩ ?_
  rintro w e t - ⟨free, filled, done, hw⟩ hok ht
  exact streams_step hok hw ht

theorem ended_written (h : Streams c bufferSize queueSize filter w free filled done)
    (hpc : w.pc = .ended) :
    w.puts = done ∧ w.written c.sink = c.bytes (c.handled done filter).1 := by
  have hholds := h.holds
  have hputs := h.puts
  have hbytes := h.bytes
  have hpath := h.shape.filledPath
  simp only [Holds, hpc] at hholds
  simp only [inHand, hpc, List.append_nil] at hputs
  simp only [left, hpc, List.append_nil] at hbytes
  rw [hholds.1] at hpath
  cases filled with
  | nil => exact ⟨by simpa using hputs, hbytes⟩
  | cons node rest => cases hpath.1

def Continues (_ : DspWorker F O) : DspEvent → Prop
  | .process _ => False
  | .destroy => False
  | .writeError => False
  | _ => True

theorem Follows.reaches {e : DspEvent} (h : Follows c e w t) (he : w.Continues e) :
    Transition.Reaches (DspWorker.step c) Continues w t := .next .start he h.step

theorem writing_completes {rest : List UInt8}
    (h : Streams c bufferSize queueSize filter w free filled done) (hpc : w.pc = .writing rest) :
    ∃ t free', Transition.Reaches (step c) Continues w t ∧ t.pc = .taking ∧
      t.destroying = w.destroying ∧ t.puts = w.puts ∧
      Streams c bufferSize queueSize filter t free' filled done := by
  cases rest with
  | nil =>
    obtain ⟨t, free', ht, htpc, hs⟩ := completeBuffer_next h hpc
    exact ⟨t, free', ht.reaches trivial, htpc, ht.destroying, ht.puts, hs⟩
  | cons b rest =>
    obtain ⟨m, hm, hmpc, hms⟩ :=
      write_next (n := (b :: rest).length) h hpc ⟨Nat.succ_pos _, le_refl _, fun _ => rfl⟩
    rw [List.drop_length] at hmpc
    obtain ⟨t, free', ht, htpc, hs⟩ := completeBuffer_next hms hmpc
    exact ⟨t, free', (hm.reaches trivial).trans (ht.reaches trivial), htpc,
      ht.destroying.trans hm.destroying, ht.puts.trans hm.puts, hs⟩

theorem processing_completes {node len : Nat}
    (h : Streams c bufferSize queueSize filter w free filled done)
    (hpc : w.pc = .processing node len) :
    ∃ t free' done', Transition.Reaches (step c) Continues w t ∧ t.pc = .taking ∧
      t.destroying = w.destroying ∧ t.puts = w.puts ∧
      Streams c bufferSize queueSize filter t free' filled done' := by
  obtain ⟨m, rest, hm, hmpc, hms⟩ := filterInput_next h hpc
  obtain ⟨t, free', ht, htpc, hd, hp, hs⟩ := writing_completes hms hmpc
  exact ⟨t, free', _, (hm.reaches trivial).trans ht, htpc, hd.trans hm.destroying, hp.trans hm.puts, hs⟩

theorem taking_ends (h : Streams c bufferSize queueSize filter w free filled done)
    (hpc : w.pc = .taking) (hd : w.destroying = true) :
    ∃ t, Transition.Reaches (step c) Continues w t ∧ t.pc = .ended ∧ t.puts = w.puts := by
  induction filled generalizing w free done with
  | nil =>
    obtain ⟨t, ht, htpc, -⟩ := takeBuffer_empty h hpc hd
    exact ⟨t, ht.reaches trivial, htpc, ht.puts⟩
  | cons node rest ih =>
    obtain ⟨m, hm, hmpc, hms⟩ := takeBuffer_filled h hpc
    obtain ⟨r, free', done', hr, hrpc, hrd, hrp, hrs⟩ := processing_completes hms hmpc
    obtain ⟨t, ht, htpc, hp⟩ := ih hrs hrpc (hrd.trans (hm.destroying.trans hd))
    exact ⟨t, ((hm.reaches trivial).trans hr).trans ht, htpc, hp.trans (hrp.trans hm.puts)⟩

theorem destroy_ends (h : Streams c bufferSize queueSize filter w free filled done)
    (hd : w.destroying = true) :
    ∃ t, Transition.Reaches (step c) Continues w t ∧ t.pc = .ended ∧ t.puts = w.puts := by
  cases hpc : w.pc with
  | taking => exact taking_ends h hpc hd
  | processing node len =>
    obtain ⟨m, _, _, hm, hmpc, hmd, hmp, hms⟩ := processing_completes h hpc
    obtain ⟨t, ht, htpc, hp⟩ := taking_ends hms hmpc (hmd.trans hd)
    exact ⟨t, hm.trans ht, htpc, hp.trans hmp⟩
  | writing rest =>
    obtain ⟨m, _, hm, hmpc, hmd, hmp, hms⟩ := writing_completes h hpc
    obtain ⟨t, ht, htpc, hp⟩ := taking_ends hms hmpc (hmd.trans hd)
    exact ⟨t, hm.trans ht, htpc, hp.trans hmp⟩
  | failed =>
    have hholds := h.holds
    simp only [Holds, hpc] at hholds
  | ended => exact ⟨w, .start, hpc, rfl⟩

def passThrough (sdrType : SdrType) : DspSetup Unit Int16 where
  sdrType := sdrType
  destination := .socket
  useGzip := false
  xlatingProcessCu8 := fun input filter => (input.map (Int16.ofNat ·.toNat), filter)
  xlatingProcessCs8 := fun input filter => (input.map Int8.toInt16, filter)
  xlatingProcessCs16 := fun input filter => (input, filter)
  floatComplex := fun sample => [sample.toUInt16.toUInt8, (sample.toUInt16 >>> 8).toUInt8, 0, 0, 0, 0, 0, 0]
  sizeofFloatComplex := fun _ => rfl

def oneBuffer : List DspEvent :=
  [.process [1, 0, 2, 0], .takeBuffer, .filterInput, .completeBuffer, .destroy, .takeBuffer]

end DspWorker

end SdrServer
