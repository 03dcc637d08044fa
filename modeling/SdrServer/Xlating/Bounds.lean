import SdrServer.Xlating.Interleaved

namespace SdrServer
namespace Xlating
namespace Block

variable {X P O : Type} {b : Block X P O} {buffer : List X} {workingLen : Nat}

-- the body finds all that it reads in the first `width * workingLen` cells
structure Inside (b : Block X P O) (workingLen : Nat) : Prop where
  positive : 0 < b.decimation
  fits : b.decimation ≤ b.tapsLen
  reads : ∀ buffer current p, b.width * workingLen ≤ buffer.length →
    current + b.tapsLen ≤ workingLen → (b.body buffer current p).isSome
  room : Decimation.count b.tapsLen b.decimation workingLen ≤ b.outputLen

theorem loop_inside (h : b.Inside workingLen) (hb : b.width * workingLen ≤ buffer.length)
    (n current produced fuel : Nat) (p : P)
    (hlast : n ≠ 0 → current + (n - 1) * b.decimation + b.tapsLen ≤ workingLen)
    (hstop : workingLen < current + n * b.decimation + b.tapsLen)
    (hfuel : n ≤ fuel) (hroom : produced + n ≤ b.outputLen) :
    ∃ os q, b.loop buffer (workingLen - (b.tapsLen - 1)) fuel current produced p =
      some (os, current + n * b.decimation, q) ∧ os.length = n := by
  have hpos := h.positive
  have hfits := h.fits
  induction n generalizing current produced fuel p with
  | zero =>
    have hge : ¬ current < workingLen - (b.tapsLen - 1) := by omega
    refine ⟨[], p, ?_, rfl⟩
    rw [loop_stop hge, Nat.zero_mul, Nat.add_zero]
  | succ n ih =>
    obtain ⟨fuel, rfl⟩ := Nat.exists_eq_add_of_le' (show 1 ≤ fuel by omega)
    have hl := hlast (by omega)
    rw [Nat.add_sub_cancel] at hl
    obtain ⟨⟨o, q⟩, hbody⟩ := Option.isSome_iff_exists.mp (h.reads buffer current p hb (by omega))
    have hstep : current + b.decimation + n * b.decimation = current + (n + 1) * b.decimation := by
      rw [Nat.succ_mul]
      omega
    obtain ⟨os, r, hloop, hlen⟩ := ih (current + b.decimation) (produced + 1) fuel q
      (by
        intro hn
        obtain ⟨k, rfl⟩ := Nat.exists_eq_succ_of_ne_zero hn
        simp only [Nat.succ_sub_one, Nat.succ_mul] at hl ⊢
        omega)
      (by omega) (by omega) (by omega)
    rw [hstep] at hloop
    refine ⟨o :: os, r, ?_, by rw [List.length_cons, hlen]⟩
    rw [loop, if_pos (by omega), if_pos (by omega), hbody]
    simp only [Option.bind_eq_bind, Option.bind_some, hloop]

theorem process_inside {historyOffset n : Nat} (h : b.Inside (historyOffset + n))
    (hb : b.width * (historyOffset + n) ≤ buffer.length) (p : P) :
    ∃ os q rest history, b.process buffer historyOffset n p = some (os, q, rest, history) ∧
      rest.length = buffer.length ∧ history < b.tapsLen ∧ os.length ≤ b.outputLen := by
  have hpos := h.positive
  have hfits := h.fits
  have hroom := h.room
  by_cases hshort : historyOffset + n < b.tapsLen
  · have hno : ¬ b.tapsLen - 1 < historyOffset + n := by omega
    refine ⟨[], p, buffer, historyOffset + n, ?_, rfl, hshort, Nat.zero_le _⟩
    simp [process, hno]
  · have hlong : b.tapsLen - 1 < historyOffset + n := by omega
    have hne : Decimation.count b.tapsLen b.decimation (historyOffset + n) ≠ 0 := by
      intro hzero
      exact hshort (Decimation.count_eq_zero.mp hzero)
    have hle := Decimation.count_mul_le hfits (historyOffset + n)
    have hlast := Decimation.count_last hne
    have hstop := Decimation.count_stop hpos b.tapsLen (historyOffset + n)
    have hrest := Decimation.rest_lt hpos hfits (historyOffset + n)
    generalize Decimation.count b.tapsLen b.decimation (historyOffset + n) = c at *
    have hpred : c - 1 ≤ (c - 1) * b.decimation := Nat.le_mul_of_pos_right _ hpos
    have hmoved : 0 < c * b.decimation := Nat.mul_pos (Nat.pos_of_ne_zero hne) hpos
    obtain ⟨os, q, hloop, hlen⟩ := loop_inside h hb c 0 0 (historyOffset + n - (b.tapsLen - 1)) p
      (fun _ => by omega) (by omega) (by omega) (by omega)
    rw [Nat.zero_add] at hloop
    have hmove : b.width * (c * b.decimation) + b.width * (historyOffset + n - c * b.decimation) ≤
        buffer.length := by
      rw [← Nat.mul_add, Nat.add_sub_of_le hle]
      exact hb
    obtain ⟨rest, hm⟩ : ∃ rest, Buffer.moveDown buffer (b.width * (c * b.decimation))
        (b.width * (historyOffset + n - c * b.decimation)) = some rest := ⟨_, if_pos hmove⟩
    refine ⟨os, b.finish q, rest, historyOffset + n - c * b.decimation, ?_,
      (Buffer.moveDown_take hm).2, hrest, by omega⟩
    simp only [process, if_pos hlong, hloop, Option.map_some, Option.bind_eq_bind, Option.bind_some,
      if_pos hle, if_pos hmoved, hm]

end Block

variable {maxLen n : Nat} {f s : Xlating ℂ} {simd : Simd}

structure InBounds (simd : Simd) (maxLen : Nat) (f : Xlating ℂ) : Prop where
  history : f.historyOffset ≤ f.tapsLen - 1
  stored : f.historyOffset + maxLen / 2 ≤ f.workingBufferLenSamples
  bufferCf32 : f.workingBufferCf32.length = f.workingBufferLenSamples
  bufferCs16 : f.workingBufferCs16.length = 2 * f.workingBufferLenSamples
  native : ∀ n ≤ maxLen / 2, (f.blockCf32 hypotNormalise).Inside (f.historyOffset + n)
  optimized : ∀ n ≤ maxLen / 2, (f.blockOptimizedCf32 simd).Inside (f.historyOffset + n)
  fixed : ∀ n ≤ maxLen / 2, f.blockCs16.Inside (f.historyOffset + n)
  aligned : ∀ current, alignedWindow f.workingBufferCs16Addr 2 f.alignmentCs16 (2 * current) =
    some (2 * current, 0)

theorem alignedTaps_length (taps : List ℂ) {i : Nat} (hi : i < 4) :
    (alignedTaps taps 1 4 i).length = taps.length + 3 := by
  simp only [alignedTaps, List.length_append, List.length_replicate]
  omega

theorem dotOptimized_isSome (simd : Simd) {addr start m : Nat} {buffer taps : List ℂ}
    (haddr : (addr + 8 * start) % 32 = 0) (h : Reads buffer taps start m) :
    (dotOptimized simd addr buffer start taps m).isSome := by
  cases simd with
  | off =>
    rw [dotOptimized, dotCf32_sum_of h]
    rfl
  | neon =>
    rw [dotOptimized, dotNeon_eq, dotCf32_sum_of (h.shorter (Nat.mod_le _ _))]
    rfl
  | avx =>
    rw [dotOptimized, dotAvx_eq _ _ _ _ haddr, dotCf32_sum_of (h.shorter (Nat.mod_le _ _))]
    rfl

theorem window_reads {reversed buffer : List ℂ} (ha : Aligned f reversed) {workingLen current : Nat}
    (hb : 1 * workingLen ≤ buffer.length) (hc : current + f.tapsLen ≤ workingLen) :
    ∃ table, f.tapsCf32[current % 4]? = some table ∧
      Reads buffer table (current - current % 4) (f.tapsLen + current % 4) := by
  have hlow : current % 4 < 4 := Nat.mod_lt _ (by decide)
  refine ⟨_, ha.tables _ hlow, ?_, ?_⟩
  · omega
  · rw [alignedTaps_length _ hlow, ha.length]
    omega

theorem inside_native (hs : Ready maxLen s) (normalise : ℂ → ℂ) (hn : n ≤ maxLen / 2) :
    (s.blockCf32 normalise).Inside (s.historyOffset + n) where
  positive := hs.sized.decimationPos
  fits := hs.sized.decimationLe
  room := count_fits hs.sized hn
  reads := by
    intro buffer current phase hb hc
    obtain ⟨reversed, ha⟩ := hs.tablesCf32
    obtain ⟨table, htable, hreads⟩ := window_reads ha hb hc
    change (s.tapCf32 buffer current phase).isSome
    simp only [tapCf32, hs.sized.alignedCf32.1, alignedWindow_cf32 _ current hs.sized.alignedCf32.2,
      htable, dotCf32_sum_of hreads, Option.bind_eq_bind, Option.bind_some, Option.isSome_some]

theorem inside_optimized (hs : Ready maxLen s) (hn : n ≤ maxLen / 2) :
    (s.blockOptimizedCf32 simd).Inside (s.historyOffset + n) where
  positive := hs.sized.decimationPos
  fits := hs.sized.decimationLe
  room := count_fits hs.sized hn
  reads := by
    intro buffer current phase hb hc
    obtain ⟨reversed, ha⟩ := hs.tablesCf32
    obtain ⟨table, htable, hreads⟩ := window_reads ha hb hc
    have haddr : (s.workingBufferCf32Addr + 8 * (current - current % 4)) % 32 = 0 := by
      have hbase := hs.sized.alignedCf32.2
      omega
    obtain ⟨temp, htemp⟩ := Option.isSome_iff_exists.mp (dotOptimized_isSome simd haddr hreads)
    change (s.tapOptimizedCf32 simd buffer current phase).isSome
    simp only [tapOptimizedCf32, hs.sized.alignedCf32.1,
      alignedWindow_cf32 _ current hs.sized.alignedCf32.2, htable, htemp, Option.bind_eq_bind,
      Option.bind_some, Option.isSome_some]

theorem inside_fixed (hs : Ready maxLen s) (hn : n ≤ maxLen / 2) :
    s.blockCs16.Inside (s.historyOffset + n) where
  positive := hs.sized.decimationPos
  fits := hs.sized.decimationLe
  room := count_fits hs.sized hn
  reads := by
    intro buffer current phase hb hc
    change 2 * (s.historyOffset + n) ≤ buffer.length at hb
    change current + s.tapsLen ≤ s.historyOffset + n at hc
    obtain ⟨table, htable, hlen⟩ := hs.tableCs16
    obtain ⟨temp, htemp⟩ := Option.isSome_iff_exists.mp
      (dotCs16_isSome buffer table (2 * current) s.tapsLen (by omega) hlen)
    change (s.tapCs16 buffer current phase).isSome
    simp only [tapCs16, hs.sized.alignedCs16.1, alignedWindow_cs16 _ current hs.sized.alignedCs16.2,
      htable, htemp, Nat.add_zero, Option.bind_eq_bind, Option.bind_some, Option.isSome_some]

theorem Ready.inBounds (hs : Ready maxLen s) (simd : Simd) : InBounds simd maxLen s where
  history := Nat.le_sub_one_of_lt hs.sized.history
  stored := by
    have hh := hs.sized.history
    rw [hs.sized.bufferLen]
    omega
  bufferCf32 := hs.sized.bufferCf32
  bufferCs16 := hs.sized.bufferCs16
  native := fun _ hn => inside_native hs _ hn
  optimized := fun _ hn => inside_optimized hs hn
  fixed := fun _ hn => inside_fixed hs hn
  aligned := by
    intro current
    rw [hs.sized.alignedCs16.1]
    exact alignedWindow_cs16 _ current hs.sized.alignedCs16.2

inductive Path where
  | native
  | optimized
  | fixed
  deriving DecidableEq, Repr

noncomputable def callBy (simd : Simd) : Path × Call → Xlating ℂ →
    Option ((List ℂ ⊕ List (Int16 × Int16)) × Xlating ℂ)
  | (.native, call), f => (callNative call f).map fun (output, f) => (.inl output, f)
  | (.optimized, call), f => (callOptimized simd call f).map fun (output, f) => (.inl output, f)
  | (.fixed, call), f => (callFixed call f).map fun (output, f) => (.inr output, f)

def produced : List ℂ ⊕ List (Int16 × Int16) → Nat
  | .inl output => output.length
  | .inr output => output.length

-- what a call may write: the phase and the buffer of either path, and the shared offset
def Writes (f g : Xlating ℂ) : Prop :=
  ∃ phase buffer phase' buffer' history,
    g = ((f.withCf32 phase buffer).withCs16 phase' buffer').withHistory history

theorem Writes.refl (f : Xlating ℂ) : Writes f f := ⟨_, _, (_, _), _, _, rfl⟩

theorem Writes.trans {g t : Xlating ℂ} (hfg : Writes f g) (hgt : Writes g t) : Writes f t := by
  obtain ⟨_, _, _, _, _, rfl⟩ := hfg
  obtain ⟨phase, buffer, phase', buffer', history, rfl⟩ := hgt
  exact ⟨phase, buffer, phase', buffer', history, rfl⟩

theorem Writes.outputLen {g : Xlating ℂ} (h : Writes f g) :
    g.outputLenSampls = f.outputLenSampls := by
  obtain ⟨_, _, _, _, _, rfl⟩ := h
  rfl

section Calls

variable {call : Call}

theorem processCf32_total {b : Block ℂ ℂ ℂ} (hs : Ready maxLen s)
    (hb : b.Inside (s.historyOffset + n)) (hwidth : b.width = 1) (htaps : b.tapsLen = s.tapsLen)
    (hout : b.outputLen = s.outputLenSampls) (hn : n ≤ maxLen / 2) {stored : List ℂ}
    (hlen : stored.length = s.workingBufferCf32.length) :
    ∃ output t, (b.process stored s.historyOffset n s.phase).map
        (fun r => (r.1, (s.withCf32 r.2.1 r.2.2.1).withHistory r.2.2.2)) = some (output, t) ∧
      Ready maxLen t ∧ output.length ≤ s.outputLenSampls ∧ Writes s t := by
  have hstored := (hs.inBounds .off).stored
  have hroom : b.width * (s.historyOffset + n) ≤ stored.length := by
    rw [hwidth, hlen, hs.sized.bufferCf32]
    omega
  obtain ⟨os, q, rest, history, hprocess, hrest, hhistory, hos⟩ :=
    Block.process_inside hb hroom s.phase
  rw [hprocess]
  refine ⟨os, _, rfl, ⟨?_, hs.tablesCf32.imp fun _ h => ⟨h.length, h.tables⟩, hs.tableCs16⟩,
    hout ▸ hos, q, rest, (s.phaseReal, s.phaseImag), s.workingBufferCs16, history, rfl⟩
  exact { hs.sized with
    bufferCf32 := (hrest.trans hlen).trans hs.sized.bufferCf32
    history := htaps ▸ hhistory }

theorem storeCf32_total (hs : Ready maxLen s) (hwhole : Whole maxLen call) :
    ∃ stored, stored.length = s.workingBufferCf32.length ∧
      storeCf32 call.1.toCf32 call.2 s = some { s with workingBufferCf32 := stored } := by
  have hstored := (hs.inBounds .off).stored
  have hhalf := Nat.div_le_div_right (c := 2) hwhole.2
  have hstore := Buffer.storeAt_eq s.workingBufferCf32 (samples call.1.toCf32 call.2)
    s.historyOffset (by rw [samples_length, hs.sized.bufferCf32]; omega)
  refine ⟨_, Buffer.storeAt_length hstore, ?_⟩
  rw [storeCf32, hstore, Option.map_some]

theorem callCf32_total {process : Nat → Xlating ℂ → Option (List ℂ × Xlating ℂ)}
    (hs : Ready maxLen s) (hwhole : Whole maxLen call)
    (hprocess : ∀ stored, stored.length = s.workingBufferCf32.length →
      ∃ b : Block ℂ ℂ ℂ, b.Inside (s.historyOffset + call.2.length / 2) ∧ b.width = 1 ∧
        b.tapsLen = s.tapsLen ∧ b.outputLen = s.outputLenSampls ∧
        process (call.2.length / 2) { s with workingBufferCf32 := stored } =
          (b.process stored s.historyOffset (call.2.length / 2) s.phase).map
            fun r => (r.1, (s.withCf32 r.2.1 r.2.2.1).withHistory r.2.2.2)) :
    ∃ output t, (storeCf32 call.1.toCf32 call.2 s).bind (process (call.2.length / 2)) =
        some (output, t) ∧
      Ready maxLen t ∧ output.length ≤ s.outputLenSampls ∧
      Writes s t := by
  obtain ⟨stored, hlen, hstore⟩ := storeCf32_total hs hwhole
  obtain ⟨b, hb, hwidth, htaps, hout, hsame⟩ := hprocess stored hlen
  obtain ⟨output, t, ht, hready⟩ := processCf32_total hs hb hwidth htaps hout
    (Nat.div_le_div_right hwhole.2) hlen
  exact ⟨output, t, by rw [hstore, Option.bind_some, hsame, ht], hready⟩

theorem callNative_inside (hs : Ready maxLen s) (hwhole : Whole maxLen call) :
    ∃ output t, callNative call s = some (output, t) ∧ Ready maxLen t ∧
      output.length ≤ s.outputLenSampls ∧ Writes s t := by
  rw [callNative, Format.processCf32_eq]
  apply callCf32_total hs hwhole
  intro stored _
  exact ⟨s.blockCf32 hypotNormalise, inside_native hs _ (Nat.div_le_div_right hwhole.2), rfl, rfl,
    rfl, rfl⟩

theorem callOptimized_inside (hs : Ready maxLen s) (hwhole : Whole maxLen call) :
    ∃ output t, callOptimized simd call s = some (output, t) ∧ Ready maxLen t ∧
      output.length ≤ s.outputLenSampls ∧ Writes s t := by
  have hfeed : callOptimized simd call s = feedOptimizedCf32 simd call.1.toCf32 call.2 s := by
    obtain ⟨format, input⟩ := call
    cases format <;> rfl
  have hhalf := Nat.div_le_div_right (c := 2) hwhole.2
  rw [hfeed]
  apply callCf32_total hs hwhole
  intro stored _
  cases simd with
  | off => exact ⟨s.blockCf32 hypotNormalise, inside_native hs _ hhalf, rfl, rfl, rfl, rfl⟩
  | neon => exact ⟨s.blockOptimizedCf32 .neon, inside_optimized hs hhalf, rfl, rfl, rfl, rfl⟩
  | avx => exact ⟨s.blockOptimizedCf32 .avx, inside_optimized hs hhalf, rfl, rfl, rfl, rfl⟩

theorem callFixed_inside (hs : Ready maxLen s) (hwhole : Whole maxLen call) :
    ∃ output t, callFixed call s = some (output, t) ∧ Ready maxLen t ∧
      output.length ≤ s.outputLenSampls ∧ Writes s t := by
  have hstored := (hs.inBounds .off).stored
  have hhalf := Nat.div_le_div_right (c := 2) hwhole.2
  have heven := hwhole.1
  have hstore := Buffer.storeAt_eq s.workingBufferCs16 (call.2.map call.1.toCs16)
    (2 * s.historyOffset) (by rw [List.length_map, hs.sized.bufferCs16]; omega)
  have hlen := Buffer.storeAt_length hstore
  generalize s.workingBufferCs16.take _ ++ _ ++ _ = stored at hstore hlen
  have hroom : s.blockCs16.width * (s.historyOffset + call.2.length / 2) ≤ stored.length := by
    change 2 * (s.historyOffset + call.2.length / 2) ≤ stored.length
    rw [hlen, hs.sized.bufferCs16]
    omega
  obtain ⟨os, q, rest, history, hprocess, hrest, hhistory, hos⟩ :=
    Block.process_inside (inside_fixed hs hhalf) hroom (s.phaseReal, s.phaseImag)
  have hcall : callFixed call s =
      some (os, (s.withCs16 q rest).withHistory history) := by
    rw [callFixed, Format.processCs16_eq, feedCs16, storeCs16, hstore, Option.map_some,
      Option.bind_some]
    change (s.blockCs16.process _ _ _ _).map _ = _
    rw [hprocess]
    rfl
  refine ⟨os, _, hcall, ⟨?_, hs.tablesCf32.imp fun _ h => ⟨h.length, h.tables⟩, hs.tableCs16⟩,
    hos, s.phase, s.workingBufferCf32, q, rest, history, rfl⟩
  exact { hs.sized with
    bufferCs16 := (hrest.trans hlen).trans hs.sized.bufferCs16
    history := hhistory }

theorem callBy_inside (simd : Simd) {path : Path} (hs : Ready maxLen s)
    (hwhole : Whole maxLen call) :
    ∃ o t, callBy simd (path, call) s = some (o, t) ∧ Ready maxLen t ∧
      produced o ≤ s.outputLenSampls ∧ Writes s t := by
  cases path with
  | native =>
    obtain ⟨output, t, hcall, ht⟩ := callNative_inside hs hwhole
    exact ⟨.inl output, t, by rw [callBy, hcall, Option.map_some], ht⟩
  | optimized =>
    obtain ⟨output, t, hcall, ht⟩ := callOptimized_inside hs hwhole
    exact ⟨.inl output, t, by rw [callBy, hcall, Option.map_some], ht⟩
  | fixed =>
    obtain ⟨output, t, hcall, ht⟩ := callFixed_inside hs hwhole
    exact ⟨.inr output, t, by rw [callBy, hcall, Option.map_some], ht⟩

theorem run_inside (simd : Simd) (hs : Ready maxLen s) {calls : List (Path × Call)}
    (hcalls : ∀ c ∈ calls, Whole maxLen c.2) :
    ∃ outputs t, Mealy.run (callBy simd) calls s = some (outputs, t) ∧ Ready maxLen t ∧
      Writes s t ∧ ∀ o ∈ outputs, produced o ≤ s.outputLenSampls := by
  induction calls generalizing s with
  | nil => exact ⟨[], s, rfl, hs, .refl s, by simp⟩
  | cons c calls ih =>
    obtain ⟨path, call⟩ := c
    obtain ⟨o, m, hcall, hm, hproduced, hwrites⟩ :=
      callBy_inside simd hs (hcalls _ List.mem_cons_self)
    obtain ⟨outputs, t, hrun, ht, hwrites', hrest⟩ :=
      ih hm fun c hc => hcalls c (List.mem_cons_of_mem _ hc)
    refine ⟨o :: outputs, t, Mealy.run_cons.mpr ⟨o, m, outputs, hcall, hrun, rfl⟩, ht,
      hwrites.trans hwrites', ?_⟩
    intro o' ho'
    rcases List.mem_cons.mp ho' with rfl | hmem
    · exact hproduced
    · rw [← hwrites.outputLen]
      exact hrest o' hmem

end Calls

theorem stays_inside {heap : Nat × Nat} {decimation : Nat} {taps : List ℝ} {centerFreq : Int}
    {samplingFreq maxLen : Nat} {f : Xlating ℂ} (simd : Simd)
    (h : createFrequencyXlatingFilter heap decimation taps centerFreq samplingFreq maxLen = some f)
    (hle : decimation ≤ taps.length) (calls : List (Path × Call))
    (hcalls : ∀ c ∈ calls, Whole maxLen c.2) :
    ∃ outputs g, Mealy.run (callBy simd) calls f = some (outputs, g) ∧ Writes f g ∧
      InBounds simd maxLen g ∧ ∀ o ∈ outputs, produced o ≤ f.outputLenSampls := by
  obtain ⟨outputs, g, hrun, hg, hwrites, hproduced⟩ := run_inside simd (ready_created h hle) hcalls
  exact ⟨outputs, g, hrun, hwrites, hg.inBounds simd, hproduced⟩

theorem stays_inside_mixed : ∃ f, createFrequencyXlatingFilter (0, 0) 1 [1] 12000 48000 4 = some f ∧
    ∃ outputs g, Mealy.run (callBy .avx) [(.native, cu8Call [200, 100]),
        (.fixed, cu8Call [200, 100]), (.optimized, cu8Call [200, 100, 0, 0])] f =
        some (outputs, g) ∧ Writes f g ∧
      InBounds .avx 4 g ∧ ∀ o ∈ outputs, produced o ≤ f.outputLenSampls := by
  have hcreate : ∃ f, createFrequencyXlatingFilter (0, 0) 1 [1] 12000 48000 4 = some f := ⟨_, rfl⟩
  obtain ⟨f, hf⟩ := hcreate
  refine ⟨f, hf, stays_inside .avx hf (by simp) _ ?_⟩
  intro c hc
  simp only [List.mem_cons, List.not_mem_nil, or_false] at hc
  rcases hc with rfl | rfl | rfl <;> exact ⟨rfl, by decide⟩

end Xlating
end SdrServer
