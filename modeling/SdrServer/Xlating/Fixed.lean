import SdrServer.Xlating.Block

namespace SdrServer
namespace Xlating

variable {K α : Type} {maxLen : Nat} {f : Xlating K} {taps : List Int16}

def fixedFilter (f : Xlating K) (taps : List Int16) :
    Decimation Int16 (Int16 × Int16) (Int16 × Int16) where
  taps := 2 * f.tapsLen
  stride := 2 * f.decimation
  out := fun phase window => derotate ((dotCs16 window 0 taps f.tapsLen).getD (0, 0)) phase
  next := f.rotate

def fixedHistory (f : Xlating K) : List Int16 := f.workingBufferCs16.take (2 * f.historyOffset)

theorem alignedWindow_cs16 (addr index : Nat) (h : addr % 32 = 0) :
    alignedWindow addr 2 4 (2 * index) = some (2 * index, 0) := by
  have hbuf : (addr + 2 * (2 * index)) / 4 * 4 = addr + 2 * (2 * index) := by omega
  have hle : addr ≤ addr + 2 * (2 * index) := Nat.le_add_right _ _
  simp only [alignedWindow, hbuf, hle, if_true]
  simp

theorem dotCs16_isSome (buffer taps : List Int16) (start n : Nat)
    (hb : start + 2 * n ≤ buffer.length) (ht : 2 * n ≤ taps.length) :
    (dotCs16 buffer start taps n).isSome := by
  induction n with
  | zero => rfl
  | succ n ih =>
    obtain ⟨⟨re, im⟩, hr⟩ := Option.isSome_iff_exists.mp (ih (by omega) (by omega))
    have h1 : start + 2 * n < buffer.length := by omega
    have h2 : start + 2 * n + 1 < buffer.length := by omega
    have h3 : 2 * n < taps.length := by omega
    have h4 : 2 * n + 1 < taps.length := by omega
    simp [dotCs16, hr, h1, h2, h3, h4]

theorem dotCs16_window (buffer taps : List Int16) (start m n k : Nat) (hn : n ≤ k)
    (hm : start + 2 * k ≤ m) :
    dotCs16 buffer start taps n =
      dotCs16 (((buffer.take m).drop start).take (2 * k)) 0 taps n := by
  induction n with
  | zero => rfl
  | succ n ih =>
    have hget : ∀ i < 2 * k, (((buffer.take m).drop start).take (2 * k))[i]? = buffer[start + i]? := by
      intro i hi
      rw [List.getElem?_take_of_lt hi, List.getElem?_drop, List.getElem?_take_of_lt (by omega)]
    rw [dotCs16, dotCs16, ih (by omega)]
    simp only [Nat.zero_add, hget (2 * n) (by omega), hget (2 * n + 1) (by omega), Nat.add_assoc]

theorem count_fits (h : Sized maxLen f) {n : Nat} (hn : n ≤ maxLen / 2) :
    Decimation.count f.tapsLen f.decimation (f.historyOffset + n) ≤ f.outputLenSampls := by
  have hh := h.history
  rw [h.outputLen]
  unfold Decimation.count
  split
  · have hle : f.historyOffset + n - f.tapsLen ≤ maxLen / 2 := by omega
    exact Nat.add_le_add_right (Nat.div_le_div_right hle) 1
  · exact Nat.zero_le _

theorem implements_cs16 (h : Sized maxLen f) (ht : f.tapsCs16[0]? = some taps)
    (hl : 2 * f.tapsLen ≤ taps.length) {n : Nat} (hn : n ≤ maxLen / 2)
    (buffer : List Int16) (hb : buffer.length = f.workingBufferCs16.length) :
    f.blockCs16.Implements (f.fixedFilter taps) buffer (f.historyOffset + n) := by
  have hh := h.history
  have hstored : 2 * (f.historyOffset + n) ≤ buffer.length := by
    rw [hb, h.bufferCs16, h.bufferLen]
    omega
  refine ⟨rfl, rfl, h.decimationPos, h.decimationLe, Nat.two_pos, hstored, ?_, count_fits h hn⟩
  intro current phase hc
  change current + f.tapsLen ≤ f.historyOffset + n at hc
  have hlen : (((buffer.take (2 * (f.historyOffset + n))).drop (2 * current)).take
      (2 * f.tapsLen)).length = 2 * f.tapsLen := by
    simp only [List.length_take, List.length_drop]
    omega
  obtain ⟨temp, htemp⟩ := Option.isSome_iff_exists.mp
    (dotCs16_isSome _ taps 0 f.tapsLen (by rw [hlen]; omega) hl)
  have hdot := dotCs16_window buffer taps (2 * current) (2 * (f.historyOffset + n)) f.tapsLen
    f.tapsLen (le_refl _) (by omega)
  change f.tapCs16 buffer current phase = _
  simp only [tapCs16, h.alignedCs16.1, alignedWindow_cs16 _ current h.alignedCs16.2, ht,
    Option.bind_eq_bind, Option.bind_some, Nat.add_zero, hdot, htemp]
  simp only [fixedFilter, blockCs16, htemp, Option.getD_some]

theorem feedCs16_eq (h : Sized maxLen f) (ht : f.tapsCs16[0]? = some taps)
    (hl : 2 * f.tapsLen ≤ taps.length) (convert : α → Int16) (input : List α)
    (hwhole : input.length % 2 = 0) (hmax : input.length ≤ maxLen) :
    ∃ g, feedCs16 convert input f =
        some (((f.fixedFilter taps).feed (f.phaseReal, f.phaseImag)
          (f.fixedHistory ++ input.map convert)).1, g) ∧
      ((g.phaseReal, g.phaseImag), g.fixedHistory) =
        ((f.fixedFilter taps).feed (f.phaseReal, f.phaseImag)
          (f.fixedHistory ++ input.map convert)).2 ∧
      Sized maxLen g ∧ g.tapsCs16 = f.tapsCs16 ∧ g.tapsLen = f.tapsLen ∧
      g.fixedFilter taps = f.fixedFilter taps := by
  have hn : input.length / 2 ≤ maxLen / 2 := Nat.div_le_div_right hmax
  have htwo : 2 * (input.length / 2) = input.length := by omega
  have hxs : (input.map convert).length = f.blockCs16.width * (input.length / 2) := by
    rw [List.length_map]
    exact htwo.symm
  obtain ⟨stored, rest, history, hstore, hp, hrl, hhist, hrest⟩ :=
    Block.store_process (implements_cs16 h ht hl hn) hxs (f.phaseReal, f.phaseImag) fun _ => rfl
  generalize hr : (f.fixedFilter taps).feed (f.phaseReal, f.phaseImag)
    (f.workingBufferCs16.take (f.blockCs16.width * f.historyOffset) ++ input.map convert) = r
    at hp hrest
  change (f.fixedFilter taps).feed _ (f.fixedHistory ++ input.map convert) = r at hr
  change Buffer.storeAt _ (2 * f.historyOffset) _ = _ at hstore
  refine ⟨{ f with
    phaseReal := r.2.1.1, phaseImag := r.2.1.2, workingBufferCs16 := rest, historyOffset := history },
    ?_, ?_, ?_, rfl, rfl, rfl⟩
  · simp only [feedCs16, storeCs16, hstore, Option.map_some, Option.bind_some, processNativeCs16]
    change Option.map _ (f.blockCs16.process _ _ _ _) = _
    rw [hp, hr]
    rfl
  · rw [hr]
    exact Prod.ext rfl hrest
  · exact { h with
      bufferCs16 := hrl.trans h.bufferCs16
      history := hhist }

theorem calls_stream (h : Sized maxLen f) (ht : f.tapsCs16[0]? = some taps)
    (hl : 2 * f.tapsLen ≤ taps.length) (convert : α → Int16) (inputs : List (List α))
    (hinputs : ∀ input ∈ inputs, input.length % 2 = 0 ∧ input.length ≤ maxLen) :
    ∃ g, calls (feedCs16 convert) inputs f =
        some (((f.fixedFilter taps).stream (f.phaseReal, f.phaseImag) f.fixedHistory
          (inputs.map (List.map convert))).1, g) ∧
      ((g.phaseReal, g.phaseImag), g.fixedHistory) =
        ((f.fixedFilter taps).stream (f.phaseReal, f.phaseImag) f.fixedHistory
          (inputs.map (List.map convert))).2 ∧
      Sized maxLen g := by
  induction inputs generalizing f with
  | nil => exact ⟨f, rfl, rfl, h⟩
  | cons input inputs ih =>
    obtain ⟨hwhole, hmax⟩ := hinputs input List.mem_cons_self
    obtain ⟨g, hg, hstate, hsized, htaps, hlen, hfilter⟩ :=
      feedCs16_eq h ht hl convert input hwhole hmax
    obtain ⟨r, hr, hrstate, hrsized⟩ := ih hsized (htaps ▸ ht) (hlen ▸ hl)
      fun next hnext => hinputs next (List.mem_cons_of_mem _ hnext)
    have hphase : (g.phaseReal, g.phaseImag) = _ := congrArg Prod.fst hstate
    have hhistory : g.fixedHistory = _ := congrArg Prod.snd hstate
    rw [hfilter, hphase, hhistory] at hr hrstate
    refine ⟨r, ?_, hrstate, hrsized⟩
    rw [calls, hg]
    simp only [Option.bind_eq_bind, Option.bind_some, hr]
    rfl

theorem fixedHistory_length (h : Sized maxLen f) : f.fixedHistory.length = 2 * f.historyOffset := by
  have hh := h.history
  rw [fixedHistory, List.length_take, h.bufferCs16, h.bufferLen]
  omega

theorem feedCs16_rechunk (h : Sized maxLen f) (ht : f.tapsCs16[0]? = some taps)
    (hl : 2 * f.tapsLen ≤ taps.length) (convert : α → Int16) (first second : List (List α))
    (hfirst : ∀ input ∈ first, input.length % 2 = 0 ∧ input.length ≤ maxLen)
    (hsecond : ∀ input ∈ second, input.length % 2 = 0 ∧ input.length ≤ maxLen)
    (hcut : first.flatten = second.flatten) :
    ∃ output g g', calls (feedCs16 convert) first f = some (output, g) ∧
      calls (feedCs16 convert) second f = some (output, g') ∧
      g.phaseReal = g'.phaseReal ∧ g.phaseImag = g'.phaseImag ∧
      g.historyOffset = g'.historyOffset ∧ g.fixedHistory = g'.fixedHistory := by
  have h0 : 0 < (f.fixedFilter taps).stride := Nat.mul_pos Nat.two_pos h.decimationPos
  have hs : (f.fixedFilter taps).stride ≤ (f.fixedFilter taps).taps :=
    Nat.mul_le_mul_left 2 h.decimationLe
  have hhist : f.fixedHistory.length < (f.fixedFilter taps).taps := by
    rw [fixedHistory_length h]
    exact Nat.mul_lt_mul_of_pos_left h.history Nat.two_pos
  have hflat : (first.map (List.map convert)).flatten = (second.map (List.map convert)).flatten := by
    rw [← List.map_flatten, ← List.map_flatten, hcut]
  obtain ⟨g, hg, hgs, hsized⟩ := calls_stream h ht hl convert first hfirst
  obtain ⟨g', hg', hgs', hsized'⟩ := calls_stream h ht hl convert second hsecond
  rw [Decimation.stream_flatten _ h0 hs _ _ hhist, hflat,
    ← Decimation.stream_flatten _ h0 hs _ _ hhist] at hg hgs
  have hsame := hgs.trans hgs'.symm
  simp only [Prod.mk.injEq] at hsame
  obtain ⟨⟨hre, him⟩, hcontents⟩ := hsame
  have hoffset := congrArg List.length hcontents
  rw [fixedHistory_length hsized, fixedHistory_length hsized'] at hoffset
  exact ⟨_, g, g', hg, hg', hre, him, by omega, hcontents⟩

theorem rechunk_exact (format : Format) (h : Sized maxLen f) (ht : f.tapsCs16[0]? = some taps)
    (hl : 2 * f.tapsLen ≤ taps.length) (first second : List (List format.Value))
    (hfirst : ∀ input ∈ first, input.length % 2 = 0 ∧ input.length ≤ maxLen)
    (hsecond : ∀ input ∈ second, input.length % 2 = 0 ∧ input.length ≤ maxLen)
    (hcut : first.flatten = second.flatten) :
    ∃ output g g', calls format.processCs16 first f = some (output, g) ∧
      calls format.processCs16 second f = some (output, g') ∧
      g.phaseReal = g'.phaseReal ∧ g.phaseImag = g'.phaseImag ∧
      g.historyOffset = g'.historyOffset ∧ g.fixedHistory = g'.fixedHistory := by
  cases format with
  | cu8 => exact feedCs16_rechunk h ht hl cu8ToCs16 first second hfirst hsecond hcut
  | cs8 => exact feedCs16_rechunk h ht hl cs8ToCs16 first second hfirst hsecond hcut
  | cs16 => exact feedCs16_rechunk h ht hl id first second hfirst hsecond hcut

def twoTapsFilter : Xlating Unit where
  decimation := 2
  tapsCf32 := []
  numberOfAlignedCf32 := 4
  alignmentCf32 := 32
  tapsCs16 := [[16384, 0, 16384, 0], [0, 16384, 0, 16384]]
  numberOfAlignedCs16 := 2
  alignmentCs16 := 4
  tapsLen := 2
  workingBufferCf32Addr := 0
  workingBufferCf32 := List.replicate 4 ()
  workingBufferCs16Addr := 0
  workingBufferCs16 := List.replicate 8 0
  historyOffset := 1
  workingBufferLenSamples := 4
  outputLenSampls := 2
  phase := ()
  phaseIncr := ()
  phaseReal := 32767
  phaseImag := 0
  phaseIncrReal := 0
  phaseIncrImag := 32767

theorem twoTapsFilter_sized : Sized 6 twoTapsFilter :=
  ⟨by decide, by decide, ⟨rfl, rfl⟩, ⟨rfl, rfl⟩, rfl, rfl, rfl, by decide, rfl⟩

def threeCalls : List (List Int8) := [[1, 2], [], [3, 4, 5, 6]]

def twoCalls : List (List Int8) := [[1, 2, 3, 4], [5, 6]]

theorem threeCalls_whole : ∀ input ∈ threeCalls, input.length % 2 = 0 ∧ input.length ≤ 6 := by decide

theorem twoCalls_whole : ∀ input ∈ twoCalls, input.length % 2 = 0 ∧ input.length ≤ 6 := by decide

theorem rechunk_exact_twoTaps :
    ∃ output g g', calls (Format.processCs16 .cs8) threeCalls twoTapsFilter = some (output, g) ∧
      calls (Format.processCs16 .cs8) twoCalls twoTapsFilter = some (output, g') ∧
      g.phaseReal = g'.phaseReal ∧ g.phaseImag = g'.phaseImag ∧
      g.historyOffset = g'.historyOffset ∧ g.fixedHistory = g'.fixedHistory :=
  rechunk_exact .cs8 twoTapsFilter_sized rfl (by decide) threeCalls twoCalls
    threeCalls_whole twoCalls_whole rfl

end Xlating
end SdrServer
