import SdrServer.Xlating.Amplitude

namespace SdrServer
namespace Xlating

-- what one call leaves of `len` samples in the working buffer
def leftOver (taps stride len : Nat) : Nat := len - Decimation.count taps stride len * stride

namespace Block

variable {X P O : Type} {b : Block X P O} {buffer : List X}

theorem process_history (hpos : 0 < b.decimation) (htaps : 0 < b.tapsLen)
    {historyOffset n history : Nat} {p q : P} {os : List O} {rest : List X}
    (h : b.process buffer historyOffset n p = some (os, q, rest, history)) :
    history = leftOver b.tapsLen b.decimation (historyOffset + n) := by
  rcases process_some h with ⟨hshort, -, -, -, rfl⟩ | ⟨hlong, last, r, hloop, -, hle, -, rfl⟩
  · have hcount : Decimation.count b.tapsLen b.decimation (historyOffset + n) = 0 :=
      Decimation.count_eq_zero.mpr (by omega)
    rw [leftOver, hcount, Nat.zero_mul, Nat.sub_zero]
  · obtain ⟨hlast, hstop, hnear⟩ := loop_last hloop
    rw [Nat.zero_add] at hlast
    have hcount : Decimation.count b.tapsLen b.decimation (historyOffset + n) = os.length :=
      Decimation.count_eq_of_last htaps hlong (by omega) (by omega)
    rw [leftOver, hcount, hlast]

end Block

variable {α : Type} {f g : Xlating ℂ}

def callFixed (call : Call) : Xlating ℂ → Option (List (Int16 × Int16) × Xlating ℂ) :=
  call.1.processCs16 call.2

noncomputable def callMixed : Call ⊕ Call → Xlating ℂ →
    Option ((List ℂ ⊕ List (Int16 × Int16)) × Xlating ℂ)
  | .inl call, f => (callNative call f).map fun (output, f) => (.inl output, f)
  | .inr call, f => (callFixed call f).map fun (output, f) => (.inr output, f)

def callOf : Call ⊕ Call → Call
  | .inl call => call
  | .inr call => call

-- each call finds in the shared history_offset what the last call of its own path left there
def Undisturbed (taps stride : Nat) : Nat → Nat → Nat → List (Call ⊕ Call) → Prop
  | _, _, _, [] => True
  | shared, cf32, cs16, .inl call :: calls => shared = cf32 ∧
    Undisturbed taps stride (leftOver taps stride (shared + call.2.length / 2))
      (leftOver taps stride (shared + call.2.length / 2)) cs16 calls
  | shared, cf32, cs16, .inr call :: calls => shared = cs16 ∧
    Undisturbed taps stride (leftOver taps stride (shared + call.2.length / 2)) cf32
      (leftOver taps stride (shared + call.2.length / 2)) calls

structure Independent (f : Xlating ℂ) (mixed : List (Call ⊕ Call))
    (outputs : List (List ℂ ⊕ List (Int16 × Int16))) : Prop where
  cf32 : ∃ g, Mealy.run callNative (mixed.filterMap Sum.getLeft?) f =
    some (outputs.filterMap Sum.getLeft?, g)
  cs16 : ∃ g, Mealy.run callFixed (mixed.filterMap Sum.getRight?) f =
    some (outputs.filterMap Sum.getRight?, g)

def Format.toCs16 : (format : Format) → format.Value → Int16
  | .cu8 => cu8ToCs16
  | .cs8 => cs8ToCs16
  | .cs16 => id

theorem Format.processCs16_eq (format : Format) :
    format.processCs16 = feedCs16 (K := ℂ) format.toCs16 := by
  cases format <;> rfl

-- the fields of one path, as process_native_* of that path writes them
def withCf32 (phase : ℂ) (buffer : List ℂ) (f : Xlating ℂ) : Xlating ℂ :=
  { f with phase, workingBufferCf32 := buffer }

def withCs16 (phase : Int16 × Int16) (buffer : List Int16) (f : Xlating ℂ) : Xlating ℂ :=
  { f with phaseReal := phase.1, phaseImag := phase.2, workingBufferCs16 := buffer }

def withHistory (historyOffset : Nat) (f : Xlating ℂ) : Xlating ℂ := { f with historyOffset }

theorem feedCf32_frame (normalise : ℂ → ℂ) (convert : α → α → ℂ) (input : List α) (f : Xlating ℂ)
    (phase : Int16 × Int16) (buffer : List Int16) :
    feedCf32 normalise convert input (f.withCs16 phase buffer) =
      (feedCf32 normalise convert input f).map fun (output, g) =>
        (output, g.withCs16 phase buffer) := by
  simp only [feedCf32, storeCf32, withCs16]
  cases Buffer.storeAt f.workingBufferCf32 f.historyOffset (samples convert input) with
  | none => rfl
  | some stored =>
    simp only [Option.map_some, Option.bind_some, processNativeCf32, Option.map_map]
    rfl

theorem feedCs16_frame (convert : α → Int16) (input : List α) (f : Xlating ℂ) (phase : ℂ)
    (buffer : List ℂ) :
    feedCs16 convert input (f.withCf32 phase buffer) =
      (feedCs16 convert input f).map fun (output, g) => (output, g.withCf32 phase buffer) := by
  simp only [feedCs16, storeCs16, withCf32]
  cases Buffer.storeAt f.workingBufferCs16 (2 * f.historyOffset) (input.map convert) with
  | none => rfl
  | some stored =>
    simp only [Option.map_some, Option.bind_some, processNativeCs16, Option.map_map]
    rfl

theorem callNative_frame (call : Call) (f : Xlating ℂ) (phase : Int16 × Int16)
    (buffer : List Int16) : callNative call (f.withCs16 phase buffer) =
      (callNative call f).map fun (output, g) => (output, g.withCs16 phase buffer) := by
  rw [callNative, Format.processCf32_eq]
  exact feedCf32_frame _ _ _ _ _ _

theorem callFixed_frame (call : Call) (f : Xlating ℂ) (phase : ℂ) (buffer : List ℂ) :
    callFixed call (f.withCf32 phase buffer) =
      (callFixed call f).map fun (output, g) => (output, g.withCf32 phase buffer) := by
  rw [callFixed, Format.processCs16_eq]
  exact feedCs16_frame _ _ _ _ _

theorem feedCf32_writes {normalise : ℂ → ℂ} {convert : α → α → ℂ} {input : List α}
    {output : List ℂ} (hpos : 0 < f.decimation) (htaps : 0 < f.tapsLen)
    (h : feedCf32 normalise convert input f = some (output, g)) :
    ∃ phase buffer, g = (f.withCf32 phase buffer).withHistory
      (leftOver f.tapsLen f.decimation (f.historyOffset + input.length / 2)) := by
  obtain ⟨stored, hstored, hprocess⟩ := Option.bind_eq_some_iff.mp h
  obtain ⟨buffer, -, rfl⟩ := Option.map_eq_some_iff.mp hstored
  obtain ⟨⟨os, phase, rest, history⟩, hblock, hout⟩ := Option.map_eq_some_iff.mp hprocess
  have hhistory := Block.process_history hpos htaps hblock
  cases hout
  exact ⟨phase, rest, by rw [hhistory]; rfl⟩

theorem feedCs16_writes {convert : α → Int16} {input : List α} {output : List (Int16 × Int16)}
    (hpos : 0 < f.decimation) (htaps : 0 < f.tapsLen)
    (h : feedCs16 convert input f = some (output, g)) :
    ∃ phase buffer, g = (f.withCs16 phase buffer).withHistory
      (leftOver f.tapsLen f.decimation (f.historyOffset + input.length / 2)) := by
  obtain ⟨stored, hstored, hprocess⟩ := Option.bind_eq_some_iff.mp h
  obtain ⟨buffer, -, rfl⟩ := Option.map_eq_some_iff.mp hstored
  obtain ⟨⟨os, phase, rest, history⟩, hblock, hout⟩ := Option.map_eq_some_iff.mp hprocess
  have hhistory := Block.process_history hpos htaps hblock
  cases hout
  exact ⟨phase, rest, by rw [hhistory]; rfl⟩

structure Alone (taps stride : Nat) (s : Xlating ℂ) : Prop where
  positive : 0 < stride
  tapsPos : 0 < taps
  tapsLen : s.tapsLen = taps
  decimation : s.decimation = stride

-- `u` is the filter of the run with the cs16 calls removed
structure AloneCf32 (taps stride : Nat) (calls : List (Call ⊕ Call)) (s u : Xlating ℂ) : Prop
    extends Alone taps stride s where
  undisturbed : ∃ cs16, Undisturbed taps stride s.historyOffset u.historyOffset cs16 calls
  same : ∃ phase buffer, u = (s.withCs16 phase buffer).withHistory u.historyOffset

structure AloneCs16 (taps stride : Nat) (calls : List (Call ⊕ Call)) (s u : Xlating ℂ) : Prop
    extends Alone taps stride s where
  undisturbed : ∃ cf32, Undisturbed taps stride s.historyOffset cf32 u.historyOffset calls
  same : ∃ phase buffer, u = (s.withCf32 phase buffer).withHistory u.historyOffset

section Runs

variable {taps stride : Nat} {calls : List (Call ⊕ Call)} {s t u : Xlating ℂ} {call : Call}

theorem callMixed_cf32 {o : List ℂ ⊕ List (Int16 × Int16)}
    (h : callMixed (.inl call) s = some (o, t)) (hs : Alone taps stride s) :
    ∃ output phase buffer, o = .inl output ∧ callNative call s = some (output, t) ∧
      t = (s.withCf32 phase buffer).withHistory
        (leftOver taps stride (s.historyOffset + call.2.length / 2)) := by
  obtain ⟨⟨output, r⟩, hcall, hout⟩ := Option.map_eq_some_iff.mp h
  cases hout
  have hfeed := hcall
  rw [callNative, Format.processCf32_eq] at hfeed
  obtain ⟨phase, buffer, hwrites⟩ := feedCf32_writes (hs.decimation ▸ hs.positive)
    (hs.tapsLen ▸ hs.tapsPos) hfeed
  rw [hs.tapsLen, hs.decimation] at hwrites
  exact ⟨output, phase, buffer, rfl, hcall, hwrites⟩

theorem callMixed_cs16 {o : List ℂ ⊕ List (Int16 × Int16)}
    (h : callMixed (.inr call) s = some (o, t)) (hs : Alone taps stride s) :
    ∃ output phase buffer, o = .inr output ∧ callFixed call s = some (output, t) ∧
      t = (s.withCs16 phase buffer).withHistory
        (leftOver taps stride (s.historyOffset + call.2.length / 2)) := by
  obtain ⟨⟨output, r⟩, hcall, hout⟩ := Option.map_eq_some_iff.mp h
  cases hout
  have hfeed := hcall
  rw [callFixed, Format.processCs16_eq] at hfeed
  obtain ⟨phase, buffer, hwrites⟩ := feedCs16_writes (hs.decimation ▸ hs.positive)
    (hs.tapsLen ▸ hs.tapsPos) hfeed
  rw [hs.tapsLen, hs.decimation] at hwrites
  exact ⟨output, phase, buffer, rfl, hcall, hwrites⟩

theorem aloneCf32_picked {o : List ℂ ⊕ List (Int16 × Int16)}
    (hR : AloneCf32 taps stride (.inl call :: calls) s u)
    (h : callMixed (.inl call) s = some (o, t)) :
    ∃ output v, callNative call u = some (output, v) ∧ o.getLeft? = some output ∧
      AloneCf32 taps stride calls t v := by
  obtain ⟨output, phase, buffer, rfl, hcall, rfl⟩ := callMixed_cf32 h hR.toAlone
  obtain ⟨cs16, hshared, hrest⟩ := hR.undisturbed
  obtain ⟨phase', buffer', hsame⟩ := hR.same
  rw [← hshared] at hsame
  obtain rfl : u = s.withCs16 phase' buffer' := hsame
  have hsolo := callNative_frame call s phase' buffer'
  rw [hcall, Option.map_some] at hsolo
  exact ⟨output, _, hsolo, rfl, ⟨hR.positive, hR.tapsPos, hR.tapsLen, hR.decimation⟩,
    ⟨cs16, hrest⟩, ⟨phase', buffer', rfl⟩⟩

theorem aloneCf32_skipped {o : List ℂ ⊕ List (Int16 × Int16)}
    (hR : AloneCf32 taps stride (.inr call :: calls) s u)
    (h : callMixed (.inr call) s = some (o, t)) :
    o.getLeft? = none ∧ AloneCf32 taps stride calls t u := by
  obtain ⟨output, phase, buffer, rfl, -, rfl⟩ := callMixed_cs16 h hR.toAlone
  obtain ⟨cs16, -, hrest⟩ := hR.undisturbed
  obtain ⟨phase', buffer', hsame⟩ := hR.same
  exact ⟨rfl, ⟨hR.positive, hR.tapsPos, hR.tapsLen, hR.decimation⟩, ⟨_, hrest⟩,
    ⟨phase', buffer', hsame⟩⟩

theorem aloneCs16_picked {o : List ℂ ⊕ List (Int16 × Int16)}
    (hR : AloneCs16 taps stride (.inr call :: calls) s u)
    (h : callMixed (.inr call) s = some (o, t)) :
    ∃ output v, callFixed call u = some (output, v) ∧ o.getRight? = some output ∧
      AloneCs16 taps stride calls t v := by
  obtain ⟨output, phase, buffer, rfl, hcall, rfl⟩ := callMixed_cs16 h hR.toAlone
  obtain ⟨cf32, hshared, hrest⟩ := hR.undisturbed
  obtain ⟨phase', buffer', hsame⟩ := hR.same
  rw [← hshared] at hsame
  obtain rfl : u = s.withCf32 phase' buffer' := hsame
  have hsolo := callFixed_frame call s phase' buffer'
  rw [hcall, Option.map_some] at hsolo
  exact ⟨output, _, hsolo, rfl, ⟨hR.positive, hR.tapsPos, hR.tapsLen, hR.decimation⟩,
    ⟨cf32, hrest⟩, ⟨phase', buffer', rfl⟩⟩

theorem aloneCs16_skipped {o : List ℂ ⊕ List (Int16 × Int16)}
    (hR : AloneCs16 taps stride (.inl call :: calls) s u)
    (h : callMixed (.inl call) s = some (o, t)) :
    o.getRight? = none ∧ AloneCs16 taps stride calls t u := by
  obtain ⟨output, phase, buffer, rfl, -, rfl⟩ := callMixed_cf32 h hR.toAlone
  obtain ⟨cf32, -, hrest⟩ := hR.undisturbed
  obtain ⟨phase', buffer', hsame⟩ := hR.same
  exact ⟨rfl, ⟨hR.positive, hR.tapsPos, hR.tapsLen, hR.decimation⟩, ⟨_, hrest⟩,
    ⟨phase', buffer', hsame⟩⟩

theorem independent_of {outputs : List (List ℂ ⊕ List (Int16 × Int16))}
    (hs : Alone taps stride s)
    (hund : Undisturbed taps stride s.historyOffset s.historyOffset s.historyOffset calls)
    (h : Mealy.run callMixed calls s = some (outputs, t)) : Independent s calls outputs := by
  constructor
  · have hstart : AloneCf32 taps stride calls s s := ⟨hs, ⟨_, hund⟩,
      (s.phaseReal, s.phaseImag), s.workingBufferCs16, rfl⟩
    apply Mealy.run_filterMap _ _ hstart h
    · intro e es s u call o t hR hpick hstep
      cases e with
      | inl c =>
        cases hpick
        exact aloneCf32_picked hR hstep
      | inr c => cases hpick
    · intro e es s u o t hR hpick hstep
      cases e with
      | inl c => cases hpick
      | inr c => exact aloneCf32_skipped hR hstep
  · have hstart : AloneCs16 taps stride calls s s :=
      ⟨hs, ⟨_, hund⟩, s.phase, s.workingBufferCf32, rfl⟩
    apply Mealy.run_filterMap _ _ hstart h
    · intro e es s u call o t hR hpick hstep
      cases e with
      | inl c => cases hpick
      | inr c =>
        cases hpick
        exact aloneCs16_picked hR hstep
    · intro e es s u o t hR hpick hstep
      cases e with
      | inl c => exact aloneCs16_skipped hR hstep
      | inr c => cases hpick

end Runs

structure Ready (maxLen : Nat) (f : Xlating ℂ) : Prop where
  sized : Sized maxLen f
  tablesCf32 : ∃ reversed, Aligned f reversed
  tableCs16 : ∃ taps, f.tapsCs16[0]? = some taps ∧ 2 * f.tapsLen ≤ taps.length

def Whole (maxLen : Nat) (call : Call) : Prop := call.2.length % 2 = 0 ∧ call.2.length ≤ maxLen

section Total

variable {maxLen : Nat} {s : Xlating ℂ} {call : Call}

theorem Ready.withPhase (hs : Ready maxLen s) (phase : ℂ) : Ready maxLen { s with phase } :=
  ⟨{ hs.sized with }, hs.tablesCf32.imp fun _ h => ⟨h.length, h.tables⟩, hs.tableCs16⟩

theorem ready_renormalise (hs : Ready maxLen s) (normalise : ℂ → ℂ) (output : List ℂ) :
    Ready maxLen (renormalise normalise output s) := by
  unfold renormalise
  split
  · exact hs
  · exact hs.withPhase _

theorem callNative_total (hs : Ready maxLen s) (hwhole : Whole maxLen call) :
    ∃ output t, callNative call s = some (output, t) ∧ Ready maxLen t ∧
      output.length =
        Decimation.count s.tapsLen s.decimation (s.historyOffset + call.2.length / 2) := by
  obtain ⟨reversed, haligned⟩ := hs.tablesCf32
  have hlen := samples_length call.1.toCf32 call.2
  have hmax : (samples call.1.toCf32 call.2).length ≤ maxLen / 2 := by
    rw [hlen]
    exact Nat.div_le_div_right hwhole.2
  have hfix : ∀ k, id ((fun p => p * s.phaseIncr)^[k] s.phase) =
      (fun p => p * s.phaseIncr)^[k] s.phase := fun _ => rfl
  obtain ⟨g, hg, -, -, hsized, hreversed, -, -⟩ :=
    feedCf32_eq hs.sized haligned call.1.toCf32 call.2 hmax hlen hfix
  have htapsPos : 0 < s.tapsLen := Nat.lt_of_le_of_lt (Nat.zero_le _) hs.sized.history
  obtain ⟨phase, buffer, hwrites⟩ := feedCf32_writes hs.sized.decimationPos htapsPos hg
  have hready : Ready maxLen g := ⟨hsized, ⟨reversed, hreversed⟩, hwrites ▸ hs.tableCs16⟩
  rw [callNative_eq, hg]
  refine ⟨_, _, rfl, ready_renormalise hready _ _, ?_⟩
  have hhistory : s.floatHistory.length = s.historyOffset := by
    have hh := hs.sized.history
    rw [floatHistory, List.length_take, hs.sized.bufferCf32, hs.sized.bufferLen]
    omega
  rw [Decimation.feed, Decimation.emit_length, List.length_append, hhistory, hlen]
  rfl

theorem callFixed_total (hs : Ready maxLen s) (hwhole : Whole maxLen call) :
    ∃ output t, callFixed call s = some (output, t) ∧ Ready maxLen t ∧
      output.length = Decimation.count (2 * s.tapsLen) (2 * s.decimation)
        (2 * s.historyOffset + call.2.length) := by
  obtain ⟨taps, htaps, hlen⟩ := hs.tableCs16
  obtain ⟨g, hg, -, hsized, hkept, hkeptLen, -⟩ :=
    feedCs16_eq hs.sized htaps hlen call.1.toCs16 call.2 hwhole.1 hwhole.2
  have htapsPos : 0 < s.tapsLen := Nat.lt_of_le_of_lt (Nat.zero_le _) hs.sized.history
  obtain ⟨phase, buffer, hwrites⟩ := feedCs16_writes hs.sized.decimationPos htapsPos hg
  rw [callFixed, Format.processCs16_eq]
  refine ⟨_, g, hg, ⟨hsized, ?_, taps, hkept ▸ htaps, hkeptLen ▸ hlen⟩, ?_⟩
  · rw [hwrites]
    exact hs.tablesCf32.imp fun _ h => ⟨h.length, h.tables⟩
  · rw [Decimation.feed, Decimation.emit_length, List.length_append, fixedHistory_length hs.sized,
      List.length_map]
    rfl

theorem callMixed_total {e : Call ⊕ Call} (hs : Ready maxLen s)
    (hwhole : Whole maxLen (callOf e)) :
    ∃ o t, callMixed e s = some (o, t) ∧ Ready maxLen t := by
  cases e with
  | inl call =>
    have hfits : Whole maxLen call := hwhole
    obtain ⟨output, t, hcall, ht, -⟩ := callNative_total hs hfits
    exact ⟨.inl output, t, by rw [callMixed, hcall]; rfl, ht⟩
  | inr call =>
    have hfits : Whole maxLen call := hwhole
    obtain ⟨output, t, hcall, ht, -⟩ := callFixed_total hs hfits
    exact ⟨.inr output, t, by rw [callMixed, hcall]; rfl, ht⟩

end Total

section Created

variable {heap : Nat × Nat} {decimation : Nat} {taps : List ℝ} {centerFreq : Int}
  {samplingFreq maxLen : Nat}

theorem quantiseTaps_length (bpfTaps : List ℂ) :
    (quantiseTaps bpfTaps).length = 2 * bpfTaps.length := by
  induction bpfTaps with
  | nil => rfl
  | cons tap bpfTaps ih =>
    rw [quantiseTaps, List.flatMap_cons, List.length_append]
    change 2 + (quantiseTaps bpfTaps).length = 2 * (bpfTaps.length + 1)
    rw [ih]
    omega

theorem tableCs16_created
    (h : createFrequencyXlatingFilter heap decimation taps centerFreq samplingFreq maxLen = some f) :
    ∃ table, f.tapsCs16[0]? = some table ∧ 2 * f.tapsLen ≤ table.length := by
  have hf := (tabled_created h).1
  refine ⟨_, hf.table, ?_⟩
  rw [List.length_append, quantiseTaps_length, hf.aligned.length]
  exact Nat.le_add_right _ _

theorem ready_created
    (h : createFrequencyXlatingFilter heap decimation taps centerFreq samplingFreq maxLen = some f)
    (hle : decimation ≤ taps.length) : Ready maxLen f := by
  have hcreated := created f.phaseIncr h
  obtain ⟨g, hg, hsized, haligned, -⟩ := createFrequencyXlatingFilter_spec heap centerFreq
    samplingFreq maxLen hcreated.positive hle
  obtain rfl : f = g := Option.some.inj (h.symm.trans hg)
  exact ⟨hsized, ⟨_, haligned⟩, tableCs16_created h⟩

theorem alone_created
    (h : createFrequencyXlatingFilter heap decimation taps centerFreq samplingFreq maxLen =
      some f) : Alone taps.length decimation f ∧ f.historyOffset = taps.length - 1 := by
  have hcreated := created f.phaseIncr h
  exact ⟨⟨hcreated.positive, hcreated.taps, hcreated.tapsLen, hcreated.decimation⟩,
    hcreated.history⟩

end Created

theorem leftOver_dvd {taps stride n : Nat} (htaps : 0 < taps) (hpos : 0 < stride)
    (hdvd : stride ∣ n) : leftOver taps stride (taps - 1 + n) = taps - 1 := by
  obtain ⟨k, rfl⟩ := hdvd
  have hcomm : stride * k = k * stride := Nat.mul_comm stride k
  by_cases hk : k = 0
  · subst hk
    have hcount : Decimation.count taps stride (taps - 1 + stride * 0) = 0 :=
      Decimation.count_eq_zero.mpr (by omega)
    rw [leftOver, hcount]
    omega
  · have hsome : 0 < stride * k := Nat.mul_pos hpos (Nat.pos_of_ne_zero hk)
    have hcount : Decimation.count taps stride (taps - 1 + stride * k) = k :=
      Decimation.count_eq_of_last htaps (by omega) (by omega) (by omega)
    rw [leftOver, hcount]
    omega

theorem undisturbed_of_dvd {taps stride : Nat} (htaps : 0 < taps) (hpos : 0 < stride)
    {mixed : List (Call ⊕ Call)}
    (hdvd : ∀ e ∈ mixed, stride ∣ (callOf e).2.length / 2) :
    Undisturbed taps stride (taps - 1) (taps - 1) (taps - 1) mixed := by
  induction mixed with
  | nil => trivial
  | cons e mixed ih =>
    have hrest := ih fun e he => hdvd e (List.mem_cons_of_mem _ he)
    have hsame := leftOver_dvd htaps hpos (hdvd e List.mem_cons_self)
    cases e with
    | inl call =>
      refine ⟨rfl, ?_⟩
      rw [show leftOver taps stride (taps - 1 + call.2.length / 2) = taps - 1 from hsame]
      exact hrest
    | inr call =>
      refine ⟨rfl, ?_⟩
      rw [show leftOver taps stride (taps - 1 + call.2.length / 2) = taps - 1 from hsame]
      exact hrest

theorem paths_independent {heap : Nat × Nat} {decimation : Nat} {taps : List ℝ}
    {centerFreq : Int} {samplingFreq maxLen : Nat}
    (h : createFrequencyXlatingFilter heap decimation taps centerFreq samplingFreq maxLen = some f)
    {mixed : List (Call ⊕ Call)}
    (hund : Undisturbed taps.length decimation (taps.length - 1) (taps.length - 1)
      (taps.length - 1) mixed) :
    (∀ outputs g, Mealy.run callMixed mixed f = some (outputs, g) → Independent f mixed outputs) ∧
      (decimation ≤ taps.length → (∀ e ∈ mixed, Whole maxLen (callOf e)) →
        ∃ outputs g, Mealy.run callMixed mixed f = some (outputs, g)) := by
  obtain ⟨halone, hhistory⟩ := alone_created h
  constructor
  · intro outputs g hrun
    apply independent_of halone _ hrun
    rw [hhistory]
    exact hund
  · intro hle hwhole
    obtain ⟨outputs, g, hrun, -⟩ := Mealy.run_total (fun _ _ => callMixed_total)
      (ready_created h hle) hwhole
    exact ⟨outputs, g, hrun⟩

def cu8Call (input : List UInt8) : Call := ⟨.cu8, input⟩

def evenCalls : List (Call ⊕ Call) :=
  [.inr (cu8Call [1, 2, 3, 4]), .inl (cu8Call [200, 100, 0, 255]), .inr (cu8Call [5, 6, 7, 8])]

theorem paths_independent_evenCalls : ∃ f,
    createFrequencyXlatingFilter (0, 0) 2 [1, 2, 3] 12000 48000 4 = some f ∧
      (∀ outputs g, Mealy.run callMixed evenCalls f = some (outputs, g) →
        Independent f evenCalls outputs) ∧
      (2 ≤ ([1, 2, 3] : List ℝ).length → (∀ e ∈ evenCalls, Whole 4 (callOf e)) →
        ∃ outputs g, Mealy.run callMixed evenCalls f = some (outputs, g)) := by
  refine ⟨_, rfl, paths_independent rfl ?_⟩
  apply undisturbed_of_dvd (by decide) (by decide)
  decide

def oneSample : Call := cu8Call [200, 100]

theorem paths_interfere : ∃ f outputs g,
    createFrequencyXlatingFilter (0, 0) 2 [1, 1] 12000 48000 2 = some f ∧
      Mealy.run callMixed [.inr oneSample, .inl oneSample] f = some (outputs, g) ∧
      ¬ Independent f [.inr oneSample, .inl oneSample] outputs := by
  have hcreate : ∃ f, createFrequencyXlatingFilter (0, 0) 2 [1, 1] 12000 48000 2 = some f :=
    ⟨_, rfl⟩
  obtain ⟨f, hf⟩ := hcreate
  have hready := ready_created hf (by decide)
  obtain ⟨halone, hhistory⟩ := alone_created hf
  have hwhole : Whole 2 oneSample := ⟨rfl, by decide⟩
  obtain ⟨fixed, s, hfixed, hs, -⟩ := callFixed_total hready hwhole
  have hmixedCs16 : callMixed (.inr oneSample) f = some (.inr fixed, s) := by
    rw [callMixed, hfixed]
    rfl
  obtain ⟨-, phase, buffer, -, -, hwrites⟩ := callMixed_cs16 hmixedCs16 halone
  obtain ⟨float, t, hfloat, -, hlen⟩ := callNative_total hs hwhole
  have hmixedCf32 : callMixed (.inl oneSample) s = some (.inl float, t) := by
    rw [callMixed, hfloat]
    rfl
  obtain ⟨solo, u, hsolo, -, hsoloLen⟩ := callNative_total hready hwhole
  -- the cs16 call leaves no history, so the cf32 call finds one sample where it needs two
  have hshared : s.historyOffset = 0 := by
    rw [hwrites, hhistory]
    rfl
  have hnone : float.length = 0 := by
    rw [hlen, hshared, hwrites]
    change Decimation.count f.tapsLen f.decimation 1 = 0
    rw [halone.tapsLen, halone.decimation]
    rfl
  have hone : solo.length = 1 := by
    rw [hsoloLen, hhistory, halone.tapsLen, halone.decimation]
    rfl
  have hrun : Mealy.run callMixed [.inr oneSample, .inl oneSample] f =
      some ([.inr fixed, .inl float], t) := by
    apply Mealy.run_cons.mpr
    refine ⟨_, s, _, hmixedCs16, ?_, rfl⟩
    exact Mealy.run_cons.mpr ⟨_, t, [], hmixedCf32, rfl, rfl⟩
  refine ⟨f, _, t, hf, hrun, ?_⟩
  intro hindependent
  obtain ⟨g, hg⟩ := hindependent.cf32
  obtain ⟨o, m, rest, ho, -, hout⟩ := Mealy.run_cons.mp hg
  have hsame : solo = o := congrArg Prod.fst (Option.some.inj (hsolo.symm.trans ho))
  have hfirst : float = o := (List.cons.inj hout).1
  rw [hsame, ← hfirst, hnone] at hone
  cases hone

end Xlating
end SdrServer
