import SdrServer.Xlating.Block
import SdrServer.Xlating.Fixed
import Mathlib.Algebra.BigOperators.Group.Finset.Basic

namespace SdrServer
namespace Xlating

variable {K α : Type}

theorem samples_length (convert : α → α → K) (input : List α) :
    (samples convert input).length = input.length / 2 := by
  induction input using samples.induct with
  | case1 re im rest ih =>
    simp only [samples, List.length_cons, ih]
    omega
  | case2 input hinput =>
    rcases input with - | ⟨re, - | ⟨im, rest⟩⟩
    · simp [samples]
    · simp [samples]
    · exact (hinput re im rest rfl).elim

theorem samples_append (convert : α → α → K) (input rest : List α) (h : input.length % 2 = 0) :
    samples convert (input ++ rest) = samples convert input ++ samples convert rest := by
  induction input using samples.induct with
  | case1 re im input ih =>
    simp only [List.length_cons] at h
    simp only [List.cons_append, samples, ih (by omega)]
  | case2 input hinput =>
    rcases input with - | ⟨re, - | ⟨im, input⟩⟩
    · rfl
    · simp at h
    · exact (hinput re im input rfl).elim

theorem samples_flatten (convert : α → α → K) (inputs : List (List α))
    (h : ∀ input ∈ inputs, input.length % 2 = 0) :
    (inputs.map (samples convert)).flatten = samples convert inputs.flatten := by
  induction inputs with
  | nil => rfl
  | cons input inputs ih =>
    rw [List.map_cons, List.flatten_cons, List.flatten_cons,
      samples_append _ _ _ (h input List.mem_cons_self),
      ih fun next hnext => h next (List.mem_cons_of_mem _ hnext)]

variable [Semiring K] {maxLen : Nat} {f : Xlating K} {reversed : List K}

def floatFilter (f : Xlating K) (reversed : List K) : Decimation K K K where
  taps := f.tapsLen
  stride := f.decimation
  out := fun phase window => (dotCf32 window 0 reversed f.tapsLen).getD 0 * phase
  next := fun phase => phase * f.phaseIncr

def floatHistory (f : Xlating K) : List K := f.workingBufferCf32.take f.historyOffset

structure Aligned (f : Xlating K) (reversed : List K) : Prop where
  length : reversed.length = f.tapsLen
  tables : ∀ i < 4, f.tapsCf32[i]? = some (alignedTaps reversed 1 4 i)

theorem alignedWindow_cf32 (addr index : Nat) (h : addr % 32 = 0) :
    alignedWindow addr 8 32 index = some (index - index % 4, index % 4) := by
  have hle : addr ≤ (addr + 8 * index) / 32 * 32 := by omega
  have hstart : ((addr + 8 * index) / 32 * 32 - addr) / 8 = index - index % 4 := by omega
  have halign : (addr + 8 * index - (addr + 8 * index) / 32 * 32) / 8 = index % 4 := by omega
  simp only [alignedWindow, hle, if_true, hstart, halign]

theorem dotCf32_sum (buffer taps : List K) (start n : Nat) (hb : start + n ≤ buffer.length)
    (ht : n ≤ taps.length) :
    dotCf32 buffer start taps n =
      some (∑ i ∈ Finset.range n, buffer.getD (start + i) 0 * taps.getD i 0) := by
  induction n with
  | zero => rfl
  | succ n ih =>
    have hbuffer : start + n < buffer.length := by omega
    have htaps : n < taps.length := by omega
    rw [dotCf32, ih (by omega) (by omega), Finset.sum_range_succ]
    simp [hbuffer, htaps]

theorem dotCf32_congr {buffer buffer' taps taps' : List K} {start start' n : Nat}
    (hb : ∀ i < n, buffer[start + i]? = buffer'[start' + i]?) (ht : ∀ i < n, taps[i]? = taps'[i]?) :
    dotCf32 buffer start taps n = dotCf32 buffer' start' taps' n := by
  induction n with
  | zero => rfl
  | succ n ih =>
    rw [dotCf32, dotCf32, ih (fun i hi => hb i (by omega)) (fun i hi => ht i (by omega)),
      hb n (Nat.lt_succ_self n), ht n (Nat.lt_succ_self n)]

theorem dotCf32_zeros (buffer taps : List K) (start a n : Nat) (hn : n ≤ a)
    (hb : start + n ≤ buffer.length) :
    dotCf32 buffer start (List.replicate a 0 ++ taps) n = some 0 := by
  induction n with
  | zero => rfl
  | succ n ih =>
    have hbuffer : start + n < buffer.length := by omega
    have hzero : (List.replicate a (0 : K) ++ taps)[n]? = some 0 := by
      rw [List.getElem?_append_left (by simpa using hn), List.getElem?_replicate_of_lt hn]
    rw [dotCf32, ih (by omega) (by omega), hzero]
    simp [hbuffer]

theorem dotCf32_shift (buffer taps : List K) (start a n : Nat) (hb : start + a ≤ buffer.length) :
    dotCf32 buffer start (List.replicate a 0 ++ taps) (a + n) =
      dotCf32 buffer (start + a) taps n := by
  induction n with
  | zero => exact dotCf32_zeros buffer taps start a a (le_refl a) hb
  | succ n ih =>
    have htaps : (List.replicate a (0 : K) ++ taps)[a + n]? = taps[n]? := by
      rw [List.getElem?_append_right (by simp)]
      simp
    rw [← Nat.add_assoc, dotCf32, ih, dotCf32, htaps, Nat.add_assoc]

theorem dotCf32_aligned (buffer : List K) (start i n : Nat) (hn : n = reversed.length)
    (hb : start + i ≤ buffer.length) :
    dotCf32 buffer start (alignedTaps reversed 1 4 i) (n + i) =
      dotCf32 buffer (start + i) reversed n := by
  rw [alignedTaps, List.append_assoc, Nat.add_comm n, dotCf32_shift buffer _ start i n hb]
  apply dotCf32_congr
  · intro j hj
    rfl
  · intro j hj
    exact List.getElem?_append_left (by omega)

theorem implements_cf32 (normalise : K → K) (h : Sized maxLen f) (ha : Aligned f reversed) {n : Nat}
    (hn : n ≤ maxLen / 2) (buffer : List K) (hb : buffer.length = f.workingBufferCf32.length) :
    (f.blockCf32 normalise).Implements (f.floatFilter reversed) buffer (f.historyOffset + n) := by
  have hh := h.history
  have hlen := ha.length
  have hstored : 1 * (f.historyOffset + n) ≤ buffer.length := by
    rw [hb, h.bufferCf32, h.bufferLen]
    omega
  refine ⟨(Nat.one_mul _).symm, (Nat.one_mul _).symm, h.decimationPos, h.decimationLe, Nat.one_pos,
    hstored, ?_, count_fits h hn⟩
  intro current phase hc
  change current + f.tapsLen ≤ f.historyOffset + n at hc
  have hmod : current % 4 < 4 := Nat.mod_lt _ (by decide)
  have hback : current - current % 4 + current % 4 = current := by omega
  have hdot : dotCf32 buffer current reversed f.tapsLen =
      dotCf32 (((buffer.take (1 * (f.historyOffset + n))).drop (1 * current)).take f.tapsLen) 0
        reversed f.tapsLen := by
    apply dotCf32_congr
    · intro i hi
      rw [List.getElem?_take_of_lt (by omega), List.getElem?_drop,
        List.getElem?_take_of_lt (by omega), Nat.zero_add, Nat.one_mul]
    · intro i hi
      rfl
  have hsome := dotCf32_sum buffer reversed current f.tapsLen (by omega) (le_of_eq hlen.symm)
  change f.tapCf32 buffer current phase = _
  simp only [tapCf32, h.alignedCf32.1, alignedWindow_cf32 _ current h.alignedCf32.2,
    ha.tables _ hmod, Option.bind_eq_bind, Option.bind_some]
  rw [dotCf32_aligned buffer _ _ _ hlen.symm (by omega), hback]
  simp only [floatFilter, blockCf32, ← hdot, hsome, Option.bind_some, Option.getD_some]

theorem feedCf32_eq {normalise : K → K} (h : Sized maxLen f) (ha : Aligned f reversed)
    (convert : α → α → K) (input : List α) (hmax : (samples convert input).length ≤ maxLen / 2)
    (hwhole : (samples convert input).length = input.length / 2)
    (hfix : ∀ k, normalise ((fun p => p * f.phaseIncr)^[k] f.phase) =
      (fun p => p * f.phaseIncr)^[k] f.phase) :
    ∃ g, feedCf32 normalise convert input f =
        some (((f.floatFilter reversed).feed f.phase
          (f.floatHistory ++ samples convert input)).1, g) ∧
      (g.phase, g.floatHistory) =
        ((f.floatFilter reversed).feed f.phase (f.floatHistory ++ samples convert input)).2 ∧
      (∃ k, g.phase = (fun p => p * f.phaseIncr)^[k] f.phase) ∧
      Sized maxLen g ∧ Aligned g reversed ∧ g.phaseIncr = f.phaseIncr ∧
      g.floatFilter reversed = f.floatFilter reversed := by
  have hxs : (samples convert input).length =
      (f.blockCf32 normalise).width * (samples convert input).length := (Nat.one_mul _).symm
  obtain ⟨stored, rest, history, hstore, hp, hrl, hhist, hrest⟩ :=
    Block.store_process (implements_cf32 normalise h ha hmax) hxs f.phase hfix
  have hwidth : ∀ m, (f.blockCf32 normalise).width * m = m := Nat.one_mul
  rw [hwidth] at hstore hp hrest
  rw [hwidth] at hrest
  change _ = some (((f.floatFilter reversed).feed _ (f.floatHistory ++ _)).1, _) at hp
  change _ = ((f.floatFilter reversed).feed _ (f.floatHistory ++ _)).2.2 at hrest
  refine ⟨{ f with
    phase := ((f.floatFilter reversed).feed f.phase (f.floatHistory ++ samples convert input)).2.1
    workingBufferCf32 := rest, historyOffset := history }, ?_, ?_, ⟨_, rfl⟩, ?_, ?_, rfl, rfl⟩
  · simp only [feedCf32, storeCf32, hstore, Option.map_some, Option.bind_some, processNativeCf32]
    change Option.map _ (Block.process (f.blockCf32 normalise) _ _ _ _) = _
    rw [← hwhole, hp]
    rfl
  · exact Prod.ext rfl hrest
  · exact { h with
      bufferCf32 := hrl.trans h.bufferCf32
      history := hhist }
  · exact ⟨ha.length, ha.tables⟩

theorem calls_streamCf32 {normalise : K → K} (h : Sized maxLen f) (ha : Aligned f reversed)
    (convert : α → α → K) (inputs : List (List α))
    (hinputs : ∀ input ∈ inputs, input.length / 2 ≤ maxLen / 2)
    (hfix : ∀ k, normalise ((fun p => p * f.phaseIncr)^[k] f.phase) =
      (fun p => p * f.phaseIncr)^[k] f.phase) :
    ∃ g, calls (feedCf32 normalise convert) inputs f =
      some (((f.floatFilter reversed).stream f.phase f.floatHistory
        (inputs.map (samples convert))).1, g) := by
  induction inputs generalizing f with
  | nil => exact ⟨f, rfl⟩
  | cons input inputs ih =>
    have hmax := hinputs input List.mem_cons_self
    obtain ⟨g, hg, hstate, ⟨k, hk⟩, hsized, haligned, hincr, hfilter⟩ :=
      feedCf32_eq h ha convert input (by rwa [samples_length]) (samples_length _ _) hfix
    have hfix' : ∀ m, normalise ((fun p => p * g.phaseIncr)^[m] g.phase) =
        (fun p => p * g.phaseIncr)^[m] g.phase := by
      intro m
      rw [hincr, hk, ← Function.iterate_add_apply]
      exact hfix (m + k)
    obtain ⟨r, hr⟩ := ih hsized haligned
      (fun next hnext => hinputs next (List.mem_cons_of_mem _ hnext)) hfix'
    have hphase : g.phase = _ := congrArg Prod.fst hstate
    have hhistory : g.floatHistory = _ := congrArg Prod.snd hstate
    rw [hfilter, hphase, hhistory] at hr
    refine ⟨r, ?_⟩
    rw [calls, hg]
    simp only [Option.bind_eq_bind, Option.bind_some, hr]
    rfl

end Xlating
end SdrServer
