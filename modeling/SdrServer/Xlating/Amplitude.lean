import SdrServer.Xlating.Optimized
import SdrServer.Xlating.Translation
import SdrServer.Foundation.Mealy

namespace SdrServer
namespace Xlating

namespace Block

variable {X P O : Type} {b : Block X P O} {buffer : List X} {next : P → P}

theorem loop_finish (finish : P → P) (buffer : List X) (maxIndex fuel current produced : Nat)
    (p : P) : loop { b with finish := finish } buffer maxIndex fuel current produced p =
      b.loop buffer maxIndex fuel current produced p := by
  induction fuel generalizing current produced p with
  | zero => rfl
  | succ fuel ih => simp only [loop, ih]

theorem process_finish (finish : P → P) (historyOffset n : Nat) (p : P) :
    process { b with finish := finish } buffer historyOffset n p =
      (process { b with finish := id } buffer historyOffset n p).map
        fun (os, q, rest, history) => (os, if os.isEmpty then q else finish q, rest, history) := by
  simp only [process, loop_finish]
  by_cases hshort : b.tapsLen - 1 < historyOffset + n
  · simp only [if_pos hshort]
    cases hloop : b.loop buffer (historyOffset + n - (b.tapsLen - 1))
        (historyOffset + n - (b.tapsLen - 1)) 0 0 p with
    | none => rfl
    | some r =>
      obtain ⟨os, last, q⟩ := r
      have hos : os ≠ [] := loop_nonempty (by omega) hloop
      simp only [Option.map_some, Option.bind_eq_bind, Option.bind_some, id_eq]
      by_cases hle : last ≤ historyOffset + n
      · simp only [if_pos hle]
        by_cases hlast : 0 < last
        · simp only [if_pos hlast]
          cases Buffer.moveDown buffer (b.width * last) (b.width * (historyOffset + n - last)) with
          | none => rfl
          | some rest => simp [hos]
        · simp [if_neg hlast, hos]
      · simp [if_neg hle]
  · simp only [if_neg hshort]
    simp

theorem process_outputs (hnext : ∀ buffer current p o q, b.body buffer current p = some (o, q) →
      q = next p) (hfinish : b.finish = id) {historyOffset n history : Nat} {p q : P} {os : List O}
    {rest : List X} (h : b.process buffer historyOffset n p = some (os, q, rest, history)) :
    q = next^[os.length] p ∧ rest.length = buffer.length ∧ history ≤ historyOffset + n ∧
      (os ≠ [] → b.decimation ≤ historyOffset + n ∧ b.tapsLen - 1 < historyOffset + n) := by
  rcases process_some h with ⟨-, rfl, rfl, hlength, rfl⟩ | ⟨hlong, last, r, hloop, rfl, hle, hlength, rfl⟩
  · exact ⟨rfl, hlength, Nat.le_refl _, fun hne => absurd rfl hne⟩
  · have hphase := loop_phase hnext hloop
    obtain ⟨hlast, -, -⟩ := loop_last hloop
    refine ⟨?_, hlength, Nat.sub_le _ _, ?_⟩
    · rw [hfinish]
      exact hphase
    · intro hne
      have hpos : 1 * b.decimation ≤ os.length * b.decimation :=
        Nat.mul_le_mul_right _ (List.length_pos_iff.mpr hne)
      exact ⟨by omega, hlong⟩

theorem process_single {historyOffset n : Nat} {p q : P} {o : O}
    (hlong : b.tapsLen - 1 < historyOffset + n)
    (hstop : ¬ b.decimation < historyOffset + n - (b.tapsLen - 1)) (hpos : 0 < b.decimation)
    (hout : 0 < b.outputLen) (hle : b.decimation ≤ historyOffset + n)
    (hroom : b.width * (historyOffset + n) ≤ buffer.length)
    (hbody : b.body buffer 0 p = some (o, q)) :
    ∃ rest history, b.process buffer historyOffset n p = some ([o], b.finish q, rest, history) := by
  obtain ⟨k, hk⟩ := Nat.exists_eq_add_of_lt (Nat.sub_pos_of_lt hlong)
  have hloop : b.loop buffer (historyOffset + n - (b.tapsLen - 1))
      (historyOffset + n - (b.tapsLen - 1)) 0 0 p = some ([o], b.decimation, q) := by
    have hfuel : historyOffset + n - (b.tapsLen - 1) = k + 1 := by omega
    have hlast : ¬ b.decimation < k + 1 := by omega
    rw [hfuel, loop, if_pos (Nat.succ_pos k), if_pos hout, hbody]
    simp only [Option.bind_eq_bind, Option.bind_some, Nat.zero_add, loop_stop hlast]
  have hmove : b.width * b.decimation + b.width * (historyOffset + n - b.decimation) ≤
      buffer.length := by
    rw [← Nat.mul_add, Nat.add_sub_of_le hle]
    exact hroom
  have hmoved : ∃ rest, Buffer.moveDown buffer (b.width * b.decimation)
      (b.width * (historyOffset + n - b.decimation)) = some rest := ⟨_, if_pos hmove⟩
  obtain ⟨rest, hmoved⟩ := hmoved
  refine ⟨rest, historyOffset + n - b.decimation, ?_⟩
  simp only [process, if_pos hlong, hloop, Option.map_some, Option.bind_eq_bind, Option.bind_some,
    if_pos hle, if_pos hpos, hmoved]

end Block

variable {f g : Xlating ℂ} {α : Type} {simd : Simd}

theorem tapOptimizedCf32_eq (simd : Simd) (h : f.alignmentCf32 = 32 ∧ f.workingBufferCf32Addr % 32 = 0)
    (hshort : f.tapsLen + 3 < 2 ^ 32) : f.tapOptimizedCf32 simd = f.tapCf32 := by
  funext buffer current phase
  have haddr : (f.workingBufferCf32Addr + 8 * (current - current % 4)) % 32 = 0 := by omega
  have hcount : (f.tapsLen + current % 4) % 2 ^ 32 = f.tapsLen + current % 4 :=
    Nat.mod_eq_of_lt (by omega)
  simp only [tapOptimizedCf32, tapCf32, h.1, alignedWindow_cf32 _ current h.2,
    Option.bind_eq_bind, Option.bind_some]
  cases simd with
  | off => rfl
  | neon => simp only [dotOptimized, hcount, dotNeon_eq]
  | avx => simp only [dotOptimized, hcount, dotAvx_eq _ _ _ _ haddr]

theorem processOptimizedCf32_eq (h : f.alignmentCf32 = 32 ∧ f.workingBufferCf32Addr % 32 = 0)
    (hshort : f.tapsLen + 3 < 2 ^ 32) (n : Nat) :
    processOptimizedCf32 simd n f = processNativeCf32 (finishOptimized simd) n f := by
  have htap := tapOptimizedCf32_eq simd h hshort
  cases simd with
  | off => rfl
  | neon => simp only [processOptimizedCf32, processNativeCf32, blockOptimizedCf32, blockCf32, htap]
  | avx => simp only [processOptimizedCf32, processNativeCf32, blockOptimizedCf32, blockCf32, htap]

theorem feedOptimizedCf32_eq (h : f.alignmentCf32 = 32 ∧ f.workingBufferCf32Addr % 32 = 0)
    (hshort : f.tapsLen + 3 < 2 ^ 32) (convert : α → α → ℂ) (input : List α) :
    feedOptimizedCf32 simd convert input f = feedCf32 (finishOptimized simd) convert input f := by
  simp only [feedOptimizedCf32, feedCf32, storeCf32]
  cases Buffer.storeAt f.workingBufferCf32 f.historyOffset (samples convert input) with
  | none => rfl
  | some stored =>
    simp only [Option.map_some, Option.bind_some]
    exact processOptimizedCf32_eq (f := { f with workingBufferCf32 := stored }) h hshort _

theorem tapCf32_next {buffer : List ℂ} {current : Nat} {p o q : ℂ}
    (h : f.tapCf32 buffer current p = some (o, q)) : q = p * f.phaseIncr := by
  obtain ⟨⟨start, align⟩, -, h⟩ := Option.bind_eq_some_iff.mp h
  obtain ⟨taps, -, h⟩ := Option.bind_eq_some_iff.mp h
  obtain ⟨temp, -, h⟩ := Option.bind_eq_some_iff.mp h
  cases h
  rfl

def renormalise (normalise : ℂ → ℂ) (output : List ℂ) (g : Xlating ℂ) : Xlating ℂ :=
  if output.isEmpty then g else { g with phase := normalise g.phase }

theorem processNativeCf32_finish (normalise : ℂ → ℂ) (n : Nat) (f : Xlating ℂ) :
    processNativeCf32 normalise n f =
      (processNativeCf32 id n f).map fun r => (r.1, renormalise normalise r.1 r.2) := by
  have hfinish : Block.process (f.blockCf32 normalise) f.workingBufferCf32 f.historyOffset n f.phase =
      (Block.process (f.blockCf32 id) f.workingBufferCf32 f.historyOffset n f.phase).map _ :=
    Block.process_finish (b := f.blockCf32 id) normalise f.historyOffset n f.phase
  simp only [processNativeCf32, hfinish, Option.map_map]
  congr 1
  funext r
  obtain ⟨output, phase, buffer, history⟩ := r
  cases output <;> rfl

theorem feedCf32_finish (normalise : ℂ → ℂ) (convert : α → α → ℂ) (input : List α)
    (f : Xlating ℂ) : feedCf32 normalise convert input f =
      (feedCf32 id convert input f).map fun (output, g) =>
        (output, renormalise normalise output g) := by
  simp only [feedCf32, storeCf32]
  cases Buffer.storeAt f.workingBufferCf32 f.historyOffset (samples convert input) with
  | none => rfl
  | some stored =>
    simp only [Option.map_some, Option.bind_some]
    exact processNativeCf32_finish normalise _ _

structure Continues (f g : Xlating ℂ) : Prop where
  decimation : g.decimation = f.decimation
  tapsLen : g.tapsLen = f.tapsLen
  alignment : g.alignmentCf32 = f.alignmentCf32
  addr : g.workingBufferCf32Addr = f.workingBufferCf32Addr
  phaseIncr : g.phaseIncr = f.phaseIncr
  length : g.workingBufferCf32.length = f.workingBufferCf32.length

theorem feedCf32_outputs {convert : α → α → ℂ} {input : List α} {output : List ℂ}
    (hroom : f.historyOffset ≤ f.workingBufferCf32.length)
    (h : feedCf32 id convert input f = some (output, g)) :
    Continues f g ∧ g.phase = f.phase * f.phaseIncr ^ output.length ∧
      g.historyOffset ≤ g.workingBufferCf32.length ∧
      (output ≠ [] → f.decimation ≤ f.workingBufferCf32.length ∧
        f.tapsLen - 1 < f.workingBufferCf32.length) := by
  obtain ⟨stored, hstored, hprocess⟩ := Option.bind_eq_some_iff.mp h
  obtain ⟨buffer, hstore, rfl⟩ := Option.map_eq_some_iff.mp hstored
  obtain ⟨⟨os, phase, rest, history⟩, hblock, hout⟩ := Option.map_eq_some_iff.mp hprocess
  cases hout
  have hlength := Buffer.storeAt_length hstore
  have hbound := Buffer.storeAt_bound hroom hstore
  rw [samples_length] at hbound
  obtain ⟨hphase, hrest, hhistory, houtput⟩ :=
    Block.process_outputs (fun _ _ _ _ _ => tapCf32_next) rfl hblock
  change rest.length = buffer.length at hrest
  change history ≤ f.historyOffset + input.length / 2 at hhistory
  refine ⟨⟨rfl, rfl, rfl, rfl, rfl, hrest.trans hlength⟩, ?_, ?_, ?_⟩
  · exact hphase.trans (iterate_mul _ _ _)
  · change history ≤ rest.length
    omega
  · intro hne
    obtain ⟨hdecimation, htaps⟩ := houtput hne
    change f.decimation ≤ f.historyOffset + input.length / 2 at hdecimation
    change f.tapsLen - 1 < f.historyOffset + input.length / 2 at htaps
    exact ⟨by omega, by omega⟩

noncomputable section

def Format.processOptimizedCf32 (simd : Simd) :
    (format : Format) → List format.Value → Xlating ℂ → Option (List ℂ × Xlating ℂ)
  | .cu8 => processOptimizedCu8Cf32 simd
  | .cs8 => processOptimizedCs8Cf32 simd
  | .cs16 => processOptimizedCs16Cf32 simd

abbrev Call := (format : Format) × List format.Value

def callNative (call : Call) : Xlating ℂ → Option (List ℂ × Xlating ℂ) :=
  call.1.processCf32 call.2

def callOptimized (simd : Simd) (call : Call) : Xlating ℂ → Option (List ℂ × Xlating ℂ) :=
  call.1.processOptimizedCf32 simd call.2

end

theorem callNative_eq (call : Call) (f : Xlating ℂ) :
    callNative call f = (feedCf32 id call.1.toCf32 call.2 f).map
      fun (output, g) => (output, renormalise hypotNormalise output g) := by
  rw [callNative, Format.processCf32_eq, feedCf32_finish]

theorem callOptimized_eq (h : f.alignmentCf32 = 32 ∧ f.workingBufferCf32Addr % 32 = 0)
    (hshort : f.tapsLen + 3 < 2 ^ 32) (call : Call) :
    callOptimized simd call f = (feedCf32 id call.1.toCf32 call.2 f).map
      fun (output, g) => (output, renormalise (finishOptimized simd) output g) := by
  obtain ⟨format, input⟩ := call
  have hfeed : format.processOptimizedCf32 simd input f =
      feedOptimizedCf32 simd format.toCf32 input f := by cases format <;> rfl
  rw [callOptimized, hfeed, feedOptimizedCf32_eq h hshort, feedCf32_finish]

structure Steady (simd : Simd) (f : Xlating ℂ) : Prop where
  unit : ∀ (calls : List Call) outputs g call output g',
    Mealy.run (callOptimized simd) calls f = some (outputs, g) →
      callOptimized simd call g = some (output, g') → output ≠ [] → ‖g'.phase‖ = 1
  native : ∀ calls : List Call,
    Mealy.run (callOptimized simd) calls f = Mealy.run callNative calls f

def Mute (f : Xlating ℂ) : Prop :=
  f.workingBufferCf32.length < f.tapsLen ∨ f.workingBufferCf32.length < f.decimation

structure UnitPhase (f g : Xlating ℂ) : Prop extends Continues f g where
  room : g.historyOffset ≤ g.workingBufferCf32.length
  modulus : ‖g.phase‖ = 1

theorem norm_hypotNormalise {p : ℂ} (hp : p ≠ 0) : ‖hypotNormalise p‖ = 1 := by
  rw [hypotNormalise, ← Complex.norm_eq_sqrt_sq_add_sq, norm_div, Complex.norm_real, norm_norm]
  exact div_self (norm_ne_zero_iff.mpr hp)

theorem unit_call (hincr : f.phaseIncr ≠ 0) (hg : UnitPhase f g) {call : Call} {output : List ℂ}
    {t : Xlating ℂ} (h : callNative call g = some (output, t)) : UnitPhase f t := by
  rw [callNative_eq] at h
  obtain ⟨⟨os, raw⟩, hraw, hout⟩ := Option.map_eq_some_iff.mp h
  cases hout
  obtain ⟨hcont, hphase, hroom, -⟩ := feedCf32_outputs hg.room hraw
  have hkept : Continues f raw := ⟨hcont.decimation.trans hg.decimation,
    hcont.tapsLen.trans hg.tapsLen, hcont.alignment.trans hg.alignment, hcont.addr.trans hg.addr,
    hcont.phaseIncr.trans hg.phaseIncr, hcont.length.trans hg.length⟩
  have hg0 : g.phase ≠ 0 := by
    intro hzero
    have hone := hg.modulus
    rw [hzero, norm_zero] at hone
    exact zero_ne_one hone
  cases output with
  | nil =>
    have hsame : raw.phase = g.phase := by rw [hphase, List.length_nil, pow_zero, mul_one]
    exact ⟨hkept, hroom, hsame ▸ hg.modulus⟩
  | cons o os =>
    have hne : raw.phase ≠ 0 := by
      rw [hphase, hg.phaseIncr]
      exact mul_ne_zero hg0 (pow_ne_zero _ hincr)
    exact ⟨{ hkept with }, hroom, norm_hypotNormalise hne⟩

theorem optimized_native (halign : f.alignmentCf32 = 32 ∧ f.workingBufferCf32Addr % 32 = 0)
    (hlen : f.tapsLen + 3 < 2 ^ 32) (hsimd : simd ≠ .avx ∨ ‖f.phaseIncr‖ = 1 ∨ Mute f)
    (hg : UnitPhase f g) (call : Call) :
    callOptimized simd call g = callNative call g := by
  have haligned : g.alignmentCf32 = 32 ∧ g.workingBufferCf32Addr % 32 = 0 := by
    rw [hg.alignment, hg.addr]
    exact halign
  rw [callOptimized_eq haligned (hg.tapsLen ▸ hlen), callNative_eq]
  cases hraw : feedCf32 id call.1.toCf32 call.2 g with
  | none => rfl
  | some r =>
    obtain ⟨output, raw⟩ := r
    obtain ⟨-, hphase, -, houtput⟩ := feedCf32_outputs hg.room hraw
    simp only [Option.map_some, Option.some.injEq, Prod.mk.injEq, true_and]
    cases simd with
    | off => rfl
    | neon => rfl
    | avx =>
      cases output with
      | nil => rfl
      | cons o os =>
        obtain ⟨hdecimation, htaps⟩ := houtput (by simp)
        rw [hg.decimation, hg.length] at hdecimation
        rw [hg.tapsLen, hg.length] at htaps
        rcases hsimd with hsimd | hincr | hmute
        · exact absurd rfl hsimd
        · have hmodulus : ‖raw.phase‖ = 1 := by
            rw [hphase, norm_mul, norm_pow, hg.phaseIncr, hincr, one_pow, hg.modulus, one_mul]
          simp only [renormalise, List.isEmpty_cons, finishOptimized, hypotNormalise_unit _ hmodulus]
          rfl
        · exfalso
          rcases hmute with hshort | hstride
          · omega
          · omega

theorem steady_of (halign : f.alignmentCf32 = 32 ∧ f.workingBufferCf32Addr % 32 = 0)
    (hlen : f.tapsLen + 3 < 2 ^ 32) (hincr : f.phaseIncr ≠ 0) (hunit : UnitPhase f f)
    (hsimd : simd ≠ .avx ∨ ‖f.phaseIncr‖ = 1 ∨ Mute f) : Steady simd f := by
  have hstep : ∀ g (call : Call) output t, UnitPhase f g →
      callOptimized simd call g = some (output, t) → UnitPhase f t := by
    intro g call output t hg h
    rw [optimized_native halign hlen hsimd hg] at h
    exact unit_call hincr hg h
  constructor
  · intro calls outputs g call output g' hrun hcall _
    have hg := Mealy.run_invariant hstep hunit hrun
    exact (hstep g call output g' hg hcall).modulus
  · intro calls
    exact Mealy.run_congr hstep (fun g call hg => optimized_native halign hlen hsimd hg call) hunit calls

structure Created (stride window maxLen : Nat) (f : Xlating ℂ) : Prop where
  positive : 0 < stride
  taps : 0 < window
  decimation : f.decimation = stride
  tapsLen : f.tapsLen = window
  aligned : f.alignmentCf32 = 32 ∧ f.workingBufferCf32Addr % 32 = 0
  length : f.workingBufferCf32.length = maxLen / 2 + (window - 1)
  history : f.historyOffset = window - 1
  output : 0 < f.outputLenSampls
  phase : f.phase = 1
  table : ∃ table, f.tapsCf32[0]? = some table ∧ window ≤ table.length

theorem created {heap : Nat × Nat} {decimation : Nat} {taps : List ℝ} {centerFreq : Int}
    {samplingFreq maxLen : Nat} (phaseIncr : ℂ)
    (h : createFrequencyXlatingFilter heap decimation taps centerFreq samplingFreq maxLen = some f) :
    Created decimation taps.length maxLen { f with phaseIncr } := by
  have haligned := (tabled_created h).1.aligned
  simp only [createFrequencyXlatingFilter] at h
  split at h
  · cases h
  · rename_i htaps
    split at h
    · cases h
    · rename_i hdecimation
      obtain rfl := Option.some.inj h
      refine ⟨Nat.pos_of_ne_zero hdecimation, Nat.pos_of_ne_zero htaps, rfl, rfl, ⟨rfl, ?_⟩, ?_, rfl,
        Nat.succ_pos _, rfl, ?_⟩
      · exact Nat.mul_mod_right 32 _
      · exact List.length_replicate
      · refine ⟨_, haligned.tables 0 (by decide), ?_⟩
        rw [alignedTaps, List.length_append, List.length_append, haligned.length]
        exact Nat.le_trans (Nat.le_add_left _ _) (Nat.le_add_right _ _)

theorem processNativeCf32_some {normalise : ℂ → ℂ} {n history : Nat} {output rest : List ℂ} {p : ℂ}
    (h : (f.blockCf32 normalise).process f.workingBufferCf32 f.historyOffset n f.phase =
      some (output, p, rest, history)) :
    processNativeCf32 normalise n f =
      some (output, { f with phase := p, workingBufferCf32 := rest, historyOffset := history }) := by
  rw [processNativeCf32, h]
  rfl

theorem first_output {stride window maxLen : Nat} (hf : Created stride window maxLen f)
    (hmute : ¬ Mute f) (convert : α → α → ℂ) (x : α) :
    ∃ input o g, feedCf32 id convert input f = some ([o], g) := by
  have hpositive := hf.positive
  have htaps := hf.taps
  have hlength := hf.length
  have hwindow : window ≤ f.workingBufferCf32.length := by
    apply Nat.le_of_not_lt
    intro hlt
    exact hmute (Or.inl (hf.tapsLen ▸ hlt))
  have hstride : stride ≤ f.workingBufferCf32.length := by
    apply Nat.le_of_not_lt
    intro hlt
    exact hmute (Or.inr (hf.decimation ▸ hlt))
  -- just enough samples for the window and for one step of the decimation
  obtain ⟨m, hm⟩ : ∃ m, window - 1 + m = max window stride :=
    ⟨max window stride - (window - 1), by omega⟩
  have hsamples : (samples convert (List.replicate (2 * m) x)).length = m := by
    rw [samples_length, List.length_replicate]
    omega
  have hstore := Buffer.storeAt_eq f.workingBufferCf32 (samples convert (List.replicate (2 * m) x))
    (window - 1) (by omega)
  generalize hstored : f.workingBufferCf32.take (window - 1) ++ _ ++ _ = stored at hstore
  have hlen := Buffer.storeAt_length hstore
  obtain ⟨table, htable, hlong⟩ := hf.table
  have hreads : Reads stored table 0 window := ⟨by omega, hlong⟩
  have hbody : tapCf32 { f with workingBufferCf32 := stored } stored 0 f.phase =
      some ((∑ i ∈ Finset.range window, product stored table 0 i) * f.phase,
        f.phase * f.phaseIncr) := by
    simp only [tapCf32, hf.aligned.1, alignedWindow_cf32 _ 0 hf.aligned.2, Nat.zero_mod,
      Nat.sub_zero, Nat.add_zero, htable, hf.tapsLen, Option.bind_eq_bind, Option.bind_some,
      dotCf32_sum_of hreads]
  have hlong' : f.tapsLen - 1 < f.historyOffset + m := by
    rw [hf.tapsLen, hf.history]
    omega
  have hstop : ¬ f.decimation < f.historyOffset + m - (f.tapsLen - 1) := by
    rw [hf.tapsLen, hf.history, hf.decimation]
    omega
  have hle : f.decimation ≤ f.historyOffset + m := by
    rw [hf.history, hf.decimation]
    omega
  have hroom : 1 * (f.historyOffset + m) ≤ stored.length := by
    rw [hf.history]
    omega
  obtain ⟨rest, history, hprocess⟩ := Block.process_single
    (b := blockCf32 id { f with workingBufferCf32 := stored }) hlong' hstop
    (hf.decimation.symm ▸ hpositive) hf.output hle hroom hbody
  have hn : (List.replicate (2 * m) x).length / 2 = m := by
    rw [List.length_replicate]
    omega
  have hout := processNativeCf32_some (f := { f with workingBufferCf32 := stored }) hprocess
  have hfeed : feedCf32 id convert (List.replicate (2 * m) x) f =
      processNativeCf32 id m { f with workingBufferCf32 := stored } := by
    rw [feedCf32, storeCf32, hf.history, hstore, hn]
    rfl
  exact ⟨_, _, _, hfeed.trans hout⟩

theorem fades_of {stride window maxLen : Nat} (hf : Created stride window maxLen f)
    (hshort : f.tapsLen + 3 < 2 ^ 32) (hmute : ¬ Mute f) (hsteady : Steady .avx f) :
    ‖f.phaseIncr‖ = 1 := by
  obtain ⟨input, o, g, hfeed⟩ := first_output hf hmute cu8ToCf32 0
  have hroom : f.historyOffset ≤ f.workingBufferCf32.length := by
    rw [hf.history, hf.length]
    exact Nat.le_add_left _ _
  obtain ⟨-, hphase, -, -⟩ := feedCf32_outputs hroom hfeed
  have hcall : callOptimized .avx ⟨.cu8, input⟩ f = some ([o], g) := by
    rw [callOptimized_eq hf.aligned hshort]
    change (feedCf32 id cu8ToCf32 input f).map _ = _
    rw [hfeed]
    rfl
  have hunit := hsteady.unit [] [] f ⟨.cu8, input⟩ [o] g rfl hcall (by simp)
  rw [hphase, hf.phase, one_mul, List.length_singleton, pow_one] at hunit
  exact hunit

theorem amplitude_steady {heap : Nat × Nat} {decimation : Nat} {taps : List ℝ} {centerFreq : Int}
    {samplingFreq maxLen : Nat} {phaseIncr : ℂ} (simd : Simd)
    (h : createFrequencyXlatingFilter heap decimation taps centerFreq samplingFreq maxLen = some f)
    (hlen : taps.length + 3 < 2 ^ 32) (hincr : phaseIncr ≠ 0) :
    Steady simd { f with phaseIncr } ↔
      simd ≠ .avx ∨ ‖phaseIncr‖ = 1 ∨ maxLen / 2 = 0 ∨
        maxLen / 2 + (taps.length - 1) < decimation := by
  have hf := created phaseIncr h
  have hpositive := hf.positive
  have htaps := hf.taps
  have hmute : Mute { f with phaseIncr } ↔
      maxLen / 2 = 0 ∨ maxLen / 2 + (taps.length - 1) < decimation := by
    rw [Mute, hf.length, hf.tapsLen, hf.decimation]
    omega
  have hunit : UnitPhase { f with phaseIncr } { f with phaseIncr } := by
    refine ⟨⟨rfl, rfl, rfl, rfl, rfl, rfl⟩, ?_, ?_⟩
    · rw [hf.history, hf.length]
      exact Nat.le_add_left _ _
    · rw [hf.phase, norm_one]
  have hshort : f.tapsLen + 3 < 2 ^ 32 := by
    rw [hf.tapsLen]
    exact hlen
  rw [← hmute]
  constructor
  · intro hsteady
    by_cases havx : simd = .avx
    · subst havx
      by_cases hsilent : Mute { f with phaseIncr }
      · exact Or.inr (Or.inr hsilent)
      · exact Or.inr (Or.inl (fades_of hf hshort hsilent hsteady))
    · exact Or.inl havx
  · intro hsimd
    exact steady_of hf.aligned hshort hincr hunit hsimd

-- cexpf of the angle that centre frequency 12000 at 48000 samples per second gives
noncomputable def quarterTurn : ℂ := ⟨((-6151831 : ℤ) : ℝ) / ((2 ^ 47 : ℕ) : ℝ), ((-1 : ℤ) : ℝ)⟩

theorem quarterTurn_ne_zero : quarterTurn ≠ 0 := by
  intro h
  have him := congrArg Complex.im h
  norm_num [quarterTurn] at him

theorem norm_quarterTurn : ‖quarterTurn‖ ≠ 1 := by
  intro h
  have hsq : Complex.normSq quarterTurn = 1 := by
    rw [Complex.normSq_eq_norm_sq, h, one_pow]
  norm_num [quarterTurn, Complex.normSq_apply] at hsq

theorem oneTap_created :
    ∃ f, createFrequencyXlatingFilter (0, 0) 1 [1] 12000 48000 2 = some f := ⟨_, rfl⟩

theorem amplitude_steady_quarterTurn : ∃ f,
    createFrequencyXlatingFilter (0, 0) 1 [1] 12000 48000 2 = some f ∧
      (Steady .neon { f with phaseIncr := quarterTurn } ↔ Simd.neon ≠ .avx ∨ ‖quarterTurn‖ = 1 ∨
        2 / 2 = 0 ∨ 2 / 2 + (([1] : List ℝ).length - 1) < 1) := by
  obtain ⟨f, hf⟩ := oneTap_created
  exact ⟨f, hf, amplitude_steady .neon hf (by norm_num) quarterTurn_ne_zero⟩

theorem amplitude_drifts : ∃ f, createFrequencyXlatingFilter (0, 0) 1 [1] 12000 48000 2 = some f ∧
    quarterTurn ≠ 0 ∧ ¬ Steady .avx { f with phaseIncr := quarterTurn } := by
  obtain ⟨f, hf⟩ := oneTap_created
  refine ⟨f, hf, quarterTurn_ne_zero, ?_⟩
  intro hsteady
  have hcreated := created quarterTurn hf
  have hmute : ¬ Mute { f with phaseIncr := quarterTurn } := by
    intro hmute
    rw [Mute, hcreated.length, hcreated.tapsLen, hcreated.decimation] at hmute
    simp at hmute
  have hshort : f.tapsLen + 3 < 2 ^ 32 := by
    rw [hcreated.tapsLen]
    norm_num
  exact norm_quarterTurn (fades_of hcreated hshort hmute hsteady)

end Xlating
end SdrServer
