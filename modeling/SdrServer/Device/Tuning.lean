import SdrServer.Device.Lifecycle
import SdrServer.Msisdr.Mirror

namespace SdrServer
namespace Device

open LibCall
open Msisdr (Restart Bandwidth IfFreq knobs knobs_retune knobs_programHard)

def msisdrIfFreqOf (c : Config.ServerConfig) : UInt32 :=
  if c.msisdrIfFreq < 0 then 0 else c.msisdrIfFreq.toUInt32

def msisdrBandwidthOf (c : Config.ServerConfig) : UInt32 :=
  if c.msisdrBandwidth > 0 then c.msisdrBandwidth else 8000000

-- the arguments of msisdr_device_start_rx; msisdr_rsp1a_gpio_init writes no register
def msisdrCallOf (c : Config.ServerConfig) (bandFreq : UInt32) (restart : Restart) :
    LibCall → Option Msisdr.Call
  | msisdrSetHwFlavour => some (.setHwFlavour .default)
  | msisdrSetSampleFormat => some (.setSampleFormat "504_S16" restart)
  | msisdrSetIfFreq => some (.setIfFreq (msisdrIfFreqOf c))
  | msisdrSetBandwidth => some (.setBandwidth (msisdrBandwidthOf c))
  | msisdrSetSampleRate => some (.setSampleRate c.bandSamplingRate restart)
  | msisdrSetCenterFreq => some (.setCenterFreq bandFreq)
  | msisdrSetTunerGainMode => some (.setTunerGainMode c.msisdrGainMode.toInt)
  | msisdrSetTunerGain => some (.setTunerGain c.msisdrGain.toInt)
  | msisdrResetBuffer => some (.resetBuffer restart)
  | _ => none

-- ERROR_CHECK around a call on the real driver
def callMsisdr (c : Config.ServerConfig) (bandFreq : UInt32) (restart : Restart) (p : Msisdr.Dev)
    (call : LibCall) : Except Int Msisdr.Dev :=
  match msisdrCallOf c bandFreq restart call with
  | none => .ok p
  | some call => if (call.run p).1 < 0 then .error (call.run p).1 else .ok (call.run p).2

-- what msisdr_device_start_rx does to the device that msisdr_open gave it
def configureMsisdr (c : Config.ServerConfig) (bandFreq : UInt32) (restart : Restart)
    (pid : UInt16) : Except Int Msisdr.Dev :=
  (msisdrCalls c).foldlM (callMsisdr c bandFreq restart) (Msisdr.setup pid)

-- the narrowest filter that lets the bandwidth through
def narrowest (bw : UInt32) : Bandwidth :=
  ([.bw200kHz, .bw300kHz, .bw600kHz, .bw1536kHz, .bw5MHz, .bw6MHz, .bw7MHz, .bw8MHz].find?
    fun b : Bandwidth => bw ≤ b.hertz).getD .max

theorem narrow_eq (bw limit : UInt32) (bandwidth : Bandwidth) (ifFreq : Msisdr.Dev → IfFreq)
    (p : Msisdr.Dev) :
    Msisdr.narrow bw limit bandwidth ifFreq p =
      { p with
        bandwidth := if bw ≤ limit then bandwidth else p.bandwidth
        ifFreq := if bw ≤ limit then ifFreq p else p.ifFreq } := by
  unfold Msisdr.narrow
  split <;> rfl

theorem find_cons (bw : UInt32) (b : Bandwidth) (bs : List Bandwidth) :
    ((b :: bs).find? fun b => bw ≤ b.hertz).getD .max =
      if bw ≤ b.hertz then b else (bs.find? fun b => bw ≤ b.hertz).getD .max := by
  by_cases h : bw ≤ b.hertz <;> simp [h]

theorem chooseBandwidth_narrowest (bw : UInt32) (p : Msisdr.Dev) :
    Msisdr.chooseBandwidth bw p =
      { p with
        bandwidth := narrowest bw
        ifFreq :=
          if bw ≤ 600000 then .if450kHz
          else if bw ≤ 1536000 ∧ p.rate ≥ 5000000 then .if1620kHz
          else p.ifFreq } := by
  have hbandwidth : narrowest bw =
      if bw ≤ 200000 then .bw200kHz
      else if bw ≤ 300000 then .bw300kHz
      else if bw ≤ 600000 then .bw600kHz
      else if bw ≤ 1536000 then .bw1536kHz
      else if bw ≤ 5000000 then .bw5MHz
      else if bw ≤ 6000000 then .bw6MHz
      else if bw ≤ 7000000 then .bw7MHz
      else if bw ≤ 8000000 then .bw8MHz
      else .max := by
    simp only [narrowest, find_cons, List.find?_nil]
    rfl
  have hup : ∀ {a b : UInt32}, bw ≤ a → a ≤ b → bw ≤ b := fun h hab => UInt32.le_trans h hab
  simp only [Msisdr.chooseBandwidth, narrow_eq, hbandwidth, ite_self]
  congr 1
  by_cases h600 : bw ≤ 600000
  · simp [h600]
  · have h300 : ¬ bw ≤ 300000 := fun h => h600 (hup h (by decide))
    have h200 : ¬ bw ≤ 200000 := fun h => h600 (hup h (by decide))
    by_cases h1536 : bw ≤ 1536000 <;> simp [h600, h300, h200, h1536]

theorem narrowest_wide (bw : UInt32) : bw ≤ (narrowest bw).hertz ∨ narrowest bw = .max := by
  rw [narrowest]
  cases hfind : List.find? _ _ with
  | none => exact Or.inr rfl
  | some b => exact Or.inl (by simpa using List.find?_some hfind)

theorem narrowest_least {bw : UInt32} {b : Bandwidth} (hb : b ≠ .max) (h : bw ≤ b.hertz) :
    (narrowest bw).hertz ≤ b.hertz := by
  have hsorted : List.Pairwise (fun a b : Bandwidth => a.hertz ≤ b.hertz)
      [.bw200kHz, .bw300kHz, .bw600kHz, .bw1536kHz, .bw5MHz, .bw6MHz, .bw7MHz, .bw8MHz] := by
    decide
  have hmem : b ∈ [Bandwidth.bw200kHz, .bw300kHz, .bw600kHz, .bw1536kHz, .bw5MHz, .bw6MHz,
      .bw7MHz, .bw8MHz] := by
    cases b <;> simp at hb ⊢
  rw [narrowest]
  cases hfind : List.find? _ _ with
  | none => exact absurd h (by simpa using List.find?_eq_none.mp hfind b hmem)
  | some found =>
    obtain ⟨-, before, after, heq, hnone⟩ := List.find?_eq_some_iff_append.mp hfind
    rw [heq, List.mem_append, List.mem_cons] at hmem
    rw [heq] at hsorted
    rcases hmem with hmem | rfl | hmem
    · exact absurd h (by simpa using hnone b hmem)
    · exact UInt32.le_refl _
    · exact List.rel_of_pairwise_cons (List.pairwise_append.mp hsorted).2.1 hmem

-- the registers are those of `knobs p`
structure Tuned (k p : Msisdr.Dev) : Prop where
  mirrored : Msisdr.Mirrored p
  same : knobs p = k

section Configure

variable (c : Config.ServerConfig) (bandFreq : UInt32) (restart : Restart) {k k' p q : Msisdr.Dev}

theorem Tuned.pass (hp : Tuned k p) (lib : LibCall) {call : Msisdr.Call}
    (hcall : msisdrCallOf c bandFreq restart lib = some call) (hvalid : call.Valid p)
    (hrun : call.run p = (0, q)) (hknobs : knobs q = k') :
    callMsisdr c bandFreq restart p lib = .ok q ∧ Tuned k' q := by
  have hmirrored := hp.mirrored.run _ hvalid
  rw [hrun] at hmirrored
  refine ⟨?_, hmirrored, hknobs⟩
  rw [callMsisdr, hcall]
  simp [hrun]

theorem Tuned.setHwFlavour (hp : Tuned k p) :
    ∃ q, callMsisdr c bandFreq restart p msisdrSetHwFlavour = .ok q ∧
      Tuned { k with hwFlavour := .default } q :=
  ⟨_, hp.pass c bandFreq restart msisdrSetHwFlavour rfl trivial rfl (knobs_retune (by rw [← hp.same]; rfl))⟩

theorem Tuned.setSampleFormat (hp : Tuned k p) (hidle : k.asyncStatus = .inactive) :
    ∃ q, callMsisdr c bandFreq restart p msisdrSetSampleFormat = .ok q ∧
      Tuned (Msisdr.settled { k with formatAuto := false, format := .s16_504 }) q := by
  have hnot : ¬ p.asyncStatus = .running := by
    rw [← hp.same] at hidle
    exact fun h => by simp [knobs, h] at hidle
  refine ⟨_, hp.pass c bandFreq restart msisdrSetSampleFormat rfl (fun h => absurd h hnot) ?_
    (knobs_programHard (p := { p with formatAuto := false, format := .s16_504 })
      (by rw [← hp.same]; rfl))⟩
  exact if_neg hnot

theorem Tuned.setIfFreq (hp : Tuned k p) {ifFreq : IfFreq}
    (h : Msisdr.ifFreqOf (msisdrIfFreqOf c) = some ifFreq) :
    ∃ q, callMsisdr c bandFreq restart p msisdrSetIfFreq = .ok q ∧ Tuned { k with ifFreq } q := by
  refine ⟨_, hp.pass c bandFreq restart msisdrSetIfFreq rfl trivial ?_
    (knobs_retune (p := { p with ifFreq }) (by rw [← hp.same]; rfl))⟩
  simp only [Msisdr.Call.run, Msisdr.setIfFreq, h]

theorem Tuned.setBandwidth (hp : Tuned k p) (hrate : ¬ k.rate ≥ 5000000) :
    ∃ q, callMsisdr c bandFreq restart p msisdrSetBandwidth = .ok q ∧
      Tuned
        { k with
          bandwidth := narrowest (msisdrBandwidthOf c)
          ifFreq := if msisdrBandwidthOf c ≤ 600000 then .if450kHz else k.ifFreq } q := by
  refine ⟨_, hp.pass c bandFreq restart msisdrSetBandwidth rfl trivial rfl (knobs_retune ?_)⟩
  rw [← hp.same] at hrate ⊢
  have hslow : ¬ (msisdrBandwidthOf c ≤ 1536000 ∧ p.rate ≥ 5000000) := fun h => hrate h.2
  rw [chooseBandwidth_narrowest, if_neg hslow]
  rfl

theorem Tuned.setSampleRate (hp : Tuned k p) (hidle : k.asyncStatus = .inactive) :
    ∃ q, callMsisdr c bandFreq restart p msisdrSetSampleRate = .ok q ∧
      Tuned (Msisdr.settled { k with rate := c.bandSamplingRate }) q := by
  have hnot : ¬ p.asyncStatus = .running := by
    rw [← hp.same] at hidle
    exact fun h => by simp [knobs, h] at hidle
  refine ⟨_, hp.pass c bandFreq restart msisdrSetSampleRate rfl (fun h => absurd h hnot) ?_
    (knobs_programHard (p := { p with rate := c.bandSamplingRate }) (by rw [← hp.same]; rfl))⟩
  exact if_neg hnot

theorem Tuned.setCenterFreq (hp : Tuned k p) :
    ∃ q, callMsisdr c bandFreq restart p msisdrSetCenterFreq = .ok q ∧
      Tuned { k with freq := bandFreq } q :=
  ⟨_, hp.pass c bandFreq restart msisdrSetCenterFreq rfl trivial rfl (knobs_retune (by rw [← hp.same]; rfl))⟩

theorem Tuned.resetBuffer (hp : Tuned k p) (hidle : k.asyncStatus = .inactive) :
    callMsisdr c bandFreq restart p msisdrResetBuffer = .ok p := by
  have hnot : ¬ p.asyncStatus = .running ∧ ¬ p.asyncStatus = .paused := by
    rw [← hp.same] at hidle
    exact ⟨fun h => by simp [knobs, h] at hidle, fun h => by simp [knobs, h] at hidle⟩
  have hrun : (Msisdr.Call.resetBuffer restart).run p = (0, p) := by
    simp [Msisdr.Call.run, Msisdr.resetBuffer, hnot]
  exact (hp.pass c bandFreq restart msisdrResetBuffer rfl trivial hrun hp.same).1

theorem Tuned.setTunerGain (hp : Tuned k p) (h0 : 0 ≤ c.msisdrGain.toInt)
    (h102 : c.msisdrGain.toInt ≤ 102) :
    ∃ q k', callMsisdr c bandFreq restart p msisdrSetTunerGain = .ok q ∧
      Msisdr.getTunerGain q = c.msisdrGain.toInt ∧ Msisdr.SameTuning k k' ∧ k'.rate = k.rate ∧
      Msisdr.getSampleFormat k' = Msisdr.getSampleFormat k ∧
      k'.asyncStatus = k.asyncStatus ∧ Tuned k' q := by
  have hgain := Msisdr.getTunerGain_setTunerGain h0 hp.mirrored.port
  rw [min_eq_left h102] at hgain
  obtain ⟨lna, mixbuffer, mixer, baseband, -, heq⟩ := Msisdr.setTunerGain_split h0 p
  rw [heq] at hgain
  obtain ⟨hcall, hq⟩ := hp.pass c bandFreq restart
    msisdrSetTunerGain rfl trivial heq rfl
  refine ⟨_, _, hcall, hgain, ?_, ?_, ?_, ?_, hq⟩
  · rw [← hp.same]
    exact ⟨rfl, rfl, rfl, rfl, rfl⟩
  · rw [← hp.same]
    rfl
  · rw [← hp.same]
    rfl
  · rw [← hp.same]
    rfl

-- the fields before the gain is set
def beforeGain (c : Config.ServerConfig) (bandFreq : UInt32) (ifFreq : IfFreq) (pid : UInt16) :
    Msisdr.Dev :=
  { Msisdr.opened pid with
    writes := []
    hwFlavour := .default
    formatAuto := false
    format := .s16_504
    ifFreq := if msisdrBandwidthOf c ≤ 600000 then .if450kHz else ifFreq
    bandwidth := narrowest (msisdrBandwidthOf c)
    rate := Msisdr.limitRate c.bandSamplingRate
    freq := bandFreq }

-- the calls from msisdr_set_if_freq on
def lateCalls (c : Config.ServerConfig) : List LibCall :=
  [msisdrSetIfFreq, msisdrSetBandwidth, msisdrSetSampleRate, msisdrSetCenterFreq,
    msisdrSetTunerGainMode] ++ (if c.msisdrGainMode = 1 then [msisdrSetTunerGain] else []) ++
    [msisdrResetBuffer]

theorem configure_late (pid : UInt16) :
    ∃ p, Tuned
        { Msisdr.opened pid with
          writes := []
          hwFlavour := .default
          formatAuto := false
          format := .s16_504 } p ∧
      configureMsisdr c bandFreq restart pid =
        (lateCalls c).foldlM (callMsisdr c bandFreq restart) p := by
  have h0 : Tuned { Msisdr.opened pid with writes := [] } (Msisdr.setup pid) :=
    ⟨Msisdr.mirrored_setup pid, knobs_retune (knobs_programHard rfl)⟩
  obtain ⟨p1, hcall1, h1⟩ := h0.setHwFlavour c bandFreq restart
  obtain ⟨p2, hcall2, h2⟩ := h1.setSampleFormat c bandFreq restart rfl
  have hgpio : (if c.msisdrHwFlavour = 1 then [msisdrRsp1aGpioInit] else []).foldlM
      (callMsisdr c bandFreq restart) p1 = .ok p1 := by
    split <;> rfl
  refine ⟨p2, h2, ?_⟩
  rw [configureMsisdr, msisdrCalls, lateCalls]
  simp only [List.foldlM_append, List.foldlM_cons, List.foldlM_nil, hcall1, hgpio, hcall2,
    Except.bind, bind, pure, Except.pure]

theorem configure_error (pid : UInt16) (h : Msisdr.ifFreqOf (msisdrIfFreqOf c) = none) :
    configureMsisdr c bandFreq restart pid = .error (-1) := by
  obtain ⟨p, -, heq⟩ := configure_late c bandFreq restart pid
  have hcall : callMsisdr c bandFreq restart p msisdrSetIfFreq = .error (-1) := by
    simp [callMsisdr, msisdrCallOf, Msisdr.Call.run, Msisdr.setIfFreq, h]
  rw [heq, lateCalls]
  simp only [List.cons_append, List.foldlM_cons, hcall, Except.bind, bind]

theorem configure_beforeGain (pid : UInt16) {ifFreq : IfFreq}
    (h : Msisdr.ifFreqOf (msisdrIfFreqOf c) = some ifFreq) :
    ∃ p, Tuned (beforeGain c bandFreq ifFreq pid) p ∧
      configureMsisdr c bandFreq restart pid =
        ((if c.msisdrGainMode = 1 then [msisdrSetTunerGain] else []) ++ [msisdrResetBuffer]).foldlM
          (callMsisdr c bandFreq restart) p := by
  obtain ⟨p2, h2, heq⟩ := configure_late c bandFreq restart pid
  obtain ⟨p3, hcall3, h3⟩ := h2.setIfFreq c bandFreq restart h
  have hslow : ¬ (2000000 : UInt32) ≥ 5000000 := by decide
  obtain ⟨p4, hcall4, h4⟩ := h3.setBandwidth c bandFreq restart hslow
  obtain ⟨p5, hcall5, h5⟩ := h4.setSampleRate c bandFreq restart rfl
  obtain ⟨p6, hcall6, h6⟩ := h5.setCenterFreq c bandFreq restart
  have hcall7 : callMsisdr c bandFreq restart p6 msisdrSetTunerGainMode = .ok p6 := rfl
  refine ⟨p6, h6, ?_⟩
  rw [heq, lateCalls]
  simp only [List.foldlM_append, List.foldlM_cons, List.foldlM_nil, hcall3, hcall4, hcall5, hcall6,
    hcall7, Except.bind, bind, pure, Except.pure]

end Configure

-- 59 dB is the gain that msisdr_setup leaves
structure Configured (c : Config.ServerConfig) (bandFreq : UInt32) (p : Msisdr.Dev) : Prop where
  faithful : Msisdr.Faithful p
  freq : p.freq = bandFreq
  rate : p.rate = Msisdr.limitRate c.bandSamplingRate
  format : Msisdr.getSampleFormat p = "504_S16"
  bandwidth : Msisdr.getBandwidth p = (narrowest (msisdrBandwidthOf c)).hertz
  ifFreq : Msisdr.getIfFreq p =
    if msisdrBandwidthOf c ≤ 600000 then 450000 else msisdrIfFreqOf c
  gain : Msisdr.getTunerGain p = if c.msisdrGainMode = 1 then c.msisdrGain.toInt else 59

section Configured

variable {c : Config.ServerConfig} {bandFreq : UInt32} {k p : Msisdr.Dev}

theorem getIfFreq_of_ifFreqOf {freq : UInt32} {ifFreq : IfFreq} {p : Msisdr.Dev}
    (h : Msisdr.ifFreqOf freq = some ifFreq) (hp : p.ifFreq = ifFreq) : Msisdr.getIfFreq p = freq := by
  unfold Msisdr.ifFreqOf at h
  split_ifs at h with h0 h1 h2 h3 <;> cases h <;> rw [Msisdr.getIfFreq, hp] <;> symm <;> assumption

theorem Tuned.configured {ifFreq : IfFreq} {pid : UInt16}
    (h : Msisdr.ifFreqOf (msisdrIfFreqOf c) = some ifFreq) (hp : Tuned k p)
    (hsame : Msisdr.SameTuning (beforeGain c bandFreq ifFreq pid) k)
    (hrate : k.rate = Msisdr.limitRate c.bandSamplingRate)
    (hformat : Msisdr.getSampleFormat k = "504_S16")
    (hgain : Msisdr.getTunerGain p = if c.msisdrGainMode = 1 then c.msisdrGain.toInt else 59) :
    Configured c bandFreq p := by
  obtain ⟨hfreq, -, hif, hbandwidth, -⟩ := hsame
  rw [← hp.same] at hfreq hif hbandwidth hrate hformat
  refine ⟨hp.mirrored.faithful, hfreq, hrate, hformat, congrArg Bandwidth.hertz hbandwidth, ?_, hgain⟩
  by_cases hnarrow : msisdrBandwidthOf c ≤ 600000
  · have h450 : p.ifFreq = .if450kHz := hif.trans (if_pos hnarrow)
    rw [if_pos hnarrow, Msisdr.getIfFreq, h450]
  · rw [if_neg hnarrow]
    exact getIfFreq_of_ifFreqOf h (hif.trans (if_neg hnarrow))

theorem getTunerGain_beforeGain {ifFreq : IfFreq} {pid : UInt16}
    (hp : Tuned (beforeGain c bandFreq ifFreq pid) p) : Msisdr.getTunerGain p = 59 := by
  have hport := hp.mirrored.port
  have hgain : p.gain = 43 := congrArg Msisdr.Dev.gain hp.same
  have hlna : p.gainReductionLna = 0 := congrArg Msisdr.Dev.gainReductionLna hp.same
  have hmixbuffer : p.gainReductionMixbuffer = 0 :=
    congrArg Msisdr.Dev.gainReductionMixbuffer hp.same
  have hmixer : p.gainReductionMixer = 0 := congrArg Msisdr.Dev.gainReductionMixer hp.same
  have hbaseband : p.gainReductionBaseband = 43 :=
    congrArg Msisdr.Dev.gainReductionBaseband hp.same
  simp only [Msisdr.getTunerGain, hgain, hlna, hmixbuffer, hmixer, hbaseband]
  cases hband : p.band with
  | am1 => exact absurd hband hport
  | am2 => rfl
  | vhf => rfl
  | b3 => rfl
  | b45 => rfl
  | l => rfl

end Configured

theorem configure_ok {c : Config.ServerConfig} (bandFreq : UInt32) (restart : Restart)
    (pid : UInt16) (h0 : 0 ≤ c.msisdrGain.toInt) (h102 : c.msisdrGain.toInt ≤ 102) {ifFreq : IfFreq}
    (h : Msisdr.ifFreqOf (msisdrIfFreqOf c) = some ifFreq) :
    ∃ p, configureMsisdr c bandFreq restart pid = .ok p ∧ Configured c bandFreq p := by
  obtain ⟨p, hp, heq⟩ := configure_beforeGain c bandFreq restart pid h
  rw [heq]
  by_cases hmanual : c.msisdrGainMode = 1
  · obtain ⟨q, k, hcall, hgain, hsame, hrate, hformat, hidle, hq⟩ :=
      hp.setTunerGain c bandFreq restart h0 h102
    have hreset := hq.resetBuffer c bandFreq restart hidle
    refine ⟨q, ?_, hq.configured h hsame hrate hformat (by rw [if_pos hmanual, hgain])⟩
    rw [if_pos hmanual]
    simp only [List.cons_append, List.nil_append, List.foldlM_cons, List.foldlM_nil, hcall, hreset,
      Except.bind, bind, pure, Except.pure]
  · have hreset := hp.resetBuffer c bandFreq restart rfl
    refine ⟨p, ?_, hp.configured h ⟨rfl, rfl, rfl, rfl, rfl⟩ rfl rfl
      (by rw [if_neg hmanual, getTunerGain_beforeGain hp])⟩
    rw [if_neg hmanual]
    simp only [List.nil_append, List.foldlM_cons, List.foldlM_nil, hreset, Except.bind, bind, pure,
      Except.pure]

-- the chip is set up as the file says, or msisdr_set_if_freq refuses the file's frequency
theorem msisdr_follows_config {tmpdir : Option String} {file : Except String Config.Libconfig}
    {c : Config.ServerConfig} (h : Config.createServerConfig tmpdir file = .ok c)
    (bandFreq : UInt32) (restart : Restart) (pid : UInt16) :
    if msisdrIfFreqOf c ∈ [0, 450000, 1620000, 2048000] then
      ∃ p, configureMsisdr c bandFreq restart pid = .ok p ∧ Configured c bandFreq p
    else configureMsisdr c bandFreq restart pid = .error (-1) := by
  obtain ⟨h0, h102⟩ := Config.msisdrGain_bounds h
  split
  · rename_i hmem
    have hsome : ∃ ifFreq, Msisdr.ifFreqOf (msisdrIfFreqOf c) = some ifFreq := by
      simp only [List.mem_cons, List.not_mem_nil, or_false] at hmem
      rcases hmem with heq | heq | heq | heq <;> exact ⟨_, by rw [heq]; rfl⟩
    obtain ⟨ifFreq, hif⟩ := hsome
    exact configure_ok bandFreq restart pid h0 h102 hif
  · rename_i hmem
    simp only [List.mem_cons, List.not_mem_nil, or_false, not_or] at hmem
    exact configure_error c bandFreq restart pid (by simp [Msisdr.ifFreqOf, hmem])

def msisdrFile : Config.Libconfig := fun name =>
  match name with
  | "sdr_type" => some ⟨3, 3, false, none⟩
  | "band_sampling_rate" => some ⟨10000000, 10000000, false, none⟩
  | "msisdr_bandwidth" => some ⟨1536000, 1536000, false, none⟩
  | "msisdr_if_freq" => some ⟨2048000, 2048000, false, none⟩
  | _ => none

theorem msisdr_follows_file : ∃ c, Config.createServerConfig none (.ok msisdrFile) = .ok c ∧
    ∃ p, configureMsisdr c 433920000 ⟨true, true⟩ 0x2500 = .ok p ∧ Configured c 433920000 p := by
  have haccepted : Config.createServerConfig none (.ok msisdrFile) = .ok _ := rfl
  have hconfigured := msisdr_follows_config haccepted 433920000 ⟨true, true⟩ 0x2500
  rw [if_pos (by decide)] at hconfigured
  exact ⟨_, haccepted, hconfigured⟩

end Device
end SdrServer
