import SdrServer.Foundation.SinglePrecision
import SdrServer.RtlTcp.Broadcast
import Mathlib.Data.Real.Basic

namespace SdrServer
namespace RtlTcp

open SinglePrecision (rounded truncate abs_rounded_sub abs_truncate_sub)

-- the correction as float computes it, each operation rounded
def singlePrecision : DcArithmetic ℚ where
  zero := 0
  ofInt16 s := s.toInt
  average avg s := rounded (rounded (rounded (998 / 1000) * avg) + rounded (rounded (2 / 1000) * s))
  residue s avg := Int32.ofInt (truncate (rounded (s - avg)))

-- arithmetic that is off by at most a fiftieth, the conversion to int32_t by at most one more
structure Accurate {F : Type} (f : DcArithmetic F) (val : F → ℝ) : Prop where
  zero : val f.zero = 0
  average (avg : F) (s : Int16) : |val avg| ≤ 40000 →
    |val (f.average avg (f.ofInt16 s)) - (0.998 * val avg + 0.002 * s.toInt)| ≤ 1 / 50
  residue (avg : F) (s : Int16) : |val avg| ≤ 40000 →
    |((f.residue (f.ofInt16 s) avg).toInt : ℝ) - (s.toInt - val avg)| ≤ 1 + 1 / 50

section Words

theorem clamp_toInt (c : Int32) : (clamp c).toInt = max (-32768) (min 32767 c.toInt) := by
  have hmax : (32767 : Int32).toInt = 32767 := by decide
  have hmin : (-32768 : Int32).toInt = -32768 := by decide
  unfold clamp
  simp only [gt_iff_lt, Int32.lt_iff_toInt_lt, hmax, hmin]
  split
  · have htop : (32767 : Int16).toInt = 32767 := by decide
    omega
  · split
    · have hbottom : (-32768 : Int16).toInt = -32768 := by decide
      omega
    · rw [Int32.toInt_toInt16, Int.bmod_eq_of_le (by omega) (by omega)]
      omega

theorem toUint8_toNat (s : Int16) : ((toUint8 s).toNat : Int) = s.toInt / 256 + 128 := by
  have hlow := s.le_toInt
  have hhigh := s.toInt_lt
  have hshift : (s.toInt32 >>> 8).toInt = s.toInt / 256 := by
    rw [← Int16.toInt_toInt32, ← Int32.toInt_toBitVec, Int32.toBitVec_shiftRight,
      ← Int32.toInt_toBitVec]
    exact (BitVec.toInt_sshiftRight (n := 8)).trans (Int.shiftRight_eq_div_pow _ 8)
  have hsum : (s.toInt32 >>> 8 + 128).toInt = s.toInt / 256 + 128 := by
    have h128 : (128 : Int32).toInt = 128 := by decide
    rw [Int32.toInt_add, hshift, h128]
    refine Int.bmod_eq_of_le ?_ ?_ <;> omega
  have hnonneg : (0 : Int32) ≤ s.toInt32 >>> 8 + 128 := by
    have hzero : (0 : Int32).toInt = 0 := by decide
    rw [Int32.le_iff_toInt_le, hsum, hzero]
    omega
  have hnat : (s.toInt32 >>> 8 + 128).toUInt32.toNat = (s.toInt / 256 + 128).toNat := by
    rw [Int32.toNat_toUInt32_of_le hnonneg, ← hsum]
    rfl
  rw [toUint8, UInt32.toNat_toUInt8, hnat]
  omega

theorem clamp_apart {b : Int} {c c' : Int32} (hlow : -b ≤ c'.toInt - c.toInt)
    (hhigh : c'.toInt - c.toInt ≤ b) :
    -b ≤ (clamp c').toInt - (clamp c).toInt ∧ (clamp c').toInt - (clamp c).toInt ≤ b := by
  rw [clamp_toInt, clamp_toInt]
  omega

end Words

section Single

variable {avg : ℚ} {s : Int16}

theorem abs_toInt_le (s : Int16) : |(s.toInt : ℚ)| ≤ 32768 := by
  have hlow : (-32768 : ℚ) ≤ s.toInt := by exact_mod_cast s.le_toInt
  have hhigh : (s.toInt : ℚ) < 32768 := by exact_mod_cast s.toInt_lt
  exact abs_le.mpr ⟨hlow, hhigh.le⟩

-- an operation whose exact result is below `bound`
theorem rounded_error {x bound : ℚ} (h : |x| ≤ bound) :
    |rounded x - x| ≤ bound / 2 ^ 24 + 1 / 2 ^ 150 := by
  have hdiv : |x| / 2 ^ 24 ≤ bound / 2 ^ 24 := div_le_div_of_nonneg_right h (by norm_num)
  linarith [abs_rounded_sub x]

theorem rounded_mul_error {c x bound : ℚ} (hbound : 1 ≤ bound) (hx : |x| ≤ 2 ^ 20)
    (h : |c * x| ≤ bound) : |rounded (rounded c * x) - c * x| ≤ bound / 2 ^ 22 := by
  have hcoef : |rounded c * x - c * x| ≤ bound / 2 ^ 24 + 1 / 2 ^ 130 := by
    calc |rounded c * x - c * x| = |rounded c - c| * |x| := by rw [← sub_mul, abs_mul]
      _ ≤ (|c| / 2 ^ 24 + 1 / 2 ^ 150) * |x| :=
          mul_le_mul_of_nonneg_right (abs_rounded_sub c) (abs_nonneg x)
      _ = |c * x| / 2 ^ 24 + |x| / 2 ^ 150 := by rw [abs_mul]; ring
      _ ≤ bound / 2 ^ 24 + 2 ^ 20 / 2 ^ 150 := by gcongr
      _ = bound / 2 ^ 24 + 1 / 2 ^ 130 := by norm_num
  have hsize : |rounded c * x| ≤ 2 * bound := by
    have htriangle := abs_add_le (rounded c * x - c * x) (c * x)
    rw [sub_add_cancel] at htriangle
    norm_num only at hcoef
    linarith
  have hproduct := rounded_error hsize
  calc |rounded (rounded c * x) - c * x|
      ≤ |rounded (rounded c * x) - rounded c * x| + |rounded c * x - c * x| :=
        abs_sub_le _ _ _
    _ ≤ bound / 2 ^ 22 := by
        norm_num only at hproduct hcoef ⊢
        linarith

theorem singlePrecision_average (h : |avg| ≤ 40000) :
    |singlePrecision.average avg (singlePrecision.ofInt16 s) -
      (998 / 1000 * avg + 2 / 1000 * s.toInt)| ≤ 1 / 50 := by
  have hs := abs_toInt_le s
  have hold : |998 / 1000 * avg| ≤ 40000 := by
    rw [abs_mul, abs_of_pos (by norm_num)]
    linarith
  have hnew : |2 / 1000 * (s.toInt : ℚ)| ≤ 66 := by
    rw [abs_mul, abs_of_pos (by norm_num)]
    linarith
  have hfirst := abs_le.mp (rounded_mul_error (by norm_num) (by linarith) hold)
  have hsecond := abs_le.mp (rounded_mul_error (by norm_num) (by linarith) hnew)
  obtain ⟨holdlow, holdhigh⟩ := abs_le.mp hold
  obtain ⟨hnewlow, hnewhigh⟩ := abs_le.mp hnew
  norm_num only at hfirst hsecond
  have hsum : |rounded (rounded (998 / 1000) * avg) + rounded (rounded (2 / 1000) * s.toInt)| ≤
      40067 := by
    rw [abs_le]
    norm_num only
    constructor <;> linarith
  have hthird := abs_le.mp (rounded_error hsum)
  norm_num only at hthird
  change |rounded (rounded (rounded (998 / 1000) * avg) + rounded (rounded (2 / 1000) * s.toInt)) -
    (998 / 1000 * avg + 2 / 1000 * s.toInt)| ≤ 1 / 50
  rw [abs_le]
  norm_num only
  constructor <;> linarith

theorem singlePrecision_residue (h : |avg| ≤ 40000) :
    |((singlePrecision.residue (singlePrecision.ofInt16 s) avg).toInt : ℚ) - (s.toInt - avg)| ≤
      1 + 1 / 50 := by
  have hs := abs_toInt_le s
  have hdiff : |(s.toInt : ℚ) - avg| ≤ 72768 := by
    calc |(s.toInt : ℚ) - avg| ≤ |(s.toInt : ℚ)| + |avg| := abs_sub _ _
      _ ≤ 72768 := by linarith
  have hrounded := abs_le.mp (rounded_error hdiff)
  have hcut := abs_lt.mp (abs_truncate_sub (rounded (s.toInt - avg)))
  obtain ⟨hlow, hhigh⟩ := abs_le.mp hdiff
  norm_num at hrounded
  have hint : (Int32.ofInt (truncate (rounded (s.toInt - avg)))).toInt =
      truncate (rounded (s.toInt - avg)) := by
    apply Int32.toInt_ofInt_of_le
    · have hmin : (-2 ^ 31 : ℚ) ≤ truncate (rounded (s.toInt - avg)) := by norm_num; linarith
      exact_mod_cast hmin
    · have hmax : (truncate (rounded (s.toInt - avg)) : ℚ) < 2 ^ 31 := by norm_num; linarith
      exact_mod_cast hmax
  change |((Int32.ofInt (truncate (rounded (s.toInt - avg)))).toInt : ℚ) - (s.toInt - avg)| ≤ _
  rw [hint, abs_le]
  constructor <;> linarith

theorem accurate_singlePrecision : Accurate singlePrecision fun avg : ℚ => (avg : ℝ) where
  zero := Rat.cast_zero
  average avg s h := by
    have hsmall : |avg| ≤ 40000 := by exact_mod_cast h
    have hbound := singlePrecision_average (s := s) hsmall
    have hreal := (Rat.cast_le (K := ℝ)).mpr hbound
    push_cast at hreal
    norm_num only at hreal ⊢
    exact hreal
  residue avg s h := by
    have hsmall : |avg| ≤ 40000 := by exact_mod_cast h
    have hbound := singlePrecision_residue (s := s) hsmall
    have hreal := (Rat.cast_le (K := ℝ)).mpr hbound
    push_cast at hreal
    exact hreal

end Single

section Gap

variable {F : Type} {f : DcArithmetic F} {val : F → ℝ} {avg avg' : F} {i i' : Int16} {d : Int}

-- how far the averages of two streams can be from the difference of the streams after `n` pairs
noncomputable def gap (n : ℕ) : ℝ := 0.998 ^ n * 131091 + 20

theorem gap_succ (n : ℕ) : gap (n + 1) = 0.998 * gap n + 0.04 := by
  unfold gap
  ring

theorem gap_late {n : ℕ} (hn : 3500 ≤ n) : gap n ≤ 150 := by
  have hpow : (0.998 : ℝ) ^ n ≤ 1 / 1024 := by
    calc (0.998 : ℝ) ^ n ≤ 0.998 ^ (50 * 70) :=
          pow_le_pow_of_le_one (by norm_num) (by norm_num) hn
      _ = (0.998 ^ 50) ^ 70 := pow_mul _ _ _
      _ ≤ 0.905 ^ 70 := pow_le_pow_left₀ (by norm_num) (by norm_num) 70
      _ ≤ 1 / 1024 := by norm_num
  unfold gap
  linarith

structure Apart (val : F → ℝ) (d : Int) (n : ℕ) (avg avg' : F) : Prop where
  low : |val avg| ≤ 32778
  high : |val avg'| ≤ 32778
  gap : |val avg' - val avg - d| ≤ gap n

theorem toInt_bounds (s : Int16) : (-32768 : ℝ) ≤ s.toInt ∧ (s.toInt : ℝ) ≤ 32767 := by
  have hlow := s.le_toInt
  have hhigh := s.toInt_lt
  constructor
  · exact_mod_cast hlow
  · have hle : s.toInt ≤ 32767 := by omega
    exact_mod_cast hle

theorem average_held (hf : Accurate f val) (h : |val avg| ≤ 32778) (s : Int16) :
    |val (f.average avg (f.ofInt16 s))| ≤ 32778 := by
  obtain ⟨hlow, hhigh⟩ := abs_le.mp h
  obtain ⟨hslow, hshigh⟩ := toInt_bounds s
  obtain ⟨hdown, hup⟩ := abs_le.mp (hf.average avg s (by linarith))
  rw [abs_le]
  norm_num at hdown hup
  constructor <;> linarith

theorem apart_start (h : |val avg| ≤ 32778) (h' : |val avg'| ≤ 32778)
    (hi : i'.toInt = i.toInt + d) : Apart val d 0 avg avg' := by
  refine ⟨h, h', ?_⟩
  have hd : (i'.toInt : ℝ) = i.toInt + d := by exact_mod_cast hi
  obtain ⟨hlow, hhigh⟩ := toInt_bounds i
  obtain ⟨hlow', hhigh'⟩ := toInt_bounds i'
  rw [abs_le] at h h' ⊢
  norm_num [RtlTcp.gap]
  constructor <;> linarith

theorem Apart.next (hf : Accurate f val) {n : ℕ} (h : Apart val d n avg avg')
    (hi : i'.toInt = i.toInt + d) :
    Apart val d (n + 1) (f.average avg (f.ofInt16 i)) (f.average avg' (f.ofInt16 i')) := by
  refine ⟨average_held hf h.low i, average_held hf h.high i', ?_⟩
  have hd : (i'.toInt : ℝ) = i.toInt + d := by exact_mod_cast hi
  have herror := abs_le.mp (hf.average avg i (by linarith [h.low]))
  have herror' := abs_le.mp (hf.average avg' i' (by linarith [h.high]))
  obtain ⟨hlow, hhigh⟩ := abs_le.mp h.gap
  rw [gap_succ, abs_le]
  rw [hd] at herror'
  norm_num at herror herror' ⊢
  constructor <;> linarith

-- what is left of the difference after the correction
theorem Apart.corrected (hf : Accurate f val) {n : ℕ} (h : Apart val d n avg avg')
    (hn : 3500 ≤ n) (hi : i'.toInt = i.toInt + d) :
    |(clamp (f.residue (f.ofInt16 i') avg')).toInt - (clamp (f.residue (f.ofInt16 i) avg)).toInt| ≤
      (256 : Int) := by
  have hd : (i'.toInt : ℝ) = i.toInt + d := by exact_mod_cast hi
  have hres := abs_le.mp (hf.residue avg i (by linarith [h.low]))
  have hres' := abs_le.mp (hf.residue avg' i' (by linarith [h.high]))
  obtain ⟨hlow, hhigh⟩ := abs_le.mp (h.gap.trans (gap_late hn))
  rw [hd] at hres'
  norm_num only at hres hres'
  have hdown : (-256 : ℝ) ≤
      (f.residue (f.ofInt16 i') avg').toInt - (f.residue (f.ofInt16 i) avg).toInt := by
    linarith
  have hup :
      ((f.residue (f.ofInt16 i') avg').toInt : ℝ) - (f.residue (f.ofInt16 i) avg).toInt ≤ 256 := by
    linarith
  exact abs_le.mpr (clamp_apart (by exact_mod_cast hdown) (by exact_mod_cast hup))

theorem toUint8_near {s s' : Int16} (h : |s'.toInt - s.toInt| ≤ 256) :
    |((toUint8 s').toNat : Int) - (toUint8 s).toNat| ≤ 1 := by
  rw [toUint8_toNat, toUint8_toNat]
  rw [abs_le] at h ⊢
  omega

end Gap

-- whole pairs, the second list with an offset on each channel
inductive Raised (dI dQ : Int) : List Int16 → List Int16 → Prop
  | nil : Raised dI dQ [] []
  | cons {i q i' q' : Int16} {rest rest' : List Int16} : i'.toInt = i.toInt + dI →
    q'.toInt = q.toInt + dQ → Raised dI dQ rest rest' →
    Raised dI dQ (i :: q :: rest) (i' :: q' :: rest')

-- two streams that differ by an offset; what the clients do need not be the same
inductive Offset (dI dQ : Int) : SessionEvent → SessionEvent → Prop
  | callback {samples samples' : List Int16} : Raised dI dQ samples samples' →
    Offset dI dQ (.callback samples) (.callback samples')
  | slots (event event' : SlotEvent) : Offset dI dQ (.slots event) (.slots event')

def SessionEvent.pairs : SessionEvent → ℕ
  | .callback samples => samples.length / 2
  | _ => 0

def NearByte (b b' : UInt8) : Prop := |(b'.toNat : Int) - b.toNat| ≤ 1

structure Level {F : Type} (val : F → ℝ) (s : Session F) : Prop where
  i : |val s.dcAvgI| ≤ 32778
  q : |val s.dcAvgQ| ≤ 32778

structure Alike {F : Type} (val : F → ℝ) (dI dQ : Int) (n : ℕ) (s s' : Session F) : Prop where
  i : Apart val dI n s.dcAvgI s'.dcAvgI
  q : Apart val dQ n s.dcAvgQ s'.dcAvgQ

section Streams

variable {F : Type} {f : DcArithmetic F} {val : F → ℝ} {dI dQ : Int} {n : ℕ}
  {s s' t t' : Session F} {samples samples' : List Int16} {e e' : SessionEvent}
  {es es' : List SessionEvent}

theorem removeDc_level (hf : Accurate f val) {a b : F} (samples : List Int16) (ha : |val a| ≤ 32778)
    (hb : |val b| ≤ 32778) :
    |val (removeDc f a b samples).2.1| ≤ 32778 ∧ |val (removeDc f a b samples).2.2| ≤ 32778 := by
  fun_induction removeDc f a b samples with
  | case1 a b i q samples ia ib rest ih => exact ih (average_held hf ha i) (average_held hf hb q)
  | case2 a b samples => exact ⟨ha, hb⟩

theorem Raised.removeDc (hf : Accurate f val) (h : Raised dI dQ samples samples') {a a' b b' : F}
    (hi : Apart val dI n a a') (hq : Apart val dQ n b b') :
    Apart val dI (n + samples.length / 2) (removeDc f a b samples).2.1
        (removeDc f a' b' samples').2.1 ∧
      Apart val dQ (n + samples.length / 2) (removeDc f a b samples).2.2
        (removeDc f a' b' samples').2.2 ∧
      (3500 ≤ n → List.Forall₂ (fun s s' : Int16 => |s'.toInt - s.toInt| ≤ 256)
        (removeDc f a b samples).1 (removeDc f a' b' samples').1) := by
  induction h generalizing n a a' b b' with
  | nil => exact ⟨hi, hq, fun _ => .nil⟩
  | cons hiq hqq _ ih =>
    rename_i i q i' q' rest rest' _
    have hlen : n + (i :: q :: rest).length / 2 = n + 1 + rest.length / 2 := by
      simp only [List.length_cons]
      omega
    obtain ⟨hi', hq', hnear⟩ := ih (hi.next hf hiq) (hq.next hf hqq)
    rw [hlen]
    refine ⟨hi', hq', fun hn => ?_⟩
    exact .cons ((hi.next hf hiq).corrected hf (by omega) hiq)
      (.cons ((hq.next hf hqq).corrected hf (by omega) hqq) (hnear (by omega)))

theorem step_slots {event : SlotEvent} (h : Session.step f s (.slots event) = some t) :
    t.dcAvgI = s.dcAvgI ∧ t.dcAvgQ = s.dcAvgQ ∧ t.converted = s.converted := by
  cases event <;> simp only [Session.step, Option.map_eq_some_iff, reduceCtorEq] at h <;>
    obtain ⟨slots, -, rfl⟩ := h <;> exact ⟨rfl, rfl, rfl⟩

theorem step_callback (h : Session.step f s (.callback samples) = some t) :
    t.dcAvgI = (removeDc f s.dcAvgI s.dcAvgQ samples).2.1 ∧
      t.dcAvgQ = (removeDc f s.dcAvgI s.dcAvgQ samples).2.2 ∧
      t.converted = s.converted ++
        [((removeDc f s.dcAvgI s.dcAvgQ samples).1.take u8bufMax).map toUint8] := by
  simp only [Session.step, Option.map_eq_some_iff] at h
  obtain ⟨slots, -, rfl⟩ := h
  exact ⟨rfl, rfl, rfl⟩

theorem level_start (hf : Accurate f val) : Level val (Session.start f) := by
  have hzero : |val f.zero| ≤ 32778 := by
    rw [hf.zero, abs_zero]
    norm_num
  exact ⟨hzero, hzero⟩

theorem Level.step (hf : Accurate f val) (h : Level val s) (hstep : Session.step f s e = some t) :
    Level val t := by
  cases e with
  | restart =>
    simp only [Session.step] at hstep
    split at hstep
    · obtain rfl := Option.some.inj hstep
      exact ⟨(level_start hf).i, (level_start hf).q⟩
    · cases hstep
  | callback samples =>
    obtain ⟨hi, hq, -⟩ := step_callback hstep
    obtain ⟨hlevel, hlevel'⟩ := removeDc_level hf samples h.i h.q
    exact ⟨hi ▸ hlevel, hq ▸ hlevel'⟩
  | slots event =>
    obtain ⟨hi, hq, -⟩ := step_slots hstep
    exact ⟨hi ▸ h.i, hq ▸ h.q⟩

theorem level_reachable (hf : Accurate f val)
    (h : Transition.Reachable (Session.step f) (Session.start f) s) : Level val s :=
  h.invariant (level_start hf) fun _ _ _ _ hs _ hstep => hs.step hf hstep

-- the first pair bounds the offset, and with it the distance of the averages
theorem alike_of_raised (h : Level val s) (h' : Level val s')
    (hraised : Raised dI dQ samples samples') (hpos : 0 < samples.length / 2) : Alike val dI dQ 0 s s' := by
  cases hraised with
  | nil => simp at hpos
  | cons hi hq _ => exact ⟨apart_start h.i h'.i hi, apart_start h.q h'.q hq⟩

-- one more buffer of both streams
structure Continues (n : ℕ) (s s' t t' : Session F) (sent sent' : List (List UInt8)) : Prop where
  low : t.converted = s.converted ++ sent
  high : t'.converted = s'.converted ++ sent'
  near : 3500 ≤ n → List.Forall₂ (List.Forall₂ NearByte) sent sent'

theorem near_bytes {out out' : List Int16}
    (h : List.Forall₂ (fun s s' : Int16 => |s'.toInt - s.toInt| ≤ 256) out out') :
    List.Forall₂ NearByte ((out.take u8bufMax).map toUint8) ((out'.take u8bufMax).map toUint8) := by
  rw [List.forall₂_map_left_iff, List.forall₂_map_right_iff]
  exact (List.forall₂_take u8bufMax h).imp fun _ _ => toUint8_near

theorem Alike.step (hf : Accurate f val) (h : Alike val dI dQ n s s') (he : Offset dI dQ e e')
    (hstep : Session.step f s e = some t) (hstep' : Session.step f s' e' = some t') :
    Alike val dI dQ (n + e.pairs) t t' ∧ ∃ sent sent', Continues n s s' t t' sent sent' := by
  cases he with
  | callback hraised =>
    obtain ⟨hi, hq, hout⟩ := step_callback hstep
    obtain ⟨hi', hq', hout'⟩ := step_callback hstep'
    obtain ⟨hapartI, hapartQ, hnear⟩ := hraised.removeDc hf h.i h.q
    refine ⟨⟨?_, ?_⟩, _, _, hout, hout', fun hn => .cons (near_bytes (hnear hn)) .nil⟩
    · rw [hi, hi']
      exact hapartI
    · rw [hq, hq']
      exact hapartQ
  | slots event event' =>
    obtain ⟨hi, hq, hout⟩ := step_slots hstep
    obtain ⟨hi', hq', hout'⟩ := step_slots hstep'
    refine ⟨⟨?_, ?_⟩, [], [], by rw [hout, List.append_nil], by rw [hout', List.append_nil],
      fun _ => .nil⟩
    · rw [hi, hi']
      exact h.i
    · rw [hq, hq']
      exact h.q

theorem Alike.run (hf : Accurate f val) (h : Alike val dI dQ n s s')
    (hes : List.Forall₂ (Offset dI dQ) es es')
    (hrun : Transition.run (Session.step f) s es = some t)
    (hrun' : Transition.run (Session.step f) s' es' = some t') :
    Alike val dI dQ (n + (es.map SessionEvent.pairs).sum) t t' ∧
      ∃ sent sent', Continues n s s' t t' sent sent' := by
  induction hes generalizing n s s' with
  | nil =>
    obtain rfl := Option.some.inj hrun
    obtain rfl := Option.some.inj hrun'
    exact ⟨h, [], [], (List.append_nil _).symm, (List.append_nil _).symm, fun _ => .nil⟩
  | cons he _ ih =>
    obtain ⟨m, hstep, hrest⟩ := Option.bind_eq_some_iff.mp hrun
    obtain ⟨m', hstep', hrest'⟩ := Option.bind_eq_some_iff.mp hrun'
    obtain ⟨hm, first, first', hfirst⟩ := h.step hf he hstep hstep'
    obtain ⟨ht, later, later', hlater⟩ := ih hm hrest hrest'
    rw [List.map_cons, List.sum_cons, ← Nat.add_assoc]
    refine ⟨ht, first ++ later, first' ++ later', ?_, ?_, fun hn => ?_⟩
    · rw [hlater.low, hfirst.low, List.append_assoc]
    · rw [hlater.high, hfirst.high, List.append_assoc]
    · exact List.rel_append (hfirst.near hn) (hlater.near (by omega))

-- until the first pair nothing bounds the offset, and nothing is converted
theorem alike_run (hf : Accurate f val) (h : Level val s) (h' : Level val s')
    (hes : List.Forall₂ (Offset dI dQ) es es')
    (hrun : Transition.run (Session.step f) s es = some t)
    (hrun' : Transition.run (Session.step f) s' es' = some t')
    (hpos : 0 < (es.map SessionEvent.pairs).sum) :
    Alike val dI dQ (es.map SessionEvent.pairs).sum t t' := by
  induction hes generalizing s s' with
  | nil => simp at hpos
  | @cons e e' es es' he hes ih =>
    by_cases hfirst : e.pairs = 0
    · obtain ⟨m, hstep, hrest⟩ := Option.bind_eq_some_iff.mp hrun
      obtain ⟨m', hstep', hrest'⟩ := Option.bind_eq_some_iff.mp hrun'
      rw [List.map_cons, List.sum_cons, hfirst, Nat.zero_add] at hpos ⊢
      exact ih (h.step hf hstep) (h'.step hf hstep') hrest hrest' hpos
    · have halike : Alike val dI dQ 0 s s' := by
        cases he with
        | callback hraised => exact alike_of_raised h h' hraised (Nat.pos_of_ne_zero hfirst)
        | slots event event' => exact absurd rfl hfirst
      have hall := (halike.run hf (.cons he hes) hrun hrun').1
      rwa [Nat.zero_add] at hall

end Streams

-- once 3500 pairs have been corrected, no constant offset shows by more than one in a byte
theorem offset_removed {F : Type} {f : DcArithmetic F} {val : F → ℝ} (hf : Accurate f val)
    {dI dQ : Int} {s s' t t' u u' : Session F} {lead lead' later later' : List SessionEvent}
    (hs : Transition.Reachable (Session.step f) (Session.start f) s)
    (hs' : Transition.Reachable (Session.step f) (Session.start f) s')
    (hlead : List.Forall₂ (Offset dI dQ) lead lead')
    (hlater : List.Forall₂ (Offset dI dQ) later later')
    (hpairs : 3500 ≤ (lead.map SessionEvent.pairs).sum)
    (ht : Transition.run (Session.step f) s lead = some t)
    (ht' : Transition.run (Session.step f) s' lead' = some t')
    (hu : Transition.run (Session.step f) t later = some u)
    (hu' : Transition.run (Session.step f) t' later' = some u') :
    ∃ sent sent', u.converted = t.converted ++ sent ∧ u'.converted = t'.converted ++ sent' ∧
      List.Forall₂ (List.Forall₂ NearByte) sent sent' := by
  have halike := alike_run hf (level_reachable hf hs) (level_reachable hf hs') hlead ht ht'
    (by omega)
  obtain ⟨-, sent, sent', hsent⟩ := halike.run hf hlater hu hu'
  exact ⟨sent, sent', hsent.low, hsent.high, hsent.near hpairs⟩

def constant (i q : Int16) (n : ℕ) : List Int16 := (List.replicate n [i, q]).flatten

theorem constant_length (i q : Int16) (n : ℕ) : (constant i q n).length = 2 * n := by
  induction n with
  | zero => rfl
  | succ n ih =>
    change (constant i q n).length + 1 + 1 = 2 * (n + 1)
    rw [ih]
    ring

theorem raised_constant {dI dQ : Int} {i q i' q' : Int16} (hi : i'.toInt = i.toInt + dI)
    (hq : q'.toInt = q.toInt + dQ) (n : ℕ) :
    Raised dI dQ (constant i q n) (constant i' q' n) := by
  induction n with
  | zero => exact .nil
  | succ n ih => exact .cons hi hq ih

theorem run_unheard {F : Type} (f : DcArithmetic F) {s : Session F} (hslots : s.slots = Slots.start)
    (samples : List Int16) :
    ∃ t, Transition.run (Session.step f) s (broadcastTo samples []) = some t ∧
      t.slots = Slots.start := by
  obtain ⟨slots, dcAvgI, dcAvgQ, u8buf, converted, stream⟩ := s
  obtain rfl : slots = Slots.start := hslots
  exact ⟨_, rfl, rfl⟩

theorem offset_removed_constant : ∃ t t' u u' : Session ℚ, ∃ sent sent',
    Transition.run (Session.step singlePrecision) t (broadcastTo [1, 2, 3, 4] []) = some u ∧
    Transition.run (Session.step singlePrecision) t'
      (broadcastTo [12001, -6998, 12003, -6996] []) = some u' ∧
    u.converted = t.converted ++ sent ∧ u'.converted = t'.converted ++ sent' ∧
    List.Forall₂ (List.Forall₂ NearByte) sent sent' := by
  have hoffset : ∀ {samples samples' : List Int16}, Raised 12000 (-7000) samples samples' →
      List.Forall₂ (Offset 12000 (-7000)) (broadcastTo samples []) (broadcastTo samples' []) :=
    fun h => .cons (.callback h) (.cons (.slots _ _) (.cons (.slots _ _) (.cons (.slots _ _)
      (.cons (.slots _ _) (.cons (.slots _ _) .nil)))))
  obtain ⟨t, ht, hslots⟩ := run_unheard singlePrecision (s := Session.start singlePrecision) rfl
    (constant 0 0 3500)
  obtain ⟨t', ht', hslots'⟩ := run_unheard singlePrecision (s := Session.start singlePrecision) rfl
    (constant 12000 (-7000) 3500)
  obtain ⟨u, hu, -⟩ := run_unheard singlePrecision hslots [1, 2, 3, 4]
  obtain ⟨u', hu', -⟩ := run_unheard singlePrecision hslots' [12001, -6998, 12003, -6996]
  have hlead : Raised 12000 (-7000) (constant 0 0 3500) (constant 12000 (-7000) 3500) :=
    raised_constant (by decide) (by decide) 3500
  have hlater : Raised 12000 (-7000) [1, 2, 3, 4] [12001, -6998, 12003, -6996] :=
    .cons (by decide) (by decide) (.cons (by decide) (by decide) .nil)
  have hpairs : 3500 ≤ ((broadcastTo (constant 0 0 3500) []).map SessionEvent.pairs).sum := by
    simp [broadcastTo, SessionEvent.pairs, constant_length]
  obtain ⟨sent, sent', hsent, hsent', hnear⟩ := offset_removed accurate_singlePrecision .start
    .start (hoffset hlead) (hoffset hlater) hpairs ht ht' hu hu'
  exact ⟨t, t', u, u', sent, sent', hu, hu', hsent, hsent', hnear⟩

end RtlTcp
end SdrServer
