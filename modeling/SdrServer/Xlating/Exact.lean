import SdrServer.Xlating.Fading

namespace SdrServer
namespace Xlating
namespace Block

variable {X P O : Type} {b : Block X P O} {body : List X → Nat → P → Option (O × P)}
  {Inv : P → Prop}

theorem loop_body (hbody : ∀ buffer current p, Inv p →
      body buffer current p = b.body buffer current p)
    (hkeep : ∀ buffer current p o q, Inv p → b.body buffer current p = some (o, q) → Inv q)
    (buffer : List X) (maxIndex fuel current produced : Nat) {p : P} (hp : Inv p) :
    loop { b with body := body } buffer maxIndex fuel current produced p =
      b.loop buffer maxIndex fuel current produced p := by
  induction fuel generalizing current produced p with
  | zero => rfl
  | succ fuel ih =>
    simp only [loop, hbody buffer current p hp]
    cases hone : b.body buffer current p with
    | none => rfl
    | some r =>
      obtain ⟨o, q⟩ := r
      have hq := hkeep buffer current p o q hp hone
      simp only [Option.bind_eq_bind, Option.bind_some, ih _ _ hq]

theorem process_body (hbody : ∀ buffer current p, Inv p →
      body buffer current p = b.body buffer current p)
    (hkeep : ∀ buffer current p o q, Inv p → b.body buffer current p = some (o, q) → Inv q)
    (buffer : List X) (historyOffset n : Nat) {p : P} (hp : Inv p) :
    process { b with body := body } buffer historyOffset n p =
      b.process buffer historyOffset n p := by
  simp only [process, loop_body hbody hkeep _ _ _ _ _ hp]

end Block

-- how a signed intermediate result of a given width is held, `none` where C leaves it undefined
abbrev Arithmetic := Nat → Int → Option Int

def wrapping : Arithmetic := fun width x => some (x.bmod (2 ^ width))

def trapping : Arithmetic := fun width x =>
  if -2 ^ (width - 1) ≤ x ∧ x < 2 ^ (width - 1) then some x else none

def unbounded : Arithmetic := fun _ x => some x

section Source

variable {K : Type}

def mulRealIn (arith : Arithmetic) (ar ai br bi : Int16) : Option Int := do
  let left ← arith 32 (ar.toInt * br.toInt)
  let right ← arith 32 (ai.toInt * bi.toInt)
  arith 32 (left - right)

def mulImagIn (arith : Arithmetic) (ar ai br bi : Int16) : Option Int := do
  let left ← arith 32 (ar.toInt * bi.toInt)
  let right ← arith 32 (ai.toInt * br.toInt)
  arith 32 (left + right)

def dotCs16In (arith : Arithmetic) (buffer : List Int16) (start : Nat) (taps : List Int16) :
    Nat → Option (Int × Int)
  | 0 => some (0, 0)
  | i + 1 => do
    let (tempReal, tempImag) ← dotCs16In arith buffer start taps i
    let ar ← buffer[start + 2 * i]?
    let ai ← buffer[start + 2 * i + 1]?
    let br ← taps[2 * i]?
    let bi ← taps[2 * i + 1]?
    let re ← mulRealIn arith ar ai br bi
    let tempReal ← arith 64 (tempReal + re)
    let im ← mulImagIn arith ar ai br bi
    let tempImag ← arith 64 (tempImag + im)
    some (tempReal, tempImag)

def shift15In (arith : Arithmetic) (x : Int) : Option Int16 :=
  (arith 32 (x >>> (15 : Nat))).map saturateToInt16

def turnIn (arith : Arithmetic) (ar ai br bi : Int16) : Option (Int16 × Int16) := do
  let tempReal ← mulRealIn arith ar ai br bi
  let tempImag ← mulImagIn arith ar ai br bi
  let real ← shift15In arith tempReal
  let imag ← shift15In arith tempImag
  some (real, imag)

def tapCs16In (arith : Arithmetic) (f : Xlating K) (buffer : List Int16) (current : Nat)
    (phase : Int16 × Int16) : Option ((Int16 × Int16) × (Int16 × Int16)) := do
  let (start, alignIndex) ← alignedWindow f.workingBufferCs16Addr 2 f.alignmentCs16 (2 * current)
  let taps ← f.tapsCs16[alignIndex]?
  let temp ← dotCs16In arith buffer start taps (f.tapsLen + alignIndex)
  let accReal ← shift15In arith temp.1
  let accImag ← shift15In arith temp.2
  let output ← turnIn arith accReal accImag phase.1 phase.2
  let phase ← turnIn arith phase.1 phase.2 f.phaseIncrReal f.phaseIncrImag
  some (output, phase)

def processCs16In (arith : Arithmetic) (inputLenSamples : Nat) (f : Xlating K) :
    Option (List (Int16 × Int16) × Xlating K) :=
  (Block.process { f.blockCs16 with body := f.tapCs16In arith } f.workingBufferCs16
    f.historyOffset inputLenSamples (f.phaseReal, f.phaseImag)).map
    fun (output, phase, buffer, historyOffset) =>
      (output,
        { f with
          phaseReal := phase.1
          phaseImag := phase.2
          workingBufferCs16 := buffer
          historyOffset })

def callFixedIn (arith : Arithmetic) (call : Call) (f : Xlating ℂ) :
    Option (List (Int16 × Int16) × Xlating ℂ) :=
  (storeCs16 call.1.toCs16 call.2 f).bind (processCs16In arith (call.2.length / 2))

end Source

-- both parts of the phase and of the accumulated sample times it stay below this
def Quiet (phase : Int16 × Int16) : Prop := phase.1.toInt ^ 2 + phase.2.toInt ^ 2 < 2 ^ 31

def weight (taps : List Int16) : Int := (taps.map fun x => |x.toInt|).sum

-- a table that the alignment of some window selects
def Fetched {K : Type} (f : Xlating K) (taps : List Int16) : Prop :=
  ∃ current window,
    alignedWindow f.workingBufferCs16Addr 2 f.alignmentCs16 (2 * current) = some window ∧
      f.tapsCs16[window.2]? = some taps

structure Quantised {K : Type} (f : Xlating K) : Prop where
  tap : ∀ taps, f.Fetched taps → ∀ i br bi, taps[2 * i]? = some br →
    taps[2 * i + 1]? = some bi → br.toInt ^ 2 + bi.toInt ^ 2 ≤ 2 ^ 30
  total : ∀ taps, f.Fetched taps → weight taps ≤ 2 ^ 30
  increment : f.phaseIncrReal.toInt ^ 2 + f.phaseIncrImag.toInt ^ 2 ≤ 32767 ^ 2

-- what the three arithmetics share: a result that fits is kept
structure Keeps (arith : Arithmetic) : Prop where
  int : ∀ x : Int, |x| < 2 ^ 31 → arith 32 x = some x
  long : ∀ x : Int, |x| < 2 ^ 63 → arith 64 x = some x

theorem wrapping_keeps : Keeps wrapping where
  int := by
    intro x hx
    rw [abs_lt] at hx
    exact congrArg some (Int.bmod_eq_of_le (by omega) (by omega))
  long := by
    intro x hx
    rw [abs_lt] at hx
    exact congrArg some (Int.bmod_eq_of_le (by omega) (by omega))

theorem trapping_keeps : Keeps trapping where
  int := by
    intro x hx
    rw [abs_lt] at hx
    exact if_pos ⟨hx.1.le, hx.2⟩
  long := by
    intro x hx
    rw [abs_lt] at hx
    exact if_pos ⟨hx.1.le, hx.2⟩

theorem unbounded_keeps : Keeps unbounded := ⟨fun _ _ => rfl, fun _ _ => rfl⟩

theorem wrapping_dot (buffer taps : List Int16) (start n : Nat) :
    dotCs16In wrapping buffer start taps n = dotCs16 buffer start taps n := by
  induction n with
  | zero => rfl
  | succ n ih =>
    rw [dotCs16In, dotCs16, ih]
    rfl

theorem wrapping_call (call : Call) (f : Xlating ℂ) :
    callFixedIn wrapping call f = callFixed call f := by
  have htap : ∀ s : Xlating ℂ, s.tapCs16In wrapping = s.tapCs16 := by
    intro s
    funext buffer current phase
    simp only [tapCs16In, tapCs16, wrapping_dot]
    rfl
  rw [callFixed, Format.processCs16_eq, callFixedIn, feedCs16]
  congr 1
  funext s
  rw [processCs16In, htap]
  rfl

section Bounds

variable {arith : Arithmetic} {p q x y : Int}

theorem cross_sq_lt (h : (x ^ 2 + y ^ 2) * (p ^ 2 + q ^ 2) < 2 ^ 62) :
    |x * p + y * q| < 2 ^ 31 := by
  have hcauchy : (x * p + y * q) ^ 2 ≤ (x ^ 2 + y ^ 2) * (p ^ 2 + q ^ 2) := by
    linarith [sq_nonneg (x * q - y * p)]
  exact abs_lt_of_sq_lt_sq (by linarith) (by norm_num)

theorem sq_add_sq_le (a b : Int16) : a.toInt ^ 2 + b.toInt ^ 2 ≤ 2 ^ 31 := by
  have ha := sq_le_sq' (abs_le.mp (abs_toInt_le a)).1 (abs_le.mp (abs_toInt_le a)).2
  have hb := sq_le_sq' (abs_le.mp (abs_toInt_le b)).1 (abs_le.mp (abs_toInt_le b)).2
  linarith

theorem mulIn_keeps (h : Keeps arith) {ar ai br bi : Int16}
    (hsmall : (ar.toInt ^ 2 + ai.toInt ^ 2) * (br.toInt ^ 2 + bi.toInt ^ 2) < 2 ^ 62) :
    mulRealIn arith ar ai br bi = some (ar.toInt * br.toInt - ai.toInt * bi.toInt) ∧
      mulImagIn arith ar ai br bi = some (ar.toInt * bi.toInt + ai.toInt * br.toInt) ∧
      |ar.toInt * br.toInt - ai.toInt * bi.toInt| < 2 ^ 31 ∧
      |ar.toInt * bi.toInt + ai.toInt * br.toInt| < 2 ^ 31 := by
  have hreal : |ar.toInt * br.toInt + ai.toInt * -bi.toInt| < 2 ^ 31 := by
    apply cross_sq_lt
    rw [neg_sq]
    exact hsmall
  have himag : |ar.toInt * bi.toInt + ai.toInt * br.toInt| < 2 ^ 31 := by
    apply cross_sq_lt
    rw [add_comm (bi.toInt ^ 2)]
    exact hsmall
  rw [mul_neg, ← sub_eq_add_neg] at hreal
  refine ⟨?_, ?_, hreal, himag⟩
  · simp only [mulRealIn, h.int _ (mul_toInt_lt _ _), Option.bind_eq_bind, Option.bind_some]
    exact h.int _ hreal
  · simp only [mulImagIn, h.int _ (mul_toInt_lt _ _), Option.bind_eq_bind, Option.bind_some]
    exact h.int _ himag

theorem shift15In_keeps (h : Keeps arith) (hx : |x| ≤ 2 ^ 45) :
    ∃ r, shift15In arith x = some r ∧ r.toInt = clamp (x / 2 ^ 15) := by
  have hsmall : |x / 2 ^ 15| < 2 ^ 31 := by
    rw [abs_le] at hx
    rw [abs_lt]
    omega
  rw [shift15In, Int.shiftRight_eq_div_pow]
  exact ⟨_, congrArg (Option.map saturateToInt16) (h.int _ hsmall), clamp_toInt _⟩

theorem shift15In_same (h : Keeps arith) (hx : |x| ≤ 2 ^ 45) :
    shift15In arith x = shift15In unbounded x := by
  obtain ⟨r, hr, hvalue⟩ := shift15In_keeps h hx
  obtain ⟨r', hr', hvalue'⟩ := shift15In_keeps unbounded_keeps hx
  rw [hr, hr', Int16.toInt_inj.mp (hvalue.trans hvalue'.symm)]

theorem turnIn_keeps (h : Keeps arith) {ar ai br bi : Int16}
    (hsmall : (ar.toInt ^ 2 + ai.toInt ^ 2) * (br.toInt ^ 2 + bi.toInt ^ 2) < 2 ^ 62) :
    ∃ r, turnIn arith ar ai br bi = some r ∧
      r.1.toInt = clamp ((ar.toInt * br.toInt - ai.toInt * bi.toInt) / 2 ^ 15) ∧
      r.2.toInt = clamp ((ar.toInt * bi.toInt + ai.toInt * br.toInt) / 2 ^ 15) := by
  obtain ⟨hreal, himag, hlt, hlt'⟩ := mulIn_keeps h hsmall
  obtain ⟨re, hre, hvalue⟩ := shift15In_keeps h (hlt.le.trans (by norm_num))
  obtain ⟨im, him, hvalue'⟩ := shift15In_keeps h (hlt'.le.trans (by norm_num))
  refine ⟨(re, im), ?_, hvalue, hvalue'⟩
  simp only [turnIn, hreal, himag, Option.bind_eq_bind, Option.bind_some, hre, him]

theorem turnIn_same (h : Keeps arith) {ar ai br bi : Int16}
    (hsmall : (ar.toInt ^ 2 + ai.toInt ^ 2) * (br.toInt ^ 2 + bi.toInt ^ 2) < 2 ^ 62) :
    turnIn arith ar ai br bi = turnIn unbounded ar ai br bi := by
  obtain ⟨r, hr, hre, him⟩ := turnIn_keeps h hsmall
  obtain ⟨r', hr', hre', him'⟩ := turnIn_keeps unbounded_keeps hsmall
  rw [hr, hr', Prod.ext (Int16.toInt_inj.mp (hre.trans hre'.symm))
    (Int16.toInt_inj.mp (him.trans him'.symm))]

theorem weight_nonneg (taps : List Int16) : 0 ≤ weight taps := by
  apply List.sum_nonneg
  intro w hw
  obtain ⟨a, -, rfl⟩ := List.mem_map.mp hw
  exact abs_nonneg _

theorem weight_append (taps rest : List Int16) :
    weight (taps ++ rest) = weight taps + weight rest := by
  rw [weight, List.map_append, List.sum_append]
  rfl

theorem weight_take_le (taps : List Int16) (n : Nat) : weight (taps.take n) ≤ weight taps := by
  have hsplit := weight_append (taps.take n) (taps.drop n)
  rw [List.take_append_drop] at hsplit
  linarith [weight_nonneg (taps.drop n)]

theorem weight_next {taps : List Int16} {n : Nat} {br bi : Int16} (hbr : taps[2 * n]? = some br)
    (hbi : taps[2 * n + 1]? = some bi) :
    weight (taps.take (2 * (n + 1))) = weight (taps.take (2 * n)) + (|br.toInt| + |bi.toInt|) := by
  have hone := List.take_add_one (l := taps) (i := 2 * n)
  have htwo := List.take_add_one (l := taps) (i := 2 * n + 1)
  rw [hbr] at hone
  rw [hbi, hone] at htwo
  rw [Nat.mul_succ, htwo, weight_append, weight_append]
  simp only [weight, Option.toList_some, List.map_cons, List.map_nil, List.sum_cons, List.sum_nil,
    add_zero]
  ring

theorem cross_le (ar ai br bi : Int16) :
    |ar.toInt * br.toInt - ai.toInt * bi.toInt| ≤ 2 ^ 15 * (|br.toInt| + |bi.toInt|) ∧
      |ar.toInt * bi.toInt + ai.toInt * br.toInt| ≤ 2 ^ 15 * (|br.toInt| + |bi.toInt|) := by
  have hproduct : ∀ a b : Int16, |a.toInt * b.toInt| ≤ 2 ^ 15 * |b.toInt| := by
    intro a b
    rw [abs_mul]
    exact mul_le_mul_of_nonneg_right (abs_toInt_le a) (abs_nonneg _)
  have hsub := abs_sub (ar.toInt * br.toInt) (ai.toInt * bi.toInt)
  have hadd := abs_add_le (ar.toInt * bi.toInt) (ai.toInt * br.toInt)
  constructor
  · linarith [hproduct ar br, hproduct ai bi]
  · linarith [hproduct ar bi, hproduct ai br]

-- what one pass of the loop over the taps adds
def passIn (arith : Arithmetic) (sum : Int × Int) (ar ai br bi : Int16) : Option (Int × Int) := do
  let re ← mulRealIn arith ar ai br bi
  let tempReal ← arith 64 (sum.1 + re)
  let im ← mulImagIn arith ar ai br bi
  let tempImag ← arith 64 (sum.2 + im)
  some (tempReal, tempImag)

theorem passIn_keeps (h : Keeps arith) {sum : Int × Int} (ar ai : Int16) {br bi : Int16} {w : Int}
    (htap : br.toInt ^ 2 + bi.toInt ^ 2 ≤ 2 ^ 30) (hre : |sum.1| ≤ 2 ^ 15 * w)
    (him : |sum.2| ≤ 2 ^ 15 * w) (hmost : w + (|br.toInt| + |bi.toInt|) ≤ 2 ^ 30) :
    passIn arith sum ar ai br bi =
      some (sum.1 + (ar.toInt * br.toInt - ai.toInt * bi.toInt),
        sum.2 + (ar.toInt * bi.toInt + ai.toInt * br.toInt)) ∧
      |sum.1 + (ar.toInt * br.toInt - ai.toInt * bi.toInt)| ≤
        2 ^ 15 * (w + (|br.toInt| + |bi.toInt|)) ∧
      |sum.2 + (ar.toInt * bi.toInt + ai.toInt * br.toInt)| ≤
        2 ^ 15 * (w + (|br.toInt| + |bi.toInt|)) := by
  have hsmall : (ar.toInt ^ 2 + ai.toInt ^ 2) * (br.toInt ^ 2 + bi.toInt ^ 2) < 2 ^ 62 := by
    have hle := mul_le_mul (sq_add_sq_le ar ai) htap (by positivity) (by norm_num)
    linarith
  obtain ⟨hreal, himag, -, -⟩ := mulIn_keeps h hsmall
  obtain ⟨hle, hle'⟩ := cross_le ar ai br bi
  have hre' := abs_add_le sum.1 (ar.toInt * br.toInt - ai.toInt * bi.toInt)
  have him' := abs_add_le sum.2 (ar.toInt * bi.toInt + ai.toInt * br.toInt)
  have hlong := h.long _ (by linarith : |sum.1 + _| < 2 ^ 63)
  have hlong' := h.long _ (by linarith : |sum.2 + _| < 2 ^ 63)
  refine ⟨?_, by linarith, by linarith⟩
  simp only [passIn, Option.bind_eq_bind, Option.bind_some, hreal, himag, hlong, hlong']

-- no partial sum leaves int64_t: each is at most 2^15 times the taps it has used
theorem dotIn_keeps (h : Keeps arith) {taps : List Int16}
    (htap : ∀ i br bi, taps[2 * i]? = some br → taps[2 * i + 1]? = some bi →
      br.toInt ^ 2 + bi.toInt ^ 2 ≤ 2 ^ 30)
    (htotal : weight taps ≤ 2 ^ 30) (buffer : List Int16) (start n : Nat) :
    dotCs16In arith buffer start taps n = dotCs16In unbounded buffer start taps n ∧
      ∀ temp, dotCs16In unbounded buffer start taps n = some temp →
        |temp.1| ≤ 2 ^ 15 * weight (taps.take (2 * n)) ∧
          |temp.2| ≤ 2 ^ 15 * weight (taps.take (2 * n)) := by
  induction n with
  | zero =>
    refine ⟨rfl, ?_⟩
    intro temp htemp
    obtain rfl := Option.some.inj htemp
    simp [weight]
  | succ n ih =>
    obtain ⟨hsame, hbound⟩ := ih
    have hmost := (weight_take_le taps (2 * (n + 1))).trans htotal
    constructor
    · rw [dotCs16In, dotCs16In, hsame]
      apply Option.bind_congr
      intro sum hsum
      obtain ⟨hre, him⟩ := hbound sum hsum
      apply Option.bind_congr
      intro ar _
      apply Option.bind_congr
      intro ai _
      apply Option.bind_congr
      intro br hbr
      apply Option.bind_congr
      intro bi hbi
      rw [weight_next hbr hbi] at hmost
      have htaps := htap n br bi hbr hbi
      exact (passIn_keeps h ar ai htaps hre him hmost).1.trans
        (passIn_keeps unbounded_keeps ar ai htaps hre him hmost).1.symm
    · intro temp htemp
      obtain ⟨sum, hsum, htemp⟩ := Option.bind_eq_some_iff.mp htemp
      obtain ⟨ar, -, htemp⟩ := Option.bind_eq_some_iff.mp htemp
      obtain ⟨ai, -, htemp⟩ := Option.bind_eq_some_iff.mp htemp
      obtain ⟨br, hbr, htemp⟩ := Option.bind_eq_some_iff.mp htemp
      obtain ⟨bi, hbi, htemp⟩ := Option.bind_eq_some_iff.mp htemp
      obtain ⟨hre, him⟩ := hbound sum hsum
      rw [weight_next hbr hbi] at hmost ⊢
      obtain ⟨hpass, hnext⟩ := passIn_keeps unbounded_keeps ar ai (htap n br bi hbr hbi) hre him hmost
      obtain rfl := Option.some.inj (hpass.symm.trans htemp)
      exact hnext

theorem quiet_of_floor (h : x ^ 2 + y ^ 2 ≤ (2 ^ 31 - 1) * 32767 ^ 2) :
    (x / 2 ^ 15) ^ 2 + (y / 2 ^ 15) ^ 2 < 2 ^ 31 := by
  have hfloor : ∀ v : Int, 2 ^ 15 * |v / 2 ^ 15| ≤ |v| + 32767 := by
    intro v
    have hlow : 2 ^ 15 * (v / 2 ^ 15) ≤ v := by omega
    have hhigh : v ≤ 2 ^ 15 * (v / 2 ^ 15) + 32767 := by omega
    rcases abs_cases v with ⟨hv, hsign⟩ | ⟨hv, hsign⟩ <;>
      rcases abs_cases (v / 2 ^ 15) with ⟨hq, hsign'⟩ | ⟨hq, hsign'⟩ <;> omega
  have hx := pow_le_pow_left₀ (by positivity) (hfloor x) 2
  have hy := pow_le_pow_left₀ (by positivity) (hfloor y) 2
  have hsum : |x| + |y| ≤ 2 ^ 16 * 32767 := by
    apply abs_le_of_sq_le_sq' _ (by norm_num) |>.2
    have hmean := two_mul_le_add_sq |x| |y|
    rw [sq_abs, sq_abs] at hmean
    have hsquare : (|x| + |y|) ^ 2 = x ^ 2 + y ^ 2 + 2 * |x| * |y| := by
      rw [add_sq, sq_abs, sq_abs]
      ring
    linarith
  rw [mul_pow, sq_abs, add_sq, sq_abs] at hx hy
  linarith

theorem clamp_sq_le (v : Int) : clamp v ^ 2 ≤ v ^ 2 := by
  rw [sq_le_sq, clamp]
  rcases abs_cases v with ⟨hv, hsign⟩ | ⟨hv, hsign⟩ <;> rw [hv, abs_le] <;> constructor <;> omega

theorem turnIn_quiet (h : Keeps arith) {phase r : Int16 × Int16} (incr : Int16 × Int16)
    (hquiet : Quiet phase) (hincr : incr.1.toInt ^ 2 + incr.2.toInt ^ 2 ≤ 32767 ^ 2)
    (hr : turnIn arith phase.1 phase.2 incr.1 incr.2 = some r) : Quiet r := by
  rw [Quiet] at hquiet ⊢
  have hle : (phase.1.toInt ^ 2 + phase.2.toInt ^ 2) * (incr.1.toInt ^ 2 + incr.2.toInt ^ 2) ≤
      (2 ^ 31 - 1) * 32767 ^ 2 :=
    mul_le_mul (by linarith) hincr (by positivity) (by norm_num)
  obtain ⟨r', hr', hre, him⟩ := turnIn_keeps h (lt_of_le_of_lt hle (by norm_num))
  obtain rfl := Option.some.inj (hr.symm.trans hr')
  have hfloor := quiet_of_floor (x := phase.1.toInt * incr.1.toInt - phase.2.toInt * incr.2.toInt)
    (y := phase.1.toInt * incr.2.toInt + phase.2.toInt * incr.1.toInt) (by linarith)
  rw [hre, him]
  linarith [clamp_sq_le ((phase.1.toInt * incr.1.toInt - phase.2.toInt * incr.2.toInt) / 2 ^ 15),
    clamp_sq_le ((phase.1.toInt * incr.2.toInt + phase.2.toInt * incr.1.toInt) / 2 ^ 15)]

end Bounds

section Runs

variable {K : Type} {arith : Arithmetic} {f g : Xlating K}

theorem turnIn_rotate (h : Keeps arith) (hf : Quantised f) {phase : Int16 × Int16}
    (hquiet : Quiet phase) :
    turnIn arith phase.1 phase.2 f.phaseIncrReal f.phaseIncrImag = some (f.rotate phase) ∧
      Quiet (f.rotate phase) := by
  have hsmall : (phase.1.toInt ^ 2 + phase.2.toInt ^ 2) *
      (f.phaseIncrReal.toInt ^ 2 + f.phaseIncrImag.toInt ^ 2) < 2 ^ 62 := by
    have hle := mul_le_mul hquiet.le hf.increment (by positivity) (by norm_num)
    exact lt_of_le_of_lt hle (by norm_num)
  obtain ⟨r, hr, hre, him⟩ := turnIn_keeps h hsmall
  obtain ⟨hre', him'⟩ := rotate_toInt hf.increment phase
  have hsame : r = f.rotate phase := Prod.ext (Int16.toInt_inj.mp (hre.trans hre'.symm))
    (Int16.toInt_inj.mp (him.trans him'.symm))
  have hnext := turnIn_quiet h (f.phaseIncrReal, f.phaseIncrImag) hquiet hf.increment hr
  rw [hsame] at hr hnext
  exact ⟨hr, hnext⟩

theorem iterate_quiet (hf : Quantised f) {phase : Int16 × Int16} (hquiet : Quiet phase) (n : Nat) :
    Quiet (f.rotate^[n] phase) := by
  induction n with
  | zero => exact hquiet
  | succ n ih =>
    rw [Function.iterate_succ_apply']
    exact (turnIn_rotate unbounded_keeps hf ih).2

theorem tapIn_keeps (h : Keeps arith) (hf : Quantised f) {phase : Int16 × Int16}
    (hquiet : Quiet phase) (buffer : List Int16) (current : Nat) :
    f.tapCs16In arith buffer current phase = f.tapCs16In unbounded buffer current phase := by
  rw [tapCs16In, tapCs16In]
  apply Option.bind_congr
  intro window hwindow
  apply Option.bind_congr
  intro taps htaps
  have hfetched : f.Fetched taps := ⟨current, window, hwindow, htaps⟩
  obtain ⟨hsame, hbound⟩ := dotIn_keeps h (hf.tap taps hfetched) (hf.total taps hfetched) buffer
    window.1 (f.tapsLen + window.2)
  rw [hsame]
  apply Option.bind_congr
  intro temp htemp
  obtain ⟨hre, him⟩ := hbound temp htemp
  have hmost := (weight_take_le taps (2 * (f.tapsLen + window.2))).trans (hf.total taps hfetched)
  rw [shift15In_same h (by linarith : |temp.1| ≤ 2 ^ 45),
    shift15In_same h (by linarith : |temp.2| ≤ 2 ^ 45), (turnIn_rotate h hf hquiet).1,
    (turnIn_rotate unbounded_keeps hf hquiet).1]
  apply Option.bind_congr
  intro accReal _
  apply Option.bind_congr
  intro accImag _
  have hsmall : (accReal.toInt ^ 2 + accImag.toInt ^ 2) *
      (phase.1.toInt ^ 2 + phase.2.toInt ^ 2) < 2 ^ 62 := by
    have hle := mul_le_mul (sq_add_sq_le accReal accImag) (Int.le_sub_one_of_lt hquiet)
      (by positivity) (by norm_num)
    exact lt_of_le_of_lt hle (by norm_num)
  rw [turnIn_same h hsmall]

theorem tapIn_next (hf : Quantised f) {buffer : List Int16} {current : Nat}
    {phase next output : Int16 × Int16} (hquiet : Quiet phase)
    (h : f.tapCs16In unbounded buffer current phase = some (output, next)) : Quiet next := by
  obtain ⟨window, -, h⟩ := Option.bind_eq_some_iff.mp h
  obtain ⟨taps, -, h⟩ := Option.bind_eq_some_iff.mp h
  obtain ⟨temp, -, h⟩ := Option.bind_eq_some_iff.mp h
  obtain ⟨accReal, -, h⟩ := Option.bind_eq_some_iff.mp h
  obtain ⟨accImag, -, h⟩ := Option.bind_eq_some_iff.mp h
  obtain ⟨r, -, h⟩ := Option.bind_eq_some_iff.mp h
  obtain ⟨q, hq, h⟩ := Option.bind_eq_some_iff.mp h
  obtain ⟨-, rfl⟩ := Prod.mk.inj (Option.some.inj h)
  exact turnIn_quiet unbounded_keeps (f.phaseIncrReal, f.phaseIncrImag) hquiet hf.increment hq

end Runs

variable {arith : Arithmetic} {f g : Xlating ℂ} {call : Call}

theorem callIn_unbounded (h : Keeps arith) (hf : Quantised f)
    (hquiet : Quiet (f.phaseReal, f.phaseImag)) :
    callFixedIn arith call f = callFixedIn unbounded call f := by
  apply Option.bind_congr
  intro s hs
  obtain ⟨buffer, -, rfl⟩ := Option.map_eq_some_iff.mp hs
  rw [processCs16In, processCs16In]
  congr 1
  apply Block.process_body (b := { f.blockCs16 with body := f.tapCs16In unbounded }) _ _ _ _ _
    hquiet
  · intro buffer current phase hphase
    exact tapIn_keeps h hf hphase buffer current
  · intro buffer current phase output next hphase hnext
    exact tapIn_next hf hphase hnext

theorem callIn_fixed (h : Keeps arith) (hf : Quantised f)
    (hquiet : Quiet (f.phaseReal, f.phaseImag)) :
    callFixedIn arith call f = callFixed call f := by
  rw [callIn_unbounded h hf hquiet, ← wrapping_call, callIn_unbounded wrapping_keeps hf hquiet]

theorem callFixed_quantised {output : List (Int16 × Int16)} (hf : Quantised f)
    (hquiet : Quiet (f.phaseReal, f.phaseImag)) (h : callFixed call f = some (output, g)) :
    Quantised g ∧ Quiet (g.phaseReal, g.phaseImag) := by
  obtain ⟨hphase, -⟩ := callFixed_phase h
  rw [hphase]
  refine ⟨?_, iterate_quiet hf hquiet _⟩
  rw [callFixed, Format.processCs16_eq] at h
  obtain ⟨stored, hstored, hprocess⟩ := Option.bind_eq_some_iff.mp h
  obtain ⟨buffer, -, rfl⟩ := Option.map_eq_some_iff.mp hstored
  obtain ⟨r, -, hout⟩ := Option.map_eq_some_iff.mp hprocess
  cases hout
  exact ⟨hf.tap, hf.total, hf.increment⟩

theorem runIn_fixed (h : Keeps arith) (hf : Quantised f)
    (hquiet : Quiet (f.phaseReal, f.phaseImag)) (calls : List Call) :
    Mealy.run (callFixedIn arith) calls f = Mealy.run callFixed calls f := by
  symm
  apply Mealy.run_congr (P := fun f => Quantised f ∧ Quiet (f.phaseReal, f.phaseImag)) _ _
    ⟨hf, hquiet⟩
  · intro s call output t hs ht
    exact callFixed_quantised hs.1 hs.2 ht
  · intro s call hs
    exact (callIn_fixed h hs.1 hs.2).symm

theorem fixed_exact (hf : Quantised f) (hreal : f.phaseReal = 32767) (himag : f.phaseImag = 0) :
    (∀ calls, Mealy.run (callFixedIn trapping) calls f = Mealy.run callFixed calls f ∧
        Mealy.run (callFixedIn unbounded) calls f = Mealy.run callFixed calls f) ∧
      (∀ maxLen calls, Ready maxLen f → (∀ call ∈ calls, Whole maxLen call) →
        ∃ outputs g, Mealy.run (callFixedIn trapping) calls f = some (outputs, g)) ∧
      (∀ calls outputs g, Mealy.run callFixed calls f = some (outputs, g) →
        (g.phaseReal, g.phaseImag) = f.rotate^[outputs.flatten.length] (32767, 0)) ∧
      (∀ n, Quiet (f.rotate^[n] (32767, 0))) ∧
      ∀ v, ∃ r, shift15In unbounded v = some r ∧ r.toInt = clamp (v / 2 ^ 15) := by
  have hstart : (f.phaseReal, f.phaseImag) = (32767, 0) := by rw [hreal, himag]
  have hquiet : Quiet (32767, 0) := by
    rw [Quiet]
    decide
  have hphase : Quiet (f.phaseReal, f.phaseImag) := by rwa [hstart]
  refine ⟨?_, ?_, ?_, ?_, ?_⟩
  · intro calls
    exact ⟨runIn_fixed trapping_keeps hf hphase calls, runIn_fixed unbounded_keeps hf hphase calls⟩
  · intro maxLen calls hready hwhole
    rw [runIn_fixed trapping_keeps hf hphase calls]
    have hstep : ∀ s call, Ready maxLen s → Whole maxLen call →
        ∃ output t, callFixed call s = some (output, t) ∧ Ready maxLen t := by
      intro s call hs hcall
      obtain ⟨output, t, ht, hready, -⟩ := callFixed_total hs hcall
      exact ⟨output, t, ht, hready⟩
    obtain ⟨outputs, g, hrun, -⟩ := Mealy.run_total hstep hready hwhole
    exact ⟨outputs, g, hrun⟩
  · intro calls outputs g hrun
    rw [run_phase hrun, hstart]
  · intro n
    exact iterate_quiet hf hquiet n
  · intro v
    exact ⟨_, rfl, by rw [Int.shiftRight_eq_div_pow]; exact clamp_toInt _⟩

-- create_frequency_xlating_filter aligns the buffer so that only the first table is in use
theorem fetched_first {K : Type} {f : Xlating K} {taps : List Int16}
    (h : f.alignmentCs16 = 4 ∧ f.workingBufferCs16Addr % 32 = 0) (htaps : f.Fetched taps) :
    f.tapsCs16[0]? = some taps := by
  obtain ⟨current, window, hwindow, htable⟩ := htaps
  rw [h.1, alignedWindow_cs16 _ current h.2] at hwindow
  obtain rfl := Option.some.inj hwindow
  exact htable

theorem fifths_quantised : Quantised fifths where
  tap := by
    intro taps htaps i br bi hbr hbi
    obtain rfl : [16384, 0, 16384, 0] = taps := Option.some.inj (fetched_first ⟨rfl, rfl⟩ htaps)
    have hsmall : ∀ x ∈ ([16384, 0, 16384, 0] : List Int16), x.toInt ^ 2 ≤ 2 ^ 28 := by
      intro x hx
      simp only [List.mem_cons, List.not_mem_nil, or_false] at hx
      rcases hx with rfl | rfl | rfl | rfl <;> decide
    have hre := hsmall br (List.mem_of_getElem? hbr)
    have him := hsmall bi (List.mem_of_getElem? hbi)
    linarith
  total := by
    intro taps htaps
    obtain rfl : [16384, 0, 16384, 0] = taps := Option.some.inj (fetched_first ⟨rfl, rfl⟩ htaps)
    decide
  increment := by decide

theorem fixed_exact_fifths :
    Mealy.run (callFixedIn trapping) [cu8Call [200, 100, 200, 100, 200, 100]] fifths =
        Mealy.run callFixed [cu8Call [200, 100, 200, 100, 200, 100]] fifths ∧
      Quiet (fifths.rotate^[2] (32767, 0)) :=
  have hexact := fixed_exact fifths_quantised rfl rfl
  ⟨(hexact.1 _).1, hexact.2.2.2.1 2⟩

end Xlating
end SdrServer
