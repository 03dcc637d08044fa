import SdrServer.Device.Handles
import Mathlib.Data.List.MinMax

namespace SdrServer
namespace Device

open Config (sdrTypeRtl)

-- overflow of an int is undefined, and so is the abs of the least one
def signed (x : Int) : Option Int := if -2 ^ 31 ≤ x ∧ x < 2 ^ 31 then some x else none

def gainError (target gain : Int32) : Option Int := do
  let difference ← signed (target.toInt - gain.toInt)
  signed |difference|

def nearerGain (target nearest gain : Int32) : Option Int32 := do
  let err1 ← gainError target nearest
  let err2 ← gainError target gain
  return if err2 < err1 then gain else nearest

-- what the two calls of rtlsdr_get_tuner_gains return, and the entries that the second one writes
structure TunerGains where
  count : Int32
  code : Int32
  gains : List Int32
  deriving DecidableEq, Repr

def TunerGains.read (tuner : TunerGains) (target nearest : Int32) (i : Nat) : Option Int32 := do
  nearerGain target nearest (← tuner.gains[i]?)

-- `none` where the source overflows or reads an entry that was not written
def findNearestGain (allocated : Bool) (tuner : TunerGains) (target : Int32) :
    Option (Except Int32 Int32) :=
  if tuner.count ≤ 0 then some (.error (-1))
  else if !allocated then some (.error (-12))
  else if tuner.code ≤ 0 then some (.error (-1))
  else do
    let first ← tuner.gains[0]?
    let nearest ← (List.range tuner.count.toInt.toNat).foldlM (tuner.read target) first
    return .ok nearest

def distance (target gain : Int32) : Int := |target.toInt - gain.toInt|

section Nearest

variable {target nearest gain : Int32} {gains : List Int32}

theorem gainError_eq (target gain : Int32) :
    gainError target gain =
      if distance target gain < 2 ^ 31 then some (distance target gain) else none := by
  have hnonneg : 0 ≤ distance target gain := abs_nonneg _
  by_cases hrange : -2 ^ 31 ≤ target.toInt - gain.toInt ∧ target.toInt - gain.toInt < 2 ^ 31
  · have hfirst : signed (target.toInt - gain.toInt) = some (target.toInt - gain.toInt) :=
      if_pos hrange
    have hsecond : -2 ^ 31 ≤ distance target gain ∧ distance target gain < 2 ^ 31 ↔
        distance target gain < 2 ^ 31 := by omega
    rw [gainError, hfirst]
    exact if_congr hsecond rfl rfl
  · have hfirst : signed (target.toInt - gain.toInt) = none := if_neg hrange
    have hfar : ¬ distance target gain < 2 ^ 31 := by
      intro hnear
      have hbounds := abs_lt.mp hnear
      omega
    rw [gainError, hfirst, if_neg hfar]
    rfl

-- gains that are not negative cannot overflow
theorem distance_lt (htarget : 0 ≤ target) (hgain : 0 ≤ gain) : distance target gain < 2 ^ 31 := by
  have hzero : (0 : Int32).toInt = 0 := rfl
  have htarget' := Int32.le_iff_toInt_le.mp htarget
  have hgain' := Int32.le_iff_toInt_le.mp hgain
  have hupper := target.toInt_lt
  have hupper' := gain.toInt_lt
  rw [distance, abs_lt]
  omega

theorem argAux_distance :
    List.argAux (fun g g' => distance target g < distance target g') (some nearest) gain =
      some (if distance target gain < distance target nearest then gain else nearest) := by
  simp only [List.argAux]
  split <;> rfl

theorem nearerGain_eq (hnearest : distance target nearest < 2 ^ 31) :
    nearerGain target nearest gain =
      if distance target gain < 2 ^ 31 then
        some (if distance target gain < distance target nearest then gain else nearest)
      else none := by
  rw [nearerGain, gainError_eq, gainError_eq, if_pos hnearest]
  split <;> rfl

theorem nearerGain_far (hnearest : ¬ distance target nearest < 2 ^ 31) :
    nearerGain target nearest gain = none := by
  rw [nearerGain, gainError_eq, if_neg hnearest]
  rfl

-- one pass keeps the first of the nearest
theorem foldlM_nearerGain (hnearest : distance target nearest < 2 ^ 31) :
    gains.foldlM (nearerGain target) nearest = some gain ↔
      (∀ g ∈ gains, distance target g < 2 ^ 31) ∧
        gains.foldl (List.argAux fun g g' => distance target g < distance target g')
          (some nearest) = some gain := by
  induction gains generalizing nearest with
  | nil => simp
  | cons g gains ih =>
    rw [List.foldlM_cons, nearerGain_eq hnearest, List.forall_mem_cons, and_assoc, List.foldl_cons]
    by_cases hg : distance target g < 2 ^ 31
    · rw [if_pos hg, and_iff_right hg, argAux_distance]
      have hkept : distance target
          (if distance target g < distance target nearest then g else nearest) < 2 ^ 31 := by
        split
        · exact hg
        · exact hnearest
      exact ih hkept
    · rw [if_neg hg]
      constructor
      · intro h
        cases h
      · intro h
        exact absurd h.1 hg

-- the source looks at the first gain twice
theorem foldlM_first {first : Int32} :
    (first :: gains).foldlM (nearerGain target) first = some gain ↔
      (∀ g ∈ first :: gains, distance target g < 2 ^ 31) ∧
        (first :: gains).argmin (distance target) = some gain := by
  by_cases hfirst : distance target first < 2 ^ 31
  · rw [foldlM_nearerGain hfirst, List.foldl_cons, argAux_distance, ite_self]
    rfl
  · rw [List.foldlM_cons, nearerGain_far hfirst]
    constructor
    · intro h
      cases h
    · intro h
      exact absurd (h.1 first List.mem_cons_self) hfirst

end Nearest

theorem TunerGains.foldlM_read (tuner : TunerGains) (target first : Int32) (n : Nat) :
    (List.range n).foldlM (tuner.read target) first =
      if n ≤ tuner.gains.length then (tuner.gains.take n).foldlM (nearerGain target) first
      else none := by
  induction n with
  | zero => simp
  | succ n ih =>
    rw [List.range_succ, List.foldlM_append, ih]
    by_cases hn : n + 1 ≤ tuner.gains.length
    · have hget : tuner.gains[n]? = some tuner.gains[n] := List.getElem?_eq_getElem hn
      rw [if_pos (by omega), if_pos hn, List.take_add_one, List.foldlM_append, hget]
      simp [TunerGains.read, hget]
    · have hget : tuner.gains[n]? = none := List.getElem?_eq_none (by omega)
      rw [if_neg hn]
      split <;> simp [TunerGains.read, hget]

-- the gain is the first of the nearest, whatever the tuner offers
theorem nearest_gain (tuner : TunerGains) {target gain : Int32} (hcount : 0 < tuner.count)
    (hcode : 0 < tuner.code) :
    findNearestGain true tuner target = some (.ok gain) ↔
      tuner.count.toInt.toNat ≤ tuner.gains.length ∧
        (∀ g ∈ tuner.gains.take tuner.count.toInt.toNat, distance target g < 2 ^ 31) ∧
        (tuner.gains.take tuner.count.toInt.toNat).argmin (distance target) = some gain := by
  have hpositive : 0 < tuner.count.toInt := Int32.lt_iff_toInt_lt.mp hcount
  have hnat : 0 < tuner.count.toInt.toNat := by omega
  rw [findNearestGain, if_neg (Int32.not_le.mpr hcount), if_neg (by simp),
    if_neg (Int32.not_le.mpr hcode)]
  simp only [tuner.foldlM_read]
  cases hgains : tuner.gains with
  | nil => simp
  | cons first rest =>
    obtain ⟨n, hn⟩ := Nat.exists_eq_add_one_of_ne_zero hnat.ne'
    simp only [hn, List.take_succ_cons, List.getElem?_cons_zero, List.length_cons,
      Option.bind_eq_bind, Option.bind_some]
    by_cases hlen : n + 1 ≤ rest.length + 1
    · rw [if_pos hlen, and_iff_right hlen, ← foldlM_first, Option.bind_eq_some_iff]
      constructor
      · rintro ⟨nearest, hnearest, hok⟩
        cases hok
        exact hnearest
      · intro hnearest
        exact ⟨gain, hnearest, rfl⟩
    · rw [if_neg hlen]
      constructor
      · intro h
        cases h
      · intro h
        exact absurd h.1 hlen

-- the two calls of the device's start fail as find_nearest_gain does
theorem find_calls (codes : Codes) (s : Rig) (gains : List Int32) (target : Int32)
    {r : Except Int32 Int32}
    (h : findNearestGain true
      ⟨codes.code .rtlsdrCountTunerGains, codes.code .rtlsdrGetTunerGains, gains⟩ target = some r) :
    (([LibCall.rtlsdrCountTunerGains, .rtlsdrGetTunerGains].foldlM (errorCheck .rtlsdr codes) s).map
      fun _ => ()).mapError Prod.fst = r.map fun _ => () := by
  unfold findNearestGain at h
  split_ifs at h with hcount hmalloc hcode
  · obtain rfl := Option.some.inj h
    have hresult : LibCall.result .rtlsdrCountTunerGains
        (codes.code .rtlsdrCountTunerGains) = -1 := if_pos hcount
    simp only [List.foldlM_cons, errorCheck, hresult]
    rfl
  · cases hmalloc
  · obtain rfl := Option.some.inj h
    have hfirst : LibCall.result .rtlsdrCountTunerGains
        (codes.code .rtlsdrCountTunerGains) = 0 := if_neg hcount
    have hsecond : LibCall.result .rtlsdrGetTunerGains
        (codes.code .rtlsdrGetTunerGains) = -1 := if_pos hcode
    simp only [List.foldlM_cons, errorCheck, hfirst, hsecond]
    rfl
  · obtain ⟨first, -, h⟩ := Option.bind_eq_some_iff.mp h
    obtain ⟨nearest, -, h⟩ := Option.bind_eq_some_iff.mp h
    obtain rfl := Option.some.inj h
    have hfirst : LibCall.result .rtlsdrCountTunerGains
        (codes.code .rtlsdrCountTunerGains) = 0 := if_neg hcount
    have hsecond : LibCall.result .rtlsdrGetTunerGains
        (codes.code .rtlsdrGetTunerGains) = 0 := if_neg hcode
    simp only [List.foldlM_cons, errorCheck, hfirst, hsecond]
    rfl

theorem passes_of_ok {driver : Driver} {codes : Codes} {s t : Rig} {calls : List LibCall}
    (h : calls.foldlM (errorCheck driver codes) s = .ok t) : Passes driver codes calls := by
  induction calls generalizing s with
  | nil => simp [Passes]
  | cons call calls ih =>
    rw [List.foldlM_cons] at h
    cases hfails : fails driver (call.result (codes.code call)) with
    | true =>
      rw [errorCheck, if_pos hfails] at h
      cases h
    | false =>
      rw [errorCheck, if_neg (by simp [hfails])] at h
      exact passes_cons hfails (ih h)

theorem passes_of_start {c : Config.ServerConfig} {codes : Codes} {s t : Rig}
    (h : rtlsdrDeviceStartRx c codes s = .ok t) : Passes .rtlsdr codes (rtlsdrCalls c) := by
  obtain ⟨_, -, h⟩ := Config.bind_ok h
  obtain ⟨_, hcalls, -⟩ := Config.bind_ok h
  exact passes_of_ok hcalls

theorem positive_of_result {code : Int32}
    (h : fails .rtlsdr (if code ≤ 0 then -1 else 0) = false) : 0 < code := by
  split at h
  · cases h
  · exact Int32.not_le.mp ‹_›

-- a manual start that succeeds asks for the first of the nearest gains
theorem start_nearest_gain {c : Config.ServerConfig} {codes : Codes} {s t : Rig}
    {gains : List Int32} (hmanual : c.gainMode = 1) (hstart : rtlsdrDeviceStartRx c codes s = .ok t)
    (hcount : (codes.code .rtlsdrCountTunerGains).toInt = gains.length)
    (hnear : ∀ g ∈ gains, distance c.gain g < 2 ^ 31) :
    ∃ gain ∈ gains.argmin (distance c.gain),
      findNearestGain true
        ⟨codes.code .rtlsdrCountTunerGains, codes.code .rtlsdrGetTunerGains, gains⟩ c.gain =
          some (.ok gain) := by
  have hpass := passes_of_start hstart
  have hmem : LibCall.rtlsdrCountTunerGains ∈ rtlsdrCalls c ∧
      LibCall.rtlsdrGetTunerGains ∈ rtlsdrCalls c := by
    simp [rtlsdrCalls, hmanual]
  have hfirst : 0 < codes.code .rtlsdrCountTunerGains := positive_of_result (hpass _ hmem.1)
  have hsecond : 0 < codes.code .rtlsdrGetTunerGains := positive_of_result (hpass _ hmem.2)
  have hlength : (codes.code .rtlsdrCountTunerGains).toInt.toNat = gains.length := by
    rw [hcount, Int.toNat_natCast]
  have hoffered : gains ≠ [] := by
    rintro rfl
    exact absurd hcount (Int32.lt_iff_toInt_lt.mp hfirst).ne'
  have hsome : gains.argmin (distance c.gain) ≠ none :=
    fun h => hoffered (List.argmin_eq_none.mp h)
  obtain ⟨gain, hgain⟩ := Option.ne_none_iff_exists'.mp hsome
  refine ⟨gain, hgain, (nearest_gain
    ⟨codes.code .rtlsdrCountTunerGains, codes.code .rtlsdrGetTunerGains, gains⟩
    hfirst hsecond).mpr ?_⟩
  simp only [hlength, List.take_length]
  exact ⟨le_refl _, hnear, hgain⟩

-- 20 dB
def manualGain : Config.ServerConfig :=
  { accept (settings sdrTypeRtl 131072) rfl with
    gainMode := 1
    gain := 200 }

def fourGains : Codes where
  code := fun call =>
    if call = .rtlsdrCountTunerGains ∨ call = .rtlsdrGetTunerGains then 4 else 0
  msisdrOpen := by decide

theorem start_nearest_gain_four :
    ∃ gain ∈ [0, 90, 190, 207].argmin (distance manualGain.gain),
      findNearestGain true
        ⟨fourGains.code .rtlsdrCountTunerGains, fourGains.code .rtlsdrGetTunerGains,
          [0, 90, 190, 207]⟩ manualGain.gain = some (.ok gain) := by
  have hmanual : manualGain.gainMode = 1 := rfl
  have hstart : rtlsdrDeviceStartRx manualGain fourGains Rig.init.allocate = .ok _ := rfl
  have hcount : (fourGains.code .rtlsdrCountTunerGains).toInt =
      ([0, 90, 190, 207] : List Int32).length := by decide
  have hpositive : ∀ g ∈ ([0, 90, 190, 207] : List Int32), 0 ≤ g := by simp
  have htarget : 0 ≤ manualGain.gain := by decide
  exact start_nearest_gain hmanual hstart hcount fun g hg => distance_lt htarget (hpositive g hg)

end Device
end SdrServer
