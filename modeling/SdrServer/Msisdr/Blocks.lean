import SdrServer.Msisdr.Convert

namespace SdrServer
namespace Msisdr

-- the chip's side: samples of `bits` bits, one after the other in fields of `width` bits
def fieldOf (width : Nat) (x : Int) : Nat := (x % 2 ^ width).toNat

def packFields (width count : Nat) (xs : List Int) : List UInt8 :=
  (PackedFields.repack width 8 count (xs.map (fieldOf width))).map UInt8.ofNat

def InRange (bits : Nat) (x : Int) : Prop := -2 ^ (bits - 1) ≤ x ∧ x < 2 ^ (bits - 1)

theorem fieldOf_lt (width : Nat) (x : Int) : fieldOf width x < 2 ^ width := by
  have hpos : (0 : Int) < 2 ^ width := by positivity
  have hlt := Int.emod_lt_of_pos x hpos
  have hnonneg := Int.emod_nonneg x hpos.ne'
  rw [fieldOf, Int.toNat_lt hnonneg]
  exact_mod_cast hlt

theorem fields_fit (width : Nat) (xs : List Int) : PackedFields.Fits width (xs.map (fieldOf width)) := by
  intro n hn
  obtain ⟨x, -, rfl⟩ := List.mem_map.mp hn
  exact fieldOf_lt width x

theorem packFields_length (width count : Nat) (xs : List Int) :
    (packFields width count xs).length = count := by
  simp [packFields, PackedFields.repack]

theorem toNat_ofNat_map {ns : List Nat} (h : PackedFields.Fits 8 ns) :
    (ns.map UInt8.ofNat).map UInt8.toNat = ns := by
  rw [List.map_map]
  refine (List.map_congr_left fun n hn => ?_).trans (List.map_id ns)
  exact UInt8.toNat_ofNat_of_lt' (h n hn)

theorem fieldsOf_packFields {width count : Nat} {xs : List Int} (h : width * xs.length = 8 * count) :
    fieldsOf width xs.length (packFields width count xs) = xs.map (fieldOf width) := by
  have hfits : PackedFields.Fits 8 (PackedFields.repack width 8 count (xs.map (fieldOf width))) :=
    PackedFields.split_fits _ _
  rw [fieldsOf, packFields, toNat_ofNat_map hfits]
  have hlen : width * (xs.map (fieldOf width)).length = 8 * count := by rwa [List.length_map]
  have hback := PackedFields.repack_repack (fields_fit width xs) hlen
  rwa [List.length_map] at hback

theorem bmod_fieldOf {bits width : Nat} {x : Int} (hbits : 0 < bits) (hle : bits ≤ width)
    (h : InRange bits x) : Int.bmod (fieldOf width x) (2 ^ bits) = x := by
  obtain ⟨hlow, hhigh⟩ := h
  have hcast : (fieldOf width x : Int) = x % 2 ^ width :=
    Int.toNat_of_nonneg (Int.emod_nonneg x (by positivity))
  have hpow : (2 : Int) ^ bits = 2 * 2 ^ (bits - 1) := by
    rw [← pow_succ']
    congr 1
    omega
  have hdvd : (2 : Int) ^ bits ∣ x - x % 2 ^ width :=
    (pow_dvd_pow 2 hle).trans Int.dvd_self_sub_emod
  rw [hcast, Int.bmod_eq_iff (Nat.two_pow_pos bits)]
  push_cast
  exact ⟨by omega, by omega, hdvd⟩

theorem sampleOf_fieldOf {bits width : Nat} {x : Int} (hbits : 0 < bits) (hle : bits ≤ width)
    (h : InRange bits x) : sampleOf bits (fieldOf width x) = x * 2 ^ (16 - bits) := by
  rw [sampleOf, bmod_fieldOf hbits hle h]

theorem Unpacks.packed {size width per bits : Nat} {group : List UInt8 → List Int16} {xs : List Int}
    (h : Unpacks size width per (sampleOf bits) group) (hbits : 0 < bits) (hle : bits ≤ width)
    (hlen : xs.length = per) (hrange : ∀ x ∈ xs, InRange bits x) (rest : List UInt8) :
    (group (packFields width size xs ++ rest)).map Int16.toInt =
      xs.map fun x => x * 2 ^ (16 - bits) := by
  have hsize : size ≤ (packFields width size xs ++ rest).length := by
    rw [List.length_append, packFields_length]
    omega
  have htake : (packFields width size xs ++ rest).take size = packFields width size xs :=
    List.take_left' (packFields_length _ _ _)
  rw [h.samples _ hsize, htake, ← hlen, fieldsOf_packFields (by rw [hlen, h.bits]), List.map_map]
  exact List.map_congr_left fun x hx => sampleOf_fieldOf hbits hle (hrange x hx)

-- eight samples of ten bits that share a shift
structure Scaled where
  shift : Nat
  samples : List Int
  deriving DecidableEq, Repr

namespace Scaled

structure Legal (g : Scaled) : Prop where
  shift : g.shift < 4
  length : g.samples.length = 8
  range : ∀ x ∈ g.samples, InRange 10 x

def values (g : Scaled) : List Int := g.samples.map fun x => x * 2 ^ (4 + min g.shift 2)

def bytes (g : Scaled) : List UInt8 := packFields 10 10 g.samples

end Scaled

-- sixteen groups, and their shifts after them
def packPart (groups : List Scaled) : List UInt8 :=
  groups.flatMap Scaled.bytes ++ packFields 2 4 (groups.map fun g => (g.shift : Int))

theorem shiftRight_toInt {x s : Int16} {k : Nat} {v w : Int} (hs : (s.toBitVec.smod 16).toNat = k)
    (hx : x.toInt = v) (hv : v = w * 2 ^ k) : (x >>> s).toInt = w := by
  have hbits : (x >>> s).toInt = x.toInt >>> k := by
    rw [Int16.toInt, Int16.toBitVec_shiftRight, BitVec.sshiftRight', hs, BitVec.toInt_sshiftRight]
    rfl
  have hpow : (2 : Int) ^ k ≠ 0 := by positivity
  rw [hbits, hx, hv, Int.shiftRight_eq_div_pow]
  push_cast
  exact Int.mul_ediv_cancel w hpow

theorem shiftRightBy_toInt {s : UInt32} {x : Int16} {v : Int} (hx : x.toInt = v * 2 ^ 6) :
    (shiftRightBy s x).toInt = v * 2 ^ (4 + min s.toNat 2) := by
  unfold shiftRightBy
  split_ifs with h0 h1
  · rw [h0]
    exact shiftRight_toInt (k := 2) rfl hx (by simp; ring)
  · rw [h1]
    exact shiftRight_toInt (k := 1) rfl hx (by simp; ring)
  · have h2 : 2 ≤ s.toNat := by
      have hzero : s.toNat ≠ 0 := fun h => h0 (UInt32.toNat_inj.mp h)
      have hone : s.toNat ≠ 1 := fun h => h1 (UInt32.toNat_inj.mp h)
      omega
    rw [min_eq_right h2, hx]

theorem shiftRightBy_map {s : UInt32} {dst : List Int16} {xs : List Int}
    (h : dst.map Int16.toInt = xs.map fun x => x * 2 ^ 6) :
    (dst.map (shiftRightBy s)).map Int16.toInt = xs.map fun x => x * 2 ^ (4 + min s.toNat 2) := by
  induction dst generalizing xs with
  | nil =>
    cases xs with
    | nil => rfl
    | cons x xs => cases h
  | cons d dst ih =>
    cases xs with
    | nil => cases h
    | cons x xs =>
      simp only [List.map_cons, List.cons.injEq] at h ⊢
      exact ⟨shiftRightBy_toInt h.1, ih h.2⟩

theorem or_byte {b k : Nat} (a : Nat) (hb : b < 2 ^ 8) :
    a <<< (8 + k) ||| b <<< k = (a * 2 ^ 8 + b) <<< k := by
  rw [Nat.shiftLeft_add, ← Nat.shiftLeft_or_distrib, ← Nat.shiftLeft_add_eq_or_of_lt hb,
    Nat.shiftLeft_eq a]

theorem word32_four (b0 b1 b2 b3 : UInt8) (rest : List UInt8) :
    (word32 (b0 :: b1 :: b2 :: b3 :: rest)).toNat =
      PackedFields.word 8 ([b0, b1, b2, b3].map UInt8.toNat) := by
  have h0 : b0.toNat < 2 ^ 8 := b0.toNat_lt
  have h1 : b1.toNat < 2 ^ 8 := b1.toNat_lt
  have h2 : b2.toNat < 2 ^ 8 := b2.toNat_lt
  have h3 : b3.toNat < 2 ^ 8 := b3.toNat_lt
  have hshift : ∀ (b : UInt8) (k : Nat), k ≤ 24 →
      (b.toUInt32 <<< UInt32.ofNat k).toNat = b.toNat <<< k := by
    intro b k hk
    have hb : b.toUInt32.toNat < 2 ^ 8 := by
      rw [UInt8.toNat_toUInt32]
      exact b.toNat_lt
    rw [shifted_toNat hb (by omega), UInt8.toNat_toUInt32]
  have h24 : (b3.toUInt32 <<< 24).toNat = b3.toNat <<< 24 := hshift b3 24 (by decide)
  have h16 : (b2.toUInt32 <<< 16).toNat = b2.toNat <<< 16 := hshift b2 16 (by decide)
  have h8 : (b1.toUInt32 <<< 8).toNat = b1.toNat <<< 8 := hshift b1 8 (by decide)
  have hl : (b0.toUInt32 <<< 0).toNat = b0.toNat := hshift b0 0 (by decide)
  simp only [word32, byteAt, List.getD_cons_zero, List.getD_cons_succ, UInt32.toNat_or, h24, h16, h8,
    hl, PackedFields.word_cons, PackedFields.word_nil, List.map_cons, List.map_nil]
  have hlast := or_byte (k := 0) ((b3.toNat * 2 ^ 8 + b2.toNat) * 2 ^ 8 + b1.toNat) h0
  rw [Nat.add_zero, Nat.shiftLeft_zero, Nat.shiftLeft_zero] at hlast
  rw [or_byte (k := 16) b3.toNat h2, or_byte (k := 8) _ h1, hlast]
  ring

theorem word32_toNat {bytes : List UInt8} (h : bytes.length = 4) (rest : List UInt8) :
    (word32 (bytes ++ rest)).toNat = PackedFields.word 8 (bytes.map UInt8.toNat) := by
  match bytes, h with
  | [b0, b1, b2, b3], _ => exact word32_four b0 b1 b2 b3 rest

theorem nthShift_toNat (shift : UInt32) {k : Nat} (hk : k < 16) :
    (shift >>> UInt32.ofNat (2 * k) &&& 0x3).toNat = shift.toNat / 2 ^ (2 * k) % 2 ^ 2 := by
  have hmod : (UInt32.ofNat (2 * k)).toNat % 32 = 2 * k := by
    rw [UInt32.toNat_ofNat']
    omega
  rw [UInt32.toNat_and, UInt32.toNat_shiftRight, hmod, Nat.shiftRight_eq_div_pow]
  exact Nat.and_two_pow_sub_one_eq_mod _ 2

-- the shift of group `k` is field `k` of the shift word
theorem unpackShifted_packed (shift : UInt32) (groups : List Scaled) (k : Nat)
    (hk : k + groups.length ≤ 16) (hlegal : ∀ g ∈ groups, g.Legal)
    (hshift : PackedFields.split 2 groups.length (shift.toNat / 2 ^ (2 * k)) =
      groups.map Scaled.shift) (rest : List UInt8) :
    (unpackShifted shift groups.length k (groups.flatMap Scaled.bytes ++ rest)).map Int16.toInt =
      groups.flatMap Scaled.values := by
  induction groups generalizing k with
  | nil => rfl
  | cons g groups ih =>
    obtain ⟨-, hlength, hrange⟩ := hlegal g (by simp)
    rw [List.length_cons, List.map_cons, PackedFields.split, List.cons.injEq] at hshift
    rw [List.length_cons] at hk
    have hnext : shift.toNat / 2 ^ (2 * k) / 2 ^ 2 = shift.toNat / 2 ^ (2 * (k + 1)) := by
      rw [Nat.div_div_eq_div_mul, ← pow_add, Nat.mul_succ]
    have hgroup : (group384 (g.bytes ++ (groups.flatMap Scaled.bytes ++ rest))).map Int16.toInt =
        g.samples.map fun x => x * 2 ^ 6 :=
      unpacks_group384.packed (by decide) (by decide) hlength hrange _
    have hdrop : (g.bytes ++ (groups.flatMap Scaled.bytes ++ rest)).drop 10 =
        groups.flatMap Scaled.bytes ++ rest := List.drop_left' (packFields_length _ _ _)
    rw [hnext] at hshift
    rw [List.flatMap_cons, List.append_assoc, List.length_cons, unpackShifted, List.map_append,
      shiftRightBy_map hgroup, nthShift_toNat shift (by omega), hshift.1, hdrop,
      ih (k + 1) (by omega) (fun g' hg' => hlegal g' (by simp [hg'])) hshift.2]
    rfl

theorem flatMap_bytes_length {groups : List Scaled} :
    (groups.flatMap Scaled.bytes).length = 10 * groups.length := by
  induction groups with
  | nil => rfl
  | cons g groups ih =>
    have hg : g.bytes.length = 10 := packFields_length _ _ _
    rw [List.flatMap_cons, List.length_append, ih, hg, List.length_cons]
    omega

theorem fieldOf_ofNat {width n : Nat} (h : n < 2 ^ width) : fieldOf width (n : Int) = n := by
  have hmod : (n : Int) % 2 ^ width = n := by
    exact_mod_cast Nat.mod_eq_of_lt h
  rw [fieldOf, hmod, Int.toNat_natCast]

theorem unpack384Part_packed {groups : List Scaled} (hlen : groups.length = 16)
    (hlegal : ∀ g ∈ groups, g.Legal) (rest : List UInt8) :
    (unpack384Part (packPart groups ++ rest)).map Int16.toInt = groups.flatMap Scaled.values := by
  have hbytes : (groups.flatMap Scaled.bytes).length = 160 := by
    rw [flatMap_bytes_length, hlen]
  have hdrop : (packPart groups ++ rest).drop 160 =
      packFields 2 4 (groups.map fun g => (g.shift : Int)) ++ rest := by
    rw [packPart, List.append_assoc]
    exact List.drop_left' hbytes
  have hfields : fieldsOf 2 16 (packFields 2 4 (groups.map fun g => (g.shift : Int))) =
      groups.map Scaled.shift := by
    have hcount : 2 * (groups.map fun g => (g.shift : Int)).length = 8 * 4 := by
      rw [List.length_map, hlen]
    have hback := fieldsOf_packFields hcount
    rw [List.length_map, hlen, List.map_map] at hback
    rw [hback]
    exact List.map_congr_left fun g hg => fieldOf_ofNat (hlegal g hg).shift
  have hword : PackedFields.split 2 groups.length
      ((word32 ((packPart groups ++ rest).drop 160)).toNat / 2 ^ (2 * 0)) =
        groups.map Scaled.shift := by
    rw [hdrop, hlen, ← hfields, fieldsOf, PackedFields.repack]
    rw [word32_toNat (packFields_length _ _ _), Nat.mul_zero, pow_zero, Nat.div_one]
  have hunpacked := unpackShifted_packed (word32 ((packPart groups ++ rest).drop 160)) groups 0
    (by omega) hlegal hword
    (packFields 2 4 (groups.map fun g => (g.shift : Int)) ++ rest)
  rw [hlen, ← List.append_assoc] at hunpacked
  exact hunpacked

-- 1024 bytes on the wire
structure Block where
  addr : UInt32
  reserved : List UInt8
  payload : List UInt8
  reserved_length : reserved.length = 12
  payload_length : payload.length = 1008

namespace Block

def header (b : Block) : List UInt8 := (PackedFields.split 8 4 b.addr.toNat).map UInt8.ofNat

def bytes (b : Block) : List UInt8 := b.header ++ (b.reserved ++ b.payload)

theorem header_length (b : Block) : b.header.length = 4 := by
  simp [header]

theorem bytes_length (b : Block) : b.bytes.length = 1024 := by
  simp [bytes, header_length, b.reserved_length, b.payload_length]

theorem word32_bytes (b : Block) (rest : List UInt8) : word32 (b.bytes ++ rest) = b.addr := by
  apply UInt32.toNat_inj.mp
  have haddr : b.addr.toNat < 2 ^ (8 * 4) := b.addr.toNat_lt
  rw [bytes, List.append_assoc, word32_toNat b.header_length, header,
    toNat_ofNat_map (PackedFields.split_fits _ _), PackedFields.word_split, Nat.mod_eq_of_lt haddr]

theorem drop_header (b : Block) (rest : List UInt8) :
    (b.bytes ++ rest).drop 16 = b.payload ++ rest := by
  have h : (b.header ++ b.reserved).length = 16 := by
    rw [List.length_append, header_length, b.reserved_length]
  rw [bytes, ← List.append_assoc, List.append_assoc]
  exact List.drop_left' h

theorem drop_bytes (b : Block) (rest : List UInt8) : (b.bytes ++ rest).drop 1024 = rest :=
  List.drop_left' b.bytes_length

end Block

-- the values that a payload stands for, at the scale of the samples that are handed on
inductive Carries : Format → List UInt8 → List Int → Prop
  | s16_252 {xs : List Int} (length : xs.length = 504) (range : ∀ x ∈ xs, InRange 14 x) :
    Carries .s16_252 (packFields 16 1008 xs) (xs.map fun x => x * 2 ^ 2)
  | s16_336 {xs : List Int} (length : xs.length = 672) (range : ∀ x ∈ xs, InRange 12 x) :
    Carries .s16_336 (packFields 12 1008 xs) (xs.map fun x => x * 2 ^ 4)
  | s16_384 {parts : List (List Scaled)} {checksum : List UInt8} (count : parts.length = 6)
    (groups : ∀ part ∈ parts, part.length = 16) (legal : ∀ part ∈ parts, ∀ g ∈ part, g.Legal)
    (length : checksum.length = 24) :
    Carries .s16_384 (parts.flatMap packPart ++ checksum)
      (parts.flatMap fun part => part.flatMap Scaled.values)
  | s16_504 {xs : List Int} (length : xs.length = 1008) (range : ∀ x ∈ xs, InRange 8 x) :
    Carries .s16_504 (packFields 8 1008 xs) (xs.map fun x => x * 2 ^ 8)
  | s8_504 {xs : List Int} (length : xs.length = 1008) (range : ∀ x ∈ xs, InRange 8 x) :
    Carries .s8_504 (packFields 8 1008 xs) xs

-- what the bytes handed on say
def decoded (format : Format) (bytes : List UInt8) : List Int :=
  match format with
  | .s8_504 => (bytes.map UInt8.toInt8).map Int8.toInt
  | _ => (littleEndianInt16s bytes).map Int16.toInt

theorem littleEndian_int16Bytes (x : Int16) (rest : List UInt8) :
    littleEndianInt16s (int16Bytes x ++ rest) = x :: littleEndianInt16s rest := by
  have hx := x.toUInt16.toNat_lt
  have hback : UInt16.ofNat (x.toUInt16.toUInt8.toNat + 2 ^ 8 * (x.toUInt16 >>> 8).toUInt8.toNat) =
      x.toUInt16 := by
    apply UInt16.toNat_inj.mp
    rw [UInt16.toNat_ofNat', UInt16.toNat_toUInt8, UInt16.toNat_toUInt8, UInt16.toNat_shiftRight]
    have h8 : (8 : UInt16).toNat % 16 = 8 := rfl
    rw [h8, Nat.shiftRight_eq_div_pow]
    omega
  rw [int16Bytes, List.cons_append, List.cons_append, List.nil_append, littleEndianInt16s, hback]
  rfl

theorem littleEndian_flatMap (xs : List Int16) : littleEndianInt16s (xs.flatMap int16Bytes) = xs := by
  induction xs with
  | nil => rfl
  | cons x xs ih => rw [List.flatMap_cons, littleEndian_int16Bytes, ih]

theorem unpackLoop_parts (parts : List (List Scaled)) (rest : List UInt8)
    (hgroups : ∀ part ∈ parts, part.length = 16)
    (hlegal : ∀ part ∈ parts, ∀ g ∈ part, g.Legal) :
    (unpackLoop 164 unpack384Part parts.length (parts.flatMap packPart ++ rest)).map Int16.toInt =
      parts.flatMap fun part => part.flatMap Scaled.values := by
  induction parts with
  | nil => rfl
  | cons part parts ih =>
    have hlen : (packPart part).length = 164 := by
      rw [packPart, List.length_append, flatMap_bytes_length, packFields_length, hgroups part (by simp)]
    have hdrop : (packPart part ++ (parts.flatMap packPart ++ rest)).drop 164 =
        parts.flatMap packPart ++ rest := List.drop_left' hlen
    rw [List.length_cons, unpackLoop, List.map_append, List.flatMap_cons, List.append_assoc,
      unpack384Part_packed (hgroups part (by simp)) (hlegal part (by simp)), hdrop,
      ih (fun p hp => hgroups p (by simp [hp])) (fun p hp => hlegal p (by simp [hp]))]
    rfl

-- the converter of each 16-bit format
def unpackOf : Format → List UInt8 → List Int16
  | .s16_252 => unpack252
  | .s16_336 => unpack336
  | .s16_384 => unpack384
  | .s16_504 => unpack504
  | .s8_504 => fun _ => []

theorem Carries.unpacked {format : Format} {payload : List UInt8} {values : List Int}
    (h : Carries format payload values) (hne : format ≠ .s8_504) (rest : List UInt8) :
    (unpackOf format (payload ++ rest)).map Int16.toInt = values := by
  cases h with
  | s16_252 hlen hrange => exact unpacks_252.packed (by decide) (by decide) hlen hrange rest
  | s16_336 hlen hrange => exact unpacks_336.packed (by decide) (by decide) hlen hrange rest
  | @s16_384 parts checksum hcount hgroups hlegal hlen =>
    rw [List.append_assoc, unpackOf, unpack384, ← hcount]
    exact unpackLoop_parts parts _ hgroups hlegal
  | s16_504 hlen hrange => exact unpacks_504.packed (by decide) (by decide) hlen hrange rest
  | s8_504 hlen hrange => exact absurd rfl hne

end Msisdr
end SdrServer
