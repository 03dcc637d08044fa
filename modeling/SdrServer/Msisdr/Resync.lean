import SdrServer.Msisdr.Session

namespace SdrServer
namespace Msisdr

-- what the chip sends, byte by byte, and where a header would stand
abbrev Source := Nat → UInt8

namespace Source

variable (source : Source)

def read (pos len : Nat) : List UInt8 := (List.range len).map fun i => source (pos + i)

def header (pos : Nat) : UInt32 := word32 (read source pos 4)

end Source

-- the lengths of the bulk transfers in flight, the oldest first
structure Pipe where
  stream : Stream
  pos : Nat
  lengths : List Nat
  deriving DecidableEq, Repr

namespace Pipe

-- the oldest transfer completes in full and is submitted again; `stale` is the rest of its buffer
def step (source : Source) (s : Pipe) (stale : List UInt8) : Option Pipe :=
  match s.lengths with
  | [] => none
  | len :: rest => do
    let (_, next, stream) ← completed s.stream (.bulk (source.read s.pos len ++ stale) len)
    some ⟨stream, s.pos + len, rest ++ [next]⟩

end Pipe

theorem byteAt_read (source : Source) (stale : List UInt8) {pos len k i : Nat} (h : k + i < len) :
    byteAt ((source.read pos len ++ stale).drop k) i = source (pos + (k + i)) := by
  have hlen : (source.read pos len).length = len := by simp [Source.read]
  rw [byteAt, List.getD_eq_getElem?_getD, List.getElem?_drop,
    List.getElem?_append_left (by rw [hlen]; exact h), Source.read, List.getElem?_map,
    List.getElem?_range h]
  rfl

theorem word32_read (source : Source) (stale : List UInt8) {pos len k : Nat} (h : k + 4 ≤ len) :
    word32 ((source.read pos len ++ stale).drop k) = source.header (pos + k) := by
  have hbyte : ∀ i < 4, byteAt ((source.read pos len ++ stale).drop k) i =
      byteAt (source.read (pos + k) 4) i := by
    intro i hi
    have hself : byteAt ((source.read (pos + k) 4 ++ []).drop 0) i = source (pos + k + (0 + i)) :=
      byteAt_read source [] (by omega)
    rw [List.append_nil, List.drop_zero] at hself
    rw [byteAt_read source stale (by omega), hself, Nat.zero_add, Nat.add_assoc]
  rw [Source.header, word32, word32, hbyte 0 (by decide), hbyte 1 (by decide), hbyte 2 (by decide),
    hbyte 3 (by decide)]

theorem convertLoop_addr (unpack : List UInt8 → List Int16) (left i : Nat) (addr : UInt32)
    (src : List UInt8) (p : Stream) :
    (convertLoop unpack (left + 1) i addr src p).2.1 = word32 (src.drop (1024 * left)) := by
  induction left generalizing i addr src p with
  | zero => rfl
  | succ left ih =>
    rw [convertLoop]
    dsimp only
    rw [ih, List.drop_drop, Nat.mul_succ, Nat.add_comm]

theorem convertLoop_loss (unpack : List UInt8 → List Int16) (left : Nat) (addr : UInt32)
    (src : List UInt8) (p : Stream) :
    (convertLoop unpack (left + 1) 0 addr src p).2.2.syncLossCnt =
      p.syncLossCnt + if word32 src ≠ p.addr then 1 else 0 := by
  rw [convertLoop]
  dsimp only
  rw [convertLoop_next _ _ _ _ (by omega)]
  by_cases h : word32 src = p.addr
  · simp [h]
  · simp [h]

-- the header at the front of the next transfer is not the one that is waited for
def Pipe.Lost (source : Source) (s : Pipe) : Prop := source.header s.pos ≠ s.stream.addr

instance (source : Source) (s : Pipe) : Decidable (s.Lost source) :=
  inferInstanceAs (Decidable (_ ≠ _))

-- the part of the state that the transfers leave alone
structure Pipe.Sound (format : Format) (num : Nat) (s : Pipe) : Prop where
  framed : s.stream.Framed
  format : s.stream.format = format
  num : s.stream.xferBufNum = num

def Pipe.count (source : Source) (s : Pipe) : Int :=
  s.stream.syncLossCnt + if s.Lost source then 1 else 0

structure Pipe.Stepped (source : Source) (num len : Nat) (rest : List Nat) (s t : Pipe) : Prop where
  pos : t.pos = s.pos + len
  addr : t.stream.addr =
    source.header (s.pos + 1024 * (len / 1024 - 1)) + s.stream.format.pairs
  full : s.count source ≤ num →
    t.stream.syncLossCnt = s.count source ∧ t.lengths = rest ++ [16384]
  short : num < s.count source →
    t.stream.syncLossCnt = -num + 1 ∧ t.lengths = rest ++ [15872]

theorem samplesConvert_header (unpack : List UInt8 → List Int16) (pairs : UInt32) (buf : List UInt8)
    {cnt : Nat} (h : 1024 ≤ cnt) (p : Stream) :
    (samplesConvert unpack pairs buf cnt p).2.addr =
        word32 (buf.drop (1024 * (cnt / 1024 - 1))) + pairs ∧
      (samplesConvert unpack pairs buf cnt p).2.syncLossCnt =
        p.syncLossCnt + if word32 buf ≠ p.addr then 1 else 0 := by
  obtain ⟨left, hleft⟩ : ∃ left, cnt / 1024 = left + 1 := ⟨cnt / 1024 - 1, by omega⟩
  rw [samplesConvert, hleft, Nat.add_sub_cancel]
  exact ⟨congrArg (· + pairs) (convertLoop_addr unpack left 0 0 buf p),
    convertLoop_loss unpack left 0 buf p⟩

theorem convertTransfer_header {p q : Stream} {samples buf : List UInt8} {cnt : Nat}
    (hformat : p.format ≠ .s8_504) (hcnt : 1024 ≤ cnt)
    (h : convertTransfer p (.bulk buf cnt) = some (samples, q)) :
    q.addr = word32 (buf.drop (1024 * (cnt / 1024 - 1))) + p.format.pairs ∧
      q.syncLossCnt = p.syncLossCnt + if word32 buf ≠ p.addr then 1 else 0 := by
  have hrealloc : ∀ size, (samplesRealloc size p).format = p.format ∧
      (samplesRealloc size p).addr = p.addr ∧
      (samplesRealloc size p).syncLossCnt = p.syncLossCnt := by
    intro size
    unfold samplesRealloc
    split <;> exact ⟨rfl, rfl, rfl⟩
  obtain ⟨hsame, haddr, hloss⟩ := hrealloc (defaultBulkBuffer / 1024 * p.format.blockBytes)
  rw [convertTransfer, Option.ite_none_right_eq_some, hsame, convert_s16 hformat] at h
  obtain ⟨-, hsome⟩ := h
  obtain rfl := congrArg Prod.snd (Option.some.inj hsome)
  rw [← haddr, ← hloss]
  exact samplesConvert_header _ _ _ hcnt _

theorem Pipe.step_eq {format : Format} {num : Nat} (source : Source) {s : Pipe}
    (h : s.Sound format num) (hformat : format ≠ .s8_504) {len : Nat} {rest : List Nat}
    (hlengths : s.lengths = len :: rest) (hlow : 1024 ≤ len) (hhigh : len ≤ 16384)
    (stale : List UInt8) :
    ∃ t, s.step source stale = some t ∧ t.Sound format num ∧ s.Stepped source num len rest t := by
  have hreceived : Transfer.Received (.bulk (source.read s.pos len ++ stale) len) := .bulk hhigh
  obtain ⟨samples, q, calls, r, hconvert, hcompleted, hr⟩ := completed_delivers h.framed hreceived
  obtain ⟨haddr, hloss⟩ := convertTransfer_header (by rw [h.format]; exact hformat) hlow hconvert
  have hfirst : word32 (source.read s.pos len ++ stale) = source.header s.pos :=
    word32_read source stale (k := 0) (by omega)
  have hlast : word32 ((source.read s.pos len ++ stale).drop (1024 * (len / 1024 - 1))) =
      source.header (s.pos + 1024 * (len / 1024 - 1)) := word32_read source stale (by omega)
  rw [hlast, ← hr.addr] at haddr
  have hcount : r.syncLossCnt = s.count source := by
    rw [hr.loss, hloss, hfirst]
    rfl
  have hnum := hr.converted.2.1.trans h.num
  have hnext := nextLength_converted r (.bulk (source.read s.pos len ++ stale) len)
  refine ⟨⟨(nextLength r (.bulk (source.read s.pos len ++ stale) len)).2, s.pos + len,
    rest ++ [(nextLength r (.bulk (source.read s.pos len ++ stale) len)).1]⟩, ?_, ?_, ?_⟩
  · rw [Pipe.step, hlengths]
    dsimp only
    rw [hcompleted]
    rfl
  · exact ⟨hnext.framed hr.framed, hnext.format.trans (hr.converted.1.trans h.format),
      hnext.num.trans hnum⟩
  · rw [nextLength, hcount, hnum]
    by_cases hmany : s.count source > num
    · rw [if_pos hmany]
      exact ⟨rfl, haddr, fun hle => absurd hmany (not_lt.mpr hle), fun _ => ⟨rfl, rfl⟩⟩
    · rw [if_neg hmany]
      exact ⟨rfl, haddr, fun _ => ⟨hcount, rfl⟩, fun hlt => absurd hlt hmany⟩

-- headers follow each other where blocks begin, and nowhere half a block later
structure Source.Regular (source : Source) (pairs : UInt32) : Prop where
  blocks : ∀ b, source.header (1024 * (b + 1)) = source.header (1024 * b) + pairs
  between : ∀ b, source.header (1024 * (b + 1) + 512) ≠ source.header (1024 * b + 512) + pairs

def whole (num : Nat) : List Nat := List.replicate num 16384

-- at the start of a block, with the header that is waited for, and no short transfer on its way
structure Pipe.Synced (source : Source) (format : Format) (num : Nat) (s : Pipe) : Prop where
  sound : s.Sound format num
  pos : s.pos % 1024 = 0
  lengths : s.lengths = whole num
  loss : s.stream.syncLossCnt ≤ 2
  header : ¬ s.Lost source

-- at most `m` transfers before the pipe is synced again: the first one, whose header may be the
-- right one by chance, those up to the one too many, those ahead of the short one, and the one
-- after it
inductive Pipe.Within (source : Source) (format : Format) (num : Nat) : Nat → Pipe → Prop
  | synced {m : Nat} {s : Pipe} (h : s.Synced source format num) : Within source format num m s
  | settling {m : Nat} {s : Pipe} (sound : s.Sound format num) (pos : s.pos % 1024 = 0)
    (lengths : s.lengths = whole num) (loss : s.stream.syncLossCnt ≤ 1) :
    Within source format num (m + 1) s
  | draining {m j : Nat} {s : Pipe} (sound : s.Sound format num) (pos : s.pos % 1024 = 512)
    (hj : j < num) (lengths : s.lengths = whole j ++ 15872 :: whole (num - 1 - j))
    (loss : s.stream.syncLossCnt = -j) (header : s.Lost source) (hm : j + 2 ≤ m) :
    Within source format num m s
  | lost {m : Nat} {s : Pipe} (sound : s.Sound format num) (pos : s.pos % 1024 = 512)
    (lengths : s.lengths = whole num) (hlow : 0 ≤ s.stream.syncLossCnt)
    (loss : s.stream.syncLossCnt ≤ num) (header : s.Lost source)
    (hm : 2 * num + 2 ≤ m + s.stream.syncLossCnt) : Within source format num m s
  | entering {m : Nat} {s : Pipe} (sound : s.Sound format num) (pos : s.pos % 1024 = 512)
    (lengths : s.lengths = whole num) (loss : s.stream.syncLossCnt = 0) (hm : 2 * num + 3 ≤ m) :
    Within source format num m s

section Recovery

variable {source : Source} {format : Format} {num : Nat} {s t : Pipe} {rest : List Nat}

theorem whole_cons {num : Nat} (h : 0 < num) : whole num = 16384 :: whole (num - 1) := by
  obtain ⟨k, rfl⟩ := Nat.exists_eq_succ_of_ne_zero h.ne'
  rfl

theorem whole_snoc {num : Nat} (h : 0 < num) : whole (num - 1) ++ [16384] = whole num := by
  obtain ⟨k, rfl⟩ := Nat.exists_eq_succ_of_ne_zero h.ne'
  rw [Nat.succ_sub_one, whole, whole, ← List.replicate_succ']

theorem Pipe.Stepped.follows (h : s.Stepped source num 16384 rest t) (hs : s.Sound format num)
    (hregular : source.Regular format.pairs) (hpos : s.pos % 1024 = 0) : ¬ t.Lost source := by
  have haddr := h.addr
  rw [hs.format] at haddr
  obtain ⟨b, hb⟩ : ∃ b, s.pos = 1024 * b := ⟨s.pos / 1024, by omega⟩
  have hnext := hregular.blocks (b + 15)
  have hlast : s.pos + 1024 * (16384 / 1024 - 1) = 1024 * (b + 15) := by omega
  have hfirst : t.pos = 1024 * (b + 15 + 1) := by
    rw [h.pos]
    omega
  rw [hlast, ← hnext, ← hfirst] at haddr
  exact fun hlost => hlost haddr.symm

theorem Pipe.Stepped.misses (h : s.Stepped source num 16384 rest t) (hs : s.Sound format num)
    (hregular : source.Regular format.pairs) (hpos : s.pos % 1024 = 512) : t.Lost source := by
  have haddr := h.addr
  rw [hs.format] at haddr
  obtain ⟨b, hb⟩ : ∃ b, s.pos = 1024 * b + 512 := ⟨s.pos / 1024, by omega⟩
  have hnext := hregular.between (b + 15)
  have hlast : s.pos + 1024 * (16384 / 1024 - 1) = 1024 * (b + 15) + 512 := by omega
  have hfirst : t.pos = 1024 * (b + 15 + 1) + 512 := by
    rw [h.pos]
    omega
  rw [hlast] at haddr
  rw [Pipe.Lost, haddr, hfirst]
  exact hnext

theorem Pipe.count_bounds (source : Source) (s : Pipe) :
    s.stream.syncLossCnt ≤ s.count source ∧ s.count source ≤ s.stream.syncLossCnt + 1 := by
  unfold Pipe.count
  split <;> omega

theorem Pipe.Lost.count_eq (h : s.Lost source) : s.count source = s.stream.syncLossCnt + 1 := by
  rw [Pipe.count, if_pos h]

theorem count_of_not_lost (h : ¬ s.Lost source) : s.count source = s.stream.syncLossCnt := by
  rw [Pipe.count, if_neg h, add_zero]

theorem Pipe.Synced.step (h : s.Synced source format num) (hformat : format ≠ .s8_504)
    (hregular : source.Regular format.pairs) (hnum : 2 ≤ num) (stale : List UInt8) :
    ∃ t, s.step source stale = some t ∧ t.Synced source format num := by
  obtain ⟨t, hstep, hsound, hstepped⟩ := s.step_eq source h.sound hformat
    (h.lengths.trans (whole_cons (by omega))) (by decide) (by decide) stale
  have hcount := count_of_not_lost h.header
  have hloss := h.loss
  obtain ⟨hsame, hlengths⟩ := hstepped.full (by omega)
  have hpos := hstepped.pos
  have hbefore := h.pos
  refine ⟨t, hstep, hsound, by omega, ?_, by omega, hstepped.follows h.sound hregular h.pos⟩
  rw [hlengths, whole_snoc (by omega)]

theorem Pipe.Within.step {m : Nat} (h : s.Within source format num (m + 1)) (hformat : format ≠ .s8_504)
    (hregular : source.Regular format.pairs) (hnum : 2 ≤ num) (stale : List UInt8) :
    ∃ t, s.step source stale = some t ∧ t.Within source format num m := by
  cases h with
  | synced h =>
    obtain ⟨t, hstep, ht⟩ := h.step hformat hregular hnum stale
    exact ⟨t, hstep, .synced ht⟩
  | settling sound pos lengths loss =>
    obtain ⟨t, hstep, hsound, hstepped⟩ := s.step_eq source sound hformat
      (lengths.trans (whole_cons (by omega))) (by decide) (by decide) stale
    have hcount := s.count_bounds source
    have hnext := hstepped.pos
    obtain ⟨hsame, hlengths⟩ := hstepped.full (by omega)
    rw [whole_snoc (by omega)] at hlengths
    exact ⟨t, hstep, .synced ⟨hsound, by omega, hlengths, by omega,
      hstepped.follows sound hregular pos⟩⟩
  | @draining _ j _ sound pos hj lengths loss header hm =>
    have hcount := header.count_eq
    cases j with
    | zero =>
      obtain ⟨t, hstep, hsound, hstepped⟩ := s.step_eq source sound hformat lengths (by decide)
        (by decide) stale
      have hnext := hstepped.pos
      obtain ⟨hsame, hlengths⟩ := hstepped.full (by omega)
      rw [Nat.sub_zero, whole_snoc (by omega)] at hlengths
      obtain ⟨k, rfl⟩ : ∃ k, m = k + 1 := ⟨m - 1, by omega⟩
      exact ⟨t, hstep, .settling hsound (by omega) hlengths (by omega)⟩
    | succ j =>
      rw [whole_cons (Nat.succ_pos j), List.cons_append] at lengths
      obtain ⟨t, hstep, hsound, hstepped⟩ := s.step_eq source sound hformat lengths (by decide)
        (by decide) stale
      have hnext := hstepped.pos
      obtain ⟨hsame, hlengths⟩ := hstepped.full (by omega)
      have hback : whole (num - 1 - (j + 1)) ++ [16384] = whole (num - 1 - j) := by
        rw [← Nat.sub_sub, whole_snoc (by omega)]
      rw [Nat.succ_sub_one, List.append_assoc, List.cons_append, hback] at hlengths
      exact ⟨t, hstep, .draining hsound (by omega) (by omega) hlengths (by omega)
        (hstepped.misses sound hregular pos) (by omega)⟩
  | lost sound pos lengths hlow loss header hm =>
    obtain ⟨t, hstep, hsound, hstepped⟩ := s.step_eq source sound hformat
      (lengths.trans (whole_cons (by omega))) (by decide) (by decide) stale
    have hcount := header.count_eq
    have hnext := hstepped.pos
    have hmisses := hstepped.misses sound hregular pos
    by_cases hmany : s.count source ≤ num
    · obtain ⟨hsame, hlengths⟩ := hstepped.full hmany
      rw [whole_snoc (by omega)] at hlengths
      exact ⟨t, hstep, .lost hsound (by omega) hlengths (by omega) (by omega) hmisses (by omega)⟩
    · obtain ⟨hsame, hlengths⟩ := hstepped.short (by omega)
      have hnone : num - 1 - (num - 1) = 0 := by omega
      refine ⟨t, hstep, .draining (j := num - 1) hsound (by omega) (by omega) ?_ (by omega) hmisses
        (by omega)⟩
      rw [hlengths, hnone]
      rfl
  | entering sound pos lengths loss hm =>
    obtain ⟨t, hstep, hsound, hstepped⟩ := s.step_eq source sound hformat
      (lengths.trans (whole_cons (by omega))) (by decide) (by decide) stale
    have hcount := s.count_bounds source
    have hnext := hstepped.pos
    obtain ⟨hsame, hlengths⟩ := hstepped.full (by omega)
    rw [whole_snoc (by omega)] at hlengths
    exact ⟨t, hstep, .lost hsound (by omega) hlengths (by omega) (by omega)
      (hstepped.misses sound hregular pos) (by omega)⟩

end Recovery

-- half a block off, the driver is back at the start of a block after 2 * num + 3 transfers, and
-- then stays there
theorem resynchronises {source : Source} {format : Format} {num : Nat} {s : Pipe}
    (hformat : format ≠ .s8_504) (hregular : source.Regular format.pairs) (hnum : 2 ≤ num)
    (hs : s.Sound format num) (hpos : s.pos % 1024 = 512) (hlengths : s.lengths = whole num)
    (hloss : s.stream.syncLossCnt = 0) {stales : List (List UInt8)}
    (hlen : 2 * num + 3 ≤ stales.length) :
    ∃ t, Transition.run (Pipe.step source) s stales = some t ∧ t.Synced source format num := by
  have hstart : s.Within source format num (2 * num + 3) :=
    .entering hs hpos hlengths hloss le_rfl
  have hsynced : ∀ t, Pipe.Within source format num 0 t → t.Synced source format num := by
    intro t ht
    cases ht with
    | synced h => exact h
    | draining _ _ _ _ _ _ hm => omega
    | lost _ _ _ _ loss _ hm => omega
    | entering _ _ _ _ hm => omega
  have hstay : ∀ t e, Pipe.Within source format num 0 t →
      ∃ u, Pipe.step source t e = some u ∧ u.Within source format num 0 := by
    intro t e ht
    obtain ⟨u, hstep, hu⟩ := (hsynced t ht).step hformat hregular hnum e
    exact ⟨u, hstep, .synced hu⟩
  obtain ⟨t, hrun, ht⟩ := Transition.countdown (fun m t e ht => ht.step hformat hregular hnum e)
    hstay hstart hlen
  exact ⟨t, hrun, hsynced t ht⟩

-- blocks that hold nothing but `v`
def toneBlock (v : UInt8) (b : Nat) : Block :=
  ⟨UInt32.ofNat (504 * b), List.replicate 12 v, List.replicate 1008 v, List.length_replicate,
    List.length_replicate⟩

def tone (v : UInt8) : Source := fun i => byteAt (toneBlock v (i / 1024)).bytes (i % 1024)

theorem word32_congr {xs ys : List UInt8} (h : ∀ i < 4, byteAt xs i = byteAt ys i) :
    word32 xs = word32 ys := by
  rw [word32, word32, h 0 (by decide), h 1 (by decide), h 2 (by decide), h 3 (by decide)]

theorem tone_header (v : UInt8) (b k : Nat) (hk : k + 4 ≤ 1024) :
    (tone v).header (1024 * b + k) = word32 ((toneBlock v b).bytes.drop k) := by
  refine word32_congr fun i hi => ?_
  have hread : byteAt (((tone v).read (1024 * b + k) 4 ++ []).drop 0) i =
      tone v (1024 * b + k + (0 + i)) := byteAt_read (tone v) [] (by omega)
  have hblock : (1024 * b + k + (0 + i)) / 1024 = b := by omega
  have hbyte : (1024 * b + k + (0 + i)) % 1024 = k + i := by omega
  rw [List.append_nil, List.drop_zero] at hread
  rw [hread, tone, hblock, hbyte, byteAt, byteAt, List.getD_eq_getElem?_getD,
    List.getD_eq_getElem?_getD, List.getElem?_drop]

theorem tone_aligned (v : UInt8) (b : Nat) : (tone v).header (1024 * b) = UInt32.ofNat (504 * b) := by
  have h := tone_header v b 0 (by decide)
  rw [Nat.add_zero, List.drop_zero] at h
  rw [h, ← List.append_nil (toneBlock v b).bytes, (toneBlock v b).word32_bytes]
  rfl

theorem tone_between (v : UInt8) (b : Nat) :
    (tone v).header (1024 * b + 512) = word32 (List.replicate 512 v) := by
  have hsplit : (toneBlock v b).bytes =
      ((toneBlock v b).header ++ List.replicate 12 v ++ List.replicate 496 v) ++
        List.replicate 512 v := by
    rw [List.append_assoc, ← List.replicate_add, List.append_assoc]
    rfl
  rw [tone_header v b 512 (by decide), hsplit]
  refine congrArg word32 (List.drop_left' ?_)
  rw [List.length_append, List.length_append, Block.header_length, List.length_replicate,
    List.length_replicate]

theorem tone_regular (v : UInt8) : (tone v).Regular 504 where
  blocks b := by
    rw [tone_aligned, tone_aligned, Nat.mul_succ, UInt32.ofNat_add]
    rfl
  between b := by
    have hne : ∀ x : UInt32, x ≠ x + 504 := by
      intro x h
      have hnat := congrArg UInt32.toNat h
      rw [UInt32.toNat_add, show (504 : UInt32).toNat = 504 from rfl] at hnat
      have hlt := x.toNat_lt
      omega
    rw [tone_between, tone_between]
    exact hne _

theorem resynchronises_tone :
    ∃ t, Transition.run (Pipe.step (tone 0)) ⟨readAsync .s16_504 506 0 2 1000, 512, whole 2⟩
        (List.replicate 7 []) = some t ∧ t.Synced (tone 0) .s16_504 2 :=
  resynchronises (by decide) (tone_regular 0) le_rfl
    ⟨readAsync_framed .s16_504 506 0 2 (by decide), rfl, rfl⟩ rfl rfl rfl (by simp)

-- a header that is read half a block off announces none that begins a block
def Source.Unlike (source : Source) (pairs : UInt32) : Prop :=
  ∀ b, source.header (1024 * (b + 2)) ≠ source.header (1024 * b + 512) + pairs

-- with one transfer in flight the short one is itself the next to complete: after it the pipe is at
-- the start of a block with a loss to its account, and the header it meets there is one too many
inductive Pipe.Adrift (source : Source) (format : Format) : Pipe → Prop
  | off {s : Pipe} (sound : s.Sound format 1) (pos : s.pos % 1024 = 512) (lengths : s.lengths = whole 1)
    (hlow : 0 ≤ s.stream.syncLossCnt) (loss : s.stream.syncLossCnt ≤ 1) : Adrift source format s
  | shortened {s : Pipe} (sound : s.Sound format 1) (pos : s.pos % 1024 = 512)
    (lengths : s.lengths = [15872]) (loss : s.stream.syncLossCnt = 0) (header : s.Lost source) :
    Adrift source format s
  | mistaken {s : Pipe} (sound : s.Sound format 1) (pos : s.pos % 1024 = 0)
    (lengths : s.lengths = whole 1) (loss : s.stream.syncLossCnt = 1) (header : s.Lost source) :
    Adrift source format s
  | spoilt {s : Pipe} (sound : s.Sound format 1) (pos : s.pos % 1024 = 0)
    (lengths : s.lengths = [15872]) (loss : s.stream.syncLossCnt = 0) (header : ¬ s.Lost source) :
    Adrift source format s

theorem Pipe.Adrift.step {source : Source} {format : Format} {s : Pipe} (h : s.Adrift source format)
    (hformat : format ≠ .s8_504) (hregular : source.Regular format.pairs)
    (hunlike : source.Unlike format.pairs) (stale : List UInt8) :
    ∃ t, s.step source stale = some t ∧ t.Adrift source format := by
  cases h with
  | off sound pos lengths hlow loss =>
    obtain ⟨t, hstep, hsound, hstepped⟩ := s.step_eq source sound hformat lengths (by decide)
      (by decide) stale
    have hcount := s.count_bounds source
    have hnext := hstepped.pos
    by_cases hmany : s.count source ≤ 1
    · obtain ⟨hsame, hlengths⟩ := hstepped.full hmany
      exact ⟨t, hstep, .off hsound (by omega) hlengths (by omega) (by omega)⟩
    · obtain ⟨hsame, hlengths⟩ := hstepped.short (by omega)
      exact ⟨t, hstep, .shortened hsound (by omega) hlengths (by omega)
        (hstepped.misses sound hregular pos)⟩
  | shortened sound pos lengths loss header =>
    obtain ⟨t, hstep, hsound, hstepped⟩ := s.step_eq source sound hformat lengths (by decide)
      (by decide) stale
    have hcount := header.count_eq
    have hnext := hstepped.pos
    obtain ⟨hsame, hlengths⟩ := hstepped.full (by omega)
    obtain ⟨b, hb⟩ : ∃ b, s.pos = 1024 * b + 512 := ⟨s.pos / 1024, by omega⟩
    have hlast : s.pos + 1024 * (15872 / 1024 - 1) = 1024 * (b + 14) + 512 := by omega
    have hfirst : t.pos = 1024 * (b + 14 + 2) := by omega
    have hlost : t.Lost source := by
      rw [Pipe.Lost, hstepped.addr, sound.format, hlast, hfirst]
      exact hunlike (b + 14)
    exact ⟨t, hstep, .mistaken hsound (by omega) hlengths (by omega) hlost⟩
  | mistaken sound pos lengths loss header =>
    obtain ⟨t, hstep, hsound, hstepped⟩ := s.step_eq source sound hformat lengths (by decide)
      (by decide) stale
    have hcount := header.count_eq
    have hnext := hstepped.pos
    obtain ⟨hsame, hlengths⟩ := hstepped.short (by omega)
    exact ⟨t, hstep, .spoilt hsound (by omega) hlengths (by omega)
      (hstepped.follows sound hregular pos)⟩
  | spoilt sound pos lengths loss header =>
    obtain ⟨t, hstep, hsound, hstepped⟩ := s.step_eq source sound hformat lengths (by decide)
      (by decide) stale
    have hcount := count_of_not_lost header
    have hnext := hstepped.pos
    obtain ⟨hsame, hlengths⟩ := hstepped.full (by omega)
    exact ⟨t, hstep, .off hsound (by omega) hlengths (by omega) (by omega)⟩

theorem Pipe.Adrift.not_synced {source : Source} {format : Format} {s : Pipe}
    (h : s.Adrift source format) : ¬ s.Synced source format 1 := by
  intro hsynced
  cases h with
  | off _ pos _ _ _ => exact absurd hsynced.pos (by omega)
  | shortened _ pos _ _ _ => exact absurd hsynced.pos (by omega)
  | mistaken _ _ _ _ header => exact hsynced.header header
  | spoilt _ _ lengths _ _ =>
    have hwhole := hsynced.lengths
    rw [lengths] at hwhole
    simp [whole] at hwhole

theorem tone_unlike : (tone 1).Unlike 504 := by
  have hword : word32 (List.replicate 512 (1 : UInt8)) = 16843009 := rfl
  intro b h
  rw [tone_aligned, tone_between, hword] at h
  have hnat := congrArg UInt32.toNat h
  rw [UInt32.toNat_ofNat', UInt32.toNat_add, show (16843009 : UInt32).toNat = 16843009 from rfl,
    show (504 : UInt32).toNat = 504 from rfl] at hnat
  omega

-- the headers of a run that were not the ones that were waited for
def losses (source : Source) : Pipe → List (List UInt8) → Nat
  | _, [] => 0
  | s, stale :: stales =>
    (if s.Lost source then 1 else 0) +
      match s.step source stale with
      | some t => losses source t stales
      | none => 0

structure Pipe.Steady (num : Nat) (s : Pipe) : Prop where
  pos : s.pos % 1024 = 0
  lengths : s.lengths = whole num

end Msisdr
end SdrServer
