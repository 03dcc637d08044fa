import SdrServer.Msisdr.Blocks
import SdrServer.Msisdr.Feed

namespace SdrServer
namespace Msisdr

def defaultIsoBuffer : Nat := 1024
def defaultIsoBuffers : Nat := 3
def defaultIsoPackets : Nat := 8
def defaultBulkBuffer : Nat := 16384
def defaultBufNumber : Nat := 32

-- a completed transfer: the buffer and actual_length, for each packet where it is isochronous
inductive Transfer where
  | bulk (buffer : List UInt8) (actualLength : Nat)
  | isoc (packets : List (List UInt8 × Nat))
  deriving DecidableEq, Repr

-- the bytes that a block of 1024 becomes
def Format.blockBytes : Format → Nat
  | .s16_252 => 1008
  | .s16_336 => 1344
  | .s16_384 => 1536
  | .s16_504 => 2016
  | .s8_504 => 1008

-- I/Q pairs in a block: how far the next header is ahead
def Format.pairs : Format → UInt32
  | .s16_252 => 252
  | .s16_336 => 336
  | .s16_384 => 384
  | .s16_504 => 504
  | .s8_504 => 504

def samplesRealloc (size : Nat) (p : Stream) : Stream :=
  if p.samplesSize < size then { p with samplesSize := size } else p

def convert : Format → List UInt8 → Nat → Stream → List UInt8 × Stream
  | .s16_252 => samplesConvert252S16
  | .s16_336 => samplesConvert336S16
  | .s16_384 => samplesConvert384S16
  | .s16_504 => samplesConvert504S16
  | .s8_504 => samplesConvert504S8

def convertPackets (format : Format) : List (List UInt8 × Nat) → Stream → List UInt8 × Stream
  | [], p => ([], p)
  | (buf, cnt) :: packets, p =>
    let (dst, p) := if cnt > 0 then convert format buf cnt p else ([], p)
    let (rest, p) := convertPackets format packets p
    (dst ++ rest, p)

-- the switch of _libusb_callback; `none` where the samples would not fit into the buffer for them
def convertTransfer (p : Stream) : Transfer → Option (List UInt8 × Stream)
  | .bulk buffer actualLength =>
    let p := samplesRealloc (defaultBulkBuffer / 1024 * p.format.blockBytes) p
    let r := convert p.format buffer actualLength p
    if r.1.length ≤ p.samplesSize then some r else none
  | .isoc packets =>
    let p := samplesRealloc (p.format.blockBytes * defaultIsoBuffers * defaultIsoPackets) p
    let r := convertPackets p.format packets p
    if r.1.length ≤ p.samplesSize then some r else none

-- xfer->length for the next round; isochronous transfers keep theirs
def nextLength (p : Stream) : Transfer → Nat × Stream
  | .bulk _ _ =>
    if p.syncLossCnt > p.xferBufNum then
      (defaultBulkBuffer - 512, { p with syncLossCnt := -p.xferBufNum + 1 })
    else (defaultBulkBuffer, p)
  | .isoc _ => (defaultIsoBuffer * defaultIsoBuffers * defaultIsoPackets, p)

-- LIBUSB_TRANSFER_COMPLETED: the calls of cb, and the length that is submitted again
def completed (p : Stream) (xfer : Transfer) : Option (List (List UInt8) × Nat × Stream) := do
  let (samples, p) ← convertTransfer p xfer
  let (calls, p) ← if samples.length > 0 then feedAsync p samples else some ([], p)
  some (calls, nextLength p xfer)

-- msisdr_read_async with its arguments, up to the first transfer
def readAsync (format : Format) (addr : UInt32) (samplesSize : Nat) (num len : UInt32) : Stream where
  format := format
  addr := addr
  syncLossCnt := 0
  samplesSize := samplesSize
  xferBufNum := if num = 0 then defaultBufNumber else num.toNat
  xferOutLen := len.toNat
  xferOutPos := 0
  xferOut := List.replicate len.toNat 0

-- msisdr_set_hard in between: stopped, reprogrammed and started again
def restarted (p : Stream) (format : Format) (addr : UInt32) : Stream :=
  { p with format, addr, xferOutPos := 0 }

-- converting leaves the framing of the bytes alone
structure Converted (p q : Stream) : Prop where
  format : q.format = p.format
  num : q.xferBufNum = p.xferBufNum
  len : q.xferOutLen = p.xferOutLen
  pos : q.xferOutPos = p.xferOutPos
  out : q.xferOut = p.xferOut

namespace Converted

variable {p q r : Stream}

theorem refl : Converted p p := ⟨rfl, rfl, rfl, rfl, rfl⟩

theorem trans (h : Converted p q) (h' : Converted q r) : Converted p r :=
  ⟨h'.format.trans h.format, h'.num.trans h.num, h'.len.trans h.len, h'.pos.trans h.pos,
    h'.out.trans h.out⟩

theorem framed (h : Converted p q) (hp : p.Framed) : q.Framed :=
  ⟨by rw [h.out, h.len]; exact hp.room, by rw [h.pos, h.len]; exact hp.pos⟩

theorem pending (h : Converted p q) : q.pending = p.pending := by
  rw [Stream.pending, Stream.pending, h.out, h.pos]

end Converted

structure Counted (p q : Stream) : Prop where
  loss : q.syncLossCnt = p.syncLossCnt ∨ q.syncLossCnt = p.syncLossCnt + 1
  size : q.samplesSize = p.samplesSize
  converted : Converted p q

theorem unpackLoop_length {size per : Nat} {group : List UInt8 → List Int16}
    (h : ∀ src, (group src).length = per) (count : Nat) (src : List UInt8) :
    (unpackLoop size group count src).length = per * count := by
  induction count generalizing src with
  | zero => rfl
  | succ count ih => rw [unpackLoop, List.length_append, h, ih, Nat.mul_succ, Nat.add_comm]

theorem unpackShifted_length (shift : UInt32) (count k : Nat) (src : List UInt8) :
    (unpackShifted shift count k src).length = 8 * count := by
  induction count generalizing k src with
  | zero => rfl
  | succ count ih =>
    rw [unpackShifted, List.length_append, List.length_map, ih, Nat.mul_succ, Nat.add_comm]
    rfl

theorem int16Bytes_length (xs : List Int16) : (xs.flatMap int16Bytes).length = 2 * xs.length := by
  induction xs with
  | nil => rfl
  | cons x xs ih =>
    rw [List.flatMap_cons, List.length_append, ih, List.length_cons, Nat.mul_succ, Nat.add_comm]
    rfl

section Convert

variable {unpack : List UInt8 → List Int16} {per : Nat} {p : Stream}

theorem convertLoop_next (left i : Nat) (addr : UInt32) (src : List UInt8) (hi : i ≠ 0) :
    (convertLoop unpack left i addr src p).2.2 = p := by
  induction left generalizing i addr src with
  | zero => rfl
  | succ left ih =>
    have hnot : ¬ (i = 0 ∧ word32 src ≠ p.addr) := fun h => hi h.1
    rw [convertLoop]
    dsimp only
    rw [if_neg hnot]
    exact ih (i + 1) _ _ (by omega)

theorem convertLoop_counted (left : Nat) (addr : UInt32) (src : List UInt8) :
    Counted p (convertLoop unpack left 0 addr src p).2.2 := by
  cases left with
  | zero => exact ⟨Or.inl rfl, rfl, rfl, rfl, rfl, rfl, rfl⟩
  | succ left =>
    rw [convertLoop]
    dsimp only
    rw [convertLoop_next _ _ _ _ (by omega)]
    split
    · exact ⟨Or.inr rfl, rfl, rfl, rfl, rfl, rfl, rfl⟩
    · exact ⟨Or.inl rfl, rfl, rfl, rfl, rfl, rfl, rfl⟩

theorem convertLoop_length (h : ∀ src, (unpack src).length = per) (left i : Nat) (addr : UInt32)
    (src : List UInt8) : (convertLoop unpack left i addr src p).1.length = per * left := by
  induction left generalizing i addr src p with
  | zero => rfl
  | succ left ih =>
    rw [convertLoop]
    dsimp only
    rw [List.length_append, h, ih, Nat.mul_succ, Nat.add_comm]

theorem samplesConvert_counted (pairs : UInt32) (buf : List UInt8) (cnt : Nat) :
    Counted p (samplesConvert unpack pairs buf cnt p).2 := by
  obtain ⟨hloss, hsize, hformat, hnum, hlen, hpos, hout⟩ := convertLoop_counted (cnt / 1024) 0 buf
  exact ⟨hloss, hsize, hformat, hnum, hlen, hpos, hout⟩

theorem samplesConvert_length (h : ∀ src, (unpack src).length = per) (pairs : UInt32)
    (buf : List UInt8) (cnt : Nat) :
    (samplesConvert unpack pairs buf cnt p).1.length = 2 * (per * (cnt / 1024)) := by
  rw [samplesConvert]
  dsimp only
  rw [int16Bytes_length, convertLoop_length h]

theorem copyLoop_length (left : Nat) (src : List UInt8) (addr : UInt32) :
    (copyLoop left src addr).1.length ≤ 1008 * left := by
  induction left generalizing src addr with
  | zero => exact le_rfl
  | succ left ih =>
    have htake : (src.take 1008).length ≤ 1008 := List.length_take_le _ _
    have hrest := ih (src.drop 1024) (addr + 504)
    rw [copyLoop]
    dsimp only
    rw [List.length_append]
    omega

theorem convert_s16 {format : Format} (h : format ≠ .s8_504) :
    convert format = samplesConvert (unpackOf format) format.pairs := by
  cases format with
  | s16_252 => rfl
  | s16_336 => rfl
  | s16_384 => rfl
  | s16_504 => rfl
  | s8_504 => exact absurd rfl h

theorem unpackOf_length {format : Format} (h : format ≠ .s8_504) (src : List UInt8) :
    2 * (unpackOf format src).length = format.blockBytes := by
  have h252 : ∀ src, (group252 src).length = 2 := fun _ => rfl
  have h336 : ∀ src, (group336 src).length = 2 := fun _ => rfl
  have h384 : ∀ src, (unpack384Part src).length = 128 := fun src => unpackShifted_length _ 16 0 src
  have h504 : ∀ src, (group504 src).length = 2 := fun _ => rfl
  cases format with
  | s16_252 => exact congrArg (2 * ·) (unpackLoop_length h252 252 src)
  | s16_336 => exact congrArg (2 * ·) (unpackLoop_length h336 336 src)
  | s16_384 => exact congrArg (2 * ·) (unpackLoop_length h384 6 src)
  | s16_504 => exact congrArg (2 * ·) (unpackLoop_length h504 504 src)
  | s8_504 => exact absurd rfl h

theorem convert_counted (format : Format) (buf : List UInt8) (cnt : Nat) :
    Counted p (convert format buf cnt p).2 := by
  by_cases h : format = .s8_504
  · subst h
    rw [convert, samplesConvert504S8]
    dsimp only
    split
    · exact ⟨Or.inr rfl, rfl, rfl, rfl, rfl, rfl, rfl⟩
    · exact ⟨Or.inl rfl, rfl, rfl, rfl, rfl, rfl, rfl⟩
  · rw [convert_s16 h]
    exact samplesConvert_counted _ _ _

-- a block that is cut off counts as a whole one in the 8-bit format only
theorem convert_length (format : Format) (buf : List UInt8) (cnt : Nat) :
    (convert format buf cnt p).1.length ≤ format.blockBytes * ((cnt + 1007) / 1024) := by
  by_cases h : format = .s8_504
  · subst h
    rw [convert, samplesConvert504S8]
    dsimp only
    exact copyLoop_length _ _ _
  · have hunpack : ∀ src, (unpackOf format src).length = format.blockBytes / 2 := fun src => by
      have := unpackOf_length h src
      omega
    have heven := unpackOf_length h []
    have hmono : cnt / 1024 ≤ (cnt + 1007) / 1024 := Nat.div_le_div_right (by omega)
    rw [convert_s16 h, samplesConvert_length hunpack, ← Nat.mul_assoc, ← hunpack [], heven]
    exact Nat.mul_le_mul_left _ hmono

end Convert

end Msisdr
end SdrServer
