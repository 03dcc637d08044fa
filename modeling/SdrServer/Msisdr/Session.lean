import SdrServer.Foundation.Transition
import SdrServer.Msisdr.Transfers

namespace SdrServer
namespace Msisdr

-- `calls` are the buffers that went to cb
structure Session where
  stream : Stream
  calls : List (List UInt8)
  deriving DecidableEq, Repr

inductive SessionEvent where
  | completed (xfer : Transfer)
  | restarted (format : Format) (addr : UInt32)
  deriving DecidableEq, Repr

namespace Session

def start (stream : Stream) : Session := ⟨stream, []⟩

def step (s : Session) : SessionEvent → Option Session
  | .completed xfer => do
    let (calls, _, stream) ← completed s.stream xfer
    some ⟨stream, s.calls ++ calls⟩
  | .restarted format addr => some { s with stream := restarted s.stream format addr }

end Session

-- what libusb promises: no more than was asked for
inductive Transfer.Received : Transfer → Prop
  | bulk {buffer : List UInt8} {actualLength : Nat} (h : actualLength ≤ defaultBulkBuffer) :
    Received (.bulk buffer actualLength)
  | isoc {packets : List (List UInt8 × Nat)} (count : packets.length ≤ defaultIsoPackets)
    (h : ∀ packet ∈ packets, packet.2 ≤ defaultIsoBuffer * defaultIsoBuffers) :
    Received (.isoc packets)

def SessionEvent.Received : SessionEvent → Prop
  | .completed xfer => xfer.Received
  | .restarted _ _ => True

theorem samplesRealloc_converted (size : Nat) (p : Stream) :
    Converted p (samplesRealloc size p) ∧ size ≤ (samplesRealloc size p).samplesSize := by
  unfold samplesRealloc
  split
  · exact ⟨⟨rfl, rfl, rfl, rfl, rfl⟩, le_rfl⟩
  · exact ⟨.refl, by omega⟩

theorem convertPackets_converted (format : Format) (packets : List (List UInt8 × Nat)) (p : Stream)
    (h : ∀ packet ∈ packets, packet.2 ≤ defaultIsoBuffer * defaultIsoBuffers) :
    Converted p (convertPackets format packets p).2 ∧
      (convertPackets format packets p).2.samplesSize = p.samplesSize ∧
      (convertPackets format packets p).1.length ≤
        format.blockBytes * defaultIsoBuffers * packets.length := by
  induction packets generalizing p with
  | nil => exact ⟨.refl, rfl, Nat.zero_le _⟩
  | cons packet packets ih =>
    obtain ⟨buf, cnt⟩ := packet
    have hcnt : cnt ≤ 3072 := h (buf, cnt) (by simp)
    have hfirst : ∃ dst q, (if cnt > 0 then convert format buf cnt p else ([], p)) = (dst, q) ∧
        Converted p q ∧ q.samplesSize = p.samplesSize ∧
        dst.length ≤ format.blockBytes * defaultIsoBuffers := by
      split
      · refine ⟨_, _, rfl, (convert_counted _ _ _).converted, (convert_counted _ _ _).size, ?_⟩
        exact (convert_length format buf cnt).trans (Nat.mul_le_mul_left _ (by unfold defaultIsoBuffers; omega))
      · exact ⟨_, _, rfl, .refl, rfl, Nat.zero_le _⟩
    obtain ⟨dst, q, heq, hq, hsize, hlen⟩ := hfirst
    obtain ⟨hrest, hrestsize, hrestlen⟩ := ih q fun packet hp => h packet (by simp [hp])
    rw [convertPackets, heq]
    refine ⟨hq.trans hrest, hrestsize.trans hsize, ?_⟩
    dsimp only
    rw [List.length_append, List.length_cons, Nat.mul_succ]
    omega

theorem convertTransfer_fits {xfer : Transfer} (h : xfer.Received) (p : Stream) :
    ∃ samples q, convertTransfer p xfer = some (samples, q) ∧ Converted p q := by
  cases h with
  | @bulk buffer actualLength h =>
    obtain ⟨hrealloc, hsize⟩ :=
      samplesRealloc_converted (defaultBulkBuffer / 1024 * p.format.blockBytes) p
    rw [convertTransfer]
    generalize samplesRealloc (defaultBulkBuffer / 1024 * p.format.blockBytes) p = q at hrealloc hsize
    have hcounted : Counted q (convert q.format buffer actualLength q).2 := convert_counted _ _ _
    have hlen : (convert q.format buffer actualLength q).1.length ≤ q.samplesSize := by
      refine (convert_length q.format buffer actualLength).trans (le_trans ?_ hsize)
      rw [hrealloc.format, Nat.mul_comm]
      refine Nat.mul_le_mul_right _ ?_
      unfold defaultBulkBuffer at h ⊢
      omega
    exact ⟨_, _, if_pos hlen, hrealloc.trans hcounted.converted⟩
  | @isoc packets count h =>
    obtain ⟨hrealloc, hsize⟩ := samplesRealloc_converted
      (p.format.blockBytes * defaultIsoBuffers * defaultIsoPackets) p
    rw [convertTransfer]
    generalize samplesRealloc (p.format.blockBytes * defaultIsoBuffers * defaultIsoPackets) p = q
      at hrealloc hsize
    obtain ⟨hconverted, hsame, hlen⟩ := convertPackets_converted q.format packets q h
    have hfits : (convertPackets q.format packets q).1.length ≤ q.samplesSize := by
      refine hlen.trans (le_trans ?_ hsize)
      rw [hrealloc.format]
      exact Nat.mul_le_mul_left _ count
    exact ⟨_, _, if_pos hfits, hrealloc.trans hconverted⟩

theorem nextLength_converted (p : Stream) (xfer : Transfer) : Converted p (nextLength p xfer).2 := by
  unfold nextLength
  split
  · split
    · exact ⟨rfl, rfl, rfl, rfl, rfl⟩
    · exact .refl
  · exact .refl

-- what the callback makes of the samples: no copy leaves its buffer
structure Delivers (p q : Stream) (samples : List UInt8) (calls : List (List UInt8)) (r : Stream) :
    Prop where
  framed : r.Framed
  converted : r.format = p.format ∧ r.xferBufNum = p.xferBufNum ∧ r.xferOutLen = p.xferOutLen
  addr : r.addr = q.addr
  loss : r.syncLossCnt = q.syncLossCnt
  bytes : calls.flatten ++ r.pending = p.pending ++ samples
  whole : ∀ call ∈ calls, call.length = p.xferOutLen

theorem completed_delivers {p : Stream} (hp : p.Framed) {xfer : Transfer} (h : xfer.Received) :
    ∃ samples q calls r, convertTransfer p xfer = some (samples, q) ∧
      completed p xfer = some (calls, nextLength r xfer) ∧ Delivers p q samples calls r := by
  obtain ⟨samples, q, hconvert, hq⟩ := convertTransfer_fits h p
  by_cases hempty : samples.length > 0
  · obtain ⟨calls, rest, r, hfeed, hr, hframes⟩ := feedAsync_frames (hq.framed hp) samples
    obtain ⟨hflatten, hlength⟩ := frames_feed _ hframes
    refine ⟨samples, q, calls, r, hconvert, ?_, hr.framed,
      ⟨hr.format.trans hq.format, hr.num.trans hq.num, hr.len.trans hq.len⟩, hr.addr, hr.loss, ?_, ?_⟩
    · rw [completed, hconvert]
      simp only [Option.bind_eq_bind, Option.bind_some, if_pos hempty, hfeed]
    · rw [hr.pending, hflatten, hq.pending]
    · rw [← hq.len]
      exact hlength
  · have hnil : samples = [] := List.eq_nil_of_length_eq_zero (by omega)
    refine ⟨samples, q, [], q, hconvert, ?_, hq.framed hp, ⟨hq.format, hq.num, hq.len⟩, rfl, rfl, ?_,
      by simp⟩
    · rw [completed, hconvert]
      simp only [Option.bind_eq_bind, Option.bind_some, if_neg hempty]
    · rw [hq.pending, hnil]
      simp

theorem readAsync_framed (format : Format) (addr : UInt32) (samplesSize : Nat) (num : UInt32)
    {len : UInt32} (hlen : len ≠ 0) : (readAsync format addr samplesSize num len).Framed := by
  have hpos : len.toNat ≠ 0 := fun h => hlen (UInt32.toNat_inj.mp h)
  refine ⟨by simp [readAsync], ?_⟩
  change 0 < len.toNat
  omega

structure Session.Sound (len : Nat) (s : Session) : Prop where
  framed : s.stream.Framed
  outLen : s.stream.xferOutLen = len
  calls : ∀ call ∈ s.calls, call.length = len

theorem Session.Sound.step {len : Nat} {s : Session} (h : s.Sound len) {e : SessionEvent}
    (he : e.Received) : ∃ t, s.step e = some t ∧ t.Sound len := by
  cases e with
  | completed xfer =>
    obtain ⟨samples, q, calls, r, -, hcompleted, hr⟩ := completed_delivers h.framed he
    have hnext := nextLength_converted r xfer
    refine ⟨⟨(nextLength r xfer).2, s.calls ++ calls⟩, ?_, hnext.framed hr.framed,
      hnext.len.trans (hr.converted.2.2.trans h.outLen), ?_⟩
    · rw [Session.step, hcompleted]
      rfl
    · intro call hcall
      rcases List.mem_append.mp hcall with hcall | hcall
      · exact h.calls call hcall
      · exact (hr.whole call hcall).trans h.outLen
  | restarted format addr =>
    have hpos : 0 < s.stream.xferOutLen := (Nat.zero_le _).trans_lt h.framed.pos
    exact ⟨_, rfl, ⟨h.framed.room, hpos⟩, h.outLen, h.calls⟩

-- whatever comes over the wire, and however often the format changes in between
theorem buffers_whole (format : Format) (addr : UInt32) (samplesSize : Nat) (num : UInt32)
    {len : UInt32} (hlen : len ≠ 0) {s : Session}
    (h : Transition.Reaches Session.step (fun _ e => e.Received)
      (.start (readAsync format addr samplesSize num len)) s) :
    (∀ call ∈ s.calls, call.length = len.toNat) ∧
      ∀ e : SessionEvent, e.Received → (s.step e).isSome = true := by
  have hsound : s.Sound len.toNat := by
    refine h.invariant ⟨readAsync_framed format addr samplesSize num hlen, rfl, by simp [Session.start]⟩ ?_
    intro s e t _ hs he hstep
    obtain ⟨t', ht', hsound⟩ := hs.step he
    obtain rfl := Option.some.inj (hstep.symm.trans ht')
    exact hsound
  refine ⟨hsound.calls, fun e he => ?_⟩
  obtain ⟨t, ht, -⟩ := hsound.step he
  rw [ht]
  rfl

theorem buffers_whole_restarted :
    (∀ call ∈ [] ++ ([] : List (List UInt8)), call.length = (65536 : UInt32).toNat) ∧
      ∀ e : SessionEvent, e.Received → (Session.step
        ⟨restarted (readAsync .s16_252 254 0 0 65536) .s16_504 506, []⟩ e).isSome = true :=
  buffers_whole .s16_252 254 0 0 (by decide)
    (.next .start (e := .restarted .s16_504 506) trivial rfl)

end Msisdr
end SdrServer
