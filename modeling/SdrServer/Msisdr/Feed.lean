import SdrServer.Foundation.Buffer
import SdrServer.Foundation.Decimation
import SdrServer.Msisdr.Convert

namespace SdrServer
namespace Msisdr

-- for (i = ...;; i += xfer_out_len): the calls of cb, and `i` where the loop stops; the length is
-- not zero here
def sendWhole (len : Nat) (samples : List UInt8) (i : Nat) : List (List UInt8) × Nat :=
  if 0 < len ∧ i + len ≤ samples.length then
    let rest := sendWhole len samples (i + len)
    ((samples.drop i).take len :: rest.1, rest.2)
  else ([], i)
termination_by samples.length - i
decreasing_by omega

-- the end of either loop; where xfer_out was empty xfer_out_pos is 0 already
def keepRest (p : Stream) (samples : List UInt8) (i : Nat) : Option Stream :=
  if samples.length > i then do
    let xferOut ← Buffer.storeAt p.xferOut 0 (samples.drop i)
    some { p with xferOut, xferOutPos := samples.length - i }
  else some { p with xferOutPos := 0 }

-- the calls of cb; `none` where a copy would leave xfer_out
def feedAsync (p : Stream) (samples : List UInt8) : Option (List (List UInt8) × Stream) :=
  let bytes := samples.length
  if p.xferOutLen = 0 then some ([samples], p)
  else if p.xferOutPos = 0 then
    if bytes = p.xferOutLen then some ([samples], p)
    else if bytes < p.xferOutLen then do
      let xferOut ← Buffer.storeAt p.xferOut 0 samples
      some ([], { p with xferOut, xferOutPos := bytes })
    else do
      let sent := sendWhole p.xferOutLen samples 0
      let kept ← keepRest p samples sent.2
      some (sent.1, kept)
  else if p.xferOutPos + bytes = p.xferOutLen then do
    let xferOut ← Buffer.storeAt p.xferOut p.xferOutPos samples
    some ([xferOut.take p.xferOutLen], { p with xferOut, xferOutPos := 0 })
  else if p.xferOutPos + bytes < p.xferOutLen then do
    let xferOut ← Buffer.storeAt p.xferOut p.xferOutPos samples
    some ([], { p with xferOut, xferOutPos := p.xferOutPos + bytes })
  else do
    let start := p.xferOutLen - p.xferOutPos
    let xferOut ← Buffer.storeAt p.xferOut p.xferOutPos (samples.take start)
    let sent := sendWhole p.xferOutLen samples start
    let kept ← keepRest { p with xferOut } samples sent.2
    some (xferOut.take p.xferOutLen :: sent.1, kept)

-- cut into pieces of `len` bytes, what is left over kept for the next time
def frames (len : Nat) : Decimation UInt8 Unit (List UInt8) where
  taps := len
  stride := len
  out := fun _ piece => piece
  next := id

theorem frames_exact {len : Nat} {w : List UInt8} (h : w.length = len) :
    (frames len).feed () w = ([w], (), []) := by
  have hcount : Decimation.count len len len = 1 := by
    rw [Decimation.count, if_pos le_rfl, Nat.sub_self, Nat.zero_div]
  have htake : w.take len = w := List.take_of_length_le h.le
  have hdrop : w.drop len = [] := List.drop_of_length_le h.le
  simp [Decimation.feed, frames, h, hcount, Decimation.emit, htake, hdrop]

theorem frames_cons {len : Nat} (hpos : 0 < len) {w : List UInt8} (h : w.length = len)
    (x : List UInt8) :
    (frames len).feed () (w ++ x) =
      (w :: ((frames len).feed () x).1, ((frames len).feed () x).2) := by
  rw [(frames len).feed_append hpos le_rfl, frames_exact h]
  rfl

theorem emit_flatten {len : Nat} (n : Nat) (w : List UInt8) (h : n * len ≤ w.length) :
    ((frames len).emit n () w).flatten = w.take (n * len) ∧
      ∀ call ∈ (frames len).emit n () w, call.length = len := by
  induction n generalizing w with
  | zero => simp [Decimation.emit]
  | succ n ih =>
    rw [Nat.succ_mul] at h
    obtain ⟨hflatten, hlength⟩ := ih (w.drop len) (by rw [List.length_drop]; omega)
    have hfirst : (w.take len).length = len := by
      rw [List.length_take]
      omega
    refine ⟨?_, ?_⟩
    · rw [Decimation.emit, List.flatten_cons, Nat.succ_mul, Nat.add_comm, List.take_add, ← hflatten]
      rfl
    · intro call hcall
      rw [Decimation.emit] at hcall
      rcases List.mem_cons.mp hcall with rfl | hcall
      · exact hfirst
      · exact hlength call hcall

-- nothing is lost, and every piece has its full length
theorem frames_feed {len : Nat} (w : List UInt8) {calls : List (List UInt8)} {rest : List UInt8}
    (h : (frames len).feed () w = (calls, (), rest)) :
    calls.flatten ++ rest = w ∧ ∀ call ∈ calls, call.length = len := by
  obtain ⟨hcalls, hrest⟩ := Prod.mk.inj h
  obtain ⟨hflatten, hlength⟩ := emit_flatten (Decimation.count len len w.length) w
    (Decimation.count_mul_le le_rfl _)
  rw [← hcalls, ← (Prod.mk.inj hrest).2]
  refine ⟨?_, hlength⟩
  exact (congrArg (· ++ _) hflatten).trans (List.take_append_drop _ _)

theorem sendWhole_frames {len : Nat} (hpos : 0 < len) (samples : List UInt8) (i : Nat)
    (hi : i ≤ samples.length) :
    (sendWhole len samples i).2 ≤ samples.length ∧
      (frames len).feed () (samples.drop i) =
        ((sendWhole len samples i).1, (), samples.drop (sendWhole len samples i).2) ∧
      samples.length - (sendWhole len samples i).2 < len := by
  induction i using sendWhole.induct len samples with
  | case1 i h ih =>
    obtain ⟨hstop, hfeed, hrest⟩ := ih h.2
    rw [sendWhole, if_pos h]
    dsimp only
    have hsplit : samples.drop i = (samples.drop i).take len ++ samples.drop (i + len) := by
      rw [← List.drop_drop, List.take_append_drop]
    have hpiece : ((samples.drop i).take len).length = len := by
      rw [List.length_take, List.length_drop]
      omega
    refine ⟨hstop, ?_, hrest⟩
    conv_lhs => rw [hsplit]
    rw [frames_cons hpos hpiece, hfeed]
  | case2 i h =>
    rw [sendWhole, if_neg h]
    have hshort : (samples.drop i).length < len := by
      rw [List.length_drop]
      omega
    refine ⟨hi, (frames len).feed_idle () _ hshort, ?_⟩
    rw [List.length_drop] at hshort
    exact hshort

-- with a fixed length, the bytes still to be handed on are in xfer_out
structure Stream.Framed (p : Stream) : Prop where
  room : p.xferOut.length = p.xferOutLen
  pos : p.xferOutPos < p.xferOutLen

def Stream.pending (p : Stream) : List UInt8 := p.xferOut.take p.xferOutPos

-- what a call leaves alone but for the bytes still to be handed on
structure Stream.Refilled (p q : Stream) (pending : List UInt8) : Prop where
  framed : q.Framed
  pending : q.pending = pending
  format : q.format = p.format
  addr : q.addr = p.addr
  loss : q.syncLossCnt = p.syncLossCnt
  num : q.xferBufNum = p.xferBufNum
  len : q.xferOutLen = p.xferOutLen

theorem stored (buffer xs : List UInt8) (pos : Nat) (h : pos + xs.length ≤ buffer.length) :
    ∃ r, Buffer.storeAt buffer pos xs = some r ∧ r.length = buffer.length ∧
      r.take (pos + xs.length) = buffer.take pos ++ xs :=
  ⟨_, Buffer.storeAt_eq buffer xs pos h, Buffer.storeAt_length (Buffer.storeAt_eq buffer xs pos h),
    Buffer.storeAt_take buffer xs pos h⟩

section Feed

variable {p : Stream}

theorem refilled {xferOut pending : List UInt8} {pos : Nat}
    (hroom : xferOut.length = p.xferOutLen) (hpos : pos < p.xferOutLen)
    (htake : xferOut.take pos = pending) :
    p.Refilled { p with xferOut, xferOutPos := pos } pending :=
  ⟨⟨hroom, hpos⟩, htake, rfl, rfl, rfl, rfl, rfl⟩

theorem keepRest_frames {xferOut : List UInt8} (hroom : xferOut.length = p.xferOutLen)
    (hpos : 0 < p.xferOutLen) (samples : List UInt8) {start : Nat} (hstart : start ≤ samples.length) :
    ∃ q rest, keepRest { p with xferOut } samples (sendWhole p.xferOutLen samples start).2 = some q ∧
      p.Refilled q rest ∧ (frames p.xferOutLen).feed () (samples.drop start) =
        ((sendWhole p.xferOutLen samples start).1, (), rest) := by
  obtain ⟨hstop, hfeed, hrest⟩ := sendWhole_frames hpos samples start hstart
  generalize (sendWhole p.xferOutLen samples start).2 = stop at hstop hfeed hrest
  by_cases hmore : samples.length > stop
  · obtain ⟨r, hr, hlen, htake⟩ := stored xferOut (samples.drop stop) 0
      (by rw [List.length_drop]; omega)
    rw [List.length_drop, Nat.zero_add, List.take_zero, List.nil_append] at htake
    refine ⟨_, _, ?_, refilled (hlen.trans hroom) hrest htake, hfeed⟩
    rw [keepRest, if_pos hmore, hr]
    rfl
  · have hdone : samples.drop stop = [] := List.drop_of_length_le (by omega)
    rw [hdone] at hfeed
    exact ⟨_, _, if_neg hmore, refilled hroom hpos List.take_zero, hfeed⟩

theorem feedAsync_frames (h : p.Framed) (samples : List UInt8) :
    ∃ calls rest q, feedAsync p samples = some (calls, q) ∧ p.Refilled q rest ∧
      (frames p.xferOutLen).feed () (p.pending ++ samples) = (calls, (), rest) := by
  obtain ⟨hroom, hpos⟩ := h
  have hlen : 0 < p.xferOutLen := by omega
  have hpending : p.pending.length = p.xferOutPos := by
    rw [Stream.pending, List.length_take]
    omega
  unfold feedAsync
  dsimp only
  rw [if_neg hlen.ne']
  by_cases hempty : p.xferOutPos = 0
  · have hnil : p.pending = [] := List.eq_nil_of_length_eq_zero (hpending.trans hempty)
    rw [if_pos hempty, hnil, List.nil_append]
    split_ifs with hexact hshort
    · exact ⟨_, _, _, rfl, refilled hroom hpos hnil, frames_exact hexact⟩
    · obtain ⟨r, hr, hrlen, htake⟩ := stored p.xferOut samples 0 (by omega)
      rw [Nat.zero_add, List.take_zero, List.nil_append] at htake
      refine ⟨_, _, _, by rw [hr]; rfl, refilled (hrlen.trans hroom) hshort htake, ?_⟩
      exact (frames _).feed_idle () _ hshort
    · obtain ⟨q, rest, hq, hrefilled, hfeed⟩ :=
        keepRest_frames (p := p) hroom hlen samples (Nat.zero_le _)
      exact ⟨_, _, _, by rw [hq]; rfl, hrefilled, hfeed⟩
  · rw [if_neg hempty]
    split_ifs with hfull hless
    · obtain ⟨r, hr, hrlen, htake⟩ := stored p.xferOut samples p.xferOutPos (by omega)
      have hfirst : r.take p.xferOutLen = p.pending ++ samples := by
        rw [← hfull, htake]
        rfl
      refine ⟨_, _, _, by rw [hr]; rfl, refilled (hrlen.trans hroom) hlen List.take_zero, ?_⟩
      rw [hfirst]
      exact frames_exact (by rw [List.length_append, hpending, hfull])
    · obtain ⟨r, hr, hrlen, htake⟩ := stored p.xferOut samples p.xferOutPos (by omega)
      refine ⟨_, _, _, by rw [hr]; rfl, refilled (hrlen.trans hroom) hless htake, ?_⟩
      have hshort : (p.pending ++ samples).length < p.xferOutLen := by
        rw [List.length_append, hpending]
        exact hless
      exact (frames _).feed_idle () _ hshort
    · have hstart : p.xferOutLen - p.xferOutPos ≤ samples.length := by omega
      have htakelen : (samples.take (p.xferOutLen - p.xferOutPos)).length =
          p.xferOutLen - p.xferOutPos := by
        rw [List.length_take, min_eq_left hstart]
      obtain ⟨r, hr, hrlen, htake⟩ := stored p.xferOut
        (samples.take (p.xferOutLen - p.xferOutPos)) p.xferOutPos (by omega)
      have hfill : p.xferOutPos + (p.xferOutLen - p.xferOutPos) = p.xferOutLen := by omega
      rw [htakelen, hfill] at htake
      obtain ⟨q, rest, hq, hrefilled, hfeed⟩ :=
        keepRest_frames (p := p) (hrlen.trans hroom) hlen samples hstart
      refine ⟨_, _, _, by rw [hr]; simp only [Option.bind_eq_bind, Option.bind_some, hq]; rfl,
        hrefilled, ?_⟩
      have hsplit : p.pending ++ samples =
          (p.pending ++ samples.take (p.xferOutLen - p.xferOutPos)) ++
            samples.drop (p.xferOutLen - p.xferOutPos) := by
        rw [List.append_assoc, List.take_append_drop]
      rw [hsplit, frames_cons hlen (by rw [List.length_append, hpending, htakelen, hfill]), hfeed,
        htake]
      rfl

end Feed

end Msisdr
end SdrServer
