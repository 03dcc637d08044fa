import SdrServer.Xlating.Model
import SdrServer.Foundation.Decimation

namespace SdrServer
namespace Xlating
namespace Block

variable {X P O : Type}

section Runs

variable {b : Block X P O} {buffer : List X} {maxIndex fuel current produced last : Nat} {p q : P}
  {os : List O}

theorem loop_stop (h : ¬ current < maxIndex) :
    b.loop buffer maxIndex fuel current produced p = some ([], current, p) := by
  cases fuel <;> simp [loop, h]

-- the loop is over, or one pass has run and the loop goes on
theorem loop_some (h : b.loop buffer maxIndex fuel current produced p = some (os, last, q)) :
    (maxIndex ≤ current ∧ os = [] ∧ last = current ∧ q = p) ∨
      ∃ rest o r outs, current < maxIndex ∧ os = o :: outs ∧
        b.body buffer current p = some (o, r) ∧
        b.loop buffer maxIndex rest (current + b.decimation) (produced + 1) r =
          some (outs, last, q) := by
  by_cases hlt : current < maxIndex
  · right
    cases fuel with
    | zero =>
      rw [loop, if_pos hlt] at h
      cases h
    | succ fuel =>
      rw [loop, if_pos hlt] at h
      split at h
      · obtain ⟨⟨o, r⟩, hbody, hrest⟩ := Option.bind_eq_some_iff.mp h
        obtain ⟨⟨outs, l, t⟩, hloop, hout⟩ := Option.bind_eq_some_iff.mp hrest
        cases hout
        exact ⟨fuel, o, r, outs, hlt, rfl, hbody, hloop⟩
      · cases h
  · left
    rw [loop_stop hlt] at h
    cases h
    exact ⟨Nat.le_of_not_lt hlt, rfl, rfl, rfl⟩

theorem loop_last (h : b.loop buffer maxIndex fuel current produced p = some (os, last, q)) :
    last = current + os.length * b.decimation ∧ maxIndex ≤ last ∧
      (last = current ∨ last < maxIndex + b.decimation) := by
  induction os generalizing fuel current produced p with
  | nil =>
    rcases loop_some h with ⟨hstop, -, rfl, -⟩ | ⟨_, _, _, _, -, hcons, -⟩
    · exact ⟨by simp, hstop, Or.inl rfl⟩
    · cases hcons
  | cons o os ih =>
    rcases loop_some h with ⟨-, hnil, -⟩ | ⟨rest, _, r, _, hlt, hcons, -, hloop⟩
    · cases hnil
    · cases hcons
      obtain ⟨hlast, hstop, hnear⟩ := ih hloop
      refine ⟨?_, hstop, by omega⟩
      rw [hlast, List.length_cons, Nat.succ_mul]
      omega

theorem loop_nonempty (hlt : current < maxIndex)
    (h : b.loop buffer maxIndex fuel current produced p = some (os, last, q)) : os ≠ [] := by
  rintro rfl
  obtain ⟨hlast, hstop, -⟩ := loop_last h
  rw [List.length_nil, Nat.zero_mul] at hlast
  omega

theorem loop_phase {next : P → P}
    (hnext : ∀ buffer current p o q, b.body buffer current p = some (o, q) → q = next p)
    (h : b.loop buffer maxIndex fuel current produced p = some (os, last, q)) :
    q = next^[os.length] p := by
  induction os generalizing fuel current produced p with
  | nil =>
    rcases loop_some h with ⟨-, -, -, rfl⟩ | ⟨_, _, _, _, -, hcons, -⟩
    · rfl
    · cases hcons
  | cons o os ih =>
    rcases loop_some h with ⟨-, hnil, -⟩ | ⟨rest, _, r, _, -, hcons, hbody, hloop⟩
    · cases hnil
    · cases hcons
      obtain rfl := hnext _ _ _ _ _ hbody
      exact ih hloop

theorem process_some {historyOffset n history : Nat} {rest : List X}
    (h : b.process buffer historyOffset n p = some (os, q, rest, history)) :
    (¬ b.tapsLen - 1 < historyOffset + n ∧ os = [] ∧ q = p ∧ rest.length = buffer.length ∧
      history = historyOffset + n) ∨
    (b.tapsLen - 1 < historyOffset + n ∧ ∃ last r,
      b.loop buffer (historyOffset + n - (b.tapsLen - 1)) (historyOffset + n - (b.tapsLen - 1)) 0 0
        p = some (os, last, r) ∧ q = b.finish r ∧ last ≤ historyOffset + n ∧
      rest.length = buffer.length ∧ history = historyOffset + n - last) := by
  simp only [process] at h
  split at h
  · rename_i hlong
    obtain ⟨⟨outs, last, r⟩, hmap, hrest⟩ := Option.bind_eq_some_iff.mp h
    obtain ⟨⟨outs, last, r⟩, hloop, hout⟩ := Option.map_eq_some_iff.mp hmap
    cases hout
    split at hrest
    · rename_i hle
      split at hrest
      · obtain ⟨moved, hmoved, hout⟩ := Option.bind_eq_some_iff.mp hrest
        cases hout
        exact Or.inr ⟨hlong, _, r, hloop, rfl, hle, (Buffer.moveDown_take hmoved).2, rfl⟩
      · cases hrest
        exact Or.inr ⟨hlong, _, r, hloop, rfl, hle, rfl, rfl⟩
    · cases hrest
  · rename_i hshort
    simp at h
    obtain ⟨rfl, rfl, rfl, rfl⟩ := h
    exact Or.inl ⟨hshort, rfl, rfl, rfl, rfl⟩

end Runs

variable (b : Block X P O) (F : Decimation X P O)

structure Implements (b : Block X P O) (F : Decimation X P O) (buffer : List X) (workingLen : Nat) :
    Prop where
  taps : F.taps = b.width * b.tapsLen
  stride : F.stride = b.width * b.decimation
  positive : 0 < b.decimation
  fits : b.decimation ≤ b.tapsLen
  wide : 0 < b.width
  stored : b.width * workingLen ≤ buffer.length
  body : ∀ current p, current + b.tapsLen ≤ workingLen →
    b.body buffer current p =
      some (F.out p (((buffer.take (b.width * workingLen)).drop (b.width * current)).take F.taps),
        F.next p)
  room : Decimation.count b.tapsLen b.decimation workingLen ≤ b.outputLen

variable {b F} {buffer : List X} {workingLen : Nat}

theorem count_width (h : Implements b F buffer workingLen) :
    Decimation.count F.taps F.stride (b.width * workingLen) =
      Decimation.count b.tapsLen b.decimation workingLen := by
  have hw := h.wide
  unfold Decimation.count
  rw [h.taps, h.stride, ← Nat.mul_sub, Nat.mul_div_mul_left _ _ hw]
  simp only [Nat.mul_le_mul_left_iff hw]

theorem loop_emit (h : Implements b F buffer workingLen) (n current produced fuel : Nat) (p : P)
    (hlast : n ≠ 0 → current + (n - 1) * b.decimation + b.tapsLen ≤ workingLen)
    (hstop : workingLen < current + n * b.decimation + b.tapsLen)
    (hfuel : n ≤ fuel) (hroom : produced + n ≤ b.outputLen) :
    b.loop buffer (workingLen - (b.tapsLen - 1)) fuel current produced p =
      some (F.emit n p ((buffer.take (b.width * workingLen)).drop (b.width * current)),
        current + n * b.decimation, F.next^[n] p) := by
  have hpos := h.positive
  have hfits := h.fits
  induction n generalizing current produced fuel p with
  | zero =>
    have hge : ¬ current < workingLen - (b.tapsLen - 1) := by omega
    cases fuel <;> simp [loop, hge, Decimation.emit]
  | succ n ih =>
    obtain ⟨fuel, rfl⟩ := Nat.exists_eq_add_of_le' (show 1 ≤ fuel by omega)
    have hl := hlast (by omega)
    simp only [Nat.add_sub_cancel] at hl
    have hlt : current < workingLen - (b.tapsLen - 1) := by omega
    have hp : produced < b.outputLen := by omega
    have hbody := h.body current p (by omega)
    have hstep : current + b.decimation + n * b.decimation = current + (n + 1) * b.decimation := by
      rw [Nat.succ_mul]
      omega
    have hnext := ih (current + b.decimation) (produced + 1) fuel (F.next p)
      (by
        intro hn
        obtain ⟨k, rfl⟩ := Nat.exists_eq_succ_of_ne_zero hn
        simp only [Nat.succ_sub_one, Nat.succ_mul] at hl ⊢
        omega)
      (by omega) (by omega) (by omega)
    rw [loop, if_pos hlt, if_pos hp, hbody]
    simp only [Option.bind_eq_bind, Option.bind_some, hnext, hstep, Decimation.emit,
      Function.iterate_succ_apply, List.drop_drop, h.stride, Nat.mul_add]

theorem process_feed (h : Implements b F buffer workingLen) {historyOffset n : Nat} (p : P)
    (hw : historyOffset + n = workingLen) :
    ∃ rest history, b.process buffer historyOffset n p =
        some ((F.feed p (buffer.take (b.width * workingLen))).1,
          (if workingLen < b.tapsLen then p
            else b.finish (F.feed p (buffer.take (b.width * workingLen))).2.1), rest, history) ∧
      rest.length = buffer.length ∧ history < b.tapsLen ∧
      rest.take (b.width * history) = (F.feed p (buffer.take (b.width * workingLen))).2.2 := by
  have hpos := h.positive
  have hfits := h.fits
  have hlen : (buffer.take (b.width * workingLen)).length = b.width * workingLen := by
    rw [List.length_take, Nat.min_eq_left h.stored]
  simp only [Decimation.feed, hlen, count_width h]
  rw [h.stride]
  by_cases hshort : workingLen < b.tapsLen
  · have hc : Decimation.count b.tapsLen b.decimation workingLen = 0 :=
      Decimation.count_eq_zero.mpr hshort
    have hno : ¬ b.tapsLen - 1 < workingLen := by omega
    refine ⟨buffer, workingLen, ?_, rfl, hshort, ?_⟩
    · simp [process, hw, hno, hc, hshort, Decimation.emit]
    · simp [hc]
  · have hne : Decimation.count b.tapsLen b.decimation workingLen ≠ 0 :=
      fun hc => hshort (Decimation.count_eq_zero.mp hc)
    have hyes : b.tapsLen - 1 < workingLen := by omega
    have hle := Decimation.count_mul_le hfits workingLen
    have hlast := Decimation.count_last hne
    have hstop := Decimation.count_stop hpos b.tapsLen workingLen
    have hrest := Decimation.rest_lt hpos hfits workingLen
    have hroom := h.room
    have hpred : Decimation.count b.tapsLen b.decimation workingLen - 1 ≤
        (Decimation.count b.tapsLen b.decimation workingLen - 1) * b.decimation :=
      Nat.le_mul_of_pos_right _ hpos
    have hcur : 0 < Decimation.count b.tapsLen b.decimation workingLen * b.decimation :=
      Nat.mul_pos (Nat.pos_of_ne_zero hne) hpos
    have hloop := loop_emit h (Decimation.count b.tapsLen b.decimation workingLen) 0 0
      (workingLen - (b.tapsLen - 1)) p (fun _ => by omega) (by omega) (by omega) (by omega)
    generalize Decimation.count b.tapsLen b.decimation workingLen = c at *
    have hmove : b.width * (c * b.decimation) + b.width * (workingLen - c * b.decimation) ≤
        buffer.length := by
      rw [← Nat.mul_add, Nat.add_sub_of_le hle]
      exact h.stored
    have hm : ∃ rest, Buffer.moveDown buffer (b.width * (c * b.decimation))
        (b.width * (workingLen - c * b.decimation)) = some rest := ⟨_, if_pos hmove⟩
    obtain ⟨rest, hm⟩ := hm
    obtain ⟨htake, hlr⟩ := Buffer.moveDown_take hm
    refine ⟨rest, workingLen - c * b.decimation, ?_, hlr, hrest, ?_⟩
    · simp [process, hw, hyes, hloop, hle, hcur, hm, hshort]
    · rw [htake, List.drop_take, Nat.mul_sub, Nat.mul_left_comm]

theorem store_process {xs : List X} {historyOffset n : Nat}
    (himp : ∀ stored, stored.length = buffer.length → Implements b F stored (historyOffset + n))
    (hxs : xs.length = b.width * n) (p : P)
    (hfinish : ∀ k, b.finish (F.next^[k] p) = F.next^[k] p) :
    ∃ stored rest history, Buffer.storeAt buffer (b.width * historyOffset) xs = some stored ∧
      b.process stored historyOffset n p =
        some ((F.feed p (buffer.take (b.width * historyOffset) ++ xs)).1,
          (F.feed p (buffer.take (b.width * historyOffset) ++ xs)).2.1, rest, history) ∧
      rest.length = buffer.length ∧ history < b.tapsLen ∧
      rest.take (b.width * history) =
        (F.feed p (buffer.take (b.width * historyOffset) ++ xs)).2.2 := by
  have hsum : b.width * historyOffset + xs.length = b.width * (historyOffset + n) := by
    rw [hxs, Nat.mul_add]
  have hroom : b.width * historyOffset + xs.length ≤ buffer.length := by
    rw [hsum]
    exact (himp buffer rfl).stored
  have hstore := Buffer.storeAt_eq buffer xs _ hroom
  have hlen := Buffer.storeAt_length hstore
  obtain ⟨rest, history, hp, hrl, hhist, hrest⟩ := process_feed (himp _ hlen) p rfl
  rw [← hsum, Buffer.storeAt_take buffer xs _ hroom] at hp hrest
  refine ⟨_, rest, history, hstore, ?_, hrl.trans hlen, hhist, hrest⟩
  rw [hp]
  split
  · rename_i hshort
    have hfew : (buffer.take (b.width * historyOffset) ++ xs).length < F.taps := by
      rw [List.length_append, List.length_take, Nat.min_eq_left (by omega), hsum,
        (himp _ hlen).taps]
      exact Nat.mul_lt_mul_of_pos_left hshort (himp _ hlen).wide
    rw [F.feed_idle p _ hfew]
  · simp only [Decimation.feed, hfinish]

end Block
end Xlating
end SdrServer
