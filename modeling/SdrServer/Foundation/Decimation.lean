import Mathlib.Logic.Function.Iterate
import Mathlib.Data.List.Basic
import Mathlib.Tactic.Ring

structure Decimation (X P O : Type) where
  taps : Nat
  stride : Nat
  out : P → List X → O
  next : P → P

namespace Decimation

variable {X P O : Type} (F : Decimation X P O)

def count (taps stride len : Nat) : Nat := if taps ≤ len then (len - taps) / stride + 1 else 0

def emit : Nat → P → List X → List O
  | 0, _, _ => []
  | n + 1, p, w => F.out p (w.take F.taps) :: emit n (F.next p) (w.drop F.stride)

def feed (p : P) (w : List X) : List O × P × List X :=
  let n := count F.taps F.stride w.length
  (F.emit n p w, F.next^[n] p, w.drop (n * F.stride))

def stream : P → List X → List (List X) → List O × P × List X
  | p, h, [] => ([], p, h)
  | p, h, x :: xs =>
    let (o, p', h') := F.feed p (h ++ x)
    let (os, r) := stream p' h' xs
    (o ++ os, r)

theorem count_mul_le {taps stride : Nat} (h : stride ≤ taps) (len : Nat) :
    count taps stride len * stride ≤ len := by
  unfold count
  split
  · have hd := Nat.div_mul_le_self (len - taps) stride
    rw [Nat.add_mul]
    omega
  · omega

theorem count_stop {stride : Nat} (h0 : 0 < stride) (taps len : Nat) :
    len < count taps stride len * stride + taps := by
  unfold count
  split
  · have hd := Nat.div_add_mod (len - taps) stride
    have hm := Nat.mod_lt (len - taps) h0
    rw [Nat.add_mul, Nat.mul_comm ((len - taps) / stride)]
    omega
  · omega

theorem rest_lt {taps stride : Nat} (h0 : 0 < stride) (h : stride ≤ taps) (len : Nat) :
    len - count taps stride len * stride < taps := by
  have hs : len < count taps stride len * stride + taps := count_stop h0 taps len
  omega

theorem count_last {taps stride len : Nat} (h : count taps stride len ≠ 0) :
    (count taps stride len - 1) * stride + taps ≤ len := by
  unfold count at h ⊢
  split
  · have hd := Nat.div_mul_le_self (len - taps) stride
    simp only [Nat.add_sub_cancel]
    omega
  · simp_all

theorem count_eq_zero {taps stride len : Nat} : count taps stride len = 0 ↔ len < taps := by
  unfold count
  split <;> simp <;> omega

theorem count_eq_of_last {taps stride len k : Nat} (htaps : 0 < taps) (hlong : taps - 1 < len)
    (hstop : len - (taps - 1) ≤ k * stride) (hnear : k * stride < len - (taps - 1) + stride) :
    count taps stride len = k := by
  have hk : k ≠ 0 := by
    rintro rfl
    omega
  obtain ⟨j, rfl⟩ := Nat.exists_eq_succ_of_ne_zero hk
  rw [Nat.succ_mul] at hstop hnear
  have hdiv : (len - taps) / stride = j := by
    apply Nat.div_eq_of_lt_le
    · omega
    · rw [Nat.succ_mul]
      omega
  rw [count, if_pos (by omega), hdiv]

theorem count_add {taps stride : Nat} (h0 : 0 < stride) (h : stride ≤ taps) (len m : Nat) :
    count taps stride (len + m) =
      count taps stride len + count taps stride (len - count taps stride len * stride + m) := by
  by_cases hl : taps ≤ len
  · obtain ⟨a, rfl⟩ := Nat.exists_eq_add_of_le hl
    have hd := Nat.div_add_mod a stride
    have hm := Nat.mod_lt a h0
    have hc : count taps stride (taps + a) = a / stride + 1 := by simp [count]
    have hrest : taps + a - (a / stride + 1) * stride = taps - stride + a % stride := by
      rw [Nat.add_mul, Nat.mul_comm (a / stride)]
      omega
    have hsum : (a + m) / stride = a / stride + (a % stride + m) / stride := by
      conv_lhs => rw [← hd, Nat.add_assoc, Nat.mul_add_div h0]
    have hlhs : count taps stride (taps + a + m) = (a + m) / stride + 1 := by
      have hle : taps ≤ taps + a + m := by omega
      rw [count, if_pos hle, show taps + a + m - taps = a + m by omega]
    rw [hlhs, hc, hrest, hsum]
    unfold count
    split
    · rename_i hge
      have he : a % stride + m = (taps - stride + a % stride + m - taps) + stride := by omega
      rw [he, Nat.add_div_right _ h0]
      omega
    · have hlt : a % stride + m < stride := by omega
      rw [Nat.div_eq_of_lt hlt]
  · have hc : count taps stride len = 0 := if_neg hl
    simp [hc]

theorem emit_add (n m : Nat) (p : P) (w : List X) :
    F.emit (n + m) p w = F.emit n p w ++ F.emit m (F.next^[n] p) (w.drop (n * F.stride)) := by
  induction n generalizing p w with
  | zero => simp [emit]
  | succ n ih =>
    rw [Nat.add_right_comm, emit, emit, ih, List.cons_append, Function.iterate_succ_apply,
      List.drop_drop, Nat.succ_mul, Nat.add_comm F.stride]

theorem emit_append (hs : F.stride ≤ F.taps) (n : Nat) (p : P) (w x : List X)
    (h : n ≠ 0 → (n - 1) * F.stride + F.taps ≤ w.length) :
    F.emit n p (w ++ x) = F.emit n p w := by
  induction n generalizing p w with
  | zero => rfl
  | succ n ih =>
    have hw := h (by omega)
    simp only [Nat.add_sub_cancel] at hw
    have ht : F.taps ≤ w.length := by omega
    rw [emit, emit, List.take_append_of_le_length ht, List.drop_append_of_le_length (by omega), ih]
    intro hn
    obtain ⟨k, rfl⟩ := Nat.exists_eq_succ_of_ne_zero hn
    simp only [List.length_drop, Nat.succ_sub_one, Nat.succ_mul] at hw ⊢
    omega

theorem emit_length (n : Nat) (p : P) (w : List X) : (F.emit n p w).length = n := by
  induction n generalizing p w with
  | zero => rfl
  | succ n ih => simp [emit, ih]

theorem emit_get (n : Nat) (p : P) (w : List X) (k : Nat) (hk : k < n) :
    (F.emit n p w)[k]? =
      some (F.out (F.next^[k] p) ((w.drop (k * F.stride)).take F.taps)) := by
  induction n generalizing p w k with
  | zero => omega
  | succ n ih =>
    cases k with
    | zero => simp [emit]
    | succ k =>
      rw [emit, List.getElem?_cons_succ, ih _ _ _ (by omega), Function.iterate_succ_apply,
        List.drop_drop, Nat.succ_mul, Nat.add_comm F.stride]

theorem feed_idle (p : P) (h : List X) (hl : h.length < F.taps) : F.feed p h = ([], p, h) := by
  have hc : count F.taps F.stride h.length = 0 := if_neg (by omega)
  simp [feed, hc, emit]

theorem feed_append (h0 : 0 < F.stride) (hs : F.stride ≤ F.taps) (p : P) (w x : List X) :
    F.feed p (w ++ x) =
      ((F.feed p w).1 ++ (F.feed (F.feed p w).2.1 ((F.feed p w).2.2 ++ x)).1,
        (F.feed (F.feed p w).2.1 ((F.feed p w).2.2 ++ x)).2) := by
  have hle : count F.taps F.stride w.length * F.stride ≤ w.length :=
    count_mul_le hs w.length
  have hadd := count_add h0 hs w.length x.length
  have hlen : (w.drop (count F.taps F.stride w.length * F.stride) ++ x).length =
      w.length - count F.taps F.stride w.length * F.stride + x.length := by simp
  simp only [feed, List.length_append, hadd, hlen]
  rw [emit_add, F.emit_append hs _ p w x count_last, Nat.add_mul, ← List.drop_drop,
    List.drop_append_of_le_length hle, Nat.add_comm (count F.taps F.stride w.length),
    Function.iterate_add_apply]

theorem stream_flatten (h0 : 0 < F.stride) (hs : F.stride ≤ F.taps) (p : P) (h : List X)
    (hl : h.length < F.taps) (chunks : List (List X)) :
    F.stream p h chunks = F.feed p (h ++ chunks.flatten) := by
  induction chunks generalizing p h with
  | nil => simp [stream, F.feed_idle p h hl]
  | cons x xs ih =>
    have hr : (F.feed p (h ++ x)).2.2.length < F.taps := by
      simpa [feed] using rest_lt h0 hs (h ++ x).length
    rw [List.flatten_cons, ← List.append_assoc, F.feed_append h0 hs p (h ++ x), ← ih _ _ hr]
    rfl

end Decimation
