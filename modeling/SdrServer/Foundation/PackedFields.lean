import Mathlib.Data.Nat.Digits.Defs
import Mathlib.Tactic.Ring

-- numbers of a fixed width one after the other, the lowest first
namespace PackedFields

def word (width : Nat) (xs : List Nat) : Nat := Nat.ofDigits (2 ^ width) xs

def split (width : Nat) : Nat → Nat → List Nat
  | 0, _ => []
  | count + 1, n => n % 2 ^ width :: split width count (n / 2 ^ width)

def Fits (width : Nat) (xs : List Nat) : Prop := ∀ x ∈ xs, x < 2 ^ width

def repack (width width' count : Nat) (xs : List Nat) : List Nat := split width' count (word width xs)

variable {width width' : Nat}

@[simp] theorem split_length (count n : Nat) : (split width count n).length = count := by
  induction count generalizing n with
  | zero => rfl
  | succ count ih => rw [split, List.length_cons, ih]

theorem split_fits (count n : Nat) : Fits width (split width count n) := by
  induction count generalizing n with
  | zero => simp [Fits, split]
  | succ count ih =>
    intro x hx
    rcases List.mem_cons.mp hx with rfl | hx
    · exact Nat.mod_lt _ (Nat.two_pow_pos width)
    · exact ih _ x hx

@[simp] theorem word_nil : word width [] = 0 := rfl

theorem word_cons (x : Nat) (xs : List Nat) :
    word width (x :: xs) = x + 2 ^ width * word width xs := by
  simp [word, Nat.ofDigits_cons]

theorem word_append (xs ys : List Nat) :
    word width (xs ++ ys) = word width xs + 2 ^ (width * xs.length) * word width ys := by
  rw [word, Nat.ofDigits_append, ← pow_mul]
  rfl

theorem word_lt {xs : List Nat} (h : Fits width xs) : word width xs < 2 ^ (width * xs.length) := by
  induction xs with
  | nil => simp [word]
  | cons x xs ih =>
    have hx : x < 2 ^ width := h x (by simp)
    have hxs := ih fun y hy => h y (by simp [hy])
    rw [word_cons, List.length_cons, Nat.mul_succ, pow_add, Nat.mul_comm (2 ^ (width * xs.length))]
    calc x + 2 ^ width * word width xs < 2 ^ width + 2 ^ width * word width xs := by omega
      _ = 2 ^ width * (word width xs + 1) := by ring
      _ ≤ 2 ^ width * 2 ^ (width * xs.length) := Nat.mul_le_mul_left _ hxs

theorem split_word {xs : List Nat} (h : Fits width xs) :
    split width xs.length (word width xs) = xs := by
  induction xs with
  | nil => rfl
  | cons x xs ih =>
    have hx : x < 2 ^ width := h x (by simp)
    have hxs := ih fun y hy => h y (by simp [hy])
    have hdiv : (x + 2 ^ width * word width xs) / 2 ^ width = word width xs := by
      rw [Nat.add_mul_div_left _ _ (Nat.two_pow_pos width), Nat.div_eq_of_lt hx, Nat.zero_add]
    rw [List.length_cons, split, word_cons, Nat.add_mul_mod_self_left, Nat.mod_eq_of_lt hx, hdiv, hxs]

theorem word_split (count n : Nat) : word width (split width count n) = n % 2 ^ (width * count) := by
  induction count generalizing n with
  | zero => simp [split, word, Nat.mod_one]
  | succ count ih =>
    rw [split, word_cons, ih, Nat.mul_succ, Nat.add_comm (width * count), pow_add, Nat.mod_mul]

theorem split_append {low : Nat} (count count' high : Nat) (h : low < 2 ^ (width * count)) :
    split width (count + count') (low + 2 ^ (width * count) * high) =
      split width count low ++ split width count' high := by
  induction count generalizing low with
  | zero =>
    have hzero : low = 0 := by simpa using h
    simp [hzero, split]
  | succ count ih =>
    have hpow : 2 ^ (width * (count + 1)) = 2 ^ width * 2 ^ (width * count) := by
      rw [Nat.mul_succ, Nat.add_comm, pow_add]
    have hlow : low / 2 ^ width < 2 ^ (width * count) := by
      rw [Nat.div_lt_iff_lt_mul (Nat.two_pow_pos width), Nat.mul_comm, ← hpow]
      exact h
    rw [Nat.succ_add, split, split, List.cons_append, hpow, Nat.mul_assoc,
      Nat.add_mul_mod_self_left, Nat.add_mul_div_left _ _ (Nat.two_pow_pos width), ih hlow]

-- a group of whole fields can be taken apart on its own
theorem repack_append {count : Nat} {xs : List Nat} (ys : List Nat) (count' : Nat)
    (hfits : Fits width xs) (h : width * xs.length = width' * count) :
    repack width width' (count + count') (xs ++ ys) =
      repack width width' count xs ++ repack width width' count' ys := by
  have hlt := word_lt hfits
  rw [h] at hlt
  rw [repack, word_append, h, split_append count count' _ hlt]
  rfl

theorem repack_repack {count : Nat} {xs : List Nat} (hfits : Fits width xs)
    (h : width * xs.length = width' * count) :
    repack width' width xs.length (repack width width' count xs) = xs := by
  have hlt := word_lt hfits
  rw [h] at hlt
  rw [repack, repack, word_split, Nat.mod_eq_of_lt hlt, split_word hfits]

end PackedFields
