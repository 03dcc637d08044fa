import Mathlib.Data.List.Basic

namespace Buffer

variable {X : Type}

def storeAt (buffer : List X) : Nat → List X → Option (List X)
  | _, [] => some buffer
  | i, x :: xs => if i < buffer.length then storeAt (buffer.set i x) (i + 1) xs else none

def moveDown (buffer : List X) (start n : Nat) : Option (List X) :=
  if start + n ≤ buffer.length then some ((buffer.drop start).take n ++ buffer.drop n) else none

theorem storeAt_eq (buffer xs : List X) (i : Nat) (h : i + xs.length ≤ buffer.length) :
    storeAt buffer i xs = some (buffer.take i ++ xs ++ buffer.drop (i + xs.length)) := by
  induction xs generalizing buffer i with
  | nil => simp [storeAt]
  | cons x xs ih =>
    simp only [List.length_cons] at h
    have hi : i < buffer.length := by omega
    have hset : (buffer.set i x).take (i + 1) = buffer.take i ++ [x] := by
      have hl : (buffer.take i ++ [x]).length = i + 1 := by
        simp [Nat.min_eq_left (Nat.le_of_lt hi)]
      rw [List.set_eq_take_append_cons_drop, if_pos hi, ← List.singleton_append, ← List.append_assoc]
      exact List.take_left' hl
    have hdrop : (buffer.set i x).drop (i + 1 + xs.length) = buffer.drop (i + 1 + xs.length) :=
      List.drop_set_of_lt (by omega)
    rw [storeAt, if_pos hi, ih _ _ (by simpa using by omega), hset, hdrop]
    simp [Nat.add_right_comm, Nat.add_assoc]

theorem storeAt_length {buffer r xs : List X} {i : Nat} (h : storeAt buffer i xs = some r) :
    r.length = buffer.length := by
  induction xs generalizing buffer i with
  | nil => obtain rfl := Option.some.inj h; rfl
  | cons x xs ih =>
    rw [storeAt] at h
    split at h
    · simpa using ih h
    · cases h

theorem storeAt_bound {buffer r xs : List X} {i : Nat} (hi : i ≤ buffer.length)
    (h : storeAt buffer i xs = some r) : i + xs.length ≤ buffer.length := by
  induction xs generalizing buffer i with
  | nil => exact hi
  | cons x xs ih =>
    rw [storeAt] at h
    split at h
    · rename_i hlt
      have hnext : i + 1 ≤ (buffer.set i x).length := by
        rw [List.length_set]
        exact hlt
      have hrest := ih hnext h
      simp only [List.length_set] at hrest
      simp only [List.length_cons]
      omega
    · cases h

theorem storeAt_take (buffer xs : List X) (i : Nat) (h : i + xs.length ≤ buffer.length) :
    (buffer.take i ++ xs ++ buffer.drop (i + xs.length)).take (i + xs.length) =
      buffer.take i ++ xs := by
  apply List.take_left'
  simp
  omega

theorem moveDown_take {buffer r : List X} {start n : Nat} (h : moveDown buffer start n = some r) :
    r.take n = (buffer.drop start).take n ∧ r.length = buffer.length := by
  unfold moveDown at h
  split at h
  · rename_i hle
    obtain rfl := Option.some.inj h
    have hl : ((buffer.drop start).take n).length = n := by simp; omega
    refine ⟨List.take_left' hl, ?_⟩
    simp
    omega
  · cases h

end Buffer
