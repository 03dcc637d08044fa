import Mathlib.Data.List.Basic

structure Fifo (α : Type) where
  pending : List α
  held : Option α

namespace Fifo

variable {α : Type}

def size (q : Fifo α) : Nat := q.pending.length + q.held.toList.length

def put (capacity : Nat) (q : Fifo α) (x : α) : Option (Fifo α) :=
  if q.size < capacity then some { q with pending := q.pending ++ [x] }
  else if q.pending.isEmpty then none
  else some { q with pending := q.pending.dropLast ++ [x] }

def take (q : Fifo α) : Option (Fifo α) :=
  match q.pending with
  | [] => none
  | x :: xs => some ⟨xs, some x⟩

def complete (q : Fifo α) : Fifo α := { q with held := none }

def survivors : List (α × Bool) → List α
  | [] => []
  | [p] => [p.1]
  | p :: q :: rest =>
    if q.2 then survivors (q :: rest) else p.1 :: survivors (q :: rest)

structure Trace (α : Type) where
  queue : Fifo α
  puts : List (α × Bool)
  received : List α

def Trace.empty : Trace α := ⟨⟨[], none⟩, [], []⟩

def Trace.put (capacity : Nat) (t : Trace α) (x : α) : Option (Trace α) :=
  (t.queue.put capacity x).map fun q =>
    { t with queue := q, puts := t.puts ++ [(x, !decide (t.queue.size < capacity))] }

def Trace.take (t : Trace α) : Option (Trace α) :=
  t.queue.take.map fun q =>
    { t with queue := q, received := t.received ++ q.held.toList }

def Trace.complete (t : Trace α) : Trace α := { t with queue := t.queue.complete }

structure Trace.Lawful (capacity : Nat) (t : Trace α) : Prop where
  bounded : t.queue.size ≤ capacity
  history : t.received ++ t.queue.pending = survivors t.puts

theorem survivors_ne_nil (p : α × Bool) (h : List (α × Bool)) : survivors (p :: h) ≠ [] := by
  induction h generalizing p with
  | nil => simp [survivors]
  | cons q h ih =>
    rw [survivors]
    split
    · exact ih q
    · simp

-- an insertion into a full queue takes the place of the last survivor
theorem survivors_append (h : List (α × Bool)) (x : α) (full : Bool) :
    survivors (h ++ [(x, full)]) =
      (if full then (survivors h).dropLast else survivors h) ++ [x] := by
  induction h with
  | nil => cases full <;> rfl
  | cons p h ih =>
    cases h with
    | nil => cases full <;> simp [survivors]
    | cons q h =>
      simp only [List.cons_append] at ih ⊢
      rw [survivors, survivors, ih]
      split
      · rfl
      · cases full with
        | false => simp
        | true => simp [List.dropLast_cons_of_ne_nil (survivors_ne_nil q h)]

theorem survivors_sublist (h : List (α × Bool)) : (survivors h).Sublist (h.map Prod.fst) := by
  induction h with
  | nil => exact .slnil
  | cons p h ih =>
    cases h with
    | nil => exact List.Sublist.refl _
    | cons q h =>
      rw [survivors]
      split
      · exact ih.cons _
      · exact ih.cons_cons _

variable {capacity : Nat}

theorem put_room {q : Fifo α} (h : q.size < capacity) (x : α) :
    q.put capacity x = some { q with pending := q.pending ++ [x] } := if_pos h

theorem put_full {q : Fifo α} (h : ¬ q.size < capacity) (hp : q.pending ≠ []) (x : α) :
    q.put capacity x = some { q with pending := q.pending.dropLast ++ [x] } := by
  simp [put, h, hp]

theorem Trace.lawful_put {t u : Trace α} {x : α} (ht : t.Lawful capacity)
    (h : t.put capacity x = some u) : u.Lawful capacity := by
  obtain ⟨q, hq, rfl⟩ := Option.map_eq_some_iff.mp h
  unfold Fifo.put at hq
  split at hq
  case isTrue hroom =>
    cases hq
    constructor
    · simp only [size, List.length_append, List.length_singleton] at hroom ⊢; omega
    · simp [hroom, survivors_append, ← ht.history]
  case isFalse hfull =>
    split at hq
    case isTrue => cases hq
    case isFalse hne =>
      cases hq
      have hp : t.queue.pending ≠ [] := by simpa using hne
      have hl := List.length_pos_iff.mpr hp
      constructor
      · have := ht.bounded
        simp only [size, List.length_append, List.length_singleton, List.length_dropLast] at this ⊢
        omega
      · simp [hfull, survivors_append, ← ht.history, List.dropLast_append_of_ne_nil hp]

theorem Trace.lawful_take {t u : Trace α} (ht : t.Lawful capacity) (hh : t.queue.held = none)
    (h : t.take = some u) : u.Lawful capacity := by
  obtain ⟨q, hq, rfl⟩ := Option.map_eq_some_iff.mp h
  unfold Fifo.take at hq
  split at hq
  case h_1 => cases hq
  case h_2 x xs hp =>
    cases hq
    have hb := ht.bounded
    have hi := ht.history
    rw [hp] at hi
    simp only [size, hp, hh, List.length_cons, Option.toList_none, List.length_nil] at hb
    exact ⟨by simp [size]; omega, by simpa using hi⟩

theorem Trace.lawful_complete {t : Trace α} (ht : t.Lawful capacity) :
    t.complete.Lawful capacity := by
  refine ⟨?_, ht.history⟩
  have := ht.bounded
  simp only [size, Trace.complete, Fifo.complete, Option.toList_none, List.length_nil] at this ⊢
  omega

theorem Trace.received_sublist {t : Trace α} (ht : t.Lawful capacity) :
    t.received.Sublist (t.puts.map Prod.fst) := by
  refine List.Sublist.trans ?_ (survivors_sublist t.puts)
  rw [← ht.history]
  exact List.sublist_append_left _ _

end Fifo
