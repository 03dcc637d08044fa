import SdrServer.Foundation.Buffer

namespace Partial

variable {X : Type}

-- what one call to write() or recv() does; `closed` is the 0 of recv()
inductive Result where
  | moved (n : Nat)
  | closed
  | interrupted
  | again
  | failed
  deriving DecidableEq, Repr

structure Wrote (X : Type) where
  sent : List X
  code : Int32
  deriving DecidableEq, Repr

structure Read (X : Type) where
  memory : List X
  stream : List X
  code : Int32
  deriving DecidableEq, Repr

-- the loops stop at the first failure, and `none` is a list of results that they do not consume
-- as it is
def writeLoop (memory : List X) : Nat → List Result → Option (Wrote X)
  | left, [] => if 0 < left then none else some ⟨[], 0⟩
  | left, result :: results =>
    if 0 < left then
      match result, results with
      | .moved n, _ =>
        if n ≤ left then
          (writeLoop memory (left - n) results).map fun r =>
            { r with sent := (memory.drop (memory.length - left)).take n ++ r.sent }
        else none
      | _, [] => some ⟨[], -1⟩
      | _, _ => none
    else none

def readLoop (memory : List X) (left : Nat) (stream : List X) : List Result → Option (Read X)
  | [] => if 0 < left then none else some ⟨memory, stream, 0⟩
  | result :: results =>
    if 0 < left then
      match result, results with
      | .moved n, _ =>
        if 0 < n ∧ n ≤ left ∧ n ≤ stream.length then
          (Buffer.storeAt memory (memory.length - left) (stream.take n)).bind fun memory =>
            readLoop memory (left - n) (stream.drop n) results
        else none
      | .interrupted, _ => readLoop memory left stream results
      | .closed, [] => some ⟨memory, stream, -1⟩
      | .again, [] => some ⟨memory, stream, -11⟩
      | .failed, [] => some ⟨memory, stream, -1⟩
      | _, _ => none
    else none

-- the ways in which `left` bytes can go out in pieces
inductive Writes : Nat → List Result → Prop
  | done : Writes 0 []
  | moved {left n : Nat} {results : List Result} :
      0 < left → n ≤ left → Writes (left - n) results → Writes left (.moved n :: results)

-- the ways in which they can come in, with calls that a signal interrupts
inductive Reads : Nat → List Result → Prop
  | done : Reads 0 []
  | moved {left n : Nat} {results : List Result} :
      0 < n → n ≤ left → Reads (left - n) results → Reads left (.moved n :: results)
  | interrupted {left : Nat} {results : List Result} :
      0 < left → Reads left results → Reads left (.interrupted :: results)

-- the ways in which `n` bytes come in and then the end of the stream
inductive Ends : Nat → List Result → Prop
  | closed : Ends 0 [.closed]
  | moved {m n : Nat} {results : List Result} :
      0 < m → m ≤ n → Ends (n - m) results → Ends n (.moved m :: results)
  | interrupted {n : Nat} {results : List Result} :
      Ends n results → Ends n (.interrupted :: results)

-- a result after which a loop goes on
def Result.Steady (result : Result) : Prop := result ≠ .again ∧ result ≠ .failed

theorem Reads.steady {left : Nat} {results : List Result} (h : Reads left results) :
    ∀ result ∈ results, result.Steady := by
  induction h with
  | done => simp
  | moved _ _ _ ih => simpa [Result.Steady] using ih
  | interrupted _ _ ih => simpa [Result.Steady] using ih

theorem Ends.steady {n : Nat} {results : List Result} (h : Ends n results) :
    ∀ result ∈ results, result.Steady := by
  induction h with
  | closed => simp [Result.Steady]
  | moved _ _ _ ih => simpa [Result.Steady] using ih
  | interrupted _ ih => simpa [Result.Steady] using ih

theorem Writes.moved_mem {left : Nat} {results : List Result} (h : Writes left results) :
    ∀ result ∈ results, ∃ n, result = .moved n := by
  induction h with
  | done => simp
  | moved _ _ _ ih => simpa using ih

theorem writeLoop_writes {memory : List X} {left : Nat} {results : List Result}
    (h : Writes left results) (hleft : left ≤ memory.length) :
    writeLoop memory left results = some ⟨memory.drop (memory.length - left), 0⟩ := by
  induction h with
  | done => simp [writeLoop]
  | @moved left n results hpos hn _ ih =>
    have hnext : memory.length - (left - n) = memory.length - left + n := by omega
    rw [writeLoop, if_pos hpos]
    simp only [if_pos hn, ih (by omega), Option.map_some]
    rw [hnext, ← List.drop_drop, List.take_append_drop]

theorem readLoop_reads {memory stream : List X} {left : Nat} {results : List Result}
    (h : Reads left results) (hleft : left ≤ memory.length) (hstream : left ≤ stream.length) :
    readLoop memory left stream results =
      some ⟨memory.take (memory.length - left) ++ stream.take left, stream.drop left, 0⟩ := by
  induction h generalizing memory stream with
  | done => simp [readLoop]
  | @moved left n results hpos hn _ ih =>
    have hlen : (stream.take n).length = n := List.length_take_of_le (by omega)
    have hstore := Buffer.storeAt_eq memory (stream.take n) (memory.length - left) (by omega)
    have hsame := Buffer.storeAt_length hstore
    have hdone := Buffer.storeAt_take memory (stream.take n) (memory.length - left) (by omega)
    have hnext : memory.length - (left - n) = memory.length - left + n := by omega
    have hleft' : left = n + (left - n) := by omega
    rw [hlen] at hdone hstore hsame
    rw [readLoop, if_pos (by omega)]
    simp only [if_pos (And.intro hpos (And.intro hn (Nat.le_trans hn hstream))), hstore,
      Option.bind_some]
    rw [ih (by omega) (by simp; omega), hsame, hnext, hdone, List.drop_drop, List.append_assoc,
      ← List.take_add, ← hleft']
  | interrupted hpos _ ih =>
    rw [readLoop, if_pos hpos]
    exact ih hleft hstream

-- any result but a count ends the loop
theorem writeLoop_stop {memory : List X} {left : Nat} {result : Result} {results : List Result}
    {w : Wrote X} (hmoved : ∀ n, result ≠ .moved n)
    (h : writeLoop memory left (result :: results) = some w) : w = ⟨[], -1⟩ := by
  by_cases hpos : 0 < left
  · cases results with
    | nil => cases result <;> simp_all [writeLoop]
    | cons next results => cases result <;> simp_all [writeLoop]
  · cases result <;> simp [writeLoop, hpos] at h

theorem writeLoop_cases {memory : List X} {left : Nat} {results : List Result} {w : Wrote X}
    (h : writeLoop memory left results = some w) (hleft : left ≤ memory.length) :
    (w.code = 0 ∧ Writes left results) ∨
      (w.code ≠ 0 ∧ w.sent <+: memory.drop (memory.length - left) ∧
        ∃ result ∈ results, ∀ n, result ≠ .moved n) := by
  induction results generalizing left w with
  | nil =>
    rw [writeLoop] at h
    split at h
    · cases h
    · rename_i hdone
      obtain rfl := Option.some.inj h
      obtain rfl := Nat.eq_zero_of_not_pos hdone
      exact Or.inl ⟨rfl, .done⟩
  | cons result results ih =>
    rcases Classical.em (∃ n, result = .moved n) with ⟨n, rfl⟩ | hother
    · rw [writeLoop] at h
      split at h
      · rename_i hpos
        split at h
        · rename_i hn
          obtain ⟨r, hr, rfl⟩ := Option.map_eq_some_iff.mp h
          rcases ih hr (by omega) with ⟨hcode, hwrites⟩ | ⟨hcode, hsent, result, hmem, hresult⟩
          · exact Or.inl ⟨hcode, .moved hpos hn hwrites⟩
          · refine Or.inr ⟨hcode, ?_, result, List.mem_cons_of_mem _ hmem, hresult⟩
            have hnext : memory.length - (left - n) = memory.length - left + n := by omega
            rw [hnext, ← List.drop_drop] at hsent
            have hboth := (List.prefix_append_right_inj
              ((memory.drop (memory.length - left)).take n)).mpr hsent
            rwa [List.take_append_drop] at hboth
        · cases h
      · cases h
    · have hmoved : ∀ n, result ≠ .moved n := fun n heq => hother ⟨n, heq⟩
      obtain rfl := writeLoop_stop hmoved h
      have hcode : (-1 : Int32) ≠ 0 := by decide
      exact Or.inr ⟨hcode, List.nil_prefix, result, List.mem_cons_self, hmoved⟩

theorem readLoop_ends {memory stream : List X} {left : Nat} {results : List Result}
    (h : Ends stream.length results) (hleft : left ≤ memory.length) (hlt : stream.length < left) :
    ∃ filled, readLoop memory left stream results = some ⟨filled, [], -1⟩ := by
  generalize hn : stream.length = n at h
  induction h generalizing memory stream left with
  | closed =>
    obtain rfl := List.eq_nil_of_length_eq_zero hn
    exact ⟨memory, by rw [readLoop, if_pos (by omega)]⟩
  | @moved m n results hpos hm _ ih =>
    have hlen : (stream.take m).length = m := List.length_take_of_le (by omega)
    have hstore := Buffer.storeAt_eq memory (stream.take m) (memory.length - left) (by omega)
    have hsame := Buffer.storeAt_length hstore
    have hrest : (stream.drop m).length = n - m := by rw [List.length_drop, hn]
    rw [readLoop, if_pos (by omega)]
    simp only [if_pos (And.intro hpos (And.intro (show m ≤ left by omega)
      (show m ≤ stream.length by omega))), hstore, Option.bind_some]
    exact ih (by rw [hsame]; omega) (by omega) hrest
  | interrupted _ ih =>
    obtain ⟨filled, hread⟩ := ih hleft hlt hn
    exact ⟨filled, by rw [readLoop, if_pos (by omega)]; exact hread⟩

-- any result but a count or an interruption ends the loop
theorem readLoop_stop {memory stream : List X} {left : Nat} {result : Result}
    {results : List Result} {r : Read X} (hmoved : ∀ n, result ≠ .moved n)
    (hinterrupted : result ≠ .interrupted)
    (h : readLoop memory left stream (result :: results) = some r) :
    results = [] ∧ r = ⟨memory, stream, if result = .again then -11 else -1⟩ := by
  by_cases hpos : 0 < left
  · cases results with
    | nil => cases result <;> simp_all [readLoop]
    | cons next results => cases result <;> simp_all [readLoop]
  · cases results <;> cases result <;> simp [readLoop, hpos] at h

theorem ends_of_steady {result : Result} (hmoved : ∀ n, result ≠ .moved n)
    (hinterrupted : result ≠ .interrupted) (hsteady : result.Steady) : Ends 0 [result] := by
  cases result with
  | moved n => exact absurd rfl (hmoved n)
  | interrupted => exact absurd rfl hinterrupted
  | closed => exact .closed
  | again => exact absurd rfl hsteady.1
  | failed => exact absurd rfl hsteady.2

theorem readLoop_cases {memory stream : List X} {left : Nat} {results : List Result} {r : Read X}
    (h : readLoop memory left stream results = some r) :
    (r.code = 0 ∧ left ≤ stream.length ∧ Reads left results) ∨
      (r.code ≠ 0 ∧ ∃ n, n < left ∧ n ≤ stream.length ∧ r.stream = stream.drop n ∧
        ((∀ result ∈ results, result.Steady) → Ends n results)) := by
  induction results generalizing memory left stream with
  | nil =>
    rw [readLoop] at h
    split at h
    · cases h
    · rename_i hdone
      obtain rfl := Option.some.inj h
      obtain rfl := Nat.eq_zero_of_not_pos hdone
      exact Or.inl ⟨rfl, Nat.zero_le _, .done⟩
  | cons result results ih =>
    have hpos : 0 < left := by
      apply Nat.pos_of_ne_zero
      rintro rfl
      cases results <;> cases result <;> simp [readLoop] at h
    rcases Classical.em (∃ n, result = .moved n) with ⟨m, rfl⟩ | hother
    · rw [readLoop, if_pos hpos] at h
      split at h
      · rename_i hm
        obtain ⟨filled, -, hrest⟩ := Option.bind_eq_some_iff.mp h
        rcases ih hrest with ⟨hcode, hle, hreads⟩ | ⟨hcode, n, hlt, hle, hstream, hends⟩
        · rw [List.length_drop] at hle
          exact Or.inl ⟨hcode, by omega, .moved hm.1 hm.2.1 hreads⟩
        · rw [List.length_drop] at hle
          refine Or.inr ⟨hcode, m + n, by omega, by omega, by rw [hstream, List.drop_drop], ?_⟩
          intro hsteady
          have hrest := hends fun result hmem => hsteady result (List.mem_cons_of_mem _ hmem)
          refine .moved hm.1 (Nat.le_add_right m n) ?_
          rwa [Nat.add_sub_cancel_left]
      · cases h
    · rcases Classical.em (result = .interrupted) with rfl | hinterrupted
      · rw [readLoop, if_pos hpos] at h
        rcases ih h with ⟨hcode, hle, hreads⟩ | ⟨hcode, n, hlt, hle, hstream, hends⟩
        · exact Or.inl ⟨hcode, hle, .interrupted hpos hreads⟩
        · refine Or.inr ⟨hcode, n, hlt, hle, hstream, ?_⟩
          intro hsteady
          exact .interrupted
            (hends fun result hmem => hsteady result (List.mem_cons_of_mem _ hmem))
      · have hmoved : ∀ n, result ≠ .moved n := fun n heq => hother ⟨n, heq⟩
        obtain ⟨rfl, rfl⟩ := readLoop_stop hmoved hinterrupted h
        have hcode : (if result = .again then (-11 : Int32) else -1) ≠ 0 := by split <;> decide
        refine Or.inr ⟨hcode, 0, hpos, Nat.zero_le _, rfl, ?_⟩
        intro hsteady
        exact ends_of_steady hmoved hinterrupted (hsteady result List.mem_cons_self)

end Partial
