import SdrServer.Queue.Refinement
import SdrServer.Foundation.Transition

namespace SdrServer
namespace Queue

structure System where
  queue : Queue
  holding : Option (Nat × Nat)
  puts : List (List UInt8 × Bool)
  received : List (List UInt8)

inductive Call where
  | put (data : List UInt8)
  | take
  | complete
  | interrupt
  deriving DecidableEq, Repr

namespace System

def start (bufferSize queueSize : Nat) : System :=
  ⟨createQueue bufferSize queueSize, none, [], []⟩

def step (s : System) : Call → Option System
  | .put data => (s.queue.queuePut data).map fun q =>
      { s with queue := q, puts := s.puts ++ [(data, s.queue.firstFreeNode.isNone)] }
  | .take =>
    match s.holding, s.queue.takeBufferForProcessing with
    | some _, _ => none
    | none, (.buffer node len, q) => some
        { s with
          queue := q
          holding := some (node, len)
          received := s.received ++ [(q.buffer node).take len] }
    | none, (_, q) => some { s with queue := q }
  | .complete => s.holding.map fun _ =>
      { s with queue := s.queue.completeBufferProcessing, holding := none }
  | .interrupt => some { s with queue := s.queue.interruptWaitingTheData }

def Fits (bufferSize : Nat) (_ : System) : Call → Prop
  | .put data => data.length ≤ bufferSize
  | _ => True

def trace (s : System) (filled : List Nat) : Fifo.Trace (List UInt8) :=
  ⟨s.queue.abstraction filled, s.puts, s.received⟩

structure Consistent (bufferSize queueSize : Nat) (s : System) (free filled : List Nat) :
    Prop where
  shape : Shape bufferSize queueSize s.queue free filled
  lawful : (s.trace filled).Lawful queueSize
  detached : s.holding.map Prod.fst = s.queue.detachedNode
  delivered : ∀ node len, s.holding = some (node, len) →
    s.queue.len node = len ∧ s.received.getLast? = some (s.queue.contents node)

variable {bufferSize queueSize : Nat} {s t : System} {free filled : List Nat}

theorem consistent_start : Consistent bufferSize queueSize (start bufferSize queueSize)
    (List.range queueSize) [] :=
  ⟨shape_createQueue bufferSize queueSize, ⟨Nat.zero_le _, rfl⟩, rfl, by simp [start]⟩

theorem put_untouched {q r : Queue} {data : List UInt8} {node : Nat}
    (hs : Shape bufferSize queueSize q free filled) (hd : q.detachedNode = some node)
    (h : q.queuePut data = some r) : r.buffer node = q.buffer node ∧ r.len node = q.len node := by
  have hnd := hs.nodup
  simp only [hd, Option.toList_some, List.nodup_append, List.mem_append, List.mem_singleton] at hnd
  have hne : ∀ m, m ∈ free ∨ m ∈ filled → node ≠ m :=
    fun m hm he => hnd.2.2 m hm node rfl he.symm
  unfold queuePut at h
  cases hf : q.firstFreeNode with
  | none =>
    rw [hf] at h
    obtain ⟨m, hm, rfl⟩ := Option.map_eq_some_iff.mp h
    have hmf := hne m (Or.inr (List.mem_of_getLast? (hs.filledLast ▸ hm)))
    simp [Queue.fill, hmf]
  | some m =>
    rw [hf] at h
    obtain rfl := Option.some.inj h
    have hh := Chain.path_head q.next hs.freePath
    have hmf := hne m (Or.inl (List.mem_of_head? (hh ▸ hf)))
    simp [Queue.fill, hmf]

theorem put_spec {data : List UInt8} (hq : 2 ≤ queueSize)
    (h : Shape bufferSize queueSize s.queue free filled) (hd : data.length ≤ bufferSize) :
    ∃ r free' filled', s.queue.queuePut data = some r ∧
      Shape bufferSize queueSize r free' filled' ∧
      Fifo.put queueSize (s.queue.abstraction filled) data = some (r.abstraction filled') ∧
      filled'.map r.contents =
        (if s.queue.firstFreeNode = none then (filled.map s.queue.contents).dropLast
         else filled.map s.queue.contents) ++ [data] ∧
      (s.queue.firstFreeNode = none → filled ≠ []) := by
  have hfull := h.full_iff
  cases free with
  | nil =>
    have hf : s.queue.firstFreeNode = none := h.freePath
    obtain ⟨r, hr, hs, hne, ha⟩ := h.put_full hq hd
    have hp : (s.queue.abstraction filled).pending ≠ [] := by simpa [abstraction] using hne
    refine ⟨r, [], filled, hr, hs, ?_, ?_, fun _ => hne⟩
    · rw [Fifo.put_full (hfull.mp hf) hp, ha]
      rfl
    · rw [if_pos hf]
      exact congrArg Fifo.pending ha
  | cons node rest =>
    have hf : s.queue.firstFreeNode ≠ none := by rw [h.freePath.1]; simp
    obtain ⟨r, hr, hs, ha⟩ := h.put_room hd
    refine ⟨r, rest, filled ++ [node], hr, hs, ?_, ?_, fun hn => absurd hn hf⟩
    · rw [Fifo.put_room (not_not.mp (fun hn => hf (hfull.mpr hn))), ha]
      rfl
    · rw [if_neg hf]
      exact congrArg Fifo.pending ha

theorem holding_detached (h : Consistent bufferSize queueSize s free filled) {node len : Nat}
    (hh : s.holding = some (node, len)) : s.queue.detachedNode = some node := by
  rw [← h.detached, hh]
  rfl

theorem consistent_put {data : List UInt8} (hq : 2 ≤ queueSize) (hd : data.length ≤ bufferSize)
    (h : Consistent bufferSize queueSize s free filled) (ht : s.step (.put data) = some t) :
    ∃ free' filled', Consistent bufferSize queueSize t free' filled' := by
  obtain ⟨r, free', filled', hr, hs, hput, -, -⟩ := put_spec hq h.shape hd
  obtain rfl : { s with queue := r, puts := s.puts ++ [(data, s.queue.firstFreeNode.isNone)] } = t := by
    simpa [step, hr] using ht
  have hroom : s.queue.firstFreeNode.isNone =
      !decide ((s.queue.abstraction filled).size < queueSize) := by
    have hf := h.shape.full_iff
    cases hx : s.queue.firstFreeNode <;> simp [hx] at hf <;> simp [hf]
  refine ⟨free', filled', hs, ?_, ?_, ?_⟩
  · refine Fifo.Trace.lawful_put h.lawful (x := data) ?_
    simp only [Fifo.Trace.put, trace, hput, hroom, Option.map_some]
    rfl
  · rw [(queuePut_frame hr).detached]
    exact h.detached
  · intro node len hh
    have hu := put_untouched h.shape (holding_detached h hh) hr
    have hdl := h.delivered node len hh
    simpa only [contents, hu] using hdl

theorem consistent_take (h : Consistent bufferSize queueSize s free filled)
    (ht : s.step .take = some t) :
    ∃ free' filled', Consistent bufferSize queueSize t free' filled' := by
  cases hh : s.holding with
  | some b => simp [step, hh] at ht
  | none =>
    have hdet : s.queue.detachedNode = none := by rw [← h.detached, hh]; rfl
    cases filled with
    | nil =>
      have hf : s.queue.firstFilledNode = none := h.shape.filledPath
      have he : t = { s with holding := none } := by
        cases hp : s.queue.poisonPill <;>
          simp only [step, hh, takeBufferForProcessing, hf, hp] at ht <;>
          exact (Option.some.inj ht).symm
      rw [← hh] at he
      exact ⟨free, [], he ▸ h⟩
    | cons node rest =>
      have hf : s.queue.firstFilledNode = some node := h.shape.filledPath.1
      have hs := h.shape.take hdet
      refine ⟨free, rest, ?_⟩
      simp only [step, hh, takeBufferForProcessing, hf, Option.some.injEq] at ht
      simp only [takeBufferForProcessing, hf] at hs
      subst ht
      refine ⟨hs, ?_, rfl, ?_⟩
      · refine Fifo.Trace.lawful_take h.lawful ?_ ?_
        · simp [trace, abstraction, hdet]
        · simp [Fifo.Trace.take, Fifo.take, trace, abstraction, contents]
      · rintro n len ⟨⟩
        exact ⟨rfl, by simp [contents]⟩

theorem consistent_complete (h : Consistent bufferSize queueSize s free filled)
    (ht : s.step .complete = some t) :
    ∃ free' filled', Consistent bufferSize queueSize t free' filled' := by
  obtain ⟨⟨node, len⟩, hh, rfl⟩ := Option.map_eq_some_iff.mp ht
  have hdet := holding_detached h hh
  have hs := h.shape.complete hdet
  have hc := (complete_frame s.queue).contents
  have hn := (complete_frame s.queue).detached
  refine ⟨free ++ [node], filled, hs, ?_, by simp [hn], by simp⟩
  have hl := Fifo.Trace.lawful_complete h.lawful
  simpa [trace, abstraction, hc, hn, Fifo.Trace.complete, Fifo.complete] using hl

theorem consistent_step {c : Call} (hq : 2 ≤ queueSize) (hok : Fits bufferSize s c)
    (h : Consistent bufferSize queueSize s free filled) (ht : s.step c = some t) :
    ∃ free' filled', Consistent bufferSize queueSize t free' filled' := by
  cases c with
  | put data => exact consistent_put hq hok h ht
  | take => exact consistent_take h ht
  | complete => exact consistent_complete h ht
  | interrupt =>
    obtain rfl := Option.some.inj ht
    exact ⟨free, filled, h.shape.interrupt, h.lawful, h.detached, h.delivered⟩

theorem consistent_reaches (hq : 2 ≤ queueSize)
    (h : Transition.Reaches step (Fits bufferSize) (start bufferSize queueSize) s) :
    ∃ free filled, Consistent bufferSize queueSize s free filled := by
  refine h.invariant (P := fun s => ∃ free filled, Consistent bufferSize queueSize s free filled)
    ⟨_, _, consistent_start⟩ ?_
  rintro s c t - ⟨free, filled, hs⟩ hok ht
  exact consistent_step hq hok hs ht

structure Delivers (bufferSize queueSize : Nat) (s : System) (free filled : List Nat) : Prop where
  shape : Shape bufferSize queueSize s.queue free filled
  history : s.received ++ filled.map s.queue.contents = Fifo.survivors s.puts
  inOrder : s.received.Sublist (s.puts.map Prod.fst)
  held : ∀ node len, s.holding = some (node, len) → s.queue.detachedNode = some node ∧
    s.received.getLast? = some ((s.queue.buffer node).take len)
  put : ∀ data, data.length ≤ bufferSize → ∃ t free' filled', s.step (.put data) = some t ∧
    Shape bufferSize queueSize t.queue free' filled' ∧
    Fifo.put queueSize (s.queue.abstraction filled) data = some (t.queue.abstraction filled') ∧
    filled'.map t.queue.contents =
      (if s.queue.firstFreeNode = none then (filled.map s.queue.contents).dropLast
       else filled.map s.queue.contents) ++ [data] ∧
    (s.queue.firstFreeNode = none → filled ≠ []) ∧
    ∀ node len, s.holding = some (node, len) →
      (t.queue.buffer node).take len = (s.queue.buffer node).take len

theorem overwrites_newest_only (hq : 2 ≤ queueSize)
    (h : Transition.Reaches step (Fits bufferSize) (start bufferSize queueSize) s) :
    ∃ free filled, Delivers bufferSize queueSize s free filled := by
  obtain ⟨free, filled, hc⟩ := consistent_reaches hq h
  refine ⟨free, filled, hc.shape, hc.lawful.history, Fifo.Trace.received_sublist hc.lawful, ?_, ?_⟩
  · intro node len hh
    obtain ⟨hl, hr⟩ := hc.delivered node len hh
    exact ⟨holding_detached hc hh, by rw [hr, contents, hl]⟩
  · intro data hd
    obtain ⟨r, free', filled', hr, hs, hput, hp, hne⟩ := put_spec hq hc.shape hd
    refine ⟨_, free', filled', by simp [step, hr]; rfl, hs, hput, hp, hne, ?_⟩
    intro node len hh
    rw [(put_untouched hc.shape (holding_detached hc hh) hr).1]

theorem overwrites_newest_only_full : ∃ s,
    Transition.run step (start 4 2)
      [.put [1, 2], .take, .put [3], .put [4, 5, 6], .complete, .take] = some s ∧
    s.received = [[1, 2], [4, 5, 6]] ∧ ∃ free filled, Delivers 4 2 s free filled := by
  have hrun : (Transition.run step (start 4 2)
      [.put [1, 2], .take, .put [3], .put [4, 5, 6], .complete, .take]).isSome := by decide
  refine ⟨_, (Option.some_get hrun).symm, rfl, ?_⟩
  have hreach : Transition.Reaches step (Fits 4) (start 4 2) _ :=
    Transition.reaches_run .start (by simp [Fits]) (Option.some_get hrun).symm
  exact overwrites_newest_only (by decide) hreach

end System
end Queue
end SdrServer
