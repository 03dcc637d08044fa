import SdrServer.Queue.Delivery

namespace SdrServer
namespace Queue

inductive Consumer where
  | idle
  | asleep
  | woken
  | processing (node len : Nat)
  deriving DecidableEq, Repr

namespace Consumer

def broadcast : Consumer → Consumer
  | .asleep => .woken
  | c => c

def holding : Consumer → Option (Nat × Nat)
  | .processing node len => some (node, len)
  | _ => none

@[simp] theorem broadcast_holding (c : Consumer) : c.broadcast.holding = c.holding := by
  cases c <;> rfl

theorem broadcast_awake (c : Consumer) : c.broadcast ≠ .asleep := by
  cases c <;> simp [broadcast]

end Consumer

inductive Entry where
  | put (data : List UInt8) (overwrote : Bool)
  | interrupt
  | taken (data : List UInt8)
  | null
  deriving DecidableEq, Repr

namespace Entry

def puts : List Entry → List (List UInt8 × Bool)
  | [] => []
  | .put data overwrote :: log => (data, overwrote) :: puts log
  | _ :: log => puts log

def delivered : List Entry → List (List UInt8)
  | [] => []
  | .taken data :: log => data :: delivered log
  | _ :: log => delivered log

@[simp] theorem puts_append (log rest : List Entry) : puts (log ++ rest) = puts log ++ puts rest := by
  induction log with
  | nil => rfl
  | cons e log ih => cases e <;> simp [puts, ih]

@[simp] theorem delivered_append (log rest : List Entry) :
    delivered (log ++ rest) = delivered log ++ delivered rest := by
  induction log with
  | nil => rfl
  | cons e log ih => cases e <;> simp [delivered, ih]

end Entry

structure Waiting where
  queue : Queue
  consumer : Consumer
  log : List Entry

-- one action for each critical section of the mutex; an asleep consumer has released it
inductive Action where
  | put (data : List UInt8)
  | interrupt
  | take
  | wakeSpuriously
  | resume
  | complete
  deriving DecidableEq, Repr

namespace Waiting

def start (bufferSize queueSize : Nat) : Waiting := ⟨createQueue bufferSize queueSize, .idle, []⟩

-- the consumer holds the mutex and looks at the queue: at the entry of
-- take_buffer_for_processing, or after pthread_cond_wait has taken the mutex again
def look (s : Waiting) : Waiting :=
  match s.queue.takeBufferForProcessing with
  | (.wait, q) => { s with queue := q, consumer := .asleep }
  | (.null, q) => { s with queue := q, consumer := .idle, log := s.log ++ [.null] }
  | (.buffer node len, q) =>
    { s with
      queue := q
      consumer := .processing node len
      log := s.log ++ [.taken ((q.buffer node).take len)] }

def step (s : Waiting) : Action → Option Waiting
  | .put data => (s.queue.queuePut data).map fun q =>
      { s with
        queue := q
        consumer := s.consumer.broadcast
        log := s.log ++ [.put data s.queue.firstFreeNode.isNone] }
  | .interrupt => some
      { s with
        queue := s.queue.interruptWaitingTheData
        consumer := s.consumer.broadcast
        log := s.log ++ [.interrupt] }
  | .take => if s.consumer = .idle then some s.look else none
  | .wakeSpuriously => if s.consumer = .asleep then some { s with consumer := .woken } else none
  | .resume => if s.consumer = .woken then some s.look else none
  | .complete => s.consumer.holding.map fun _ =>
      { s with queue := s.queue.completeBufferProcessing, consumer := .idle }

def Fits (bufferSize : Nat) (_ : Waiting) : Action → Prop
  | .put data => data.length ≤ bufferSize
  | _ => True

instance (bufferSize : Nat) (s : Waiting) (a : Action) : Decidable (Fits bufferSize s a) := by
  cases a <;> simp only [Fits] <;> infer_instance

def system (s : Waiting) : System :=
  ⟨s.queue, s.consumer.holding, Entry.puts s.log, Entry.delivered s.log⟩

variable {bufferSize queueSize : Nat} {s t : Waiting}

theorem look_system (h : s.consumer.holding = none) : s.system.step .take = some s.look.system := by
  simp only [System.step, system, look, h]
  rcases htake : s.queue.takeBufferForProcessing with ⟨taken, q⟩
  cases taken with
  | wait => simp [Consumer.holding]
  | null => simp [Consumer.holding, Entry.puts, Entry.delivered]
  | buffer node len => simp [Consumer.holding, Entry.puts, Entry.delivered]

inductive Acts (s : Waiting) : Action → Waiting → Prop
  | put {data : List UInt8} {q : Queue} (hput : s.queue.queuePut data = some q) :
    Acts s (.put data)
      { s with
        queue := q
        consumer := s.consumer.broadcast
        log := s.log ++ [.put data s.queue.firstFreeNode.isNone] }
  | interrupt :
    Acts s .interrupt
      { s with
        queue := s.queue.interruptWaitingTheData
        consumer := s.consumer.broadcast
        log := s.log ++ [.interrupt] }
  | look {a : Action} (hholding : s.consumer.holding = none) : Acts s a s.look
  | wake (hasleep : s.consumer = .asleep) : Acts s .wakeSpuriously { s with consumer := .woken }
  | complete {held : Nat × Nat} (hheld : s.consumer.holding = some held) :
    Acts s .complete { s with queue := s.queue.completeBufferProcessing, consumer := .idle }

theorem step_acts {a : Action} (h : s.step a = some t) : Acts s a t := by
  cases a with
  | put data =>
    obtain ⟨q, hput, rfl⟩ := Option.map_eq_some_iff.mp h
    exact .put hput
  | interrupt =>
    obtain rfl := Option.some.inj h
    exact .interrupt
  | take =>
    simp only [step] at h
    split at h
    · rename_i hidle
      obtain rfl := Option.some.inj h
      exact .look (by rw [hidle]; rfl)
    · cases h
  | wakeSpuriously =>
    simp only [step] at h
    split at h
    · rename_i hasleep
      obtain rfl := Option.some.inj h
      exact .wake hasleep
    · cases h
  | resume =>
    simp only [step] at h
    split at h
    · rename_i hwoken
      obtain rfl := Option.some.inj h
      exact .look (by rw [hwoken]; rfl)
    · cases h
  | complete =>
    obtain ⟨held, hheld, rfl⟩ := Option.map_eq_some_iff.mp h
    exact .complete hheld

theorem step_system {a : Action} (h : s.step a = some t) (hfits : Fits bufferSize s a) :
    t.system = s.system ∨ ∃ c, System.Fits bufferSize s.system c ∧ s.system.step c = some t.system := by
  cases step_acts h with
  | @put data q hput =>
    refine Or.inr ⟨.put data, hfits, ?_⟩
    simp [System.step, system, hput, Entry.puts, Entry.delivered]
  | interrupt =>
    refine Or.inr ⟨.interrupt, trivial, ?_⟩
    simp [System.step, system, Entry.puts, Entry.delivered]
  | look hholding => exact Or.inr ⟨.take, trivial, look_system hholding⟩
  | wake hasleep =>
    left
    simp [system, hasleep, Consumer.holding]
  | complete hheld =>
    refine Or.inr ⟨.complete, trivial, ?_⟩
    simp only [System.step, system, hheld, Option.map_some]
    rfl

theorem reaches_system (h : Transition.Reaches step (Fits bufferSize) (start bufferSize queueSize) s) :
    Transition.Reaches System.step (System.Fits bufferSize) (System.start bufferSize queueSize)
      s.system := by
  induction h with
  | start => exact .start
  | next hprev hok ht ih =>
    rcases step_system ht hok with hsame | ⟨c, hfits, hstep⟩
    · rw [hsame]
      exact ih
    · exact ih.next hfits hstep

theorem consistent (hq : 2 ≤ queueSize)
    (h : Transition.Reaches step (Fits bufferSize) (start bufferSize queueSize) s) :
    ∃ free filled, System.Consistent bufferSize queueSize s.system free filled :=
  System.consistent_reaches hq (reaches_system h)

theorem null_concat {log before after : List Entry} {e : Entry}
    (h : log ++ [e] = before ++ .null :: after) :
    (∃ rest, log = before ++ .null :: rest) ∨ (e = .null ∧ before = log) := by
  rcases List.eq_nil_or_concat after with rfl | ⟨rest, last, rfl⟩
  · obtain ⟨hlog, hlast⟩ := List.append_inj' h rfl
    exact Or.inr ⟨List.head_eq_of_cons_eq hlast, hlog.symm⟩
  · left
    rw [List.concat_eq_append, ← List.cons_append, ← List.append_assoc] at h
    exact ⟨rest, (List.append_inj' h rfl).1⟩

structure Alert (s : Waiting) : Prop where
  asleep : s.consumer = .asleep → s.queue.firstFilledNode = none ∧ s.queue.poisonPill = false
  poison : s.queue.poisonPill = true → Entry.interrupt ∈ s.log
  drained : ∀ before after, s.log = before ++ .null :: after →
    Entry.interrupt ∈ before ∧ Entry.delivered before = Fifo.survivors (Entry.puts before)

theorem alert_start : Alert (start bufferSize queueSize) := by
  refine ⟨?_, ?_, ?_⟩
  · intro hasleep
    cases hasleep
  · intro hpoison
    cases hpoison
  · intro before after h
    cases before <;> cases h

theorem drained_concat {e : Entry} (he : e ≠ .null) (h : Alert s) (before after : List Entry)
    (hlog : s.log ++ [e] = before ++ .null :: after) :
    Entry.interrupt ∈ before ∧ Entry.delivered before = Fifo.survivors (Entry.puts before) := by
  rcases null_concat hlog with ⟨rest, hrest⟩ | ⟨hnull, -⟩
  · exact h.drained before rest hrest
  · exact absurd hnull he

theorem alert_look {free filled : List Nat} (h : Alert s)
    (hc : System.Consistent bufferSize queueSize s.system free filled) : Alert s.look := by
  unfold look takeBufferForProcessing
  cases hfirst : s.queue.firstFilledNode with
  | none =>
    cases hpoison : s.queue.poisonPill with
    | false =>
      refine ⟨fun _ => ⟨hfirst, hpoison⟩, ?_, h.drained⟩
      intro hset
      exact h.poison hset
    | true =>
      refine ⟨?_, ?_, ?_⟩
      · intro hasleep
        cases hasleep
      · intro hset
        exact List.mem_append_left _ (h.poison hset)
      · intro before after hlog
        rcases null_concat hlog with ⟨rest, hrest⟩ | ⟨-, rfl⟩
        · exact h.drained before rest hrest
        · have hempty : filled = [] := by
            cases filled with
            | nil => rfl
            | cons node rest =>
              have hnode : s.queue.firstFilledNode = some node := hc.shape.filledPath.1
              rw [hfirst] at hnode
              cases hnode
          have hhistory := hc.lawful.history
          subst hempty
          refine ⟨h.poison hpoison, ?_⟩
          simpa [System.trace, system, abstraction] using hhistory
  | some node =>
    refine ⟨?_, ?_, ?_⟩
    · intro hasleep
      cases hasleep
    · intro hset
      exact List.mem_append_left _ (h.poison hset)
    · intro before after hlog
      exact drained_concat (by simp) h before after hlog

theorem alert_step {a : Action} {free filled : List Nat} (h : Alert s)
    (hc : System.Consistent bufferSize queueSize s.system free filled) (ht : s.step a = some t) :
    Alert t := by
  cases step_acts ht with
  | put hput =>
    refine ⟨fun hasleep => absurd hasleep (Consumer.broadcast_awake _), ?_, ?_⟩
    · intro hset
      exact List.mem_append_left _ (h.poison ((queuePut_frame hput).poison ▸ hset))
    · intro before after hlog
      exact drained_concat (by simp) h before after hlog
  | interrupt =>
    refine ⟨fun hasleep => absurd hasleep (Consumer.broadcast_awake _), ?_, ?_⟩
    · intro hset
      exact List.mem_append_right _ List.mem_cons_self
    · intro before after hlog
      exact drained_concat (by simp) h before after hlog
  | look => exact alert_look h hc
  | wake =>
    refine ⟨?_, h.poison, h.drained⟩
    intro hasleep
    cases hasleep
  | complete =>
    refine ⟨?_, ?_, h.drained⟩
    · intro hasleep
      cases hasleep
    · intro hset
      exact h.poison ((complete_frame s.queue).poison ▸ hset)

theorem alert_reaches (hq : 2 ≤ queueSize)
    (h : Transition.Reaches step (Fits bufferSize) (start bufferSize queueSize) s) : Alert s := by
  refine h.invariant alert_start ?_
  intro s a t hs halert hok ht
  obtain ⟨free, filled, hc⟩ := consistent hq hs
  exact alert_step halert hc ht

theorem look_null (h : s.look.log = s.log ++ [.null]) :
    s.queue.poisonPill = true ∧ s.queue.firstFilledNode = none := by
  unfold look takeBufferForProcessing at h
  cases hfirst : s.queue.firstFilledNode with
  | none =>
    cases hpoison : s.queue.poisonPill with
    | false => simp [hfirst, hpoison] at h
    | true => exact ⟨rfl, rfl⟩
  | some node => simp [hfirst] at h

theorem step_null {a : Action} (ht : s.step a = some t) (h : t.log = s.log ++ [.null]) :
    s.queue.poisonPill = true ∧ s.queue.firstFilledNode = none := by
  cases step_acts ht with
  | look => exact look_null h
  | _ => simp at h

def Returns (s t : Waiting) : Prop :=
  (t.consumer = .idle ∧ t.log = s.log ++ [.null]) ∨
    ∃ node len data, t.consumer = .processing node len ∧ t.log = s.log ++ [.taken data]

theorem look_poisoned (h : s.queue.poisonPill = true) : Returns s s.look := by
  unfold look takeBufferForProcessing
  cases hfirst : s.queue.firstFilledNode with
  | none =>
    rw [h]
    exact Or.inl ⟨rfl, rfl⟩
  | some node => exact Or.inr ⟨_, _, _, rfl, rfl⟩

structure Drains (bufferSize : Nat) (s : Waiting) : Prop where
  null : ∀ a t, s.step a = some t → t.log = s.log ++ [.null] →
    s.queue.poisonPill = true ∧ s.queue.firstFilledNode = none
  drained : ∀ before after, s.log = before ++ .null :: after →
    Entry.interrupt ∈ before ∧ Entry.delivered before = Fifo.survivors (Entry.puts before)
  prompt : s.queue.poisonPill = true →
    (s.consumer = .idle → ∃ t, s.step .take = some t ∧ Returns s t) ∧
    (s.consumer = .woken → ∃ t, s.step .resume = some t ∧ Returns s t)
  awake : s.queue.firstFilledNode ≠ none ∨ s.queue.poisonPill = true → s.consumer ≠ .asleep
  put : ∀ data, data.length ≤ bufferSize → (s.step (.put data)).isSome

theorem shutdown_drains (hq : 2 ≤ queueSize)
    (h : Transition.Reaches step (Fits bufferSize) (start bufferSize queueSize) s) :
    Drains bufferSize s := by
  have halert := alert_reaches hq h
  obtain ⟨free, filled, hc⟩ := consistent hq h
  refine ⟨?_, halert.drained, ?_, ?_, ?_⟩
  · intro a t ht hnull
    exact step_null ht hnull
  · intro hpoison
    constructor
    · intro hidle
      exact ⟨s.look, if_pos hidle, look_poisoned hpoison⟩
    · intro hwoken
      exact ⟨s.look, if_pos hwoken, look_poisoned hpoison⟩
  · intro hcause hasleep
    obtain ⟨hfirst, hpoison⟩ := halert.asleep hasleep
    rcases hcause with hfilled | hset
    · exact hfilled hfirst
    · rw [hpoison] at hset
      cases hset
  · intro data hdata
    obtain ⟨r, free', filled', hput, -⟩ := System.put_spec hq hc.shape hdata
    have hqueue : s.queue.queuePut data = some r := hput
    simp [step, hqueue]

theorem shutdown_drains_woken : ∃ s,
    Transition.run (Transition.guarded step (Fits 4)) (start 4 2)
      [.take, .wakeSpuriously, .resume, .put [1, 2], .interrupt, .resume, .complete, .take] = some s ∧
    s.log = [.put [1, 2] false, .interrupt, .taken [1, 2], .null] ∧ Drains 4 s := by
  have hrun : (Transition.run (Transition.guarded step (Fits 4)) (start 4 2)
      [.take, .wakeSpuriously, .resume, .put [1, 2], .interrupt, .resume, .complete, .take]).isSome := by
    decide
  refine ⟨_, (Option.some_get hrun).symm, rfl, ?_⟩
  exact shutdown_drains (by decide)
    (Transition.reaches_guarded .start (Option.some_get hrun).symm)

end Waiting
end Queue
end SdrServer
