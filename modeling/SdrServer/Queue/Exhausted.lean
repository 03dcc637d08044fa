import SdrServer.Config.Model
import SdrServer.Queue.Delivery

namespace SdrServer
namespace Queue
namespace System

variable {bufferSize queueSize : Nat} {s : System} {free filled : List Nat}

-- queue_put finds a node: `to_fill` is not NULL
def Puts (s : System) : Prop :=
  (s.queue.firstFreeNode = none → s.queue.lastFilledNode ≠ none) ∧
    ∀ data, (s.queue.queuePut data).isSome

theorem puts_iff : s.Puts ↔ (s.queue.firstFreeNode = none → s.queue.lastFilledNode ≠ none) := by
  constructor
  · intro h
    exact h.1
  · intro h
    refine ⟨h, ?_⟩
    intro data
    unfold queuePut
    cases hfree : s.queue.firstFreeNode with
    | some node => rfl
    | none =>
      obtain ⟨node, hnode⟩ := Option.ne_none_iff_exists'.mp (h hfree)
      rw [hnode]
      rfl

-- the consumer holds at most one of the nodes, so a second one is filled when none is free
theorem puts_of_shape (h : Shape bufferSize queueSize s.queue free filled) (hq : 2 ≤ queueSize) :
    s.Puts := by
  rw [puts_iff]
  intro hfree hlast
  have hempty : filled = [] := by
    rw [h.filledLast] at hlast
    exact List.getLast?_eq_none_iff.mp hlast
  have hfull := h.full_iff.mp hfree
  have hheld : (s.queue.abstraction filled).size ≤ 1 := by
    rw [hempty, abstraction, Fifo.size]
    cases s.queue.detachedNode <;> simp
  omega

-- one node: the put that fills it, the take that detaches it
def exhausted (bufferSize : Nat) : Option System :=
  Transition.run step (start bufferSize 1) [.put [], .take]

theorem exhausted_reached (bufferSize : Nat) : ∃ s, exhausted bufferSize = some s ∧
    Transition.Reaches step (Fits bufferSize) (start bufferSize 1) s ∧
      s.queue.firstFreeNode = none ∧ s.queue.lastFilledNode = none ∧ s.holding = some (0, 0) := by
  have hfits : ∀ c ∈ [Call.put [], .take], ∀ s, Fits bufferSize s c := by simp [Fits]
  exact ⟨_, rfl, Transition.reaches_run .start hfits rfl, rfl, rfl, rfl⟩

theorem not_puts_of_single (bufferSize : Nat) :
    ∃ s, Transition.Reaches step (Fits bufferSize) (start bufferSize 1) s ∧ ¬ s.Puts := by
  obtain ⟨s, -, hreach, hfree, hlast, -⟩ := exhausted_reached bufferSize
  exact ⟨s, hreach, fun hputs => hputs.1 hfree hlast⟩

theorem put_has_node {tmpdir : Option String} {file : Except String Config.Libconfig}
    {c : Config.ServerConfig} (h : Config.createServerConfig tmpdir file = .ok c)
    (bufferSize : Nat) :
    (∀ s, Transition.Reaches step (Fits bufferSize) (start bufferSize c.queueSize.toInt.toNat) s →
      s.Puts) ↔ 2 ≤ c.queueSize.toInt := by
  have hpos := Int32.lt_iff_toInt_lt.mp (Config.createServerConfig_ok h).1
  rw [Int32.toInt_zero] at hpos
  constructor
  · intro hputs
    apply Int.not_lt.mp
    intro hsmall
    have hone : c.queueSize.toInt.toNat = 1 := by omega
    rw [hone] at hputs
    obtain ⟨s, hreach, hno⟩ := not_puts_of_single bufferSize
    exact hno (hputs s hreach)
  · intro hq s hreach
    obtain ⟨free, filled, hc⟩ := consistent_reaches (by omega) hreach
    exact puts_of_shape hc.shape (by omega)

def queueOf (queueSize : Int32) : Config.Libconfig := fun name =>
  if name = "queue_size" then some ⟨queueSize, 0, false, none⟩
  else if name = "band_sampling_rate" then some ⟨2400000, 0, false, none⟩
  else none

theorem put_has_node_two : ∃ c, Config.createServerConfig none (.ok (queueOf 2)) = .ok c ∧
    ∀ s, Transition.Reaches step (Fits 262144) (start 262144 c.queueSize.toInt.toNat) s →
      s.Puts := by
  have haccepted : Config.createServerConfig none (.ok (queueOf 2)) = .ok _ := rfl
  exact ⟨_, haccepted, (put_has_node haccepted 262144).mpr (by decide)⟩

theorem single_node_exhausted : ∃ c, Config.createServerConfig none (.ok (queueOf 1)) = .ok c ∧
    ∃ s, Transition.Reaches step (Fits 262144) (start 262144 c.queueSize.toInt.toNat) s ∧
      s.holding.isSome ∧ s.queue.firstFreeNode = none ∧ s.queue.lastFilledNode = none ∧
      ∀ data, s.queue.queuePut data = none := by
  have haccepted : Config.createServerConfig none (.ok (queueOf 1)) = .ok _ := rfl
  obtain ⟨s, -, hreach, hfree, hlast, hheld⟩ := exhausted_reached 262144
  refine ⟨_, haccepted, s, hreach, by rw [hheld]; rfl, hfree, hlast, ?_⟩
  intro data
  rw [queuePut, hfree, hlast]
  rfl

end System
end Queue
end SdrServer
