import SdrServer.Foundation.Transition
import Mathlib.Data.List.Basic

namespace SdrServer
namespace RtlTcp

-- where usb_stream_thread is; round `wait` of its loop tries msisdr_open five times, and
-- `crashed` is msisdr_read_async writing the status of a device that is NULL
inductive StreamThread where
  | streaming
  | attempting (wait att : Nat)
  | opening (wait att : Nat)
  | ended
  | crashed
  deriving DecidableEq, Repr

-- `stop` is g_stop, and `opens` what msisdr_open returned since the stream ended, the last one first
structure Outage where
  thread : StreamThread
  stop : Bool
  opens : List Bool
  deriving DecidableEq, Repr

inductive OutageEvent where
  | returned
  | attempt
  | opened (ok : Bool)
  | signal
  deriving DecidableEq, Repr

namespace Outage

def start : Outage := ⟨.streaming, false, []⟩

-- the head of the outer loop
def readAgain (s : Outage) (thread : StreamThread) : Outage :=
  { s with thread := if s.stop then .ended else thread }

-- a round that found no device, and the next one
def nextRound (s : Outage) (wait : Nat) : Outage :=
  if wait + 1 ≤ 10 ∧ s.stop = false then { s with thread := .attempting (wait + 1) 0 }
  else s.readAgain .crashed

def step (s : Outage) : OutageEvent → Option Outage
  | .returned =>
    match s.thread with
    | .streaming =>
      some (if s.stop then { s with thread := .ended }
        else { s with thread := .attempting 1 0, opens := [] })
    | _ => none
  | .attempt =>
    match s.thread with
    | .attempting wait att =>
      some (if s.stop then s.nextRound wait else { s with thread := .opening wait att })
    | _ => none
  | .opened ok =>
    match s.thread with
    | .opening wait att =>
      let s := { s with opens := ok :: s.opens }
      some (if ok then s.readAgain .streaming
        else if att + 1 < 5 then { s with thread := .attempting wait (att + 1) }
        else s.nextRound wait)
    | _ => none
  | .signal =>
    match s.thread with
    | .crashed => none
    | _ => some { s with stop := true }

def failures (n : Nat) : List Bool := List.replicate n false

def Counted (s : Outage) (wait att : Nat) : Prop :=
  1 ≤ wait ∧ wait ≤ 10 ∧ att < 5 ∧ s.opens = failures (5 * (wait - 1) + att)

def Sound (s : Outage) : Prop :=
  match s.thread with
  | .streaming => s.opens.head? ≠ some false
  | .attempting wait att => s.Counted wait att
  | .opening wait att => s.Counted wait att
  | .ended => s.stop = true
  | .crashed => s.stop = false ∧ s.opens = failures 50

section Steps

variable {s t : Outage} {wait att : Nat}

theorem Counted.fails (h : s.Counted wait att) :
    false :: s.opens = failures (5 * (wait - 1) + (att + 1)) := by
  rw [h.2.2.2]
  rfl

theorem Counted.ne_fifty (h : s.Counted wait att) : s.opens ≠ failures 50 := by
  obtain ⟨-, hhigh, hatt, hopens⟩ := h
  intro hfifty
  have hlen := congrArg List.length (hopens.symm.trans hfifty)
  simp only [failures, List.length_replicate] at hlen
  omega

theorem sound_nextRound (hlow : 1 ≤ wait) (hhigh : wait ≤ 10) (h : s.opens = failures (5 * wait)) :
    (s.nextRound wait).Sound := by
  unfold nextRound
  split
  · rename_i hagain
    exact ⟨by omega, hagain.1, by decide, h⟩
  · rename_i hlast
    by_cases hstop : s.stop = true
    · rw [readAgain, if_pos hstop]
      exact hstop
    · rw [readAgain, if_neg hstop]
      rw [Bool.not_eq_true] at hstop
      have hten : wait = 10 := by
        simp only [hstop, and_true] at hlast
        omega
      subst hten
      exact ⟨hstop, h⟩

theorem Sound.step {e : OutageEvent} (h : s.Sound) (hstep : s.step e = some t) : t.Sound := by
  unfold Sound at h
  cases e with
  | returned =>
    simp only [Outage.step] at hstep
    split at hstep
    · obtain rfl := Option.some.inj hstep
      split
      · rename_i hstop
        exact hstop
      · exact ⟨Nat.le_refl 1, by decide, by decide, rfl⟩
    · cases hstep
  | attempt =>
    simp only [Outage.step] at hstep
    split at hstep
    · rename_i wait att hthread
      obtain rfl := Option.some.inj hstep
      simp only [hthread] at h
      split
      · rename_i hstop
        have hlast : s.nextRound wait = { s with thread := .ended } := by
          simp [nextRound, readAgain, hstop]
        rw [hlast]
        exact hstop
      · exact h
    · cases hstep
  | opened ok =>
    simp only [Outage.step] at hstep
    split at hstep
    · rename_i wait att hthread
      obtain rfl := Option.some.inj hstep
      simp only [hthread] at h
      have hfails := h.fails
      obtain ⟨hlow, hhigh, hatt, -⟩ := h
      cases ok with
      | true =>
        rw [if_pos rfl, readAgain]
        split
        · rename_i hstop
          exact hstop
        · simp [Sound]
      | false =>
        rw [if_neg (by decide)]
        split
        · rename_i hmore
          exact ⟨hlow, hhigh, hmore, hfails⟩
        · rename_i hlast
          have hround : 5 * (wait - 1) + (att + 1) = 5 * wait := by omega
          exact sound_nextRound hlow hhigh (by rw [← hround]; exact hfails)
    · cases hstep
  | signal =>
    simp only [Outage.step] at hstep
    split at hstep
    · cases hstep
    · rename_i hcrashed
      obtain rfl := Option.some.inj hstep
      unfold Sound
      cases hthread : s.thread with
      | crashed => exact absurd hthread hcrashed
      | ended => rfl
      | streaming => simpa [hthread] using h
      | attempting wait att => simpa [hthread, Counted] using h
      | opening wait att => simpa [hthread, Counted] using h

end Steps

-- the thread gets over an outage unless fifty attempts in a row find no device
theorem crashes_iff {s : Outage} (h : Transition.Reachable step start s) :
    s.thread = .crashed ↔ s.stop = false ∧ s.opens = failures 50 := by
  have hsound : s.Sound := h.invariant (by simp [Sound, start])
    fun _ _ _ _ hs _ hstep => hs.step hstep
  unfold Sound at hsound
  constructor
  · intro hthread
    simpa only [hthread] using hsound
  · rintro ⟨hstop, hopens⟩
    cases hthread : s.thread with
    | crashed => rfl
    | ended => simp [hthread, hstop] at hsound
    | streaming => simp [hthread, hopens, failures] at hsound
    | attempting wait att =>
      rw [hthread] at hsound
      exact absurd hopens (Counted.ne_fifty hsound)
    | opening wait att =>
      rw [hthread] at hsound
      exact absurd hopens (Counted.ne_fifty hsound)

def unplugged : List OutageEvent :=
  .returned :: (List.replicate 50 [.attempt, .opened false]).flatten

theorem crashes_iff_unplugged :
    ∃ s, Transition.run step start unplugged = some s ∧ s.thread = .crashed ∧
      (s.thread = .crashed ↔ s.stop = false ∧ s.opens = failures 50) := by
  have hrun : Transition.run step start unplugged = some ⟨.crashed, false, failures 50⟩ := by
    decide
  exact ⟨_, hrun, rfl, crashes_iff (Transition.reachable_run .start hrun)⟩

end Outage

end RtlTcp
end SdrServer
