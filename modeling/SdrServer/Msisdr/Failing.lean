import SdrServer.Msisdr.Cancel

namespace SdrServer
namespace Msisdr
namespace Async

def unsent (slots : List (Option Urb)) : List Urb := slots.reduceOption.filter fun urb => !urb.inFlight

theorem unsent_cons (slot : Option Urb) (slots : List (Option Urb)) :
    unsent (slot :: slots) = unsent [slot] ++ unsent slots := by
  cases slot with
  | none => rfl
  | some urb => cases hflight : urb.inFlight <;> simp [unsent, List.reduceOption, hflight]

theorem reverse_unsent (slot : Option Urb) : (unsent [slot]).reverse = unsent [slot] := by
  cases slot with
  | none => rfl
  | some urb => cases hflight : urb.inFlight <;> simp [unsent, List.reduceOption, hflight]

-- the callbacks that give up the transfer and with it the stream
def Gives (status : TransferStatus) (submitted : Bool) : Prop :=
  status = .noDevice ∨ submitted = false ∧ status ∈ [.completed, .error, .timedOut, .stall]

section Abandoned

variable {s : Async}

theorem libusbCallback_gives {status : TransferStatus} {submitted : Bool} (h : Gives status submitted)
    (hrunning : s.status = .running) (i : Nat) :
    s.libusbCallback i status submitted = { s with xfer := s.xfer.set i none, status := .failed } := by
  have hfail : (s.put i none).fail = { s with xfer := s.xfer.set i none, status := .failed } :=
    if_pos hrunning
  rw [← hfail]
  rcases h with rfl | ⟨rfl, hmem⟩
  · rfl
  · simp only [List.mem_cons, List.not_mem_nil, or_false] at hmem
    rcases hmem with rfl | rfl | rfl | rfl <;> rfl

theorem run_abandoning (hlength : s.xfer.length = s.num) (m : Nat) {i : Nat} (hi : i + m = s.num)
    (hr : s.reader = .abandoning i) :
    Transition.run step s (List.replicate m .read) =
      some { s with
        reader := .abandoning s.num
        misuses := ((unsent (s.xfer.drop i)).map .cancelledIdle).reverse ++ s.misuses } := by
  induction m generalizing s i with
  | zero =>
    obtain rfl : i = s.num := by omega
    have hnone : s.xfer.drop s.num = [] := List.drop_eq_nil_of_le (by omega)
    simp [Transition.run, hnone, unsent, ← hr]
  | succ m ih =>
    have hlt : i < s.num := by omega
    have hlt' : i < s.xfer.length := by omega
    have hread : s.step .read =
        some { s with
          reader := .abandoning (i + 1)
          misuses := ((unsent [s.xfer[i]]).map .cancelledIdle) ++ s.misuses } := by
      rw [step, read, hr]
      simp only [hlt, if_true, List.getElem?_eq_getElem hlt', Option.map_some]
      cases hslot : s.xfer[i] with
      | none => rfl
      | some urb =>
        simp only [Option.elim, cancelTransfer, unsent]
        cases hflight : urb.inFlight <;> simp [hflight]
    have hrest := ih (s := { s with
        reader := .abandoning (i + 1)
        misuses := ((unsent [s.xfer[i]]).map .cancelledIdle) ++ s.misuses })
      hlength (show i + 1 + m = s.num by omega) rfl
    rw [List.replicate_succ, Transition.run, hread, Option.bind_some, hrest,
      List.drop_eq_getElem_cons hlt', unsent_cons s.xfer[i] (s.xfer.drop (i + 1))]
    simp only [List.map_append, List.reverse_append, List.append_assoc, ← List.map_reverse,
      reverse_unsent]

-- nothing is waited for
theorem run_dropping (hlength : s.xfer.length = s.num) (hr : s.reader = .waiting)
    (hstatus : s.status = .failed) (hdrained : ∀ urb, some urb ∈ s.xfer → urb.status.Drained) :
    Transition.run step s (.handled .ok :: List.replicate (s.num + 2) .read) =
      some { s with
        status := .inactive
        xfer := []
        reader := .returned (-1)
        misuses := (inFlight s.xfer).map .freedInFlight ++
          (((unsent s.xfer).map .cancelledIdle).reverse ++ s.misuses) } := by
  have hhandled : s.step (.handled .ok) = some s.abandon := by
    simp [step, handled, hr, hstatus]
  have hvisits := run_abandoning (s := s.abandon) hlength s.num (Nat.zero_add _) rfl
  have hdone : ∀ misuses, ¬ Undrained
      { s with status := .canceling, reader := .draining 0, misuses } 0 := by
    rintro misuses ⟨-, urb, hmem, hnot⟩
    exact hnot (hdrained urb (List.reduceOption_mem_iff.mp hmem))
  rw [Transition.run, hhandled, Option.bind_some, List.replicate_add, Transition.run_append, hvisits]
  simp only [Option.bind_some, List.drop_zero, abandon, List.replicate_succ, List.replicate_zero,
    Transition.run, step, read, lt_irrefl, if_false, hdone, asyncFree]

theorem mem_set_none {slots : List (Option Urb)} {i : Nat} {urb : Urb} :
    some urb ∈ slots.set i none ↔ ∃ k, k ≠ i ∧ slots[k]? = some (some urb) := by
  rw [List.mem_iff_getElem?]
  refine exists_congr fun k => ?_
  rw [List.getElem?_set]
  by_cases hk : i = k
  · rw [if_pos hk]
    constructor
    · intro h
      split at h <;> cases h
    · exact fun h => absurd hk.symm h.1
  · rw [if_neg hk]
    exact ⟨fun h => ⟨fun heq => hk heq.symm, h⟩, And.right⟩

-- what is left in the slots when the stream ends is misused one way or the other
theorem mem_misuses {slots : List (Option Urb)} {urb : Urb} (h : some urb ∈ slots) :
    (if urb.inFlight then Misuse.freedInFlight urb else .cancelledIdle urb) ∈
      (inFlight slots).map .freedInFlight ++ ((unsent slots).map .cancelledIdle).reverse := by
  have hmem := List.reduceOption_mem_iff.mpr h
  rw [List.mem_append, List.mem_reverse]
  split
  · rename_i hflight
    exact Or.inl (List.mem_map_of_mem (List.mem_filter.mpr ⟨hmem, hflight⟩))
  · rename_i hidle
    exact Or.inr (List.mem_map_of_mem (List.mem_filter.mpr ⟨hmem, by simpa using hidle⟩))

end Abandoned

-- the drain loop of failed_free takes a transfer that was resubmitted after it completed for one that
-- has ended
theorem failure_frees (kind : TransferKind) (num : Nat) {s : Async}
    (h : Transition.Reaches step Streaming (start kind num) s) (hrunning : s.status = .running)
    {i : Nat} {urb : Urb} (hslot : s.xfer[i]? = some (some urb)) (hflight : urb.inFlight = true)
    {status : TransferStatus} {submitted : Bool} (hgives : Gives status submitted)
    (hdrained : ∀ k other, k ≠ i → s.xfer[k]? = some (some other) → other.status.Drained) :
    ∃ t, Transition.run step s
        (.completed i status submitted :: .handled .ok :: List.replicate (s.num + 2) .read) = some t ∧
      t.reader = .returned (-1) ∧
      (∀ k other, k ≠ i → s.xfer[k]? = some (some other) →
        (if other.inFlight then Misuse.freedInFlight other else .cancelledIdle other) ∈ t.misuses) ∧
      (t.misuses = [] ↔ ∀ k other, k ≠ i → s.xfer[k]? ≠ some (some other)) := by
  have hs := (undisturbed_start kind num).reaches h
  have hr : s.reader = .waiting := by simpa [hrunning] using hs.reader
  have hmisuses := hs.clean.misuses (by rw [hr]; exact id)
  have hlength := hs.clean.length (by simp [hr])
  have hfailed : s.step (.completed i status submitted) =
      some { s with xfer := s.xfer.set i none, status := .failed } := by
    simp only [step, completed, hslot, hflight, if_true]
    rw [libusbCallback_gives hgives hrunning]
  have hrun := run_dropping (s := { s with xfer := s.xfer.set i none, status := .failed })
    (by rw [List.length_set, hlength]) hr rfl (by
      intro other hother
      obtain ⟨k, hk, hget⟩ := mem_set_none.mp hother
      exact hdrained k other hk hget)
  refine ⟨_, by rw [Transition.run, hfailed]; exact hrun, rfl, ?_⟩
  simp only [hmisuses, List.append_nil]
  have hleft : ∀ k other, k ≠ i → s.xfer[k]? = some (some other) →
      (if other.inFlight then Misuse.freedInFlight other else .cancelledIdle other) ∈
        (inFlight (s.xfer.set i none)).map .freedInFlight ++
          ((unsent (s.xfer.set i none)).map .cancelledIdle).reverse :=
    fun k other hk hget => mem_misuses (mem_set_none.mpr ⟨k, hk, hget⟩)
  refine ⟨hleft, ⟨fun hnone k other hk hget => ?_, fun hgone => ?_⟩⟩
  · have hmem := hleft k other hk hget
    rw [hnone] at hmem
    cases hmem
  · have hempty : (s.xfer.set i none).reduceOption = [] := by
      rw [List.eq_nil_iff_forall_not_mem]
      intro other hother
      obtain ⟨k, hk, hget⟩ := mem_set_none.mp (List.reduceOption_mem_iff.mp hother)
      exact hgone k other hk hget
    simp [inFlight, unsent, hempty]

def twoInFlight : Async :=
  ⟨.running, .bulk, 2, [some ⟨.completed, true⟩, some ⟨.completed, true⟩], .waiting, .idle, []⟩

theorem failure_frees_unplugged : ∃ t, Transition.run step twoInFlight
      (.completed 0 .noDevice false :: .handled .ok :: List.replicate 4 .read) = some t ∧
    Misuse.freedInFlight ⟨.completed, true⟩ ∈ t.misuses := by
  have hstreaming : ∀ e ∈ [AsyncEvent.submit true, .submit true, .read], ∀ s, Streaming s e := by
    simp [Streaming]
  have hreach : Transition.Reaches step Streaming (start .bulk 2) twoInFlight :=
    Transition.reaches_run .start hstreaming (by decide)
  have hdrained : ∀ k other, k ≠ 0 → twoInFlight.xfer[k]? = some (some other) →
      other.status.Drained := by
    intro k other hk hget
    rcases k with - | - | k
    · exact absurd rfl hk
    · cases hget
      decide
    · cases hget
  have hgives : Gives .noDevice false := Or.inl rfl
  obtain ⟨t, hrun, -, hleft, -⟩ := failure_frees .bulk 2 hreach rfl (i := 0) rfl rfl hgives hdrained
  exact ⟨t, hrun, hleft 1 _ (by decide) rfl⟩

section Restarted

variable {s : Async}

def stopped (n : Nat) : List (Option Urb) := List.replicate n (some ⟨.cancelled, false⟩)

def resubmitted (n : Nat) : List (Option Urb) := List.replicate n (some ⟨.cancelled, true⟩)

theorem run_resubmits (m : Nat) {i : Nat} (hxfer : s.xfer = resubmitted i ++ stopped m)
    (hcontrol : s.control = .starting i) :
    Transition.run step s (List.replicate m (.resubmit true)) =
      some { s with xfer := resubmitted (i + m), control := .starting (i + m) } := by
  induction m generalizing s i with
  | zero =>
    have hall : s.xfer = resubmitted i := by simpa [stopped] using hxfer
    simp [Transition.run, ← hall, ← hcontrol]
  | succ m ih =>
    have hget : s.xfer[i]? = some (some ⟨.cancelled, false⟩) := by
      rw [hxfer, List.getElem?_append_right (by simp [resubmitted])]
      simp [resubmitted, stopped]
    have hset : s.xfer.set i (some ⟨.cancelled, true⟩) = resubmitted (i + 1) ++ stopped m := by
      rw [hxfer, List.set_append_right _ _ (by simp [resubmitted]), resubmitted, resubmitted,
        List.replicate_succ', List.append_assoc]
      simp [stopped, List.replicate_succ]
    have hstep : s.step (.resubmit true) = some { s with
        xfer := resubmitted (i + 1) ++ stopped m
        control := .starting (i + 1) } := by
      simp [step, resubmit, hcontrol, hget, put, hset]
    have hrest := ih (s := { s with
        xfer := resubmitted (i + 1) ++ stopped m
        control := .starting (i + 1) }) rfl rfl
    rw [List.replicate_succ, Transition.run, hstep, Option.bind_some, hrest]
    simp [Nat.add_assoc, Nat.add_comm 1 m]

theorem visit_resubmitted {n i : Nat} (hxfer : s.xfer = resubmitted n) (hi : i < n) :
    s.visit i = some (s, true) := by
  have hget : s.xfer[i]? = some (some ⟨.cancelled, true⟩) := by
    rw [hxfer, resubmitted, List.getElem?_replicate, if_pos hi]
  simp [visit, hget]

theorem run_resubmitted_visits (hxfer : s.xfer = resubmitted s.num) (m : Nat) {i : Nat}
    (hi : i + m = s.num) (hr : s.reader = .cancelling i true) :
    Transition.run step s (List.replicate m .read) =
      some { s with reader := .cancelling s.num true } := by
  induction m generalizing s i with
  | zero =>
    obtain rfl : i = s.num := by omega
    simp [Transition.run, ← hr]
  | succ m ih =>
    have hlt : i < s.num := by omega
    have hread : s.step .read = some { s with reader := .cancelling (i + 1) true } := by
      rw [step, read, hr]
      simp only [hlt, if_true, visit_resubmitted hxfer hlt, Option.map_some, Bool.and_true]
    rw [List.replicate_succ, Transition.run, hread, Option.bind_some]
    exact ih (s := { s with reader := .cancelling (i + 1) true }) hxfer
      (show i + 1 + m = s.num by omega) rfl

end Restarted

-- the transfers that msisdr_start_async resubmitted still say that they were cancelled, and a stream
-- that is told to end before they completed takes their word
theorem restart_frees {s : Async} (hpaused : s.status = .paused) (hr : s.reader = .waiting)
    (hidle : s.control = .idle) (hxfer : s.xfer = stopped s.num) :
    ∃ t, Transition.run step s
        ((.start :: List.replicate s.num (.resubmit true)) ++ [.control, .control, .cancel, .handled .ok] ++
          List.replicate (s.num + 1) .read ++ [.handled .ok]) = some t ∧
      t.reader = .returned 0 ∧
      t.misuses = List.replicate s.num (.freedInFlight ⟨.cancelled, true⟩) ++ s.misuses := by
  have hstart : s.step .start = some { s with control := .starting 0 } := by
    simp [step, startAsync, hidle, hpaused]
  have hresubmit := run_resubmits (s := { s with control := .starting 0 }) s.num (i := 0) hxfer rfl
  have hcancel : Transition.run step
      { s with xfer := resubmitted s.num, control := .starting s.num }
      [.control, .control, .cancel, .handled .ok] = some { s with
        status := .canceling
        xfer := resubmitted s.num
        reader := .cancelling 0 true
        control := .idle } := by
    simp [Transition.run, step, controlStep, hpaused, cancelAsync, handled, hr]
  have hvisits := run_resubmitted_visits (s := { s with
      status := .canceling
      xfer := resubmitted s.num
      reader := .cancelling 0 true
      control := .idle }) rfl s.num (Nat.zero_add _) rfl
  have hflight : inFlight (resubmitted s.num) = List.replicate s.num ⟨.cancelled, true⟩ := by
    simp [inFlight, resubmitted, List.reduceOption]
  refine ⟨{ s with
      status := .inactive
      xfer := []
      reader := .returned 0
      control := .idle
      misuses := List.replicate s.num (.freedInFlight ⟨.cancelled, true⟩) ++ s.misuses }, ?_, rfl, rfl⟩
  rw [Nat.zero_add] at hresubmit
  rw [Transition.run_append, Transition.run_append, Transition.run_append, Transition.run, hstart,
    Option.bind_some, hresubmit, Option.bind_some, hcancel, Option.bind_some, List.replicate_succ',
    Transition.run_append, hvisits]
  simp [Transition.run, step, read, handled, asyncFree, hflight]

def pausedTwo : Async :=
  ⟨.paused, .bulk, 2, stopped 2, .waiting, .idle, []⟩

theorem restart_frees_two :
    Transition.run step (start .bulk 2) [.submit true, .submit true, .read, .stop, .control, .control,
      .control, .completed 0 .cancelled true, .completed 1 .cancelled true, .stopHandled .ok, .control,
      .control, .control, .control] = some pausedTwo ∧
    ∃ t, Transition.run step pausedTwo
      [.start, .resubmit true, .resubmit true, .control, .control, .cancel, .handled .ok, .read, .read,
        .read, .handled .ok] = some t ∧ t.reader = .returned 0 ∧
    t.misuses = [.freedInFlight ⟨.cancelled, true⟩, .freedInFlight ⟨.cancelled, true⟩] :=
  ⟨by decide, restart_frees (s := pausedTwo) rfl rfl rfl rfl⟩

end Async
end Msisdr
end SdrServer
