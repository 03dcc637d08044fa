import Mathlib.Init

namespace Transition

variable {σ ε : Type} (step : σ → ε → Option σ)

def run : σ → List ε → Option σ
  | s, [] => some s
  | s, e :: es => (step s e).bind (run · es)

inductive Reaches (ok : σ → ε → Prop) (init : σ) : σ → Prop
  | start : Reaches ok init init
  | next {s t : σ} {e : ε} : Reaches ok init s → ok s e → step s e = some t → Reaches ok init t

abbrev Reachable (init : σ) : σ → Prop := Reaches step (fun _ _ => True) init

variable {step} {ok ok' : σ → ε → Prop} {init : σ}

theorem run_append (s : σ) (es fs : List ε) :
    run step s (es ++ fs) = (run step s es).bind (run step · fs) := by
  induction es generalizing s with
  | nil => rfl
  | cons e es ih =>
    rw [List.cons_append, run, run, Option.bind_assoc]
    exact Option.bind_congr fun m _ => ih m

theorem Reaches.mono (h : ∀ s e, ok s e → ok' s e) {s : σ} (hs : Reaches step ok init s) :
    Reaches step ok' init s := by
  induction hs with
  | start => exact .start
  | next _ hok ht ih => exact ih.next (h _ _ hok) ht

theorem Reaches.reachable {s : σ} (hs : Reaches step ok init s) : Reachable step init s :=
  hs.mono (fun _ _ _ => trivial)

theorem Reaches.trans {s t : σ} (hs : Reaches step ok init s) (ht : Reaches step ok s t) :
    Reaches step ok init t := by
  induction ht with
  | start => exact hs
  | next _ hok hstep ih => exact ih.next hok hstep

theorem Reaches.invariant {P : σ → Prop} (h0 : P init)
    (hstep : ∀ s e t, Reaches step ok init s → P s → ok s e → step s e = some t → P t)
    {s : σ} (hs : Reaches step ok init s) : P s := by
  induction hs with
  | start => exact h0
  | next hprev hok ht ih => exact hstep _ _ _ hprev ih hok ht

theorem reaches_run {s t : σ} {es : List ε} (hs : Reaches step ok init s)
    (hok : ∀ e ∈ es, ∀ s, ok s e) (h : run step s es = some t) : Reaches step ok init t := by
  induction es generalizing s with
  | nil => exact Option.some.inj h ▸ hs
  | cons e es ih =>
    obtain ⟨m, hm, ht⟩ := Option.bind_eq_some_iff.mp h
    exact ih (hs.next (hok e (by simp) s) hm) (fun e he => hok e (by simp [he])) ht

theorem reachable_run {s t : σ} {es : List ε} (hs : Reachable step init s)
    (h : run step s es = some t) : Reachable step init t :=
  reaches_run hs (fun _ _ _ => trivial) h

def guarded (step : σ → ε → Option σ) (ok : σ → ε → Prop) [∀ s e, Decidable (ok s e)] :
    σ → ε → Option σ := fun s e => if ok s e then step s e else none

theorem reaches_guarded [∀ s e, Decidable (ok s e)] {s t : σ} {es : List ε}
    (hs : Reaches step ok init s) (h : run (guarded step ok) s es = some t) :
    Reaches step ok init t := by
  induction es generalizing s with
  | nil => exact Option.some.inj h ▸ hs
  | cons e es ih =>
    obtain ⟨m, hm, ht⟩ := Option.bind_eq_some_iff.mp h
    unfold guarded at hm
    split at hm
    · rename_i hok
      exact ih (hs.next hok hm) ht
    · cases hm

-- `P` in every state of the run of `es`, and `ok` at every step of it
def Throughout (step : σ → ε → Option σ) (P : σ → Prop) : σ → List ε → Prop
  | s, [] => P s
  | s, e :: es => P s ∧ ∀ t, step s e = some t → Throughout step P t es

def Along (step : σ → ε → Option σ) (ok : σ → ε → Prop) : σ → List ε → Prop
  | _, [] => True
  | s, e :: es => ok s e ∧ ∀ t, step s e = some t → Along step ok t es

theorem along_forall {ok : ε → Prop} {s t : σ} {es : List ε} (h : run step s es = some t) :
    Along step (fun _ e => ok e) s es ↔ ∀ e ∈ es, ok e := by
  induction es generalizing s with
  | nil => simp [Along]
  | cons e es ih =>
    obtain ⟨m, hm, ht⟩ := Option.bind_eq_some_iff.mp h
    rw [Along, List.forall_mem_cons]
    refine and_congr_right fun _ => ⟨fun hall => (ih ht).mp (hall m hm), ?_⟩
    intro hall m' hm'
    obtain rfl : m = m' := Option.some.inj (hm.symm.trans hm')
    exact (ih ht).mpr hall

theorem Throughout.first {P : σ → Prop} {s : σ} {es : List ε} (h : Throughout step P s es) :
    P s := by
  cases es with
  | nil => exact h
  | cons e es => exact h.1

theorem throughout_iff {P I : σ → Prop} (hP : ∀ s, I s → P s)
    (hkeep : ∀ s e t, I s → ok s e → step s e = some t → I t)
    (hbreak : ∀ s e t, I s → ¬ ok s e → step s e = some t → ¬ P t) {s t : σ} {es : List ε}
    (hs : I s) (h : run step s es = some t) : Throughout step P s es ↔ Along step ok s es := by
  induction es generalizing s with
  | nil => exact ⟨fun _ => trivial, fun _ => hP s hs⟩
  | cons e es ih =>
    obtain ⟨m, hm, ht⟩ := Option.bind_eq_some_iff.mp h
    constructor
    · rintro ⟨-, hrest⟩
      have hok : ok s e := Classical.byContradiction fun hno => hbreak s e m hs hno hm (hrest m hm).first
      refine ⟨hok, ?_⟩
      intro t' ht'
      obtain rfl : m = t' := Option.some.inj (hm.symm.trans ht')
      exact (ih (hkeep s e m hs hok hm) ht).mp (hrest m hm)
    · rintro ⟨hok, hrest⟩
      refine ⟨hP s hs, ?_⟩
      intro t' ht'
      obtain rfl : m = t' := Option.some.inj (hm.symm.trans ht')
      exact (ih (hkeep s e m hs hok hm) ht).mpr (hrest m hm)

-- `R m` is at most `m` steps away from `R 0`, which stays
theorem countdown {R : Nat → σ → Prop}
    (hstep : ∀ m s e, R (m + 1) s → ∃ t, step s e = some t ∧ R m t)
    (hstay : ∀ s e, R 0 s → ∃ t, step s e = some t ∧ R 0 t) {m : Nat} {s : σ} {es : List ε}
    (hs : R m s) (hlen : m ≤ es.length) : ∃ t, run step s es = some t ∧ R 0 t := by
  induction es generalizing m s with
  | nil =>
    obtain rfl : m = 0 := by simpa using hlen
    exact ⟨s, rfl, hs⟩
  | cons e es ih =>
    have hnext : ∃ t m', step s e = some t ∧ R m' t ∧ m' ≤ es.length := by
      cases m with
      | zero =>
        obtain ⟨t, ht, hR⟩ := hstay s e hs
        exact ⟨t, 0, ht, hR, Nat.zero_le _⟩
      | succ m =>
        obtain ⟨t, ht, hR⟩ := hstep m s e hs
        exact ⟨t, m, ht, hR, by simpa using hlen⟩
    obtain ⟨t, m', ht, hR, hle⟩ := hnext
    obtain ⟨u, hu, hR0⟩ := ih hR hle
    refine ⟨u, ?_, hR0⟩
    rw [run, ht]
    exact hu

end Transition
