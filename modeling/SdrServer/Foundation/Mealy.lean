import Mathlib.Data.List.Basic

namespace Mealy

variable {S E O : Type}

def run (step : E → S → Option (O × S)) : List E → S → Option (List O × S)
  | [], s => some ([], s)
  | e :: es, s => do
    let (o, s) ← step e s
    let (os, s) ← run step es s
    some (o :: os, s)

variable {step step' : E → S → Option (O × S)} {P : S → Prop}

theorem run_cons {e : E} {es : List E} {s t : S} {os : List O} :
    run step (e :: es) s = some (os, t) ↔
      ∃ o m rest, step e s = some (o, m) ∧ run step es m = some (rest, t) ∧ os = o :: rest := by
  constructor
  · intro h
    obtain ⟨⟨o, m⟩, hstep, hrest⟩ := Option.bind_eq_some_iff.mp h
    obtain ⟨⟨rest, u⟩, hrun, hout⟩ := Option.bind_eq_some_iff.mp hrest
    obtain ⟨rfl, rfl⟩ := Prod.mk.inj (Option.some.inj hout)
    exact ⟨o, m, rest, hstep, hrun, rfl⟩
  · rintro ⟨o, m, rest, hstep, hrun, rfl⟩
    simp [run, hstep, hrun]

theorem run_invariant (hstep : ∀ s e o t, P s → step e s = some (o, t) → P t) {es : List E}
    {s t : S} {os : List O} (hs : P s) (h : run step es s = some (os, t)) : P t := by
  induction es generalizing s os with
  | nil =>
    obtain ⟨-, rfl⟩ := Prod.mk.inj (Option.some.inj h)
    exact hs
  | cons e es ih =>
    obtain ⟨o, m, rest, hm, hrun, -⟩ := run_cons.mp h
    exact ih (hstep s e o m hs hm) hrun

theorem run_congr (hstep : ∀ s e o t, P s → step e s = some (o, t) → P t)
    (hsame : ∀ s e, P s → step e s = step' e s) {s : S} (hs : P s) (es : List E) :
    run step es s = run step' es s := by
  induction es generalizing s with
  | nil => rfl
  | cons e es ih =>
    rw [run, run, ← hsame s e hs]
    cases hm : step e s with
    | none => rfl
    | some r =>
      obtain ⟨o, m⟩ := r
      have hnext := ih (hstep s e o m hs hm)
      simp only [Option.bind_eq_bind, Option.bind_some, hnext]

theorem run_total {ok : E → Prop}
    (hstep : ∀ s e, P s → ok e → ∃ o t, step e s = some (o, t) ∧ P t) {es : List E} {s : S}
    (hs : P s) (hes : ∀ e ∈ es, ok e) : ∃ os t, run step es s = some (os, t) ∧ P t := by
  induction es generalizing s with
  | nil => exact ⟨[], s, rfl, hs⟩
  | cons e es ih =>
    obtain ⟨o, m, hm, hmid⟩ := hstep s e hs (hes e List.mem_cons_self)
    obtain ⟨rest, t, hrun, ht⟩ := ih hmid fun e he => hes e (List.mem_cons_of_mem _ he)
    exact ⟨o :: rest, t, run_cons.mpr ⟨o, m, rest, hm, hrun, rfl⟩, ht⟩

section Projection

variable {T A P : Type} {solo : A → T → Option (P × T)} {pick : E → Option A}
  {out : O → Option P} {R : List E → S → T → Prop}

theorem run_filterMap
    (hpicked : ∀ e es s u a o t, R (e :: es) s u → pick e = some a → step e s = some (o, t) →
      ∃ p v, solo a u = some (p, v) ∧ out o = some p ∧ R es t v)
    (hskipped : ∀ e es s u o t, R (e :: es) s u → pick e = none → step e s = some (o, t) →
      out o = none ∧ R es t u)
    {es : List E} {s t : S} {os : List O} {u : T} (hR : R es s u)
    (h : run step es s = some (os, t)) :
    ∃ v, run solo (es.filterMap pick) u = some (os.filterMap out, v) := by
  induction es generalizing s os u with
  | nil =>
    obtain ⟨rfl, -⟩ := Prod.mk.inj (Option.some.inj h)
    exact ⟨u, rfl⟩
  | cons e es ih =>
    obtain ⟨o, m, rest, hm, hrun, rfl⟩ := run_cons.mp h
    cases hpick : pick e with
    | none =>
      obtain ⟨hout, hnext⟩ := hskipped e es s u o m hR hpick hm
      rw [List.filterMap_cons_none hpick, List.filterMap_cons_none hout]
      exact ih hnext hrun
    | some a =>
      obtain ⟨p, w, hsolo, hout, hnext⟩ := hpicked e es s u a o m hR hpick hm
      rw [List.filterMap_cons_some hpick, List.filterMap_cons_some hout]
      obtain ⟨v, hv⟩ := ih hnext hrun
      exact ⟨v, run_cons.mpr ⟨p, w, _, hsolo, hv, rfl⟩⟩

end Projection

end Mealy
