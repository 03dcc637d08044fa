import Mathlib.Logic.Function.Basic
import Mathlib.Data.List.Nodup

namespace Chain

variable {ι : Type}

def Path (next : ι → Option ι) : Option ι → List ι → Option ι → Prop
  | head, [], stop => head = stop
  | head, x :: xs, stop => head = some x ∧ Path next (next x) xs stop

@[simp] theorem path_nil (next : ι → Option ι) (head stop : Option ι) :
    Path next head [] stop ↔ head = stop := Iff.rfl

@[simp] theorem path_cons (next : ι → Option ι) (head stop : Option ι) (x : ι) (xs : List ι) :
    Path next head (x :: xs) stop ↔ head = some x ∧ Path next (next x) xs stop := Iff.rfl

theorem path_append (next : ι → Option ι) (head stop : Option ι) (xs ys : List ι) :
    Path next head (xs ++ ys) stop ↔ ∃ mid, Path next head xs mid ∧ Path next mid ys stop := by
  induction xs generalizing head with
  | nil => simp
  | cons x xs ih =>
    simp only [List.cons_append, path_cons, ih]
    constructor
    · rintro ⟨hx, mid, hp, hq⟩
      exact ⟨mid, ⟨hx, hp⟩, hq⟩
    · rintro ⟨mid, ⟨hx, hp⟩, hq⟩
      exact ⟨hx, mid, hp, hq⟩

theorem path_concat (next : ι → Option ι) (head stop : Option ι) (xs : List ι) (x : ι) :
    Path next head (xs ++ [x]) stop ↔ Path next head xs (some x) ∧ next x = stop := by
  rw [path_append]
  constructor
  · rintro ⟨mid, hp, rfl, hn⟩
    exact ⟨hp, hn⟩
  · rintro ⟨hp, hn⟩
    exact ⟨_, hp, rfl, hn⟩

theorem path_head (next : ι → Option ι) {head : Option ι} {xs : List ι}
    (h : Path next head xs none) : head = xs.head? := by
  cases xs with
  | nil => exact h
  | cons x xs => exact h.1

theorem path_unique (next : ι → Option ι) {head : Option ι} {xs ys : List ι}
    (hx : Path next head xs none) (hy : Path next head ys none) : xs = ys := by
  induction xs generalizing head ys with
  | nil =>
    cases ys with
    | nil => rfl
    | cons y ys => simp only [path_nil] at hx; simp [hx] at hy
  | cons x xs ih =>
    obtain ⟨rfl, hx⟩ := hx
    cases ys with
    | nil => simp at hy
    | cons y ys =>
      obtain ⟨he, hy⟩ := hy
      obtain rfl : x = y := Option.some.inj he
      rw [ih hx hy]

theorem path_congr {next next' : ι → Option ι} {head stop : Option ι} {xs : List ι}
    (h : ∀ x ∈ xs, next' x = next x) : Path next' head xs stop ↔ Path next head xs stop := by
  induction xs generalizing head with
  | nil => rfl
  | cons x xs ih =>
    rw [path_cons, path_cons, h x (by simp), ih (fun y hy => h y (by simp [hy]))]

section Update

variable [DecidableEq ι]

theorem path_update (next : ι → Option ι) (head stop v : Option ι) {xs : List ι} {y : ι}
    (h : y ∉ xs) : Path (Function.update next y v) head xs stop ↔ Path next head xs stop := by
  apply path_congr
  intro x hx
  have hne : x ≠ y := fun he => h (he ▸ hx)
  rw [Function.update_of_ne hne]

theorem path_link (next : ι → Option ι) {head : Option ι} {xs : List ι} {l y : ι}
    (h : Path next head (xs ++ [l]) none) (hl : l ∉ xs) (hy : y ∉ xs ++ [l])
    (hn : next y = none) :
    Path (Function.update next l (some y)) head (xs ++ [l] ++ [y]) none := by
  rw [path_concat, path_concat]
  have hly : y ≠ l := fun he => hy (by simp [he])
  refine ⟨⟨?_, by simp⟩, ?_⟩
  · rw [path_update next head _ _ hl]
    exact ((path_concat next head none xs l).mp h).1
  · rw [Function.update_of_ne hly, hn]

theorem path_unlink (next : ι → Option ι) {head stop : Option ι} {xs ys : List ι} {p c : ι}
    (h : Path next head (xs ++ [p] ++ c :: ys) stop) (hp : p ∉ xs) (hy : p ∉ ys) :
    Path (Function.update next p (next c)) head (xs ++ [p] ++ ys) stop := by
  obtain ⟨mid, hx, rfl, hc⟩ := (path_append next head stop (xs ++ [p]) (c :: ys)).mp h
  refine (path_append _ head stop (xs ++ [p]) ys).mpr ⟨next c, ?_, ?_⟩
  · rw [path_concat, path_update next head _ _ hp]
    exact ⟨((path_concat next head (some c) xs p).mp hx).1, by simp⟩
  · exact (path_update next (next c) stop (next c) hy).mpr hc

end Update

end Chain
