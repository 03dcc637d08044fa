import Mathlib.Data.List.Basic

-- entries in the order they were written: given up, kept from the last rotation, and recent
structure Generations (E : Type) where
  older : List E
  kept : List E
  recent : List E

namespace Generations

variable {E : Type}

def empty : Generations E := ⟨[], [], []⟩

def all (g : Generations E) : List E := g.older ++ g.kept ++ g.recent

def write (g : Generations E) (e : E) : Generations E := { g with recent := g.recent ++ [e] }

def rotate (g : Generations E) : Generations E := ⟨g.older ++ g.kept, g.recent, []⟩

theorem all_write (g : Generations E) (e : E) : (g.write e).all = g.all ++ [e] := by
  simp only [all, write, List.append_assoc]

theorem all_rotate (g : Generations E) : g.rotate.all = g.all := by
  simp only [all, rotate, List.append_nil]

theorem suffix_all (g : Generations E) : g.kept ++ g.recent <:+ g.all :=
  ⟨g.older, by rw [all, List.append_assoc]⟩

end Generations
