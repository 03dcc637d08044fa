import Mathlib.Data.Nat.Bitwise
import Mathlib.Data.List.Pairwise

structure BitField where
  offset : Nat
  width : Nat
  value : Nat
  deriving DecidableEq, Repr

namespace BitFields

def word : List BitField → Nat
  | [] => 0
  | f :: fs => f.value <<< f.offset ||| word fs

def read (offset width w : Nat) : Nat := (w >>> offset) % 2 ^ width

def Apart (f g : BitField) : Prop :=
  f.offset + f.width ≤ g.offset ∨ g.offset + g.width ≤ f.offset

instance : Std.Symm Apart := ⟨fun _ _ h => h.symm⟩

instance (f g : BitField) : Decidable (Apart f g) := inferInstanceAs (Decidable (_ ∨ _))

def Fits (fs : List BitField) : Prop := ∀ f ∈ fs, f.value < 2 ^ f.width

instance (fs : List BitField) : Decidable (Fits fs) := inferInstanceAs (Decidable (∀ _ ∈ _, _))

variable {fs : List BitField} {f : BitField}

@[simp] theorem word_nil : word [] = 0 := rfl

@[simp] theorem word_cons : word (f :: fs) = f.value <<< f.offset ||| word fs := rfl

theorem fits_cons : Fits (f :: fs) ↔ f.value < 2 ^ f.width ∧ Fits fs := by
  simp [Fits]

theorem testBit_word (fs : List BitField) (i : Nat) :
    (word fs).testBit i = fs.any fun f => decide (f.offset ≤ i) && f.value.testBit (i - f.offset) := by
  induction fs with
  | nil => simp
  | cons f fs ih => rw [word_cons, Nat.testBit_or, Nat.testBit_shiftLeft, ih, List.any_cons]

theorem testBit_value (h : f.value < 2 ^ f.width) {i : Nat} (hi : f.width ≤ i) :
    f.value.testBit i = false :=
  Nat.testBit_lt_two_pow (Nat.lt_of_lt_of_le h (Nat.pow_le_pow_right (by decide) hi))

theorem read_testBit (offset width w i : Nat) :
    (read offset width w).testBit i = (decide (i < width) && w.testBit (offset + i)) := by
  rw [read, Nat.testBit_mod_two_pow, Nat.testBit_shiftRight]

theorem word_lt {n : Nat} (hfits : Fits fs) (hn : ∀ f ∈ fs, f.offset + f.width ≤ n) :
    word fs < 2 ^ n := by
  apply Nat.lt_pow_two_of_testBit
  intro i hi
  rw [testBit_word, List.any_eq_false]
  intro f hf
  have hbit : f.value.testBit (i - f.offset) = false := by
    apply testBit_value (hfits f hf)
    have := hn f hf
    omega
  simp [hbit]

-- only the field that is read has bits at its place
theorem read_word (hfits : Fits fs) (hapart : fs.Pairwise Apart) (hf : f ∈ fs) :
    read f.offset f.width (word fs) = f.value := by
  have hothers : ∀ g ∈ fs, g ≠ f → Apart f g := fun g hg hne => hapart.forall hf hg hne.symm
  apply Nat.eq_of_testBit_eq
  intro i
  rw [read_testBit]
  by_cases hi : i < f.width
  · rw [decide_eq_true hi, Bool.true_and, testBit_word]
    cases hbit : f.value.testBit i with
    | true =>
      rw [List.any_eq_true]
      exact ⟨f, hf, by simp [hbit]⟩
    | false =>
      rw [List.any_eq_false]
      intro g hg
      by_cases hgf : g = f
      · simp [hgf, hbit]
      · have hg : g.offset ≤ f.offset + i → g.value.testBit (f.offset + i - g.offset) = false := by
          intro hle
          apply testBit_value (hfits g hg)
          have := hothers g hg hgf
          unfold Apart at this
          omega
        simpa using hg
  · rw [decide_eq_false hi, Bool.false_and, testBit_value (hfits f hf) (by omega)]

end BitFields
