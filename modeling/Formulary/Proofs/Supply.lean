import Formulary.Ty.Scheme
import Mathlib

/-!
The supply of variables only moves forward. As long as it has not run over its largest number, the
numbers it hands out are larger than all numbers before.
-/

namespace Formulary.Supply

/-- A supply is before another if the other can be reached by handing out variables. -/
instance : Preorder Supply where
  le s s' := s.first = s'.first ∧ s.drawn ≤ s'.drawn
  le_refl s := ⟨rfl, Nat.le_refl _⟩
  le_trans s₁ s₂ s₃ h₁ h₂ := ⟨h₁.1.trans h₂.1, Nat.le_trans h₁.2 h₂.2⟩

/-- Whether every number handed out so far, and the next one, have sixty-four bits of their own: the
largest number has not been followed by the smallest. -/
def Unwrapped (s : Supply) : Prop := -2 ^ 63 ≤ s.first ∧ s.first + s.drawn < 2 ^ 63

instance (s : Supply) : Decidable s.Unwrapped := inferInstanceAs (Decidable (_ ∧ _))

variable {s s' : Supply}

theorem Unwrapped.of_le (h : s'.Unwrapped) (hle : s ≤ s') : s.Unwrapped := by
  obtain ⟨hfirst, hdrawn⟩ := hle
  obtain ⟨hlower, hupper⟩ := h
  exact ⟨by omega, by omega⟩

theorem Unwrapped.next_eq (h : s.Unwrapped) : s.next = s.first + s.drawn := by
  obtain ⟨hlower, hupper⟩ := h
  unfold next
  rw [Int.bmod_eq_of_le (by omega) (by omega)]

theorem Unwrapped.next_le_next (h : s'.Unwrapped) (hle : s ≤ s') : s.next ≤ s'.next := by
  rw [(h.of_le hle).next_eq, h.next_eq]
  obtain ⟨hfirst, hdrawn⟩ := hle
  omega

theorem le_resetCount (s : Supply) : s ≤ s.resetCount := ⟨rfl, Nat.le_refl _⟩

@[simp] theorem next_resetCount (s : Supply) : s.resetCount.next = s.next := rfl

/-- The supply after one more variable. -/
def advance (s : Supply) : Supply := { s with drawn := s.drawn + 1 }

theorem le_advance (s : Supply) : s ≤ s.advance := ⟨rfl, Nat.le_succ _⟩

theorem Unwrapped.next_advance (h : s.advance.Unwrapped) : s.advance.next = s.next + 1 := by
  rw [h.next_eq, (h.of_le s.le_advance).next_eq]
  simp only [advance]
  omega

end Formulary.Supply
