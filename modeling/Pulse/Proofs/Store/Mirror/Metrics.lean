import Mathlib
import Pulse.Store.Durable

/-!
# Metrics as they are kept

A database keeps a metric as it is, except that there is no zero with a sign and no metric that is
no number: `DurableStore.storedMetric_eq_self`.  A number that compares equal to zero is one of the
two zeros.
-/

set_option autoImplicit false

namespace Pulse.DurableStore

theorem isNaN_of_isFinite {x : Float} (h : x.isFinite = true) : x.isNaN = false := by
  rw [Float.isNaN_eq_decide_eq_nan, decide_eq_false_iff_not]
  rintro rfl
  exact absurd h (by decide)

/-- A number that compares equal to zero is a zero of either sign. -/
theorem eq_zero_of_beq {x : Float} (h : (x == 0.0) = true) : x = 0.0 ∨ x = -0.0 := by
  have hzero : (0.0 : Float) = 0 := by decide
  rw [hzero] at h ⊢
  obtain ⟨-, -, heq | ⟨heq, -⟩ | ⟨heq, -⟩⟩ := Float.beq_iff_ne_nan_and_eq.1 h
  · exact .inl heq
  · exact .inl heq
  · exact .inr heq

/-- The metric is absent, or a real number other than zero with a minus sign. -/
def IsPlain (x : Option Float) : Prop :=
  ∀ v ∈ x, v.isFinite = true ∧ v ≠ -0.0

instance (x : Option Float) : Decidable (IsPlain x) :=
  inferInstanceAs (Decidable (∀ v ∈ x, v.isFinite = true ∧ v ≠ -0.0))

/-- **A plain metric is kept as it is.** -/
theorem storedMetric_eq_self {x : Option Float} (h : IsPlain x) : storedMetric x = x := by
  cases x with
  | none => rfl
  | some v =>
    obtain ⟨hfinite, hzero⟩ := h v rfl
    have hnumber : ¬v.isNaN = true := by
      rw [isNaN_of_isFinite hfinite]
      exact Bool.false_ne_true
    rw [storedMetric, Option.bind_some, if_neg hnumber]
    split
    · next heq =>
      rcases eq_zero_of_beq heq with rfl | hneg
      · rfl
      · exact absurd hneg hzero
    · rfl

end Pulse.DurableStore
