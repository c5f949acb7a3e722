import Pulse.Monitor
import Pulse.Proofs.Decimal.Sign
import Pulse.Proofs.Time.Reading

/-!
# Judgements that come to an end

A record can always be judged, if the multiplier of the liveness window is not negative: the window
is not negative either, and what is stale is older than its window, so the window begins within the
calendar (`exists_verdict`).
-/

set_option autoImplicit false

namespace Pulse.ServerRecord

open Decimal (isNegative)
open Time (Instant Span)

variable {record : ServerRecord} {grace : Float}

theorem windowMillis_nonneg (h : isNegative grace = false) (record : ServerRecord) :
    0 ≤ record.windowMillis grace := by
  have hthousand : isNegative 1000.0 = false := by decide +kernel
  exact Decimal.toInteger_nonneg (Decimal.isNegative_mul
    (Decimal.isNegative_mul (Decimal.isNegative_ofNat _) h) hthousand)

/-- There is a liveness window, and it is not negative. -/
theorem exists_window? (h : isNegative grace = false) (record : ServerRecord) :
    ∃ millis : Int, 0 ≤ millis ∧ record.window? grace = some (Span.ofMillis millis) := by
  have hmillis := windowMillis_nonneg h record
  refine ⟨record.windowMillis grace, hmillis, if_neg fun hmin => ?_⟩
  rw [hmin] at hmillis
  exact absurd hmillis (by decide)

/-- A record with a liveness window that is not negative can be judged at every moment. -/
theorem exists_verdict_of_window? {window : Span} (hwindow : record.window? grace = some window)
    (hnonneg : 0 ≤ window) (now : Instant) :
    ∃ verdict, record.verdict now grace = .ok verdict := by
  rw [verdict]
  cases hseen : record.lastSeen with
  | none => exact ⟨_, rfl⟩
  | some seen =>
    rw [if_neg (by simp)]
    by_cases hon : record.status = .on
    · rw [if_neg (by simp [hon])]
      have hstale : record.isStale? now grace = some (decide (window < now.since seen)) := by
        rw [isStale?, hseen, hwindow]
        rfl
      rw [hstale, hwindow]
      by_cases hlt : window < now.since seen
      · obtain ⟨cutoff, hcutoff⟩ := Instant.exists_sub?_of_lt_since hnonneg hlt
        refine ⟨.silent cutoff, ?_⟩
        simp [Time.require, Instant.sub, hlt, hcutoff, bind, Except.bind, pure, Except.pure]
      · exact ⟨.unchanged, by simp [Time.require, hlt, bind, Except.bind, pure, Except.pure]⟩
    · rw [if_pos hon]
      exact ⟨_, rfl⟩

/-- **Every record can be judged** at every moment. -/
theorem exists_verdict (h : isNegative grace = false) (record : ServerRecord) (now : Instant) :
    ∃ verdict, record.verdict now grace = .ok verdict := by
  obtain ⟨millis, hmillis, hwindow⟩ := exists_window? h record
  exact exists_verdict_of_window? hwindow (Int.mul_nonneg hmillis (by decide)) now

end Pulse.ServerRecord
