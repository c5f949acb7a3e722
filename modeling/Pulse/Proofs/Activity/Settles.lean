import Pulse.Proofs.Activity.Alone

/-!
# Activities that come to an end when left alone

`Settles Q a t s` says that, with nothing else going on, the activity `a` that begins at time `t` in
state `s` comes to its end without a crash, and that `Q` holds then.  It is up to the clock when the
activity goes on after a wait: there has to be such a moment, and all of them have to lead to the
end.

* `Settles.bind`, `Settles.guarded` — the rules for the ways in which activities are made.
* `Settles.of_alone` — every end is as `Q` says.
-/

set_option autoImplicit false

namespace Pulse.Activity

variable {σ π α β : Type} {Q : α → Nat → σ → Prop}

/-- Left alone, the activity comes to its end without a crash, and `Q` holds then. -/
def Settles (Q : α → Nat → σ → Prop) : Activity σ π α → Nat → σ → Prop
  | done a, t, s => Q a t s
  | crash, _, _ => False
  | look next, t, s => Settles Q (next t s) t s
  | put s next, t, _ => Settles Q next t s
  | wait ready alarm _ next, t, s =>
    (∃ t₁, t ≤ t₁ ∧ (ready s || rang alarm t₁) = true) ∧
      ∀ t₁, t ≤ t₁ → (ready s || rang alarm t₁) = true → Settles Q next t₁ s
  | spawn _ next, t, s => Settles Q next t s

namespace Settles

variable {t t' : Nat} {s s' : σ}

/-! ## Rules -/

/-- One activity after the other: the first has to end where the second can begin. -/
theorem bind {a : Activity σ π β} {f : β → Activity σ π α}
    (h : Settles (fun b t s => Settles Q (f b) t s) a t s) : Settles Q (a >>= f) t s := by
  show Settles Q (Activity.bind a f) t s
  induction a generalizing t s with
  | done b => exact h
  | crash => exact h
  | look next ih => exact ih t s h
  | put s' next ih => exact ih h
  | wait ready alarm abandon next ih => exact ⟨h.1, fun t₁ hle hgo => ih (h.2 t₁ hle hgo)⟩
  | spawn p next ih => exact ih h

theorem mono {Q' : α → Nat → σ → Prop} (hQ : ∀ a t s, Q' a t s → Q a t s) {a : Activity σ π α}
    (h : Settles Q' a t s) : Settles Q a t s := by
  induction a generalizing t s with
  | done a => exact hQ a t s h
  | crash => exact h
  | look next ih => exact ih t s h
  | put s' next ih => exact ih h
  | wait ready alarm abandon next ih => exact ⟨h.1, fun t₁ hle hgo => ih (h.2 t₁ hle hgo)⟩
  | spawn p next ih => exact ih h

theorem clock {Q : Nat → Nat → σ → Prop} (h : Q t t s) :
    Settles Q (Activity.clock : Activity σ π Nat) t s :=
  h

/-- What is done at the end of an activity is one more change. -/
theorem guarded {release : σ → σ} {a : Activity σ π α}
    (h : Settles (fun a t s => Q a t (release s)) a t s) :
    Settles Q (Activity.guarded release a) t s := by
  induction a generalizing t s with
  | done a => exact h
  | crash => exact h
  | look next ih => exact ih t s h
  | put s' next ih => exact ih h
  | wait ready alarm abandon next ih => exact ⟨h.1, fun t₁ hle hgo => ih (h.2 t₁ hle hgo)⟩
  | spawn p next ih => exact ih h

/-- Waiting for an alarm. -/
theorem alarm {Q : Unit → Nat → σ → Prop} (due : Nat)
    (h : ∀ t₁, t ≤ t₁ → rang (some due) t₁ = true → Q () t₁ s) :
    Settles Q (wait (fun _ => false) (some due) id (.done ()) : Activity σ π Unit) t s :=
  ⟨⟨max t due, Nat.le_max_left .., decide_eq_true (Nat.le_max_right ..)⟩, h⟩

/-! ## Ends -/

/-- **Whenever an activity goes on**, it ends as it was said to. -/
theorem of_alone {a : Activity σ π α} {b : α} (h : Settles Q a t s) (halone : Alone a t s b t' s') :
    Q b t' s' := by
  induction halone with
  | done a t s => exact h
  | look _ ih => exact ih h
  | put _ ih => exact ih h
  | wait hle hgo _ ih => exact ih (h.2 _ hle hgo)
  | spawn _ ih => exact ih h

end Settles

end Pulse.Activity
