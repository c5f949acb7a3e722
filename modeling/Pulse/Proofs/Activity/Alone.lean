import Pulse.Proofs.Activity

/-!
# Activities with nothing else going on

`Alone a t s b t' s'` says that, if nobody else does anything, the activity `a` that begins at time
`t` in state `s` can end with `b` at time `t'` in state `s'`.  While it waits only the clock goes
on; the activity goes on at some moment at which it does not have to wait any longer.

What an activity comes to is read off the activities of which it is made: `Alone.of_bind`,
`Alone.of_within`, `Alone.of_guarded`.
-/

set_option autoImplicit false

namespace Pulse.Activity

variable {σ π α β : Type}

/-- From its beginning to its end an activity is alone with the state. -/
inductive Alone : Activity σ π α → Nat → σ → α → Nat → σ → Prop
  | done (a : α) (t : Nat) (s : σ) : Alone (done a) t s a t s
  | look {next : Nat → σ → Activity σ π α} {t t' : Nat} {s s' : σ} {a : α}
      (h : Alone (next t s) t s a t' s') : Alone (look next) t s a t' s'
  | put {next : Activity σ π α} {t t' : Nat} {s s₁ s' : σ} {a : α}
      (h : Alone next t s₁ a t' s') : Alone (put s₁ next) t s a t' s'
  | wait {ready : σ → Bool} {alarm : Option Nat} {abandon : σ → σ} {next : Activity σ π α}
      {t t₁ t' : Nat} {s s' : σ} {a : α} (hle : t ≤ t₁) (hgo : (ready s || rang alarm t₁) = true)
      (h : Alone next t₁ s a t' s') : Alone (wait ready alarm abandon next) t s a t' s'
  | spawn {p : π} {next : Activity σ π α} {t t' : Nat} {s s' : σ} {a : α}
      (h : Alone next t s a t' s') : Alone (spawn p next) t s a t' s'

namespace Alone

variable {t t' : Nat} {s s' : σ}

/-- An activity that does not have to wait is alone. -/
theorem of_run {a : Activity σ π α} {b : α} {started : List π}
    (h : (a.run t s started).1 = .finished b) : Alone a t s b t (a.run t s started).2.1 := by
  induction a generalizing s started with
  | done c =>
    obtain rfl : c = b := Progress.finished.inj h
    exact .done c t s
  | crash => cases h
  | look next ih => exact .look (ih t s h)
  | put s₁ next ih => exact .put (ih h)
  | wait ready alarm abandon next ih =>
    rw [Activity.run] at h ⊢
    split at h
    · next hgo => exact .wait (Nat.le_refl t) hgo (by rw [if_pos hgo]; exact ih h)
    · cases h
  | spawn p next ih => exact .spawn (ih h)

theorem of_bind {a : Activity σ π β} {f : β → Activity σ π α} {c : α}
    (h : Alone (a >>= f) t s c t' s') :
    ∃ b t₁ s₁, Alone a t s b t₁ s₁ ∧ Alone (f b) t₁ s₁ c t' s' := by
  change Alone (Activity.bind a f) t s c t' s' at h
  induction a generalizing t s with
  | done b => exact ⟨b, t, s, .done b t s, h⟩
  | crash => cases h
  | look next ih =>
    cases h with
    | look h =>
      obtain ⟨b, t₁, s₁, hb, hf⟩ := ih t s h
      exact ⟨b, t₁, s₁, .look hb, hf⟩
  | put s₂ next ih =>
    cases h with
    | put h =>
      obtain ⟨b, t₁, s₁, hb, hf⟩ := ih h
      exact ⟨b, t₁, s₁, .put hb, hf⟩
  | wait ready alarm abandon next ih =>
    cases h with
    | wait hle hgo h =>
      obtain ⟨b, t₁, s₁, hb, hf⟩ := ih h
      exact ⟨b, t₁, s₁, .wait hle hgo hb, hf⟩
  | spawn p next ih =>
    cases h with
    | spawn h =>
      obtain ⟨b, t₁, s₁, hb, hf⟩ := ih h
      exact ⟨b, t₁, s₁, .spawn hb, hf⟩

/-- An activity with a deadline is given up or comes to its own end. -/
theorem of_within {a : Activity σ π α} {deadline : Nat} {c : Option α}
    (h : Alone (within deadline a) t s c t' s') :
    c = none ∨ ∃ b, c = some b ∧ Alone a t s b t' s' := by
  induction a generalizing t s with
  | done b =>
    cases h with
    | done => exact .inr ⟨b, rfl, .done b _ _⟩
  | crash => cases h
  | look next ih =>
    cases h with
    | look h =>
      rcases ih t s h with hnone | ⟨b, hb, ha⟩
      · exact .inl hnone
      · exact .inr ⟨b, hb, .look ha⟩
  | put s₂ next ih =>
    cases h with
    | put h =>
      rcases ih h with hnone | ⟨b, hb, ha⟩
      · exact .inl hnone
      · exact .inr ⟨b, hb, .put ha⟩
  | wait ready alarm abandon next ih =>
    cases h with
    | @wait _ _ _ _ _ t₁ _ _ _ _ hle _ h =>
      cases h with
      | look h =>
        dsimp only at h
        by_cases hgo : (ready s || rang alarm t₁) = true
        · rw [if_pos hgo] at h
          rcases ih h with hnone | ⟨b, hb, ha⟩
          · exact .inl hnone
          · exact .inr ⟨b, hb, .wait hle hgo ha⟩
        · rw [if_neg hgo] at h
          cases h with
          | put h =>
            cases h with
            | done => exact .inl rfl
  | spawn p next ih =>
    cases h with
    | spawn h =>
      rcases ih h with hnone | ⟨b, hb, ha⟩
      · exact .inl hnone
      · exact .inr ⟨b, hb, .spawn ha⟩

/-- What is done at the end of an activity is done to the state in which it ends. -/
theorem of_guarded {a : Activity σ π α} {release : σ → σ} {c : α}
    (h : Alone (guarded release a) t s c t' s') :
    ∃ s₁, Alone a t s c t' s₁ ∧ s' = release s₁ := by
  induction a generalizing t s with
  | done b =>
    cases h with
    | look h =>
      cases h with
      | put h =>
        cases h with
        | done => exact ⟨_, .done c _ _, rfl⟩
  | crash =>
    cases h with
    | look h =>
      cases h with
      | put h => cases h
  | look next ih =>
    cases h with
    | look h =>
      obtain ⟨s₁, ha, hs⟩ := ih t s h
      exact ⟨s₁, .look ha, hs⟩
  | put s₂ next ih =>
    cases h with
    | put h =>
      obtain ⟨s₁, ha, hs⟩ := ih h
      exact ⟨s₁, .put ha, hs⟩
  | wait ready alarm abandon next ih =>
    cases h with
    | wait hle hgo h =>
      obtain ⟨s₁, ha, hs⟩ := ih h
      exact ⟨s₁, .wait hle hgo ha, hs⟩
  | spawn p next ih =>
    cases h with
    | spawn h =>
      obtain ⟨s₁, ha, hs⟩ := ih h
      exact ⟨s₁, .spawn ha, hs⟩

end Alone

end Pulse.Activity
