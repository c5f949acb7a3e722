import Pulse.Activity

/-!
# What an activity does to the state

An activity shares its state with others, which change it whenever the activity waits; all that can
be said about it is how each stretch of it without waiting changes the state.  `Meets R Q a t s`
says that, from state `s` at time `t` on, every stretch of `a` changes the state as `R` allows, no
matter what happens while `a` waits, and that `Q` holds at the end.

The definition is by recursion on the activity, and the rules below say what is needed for each way
in which activities are made.  `Meets.run` says what such an activity does when it runs.

* `Meets.bind`, `Meets.within`, `Meets.guarded` — the rules for the three ways.
* `Meets.run` — a stretch changes the state as `R` allows, and the rest meets the same.
* `run_bind`, `run_guarded` — a stretch of one activity after the other, or with a change at its end.
* `run_within_of_finished` — a stretch to the end, with a deadline.
-/

set_option autoImplicit false

namespace Pulse.Activity

variable {σ π α β : Type} {R : Nat → σ → σ → Prop} {Q : α → Nat → σ → Prop}

/-- From here on, every stretch of the activity changes the state as `R` allows, and `Q` holds at
the end.  Anything may have happened when waiting ends. -/
def Meets (R : Nat → σ → σ → Prop) (Q : α → Nat → σ → Prop) : Activity σ π α → Nat → σ → Prop
  | done a, t, s => Q a t s
  | crash, _, _ => True
  | look next, t, s => Meets R Q (next t s) t s
  | put s' next, t, s => R t s s' ∧ Meets R Q next t s'
  | wait _ _ abandon next, _, _ =>
    ∀ t s, R t s (abandon s) ∧ Meets R Q next t s
  | spawn _ next, t, s => Meets R Q next t s

/-! ## Rules -/

namespace Meets

variable {t : Nat} {s : σ}

theorem pure {a : α} (h : Q a t s) : Meets R Q (Pure.pure a : Activity σ π α) t s :=
  h

/-- One activity after the other: the first has to end where the second can begin. -/
theorem bind {a : Activity σ π β} {f : β → Activity σ π α}
    (h : Meets R (fun b t s => Meets R Q (f b) t s) a t s) : Meets R Q (a >>= f) t s := by
  show Meets R Q (Activity.bind a f) t s
  induction a generalizing t s with
  | done b => exact h
  | crash => trivial
  | look next ih => exact ih t s h
  | put s' next ih => exact ⟨h.1, ih h.2⟩
  | wait ready alarm abandon next ih => exact fun t s => ⟨(h t s).1, ih (h t s).2⟩
  | spawn p next ih => exact ih h

theorem mono {Q' : α → Nat → σ → Prop} (hQ : ∀ a t s, Q' a t s → Q a t s) {a : Activity σ π α}
    (h : Meets R Q' a t s) : Meets R Q a t s := by
  induction a generalizing t s with
  | done a => exact hQ a t s h
  | crash => trivial
  | look next ih => exact ih t s h
  | put s' next ih => exact ⟨h.1, ih h.2⟩
  | wait ready alarm abandon next ih => exact fun t s => ⟨(h t s).1, ih (h t s).2⟩
  | spawn p next ih => exact ih h

theorem clock {Q : Nat → Nat → σ → Prop} (h : Q t t s) :
    Meets R Q (Activity.clock : Activity σ π Nat) t s :=
  h

theorem get {Q : σ → Nat → σ → Prop} (h : Q s t s) :
    Meets R Q (Activity.get : Activity σ π σ) t s :=
  h

theorem modify {Q : Unit → Nat → σ → Prop} {change : σ → σ} (hR : R t s (change s))
    (h : Q () t (change s)) : Meets R Q (Activity.modify change : Activity σ π Unit) t s :=
  ⟨hR, h⟩

/-- Waiting itself changes nothing, and nothing is known when it ends. -/
theorem waiting {Q : Unit → Nat → σ → Prop} {ready : σ → Bool} {alarm : Option Nat}
    (hR : ∀ t s, R t s s) (h : ∀ t s, Q () t s) :
    Meets R Q (wait ready alarm id (.done ()) : Activity σ π Unit) t s :=
  fun t s => ⟨hR t s, h t s⟩

/-- An activity with a deadline may be given up at any time. -/
theorem within {Q : Option α → Nat → σ → Prop} {deadline : Nat} {a : Activity σ π α}
    (hnone : ∀ t s, Q none t s) (h : Meets R (fun a => Q (some a)) a t s) :
    Meets R Q (Activity.within deadline a) t s := by
  induction a generalizing t s with
  | done a => exact h
  | crash => trivial
  | look next ih => exact ih t s h
  | put s' next ih => exact ⟨h.1, ih h.2⟩
  | wait ready alarm abandon next ih =>
    refine fun t s => ⟨(h t s).1, ?_⟩
    show Meets R Q (if _ then _ else _) t s
    split
    · exact ih (h t s).2
    · exact ⟨(h t s).1, hnone t _⟩
  | spawn p next ih => exact ih h

/-- What is done at the end of an activity is one more change. -/
theorem guarded {release : σ → σ} {a : Activity σ π α}
    (htrans : ∀ t s s' s'', R t s s' → R t s' s'' → R t s s'')
    (hrelease : ∀ t s, R t s (release s)) (h : Meets R (fun a t s => Q a t (release s)) a t s) :
    Meets R Q (Activity.guarded release a) t s := by
  induction a generalizing t s with
  | done a => exact ⟨hrelease t s, h⟩
  | crash => exact ⟨hrelease t s, trivial⟩
  | look next ih => exact ih t s h
  | put s' next ih => exact ⟨h.1, ih h.2⟩
  | wait ready alarm abandon next ih =>
    exact fun t s => ⟨htrans t _ _ _ (h t s).1 (hrelease t _), ih (h t s).2⟩
  | spawn p next ih => exact ih h

end Meets

/-! ## Running -/

/-- What is left of an activity after a stretch. -/
def Progress.Meets (R : Nat → σ → σ → Prop) (Q : α → Nat → σ → Prop) (t : Nat) (s : σ) :
    Progress σ π α → Prop
  | .finished a => Q a t s
  | .crashed => True
  | .waiting rest => ∀ t s, rest.Meets R Q t s

/-- **A stretch of an activity** changes the state as allowed, and what is left goes on so, whatever
has happened until then. -/
theorem Meets.run {a : Activity σ π α} {t : Nat} {s : σ} (hrefl : ∀ t s, R t s s)
    (htrans : ∀ t s s' s'', R t s s' → R t s' s'' → R t s s'') (h : Meets R Q a t s)
    (started : List π) :
    R t s (a.run t s started).2.1 ∧ (a.run t s started).1.Meets R Q t (a.run t s started).2.1 := by
  induction a generalizing s started with
  | done a => exact ⟨hrefl t s, h⟩
  | crash => exact ⟨hrefl t s, trivial⟩
  | look next ih => exact ih t s h started
  | put s' next ih =>
    obtain ⟨hR, hrest⟩ := ih h.2 started
    exact ⟨htrans t _ _ _ h.1 hR, hrest⟩
  | wait ready alarm abandon next ih =>
    by_cases hgo : (ready s || rang alarm t) = true
    · rw [Activity.run, if_pos hgo]
      exact ih (h t s).2 started
    · rw [Activity.run, if_neg hgo]
      exact ⟨hrefl t s, fun _ _ => h⟩
  | spawn p next ih => exact ih h (started ++ [p])

/-- A stretch of one activity after the other: the second begins in the stretch in which the first
ends. -/
theorem run_bind (a : Activity σ π β) (f : β → Activity σ π α) (t : Nat) (s : σ)
    (started : List π) :
    (a >>= f).run t s started = match a.run t s started with
      | (.finished b, s, started) => (f b).run t s started
      | (.crashed, s, started) => (.crashed, s, started)
      | (.waiting rest, s, started) => (.waiting (rest >>= f), s, started) := by
  show (Activity.bind a f).run t s started = _
  induction a generalizing s started with
  | done b => rfl
  | crash => rfl
  | look next ih => exact ih t s s started
  | put s' next ih => exact ih s' started
  | wait ready alarm abandon next ih =>
    by_cases hgo : (ready s || rang alarm t) = true
    · rw [Activity.bind, Activity.run, if_pos hgo, Activity.run, if_pos hgo]
      exact ih s started
    · rw [Activity.bind, Activity.run, if_neg hgo, Activity.run, if_neg hgo]
      rfl
  | spawn p next ih => exact ih s (started ++ [p])

/-- A stretch of an activity with a change at its end. -/
theorem run_guarded (release : σ → σ) (a : Activity σ π α) (t : Nat) (s : σ)
    (started : List π) :
    (guarded release a).run t s started = match a.run t s started with
      | (.finished b, s, started) => (.finished b, release s, started)
      | (.crashed, s, started) => (.crashed, release s, started)
      | (.waiting rest, s, started) => (.waiting (guarded release rest), s, started) := by
  induction a generalizing s started with
  | done b => rfl
  | crash => rfl
  | look next ih => exact ih t s s started
  | put s' next ih => exact ih s' started
  | wait ready alarm abandon next ih =>
    by_cases hgo : (ready s || rang alarm t) = true
    · rw [guarded, Activity.run, if_pos hgo, Activity.run, if_pos hgo]
      exact ih s started
    · rw [guarded, Activity.run, if_neg hgo, Activity.run, if_neg hgo]
      rfl
  | spawn p next ih => exact ih s (started ++ [p])

/-- A deadline does not matter to an activity that ends in one stretch. -/
theorem run_within_of_finished {a : Activity σ π α} {deadline t : Nat} {s s' : σ} {b : α}
    {started started' : List π} (h : a.run t s started = (.finished b, s', started')) :
    (within deadline a).run t s started = (.finished (some b), s', started') := by
  induction a generalizing s started with
  | done a =>
    cases h
    rfl
  | crash => cases h
  | look next ih => exact ih t s h
  | put s' next ih => exact ih h
  | wait ready alarm abandon next ih =>
    rw [Activity.run] at h
    split at h
    · next hgo =>
      have hready : (ready s || rang (earlier alarm (some deadline)) t) = true := by
        cases alarm with
        | none =>
          have hs : ready s = true := by simpa [rang] using hgo
          rw [hs, Bool.true_or]
        | some a =>
          simp only [rang, earlier, Option.any_some, decide_eq_true_eq, Bool.or_eq_true] at hgo ⊢
          exact hgo.imp_right fun hle => Nat.le_trans (Nat.min_le_left ..) hle
      rw [within, Activity.run, if_pos hready]
      show (if _ then _ else _ : Activity σ π (Option α)).run t s started = _
      rw [if_pos hgo]
      exact ih h
    · cases h
  | spawn p next ih => exact ih h

/-! ## Giving up -/

/-- The activity waits. -/
def Waits : Activity σ π α → Prop
  | wait .. => True
  | _ => False

/-- The state after an activity that waits was given up. -/
def giveUp : Activity σ π α → σ → σ
  | wait _ _ abandon _, s => abandon s
  | _, s => s

/-- What is left of an activity after a stretch waits. -/
theorem waits_of_run {a rest : Activity σ π α} {t : Nat} {s s' : σ} {started started' : List π}
    (h : a.run t s started = (.waiting rest, s', started')) : rest.Waits := by
  induction a generalizing s started with
  | done b => cases h
  | crash => cases h
  | look next ih => exact ih t s h
  | put s' next ih => exact ih h
  | wait ready alarm abandon next ih =>
    rw [Activity.run] at h
    split at h
    · exact ih h
    · cases h
      trivial
  | spawn p next ih => exact ih h

theorem giveUp_bind {a : Activity σ π β} (h : a.Waits) (f : β → Activity σ π α) (s : σ) :
    (a >>= f).giveUp s = a.giveUp s := by
  cases a with
  | wait ready alarm abandon next => rfl
  | _ => cases h

theorem giveUp_guarded {a : Activity σ π α} (h : a.Waits) (release : σ → σ) (s : σ) :
    (guarded release a).giveUp s = release (a.giveUp s) := by
  cases a with
  | wait ready alarm abandon next => rfl
  | _ => cases h

theorem Waits.bind {a : Activity σ π β} (h : a.Waits) (f : β → Activity σ π α) :
    (a >>= f).Waits := by
  cases a with
  | wait ready alarm abandon next => trivial
  | _ => cases h

theorem Meets.giveUp {a : Activity σ π α} (h : ∀ t s, Meets R Q a t s) (hwaits : a.Waits)
    (t : Nat) (s : σ) : R t s (a.giveUp s) := by
  cases a with
  | wait ready alarm abandon next => exact (h t s t s).1
  | _ => cases hwaits

end Pulse.Activity
