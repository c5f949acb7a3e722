import Pulse.Proofs.Activity

/-!
# Activities that never crash

An activity is not alone: while it waits, others change the state and the clock goes on.  What all
of them rely on, and what each of them keeps, is an assumption `J` about the clock, the state and
the processes at work besides.  `Endures J Q a t s ps` says that the activity `a`, which begins at
time `t` in state `s` besides the processes `ps`, never crashes, that `J` holds whenever it waits,
and that `Q` holds at the end, provided that `J` holds whenever it goes on.  The processes that it
starts join the others.

`Endures J Q` is about what is ahead; `Lasts J Q a` says it of an activity that can go on whenever
`J` holds, such as one that waits.

* `Endures.bind`, `Endures.within`, `Endures.guarded` — the rules for the ways in which activities
  are made.
* `Endures.run` — a stretch does not crash, and what is left of the activity lasts.
-/

set_option autoImplicit false

namespace Pulse.Activity

variable {σ π α β : Type} {J : Nat → σ → List π → Prop} {Q : α → Nat → σ → List π → Prop}

/-- From here on, the activity does not crash; `J` holds whenever it waits, and `Q` at the end. -/
def Endures (J : Nat → σ → List π → Prop) (Q : α → Nat → σ → List π → Prop) :
    Activity σ π α → Nat → σ → List π → Prop
  | done a, t, s, ps => Q a t s ps
  | crash, _, _, _ => False
  | look next, t, s, ps => Endures J Q (next t s) t s ps
  | put s next, t, _, ps => Endures J Q next t s ps
  | wait ready alarm abandon next, t, s, ps =>
    J t s ps ∧ ∀ t s ps, J t s ps →
      J t (abandon s) ps ∧ ((ready s || rang alarm t) = true → Endures J Q next t s ps)
  | spawn p next, t, s, ps => Endures J Q next t s (ps ++ [p])

/-- The activity does not crash if it goes on while `J` holds. -/
def Lasts (J : Nat → σ → List π → Prop) (Q : α → Nat → σ → List π → Prop)
    (a : Activity σ π α) : Prop :=
  ∀ t s ps, J t s ps → a.Endures J Q t s ps

namespace Endures

variable {t : Nat} {s : σ} {ps : List π}

/-! ## Rules -/

theorem pure {a : α} (h : Q a t s ps) : Endures J Q (Pure.pure a : Activity σ π α) t s ps :=
  h

/-- One activity after the other: the first has to end where the second can begin. -/
theorem bind {a : Activity σ π β} {f : β → Activity σ π α}
    (h : Endures J (fun b t s ps => Endures J Q (f b) t s ps) a t s ps) :
    Endures J Q (a >>= f) t s ps := by
  show Endures J Q (Activity.bind a f) t s ps
  induction a generalizing t s ps with
  | done b => exact h
  | crash => exact h
  | look next ih => exact ih t s h
  | put s' next ih => exact ih h
  | wait ready alarm abandon next ih =>
    refine ⟨h.1, fun t s ps hJ => ⟨(h.2 t s ps hJ).1, fun hgo => ?_⟩⟩
    exact ih ((h.2 t s ps hJ).2 hgo)
  | spawn p next ih => exact ih h

theorem mono {Q' : α → Nat → σ → List π → Prop} (hQ : ∀ a t s ps, Q' a t s ps → Q a t s ps)
    {a : Activity σ π α} (h : Endures J Q' a t s ps) : Endures J Q a t s ps := by
  induction a generalizing t s ps with
  | done a => exact hQ a t s ps h
  | crash => exact h
  | look next ih => exact ih t s h
  | put s' next ih => exact ih h
  | wait ready alarm abandon next ih =>
    refine ⟨h.1, fun t s ps hJ => ⟨(h.2 t s ps hJ).1, fun hgo => ?_⟩⟩
    exact ih ((h.2 t s ps hJ).2 hgo)
  | spawn p next ih => exact ih h

theorem clock {Q : Nat → Nat → σ → List π → Prop} (h : Q t t s ps) :
    Endures J Q (Activity.clock : Activity σ π Nat) t s ps :=
  h

theorem get {Q : σ → Nat → σ → List π → Prop} (h : Q s t s ps) :
    Endures J Q (Activity.get : Activity σ π σ) t s ps :=
  h

theorem modify {Q : Unit → Nat → σ → List π → Prop} {change : σ → σ} (h : Q () t (change s) ps) :
    Endures J Q (Activity.modify change : Activity σ π Unit) t s ps :=
  h

theorem launch {Q : Unit → Nat → σ → List π → Prop} {p : π} (h : Q () t s (ps ++ [p])) :
    Endures J Q (Activity.launch p : Activity σ π Unit) t s ps :=
  h

/-- Waiting lasts until the state is ready or the alarm rings. -/
theorem waiting {Q : Unit → Nat → σ → List π → Prop} {ready : σ → Bool} {alarm : Option Nat}
    (hJ : J t s ps)
    (h : ∀ t s ps, J t s ps → (ready s || rang alarm t) = true → Q () t s ps) :
    Endures J Q (wait ready alarm id (.done ()) : Activity σ π Unit) t s ps :=
  ⟨hJ, fun t s ps hJ => ⟨hJ, h t s ps hJ⟩⟩

/-- An activity with a deadline may be given up whenever it waits. -/
theorem within {Q : Option α → Nat → σ → List π → Prop} {deadline : Nat} {a : Activity σ π α}
    (hnone : ∀ t s ps, J t s ps → Q none t s ps) (h : Endures J (fun a => Q (some a)) a t s ps) :
    Endures J Q (Activity.within deadline a) t s ps := by
  induction a generalizing t s ps with
  | done a => exact h
  | crash => exact h
  | look next ih => exact ih t s h
  | put s' next ih => exact ih h
  | wait ready alarm abandon next ih =>
    refine ⟨h.1, fun t s ps hJ => ?_⟩
    obtain ⟨habandon, hnext⟩ := h.2 t s ps hJ
    refine ⟨habandon, fun _ => ?_⟩
    show Endures J Q (if _ then _ else _) t s ps
    split
    · next hgo => exact ih (hnext hgo)
    · exact hnone t _ ps habandon
  | spawn p next ih => exact ih h

/-- What is done at the end of an activity is one more change. -/
theorem guarded {release : σ → σ} {a : Activity σ π α}
    (hrelease : ∀ t s ps, J t s ps → J t (release s) ps)
    (h : Endures J (fun a t s ps => Q a t (release s) ps) a t s ps) :
    Endures J Q (Activity.guarded release a) t s ps := by
  induction a generalizing t s ps with
  | done a => exact h
  | crash => exact h
  | look next ih => exact ih t s h
  | put s' next ih => exact ih h
  | wait ready alarm abandon next ih =>
    refine ⟨h.1, fun t s ps hJ => ?_⟩
    obtain ⟨habandon, hnext⟩ := h.2 t s ps hJ
    exact ⟨hrelease t _ ps habandon, fun hgo => ih (hnext hgo)⟩
  | spawn p next ih => exact ih h

end Endures

/-! ## Running -/

/-- What is left of an activity after a stretch did not crash and lasts. -/
def Progress.Endures (J : Nat → σ → List π → Prop) (Q : α → Nat → σ → List π → Prop) (t : Nat)
    (s : σ) (ps : List π) : Progress σ π α → Prop
  | .finished a => Q a t s ps
  | .crashed => False
  | .waiting rest => rest.Waits ∧ J t s ps ∧ rest.Lasts J Q

/-- **A stretch of an activity that endures** does not crash, and what is left of it lasts, whatever
the others do that keeps `J`. -/
theorem Endures.run {a : Activity σ π α} {t : Nat} {s : σ} {ps started : List π}
    (h : a.Endures J Q t s (ps ++ started)) :
    (a.run t s started).1.Endures J Q t (a.run t s started).2.1
      (ps ++ (a.run t s started).2.2) := by
  induction a generalizing s started with
  | done a => exact h
  | crash => exact h
  | look next ih => exact ih t s h
  | put s' next ih => exact ih h
  | wait ready alarm abandon next ih =>
    by_cases hgo : (ready s || rang alarm t) = true
    · rw [Activity.run, if_pos hgo]
      exact ih ((h.2 t s _ h.1).2 hgo)
    · rw [Activity.run, if_neg hgo]
      exact ⟨trivial, h.1, fun t s ps hJ => ⟨hJ, h.2⟩⟩
  | spawn p next ih =>
    refine ih ?_
    rw [← List.append_assoc]
    exact h

/-- Giving up an activity that waits keeps `J`. -/
theorem Lasts.giveUp {a : Activity σ π α} (h : a.Lasts J Q) (hwaits : a.Waits) {t : Nat} {s : σ}
    {ps : List π} (hJ : J t s ps) : J t (a.giveUp s) ps := by
  cases a with
  | wait ready alarm abandon next => exact ((h t s ps hJ).2 t s ps hJ).1
  | _ => cases hwaits

end Pulse.Activity
