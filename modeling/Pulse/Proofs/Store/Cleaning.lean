import Pulse.Proofs.Store.Queries

/-!
# Cleaning goes unseen

Whoever asks the log about moments from a cutoff on gets the same answers before and after the log
is cleaned up to that cutoff.  Nothing is assumed about the log: its changes may be of any servers,
in any order of time, with any number of them at one moment.

* `Survives` says that a change is left, by what stands before and after it in the log.  A change
  that survives still stands between what is left of both sides (`survivors_append_cons`), and every
  change that is left survived (`exists_of_mem_survivors`).
* `lastTransition?_eq_some_iff` — the last change before a moment, as the log is searched for it, is
  the last of the greatest.  It survives, so it is found again (`lastTransition?_cleaned`).
* `survivors_survivors` — cleaning up to an earlier cutoff first makes no difference.
* `cleanupTransitions_unseen` — all that cleaning owes to those who read the log.
-/

set_option autoImplicit false

namespace Pulse.MemoryStore

open Ordered (IsLast)
open Time (Instant)

variable {cutoff : Instant} {earlier later changes : List Transition} {t u : Transition}

/-! ## What is left of a log -/

/-- A change is left when the log is cleaned up to the cutoff, where `earlier` stands before it in
the log and `later` after it. -/
def Survives (cutoff : Instant) (earlier : List Transition) (t : Transition)
    (later : List Transition) : Prop :=
  cutoff ≤ t.time ∨ IsNewest cutoff earlier t later

theorem survivors_cons_of_survives (h : Survives cutoff earlier t later) :
    survivors cutoff earlier (t :: later) = t :: survivors cutoff (earlier ++ [t]) later :=
  if_pos h

theorem survivors_cons_of_not (h : ¬ Survives cutoff earlier t later) :
    survivors cutoff earlier (t :: later) = survivors cutoff (earlier ++ [t]) later :=
  if_neg h

theorem lt_of_not_survives (h : ¬ Survives cutoff earlier t later) : t.time < cutoff := by
  simp only [Survives, not_or, not_le] at h
  exact h.1

theorem survivors_sublist (cutoff : Instant) (earlier changes : List Transition) :
    (survivors cutoff earlier changes).Sublist changes := by
  induction changes generalizing earlier with
  | nil => exact List.Sublist.slnil
  | cons t later ih =>
    by_cases h : Survives cutoff earlier t later
    · rw [survivors_cons_of_survives h]
      exact (ih _).cons_cons t
    · rw [survivors_cons_of_not h]
      exact (ih _).cons t

/-- A change that survives stands between what is left of both sides. -/
theorem survivors_append_cons {front : List Transition}
    (h : Survives cutoff (earlier ++ front) t later) :
    ∃ front' later', survivors cutoff earlier (front ++ t :: later) = front' ++ t :: later' ∧
      front'.Sublist front ∧ later'.Sublist later := by
  induction front generalizing earlier with
  | nil =>
    rw [List.append_nil] at h
    refine ⟨[], _, ?_, List.Sublist.slnil, survivors_sublist cutoff (earlier ++ [t]) later⟩
    rw [List.nil_append, survivors_cons_of_survives h, List.nil_append]
  | cons u front ih =>
    obtain ⟨front', later', hsplit, hfront, hlater⟩ :=
      @ih (earlier ++ [u]) (by simpa using h)
    rw [List.cons_append]
    by_cases hu : Survives cutoff earlier u (front ++ t :: later)
    · refine ⟨u :: front', later', ?_, hfront.cons_cons u, hlater⟩
      rw [survivors_cons_of_survives hu, hsplit, List.cons_append]
    · refine ⟨front', later', ?_, hfront.cons u, hlater⟩
      rw [survivors_cons_of_not hu, hsplit]

/-- What is left survived. -/
theorem exists_of_mem_survivors (h : t ∈ survivors cutoff earlier changes) :
    ∃ front later, changes = front ++ t :: later ∧
      Survives cutoff (earlier ++ front) t later := by
  induction changes generalizing earlier with
  | nil => simp [survivors] at h
  | cons u later ih =>
    have hlater : t ∈ survivors cutoff (earlier ++ [u]) later →
        ∃ front rest, u :: later = front ++ t :: rest ∧
          Survives cutoff (earlier ++ front) t rest := by
      intro ht
      obtain ⟨front, rest, rfl, hsurvives⟩ := ih ht
      exact ⟨u :: front, rest, rfl, by simpa using hsurvives⟩
    by_cases hu : Survives cutoff earlier u later
    · rw [survivors_cons_of_survives hu] at h
      rcases List.mem_cons.1 h with rfl | h
      · exact ⟨[], later, rfl, by simpa using hu⟩
      · exact hlater h
    · rw [survivors_cons_of_not hu] at h
      exact hlater h

/-- All changes that are not before the cutoff are left. -/
theorem fromCutoff_survivors (cutoff : Instant) (earlier changes : List Transition) :
    fromCutoff cutoff (survivors cutoff earlier changes) = fromCutoff cutoff changes := by
  induction changes generalizing earlier with
  | nil => rfl
  | cons t later ih =>
    by_cases h : Survives cutoff earlier t later
    · rw [survivors_cons_of_survives h, fromCutoff, List.filter_cons, ← fromCutoff, ih,
        fromCutoff, fromCutoff, List.filter_cons]
    · rw [survivors_cons_of_not h, ih, fromCutoff_cons_of_lt (lt_of_not_survives h)]

/-- Of two changes of one server that are left, one is not before the cutoff. -/
theorem pairwise_survivors (cutoff : Instant) (earlier changes : List Transition) :
    (survivors cutoff earlier changes).Pairwise fun t u =>
      t.serverId = u.serverId → t.time < cutoff → cutoff ≤ u.time := by
  induction changes generalizing earlier with
  | nil => exact List.Pairwise.nil
  | cons t later ih =>
    by_cases h : Survives cutoff earlier t later
    · rw [survivors_cons_of_survives h]
      refine List.pairwise_cons.2 ⟨?_, ih _⟩
      intro u hu hid hold
      by_contra hold'
      rw [not_le] at hold'
      obtain ⟨front, rest, rfl, hsurvives⟩ := exists_of_mem_survivors hu
      -- Both would be the newest of their server before the cutoff.
      have hnewest := h.resolve_left (not_le.2 hold)
      have hnewest' := hsurvives.resolve_left (not_le.2 hold')
      have hlt : u.time < t.time := hnewest.2 u (by simp) hid.symm hold'
      have hle : t.time ≤ u.time := hnewest'.1 t (by simp) hid hold
      exact absurd hle (not_le.2 hlt)
    · rw [survivors_cons_of_not h]
      exact ih _

/-! ## Cleaning twice -/

/-- What is the newest before a cutoff is so before an earlier one, if it is before that at all. -/
theorem IsNewest.mono {cutoff' : Instant} (h : IsNewest cutoff' earlier t later)
    (hle : cutoff ≤ cutoff') : IsNewest cutoff earlier t later :=
  ⟨fun u hu hid hold => h.1 u hu hid (hold.trans_le hle),
    fun u hu hid hold => h.2 u hu hid (hold.trans_le hle)⟩

/-- Looking for the newest change before a cutoff among what an earlier cleaning has left. -/
theorem survives_iff_of_cleaned {cutoff' : Instant} {earlier' later' : List Transition}
    (ht : Survives cutoff earlier t later)
    (hearlier : earlier' ⊆ earlier) (hlater : later' ⊆ later)
    (hearlier' : ∀ u ∈ earlier, cutoff ≤ u.time → u ∈ earlier')
    (hlater' : ∀ u ∈ later, cutoff ≤ u.time → u ∈ later') :
    Survives cutoff' earlier' t later' ↔ Survives cutoff' earlier t later := by
  refine or_congr_right ⟨?_, ?_⟩
  · intro hnewest
    refine ⟨?_, ?_⟩
    · intro u hu hid hold
      rcases le_or_gt cutoff u.time with hnew | hold'
      · exact hnewest.1 u (hearlier' u hu hnew) hid hold
      · rcases ht with hnew | hnewest'
        · exact (hold'.trans_le hnew).le
        · exact hnewest'.1 u hu hid hold'
    · intro u hu hid hold
      rcases le_or_gt cutoff u.time with hnew | hold'
      · exact hnewest.2 u (hlater' u hu hnew) hid hold
      · rcases ht with hnew | hnewest'
        · exact hold'.trans_le hnew
        · exact hnewest'.2 u hu hid hold'
  · intro hnewest
    exact ⟨fun u hu => hnewest.1 u (hearlier hu), fun u hu => hnewest.2 u (hlater hu)⟩

/-- **Cleaning up to an earlier cutoff first makes no difference.** -/
theorem survivors_survivors {cutoff' : Instant} (hle : cutoff ≤ cutoff')
    {earlier' : List Transition} (hearlier : earlier' ⊆ earlier)
    (hearlier' : ∀ u ∈ earlier, cutoff ≤ u.time → u ∈ earlier') (changes : List Transition) :
    survivors cutoff' earlier' (survivors cutoff earlier changes) =
      survivors cutoff' earlier changes := by
  -- Along the log; of what has been passed, all from the first cutoff on is still there.
  induction changes generalizing earlier earlier' with
  | nil => rfl
  | cons t later ih =>
    by_cases ht : Survives cutoff earlier t later
    · have hrest := survivors_sublist cutoff (earlier ++ [t]) later
      have hrecent : ∀ u ∈ later, cutoff ≤ u.time →
          u ∈ survivors cutoff (earlier ++ [t]) later := by
        intro u hu hnew
        have hmem : u ∈ fromCutoff cutoff later := by simp [fromCutoff, hu, hnew]
        rw [← fromCutoff_survivors cutoff (earlier ++ [t])] at hmem
        exact (List.mem_filter.1 hmem).1
      have hiff : Survives cutoff' earlier' t (survivors cutoff (earlier ++ [t]) later) ↔
          Survives cutoff' earlier t later :=
        survives_iff_of_cleaned ht hearlier hrest.subset hearlier' hrecent
      have ih : survivors cutoff' (earlier' ++ [t]) (survivors cutoff (earlier ++ [t]) later) =
          survivors cutoff' (earlier ++ [t]) later :=
        ih (by simpa using List.Subset.trans hearlier (List.subset_append_left _ _)) (by grind)
      rw [survivors_cons_of_survives ht]
      by_cases ht' : Survives cutoff' earlier t later
      · rw [survivors_cons_of_survives (hiff.2 ht'), survivors_cons_of_survives ht', ih]
      · rw [survivors_cons_of_not (mt hiff.1 ht'), survivors_cons_of_not ht', ih]
    · have hold := lt_of_not_survives ht
      have ht' : ¬ Survives cutoff' earlier t later := by
        rintro (hnew | hnewest)
        · exact absurd (hold.trans_le hle) (not_lt.2 hnew)
        · exact ht (.inr (hnewest.mono hle))
      rw [survivors_cons_of_not ht, survivors_cons_of_not ht']
      exact ih (by grind) (by grind)

/-! ## Searching a cleaned log -/

theorem foldl_laterChange_eq_none_iff :
    changes.foldl laterChange none = none ↔ changes = [] := by
  rcases List.eq_nil_or_concat changes with rfl | ⟨front, t, rfl⟩
  · simp
  · rw [List.concat_eq_append, List.foldl_append]
    cases front.foldl laterChange none with
    | none => simp [laterChange]
    | some u =>
      by_cases hlt : t.time < u.time <;> simp [laterChange, hlt]

/-- Of the changes of the latest moment the last in the log is found. -/
theorem foldl_laterChange_eq_some_iff :
    changes.foldl laterChange none = some t ↔ IsLast Transition.time changes t := by
  induction changes using List.reverseRecOn generalizing t with
  | nil => simp [Ordered.not_isLast_nil]
  | append_singleton changes u ih =>
    rw [List.foldl_append, Ordered.isLast_append_singleton]
    cases hlast : changes.foldl laterChange none with
    | none =>
      rw [foldl_laterChange_eq_none_iff.1 hlast]
      simp [laterChange, Ordered.not_isLast_nil, eq_comm]
    | some v =>
      have hv := ih.1 hlast
      by_cases hlt : u.time < v.time
      · have hfound : [u].foldl laterChange (some v) = some v := by simp [laterChange, hlt]
        rw [hfound, Option.some_inj]
        constructor
        · rintro rfl
          exact .inr ⟨hv, hlt⟩
        · rintro (⟨rfl, hall⟩ | ⟨ht, -⟩)
          · exact absurd (hall v hv.mem) (not_le.2 hlt)
          · exact hv.unique ht
      · have hfound : [u].foldl laterChange (some v) = some u := by simp [laterChange, hlt]
        rw [hfound, Option.some_inj]
        constructor
        · rintro rfl
          exact .inl ⟨rfl, fun w hw => (hv.le hw).trans (not_lt.1 hlt)⟩
        · rintro (⟨rfl, -⟩ | ⟨ht, hlt'⟩)
          · rfl
          · exact absurd (ht.unique hv ▸ hlt') hlt

variable {store : MemoryStore} {id : String} {time : Instant}

/-- **The last change of a server before a moment** is the last of the greatest, whatever the order
of the log is. -/
theorem lastTransition?_eq_some_iff :
    store.lastTransition? id time = some t ↔
      ∃ earlier later, store.transitions = earlier ++ t :: later ∧
        (t.serverId = id ∧ t.time < time) ∧
        (∀ u ∈ earlier, u.serverId = id → u.time < time → u.time ≤ t.time) ∧
        ∀ u ∈ later, u.serverId = id → u.time < time → u.time < t.time := by
  rw [lastTransition?, foldl_laterChange_eq_some_iff, Ordered.isLast_filter_iff]
  simp only [Bool.and_eq_true, decide_eq_true_eq, and_imp]

theorem lastTransition?_eq_none_iff :
    store.lastTransition? id time = none ↔
      ∀ t ∈ store.transitions, t.serverId = id → time ≤ t.time := by
  rw [lastTransition?, foldl_laterChange_eq_none_iff, List.filter_eq_nil_iff]
  simp

/-- The store whose log was cleaned. -/
def cleaned (store : MemoryStore) (cutoff : Instant) : MemoryStore :=
  (store.cleanupTransitions cutoff).2

theorem transitions_cleaned :
    (store.cleaned cutoff).transitions = survivors cutoff [] store.transitions :=
  retained_eq_survivors cutoff store.transitions

/-- **The last change before a moment from the cutoff on is found again.** -/
theorem lastTransition?_cleaned (hle : cutoff ≤ time) :
    (store.cleaned cutoff).lastTransition? id time = store.lastTransition? id time := by
  cases hlast : store.lastTransition? id time with
  | none =>
    rw [lastTransition?_eq_none_iff] at hlast ⊢
    intro t ht
    rw [transitions_cleaned] at ht
    exact hlast t ((survivors_sublist cutoff [] _).subset ht)
  | some t =>
    obtain ⟨earlier, later, hsplit, ht, hearlier, hlater⟩ := lastTransition?_eq_some_iff.1 hlast
    have hsurvives : Survives cutoff ([] ++ earlier) t later := by
      refine .inr ⟨?_, ?_⟩
      · intro u hu hid hold
        exact hearlier u hu (hid.trans ht.1) (hold.trans_le hle)
      · intro u hu hid hold
        exact hlater u hu (hid.trans ht.1) (hold.trans_le hle)
    obtain ⟨front, rest, hleft, hfront, hrest⟩ := survivors_append_cons hsurvives
    rw [lastTransition?_eq_some_iff, transitions_cleaned, hsplit]
    refine ⟨front, rest, hleft, ht, ?_, ?_⟩
    · intro u hu
      exact hearlier u (hfront.subset hu)
    · intro u hu
      exact hlater u (hrest.subset hu)

/-- The changes of a stretch of time from the cutoff on are found again. -/
theorem transitionsBetween_cleaned {start : Instant} (hle : cutoff ≤ start) (stop : Instant) :
    (store.cleaned cutoff).transitionsBetween start stop = store.transitionsBetween start stop := by
  have hrecent : ∀ changes : List Transition,
      (changes.filter fun t => start ≤ t.time && t.time < stop) =
        (fromCutoff cutoff changes).filter fun t => start ≤ t.time && t.time < stop := by
    intro changes
    rw [fromCutoff, List.filter_filter]
    refine List.filter_congr fun t _ => ?_
    by_cases hstart : start ≤ t.time
    · simp [hstart, hle.trans hstart]
    · simp [hstart]
  rw [transitionsBetween, transitionsBetween, transitions_cleaned, hrecent,
    hrecent store.transitions, fromCutoff_survivors]

/-- Of the changes of a server before the cutoff at most one is left. -/
theorem length_beforeCutoff_cleaned_le (store : MemoryStore) (cutoff : Instant) (id : String) :
    (beforeCutoff cutoff ((store.cleaned cutoff).historyOf id)).length ≤ 1 := by
  have hpairwise := pairwise_survivors cutoff [] store.transitions
  rw [← transitions_cleaned] at hpairwise
  have hnone : (beforeCutoff cutoff ((store.cleaned cutoff).historyOf id)).Pairwise
      fun _ _ => False := by
    refine (hpairwise.sublist (List.filter_sublist.trans List.filter_sublist)).imp_of_mem ?_
    intro t u ht hu hnew
    simp only [List.mem_filter, decide_eq_true_eq] at ht hu
    exact absurd hu.2 (not_lt.2 (hnew (ht.1.2.trans hu.1.2.symm) ht.2))
  match hlist : beforeCutoff cutoff ((store.cleaned cutoff).historyOf id) with
  | [] => exact Nat.zero_le 1
  | [t] => exact le_rfl
  | t :: u :: rest =>
    rw [hlist] at hnone
    exact ((List.pairwise_cons.1 hnone).1 u List.mem_cons_self).elim

theorem cleaned_cleaned {cutoff' : Instant} (hle : cutoff ≤ cutoff') (store : MemoryStore) :
    (store.cleaned cutoff).cleaned cutoff' = store.cleaned cutoff' := by
  have hlog : ((store.cleaned cutoff).cleaned cutoff').transitions =
      (store.cleaned cutoff').transitions := by
    rw [transitions_cleaned, transitions_cleaned, transitions_cleaned]
    exact survivors_survivors hle (List.Subset.refl _) (by simp) store.transitions
  exact congrArg (fun changes => { store with transitions := changes }) hlog

/-! ## What cleaning owes to readers -/

/-- What whoever asks about moments from the cutoff on sees of a log that was cleaned up to it. -/
structure Unseen (cutoff : Instant) (store after : MemoryStore) : Prop where
  records : after.records = store.records
  series : after.series = store.series
  /-- What is left is in the order in which it was. -/
  ordered : after.transitions.Sublist store.transitions
  lastTransition? (id : String) (time : Instant) :
    cutoff ≤ time → after.lastTransition? id time = store.lastTransition? id time
  transitionsBetween (start stop : Instant) :
    cutoff ≤ start → after.transitionsBetween start stop = store.transitionsBetween start stop

/-- **Cleaning the log goes unseen from the cutoff on**, whatever is in the log, and its count is
right.  Before the cutoff it leaves one change of a server at most; a second cleaning does nothing,
and an earlier one made no difference. -/
theorem cleanupTransitions_unseen (store : MemoryStore) (cutoff : Instant) :
    ∃ removed after, store.cleanupTransitions cutoff = (removed, after) ∧
      Unseen cutoff store after ∧
      removed + after.transitions.length = store.transitions.length ∧
      (∀ id, (beforeCutoff cutoff (after.historyOf id)).length ≤ 1) ∧
      after.cleanupTransitions cutoff = (0, after) ∧
      ∀ cutoff' ≤ cutoff,
        ((store.cleanupTransitions cutoff').2.cleanupTransitions cutoff).2 = after := by
  have hsublist : (store.cleaned cutoff).transitions.Sublist store.transitions :=
    transitions_cleaned ▸ survivors_sublist cutoff [] store.transitions
  refine ⟨_, store.cleaned cutoff, rfl, ⟨rfl, rfl, hsublist, ?_, ?_⟩, ?_, ?_, ?_, ?_⟩
  · intro id time hle
    exact lastTransition?_cleaned hle
  · intro start stop hle
    exact transitionsBetween_cleaned hle stop
  · exact Nat.sub_add_cancel hsublist.length_le
  · exact length_beforeCutoff_cleaned_le store cutoff
  · have hagain : (store.cleaned cutoff).cleaned cutoff = store.cleaned cutoff :=
      cleaned_cleaned le_rfl store
    have hcount : ((store.cleaned cutoff).cleanupTransitions cutoff).1 = 0 := by
      show _ - ((store.cleaned cutoff).cleaned cutoff).transitions.length = 0
      rw [hagain, Nat.sub_self]
    exact Prod.ext hcount hagain
  · intro cutoff' hle
    exact cleaned_cleaned hle store

end Pulse.MemoryStore
