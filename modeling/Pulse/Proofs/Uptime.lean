import Mathlib.Algebra.BigOperators.Group.List.Basic
import Mathlib.Algebra.Order.Field.Rat
import Mathlib.Data.Nat.Count
import Mathlib.Tactic.Linarith
import Mathlib.Tactic.FieldSimp
import Pulse.Proofs.Store.Timeline
import Pulse.Proofs.Time.Dial
import Pulse.Uptime

/-!
# What uptime measures

Uptime is found by walking through changes and adding up stretches, each cut to the millisecond; it
should be the share of the moments at which the server was on.  `statusInForce` is the status at a
moment, and `onTicks` counts the ticks of a dial at which it is on.

* `onTicks_eq_sum` — on whatever dial: the ticks at which the status is on are those of the
  `stretches` between neighbouring changes for which it is on.
* `onMillis_eq_onTicks` — of whole milliseconds nothing is cut.
* `onMillis_bounds` — of nanoseconds less than a millisecond is cut from each stretch, and nothing
  is added.
* `onMillis_measures` — what all this says about the share in percent.
-/

set_option autoImplicit false

namespace Pulse

open Ordered (Sorted)
open Time (Instant Span)
open Time.Instant (IsDial ofNanos)

variable {kind : Instant → Prop} {tick : Instant → Int} {moment : Int → Instant}
  {start stop since time : Instant} {initial status : Status} {t : Transition}
  {changes rest : List Transition}

/-! ## The status in force -/

/-- The status in force at a moment, that to which the last change up to the moment led. -/
def statusInForce (initial : Status) (changes : List Transition) (time : Instant) : Status :=
  (changes.filter fun t => t.time ≤ time).getLast?.elim initial Transition.target

theorem statusInForce_of_le (h : Sorted Transition.time (t :: rest)) (hle : t.time ≤ time) :
    statusInForce initial (t :: rest) time = statusInForce t.target rest time := by
  rw [statusInForce, statusInForce, ← MemoryStore.statusAt_eq_getLast? time _ h,
    ← MemoryStore.statusAt_eq_getLast? time _ (List.pairwise_cons.1 h).2, MemoryStore.statusAt,
    if_pos hle]

theorem statusInForce_of_lt (h : Sorted Transition.time (t :: rest)) (hlt : time < t.time) :
    statusInForce initial (t :: rest) time = initial := by
  rw [statusInForce, ← MemoryStore.statusAt_eq_getLast? time _ h, MemoryStore.statusAt,
    if_neg (not_le.2 hlt)]

/-- The status in force depends on which changes are over. -/
theorem statusInForce_congr {time' : Instant}
    (h : ∀ t ∈ changes, t.time ≤ time ↔ t.time ≤ time') :
    statusInForce initial changes time = statusInForce initial changes time' := by
  rw [statusInForce, statusInForce,
    List.filter_congr fun t ht => decide_eq_decide.2 (h t ht)]

/-! ## Moments in a stretch of time -/

theorem clampTo_eq (h : start ≤ stop) (t : Instant) :
    clampTo start stop t = max start (min stop t) := by
  rw [clampTo]
  split_ifs with hlt hgt
  · rw [min_eq_right (hlt.le.trans h), max_eq_left hlt.le]
  · rw [min_eq_left hgt.le, max_eq_right h]
  · rw [min_eq_right (not_lt.1 hgt), max_eq_right (not_lt.1 hlt)]

theorem le_clampTo (h : start ≤ stop) (t : Instant) : start ≤ clampTo start stop t := by
  rw [clampTo_eq h]
  exact le_max_left _ _

theorem clampTo_le (h : start ≤ stop) (t : Instant) : clampTo start stop t ≤ stop := by
  rw [clampTo_eq h]
  exact max_le h (min_le_left _ _)

theorem clampTo_le_clampTo {s t : Instant} (h : start ≤ stop) (hle : s ≤ t) :
    clampTo start stop s ≤ clampTo start stop t := by
  rw [clampTo_eq h, clampTo_eq h]
  exact max_le_max le_rfl (min_le_min le_rfl hle)

theorem clampTo_cases (start stop t : Instant) :
    clampTo start stop t = start ∨ clampTo start stop t = stop ∨ clampTo start stop t = t := by
  rw [clampTo]
  split_ifs <;> simp

/-- A moment in the stretch is before a change iff it is before where the change was moved. -/
theorem lt_clampTo_iff {t : Instant} (hstart : start ≤ time) (hstop : time < stop) :
    time < clampTo start stop t ↔ time < t := by
  rw [clampTo_eq (hstart.trans hstop.le), lt_max_iff, lt_min_iff]
  simp [hstop, not_lt.2 hstart]

/-! ## Stretches -/

/-- A stretch of time in one status. -/
structure Stretch where
  status : Status
  start : Instant
  stop : Instant

/-- The stretches between neighbouring changes from `since` on, which is entered with `status`. -/
def stretches (start stop : Instant) : Status → Instant → List Transition → List Stretch
  | status, since, [] => [⟨status, since, stop⟩]
  | status, since, t :: rest =>
    let time := clampTo start stop t.time
    ⟨status, since, time⟩ :: stretches start stop t.target time rest

/-- The milliseconds that count of a stretch. -/
def Stretch.millis (s : Stretch) : Int :=
  countedMillis s.status s.start s.stop

/-- The ticks of a stretch, if the server is on. -/
def Stretch.ticks (tick : Instant → Int) (s : Stretch) : Int :=
  if s.status = .on then tick s.stop - tick s.start else 0

/-- The server is on for a while. -/
def Stretch.IsOn (s : Stretch) : Prop :=
  s.status = .on ∧ s.start < s.stop

instance : DecidablePred Stretch.IsOn :=
  fun s => inferInstanceAs (Decidable (s.status = .on ∧ s.start < s.stop))

theorem onMillisFrom_eq_sum (status : Status) (since : Instant) (changes : List Transition) :
    onMillisFrom start stop status since changes =
      ((stretches start stop status since changes).map Stretch.millis).sum := by
  induction changes generalizing status since with
  | nil => simp [onMillisFrom, stretches, Stretch.millis]
  | cons t rest ih => simp [onMillisFrom, stretches, Stretch.millis, ih]

/-- A walk through changes that has come to `since`. -/
structure Walk (kind : Instant → Prop) (start stop since : Instant)
    (changes : List Transition) : Prop where
  kind_start : kind start
  kind_stop : kind stop
  kind_since : kind since
  kind_changes : ∀ t ∈ changes, kind t.time
  sorted : Sorted Transition.time changes
  start_le : start ≤ since
  le_stop : since ≤ stop
  ahead : ∀ t ∈ changes, since ≤ clampTo start stop t.time

namespace Walk

theorem start_le_stop (h : Walk kind start stop since changes) : start ≤ stop :=
  h.start_le.trans h.le_stop

theorem begin (hstart : kind start) (hstop : kind stop) (hle : start ≤ stop)
    (hchanges : ∀ t ∈ changes, kind t.time) (hsorted : Sorted Transition.time changes) :
    Walk kind start stop start changes :=
  ⟨hstart, hstop, hstart, hchanges, hsorted, le_rfl, hle, fun t _ => le_clampTo hle t.time⟩

/-- The walk comes to the next change. -/
theorem next (h : Walk kind start stop since (t :: rest)) :
    Walk kind start stop (clampTo start stop t.time) rest := by
  obtain ⟨ht, hsorted⟩ := List.pairwise_cons.1 h.sorted
  refine ⟨h.kind_start, h.kind_stop, ?_, fun u hu => h.kind_changes u (List.mem_cons_of_mem _ hu),
    hsorted, le_clampTo h.start_le_stop _, clampTo_le h.start_le_stop _, fun u hu => ?_⟩
  · obtain hclamp | hclamp | hclamp := clampTo_cases start stop t.time <;> rw [hclamp]
    · exact h.kind_start
    · exact h.kind_stop
    · exact h.kind_changes t List.mem_cons_self
  · exact clampTo_le_clampTo h.start_le_stop (ht u hu)

/-- The ends of a stretch are of the kind, and in order. -/
theorem stretches_spec (h : Walk kind start stop since changes) (status : Status) :
    ∀ s ∈ stretches start stop status since changes,
      kind s.start ∧ kind s.stop ∧ s.start ≤ s.stop := by
  induction changes generalizing status since with
  | nil =>
    intro s hs
    obtain rfl := List.mem_singleton.1 hs
    exact ⟨h.kind_since, h.kind_stop, h.le_stop⟩
  | cons t rest ih =>
    intro s hs
    rcases List.mem_cons.1 hs with rfl | hs
    · exact ⟨h.kind_since, h.next.kind_since, h.ahead t List.mem_cons_self⟩
    · exact ih h.next t.target s hs

end Walk

/-! ## Counting -/

/-- The number of ticks from `a` up to but not including `b` at which the status in force is on. -/
def onTicks (moment : Int → Instant) (initial : Status) (changes : List Transition) (a b : Int) :
    Nat :=
  Nat.count (fun k => statusInForce initial changes (moment (a + k)) = .on) (b - a).toNat

theorem onTicks_add {a b c : Int} (hab : a ≤ b) (hbc : b ≤ c) :
    onTicks moment initial changes a c =
      onTicks moment initial changes a b + onTicks moment initial changes b c := by
  have hlength : (c - a).toNat = (b - a).toNat + (c - b).toNat := by omega
  have hshift : ∀ k : Nat, a + ((b - a).toNat + k : Nat) = b + k := by
    intro k
    omega
  simp only [onTicks, hlength, Nat.count_add, hshift]

theorem onTicks_congr {initial' : Status} {changes' : List Transition} {a b : Int}
    (h : ∀ n, a ≤ n → n < b →
      statusInForce initial changes (moment n) = statusInForce initial' changes' (moment n)) :
    onTicks moment initial changes a b = onTicks moment initial' changes' a b := by
  refine List.countP_congr fun k hk => ?_
  have hlt := List.mem_range.1 hk
  simp only [h (a + k) (by omega) (by omega)]

/-- All ticks count iff the status is on at each. -/
theorem onTicks_eq_length_iff {a b : Int} (hab : a ≤ b) :
    (onTicks moment initial changes a b : Int) = b - a ↔
      ∀ n, a ≤ n → n < b → statusInForce initial changes (moment n) = .on := by
  have hlength : ((b - a).toNat : Int) = b - a := Int.toNat_of_nonneg (by omega)
  rw [← hlength, onTicks, Nat.cast_inj, Nat.count_iff_forall]
  constructor
  · intro hall n hfrom huntil
    have hn := hall (n - a).toNat (by omega)
    rwa [Int.toNat_of_nonneg (by omega), add_sub_cancel] at hn
  · intro hall k hk
    exact hall (a + k) (by omega) (by omega)

/-- Between changes, all ticks are alike. -/
theorem onTicks_of_constant {a b : Int} (hab : a ≤ b)
    (h : ∀ n, a ≤ n → n < b → statusInForce initial changes (moment n) = status) :
    (onTicks moment initial changes a b : Int) = if status = .on then b - a else 0 := by
  split_ifs with hon
  · exact (onTicks_eq_length_iff hab).2 fun n hfrom huntil => (h n hfrom huntil).trans hon
  · rw [onTicks, Nat.count_of_forall_not fun k hk => ?_, Nat.cast_zero]
    rw [h (a + k) (by omega) (by omega)]
    exact hon

theorem onTicks_le_length {a b : Int} (hab : a ≤ b) :
    (onTicks moment initial changes a b : Int) ≤ b - a := by
  have hle : onTicks moment initial changes a b ≤ (b - a).toNat := Nat.count_le _
  omega

/-- **The ticks at which a server is on** are those of the stretches for which it is on. -/
theorem onTicks_eq_sum (hdial : IsDial kind tick moment)
    (h : Walk kind start stop since changes) (status : Status) :
    (onTicks moment status changes (tick since) (tick stop) : Int) =
      ((stretches start stop status since changes).map (Stretch.ticks tick)).sum := by
  induction changes generalizing status since with
  | nil =>
    have hle := (hdial.le_iff h.kind_since h.kind_stop).1 h.le_stop
    have hconstant : ∀ n, tick since ≤ n → n < tick stop →
        statusInForce status [] (moment n) = status := fun _ _ _ => rfl
    rw [onTicks_of_constant hle hconstant]
    simp [stretches, Stretch.ticks]
  | cons t rest ih =>
    have hnext := h.next
    have hahead : since ≤ clampTo start stop t.time := h.ahead t List.mem_cons_self
    have hbehind := (hdial.le_iff h.kind_since hnext.kind_since).1 hahead
    have hrest := (hdial.le_iff hnext.kind_since h.kind_stop).1 hnext.le_stop
    -- A tick is a moment in the stretch, and its number says whether the change is over.
    have htick : ∀ n, tick since ≤ n → n < tick stop →
        (t.time ≤ moment n ↔ tick (clampTo start stop t.time) ≤ n) := by
      intro n hge hlt
      have hmoment {u : Instant} (hu : kind u) :=
        hdial.le_moment_iff h.kind_since h.kind_stop hu hge hlt
      have hfrom : start ≤ moment n := h.start_le.trans ((hmoment h.kind_since).2 hge)
      have huntil : moment n < stop := by
        rw [← not_le, hmoment h.kind_stop, not_le]
        exact hlt
      rw [← not_lt, ← lt_clampTo_iff hfrom huntil, not_lt, hmoment hnext.kind_since]
    have hfirst : ∀ n, tick since ≤ n → n < tick (clampTo start stop t.time) →
        statusInForce status (t :: rest) (moment n) = status := by
      intro n hge hlt
      refine statusInForce_of_lt h.sorted ?_
      rw [← not_le, htick n hge (hlt.trans_le hrest), not_le]
      exact hlt
    have hthen : ∀ n, tick (clampTo start stop t.time) ≤ n → n < tick stop →
        statusInForce status (t :: rest) (moment n) =
          statusInForce t.target rest (moment n) := by
      intro n hge hlt
      exact statusInForce_of_le h.sorted ((htick n (hbehind.trans hge) hlt).2 hge)
    rw [onTicks_add hbehind hrest, Nat.cast_add, onTicks_of_constant hbehind hfirst,
      onTicks_congr hthen, ih hnext]
    simp [stretches, Stretch.ticks]

/-! ## Cut to the millisecond -/

/-- The moment is a whole number of milliseconds, outside leap seconds. -/
def IsWholeMilli (t : Instant) : Prop :=
  t.isLeap = false ∧ t.floor = t

instance : DecidablePred IsWholeMilli :=
  fun t => inferInstanceAs (Decidable (t.isLeap = false ∧ t.floor = t))

/-- Of a stretch between whole milliseconds nothing is cut. -/
theorem Stretch.millis_eq_ticks {s : Stretch} (hstart : IsWholeMilli s.start)
    (hstop : IsWholeMilli s.stop) : s.millis = s.ticks Instant.toMillis := by
  have hsince : s.stop.since s.start =
      (s.stop.toMillis - s.start.toMillis) * Span.millisecond := by
    rw [Instant.since_eq hstart.1 hstop.1, Instant.nanos_of_floor_eq hstart.2,
      Instant.nanos_of_floor_eq hstop.2]
    exact (Int.sub_mul ..).symm
  rw [millis, countedMillis, ticks, hsince, Span.toMillis,
    Int.mul_tdiv_cancel _ (by decide : Span.millisecond ≠ 0)]

/-- Of a stretch for which the server is on less than a millisecond is cut. -/
theorem Stretch.millis_bounds {s : Stretch} (hstart : s.start.isLeap = false)
    (hstop : s.stop.isLeap = false) (hle : s.start ≤ s.stop) :
    0 ≤ s.millis ∧ s.millis * 1000000 ≤ s.ticks Instant.nanos ∧
      s.ticks Instant.nanos ≤ s.millis * 1000000 + 999999 * if s.IsOn then 1 else 0 := by
  have hnanos := (Instant.le_iff_nanos_le hstart hstop).1 hle
  have hlt : s.start < s.stop ↔ s.start.nanos < s.stop.nanos := by
    rw [← not_le, Instant.le_iff_nanos_le hstop hstart, not_le]
  by_cases hon : s.status = .on
  · have hdiv : (s.stop.since s.start).toMillis =
        (s.stop.nanos - s.start.nanos) / 1000000 := by
      rw [Instant.since_eq hstart hstop]
      exact Int.tdiv_eq_ediv_of_nonneg (by omega)
    have hmillis : s.millis = (s.stop.nanos - s.start.nanos) / 1000000 := by
      rw [millis, countedMillis, if_pos hon, hdiv]
    have hticks : s.ticks Instant.nanos = s.stop.nanos - s.start.nanos := if_pos hon
    simp only [hmillis, hticks, IsOn, hon, true_and, hlt]
    split_ifs <;> omega
  · have hmillis : s.millis = 0 := if_neg hon
    have hticks : s.ticks Instant.nanos = 0 := if_neg hon
    simp [hmillis, hticks, IsOn, hon]

theorem sum_millis_bounds {ss : List Stretch}
    (h : ∀ s ∈ ss, s.start.isLeap = false ∧ s.stop.isLeap = false ∧ s.start ≤ s.stop) :
    0 ≤ (ss.map Stretch.millis).sum ∧
      (ss.map Stretch.millis).sum * 1000000 ≤ (ss.map (Stretch.ticks Instant.nanos)).sum ∧
      (ss.map (Stretch.ticks Instant.nanos)).sum ≤
        (ss.map Stretch.millis).sum * 1000000 + 999999 * ss.countP fun s => s.IsOn := by
  induction ss with
  | nil => simp
  | cons s rest ih =>
    obtain ⟨⟨hstart, hstop, hle⟩, hrest⟩ := List.forall_mem_cons.1 h
    have hfirst := Stretch.millis_bounds hstart hstop hle
    have hothers := ih hrest
    simp only [List.map_cons, List.sum_cons, List.countP_cons, decide_eq_true_eq]
    push_cast
    split_ifs at hfirst ⊢ <;> omega

/-- The nanoseconds between `start` and `stop` for which a server was on. -/
def onNanos (initial : Status) (changes : List Transition) (start stop : Instant) : Nat :=
  onTicks ofNanos initial changes start.nanos stop.nanos

/-- The number of stretches for which a server was on.  A stretch has some length and lies between
neighbouring entries of the log, or between one of them and an end of the window.  So an entry that
changes nothing cuts a time in which the server was on throughout into two stretches, and so do two
entries of one moment that turn the server off and on. -/
def onStretches (initial : Status) (changes : List Transition) (start stop : Instant) : Nat :=
  (stretches start stop initial start changes).countP fun s => s.IsOn

/-- **Of whole milliseconds nothing is cut.** -/
theorem onMillis_eq_onTicks (hstart : IsWholeMilli start) (hstop : IsWholeMilli stop)
    (hle : start ≤ stop) (hchanges : ∀ t ∈ changes, IsWholeMilli t.time)
    (hsorted : Sorted Transition.time changes) :
    onMillis initial changes start stop =
      onTicks Instant.ofMillis initial changes start.toMillis stop.toMillis := by
  have hwalk : Walk IsWholeMilli start stop start changes :=
    .begin hstart hstop hle hchanges hsorted
  rw [onTicks_eq_sum Instant.isDial_millis hwalk, onMillis, onMillisFrom_eq_sum]
  refine congrArg List.sum (List.map_congr_left fun s hs => ?_)
  obtain ⟨hfrom, huntil, -⟩ := hwalk.stretches_spec initial s hs
  exact Stretch.millis_eq_ticks hfrom huntil

/-- **Of nanoseconds less than a millisecond is cut from each stretch**, and nothing is added. -/
theorem onMillis_bounds (hstart : start.isLeap = false) (hstop : stop.isLeap = false)
    (hle : start ≤ stop) (hchanges : ∀ t ∈ changes, t.time.isLeap = false)
    (hsorted : Sorted Transition.time changes) :
    0 ≤ onMillis initial changes start stop ∧
      onMillis initial changes start stop * 1000000 ≤ onNanos initial changes start stop ∧
      (onNanos initial changes start stop : Int) ≤
        onMillis initial changes start stop * 1000000 +
          999999 * onStretches initial changes start stop := by
  have hwalk : Walk (fun t => t.isLeap = false) start stop start changes :=
    .begin hstart hstop hle hchanges hsorted
  rw [onNanos, onTicks_eq_sum Instant.isDial_nanos hwalk, onMillis, onMillisFrom_eq_sum,
    onStretches]
  exact sum_millis_bounds (hwalk.stretches_spec initial)

theorem onNanos_le (hstart : start.isLeap = false) (hstop : stop.isLeap = false)
    (hle : start ≤ stop) :
    (onNanos initial changes start stop : Int) ≤ stop.nanos - start.nanos :=
  onTicks_le_length ((Instant.le_iff_nanos_le hstart hstop).1 hle)

/-! ## The share -/

/-- The milliseconds from `start` to `stop`. -/
def totalMillis (start stop : Instant) : Int :=
  (stop.since start).toMillis

theorem totalMillis_eq_div (hstart : start.isLeap = false) (hstop : stop.isLeap = false)
    (hle : start ≤ stop) : totalMillis start stop = (stop.nanos - start.nanos) / 1000000 := by
  have hnanos := (Instant.le_iff_nanos_le hstart hstop).1 hle
  rw [totalMillis, Instant.since_eq hstart hstop]
  exact Int.tdiv_eq_ediv_of_nonneg (by omega)

/-- The exact share of a stretch of time for which a server was on, in percent. -/
def onShare (initial : Status) (changes : List Transition) (start stop : Instant) : ℚ :=
  onMillis initial changes start stop * 100 / totalMillis start stop

/-- A server is on at all whole milliseconds of a stretch between such iff it is on at all
moments. -/
theorem forall_ofMillis_iff (hstart : IsWholeMilli start) (hstop : IsWholeMilli stop)
    (hchanges : ∀ t ∈ changes, IsWholeMilli t.time) :
    (∀ n, start.toMillis ≤ n → n < stop.toMillis →
        statusInForce initial changes (Instant.ofMillis n) = .on) ↔
      ∀ time, start ≤ time → time < stop → statusInForce initial changes time = .on := by
  constructor
  · intro hall time hfrom huntil
    obtain ⟨u, hleap, hwhole, hu⟩ := Instant.exists_whole_le time
    have hsame : statusInForce initial changes time = statusInForce initial changes u :=
      statusInForce_congr fun t ht => hu t.time (hchanges t ht).1 (hchanges t ht).2
    have hmillis : Instant.ofMillis u.toMillis = u := by
      rw [Instant.ofMillis_toMillis hleap, hwhole]
    rw [hsame, ← hmillis]
    have htick {t : Instant} (ht : IsWholeMilli t) : t ≤ time ↔ t.toMillis ≤ u.toMillis :=
      (hu t ht.1 ht.2).trans (Instant.isDial_millis.le_iff ht ⟨hleap, hwhole⟩)
    refine hall u.toMillis ((htick hstart).1 hfrom) ?_
    rw [← not_le, ← htick hstop, not_le]
    exact huntil
  · intro hall n hfrom huntil
    have hmoment {t : Instant} (ht : IsWholeMilli t) :=
      Instant.isDial_millis.le_moment_iff hstart hstop ht hfrom huntil
    refine hall _ ((hmoment hstart).2 hfrom) ?_
    rw [← not_le, hmoment hstop, not_le]
    exact huntil

/-- What uptime says of the time for which a server was on. -/
structure Measured (initial : Status) (changes : List Transition) (start stop : Instant) :
    Prop where
  nonneg : 0 ≤ onMillis initial changes start stop
  le_total : onMillis initial changes start stop ≤ totalMillis start stop
  /-- Nothing is added to the exact time. -/
  le_exact : onMillis initial changes start stop * 1000000 ≤ onNanos initial changes start stop
  /-- Less than a millisecond is missing for each stretch for which the server was on.  Each stretch
  is cut to whole milliseconds by itself, so that a time in which the server was on throughout can
  lose more than a millisecond if there are entries in it (`onStretches`). -/
  exact_le : (onNanos initial changes start stop : Int) ≤
    onMillis initial changes start stop * 1000000 +
      999999 * onStretches initial changes start stop
  /-- Of whole milliseconds nothing is missing: those at which the server was on are counted. -/
  whole : IsWholeMilli start → IsWholeMilli stop → (∀ t ∈ changes, IsWholeMilli t.time) →
    onMillis initial changes start stop =
      onTicks Instant.ofMillis initial changes start.toMillis stop.toMillis
  share_nonneg : 0 ≤ onShare initial changes start stop
  share_le : onShare initial changes start stop ≤ 100
  /-- A full share of a stretch of whole milliseconds means that the server was on throughout. -/
  share_eq_iff : IsWholeMilli start → IsWholeMilli stop → (∀ t ∈ changes, IsWholeMilli t.time) →
    (onShare initial changes start stop = 100 ↔
      ∀ time, start ≤ time → time < stop → statusInForce initial changes time = .on)
  /-- The percentage is the share, computed with doubles and rounded. -/
  percent : uptimePercent initial changes start stop = .ok
    (if totalMillis start stop ≤ 0 then 0.0
      else round2 (doubleOf (onMillis initial changes start stop) * 100.0 /
        doubleOf (totalMillis start stop)))

theorem share_eq_hundred_iff (htotal : 0 < totalMillis start stop) :
    onShare initial changes start stop = 100 ↔
      onMillis initial changes start stop = totalMillis start stop := by
  have hpos : (0 : ℚ) < totalMillis start stop := by exact_mod_cast htotal
  rw [onShare, div_eq_iff hpos.ne']
  constructor
  · intro h
    have hcast : (onMillis initial changes start stop : ℚ) = totalMillis start stop := by
      linarith only [h]
    exact_mod_cast hcast
  · intro h
    rw [h, mul_comm]

/-- The share of a stretch of whole milliseconds is full iff the server is on throughout. -/
theorem share_eq_hundred_iff_forall (hstart : IsWholeMilli start) (hstop : IsWholeMilli stop)
    (hlt : start < stop) (hchanges : ∀ t ∈ changes, IsWholeMilli t.time)
    (hsorted : Sorted Transition.time changes) :
    onShare initial changes start stop = 100 ↔
      ∀ time, start ≤ time → time < stop → statusInForce initial changes time = .on := by
  have hmillis : start.toMillis < stop.toMillis := by
    rw [← not_le, ← Instant.isDial_millis.le_iff hstop hstart, not_le]
    exact hlt
  have htotal : totalMillis start stop = stop.toMillis - start.toMillis := by
    rw [totalMillis_eq_div hstart.1 hstop.1 hlt.le, Instant.nanos_of_floor_eq hstart.2,
      Instant.nanos_of_floor_eq hstop.2]
    omega
  rw [share_eq_hundred_iff (by omega), htotal,
    onMillis_eq_onTicks hstart hstop hlt.le hchanges hsorted, onTicks_eq_length_iff hmillis.le,
    forall_ofMillis_iff hstart hstop hchanges]

/-- **Uptime measures the time for which a server was on**, for changes in the order of time: with
any number of them at one moment, with or without an effect, within the stretch of time or outside
of it. -/
theorem onMillis_measures (hstart : start.isLeap = false) (hstop : stop.isLeap = false)
    (hlt : start < stop) (hchanges : ∀ t ∈ changes, t.time.isLeap = false)
    (hsorted : Sorted Transition.time changes) (initial : Status) :
    Measured initial changes start stop := by
  obtain ⟨hnonneg, hexact, hcut⟩ : 0 ≤ onMillis initial changes start stop ∧ _ ∧ _ :=
    onMillis_bounds hstart hstop hlt.le hchanges hsorted
  have hlength : (onNanos initial changes start stop : Int) ≤ stop.nanos - start.nanos :=
    onNanos_le hstart hstop hlt.le
  have htotal : onMillis initial changes start stop ≤ totalMillis start stop := by
    rw [totalMillis_eq_div hstart hstop hlt.le]
    omega
  have hnonnegQ : (0 : ℚ) ≤ onMillis initial changes start stop := by exact_mod_cast hnonneg
  have htotalQ : (onMillis initial changes start stop : ℚ) ≤ totalMillis start stop := by
    exact_mod_cast htotal
  refine ⟨hnonneg, htotal, hexact, hcut, ?_, ?_, ?_, ?_, ?_⟩
  · intro hstart hstop hchanges
    exact onMillis_eq_onTicks hstart hstop hlt.le hchanges hsorted
  · exact div_nonneg (by linarith) (by linarith)
  · exact div_le_of_le_mul₀ (by linarith) (by norm_num) (by linarith)
  · intro hstart hstop hchanges
    exact share_eq_hundred_iff_forall hstart hstop hlt hchanges hsorted
  · rw [uptimePercent, totalMillis]
    have hforward : ¬ (stop < start ∧ changes ≠ []) := fun h => absurd h.1 hlt.asymm
    split_ifs <;> rfl

/-- So many nanoseconds past noon. -/
private def sinceNoon (nanos : Nat) : Instant :=
  (Instant.normalize? 20000 43200 nanos).getD .last

/-- Changes before the stretch, without an effect, two at one moment, and after the stretch. -/
private def restless : List Transition :=
  [⟨"a", .off, .on, sinceNoon 0⟩, ⟨"a", .on, .on, sinceNoon 700000⟩,
    ⟨"a", .on, .off, sinceNoon 2500000⟩, ⟨"a", .off, .on, sinceNoon 2500000⟩,
    ⟨"a", .on, .off, sinceNoon 6200000⟩, ⟨"a", .off, .on, sinceNoon 12000000⟩]

/-- Of 5.9 milliseconds in three stretches 4 are left; and a server is on throughout though it is
turned on again. -/
theorem onMillis_measures_restless :
    (Measured .off restless (sinceNoon 300000) (sinceNoon 10000000) ∧
        onMillis .off restless (sinceNoon 300000) (sinceNoon 10000000) = 4 ∧
        onStretches .off restless (sinceNoon 300000) (sinceNoon 10000000) = 3) ∧
      onShare .on [⟨"a", .off, .on, sinceNoon 4000000⟩] (sinceNoon 0) (sinceNoon 9000000) = 100 ∧
      ∀ time, sinceNoon 0 ≤ time → time < sinceNoon 9000000 →
        statusInForce .on [⟨"a", .off, .on, sinceNoon 4000000⟩] time = .on := by
  have hsorted : Sorted Transition.time restless := by
    show List.Pairwise _ _
    decide +kernel
  have hmeasured : Measured .on [⟨"a", .off, .on, sinceNoon 4000000⟩] (sinceNoon 0)
      (sinceNoon 9000000) :=
    onMillis_measures (by decide +kernel) (by decide +kernel) (by decide +kernel)
      (by decide +kernel) (List.pairwise_singleton _ _) .on
  have hfull : onShare .on [⟨"a", .off, .on, sinceNoon 4000000⟩] (sinceNoon 0)
      (sinceNoon 9000000) = 100 := by
    rw [share_eq_hundred_iff (by decide +kernel)]
    decide +kernel
  refine ⟨⟨?_, by decide +kernel, by decide +kernel⟩, hfull, ?_⟩
  · exact onMillis_measures (by decide +kernel) (by decide +kernel) (by decide +kernel)
      (by decide +kernel) hsorted .off
  · exact (hmeasured.share_eq_iff (by decide +kernel) (by decide +kernel) (by decide +kernel)).1
      hfull

end Pulse
