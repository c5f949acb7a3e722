import Mathlib.Order.Lattice
import Pulse.Ordered

/-!
# Laws of lists in order

What `Ordered.put` and `Ordered.sortBy` guarantee once keys are linearly ordered.

* A list that is `Ascending` stays so under `put` (`Ascending.put`), and looking a key up is then
  the same as being a member with that key (`Ascending.get?_eq_some_iff`).
* Putting an item again changes nothing, and items of different keys can be put in either order
  (`Ascending.put_eq_self`, `Ascending.put_comm`).
* `sortBy` gives the same items (`perm_sortBy`) in order (`sorted_sortBy`) and leaves alone what is
  in order already (`sortBy_eq_self`).
* Both carry over along a map that respects keys (`map_put`, `map_sortBy`).
* Of the items with the greatest key one stands last, `IsLast`; it is found at the end of the sorted
  items (`getLast?_sortBy_eq_some_iff`), whatever the order of the items was.
-/

set_option autoImplicit false

namespace Pulse.Ordered

variable {α β κ ι : Type} [LinearOrder κ] [LinearOrder ι] {key : α → κ}

/-! ## One item for each key -/

/-- The keys go up from item to item. -/
def Ascending (key : α → κ) (items : List α) : Prop :=
  items.Pairwise fun a b => key a < key b

theorem Ascending.put {items : List α} (h : Ascending key items) (a : α) :
    Ascending key (put key a items) := by
  induction items with
  | nil => exact List.pairwise_singleton _ a
  | cons b rest ih =>
    obtain ⟨hb, hrest⟩ := List.pairwise_cons.1 h
    rw [Ordered.put]
    split_ifs with heq hlt
    · exact List.pairwise_cons.2 ⟨fun c hc => heq ▸ hb c hc, hrest⟩
    · refine List.pairwise_cons.2 ⟨fun c hc => ?_, h⟩
      rcases List.mem_cons.1 hc with rfl | hc
      · exact hlt
      · exact hlt.trans (hb c hc)
    · refine List.pairwise_cons.2 ⟨fun c hc => ?_, ih hrest⟩
      rcases mem_put hc with rfl | hc
      · exact lt_of_le_of_ne (not_lt.1 hlt) (Ne.symm heq)
      · exact hb c hc

theorem key_of_get? {k : κ} {items : List α} {a : α} (h : get? key k items = some a) :
    key a = k := by
  simpa using List.find?_some h

theorem mem_of_get? {k : κ} {items : List α} {a : α} (h : get? key k items = some a) :
    a ∈ items :=
  List.mem_of_find?_eq_some h

/-- In ascending items, the item of a key is the member that has it. -/
theorem Ascending.get?_eq_some_iff {items : List α} (h : Ascending key items) {k : κ} {a : α} :
    get? key k items = some a ↔ a ∈ items ∧ key a = k := by
  refine ⟨fun ha => ⟨mem_of_get? ha, key_of_get? ha⟩, ?_⟩
  rintro ⟨ha, rfl⟩
  induction items with
  | nil => cases ha
  | cons b rest ih =>
    obtain ⟨hb, hrest⟩ := List.pairwise_cons.1 h
    rcases List.mem_cons.1 ha with rfl | ha
    · simp [get?]
    · have hne : key b ≠ key a := (hb a ha).ne
      simpa [get?, hne] using ih hrest ha

theorem get?_map {f : α → β} {key' : β → κ} (hkey : ∀ a, key' (f a) = key a) (k : κ)
    (items : List α) : get? key' k (items.map f) = (get? key k items).map f := by
  simp only [get?, List.find?_map, Function.comp_def, hkey]

/-- In ascending items, putting an item replaces the one of its key and no other. -/
theorem Ascending.mem_put_iff {items : List α} (h : Ascending key items) {a b : α} :
    b ∈ Ordered.put key a items ↔ b = a ∨ b ∈ items ∧ key b ≠ key a := by
  have hb := (h.put a).get?_eq_some_iff (k := key b) (a := b)
  rw [get?_put, and_iff_left rfl] at hb
  rw [← hb]
  split_ifs with hk
  · simp only [Option.some_inj, hk, ne_eq, not_true, and_false, or_false, eq_comm]
  · rw [h.get?_eq_some_iff, and_iff_left rfl]
    constructor
    · exact fun hb => .inr ⟨hb, fun hk' => hk hk'.symm⟩
    · rintro (rfl | ⟨hb, -⟩)
      · exact absurd rfl hk
      · exact hb

/-- Ascending items are known by their members. -/
theorem Ascending.ext {items more : List α} (h : Ascending key items) (h' : Ascending key more)
    (hmem : ∀ a, a ∈ items ↔ a ∈ more) : items = more := by
  have hne {a b : α} (hlt : key a < key b) : a ≠ b := fun hab => hlt.ne (congrArg key hab)
  have hperm : items.Perm more := (List.perm_ext_iff_of_nodup (h.imp hne) (h'.imp hne)).2 hmem
  exact hperm.eq_of_pairwise (fun a b _ _ hab hba => absurd hba hab.asymm) h h'

/-- An item that is there already changes nothing. -/
theorem Ascending.put_eq_self {items : List α} (h : Ascending key items) {a : α} (ha : a ∈ items) :
    Ordered.put key a items = items := by
  refine (h.put a).ext h fun b => ?_
  rw [h.mem_put_iff]
  constructor
  · rintro (rfl | ⟨hb, -⟩)
    · exact ha
    · exact hb
  · intro hb
    by_cases hk : key b = key a
    · have hget := h.get?_eq_some_iff.2 ⟨ha, hk.symm⟩
      rw [h.get?_eq_some_iff.2 ⟨hb, rfl⟩, Option.some_inj] at hget
      exact .inl hget
    · exact .inr ⟨hb, hk⟩

/-- Of two items of one key, the one put last stays. -/
theorem Ascending.put_put_of_eq {items : List α} (h : Ascending key items) {a b : α}
    (hk : key b = key a) : Ordered.put key a (Ordered.put key b items) = Ordered.put key a items := by
  refine ((h.put b).put a).ext (h.put a) fun c => ?_
  rw [(h.put b).mem_put_iff, h.mem_put_iff, h.mem_put_iff, hk]
  constructor
  · rintro (rfl | ⟨rfl | ⟨hc, -⟩, hne⟩)
    · exact .inl rfl
    · exact absurd hk hne
    · exact .inr ⟨hc, hne⟩
  · rintro (rfl | ⟨hc, hne⟩)
    · exact .inl rfl
    · exact .inr ⟨.inr ⟨hc, hne⟩, hne⟩

/-- Items of different keys can be put in either order. -/
theorem Ascending.put_comm {items : List α} (h : Ascending key items) {a b : α}
    (hk : key a ≠ key b) :
    Ordered.put key a (Ordered.put key b items) = Ordered.put key b (Ordered.put key a items) := by
  refine ((h.put b).put a).ext ((h.put a).put b) fun c => ?_
  rw [(h.put b).mem_put_iff, (h.put a).mem_put_iff, h.mem_put_iff, h.mem_put_iff]
  constructor
  · rintro (rfl | ⟨rfl | ⟨hc, hb⟩, ha⟩)
    · exact .inr ⟨.inl rfl, hk⟩
    · exact .inl rfl
    · exact .inr ⟨.inr ⟨hc, ha⟩, hb⟩
  · rintro (rfl | ⟨rfl | ⟨hc, ha⟩, hb⟩)
    · exact .inr ⟨.inl rfl, hk.symm⟩
    · exact .inl rfl
    · exact .inr ⟨.inr ⟨hc, hb⟩, ha⟩

/-- An item after all of the first items goes among the others. -/
theorem put_append_of_lt {front rest : List α} {a : α} (h : ∀ b ∈ front, key b < key a) :
    put key a (front ++ rest) = front ++ put key a rest := by
  induction front with
  | nil => rfl
  | cons b front ih =>
    have hb := h b List.mem_cons_self
    rw [List.cons_append, put, if_neg hb.ne', if_neg hb.asymm,
      ih fun c hc => h c (List.mem_cons_of_mem _ hc)]
    rfl

/-- An item that is not after all of the first items goes among them. -/
theorem put_append_of_le {front rest : List α} {a : α} (h : ∃ b ∈ front, key a ≤ key b) :
    put key a (front ++ rest) = put key a front ++ rest := by
  induction front with
  | nil =>
    obtain ⟨b, hb, -⟩ := h
    cases hb
  | cons b front ih =>
    rw [List.cons_append, put, put]
    split_ifs with heq hlt
    · rfl
    · rfl
    · obtain ⟨c, hc, hle⟩ := h
      rcases List.mem_cons.1 hc with rfl | hc
      · exact absurd (lt_of_le_of_ne hle heq) hlt
      · rw [ih ⟨c, hc, hle⟩]
        rfl

/-- An item before all others comes first. -/
theorem put_eq_cons {items : List α} {a : α} (h : ∀ b ∈ items, key a < key b) :
    put key a items = a :: items := by
  cases items with
  | nil => rfl
  | cons b rest =>
    have hb := h b List.mem_cons_self
    rw [put, if_neg hb.ne, if_pos hb]

theorem length_le_length_put (a : α) (items : List α) :
    items.length ≤ (put key a items).length := by
  induction items with
  | nil => simp
  | cons b rest ih =>
    rw [put]
    split_ifs <;> simp [ih]

/-- Putting carries over along a map that compares keys alike. -/
theorem map_put {f : α → β} {key' : β → ι} {a : α} {items : List α}
    (heq : ∀ b ∈ items, key' (f a) = key' (f b) ↔ key a = key b)
    (hlt : ∀ b ∈ items, key' (f a) < key' (f b) ↔ key a < key b) :
    (put key a items).map f = put key' (f a) (items.map f) := by
  induction items with
  | nil => rfl
  | cons b rest ih =>
    have ih := ih (fun c hc => heq c (List.mem_cons_of_mem _ hc))
      (fun c hc => hlt c (List.mem_cons_of_mem _ hc))
    simp only [put, List.map_cons, heq b List.mem_cons_self, hlt b List.mem_cons_self]
    split_ifs <;> simp [ih]

/-! ## Sorting -/

theorem perm_insertBy (a : α) (items : List α) : (insertBy key a items).Perm (a :: items) := by
  induction items with
  | nil => exact List.Perm.refl _
  | cons b rest ih =>
    rw [insertBy]
    split
    · exact (ih.cons b).trans (List.Perm.swap a b rest)
    · exact List.Perm.refl _

theorem perm_sortBy (key : α → κ) (items : List α) : (sortBy key items).Perm items := by
  induction items with
  | nil => exact List.Perm.refl _
  | cons a rest ih => exact (perm_insertBy a _).trans (ih.cons a)

/-- The keys do not go down from item to item. -/
def Sorted (key : α → κ) (items : List α) : Prop :=
  items.Pairwise fun a b => key a ≤ key b

theorem Sorted.insertBy {items : List α} (h : Sorted key items) (a : α) :
    Sorted key (insertBy key a items) := by
  induction items with
  | nil => exact List.pairwise_singleton _ a
  | cons b rest ih =>
    obtain ⟨hb, hrest⟩ := List.pairwise_cons.1 h
    rw [Ordered.insertBy]
    split_ifs with hlt
    · refine List.pairwise_cons.2 ⟨fun c hc => ?_, ih hrest⟩
      rcases List.mem_cons.1 ((perm_insertBy a rest).mem_iff.1 hc) with rfl | hc
      · exact hlt.le
      · exact hb c hc
    · refine List.pairwise_cons.2 ⟨fun c hc => ?_, h⟩
      rcases List.mem_cons.1 hc with rfl | hc
      · exact not_lt.1 hlt
      · exact (not_lt.1 hlt).trans (hb c hc)

theorem sorted_sortBy (key : α → κ) (items : List α) : Sorted key (sortBy key items) := by
  induction items with
  | nil => exact List.Pairwise.nil
  | cons a rest ih => exact ih.insertBy a

theorem insertBy_eq_cons {a : α} {items : List α} (h : ∀ b ∈ items, key a ≤ key b) :
    insertBy key a items = a :: items := by
  cases items with
  | nil => rfl
  | cons b rest => rw [insertBy, if_neg (not_lt.2 (h b List.mem_cons_self))]

/-- What is in order is left alone. -/
theorem sortBy_eq_self {items : List α} (h : Sorted key items) : sortBy key items = items := by
  induction items with
  | nil => rfl
  | cons a rest ih =>
    obtain ⟨ha, hrest⟩ := List.pairwise_cons.1 h
    show insertBy key a (sortBy key rest) = a :: rest
    rw [ih hrest, insertBy_eq_cons ha]

/-- Items in order come in two parts, those before a key and the others. -/
theorem Sorted.filter_append_filter {items : List α} (h : Sorted key items) (k : κ) :
    items.filter (fun a => key a < k) ++ items.filter (fun a => k ≤ key a) = items := by
  induction items with
  | nil => rfl
  | cons a rest ih =>
    obtain ⟨ha, hrest⟩ := List.pairwise_cons.1 h
    by_cases hlt : key a < k
    · simp [hlt, ih hrest]
    · have hle : ∀ b ∈ a :: rest, k ≤ key b := by
        simpa [not_lt.1 hlt] using fun b hb => (not_lt.1 hlt).trans (ha b hb)
      rw [List.filter_eq_nil_iff.2 fun b hb => by simpa using hle b hb,
        List.filter_eq_self.2 fun b hb => by simpa using hle b hb, List.nil_append]

theorem filter_insertBy_of_pos {p : α → Bool} {a : α} {items : List α} (h : Sorted key items)
    (ha : p a = true) :
    (insertBy key a items).filter p = insertBy key a (items.filter p) := by
  induction items with
  | nil => simp [insertBy, ha]
  | cons b rest ih =>
    obtain ⟨hb, hrest⟩ := List.pairwise_cons.1 h
    rw [insertBy]
    split_ifs with hlt
    · cases hp : p b with
      | true => rw [List.filter_cons_of_pos hp, List.filter_cons_of_pos hp, insertBy, if_pos hlt,
          ih hrest]
      | false => rw [List.filter_cons_of_neg (by simp [hp]), List.filter_cons_of_neg (by simp [hp]),
          ih hrest]
    · rw [List.filter_cons_of_pos ha, insertBy_eq_cons]
      intro c hc
      rcases List.mem_cons.1 (List.mem_filter.1 hc).1 with rfl | hc
      · exact not_lt.1 hlt
      · exact (not_lt.1 hlt).trans (hb c hc)

theorem filter_insertBy_of_neg {p : α → Bool} {a : α} (ha : ¬p a = true) (items : List α) :
    (insertBy key a items).filter p = items.filter p := by
  induction items with
  | nil => simp [insertBy, ha]
  | cons b rest ih =>
    rw [insertBy]
    split_ifs
    · rw [List.filter_cons, List.filter_cons, ih]
    · rw [List.filter_cons_of_neg ha]

/-- Choosing some of the items and sorting them is the same in either order. -/
theorem filter_sortBy (p : α → Bool) (items : List α) :
    (sortBy key items).filter p = sortBy key (items.filter p) := by
  induction items with
  | nil => rfl
  | cons a rest ih =>
    show (insertBy key a (sortBy key rest)).filter p = _
    by_cases ha : p a = true
    · rw [filter_insertBy_of_pos (sorted_sortBy key rest) ha, ih, List.filter_cons_of_pos ha]
      rfl
    · rw [filter_insertBy_of_neg ha, ih, List.filter_cons_of_neg ha]

theorem map_insertBy {f : α → β} {key' : β → ι} {a : α} {items : List α}
    (hlt : ∀ b ∈ items, key' (f b) < key' (f a) ↔ key b < key a) :
    (insertBy key a items).map f = insertBy key' (f a) (items.map f) := by
  induction items with
  | nil => rfl
  | cons b rest ih =>
    have ih := ih fun c hc => hlt c (List.mem_cons_of_mem _ hc)
    simp only [insertBy, List.map_cons, hlt b List.mem_cons_self]
    split_ifs <;> simp [ih]

/-- Sorting carries over along a map that compares keys alike. -/
theorem map_sortBy {f : α → β} {key' : β → ι} {items : List α}
    (hlt : ∀ a ∈ items, ∀ b ∈ items, key' (f a) < key' (f b) ↔ key a < key b) :
    (sortBy key items).map f = sortBy key' (items.map f) := by
  induction items with
  | nil => rfl
  | cons a rest ih =>
    have ih := ih fun b hb c hc =>
      hlt b (List.mem_cons_of_mem _ hb) c (List.mem_cons_of_mem _ hc)
    show (insertBy key a (sortBy key rest)).map f = insertBy key' (f a) (sortBy key' (rest.map f))
    rw [← ih]
    refine map_insertBy fun b hb => ?_
    have hb : b ∈ rest := (perm_sortBy key rest).mem_iff.1 hb
    exact hlt b (List.mem_cons_of_mem _ hb) a List.mem_cons_self

/-! ## The last of the greatest -/

/-- No item has a greater key than `a`, and none behind it has the same. -/
def IsLast (key : α → κ) (items : List α) (a : α) : Prop :=
  ∃ front rest, items = front ++ a :: rest ∧
    (∀ b ∈ front, key b ≤ key a) ∧ ∀ b ∈ rest, key b < key a

theorem not_isLast_nil (key : α → κ) (a : α) : ¬ IsLast key [] a := by
  rintro ⟨front, rest, h, -⟩
  simp at h

theorem IsLast.mem {items : List α} {a : α} (h : IsLast key items a) : a ∈ items := by
  obtain ⟨front, rest, rfl, -⟩ := h
  simp

theorem IsLast.le {items : List α} {a b : α} (h : IsLast key items a) (hb : b ∈ items) :
    key b ≤ key a := by
  obtain ⟨front, rest, rfl, hfront, hrest⟩ := h
  rcases List.mem_append.1 hb with hb | hb
  · exact hfront b hb
  · rcases List.mem_cons.1 hb with rfl | hb
    · exact le_rfl
    · exact (hrest b hb).le

/-- One more item at the beginning. -/
theorem isLast_cons {b : α} {items : List α} {a : α} :
    IsLast key (b :: items) a ↔
      (a = b ∧ ∀ c ∈ items, key c < key b) ∨ (key b ≤ key a ∧ IsLast key items a) := by
  constructor
  · rintro ⟨front, rest, hsplit, hfront, hrest⟩
    cases front with
    | nil =>
      obtain ⟨rfl, rfl⟩ := List.cons.inj hsplit
      exact .inl ⟨rfl, hrest⟩
    | cons c front =>
      obtain ⟨rfl, rfl⟩ := List.cons.inj hsplit
      obtain ⟨hb, hfront⟩ := List.forall_mem_cons.1 hfront
      exact .inr ⟨hb, front, rest, rfl, hfront, hrest⟩
  · rintro (⟨rfl, hrest⟩ | ⟨hb, front, rest, rfl, hfront, hrest⟩)
    · exact ⟨[], items, rfl, by simp, hrest⟩
    · exact ⟨b :: front, rest, rfl, List.forall_mem_cons.2 ⟨hb, hfront⟩, hrest⟩

/-- One more item at the end. -/
theorem isLast_append_singleton {b : α} {items : List α} {a : α} :
    IsLast key (items ++ [b]) a ↔
      (a = b ∧ ∀ c ∈ items, key c ≤ key b) ∨ (IsLast key items a ∧ key b < key a) := by
  induction items with
  | nil => simp [isLast_cons, not_isLast_nil]
  | cons c items ih =>
    rw [List.cons_append, isLast_cons, isLast_cons, ih]
    constructor
    · rintro (⟨rfl, hrest⟩ | ⟨hc, ⟨rfl, hrest⟩ | ⟨hlast, hb⟩⟩)
      · exact .inr ⟨.inl ⟨rfl, fun d hd => hrest d (by simp [hd])⟩, hrest b (by simp)⟩
      · exact .inl ⟨rfl, List.forall_mem_cons.2 ⟨hc, hrest⟩⟩
      · exact .inr ⟨.inr ⟨hc, hlast⟩, hb⟩
    · rintro (⟨rfl, hrest⟩ | ⟨⟨rfl, hrest⟩ | ⟨hc, hlast⟩, hb⟩)
      · obtain ⟨hc, hrest⟩ := List.forall_mem_cons.1 hrest
        exact .inr ⟨hc, .inl ⟨rfl, hrest⟩⟩
      · refine .inl ⟨rfl, fun d hd => ?_⟩
        rcases List.mem_append.1 hd with hd | hd
        · exact hrest d hd
        · exact List.mem_singleton.1 hd ▸ hb
      · exact .inr ⟨hc, .inr ⟨hlast, hb⟩⟩

theorem IsLast.unique {items : List α} {a b : α} (ha : IsLast key items a)
    (hb : IsLast key items b) : a = b := by
  induction items with
  | nil => exact absurd ha (not_isLast_nil key a)
  | cons c items ih =>
    obtain ⟨hac, hrest⟩ | ⟨hca, hlast⟩ := isLast_cons.1 ha <;>
      obtain ⟨hbc, hrest'⟩ | ⟨hcb, hlast'⟩ := isLast_cons.1 hb
    · exact hac.trans hbc.symm
    · exact absurd (hrest b hlast'.mem) (not_lt.2 hcb)
    · exact absurd (hrest' a hlast.mem) (not_lt.2 hca)
    · exact ih hlast hlast'

/-- The last of the greatest among the items of a kind. -/
theorem isLast_filter_iff {p : α → Bool} {items : List α} {a : α} :
    IsLast key (items.filter p) a ↔
      ∃ front rest, items = front ++ a :: rest ∧ p a = true ∧
        (∀ b ∈ front, p b = true → key b ≤ key a) ∧ ∀ b ∈ rest, p b = true → key b < key a := by
  constructor
  · rintro ⟨front, rest, hsplit, hfront, hrest⟩
    obtain ⟨before, behind, rfl, rfl, hbehind⟩ := List.filter_eq_append_iff.1 hsplit
    obtain ⟨skipped, rest', rfl, hskipped, ha, rfl⟩ := List.filter_eq_cons_iff.1 hbehind
    refine ⟨before ++ skipped, rest', by simp, ha, fun b hb hp => ?_, fun b hb hp => ?_⟩
    · rcases List.mem_append.1 hb with hb | hb
      · exact hfront b (List.mem_filter.2 ⟨hb, hp⟩)
      · exact absurd hp (hskipped b hb)
    · exact hrest b (List.mem_filter.2 ⟨hb, hp⟩)
  · rintro ⟨front, rest, rfl, ha, hfront, hrest⟩
    refine ⟨front.filter p, rest.filter p, ?_, fun b hb => ?_, fun b hb => ?_⟩
    · rw [List.filter_append, List.filter_cons_of_pos ha]
    · exact hfront b (List.mem_filter.1 hb).1 (List.mem_filter.1 hb).2
    · exact hrest b (List.mem_filter.1 hb).1 (List.mem_filter.1 hb).2

theorem getLast?_insertBy {items : List α} (h : Sorted key items) (a : α) :
    (insertBy key a items).getLast? =
      some (items.getLast?.elim a fun b => if key b < key a then a else b) := by
  induction items with
  | nil => rfl
  | cons b rest ih =>
    obtain ⟨hb, hrest⟩ := List.pairwise_cons.1 h
    rw [insertBy]
    split_ifs with hlt
    · rw [List.getLast?_cons, ih hrest, List.getLast?_cons]
      cases rest.getLast? with
      | none => simp [hlt]
      | some c => rfl
    · rw [List.getLast?_cons_cons, List.getLast?_cons]
      have hle : key a ≤ key (rest.getLast?.getD b) := by
        refine (not_lt.1 hlt).trans ?_
        cases hlast : rest.getLast? with
        | none => exact le_rfl
        | some c => exact hb c (List.mem_of_getLast? hlast)
      simp [not_lt.2 hle]

/-- **The last of the greatest is the last of the sorted items.** -/
theorem getLast?_sortBy_eq_some_iff {items : List α} {a : α} :
    (sortBy key items).getLast? = some a ↔ IsLast key items a := by
  induction items generalizing a with
  | nil => simp [sortBy, not_isLast_nil]
  | cons b items ih =>
    show (insertBy key b (sortBy key items)).getLast? = some a ↔ _
    rw [getLast?_insertBy (sorted_sortBy key items), isLast_cons, Option.some_inj]
    cases hlast : (sortBy key items).getLast? with
    | none =>
      have hnil : items = [] := by
        rw [List.getLast?_eq_none_iff] at hlast
        exact List.perm_nil.1 (hlast ▸ (perm_sortBy key items).symm)
      simp [hnil, not_isLast_nil, eq_comm]
    | some c =>
      have hc : IsLast key items c := ih.1 hlast
      rw [Option.elim_some]
      split_ifs with hlt
      · constructor
        · rintro rfl
          refine .inl ⟨rfl, fun d hd => ?_⟩
          exact (hc.le hd).trans_lt hlt
        · rintro (⟨rfl, -⟩ | ⟨hle, ha⟩)
          · rfl
          · exact absurd (ha.unique hc ▸ hle) (not_le.2 hlt)
      · constructor
        · rintro rfl
          exact .inr ⟨not_lt.1 hlt, hc⟩
        · rintro (⟨-, hrest⟩ | ⟨-, ha⟩)
          · exact absurd (hrest c hc.mem) hlt
          · exact hc.unique ha

/-- The last of the greatest is looked for among the items from a key on, and only if there are none
among those before it. -/
theorem getLast?_sortBy_eq_or (k : κ) (items : List α) :
    (sortBy key items).getLast? =
      (sortBy key (items.filter fun a => k ≤ key a)).getLast?.or
        (sortBy key (items.filter fun a => key a < k)).getLast? := by
  rw [← filter_sortBy, ← filter_sortBy, ← List.getLast?_append,
    (sorted_sortBy key items).filter_append_filter k]

end Pulse.Ordered
