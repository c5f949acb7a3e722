/-!
# Lists in order

Two uses of order in a list.

* A list with one item for each key, the items ascending by key: `put` replaces the item of a key or
  adds it in its place, `get?` looks a key up.  What `get?` finds after `put` is said by `get?_put`,
  which does not depend on the order; the order only makes the list of given contents unique.
* `sortBy` orders items by a key and keeps items of one key in the order they had.
-/

set_option autoImplicit false

namespace Pulse.Ordered

variable {α κ : Type} [DecidableEq κ] [LT κ] [DecidableLT κ]

/-- Puts an item in its place among items ascending by key, instead of one of the same key. -/
def put (key : α → κ) (a : α) : List α → List α
  | [] => [a]
  | b :: rest =>
    if key a = key b then a :: rest
    else if key a < key b then a :: b :: rest
    else b :: put key a rest

omit [LT κ] [DecidableLT κ] in
/-- The item of a key. -/
def get? (key : α → κ) (k : κ) (items : List α) : Option α :=
  items.find? fun a => key a = k

theorem mem_put {key : α → κ} {a b : α} {items : List α} (h : b ∈ put key a items) :
    b = a ∨ b ∈ items := by
  induction items with
  | nil => simpa [put] using h
  | cons c rest ih =>
    rw [put] at h
    split at h
    · simp only [List.mem_cons] at h ⊢
      exact h.imp_right .inr
    · split at h
      · simpa using h
      · simp only [List.mem_cons] at h ⊢
        rcases h with rfl | h
        · exact .inr (.inl rfl)
        · exact (ih h).imp_right .inr

/-- After an item is put, its key leads to it and all others lead where they led. -/
theorem get?_put (key : α → κ) (a : α) (k : κ) (items : List α) :
    get? key k (put key a items) = if key a = k then some a else get? key k items := by
  induction items with
  | nil => by_cases h : key a = k <;> simp [put, get?, h]
  | cons b rest ih =>
    simp only [get?] at ih
    rw [put]
    split
    · next hb => by_cases h : key a = k <;> simp [get?, h, ← hb]
    · next hb =>
      split
      · by_cases h : key a = k <;> simp [get?, h]
      · by_cases h : key b = k
        · have : key a ≠ k := fun ha => hb (ha.trans h.symm)
          simp [get?, h, this]
        · simp [get?, h, ih]

/-- Puts an item before the first whose key is not less. -/
def insertBy (key : α → κ) (a : α) : List α → List α
  | [] => [a]
  | b :: rest => if key b < key a then b :: insertBy key a rest else a :: b :: rest

/-- The items in the order of their keys; items of one key keep their order. -/
def sortBy (key : α → κ) (items : List α) : List α :=
  items.foldr (insertBy key) []

end Pulse.Ordered
