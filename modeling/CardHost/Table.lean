/-!
# Small tables

The bench keeps a few dozen registers, timers and live objects.  A list of pairs with one entry per
key is enough for them, and its two equations are all that is ever needed.
-/

namespace CardHost

/-- A list of keys with their values; of several entries with one key the first counts. -/
structure Table (α : Type) where
  entries : List (Nat × α)

namespace Table

def empty : Table α := ⟨[]⟩

/-- The value of a key. -/
def get? (table : Table α) (key : Nat) : Option α :=
  table.entries.lookup key

/-- The table with one value replaced. -/
def set (table : Table α) (key : Nat) (value : α) : Table α :=
  ⟨(key, value) :: table.entries.filter fun entry => entry.1 != key⟩

/-- The table without a key. -/
def erase (table : Table α) (key : Nat) : Table α :=
  ⟨table.entries.filter fun entry => entry.1 != key⟩

@[simp]
theorem get?_empty (key : Nat) : (empty : Table α).get? key = none := rfl

theorem lookup_filter_ne (entries : List (Nat × α)) (key other : Nat) :
    (entries.filter fun entry => entry.1 != key).lookup other =
      if other = key then none else entries.lookup other := by
  induction entries with
  | nil => simp
  | cons entry entries ih =>
      obtain ⟨k, v⟩ := entry
      by_cases hk : k = key
      · subst hk
        simp only [List.filter_cons, bne_self_eq_false, Bool.false_eq_true, if_false, ih]
        by_cases ho : other = k
        · simp [ho]
        · have hf : (other == k) = false := by simpa using ho
          simp only [ho, if_false, List.lookup_cons, hf]
      · have hb : (k != key) = true := by simpa using hk
        simp only [List.filter_cons, hb, if_true, List.lookup_cons, ih]
        by_cases ho : other = k
        · subst ho
          simp [hk]
        · have hf : (other == k) = false := by simpa using ho
          simp only [hf]

/-- A value is read back where it was set, and nothing else changes. -/
theorem get?_set (table : Table α) (key : Nat) (value : α) (other : Nat) :
    (table.set key value).get? other = if other = key then some value else table.get? other := by
  by_cases h : other = key
  · subst h
    simp [set, get?]
  · have hf : (other == key) = false := by simpa using h
    simp only [set, get?, List.lookup_cons, hf, lookup_filter_ne, h, if_false]

theorem get?_erase (table : Table α) (key other : Nat) :
    (table.erase key).get? other = if other = key then none else table.get? other :=
  lookup_filter_ne table.entries key other

end Table

end CardHost
