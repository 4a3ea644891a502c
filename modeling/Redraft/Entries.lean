/-!
# Entries

A table of keys and values in the order of their first insertion. A value put
under a key that is there already takes the old one's place.
-/

namespace Redraft

/-- Keys with their values, in order. -/
abbrev Entries (κ α : Type) := List (κ × α)

namespace Entries
variable {κ α : Type} [BEq κ]

/-- The table with a value under a key. -/
def put (key : κ) (value : α) : Entries κ α → Entries κ α
  | [] => [(key, value)]
  | (k, v) :: rest => if k == key then (k, value) :: rest else (k, v) :: put key value rest

/-- The table with all entries of another one put in order. -/
def putAll (table more : Entries κ α) : Entries κ α :=
  more.foldl (fun t (k, v) => put k v t) table

/-- The table of a list of entries. -/
def ofList (entries : List (κ × α)) : Entries κ α := putAll [] entries

/-- The value under a key. -/
def get? (table : Entries κ α) (key : κ) : Option α := table.lookup key

theorem get?_put_self [LawfulBEq κ] (key : κ) (value : α) (table : Entries κ α) :
    (table.put key value).get? key = some value := by
  induction table with
  | nil => simp [put, get?]
  | cons entry rest ih =>
    obtain ⟨k, v⟩ := entry
    by_cases same : k = key
    · simp [put, get?, same]
    · have other : (key == k) = false := by simpa using Ne.symm same
      simpa [put, get?, same, List.lookup_cons, other] using ih

theorem get?_put_of_ne [LawfulBEq κ] {key other : κ} (ne : other ≠ key) (value : α)
    (table : Entries κ α) : (table.put key value).get? other = table.get? other := by
  induction table with
  | nil => simp [put, get?, List.lookup_cons, beq_eq_false_iff_ne.2 ne]
  | cons entry rest ih =>
    obtain ⟨k, v⟩ := entry
    by_cases same : k = key
    · subst same
      simp [put, get?, List.lookup_cons, beq_eq_false_iff_ne.2 ne]
    · by_cases found : other = k
      · simp [put, get?, same, found]
      · have away : (other == k) = false := by simpa using found
        simpa [put, get?, same, List.lookup_cons, away] using ih

end Entries

end Redraft
