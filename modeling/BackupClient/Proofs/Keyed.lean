import Mathlib.Data.List.Basic

/-!
Looking up a key in a list of keys with their values.

The records of repositories, tokens and sessions are such lists.  A key is entered by taking its old
entries out and putting a new one in front.  Guards and jobs have no keys but the numbers under which they
were added.
-/

namespace BackupClient.Keyed

variable {Key Value : Type} [DecidableEq Key]

def find? (entries : List (Key × Value)) (key : Key) : Option Value :=
  (entries.find? (·.1 = key)).map (·.2)

@[simp]
theorem find?_nil (key : Key) : find? ([] : List (Key × Value)) key = none := rfl

theorem find?_cons (entries : List (Key × Value)) (entered key : Key) (value : Value) :
    find? ((entered, value) :: entries) key =
      if key = entered then some value else find? entries key := by
  by_cases same : key = entered
  · simp [find?, same]
  · have different : ¬ entered = key := fun equality => same equality.symm
    simp [find?, same, different]

/-- A key whose entries are taken out is gone, and every other key is as it was. -/
theorem find?_filter_ne (entries : List (Key × Value)) (removed key : Key) :
    find? (entries.filter (·.1 ≠ removed)) key =
      if key = removed then none else find? entries key := by
  induction entries with
  | nil => simp
  | cons entry entries inductionHypothesis =>
      obtain ⟨entered, value⟩ := entry
      by_cases gone : entered = removed
      · subst gone
        rw [List.filter_cons_of_neg (by simp), inductionHypothesis, find?_cons]
        split <;> rfl
      · rw [List.filter_cons_of_pos (by simpa using gone), find?_cons, find?_cons,
          inductionHypothesis]
        by_cases same : key = entered
        · simp [same, gone]
        · simp [same]

theorem mem_of_find? {entries : List (Key × Value)} {key : Key} {value : Value}
    (found : find? entries key = some value) : (key, value) ∈ entries := by
  obtain ⟨⟨entered, _⟩, isFirst, rfl⟩ := Option.map_eq_some_iff.mp found
  obtain rfl : entered = key := by simpa using List.find?_some isFirst
  exact List.mem_of_find?_eq_some isFirst

/-! ### One entry for each key -/

def Unique (entries : List (Key × Value)) : Prop :=
  (entries.map (·.1)).Nodup

omit [DecidableEq Key] in
theorem Unique.filter {entries : List (Key × Value)} (unique : Unique entries)
    (keeps : Key × Value → Bool) : Unique (entries.filter keeps) :=
  List.Nodup.sublist (List.filter_sublist.map _) unique

theorem Unique.entered {entries : List (Key × Value)} (unique : Unique entries) (key : Key)
    (value : Value) : Unique ((key, value) :: entries.filter (·.1 ≠ key)) := by
  refine List.nodup_cons.mpr ⟨?_, unique.filter _⟩
  simp

theorem Unique.find?_eq_some_iff {entries : List (Key × Value)} (unique : Unique entries)
    {key : Key} {value : Value} : find? entries key = some value ↔ (key, value) ∈ entries := by
  refine ⟨mem_of_find?, fun entry => ?_⟩
  induction entries with
  | nil => cases entry
  | cons head entries inductionHypothesis =>
      obtain ⟨entered, first⟩ := head
      obtain ⟨fresh, rest⟩ := List.nodup_cons.mp unique
      rw [find?_cons]
      rcases List.mem_cons.mp entry with same | later
      · obtain ⟨rfl, rfl⟩ := Prod.mk.inj same
        simp
      · have different : key ≠ entered := by
          rintro rfl
          exact fresh (List.mem_map.mpr ⟨(key, value), later, rfl⟩)
        rw [if_neg different]
        exact inductionHypothesis rest later

/-! ### Entries by their numbers -/

theorem getElem?_concat (entries : List Value) (added : Value) (number : Nat) :
    (entries ++ [added])[number]? =
      if number = entries.length then some added else entries[number]? := by
  rcases Nat.lt_trichotomy number entries.length with older | rfl | beyond
  · rw [List.getElem?_append_left older, if_neg (Nat.ne_of_lt older)]
  · rw [List.getElem?_concat_length, if_pos rfl]
  · have short : (entries ++ [added]).length ≤ number := by
      rw [List.length_append, List.length_singleton]
      exact beyond
    rw [if_neg (Nat.ne_of_gt beyond), List.getElem?_eq_none short,
      List.getElem?_eq_none (Nat.le_of_lt beyond)]

end BackupClient.Keyed
