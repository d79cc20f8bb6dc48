import BackupClient.Proofs.Text.Lines

/-!
Runs at the front of a text, and the words between blanks.

A reader that takes as many characters of one kind as it can divides a text where the kind first changes.
-/

namespace BackupClient.Text

/-! ### Runs -/

section Runs

variable {α : Type} {shown : α → Bool} {run rest : List α}

/-- A text begins with something of another kind, or it is at its end. -/
def Stops (shown : α → Bool) (rest : List α) : Prop :=
  ∀ next ∈ rest.head?, shown next = false

theorem all_head?_iff : (rest.head?.all fun next => !shown next) = true ↔ Stops shown rest := by
  unfold Stops
  cases rest.head? <;> simp

instance (shown : α → Bool) (rest : List α) : Decidable (Stops shown rest) :=
  decidable_of_iff _ all_head?_iff

theorem stops_cons {next : α} (other : shown next = false) (rest : List α) :
    Stops shown (next :: rest) := by
  rintro _ ⟨⟩
  exact other

theorem takeWhile_run (inside : ∀ item ∈ run, shown item = true) (stops : Stops shown rest) :
    (run ++ rest).takeWhile shown = run := by
  rw [List.takeWhile_append_of_pos inside]
  cases rest with
  | nil => exact List.append_nil run
  | cons next rest =>
      rw [List.takeWhile_cons_of_neg (by simp [stops next rfl]), List.append_nil]

theorem dropWhile_run (inside : ∀ item ∈ run, shown item = true) (stops : Stops shown rest) :
    (run ++ rest).dropWhile shown = rest := by
  rw [List.dropWhile_append_of_pos inside]
  cases rest with
  | nil => rfl
  | cons next rest => exact List.dropWhile_cons_of_neg (by simp [stops next rfl])

theorem stops_dropWhile (shown : α → Bool) (text : List α) : Stops shown (text.dropWhile shown) := by
  intro next first
  have other := List.head?_dropWhile_not shown text
  rw [Option.mem_def.mp first] at other
  exact other

theorem Stops.of_append {behind : List α} (stops : Stops shown (rest ++ behind)) : Stops shown rest := by
  intro next first
  apply stops next
  rw [Option.mem_def] at first ⊢
  rw [List.head?_append, first, Option.some_or]

theorem exists_run (shown : α → Bool) (text : List α) :
    ∃ run rest, text = run ++ rest ∧ (∀ item ∈ run, shown item = true) ∧ Stops shown rest :=
  ⟨text.takeWhile shown, text.dropWhile shown, List.takeWhile_append_dropWhile.symm,
    fun _ member => List.mem_takeWhile_imp member, stops_dropWhile shown text⟩

end Runs

/-! ### Words -/

structure IsWord (text : List Char) : Prop where
  nonempty : text ≠ []
  visible : ∀ char ∈ text, isBlank char = false

theorem isWord_iff {text : List Char} :
    (!text.isEmpty && text.all (!isBlank ·)) = true ↔ IsWord text := by
  constructor
  · intro word
    simp only [Bool.and_eq_true, Bool.not_eq_true', List.isEmpty_eq_false_iff, List.all_eq_true] at word
    exact ⟨word.1, word.2⟩
  · rintro ⟨nonempty, visible⟩
    simpa [nonempty] using visible

instance (text : List Char) : Decidable (IsWord text) :=
  decidable_of_iff _ isWord_iff

/-- Nothing, or something that begins with a blank. -/
def EndsWord (text : List Char) : Prop :=
  ∀ char ∈ text.head?, isBlank char = true

theorem endsWord_iff {text : List Char} : text.head?.all isBlank = true ↔ EndsWord text := by
  unfold EndsWord
  cases text.head? <;> simp

instance (text : List Char) : Decidable (EndsWord text) :=
  decidable_of_iff _ endsWord_iff

variable {gap word tail : List Char}

theorem endsWord_gap_append (divided : gap ≠ []) (blank : IsGap gap) (text : List Char) :
    EndsWord (gap ++ text) := by
  obtain ⟨first, others, rfl⟩ := List.exists_cons_of_ne_nil divided
  rintro _ ⟨⟩
  exact blank first List.mem_cons_self

theorem EndsWord.stops (ends : EndsWord tail) : Stops (!isBlank ·) tail := by
  intro char first
  simp [ends char first]

theorem IsWord.takeWhile (isWord : IsWord word) (ends : EndsWord tail) :
    (word ++ tail).takeWhile (!isBlank ·) = word :=
  takeWhile_run (fun char member => by simp [isWord.visible char member]) ends.stops

theorem IsWord.stops_append (isWord : IsWord word) (tail : List Char) :
    Stops isBlank (word ++ tail) := by
  obtain ⟨initial, others, rfl⟩ := List.exists_cons_of_ne_nil isWord.nonempty
  exact stops_cons (isWord.visible initial List.mem_cons_self) (others ++ tail)

theorem IsWord.trimStart_gap (isWord : IsWord word) (blank : IsGap gap) (tail : List Char) :
    trimStart (gap ++ (word ++ tail)) = word ++ tail :=
  dropWhile_run blank (isWord.stops_append tail)

theorem IsWord.trimEnd_append (isWord : IsWord word) (front : List Char) :
    trimEnd (front ++ word) = front ++ word := by
  refine List.rdropWhile_eq_self_iff.mpr fun nonempty => ?_
  rw [List.getLast_append_of_ne_nil _ isWord.nonempty,
    isWord.visible _ (List.getLast_mem isWord.nonempty)]
  exact Bool.false_ne_true

end BackupClient.Text
