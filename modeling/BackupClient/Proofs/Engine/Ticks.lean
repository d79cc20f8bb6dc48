import BackupClient.Engine.Progress
import Mathlib.Data.List.Infix
import Mathlib.Data.List.Induction

/-!
Ticks of progress that are due.

A finished archive and every count of files are a mark, unless there are no files, and each mark has a tick
with the greatest number of files that was told so far.
-/

namespace BackupClient.Forwarding

variable {total : Nat} {records handled : List LogRecord} {record : LogRecord} {found : ProgressMark}
  {forwarder : Forwarder} {tick : BackupProgress}

def filesOf (total : Nat) : ProgressMark → Nat
  | .finished => total
  | .count files => files

/-- The marks among some records: one for each finished archive, and one for each count of files, as long as
there are any. -/
def marks (total : Nat) (records : List LogRecord) : List ProgressMark :=
  records.filterMap (·.progressMark? total)

def greatest (total : Nat) (told : List ProgressMark) : Nat :=
  (told.map (filesOf total)).foldl max 0

/-- The ticks due: one for each mark, with the greatest number of files that was told so far. -/
def dueTicks (total : Nat) (records : List LogRecord) : List BackupProgress :=
  (marks total records).inits.tail.map fun told => ⟨total, greatest total told⟩

theorem greatest_concat (told : List ProgressMark) (found : ProgressMark) :
    greatest total (told ++ [found]) = max (greatest total told) (filesOf total found) := by
  rw [greatest, List.map_append, List.foldl_append]
  rfl

theorem marks_concat_of_none (unmarked : record.progressMark? total = none) :
    marks total (handled ++ [record]) = marks total handled := by
  simp [marks, unmarked]

theorem marks_concat_of_some (marked : record.progressMark? total = some found) :
    marks total (handled ++ [record]) = marks total handled ++ [found] := by
  simp [marks, marked]

theorem dueTicks_concat_of_none (unmarked : record.progressMark? total = none) :
    dueTicks total (handled ++ [record]) = dueTicks total handled := by
  rw [dueTicks, marks_concat_of_none unmarked, dueTicks]

theorem inits_tail_concat {α : Type} (items : List α) (item : α) :
    (items ++ [item]).inits.tail = items.inits.tail ++ [items ++ [item]] := by
  cases items with
  | nil => rfl
  | cons first rest => simp [List.inits_append]

theorem dueTicks_concat_of_some (marked : record.progressMark? total = some found) :
    dueTicks total (handled ++ [record]) =
      dueTicks total handled ++
        [⟨total, max (greatest total (marks total handled)) (filesOf total found)⟩] := by
  rw [dueTicks, marks_concat_of_some marked, inits_tail_concat, List.map_append, List.map_singleton,
    greatest_concat, dueTicks]

theorem dueTicks_grows (total : Nat) (handled rest : List LogRecord) :
    dueTicks total handled <+: dueTicks total (handled ++ rest) := by
  induction rest using List.reverseRecOn with
  | nil => rw [List.append_nil]
  | append_singleton rest record inductionHypothesis =>
      apply inductionHypothesis.trans
      rw [← List.append_assoc]
      cases marked : record.progressMark? total with
      | none => rw [dueTicks_concat_of_none marked]
      | some found =>
          rw [dueTicks_concat_of_some marked]
          exact List.prefix_append _ _

theorem advanceTo_eq :
    forwarder.advanceTo found = max forwarder.processed (filesOf forwarder.total found) := by
  cases found with
  | finished => rfl
  | count files => rfl

end BackupClient.Forwarding
