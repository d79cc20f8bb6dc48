import BackupClient.Engine.Prune
import BackupClient.Proofs.Text.Decimal
import BackupClient.Proofs.Text.Runs

/-!
The flags of a retention rule.

A rule has one count for each kind of archive that is kept, and a flag for each count that is not zero.  A
flag tells its kind by its name and its count by its numeral, so a rule can be read back from its flags.
-/

namespace BackupClient

/-- What archives are kept for, each kind with a flag of its own. -/
inductive Keep where
  | within
  | hourly
  | daily
  | weekly
  | monthly
  | yearly
  deriving DecidableEq

namespace Keep

/-- All kinds, in the order of their flags. -/
def all : List Keep :=
  [.within, .hourly, .daily, .weekly, .monthly, .yearly]

def name : Keep → String
  | .within => "--keep-within"
  | .hourly => "--keep-hourly"
  | .daily => "--keep-daily"
  | .weekly => "--keep-weekly"
  | .monthly => "--keep-monthly"
  | .yearly => "--keep-yearly"

def unit : Keep → String
  | .within => "d"
  | _ => ""

def count (rule : PruneRule) : Keep → Nat
  | .within => rule.withinDays
  | .hourly => rule.hourly
  | .daily => rule.daily
  | .weekly => rule.weekly
  | .monthly => rule.monthly
  | .yearly => rule.yearly

def flag (keep : Keep) (count : Nat) : String :=
  keep.name ++ "=" ++ Text.Decimal.text count ++ keep.unit

def count? (keep : Keep) (text : List Char) : Option Nat :=
  if text.dropWhile Text.Decimal.isDigit = keep.unit.toList then
    Text.Decimal.value? (text.takeWhile Text.Decimal.isDigit)
  else none

def read? (flag : String) : Option (Keep × Nat) := do
  let keep ← all.find? fun keep => keep.name.toList = flag.toList.takeWhile (· ≠ '=')
  let count ← keep.count? (flag.toList.drop (keep.name.toList.length + 1))
  some (keep, count)

theorem mem_all (keep : Keep) : keep ∈ all := by
  cases keep <;> decide

theorem all_nodup : all.Nodup := by
  decide

theorem find?_name (keep : Keep) :
    all.find? (fun other => other.name.toList = keep.name.toList) = keep := by
  cases keep <;> decide

theorem toList_flag (keep : Keep) (count : Nat) :
    (keep.flag count).toList =
      keep.name.toList ++ '=' :: (Text.Decimal.digits count ++ keep.unit.toList) := by
  simp [flag, Text.Decimal.text]

theorem count?_numeral (keep : Keep) (count : Nat) :
    keep.count? (Text.Decimal.digits count ++ keep.unit.toList) = some count := by
  have digits : ∀ char ∈ Text.Decimal.digits count, Text.Decimal.isDigit char = true :=
    fun _ member => Text.Decimal.isDigit_of_mem_digits member
  have stops : Text.Stops Text.Decimal.isDigit keep.unit.toList := by
    cases keep <;> decide
  rw [count?, Text.dropWhile_run digits stops, if_pos rfl, Text.takeWhile_run digits stops]
  exact Text.Decimal.value?_eq_some_iff.mpr ⟨0, rfl⟩

theorem read?_flag (keep : Keep) (count : Nat) : read? (keep.flag count) = some (keep, count) := by
  have named : keep.name.toList.all (· ≠ '=') = true := by
    cases keep <;> decide
  have cut : (keep.flag count).toList.takeWhile (· ≠ '=') = keep.name.toList := by
    rw [toList_flag]
    exact Text.takeWhile_run (List.all_eq_true.mp named) (Text.stops_cons rfl _)
  have rest : (keep.flag count).toList.drop (keep.name.toList.length + 1) =
      Text.Decimal.digits count ++ keep.unit.toList := by
    rw [toList_flag, List.drop_append]
    simp
  simp only [read?, cut, find?_name, Option.bind_eq_bind, Option.bind_some, rest, count?_numeral]

theorem flag_begins (keep : Keep) (count : Nat) : "--keep-".toList <+: (keep.flag count).toList := by
  have named : "--keep-".toList <+: keep.name.toList := by
    cases keep <;> decide
  rw [toList_flag]
  exact named.trans (List.prefix_append _ _)

end Keep

namespace PruneRule

/-- The rule that some flags stand for.  A kind without a flag has the count zero. -/
def ofFlags (flags : List String) : PruneRule :=
  let count (keep : Keep) := ((flags.filterMap Keep.read?).lookup keep).getD 0
  ⟨count .hourly, count .daily, count .weekly, count .monthly, count .yearly, count .within⟩

def kinds (rule : PruneRule) : List Keep :=
  Keep.all.filter fun keep => 0 < keep.count rule

variable {rule : PruneRule}

theorem flatMap_flag (keeps : List Keep) :
    (keeps.flatMap fun keep => flag keep.name (keep.count rule) keep.unit) =
      (keeps.filter fun keep => 0 < keep.count rule).map fun keep => keep.flag (keep.count rule) := by
  induction keeps with
  | nil => rfl
  | cons keep keeps inductionHypothesis =>
      rw [List.flatMap_cons, inductionHypothesis, List.filter_cons]
      by_cases counted : 0 < keep.count rule
      · simp [flag, counted, Keep.flag]
      · simp [flag, counted]

theorem arguments_eq (rule : PruneRule) :
    rule.arguments = rule.kinds.map fun keep => keep.flag (keep.count rule) := by
  rw [kinds, ← flatMap_flag]
  simp [arguments, Keep.all, Keep.name, Keep.count, Keep.unit]

theorem mem_kinds_iff {keep : Keep} : keep ∈ rule.kinds ↔ 0 < keep.count rule := by
  simp [kinds, Keep.mem_all]

theorem kinds_nodup (rule : PruneRule) : rule.kinds.Nodup :=
  Keep.all_nodup.filter _

theorem read_arguments (rule : PruneRule) :
    rule.arguments.filterMap Keep.read? = rule.kinds.map fun keep => (keep, keep.count rule) := by
  rw [arguments_eq, List.filterMap_map]
  have each : (Keep.read? ∘ fun keep => keep.flag (keep.count rule)) =
      fun keep => some (keep, keep.count rule) :=
    funext fun keep => Keep.read?_flag keep (keep.count rule)
  rw [each, List.filterMap_eq_map']

theorem lookup_counts (keeps : List Keep) (keep : Keep) :
    (keeps.map fun keep => (keep, keep.count rule)).lookup keep =
      if keep ∈ keeps then some (keep.count rule) else none := by
  induction keeps with
  | nil => rfl
  | cons other keeps inductionHypothesis =>
      by_cases same : keep = other
      · simp [same]
      · have differ : (keep == other) = false := beq_eq_false_iff_ne.mpr same
        simp [List.lookup_cons, differ, same, inductionHypothesis]

/-- A rule is read back from its flags. -/
theorem ofFlags_arguments (rule : PruneRule) : ofFlags rule.arguments = rule := by
  have counts (keep : Keep) :
      ((rule.arguments.filterMap Keep.read?).lookup keep).getD 0 = keep.count rule := by
    rw [read_arguments, lookup_counts]
    by_cases counted : 0 < keep.count rule
    · rw [if_pos (mem_kinds_iff.mpr counted), Option.getD_some]
    · rw [if_neg (mt mem_kinds_iff.mp counted), Option.getD_none]
      omega
  simp only [ofFlags, counts]
  rfl

/-- Different rules have different flags. -/
theorem arguments_injective : Function.Injective arguments :=
  Function.LeftInverse.injective ofFlags_arguments

end PruneRule

end BackupClient
