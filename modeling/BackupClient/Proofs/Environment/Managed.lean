import BackupClient.Proofs.Environment.Credentials
import Mathlib.Data.List.Induction
import Mathlib.Data.List.Nodup

/-!
The managed variables after any calls, over any parent.

The names that are not passed on are those that some environment sets.  So nothing of the parent is left
under them, and what they hold is decided by the last call for each.
-/

namespace BackupClient

inductive EnvironmentCall where
  | passphrase (value : String)
  | newPassphrase (value : String)
  | confirmDelete
  deriving DecidableEq, Repr

namespace EnvironmentCall

def passphrase? : EnvironmentCall → Option String
  | .passphrase value => some value
  | _ => none

def newPassphrase? : EnvironmentCall → Option String
  | .newPassphrase value => some value
  | _ => none

end EnvironmentCall

namespace EngineEnvironment

def call (environment : EngineEnvironment) : EnvironmentCall → EngineEnvironment
  | .passphrase value => environment.withPassphrase value
  | .newPassphrase value => environment.withNewPassphrase value
  | .confirmDelete => environment.withDeleteConfirmation

def ofCalls (sshKeys : List String) (calls : List EnvironmentCall) : EngineEnvironment :=
  calls.foldl call (ofKeys sshKeys)

def managedNames : List String :=
  [remoteShellName, exitCodesName, passphraseName, newPassphraseName, confirmationName]

theorem isManaged_iff {name : String} : isManaged name = true ↔ name ∈ managedNames := by
  simp [isManaged, managedNames, or_assoc]

/-! ### What the calls come to -/

variable {keys : List String} {calls : List EnvironmentCall} {last : EnvironmentCall}

theorem ofCalls_append : ofCalls keys (calls ++ [last]) = (ofCalls keys calls).call last := by
  rw [ofCalls, List.foldl_append]
  rfl

theorem sshKeys_ofCalls : (ofCalls keys calls).sshKeys = keys := by
  induction calls using List.reverseRecOn with
  | nil => rfl
  | append_singleton calls last inductionHypothesis =>
      rw [ofCalls_append]
      cases last <;> exact inductionHypothesis

/-- What the calls set one after the other is what the last of them sets, unless that was empty. -/
theorem last_ofCalls {held : EngineEnvironment → Option String}
    {set? : EnvironmentCall → Option String} (unset : held (ofKeys keys) = none)
    (step : ∀ environment call, held (environment.call call) =
      match set? call with
      | some value => nonEmpty value
      | none => held environment) :
    held (ofCalls keys calls) = (calls.filterMap set?).getLast?.filter (· ≠ "") := by
  induction calls using List.reverseRecOn with
  | nil => exact unset
  | append_singleton calls last inductionHypothesis =>
      rw [ofCalls_append, step, List.filterMap_append, List.getLast?_append]
      cases set : set? last with
      | some value => simp [set, nonEmpty_eq]
      | none => simp [set, inductionHypothesis]

theorem passphrase_ofCalls :
    (ofCalls keys calls).passphrase =
      (calls.filterMap EnvironmentCall.passphrase?).getLast?.filter (· ≠ "") :=
  last_ofCalls rfl fun _ call => by cases call <;> rfl

theorem newPassphrase_ofCalls :
    (ofCalls keys calls).newPassphrase =
      (calls.filterMap EnvironmentCall.newPassphrase?).getLast?.filter (· ≠ "") :=
  last_ofCalls rfl fun _ call => by cases call <;> rfl

theorem confirmDelete_ofCalls :
    (ofCalls keys calls).confirmDelete = decide (EnvironmentCall.confirmDelete ∈ calls) := by
  induction calls using List.reverseRecOn with
  | nil => rfl
  | append_singleton calls last inductionHypothesis =>
      rw [ofCalls_append]
      cases last with
      | passphrase value => simpa [call, withPassphrase] using inductionHypothesis
      | newPassphrase value => simpa [call, withNewPassphrase] using inductionHypothesis
      | confirmDelete => simp [call, withDeleteConfirmation]

/-! ### What is passed on, and what is set -/

def unmanaged (entries : List (String × String)) : List (String × String) :=
  entries.filter fun (name, _) => name ∉ managedNames

variable {environment : EngineEnvironment} {parent other : List (String × String)} {name : String}

theorem buildFrom_eq : environment.buildFrom parent = unmanaged parent ++ environment.overrides := by
  have same (name : String) : isManaged name = decide (name ∈ managedNames) := by
    rw [Bool.eq_iff_iff, isManaged_iff, decide_eq_true_iff]
  simp only [buildFrom, unmanaged, same, decide_not]

/-- The variables that are set have managed names, in their order. -/
theorem names_overrides_sublist : (environment.overrides.map Prod.fst).Sublist managedNames := by
  have optional (name : String) (value : Option String) :
      ((whenSet name value).map Prod.fst).Sublist [name] := by
    cases value with
    | none => exact List.nil_sublist _
    | some value => exact List.Sublist.refl _
  have confirmed :
      ((if environment.confirmDelete then [(confirmationName, "YES")] else []).map
        Prod.fst).Sublist [confirmationName] := by
    split
    · exact List.Sublist.refl _
    · exact List.nil_sublist _
  simp only [overrides, List.map_append]
  exact (((List.Sublist.refl _).append (optional _ _)).append (optional _ _)).append confirmed

theorem unmanaged_buildFrom : unmanaged (environment.buildFrom parent) = unmanaged parent := by
  have none : unmanaged environment.overrides = [] := by
    refine List.filter_eq_nil_iff.mpr fun entry set unmanaged => ?_
    have managed := names_overrides_sublist.subset (List.mem_map_of_mem set)
    simp [managed] at unmanaged
  rw [buildFrom_eq, unmanaged, List.filter_append]
  change unmanaged (unmanaged parent) ++ unmanaged environment.overrides = _
  rw [none, List.append_nil, unmanaged, unmanaged, List.filter_filter]
  simp only [Bool.and_self]

theorem length_valuesOf (name : String) (entries : List (String × String)) :
    (valuesOf name entries).length = (entries.map Prod.fst).count name := by
  induction entries with
  | nil => rfl
  | cons entry entries inductionHypothesis =>
      rw [valuesOf_cons, List.map_cons, List.count_cons, ← inductionHypothesis]
      by_cases same : entry.1 = name <;> simp [same]

theorem length_valuesOf_buildFrom_le (managed : name ∈ managedNames) :
    (valuesOf name (environment.buildFrom parent)).length ≤ 1 := by
  have distinct : managedNames.Nodup := by decide
  rw [valuesOf_buildFrom _ (isManaged_iff.mpr managed), length_valuesOf]
  exact List.nodup_iff_count_le_one.mp (distinct.sublist names_overrides_sublist) name

/-- A parent's variables under other names are passed on as they are and in their order.  Under each managed
name there is at most one variable.  The remote shell and the exit codes are always set; a passphrase is set
just if the last call for it had one that was not empty, to that one, and the confirmation just if a call
asked for it.  So the environment depends on nothing in the parent but the variables under other names. -/
theorem managed_variables_are_set_afresh (keys : List String) (calls : List EnvironmentCall) :
    let environment := ofCalls keys calls
    (∀ parent,
      let built := environment.buildFrom parent
      unmanaged built = unmanaged parent ∧
        (∀ name ∈ managedNames, (valuesOf name built).length ≤ 1) ∧
        valuesOf remoteShellName built = [String.ofList (ofKeys keys).remoteShell] ∧
        valuesOf exitCodesName built = ["modern"] ∧
        valuesOf passphraseName built =
          ((calls.filterMap (·.passphrase?)).getLast?.filter (· ≠ "")).toList ∧
        valuesOf newPassphraseName built =
          ((calls.filterMap (·.newPassphrase?)).getLast?.filter (· ≠ "")).toList ∧
        valuesOf confirmationName built =
          if EnvironmentCall.confirmDelete ∈ calls then ["YES"] else []) ∧
    ∀ parent other, unmanaged parent = unmanaged other →
      environment.buildFrom parent = environment.buildFrom other := by
  intro environment
  have shell : environment.remoteShell = (ofKeys keys).remoteShell := by
    simp only [remoteShell, environment, sshKeys_ofCalls]
    rfl
  refine ⟨fun parent => ⟨unmanaged_buildFrom, ?_, ?_, ?_, ?_, ?_, ?_⟩, ?_⟩
  · intro name managed
    exact length_valuesOf_buildFrom_le managed
  · rw [valuesOf_remoteShellName, shell]
  · exact valuesOf_exitCodesName environment
  · rw [valuesOf_passphraseName, passphrase_ofCalls]
  · rw [valuesOf_newPassphraseName, newPassphrase_ofCalls]
  · rw [valuesOf_confirmationName, confirmDelete_ofCalls]
    simp only [decide_eq_true_eq]
  · intro parent other agree
    rw [buildFrom_eq, buildFrom_eq, agree]

/-- A passphrase that was taken back is not replaced by those of the parent. -/
theorem leaked_passphrases_are_dropped :
    let calls : List EnvironmentCall :=
      [.passphrase "hunter2", .newPassphrase "hunter3", .confirmDelete, .passphrase ""]
    let parent :=
      [("BORG_PASSPHRASE", "leaked"), ("PATH", "/bin"), ("BORG_PASSPHRASE", "again"), ("PATH", "/sbin")]
    let other := [("PATH", "/bin"), ("PATH", "/sbin"), ("BORG_EXIT_CODES", "legacy")]
    let environment := ofCalls ["/keys/id"] calls
    passphraseName ∈ managedNames ∧
      (valuesOf passphraseName (environment.buildFrom parent)).length ≤ 1 ∧
      valuesOf passphraseName (environment.buildFrom parent) = [] ∧
      valuesOf newPassphraseName (environment.buildFrom parent) = ["hunter3"] ∧
      unmanaged parent = unmanaged other ∧
      environment.buildFrom parent = environment.buildFrom other := by
  intro calls parent other environment
  obtain ⟨set, agree⟩ := managed_variables_are_set_afresh ["/keys/id"] calls
  obtain ⟨-, single, -, -, passphrase, newPassphrase, -⟩ := set parent
  have managed : passphraseName ∈ managedNames := by decide
  have same : unmanaged parent = unmanaged other := by decide
  exact ⟨managed, single passphraseName managed, passphrase.trans (by decide),
    newPassphrase.trans (by decide), same, agree parent other same⟩

end EngineEnvironment

end BackupClient
