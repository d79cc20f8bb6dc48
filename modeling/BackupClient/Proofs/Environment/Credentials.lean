import BackupClient.Engine.Client
import BackupClient.Proofs.Engine.CommandMap

/-!
The variables for credentials and answers in the environments of engine processes.

A variable that is managed gets the values that the environment sets, whatever the parent holds.  Apart from
the two variables for passphrases an environment does not depend on the passphrases.
-/

namespace BackupClient

/-- The values that a list of variables gives to a name, in order. -/
def valuesOf (name : String) (environment : List (String × String)) : List String :=
  environment.filterMap fun (other, value) => if other = name then some value else none

section

variable {name other value : String} {earlier later : List (String × String)}

@[simp]
theorem valuesOf_nil : valuesOf name [] = [] := rfl

@[simp]
theorem valuesOf_cons :
    valuesOf name ((other, value) :: later) =
      (if other = name then [value] else []) ++ valuesOf name later := by
  by_cases same : other = name <;> simp [valuesOf, same]

@[simp]
theorem valuesOf_append :
    valuesOf name (earlier ++ later) = valuesOf name earlier ++ valuesOf name later :=
  List.filterMap_append

end

namespace EngineEnvironment

/-! ### What the managed variables hold -/

section

variable {name : String} {parent : List (String × String)} (environment : EngineEnvironment)

@[simp]
theorem valuesOf_whenSet {other : String} {value : Option String} :
    valuesOf name (whenSet other value) = if other = name then value.toList else [] := by
  cases value <;> simp [whenSet]

theorem valuesOf_buildFrom (managed : isManaged name = true) :
    valuesOf name (environment.buildFrom parent) = valuesOf name environment.overrides := by
  have dropped : valuesOf name (parent.filter fun (other, _) => !isManaged other) = [] := by
    refine List.filterMap_eq_nil_iff.mpr ?_
    rintro ⟨other, value⟩ kept
    have unmanaged := (List.mem_filter.mp kept).2
    refine if_neg ?_
    rintro rfl
    simp [managed] at unmanaged
  rw [buildFrom, valuesOf_append, dropped, List.nil_append]

/-- What is set under a name, variable by variable. -/
theorem valuesOf_overrides (name : String) :
    valuesOf name environment.overrides =
      (if remoteShellName = name then [String.ofList environment.remoteShell] else []) ++
        ((if exitCodesName = name then ["modern"] else []) ++
          ((if passphraseName = name then environment.passphrase.toList else []) ++
            ((if newPassphraseName = name then environment.newPassphrase.toList else []) ++
              if confirmationName = name then if environment.confirmDelete then ["YES"] else []
              else []))) := by
  have confirmed :
      valuesOf name (if environment.confirmDelete then [(confirmationName, "YES")] else []) =
        if confirmationName = name then if environment.confirmDelete then ["YES"] else [] else [] := by
    split <;> simp
  simp only [overrides, valuesOf_append, valuesOf_cons, valuesOf_nil, valuesOf_whenSet, confirmed,
    List.append_assoc, List.nil_append]

@[simp]
theorem valuesOf_remoteShellName :
    valuesOf remoteShellName (environment.buildFrom parent) =
      [String.ofList environment.remoteShell] := by
  rw [valuesOf_buildFrom _ (by decide), valuesOf_overrides]
  simp +decide only [if_true, if_false, List.append_nil]

@[simp]
theorem valuesOf_exitCodesName :
    valuesOf exitCodesName (environment.buildFrom parent) = ["modern"] := by
  rw [valuesOf_buildFrom _ (by decide), valuesOf_overrides]
  simp +decide only [if_true, if_false, List.append_nil, List.nil_append]

@[simp]
theorem valuesOf_passphraseName :
    valuesOf passphraseName (environment.buildFrom parent) = environment.passphrase.toList := by
  rw [valuesOf_buildFrom _ (by decide), valuesOf_overrides]
  simp +decide only [if_true, if_false, List.append_nil, List.nil_append]

@[simp]
theorem valuesOf_newPassphraseName :
    valuesOf newPassphraseName (environment.buildFrom parent) =
      environment.newPassphrase.toList := by
  rw [valuesOf_buildFrom _ (by decide), valuesOf_overrides]
  simp +decide only [if_true, if_false, List.append_nil, List.nil_append]

@[simp]
theorem valuesOf_confirmationName :
    valuesOf confirmationName (environment.buildFrom parent) =
      if environment.confirmDelete then ["YES"] else [] := by
  rw [valuesOf_buildFrom _ (by decide), valuesOf_overrides]
  simp +decide only [if_true, if_false, List.nil_append]

end

/-- A text is set unless it is empty. -/
theorem nonEmpty_eq (text : String) : nonEmpty text = (some text).filter (· ≠ "") := by
  by_cases empty : text = "" <;> simp [nonEmpty, Option.filter, empty]

/-! ### Environments without their passphrases -/

def isSecret (name : String) : Bool :=
  name == passphraseName || name == newPassphraseName

def withoutSecrets (environment : EngineEnvironment) : EngineEnvironment :=
  { environment with passphrase := none, newPassphrase := none }

@[simp]
theorem withoutSecrets_withNewPassphrase (environment : EngineEnvironment) (passphrase : String) :
    (environment.withNewPassphrase passphrase).withoutSecrets = environment.withoutSecrets := rfl

@[simp]
theorem withoutSecrets_withDeleteConfirmation (environment : EngineEnvironment) :
    environment.withDeleteConfirmation.withoutSecrets =
      environment.withoutSecrets.withDeleteConfirmation := rfl

theorem isManaged_of_isSecret {name : String} (secret : isSecret name = true) :
    isManaged name = true := by
  rcases Bool.or_eq_true_iff.mp secret with same | same <;> simp [isManaged, same]

theorem filter_whenSet (name : String) (value : Option String) :
    (whenSet name value).filter (fun (name, _) => !isSecret name) =
      whenSet name (if isSecret name then none else value) := by
  cases value <;> cases secret : isSecret name <;> simp [whenSet, secret]

/-- The variables of an environment, but for those with passphrases, do not depend on the passphrases. -/
theorem filter_buildFrom (environment : EngineEnvironment) (parent : List (String × String)) :
    (environment.buildFrom parent).filter (fun (name, _) => !isSecret name) =
      environment.withoutSecrets.buildFrom parent := by
  have passedOn : (parent.filter fun (name, _) => !isManaged name).filter
      (fun (name, _) => !isSecret name) = parent.filter fun (name, _) => !isManaged name := by
    refine List.filter_eq_self.mpr ?_
    rintro ⟨name, value⟩ kept
    have unmanaged := (List.mem_filter.mp kept).2
    cases secret : isSecret name with
    | false => simp [secret]
    | true => simp [isManaged_of_isSecret secret] at unmanaged
  have set : environment.overrides.filter (fun (name, _) => !isSecret name) =
      environment.withoutSecrets.overrides := by
    have sameShell : environment.withoutSecrets.remoteShell = environment.remoteShell := rfl
    simp only [overrides, List.filter_append, filter_whenSet, sameShell]
    cases confirmed : environment.confirmDelete <;>
      simp [withoutSecrets, confirmed, whenSet, isSecret, remoteShellName, exitCodesName,
        passphraseName, newPassphraseName, confirmationName]
  rw [buildFrom, List.filter_append, passedOn, set, buildFrom]

end EngineEnvironment

def CommandSpec.withoutSecrets (spec : CommandSpec) : CommandSpec :=
  { spec with
    environment := spec.environment.filter fun (name, _) => !EngineEnvironment.isSecret name }

theorem CommandSpec.withoutSecrets_keepsLines : KeepsLines withoutSecrets where
  program := fun _ => rfl
  arguments := fun _ => rfl

namespace Client

variable (client : Client)

@[simp]
theorem withoutSecrets_command (environment : EngineEnvironment) (arguments : List String) :
    (client.command environment arguments).withoutSecrets =
      client.command environment.withoutSecrets arguments := by
  simp only [CommandSpec.withoutSecrets, command, EngineEnvironment.filter_buildFrom]

@[simp]
theorem withoutSecrets_mountCommand (environment : EngineEnvironment) (arguments : List String) :
    (client.mountCommand environment arguments).withoutSecrets =
      client.mountCommand environment.withoutSecrets arguments := by
  simp only [CommandSpec.withoutSecrets, mountCommand, EngineEnvironment.filter_buildFrom]

@[simp]
theorem withoutSecrets_environment (passphrase : String) :
    (client.environment passphrase).withoutSecrets =
      EngineEnvironment.ofKeys client.configuration.sshKeys := rfl

end Client

end BackupClient
