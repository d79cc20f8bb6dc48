import BackupClient.Engine.Create
import BackupClient.Engine.Prune
import BackupClient.Proofs.Archives.Glob
import BackupClient.Proofs.Engine.Reach

/-!
Which archives a verb selects by their names.

Deleting by a stem and pruning both hand the engine a pattern, the stem with a star behind it.  The main
result says for which stems they select exactly the archives whose names begin with the stem.  For other
stems they reach archives of other profiles, or leave archives that were made with the stem.
-/

namespace BackupClient

/-- The pattern for the names of archives that stands in a command. -/
def CommandSpec.archivePattern? (spec : CommandSpec) : Option String :=
  ((spec.arguments.dropWhile (· ≠ "--glob-archives")).drop 1).head?

namespace Verb

/-- Some course of a plan hands the engine a pattern. -/
def HandsOver {α : Type} (verb : Verb α) (pattern : String) : Prop :=
  ∃ spec, verb.Starts spec ∧ spec.archivePattern? = some pattern

/-- Some course of a plan selects an archive by its name, where the text inside the brackets of a pattern
stands for the given characters. -/
def Selects {α : Type} (stands : List Char → Char → Prop) (verb : Verb α) (name : String) : Prop :=
  ∃ pattern, verb.HandsOver pattern ∧ Glob.Matches stands pattern.toList name.toList

/-- A plan selects exactly the archives whose names begin with a stem. -/
def SelectsStem {α : Type} (stands : List Char → Char → Prop) (verb : Verb α) (stem : String) :
    Prop :=
  ∀ name : String, verb.Selects stands name ↔ stem.toList <+: name.toList

/-- If the only pattern handed over is a stem with a star behind it, the plan selects by the stem just if
the stem is plain. -/
theorem selectsStem_iff_plain {α : Type} (stands : List Char → Char → Prop) {verb : Verb α}
    {stem : String}
    (only : ∀ pattern, verb.HandsOver pattern ↔ pattern = Client.archivePattern stem) :
    verb.SelectsStem stands stem ↔ Glob.Plain stem.toList := by
  have selects (name : String) :
      verb.Selects stands name ↔ Glob.Matches stands (stem.toList ++ ['*']) name.toList := by
    simp [Selects, only, Client.archivePattern]
  rw [← @Glob.matches_iff_prefix_iff_plain stands]
  constructor
  · intro agree name
    have atName := agree (String.ofList name)
    rwa [selects, String.toList_ofList] at atName
  · intro agree name
    rw [selects, agree]

end Verb

namespace Client

@[simp]
theorem archivePattern?_deletion (client : Client) (environment : EngineEnvironment)
    (pattern repository : String) :
    (client.command environment
      ["delete", "--glob-archives", pattern, repository]).archivePattern? = some pattern := by
  simp [CommandSpec.archivePattern?, command]

@[simp]
theorem archivePattern?_compaction (client : Client) (environment : EngineEnvironment)
    (repository : String) :
    (client.command environment ["compact", repository]).archivePattern? = none := by
  by_cases isFlag : repository = "--glob-archives" <;>
    simp [CommandSpec.archivePattern?, command, isFlag]

@[simp]
theorem archivePattern?_pruning (client : Client) (environment : EngineEnvironment)
    (job : PruneJob) :
    (client.command environment (pruneArguments job)).archivePattern? =
      some (archivePattern job.stem) := by
  simp [CommandSpec.archivePattern?, command, pruneArguments]

/-- Deleting by a stem hands over the stem's pattern, and nothing if the stem is empty. -/
theorem handsOver_deleteArchives_iff {client : Client}
    {repository passphrase stem pattern : String} :
    (client.deleteArchives repository passphrase stem).HandsOver pattern ↔
      stem ≠ "" ∧ pattern = archivePattern stem := by
  by_cases isEmpty : stem = ""
  · simp [Verb.HandsOver, deleteArchives, isEmpty, Verb.Starts]
  · have notEmpty : stem.isEmpty = false := by simpa using isEmpty
    simp only [Verb.HandsOver, deleteArchives, notEmpty, Bool.false_eq_true, if_false,
      Verb.starts_bind_iff, Verb.starts_plain_iff, Verb.starts_thenRun_iff, compact]
    constructor
    · rintro ⟨spec, rfl | ⟨status, -, -, rfl⟩, handed⟩
      · simp_all
      · simp at handed
    · rintro ⟨-, rfl⟩
      exact ⟨_, .inl rfl, by simp⟩

/-- Pruning hands over the stem's pattern, and nothing if no rule keeps any archive. -/
theorem handsOver_prune_iff {client : Client} {job : PruneJob} {pattern : String} :
    (client.prune job).HandsOver pattern ↔
      job.rule.isEmpty = false ∧ pattern = archivePattern job.stem := by
  cases isEmpty : job.rule.isEmpty with
  | true => simp [Verb.HandsOver, prune, isEmpty, Verb.Starts]
  | false =>
      simp only [Verb.HandsOver, prune, isEmpty, Bool.false_eq_true, if_false,
        Verb.starts_bind_iff, Verb.starts_follow_iff, Verb.yields_follow, Verb.starts_say, true_and,
        false_or]
      constructor
      · rintro ⟨spec, rfl | ⟨⟨ended, records⟩, _, _, started⟩, handed⟩
        · simpa using handed.symm
        · -- What is started after the run that prunes is the run that compacts.
          cases dryRun : job.dryRun with
          | true => simp [dryRun] at started
          | false =>
              simp only [dryRun, Bool.false_eq_true, if_false, Verb.starts_bind_iff,
                Verb.starts_thenRun_iff, compact, Verb.starts_plain_iff, Verb.starts_pure, and_false,
                exists_false, or_false] at started
              rw [started.2, archivePattern?_compaction] at handed
              cases handed
      · rintro rfl
        exact ⟨_, .inl rfl, archivePattern?_pruning client (client.environment job.passphrase) job⟩

theorem name_of_yields_create {client : Client} {job : BackupJob} {now : Instant} {status : Status}
    {name : String} (made : (client.create job now).Yields (status, name)) :
    name = archiveName job.stem now := by
  simp only [create, Verb.yields_bind_iff] at made
  obtain ⟨⟨tried, output⟩, -, made⟩ := made
  cases output with
  | none =>
      simp only [Verb.yields_pure_iff, Prod.mk.injEq] at made
      exact made.2
  | some output =>
      cases succeeded : tried.isSuccess with
      | true =>
          simp only [succeeded, if_true, Verb.yields_bind_iff, Verb.yields_pure_iff,
            Prod.mk.injEq] at made
          obtain ⟨_, _, _, _, _, named⟩ := made
          exact named
      | false =>
          simp only [succeeded, Bool.false_eq_true, if_false, Verb.yields_pure_iff,
            Prod.mk.injEq] at made
          exact made.2

theorem stem_prefix_archiveName (stem : String) (now : Instant) :
    stem.toList <+: (archiveName stem now).toList := by
  simp [archiveName]

theorem selectsStem_deleteArchives_iff (stands : List Char → Char → Prop) (client : Client)
    (repository passphrase : String) {stem : String} (notEmpty : stem ≠ "") :
    (client.deleteArchives repository passphrase stem).SelectsStem stands stem ↔
      Glob.Plain stem.toList :=
  Verb.selectsStem_iff_plain stands fun pattern => by simp [handsOver_deleteArchives_iff, notEmpty]

theorem selectsStem_prune_iff (stands : List Char → Char → Prop) (client : Client) {job : PruneJob}
    (keeps : job.rule.isEmpty = false) :
    (client.prune job).SelectsStem stands job.stem ↔ Glob.Plain job.stem.toList :=
  Verb.selectsStem_iff_plain stands fun pattern => by simp [handsOver_prune_iff, keeps]

/-- Deleting and pruning by a stem select exactly the archives whose names begin with it just if the stem
is plain, and then they select every archive that was made with it. -/
theorem selects_archives_of_stem_iff_plain (stands : List Char → Char → Prop) (client : Client) :
    (∀ repository passphrase stem, stem ≠ "" →
      ((client.deleteArchives repository passphrase stem).SelectsStem stands stem ↔
        Glob.Plain stem.toList)) ∧
    (∀ job : PruneJob, job.rule.isEmpty = false →
      ((client.prune job).SelectsStem stands job.stem ↔ Glob.Plain job.stem.toList)) ∧
    ∀ (job : BackupJob) (now : Instant) (status : Status) (name : String),
      (client.create job now).Yields (status, name) → Glob.Plain job.stem.toList →
        (∀ repository passphrase, job.stem ≠ "" →
          (client.deleteArchives repository passphrase job.stem).Selects stands name) ∧
        ∀ prune : PruneJob, prune.rule.isEmpty = false → prune.stem = job.stem →
          (client.prune prune).Selects stands name := by
  refine ⟨fun repository passphrase stem notEmpty =>
      selectsStem_deleteArchives_iff stands client repository passphrase notEmpty,
    fun job keeps => selectsStem_prune_iff stands client keeps, ?_⟩
  intro job now status name made plain
  have begins : job.stem.toList <+: name.toList := by
    rw [name_of_yields_create made]
    exact stem_prefix_archiveName job.stem now
  constructor
  · intro repository passphrase notEmpty
    exact ((selectsStem_deleteArchives_iff stands client repository passphrase notEmpty).mpr plain
      name).mpr begins
  · intro prune keeps same
    rw [← same] at plain begins
    exact ((selectsStem_prune_iff stands client keeps).mpr plain name).mpr begins

def weekRule : PruneRule :=
  ⟨0, 7, 0, 0, 0, 0⟩

theorem selects_archives_of_home :
    let client : Client := ⟨Configuration.standard, [], "/run"⟩
    let prune : PruneJob := ⟨⟨1, 1⟩, "/r", "hunter2", "home-", weekRule, false⟩
    let made : BackupJob := ⟨⟨1, 1⟩, "/r", "hunter2", "home-", ["/home"], []⟩
    let name := archiveName "home-" Instant.epoch
    let stands : List Char → Char → Prop := fun body char => char ∈ body
    (client.deleteArchives "/r" "hunter2" "home-").SelectsStem stands "home-" ∧
      (client.prune prune).SelectsStem stands "home-" ∧
      (client.create made Instant.epoch).Yields (Status.ofRunError (.wait ""), name) ∧
      (client.deleteArchives "/r" "hunter2" "home-").Selects stands name ∧
      (client.prune prune).Selects stands name := by
  intro client prune made name stands
  have plain : Glob.Plain "home-".toList :=
    Glob.plain_of_no_signs (by decide) (by decide) (by decide)
  have keeps : prune.rule.isEmpty = false := by decide
  have yields : (client.create made Instant.epoch).Yields (Status.ofRunError (.wait ""), name) := by
    simp only [create, Verb.buffered, Verb.yields_bind_iff, Verb.yields_collect, true_and]
    exact ⟨_, ⟨.error (.wait ""), rfl⟩, rfl⟩
  obtain ⟨deletes, prunes, creates⟩ := selects_archives_of_stem_iff_plain stands client
  obtain ⟨deleted, pruned⟩ := creates made Instant.epoch _ name yields plain
  exact ⟨(deletes "/r" "hunter2" "home-" (by decide)).mpr plain, (prunes prune keeps).mpr plain,
    yields, deleted "/r" "hunter2" (by decide), pruned prune keeps rfl⟩

/-- A star in a stem reaches archives whose names do not begin with the stem, and brackets in a stem miss
the archives that were made with it. -/
theorem star_selects_foreign_archive :
    let client : Client := ⟨Configuration.standard, [], "/run"⟩
    let prune : PruneJob := ⟨⟨1, 1⟩, "/r", "hunter2", "[a]", weekRule, false⟩
    let stands : List Char → Char → Prop := fun body char => char ∈ body
    (client.deleteArchives "/r" "hunter2" "home*").Selects stands "home-2" ∧
      ¬ "home*".toList <+: "home-2".toList ∧
      ¬ (client.prune prune).Selects stands (archiveName "[a]" .epoch) := by
  intro client prune stands
  refine ⟨⟨archivePattern "home*", ?_, ?_⟩, by decide, ?_⟩
  · exact handsOver_deleteArchives_iff.mpr ⟨by decide, rfl⟩
  · show Glob.Matches stands ['h', 'o', 'm', 'e', '*', '*'] ['h', 'o', 'm', 'e', '-', '2']
    refine .literal (by simp [Glob.IsLiteral]) (.literal (by simp [Glob.IsLiteral]) ?_)
    refine .literal (by simp [Glob.IsLiteral]) (.literal (by simp [Glob.IsLiteral]) ?_)
    exact .skip (Glob.matches_star _)
  · rintro ⟨pattern, handed, matched⟩
    obtain ⟨-, rfl⟩ := handsOver_prune_iff.mp handed
    have pattern : (archivePattern "[a]").toList = '[' :: (['a', ']'] ++ ['*']) := by decide
    have name : (archiveName "[a]" .epoch).toList =
        '[' :: ('a' :: ']' :: (LocalTime.ofInstant .epoch).stamp) := by
      simp [archiveName]
    rw [pattern, name] at matched
    -- The expression stands for the letter alone, and the name begins with a bracket.
    have closes : Glob.Closes ['a', ']'] := ⟨['a'], [], by decide, rfl⟩
    cases matched.opening with
    | @member body after _ _ isBody stood texts _ =>
        rcases body with _ | ⟨first, _ | ⟨second, body⟩⟩
        · simp at texts
        · obtain rfl : 'a' = first := (List.cons.inj texts).1
          exact absurd stood (by decide)
        · simp at texts
    | literal literal _ => exact literal.2.2 rfl closes

end Client

end BackupClient
