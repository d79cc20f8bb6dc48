import BackupClient.Jobs.Work
import BackupClient.Proofs.Json.Exact

/-!
Documents of jobs.

The document of a job tells all of the job but its passphrase: the job comes back without one, and a job with
another passphrase has the very same document.
-/

namespace BackupClient

open Json

variable {depth : Nat}

section Forms

attribute [local simp] bind_fields?_of_distinct Fields.required_cons_of_ne Fields.withDefault_cons_of_ne
  exactAt_str exactAt_bool decodeString decodeBool decodeName decodeList_strings

theorem Json.exactAt_strings (shallow : depth < depthLimit) (texts : List String) :
    ExactAt depth (ofList .str texts) :=
  exactAt_ofList shallow fun text _ => exactAt_str text

/-! ### Parts of jobs -/

namespace OperationId

variable {id : OperationId}

def IsBounded (id : OperationId) : Prop :=
  ∀ number ∈ [id.profile, id.repository], -2 ^ 63 ≤ number ∧ number < 2 ^ 63

instance (id : OperationId) : Decidable id.IsBounded :=
  List.decidableBAll _ _

theorem exactAt_toJson (bounded : id.IsBounded) (shallow : depth < depthLimit) :
    ExactAt depth id.toJson := by
  have exact : ∀ number ∈ [id.profile, id.repository], ExactAt (depth + 1) (.int number) := by
    intro number listed
    obtain ⟨least, greatest⟩ := bounded number listed
    exact exactAt_int least (by omega)
  exact exactAt_obj shallow (by simpa using exact)

theorem ofJson?_toJson (bounded : id.IsBounded) : ofJson? id.toJson = some id := by
  have decoded : ∀ number ∈ [id.profile, id.repository], decodeInt64 (.int number) = some number := by
    intro number listed
    obtain ⟨least, greatest⟩ := bounded number listed
    exact decodeInt64_int least greatest
  simp only [List.forall_mem_cons, List.not_mem_nil, false_imp_iff, implies_true, and_true] at decoded
  simp [ofJson?, toJson, decoded]

end OperationId

namespace PruneRule

variable {rule : PruneRule}

def counts (rule : PruneRule) : List Nat :=
  [rule.hourly, rule.daily, rule.weekly, rule.monthly, rule.yearly, rule.withinDays]

def IsBounded (rule : PruneRule) : Prop :=
  ∀ count ∈ rule.counts, count < bound32

instance (rule : PruneRule) : Decidable rule.IsBounded :=
  List.decidableBAll _ _

theorem exactAt_toJson (bounded : rule.IsBounded) (shallow : depth < depthLimit) :
    ExactAt depth rule.toJson := by
  have exact : ∀ count ∈ rule.counts, ExactAt (depth + 1) (ofNat count) := by
    intro count listed
    apply exactAt_ofNat
    exact Nat.lt_trans (bounded count listed) (by decide)
  exact exactAt_obj shallow (by simpa [counts] using exact)

theorem ofJson?_toJson (bounded : rule.IsBounded) : ofJson? rule.toJson = some rule := by
  have decoded : ∀ count ∈ rule.counts, decodeNat bound32 (ofNat count) = some count := by
    intro count listed
    exact decodeNat_ofNat (bounded count listed)
  simp only [counts, List.forall_mem_cons, List.not_mem_nil, false_imp_iff, implies_true,
    and_true] at decoded
  simp [ofJson?, toJson, decoded]

end PruneRule

namespace DeleteTarget

theorem exactAt_toJson (shallow : depth < depthLimit) (target : DeleteTarget) :
    ExactAt depth target.toJson := by
  cases target with
  | archive name => exact exactAt_obj shallow (by simp)
  | stem text => exact exactAt_obj shallow (by simp)
  | repository => exact exactAt_obj shallow (by simp)

theorem ofJson?_toJson (target : DeleteTarget) : ofJson? target.toJson = some target := by
  cases target with
  | archive name => simp [ofJson?, toJson]
  | stem text => simp [ofJson?, toJson]
  | repository => simp [ofJson?, toJson]

end DeleteTarget

/-! ### Jobs -/

namespace Job

variable {job other : Job}

def toJson : Job → Json
  | .backup job => job.toJson
  | .prune job => job.toJson
  | .delete job => job.toJson

def ofJson? (kind : OperationKind) (value : Json) : Option Job :=
  match kind with
  | .backup => (BackupJob.ofJson? value).map Job.backup
  | .prune => (PruneJob.ofJson? value).map Job.prune
  | .delete => (DeleteJob.ofJson? value).map Job.delete

def read? (kind : OperationKind) (text : List Char) : Option Job :=
  (parse? text).bind (ofJson? kind)

def withoutPassphrase : Job → Job
  | .backup job => .backup { job with passphrase := "" }
  | .prune job => .prune { job with passphrase := "" }
  | .delete job => .delete { job with passphrase := "" }

def IsBounded : Job → Prop
  | .backup job => job.id.IsBounded
  | .prune job => job.id.IsBounded ∧ job.rule.IsBounded
  | .delete job => job.id.IsBounded

instance : DecidablePred IsBounded
  | .backup job => inferInstanceAs (Decidable job.id.IsBounded)
  | .prune job => inferInstanceAs (Decidable (job.id.IsBounded ∧ job.rule.IsBounded))
  | .delete job => inferInstanceAs (Decidable job.id.IsBounded)

theorem exactAt_toJson (bounded : job.IsBounded) : ExactAt 0 job.toJson := by
  have shallow : 0 < depthLimit := by decide
  have within : 1 < depthLimit := by decide
  cases job with
  | backup job =>
      have id : ExactAt 1 job.id.toJson := OperationId.exactAt_toJson bounded within
      exact exactAt_obj shallow (by simp [id, exactAt_strings within])
  | prune job =>
      have id : ExactAt 1 job.id.toJson := OperationId.exactAt_toJson bounded.1 within
      have rule : ExactAt 1 job.rule.toJson := PruneRule.exactAt_toJson bounded.2 within
      exact exactAt_obj shallow (by simp [id, rule])
  | delete job =>
      have id : ExactAt 1 job.id.toJson := OperationId.exactAt_toJson bounded within
      exact exactAt_obj shallow (by simp [id, DeleteTarget.exactAt_toJson within])

theorem ofJson?_toJson (bounded : job.IsBounded) :
    ofJson? job.operation.kind job.toJson = some job.withoutPassphrase := by
  cases job with
  | backup job =>
      have id := OperationId.ofJson?_toJson bounded
      simp [ofJson?, operation, toJson, withoutPassphrase, BackupJob.ofJson?, BackupJob.toJson, id]
  | prune job =>
      have id := OperationId.ofJson?_toJson bounded.1
      have rule := PruneRule.ofJson?_toJson bounded.2
      simp [ofJson?, operation, toJson, withoutPassphrase, PruneJob.ofJson?, PruneJob.toJson, id, rule]
  | delete job =>
      have id := OperationId.ofJson?_toJson bounded
      have target := DeleteTarget.ofJson?_toJson job.target
      simp [ofJson?, operation, toJson, withoutPassphrase, DeleteJob.ofJson?, DeleteJob.toJson, id,
        target]

theorem toJson_withoutPassphrase (job : Job) : job.withoutPassphrase.toJson = job.toJson := by
  cases job with
  | backup job => rfl
  | prune job => rfl
  | delete job => rfl

end Job

end Forms

namespace Job

variable {job : Job}

/-- What a document and its text tell of a job, and what they do not tell. -/
structure HidesPassphrase (job : Job) : Prop where
  decoded : ofJson? job.operation.kind job.toJson = some job.withoutPassphrase
  read : read? job.operation.kind (write job.toJson) = some job.withoutPassphrase
  alike : ∀ other : Job, other.withoutPassphrase = job.withoutPassphrase → other.toJson = job.toJson

/-- A job comes back from its document with nothing missing but the passphrase, and there is no passphrase
that the document depends on. -/
theorem documents_hide_passphrase (bounded : job.IsBounded) : job.HidesPassphrase where
  decoded := ofJson?_toJson bounded
  read := by rw [read?, (exactAt_toJson bounded).parse?_write, Option.bind_some, ofJson?_toJson bounded]
  alike := by
    intro other same
    rw [← toJson_withoutPassphrase other, same, toJson_withoutPassphrase job]

/-- A job of a profile and a repository with the least and the greatest number, and a rule with the greatest
count. -/
def farthestPrune : Job :=
  .prune
    ⟨⟨-2 ^ 63, 2 ^ 63 - 1⟩, "ssh://host/./\"Ω\"", "s3cret", "docs-\n", ⟨0, 7, 2 ^ 32 - 1, 0, 0, 2⟩, true⟩

theorem farthestPrune_hides_passphrase : farthestPrune.IsBounded ∧ farthestPrune.HidesPassphrase := by
  have bounded : farthestPrune.IsBounded := by decide
  exact ⟨bounded, documents_hide_passphrase bounded⟩

end Job

end BackupClient
