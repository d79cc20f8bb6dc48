import BackupClient.Proofs.Json.Exact
import BackupClient.Proofs.Responses.Stability

/-!
Lists of archives written and read again.

A list has no doubles, so that nothing of it can be lost but what its times have beyond the microsecond.  One
with times of whole microseconds comes back as it was, whatever its texts, from its document and from the text
of that.
-/

namespace BackupClient

open Json

variable {depth : Nat}

namespace LocalTime

variable {time : LocalTime}

structure IsWhole (time : LocalTime) : Prop where
  told : time.IsTold
  micros : 1000 ∣ time.nanos

/-- Every time that exists and is no leap second can be told. -/
theorem isWhole_of_no_leap (valid : time.isValid = true) (ordinary : time.nanos < 1000000000)
    (micros : 1000 ∣ time.nanos) : time.IsWhole :=
  ⟨⟨valid, .inl ordinary⟩, micros⟩

end LocalTime

theorem Json.exactAt_ofLocalTime (time : LocalTime) : ExactAt depth (ofLocalTime time) :=
  exactAt_str _

theorem Json.decodeLocalTime_ofLocalTime {time : LocalTime} (whole : time.IsWhole) :
    decodeLocalTime (ofLocalTime time) = some time := by
  have survives := (decodeLocalTime_reread_iff whole.told).mpr whole.micros
  have exact : ExactAt 0 (ofLocalTime time) := exactAt_ofLocalTime time
  rwa [exact.same] at survives

section Forms

attribute [local simp] bind_fields?_of_distinct Fields.required_cons_of_ne Fields.withDefault_cons_of_ne
  exactAt_str exactAt_ofLocalTime

theorem Encryption.exactAt_toJson (shallow : depth < depthLimit) (encryption : Encryption) :
    ExactAt depth encryption.toJson := by
  obtain ⟨mode, keyfile⟩ := encryption
  cases keyfile with
  | none => exact exactAt_obj shallow (by simp)
  | some keyfile => exact exactAt_obj shallow (by simp)

theorem Encryption.ofJson?_toJson (encryption : Encryption) :
    ofJson? encryption.toJson = some encryption := by
  have survives := ofJson?_reread encryption
  rwa [(exactAt_toJson (by decide : 0 < depthLimit) encryption).same] at survives

theorem RepositoryInfo.exactAt_toJson (shallow : depth < depthLimit) (repository : RepositoryInfo) :
    ExactAt depth repository.toJson :=
  exactAt_obj shallow (by simp)

theorem RepositoryInfo.ofJson?_toJson (repository : RepositoryInfo) :
    ofJson? repository.toJson = some repository := by
  have survives := ofJson?_reread repository
  rwa [(exactAt_toJson (by decide : 0 < depthLimit) repository).same] at survives

namespace ArchiveListEntry

variable {entry : ArchiveListEntry}

/-- The start, and the end if there is one. -/
def times (entry : ArchiveListEntry) : List LocalTime :=
  entry.start :: entry.stop.toList

theorem exactAt_toJson (shallow : depth < depthLimit) (entry : ArchiveListEntry) :
    ExactAt depth entry.toJson := by
  obtain ⟨archive, barchive, id, name, start, stop⟩ := entry
  cases stop with
  | none => exact exactAt_obj shallow (by simp)
  | some stop => exact exactAt_obj shallow (by simp)

theorem ofJson?_toJson (whole : ∀ time ∈ entry.times, time.IsWhole) :
    ofJson? entry.toJson = some entry := by
  obtain ⟨archive, barchive, id, name, start, stop⟩ := entry
  have start := decodeLocalTime_ofLocalTime (whole start List.mem_cons_self)
  cases stop with
  | none => simp [toJson, ofJson?, decodeString, start]
  | some stop =>
      have last : stop.IsWhole := whole stop (List.mem_cons_of_mem _ List.mem_cons_self)
      have stop : decodeOption decodeLocalTime (ofLocalTime stop) = some (some stop) := by
        rw [decodeOption_of_ne_null (by simp [ofLocalTime]), decodeLocalTime_ofLocalTime last,
          Option.map_some]
      simp [toJson, ofJson?, decodeString, start, stop]

end ArchiveListEntry

end Forms

namespace ListResponse

variable {response : ListResponse}

def times (response : ListResponse) : List LocalTime :=
  response.archives.flatMap ArchiveListEntry.times

def read? (text : List Char) : Option ListResponse :=
  (parse? text).bind ofJson?

def write (response : ListResponse) : List Char :=
  Json.write response.toJson

theorem exactAt_toJson (response : ListResponse) : ExactAt 0 response.toJson := by
  have archives : ExactAt 1 (ofList ArchiveListEntry.toJson response.archives) := by
    apply exactAt_ofList (by decide)
    intro entry _
    exact entry.exactAt_toJson (by decide)
  have encryption : ExactAt 1 response.encryption.toJson :=
    response.encryption.exactAt_toJson (by decide)
  have repository : ExactAt 1 response.repository.toJson :=
    response.repository.exactAt_toJson (by decide)
  exact exactAt_obj (by decide) (by simp [archives, encryption, repository])

theorem ofJson?_toJson (whole : ∀ time ∈ response.times, time.IsWhole) :
    ofJson? response.toJson = some response := by
  have archives : decodeList ArchiveListEntry.ofJson?
      (ofList ArchiveListEntry.toJson response.archives) = some response.archives := by
    apply decodeList_ofList_iff.mpr
    intro entry listed
    apply ArchiveListEntry.ofJson?_toJson
    intro time known
    exact whole time (List.mem_flatMap.mpr ⟨entry, listed, known⟩)
  have encryption := Encryption.ofJson?_toJson response.encryption
  have repository := RepositoryInfo.ofJson?_toJson response.repository
  obtain ⟨entries, encryption, repository⟩ := response
  simp [toJson, ofJson?, bind_fields?_of_distinct, Fields.required_cons_of_ne, archives, encryption,
    repository]

/-- A list of archives with times of whole microseconds comes back from its document, and from the text of
its document. -/
theorem list_survives (whole : ∀ time ∈ response.times, time.IsWhole) :
    ofJson? response.toJson = some response ∧ read? response.write = some response := by
  have decoded := ofJson?_toJson whole
  refine ⟨decoded, ?_⟩
  rw [read?, write, response.exactAt_toJson.parse?_write, Option.bind_some, decoded]

/-- An archive without an end from the last microsecond of the first year and one from the last year, with
texts that have to be escaped. -/
def remoteList : ListResponse where
  archives :=
    [⟨"home \"Ω\"\n", "", "a1", "home", ⟨⟨-262143, 12, 31⟩, 23, 59, 59, 999999000⟩, none⟩,
      ⟨"\\srv", "b", "a2", "", ⟨⟨262142, 2, 28⟩, 0, 0, 0, 1000⟩,
        some ⟨⟨262142, 12, 31⟩, 23, 59, 59, 0⟩⟩]
  encryption := ⟨"keyfile", some "/keys/é"⟩
  repository := ⟨"r1", "", "ssh://host/./r"⟩

theorem remoteList_survives :
    (∀ time ∈ remoteList.times, time.IsWhole) ∧
      ofJson? remoteList.toJson = some remoteList ∧
      read? remoteList.write = some remoteList := by
  have whole : ∀ time ∈ remoteList.times, time.IsWhole := by
    simp only [remoteList, times, ArchiveListEntry.times, List.flatMap_cons, List.flatMap_nil,
      Option.toList, List.cons_append, List.nil_append, List.forall_mem_cons]
    refine ⟨?_, ?_, ?_, List.forall_mem_nil _⟩
    all_goals
      apply LocalTime.isWhole_of_no_leap
      · decide
      · decide
      · decide
  exact ⟨whole, list_survives whole⟩

end ListResponse

end BackupClient
