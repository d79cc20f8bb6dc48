import BackupClient.Proofs.Json.Records
import BackupClient.Proofs.Time.LocalTime
import BackupClient.Response

/-!
Answers of the engine written and read again.

Texts, sizes and optional members survive.  What may be lost lies in an archive: the nanoseconds of its
times, which are written down to the microsecond, and the last digits of its doubles.
-/

namespace BackupClient

open Json

/-! ### Single values -/

namespace Json

variable {time : LocalTime} {size : Nat}

theorem decodeLocalTime_reread_iff (told : time.IsTold) :
    decodeLocalTime (ofLocalTime time).reread = some time ↔ 1000 ∣ time.nanos := by
  rw [← LocalTime.toMicros_eq_iff]
  simp [ofLocalTime, reread, decodeLocalTime, decodeString, told.read?_write]

theorem isTold_of_decodeLocalTime {value : Json} (read : decodeLocalTime value = some time) :
    time.IsTold := by
  obtain ⟨text, -, told⟩ := Option.bind_eq_some_iff.mp read
  exact LocalTime.isTold_of_read? told

theorem decodeSize_reread (small : size < 2 ^ 64) : decodeSize (ofNat size).reread = some size := by
  have within : (0 : Int) ≤ size ∧ (size : Int) < Nat.pow 2 64 :=
    ⟨Int.natCast_nonneg size, Int.ofNat_lt.mpr small⟩
  have whole : (ofNat size).reread = .int size := by simp [ofNat, reread]
  rw [whole, decodeSize, decodeNat, if_pos within, Int.toNat_natCast]

theorem fitsAt_ofNat {depth : Nat} (small : size < 2 ^ 64) : FitsAt depth (ofNat size) :=
  .int (by omega) (by omega)

end Json

/-- A duration whose seconds, as a double, are read as this duration again. -/
def Duration.ReadsBack (duration : Duration) : Prop :=
  (parse? (write (.float duration.toSecondsDouble))).bind decodeSeconds = some duration

theorem Duration.readsBack_iff {duration : Duration} :
    duration.ReadsBack ↔ decodeSeconds (rereadDouble duration.toSecondsDouble) = some duration := by
  rw [Duration.ReadsBack, (double_denotes _ 0).parse?, Option.bind_some]

/-! ### Repositories -/

section Records

attribute [local simp] bind_fields?_of_distinct Fields.required_cons_of_ne Fields.withDefault_cons_of_ne
  reread rereadMembers decodeString decodeOption

theorem Encryption.ofJson?_reread (encryption : Encryption) :
    ofJson? encryption.toJson.reread = some encryption := by
  obtain ⟨mode, keyfile⟩ := encryption
  cases keyfile with
  | none => simp [toJson, ofJson?]
  | some keyfile => simp [toJson, ofJson?]

theorem RepositoryInfo.ofJson?_reread (repository : RepositoryInfo) :
    ofJson? repository.toJson.reread = some repository := by
  simp [toJson, ofJson?]

namespace CacheStats

variable {stats : CacheStats} {value : Json}

def sizes (stats : CacheStats) : List Nat :=
  [stats.totalChunks, stats.totalCompressedSize, stats.totalSize, stats.totalUniqueChunks,
    stats.uniqueCompressedSize, stats.uniqueSize]

theorem ofJson?_reread (small : ∀ size ∈ stats.sizes, size < 2 ^ 64) :
    ofJson? stats.toJson.reread = some stats := by
  have survive : ∀ size ∈ stats.sizes, decodeSize (ofNat size).reread = some size :=
    fun size listed => decodeSize_reread (small size listed)
  simp only [sizes, List.forall_mem_cons] at survive
  simp [toJson, ofJson?, survive]

end CacheStats

theorem Cache.ofJson?_reread {cache : Cache} (small : ∀ size ∈ cache.stats.sizes, size < 2 ^ 64) :
    ofJson? cache.toJson.reread = some cache := by
  simp [toJson, ofJson?, CacheStats.ofJson?_reread small]

/-! ### Archives -/

namespace ArchiveStats

variable {stats : ArchiveStats} {value : Json}

def sizes (stats : ArchiveStats) : List Nat :=
  [stats.compressedSize, stats.dedupedSize, stats.fileCount, stats.originalSize]

theorem ofJson?_reread (small : ∀ size ∈ stats.sizes, size < 2 ^ 64) :
    ofJson? stats.toJson.reread = some stats := by
  have survive : ∀ size ∈ stats.sizes, decodeSize (ofNat size).reread = some size :=
    fun size listed => decodeSize_reread (small size listed)
  simp only [sizes, List.forall_mem_cons] at survive
  simp [toJson, ofJson?, survive]

end ArchiveStats

theorem Limits.ofJson?_reread_iff {limits : Limits} :
    ofJson? limits.toJson.reread = some limits ↔ ReadsBack limits.maxArchiveSize := by
  have decoded : ofJson? limits.toJson.reread =
      (decodeDouble (rereadDouble limits.maxArchiveSize)).bind fun size => some ⟨size⟩ := by
    simp [toJson, ofJson?]
  rw [decoded, readsBack_iff]
  rcases rereadDouble_cases limits.maxArchiveSize with ⟨other, same⟩ | same | same
  · obtain ⟨size⟩ := limits
    simp [same, decodeDouble]
  · simp [same, decodeDouble]
  · simp [same, decodeDouble]

namespace ArchiveInfo

variable {archive : ArchiveInfo} {value : Json} {depth : Nat}

theorem ofJson?_eq_some_iff :
    ofJson? value = some archive ↔ ∃ fields, value.fields? ["chunker_params", "command_line", "comment",
        "duration", "end", "hostname", "id", "limits", "name", "start", "stats", "username"] =
          some fields ∧
      fields.withDefault "chunker_params" [] (decodeList decodeAny) = some archive.chunkerParams ∧
      fields.withDefault "command_line" [] (decodeList decodeString) = some archive.commandLine ∧
      fields.withDefault "comment" "" decodeString = some archive.comment ∧
      fields.required "duration" decodeSeconds = some archive.duration ∧
      fields.required "end" decodeLocalTime = some archive.stop ∧
      fields.withDefault "hostname" "" decodeString = some archive.hostname ∧
      fields.required "id" decodeString = some archive.id ∧
      fields.withDefault "limits" Limits.zero Limits.ofJson? = some archive.limits ∧
      fields.required "name" decodeString = some archive.name ∧
      fields.required "start" decodeLocalTime = some archive.start ∧
      fields.withDefault "stats" ArchiveStats.zero ArchiveStats.ofJson? = some archive.stats ∧
      fields.withDefault "username" "" decodeString = some archive.username := by
  constructor
  · intro read
    obtain ⟨fields, given, read⟩ := Option.bind_eq_some_iff.mp read
    obtain ⟨chunkerParams, params, read⟩ := Option.bind_eq_some_iff.mp read
    obtain ⟨commandLine, line, read⟩ := Option.bind_eq_some_iff.mp read
    obtain ⟨comment, remark, read⟩ := Option.bind_eq_some_iff.mp read
    obtain ⟨duration, seconds, read⟩ := Option.bind_eq_some_iff.mp read
    obtain ⟨stop, last, read⟩ := Option.bind_eq_some_iff.mp read
    obtain ⟨hostname, host, read⟩ := Option.bind_eq_some_iff.mp read
    obtain ⟨id, mark, read⟩ := Option.bind_eq_some_iff.mp read
    obtain ⟨limits, most, read⟩ := Option.bind_eq_some_iff.mp read
    obtain ⟨name, called, read⟩ := Option.bind_eq_some_iff.mp read
    obtain ⟨start, first, read⟩ := Option.bind_eq_some_iff.mp read
    obtain ⟨stats, sizes, read⟩ := Option.bind_eq_some_iff.mp read
    obtain ⟨username, user, read⟩ := Option.bind_eq_some_iff.mp read
    obtain rfl := Option.some.inj read
    exact ⟨fields, given, params, line, remark, seconds, last, host, mark, most, called, first, sizes,
      user⟩
  · rintro ⟨fields, given, params, line, remark, seconds, last, host, mark, most, called, first, sizes,
      user⟩
    refine bind_eq_some_of given ?_
    refine bind_eq_some_of params ?_
    refine bind_eq_some_of line ?_
    refine bind_eq_some_of remark ?_
    refine bind_eq_some_of seconds ?_
    refine bind_eq_some_of last ?_
    refine bind_eq_some_of host ?_
    refine bind_eq_some_of mark ?_
    refine bind_eq_some_of most ?_
    refine bind_eq_some_of called ?_
    refine bind_eq_some_of first ?_
    refine bind_eq_some_of sizes ?_
    exact bind_eq_some_of user rfl

/-- What holds of an archive that some text tells. -/
structure IsToldAt (depth : Nat) (archive : ArchiveInfo) : Prop where
  params : ∀ param ∈ archive.chunkerParams, FitsAt (depth + 2) param ∧ IsCanonical param
  start : archive.start.IsTold
  stop : archive.stop.IsTold
  stats : ∀ size ∈ archive.stats.sizes, size < 2 ^ 64

/-- An archive that survives being written and read again. -/
structure IsStable (archive : ArchiveInfo) : Prop where
  params : ∀ param ∈ archive.chunkerParams, ∀ double ∈ param.doubles, ReadsBack double
  duration : archive.duration.ReadsBack
  stop : 1000 ∣ archive.stop.nanos
  limits : ReadsBack archive.limits.maxArchiveSize
  start : 1000 ∣ archive.start.nanos

theorem decodeParams_reread_iff {params : List Json} (canonical : ∀ param ∈ params, IsCanonical param) :
    decodeList decodeAny (Json.arr params).reread = some params ↔
      ∀ param ∈ params, ∀ double ∈ param.doubles, ReadsBack double := by
  have asList : Json.arr params = ofList (fun param => param) params := by
    rw [ofList, List.map_id']
  rw [asList, decodeList_reread_iff]
  exact forall₂_congr fun param listed => (canonical param listed).decodeAny_reread_iff

theorem IsToldAt.ofJson?_reread_iff (told : archive.IsToldAt depth) :
    ofJson? archive.toJson.reread = some archive ↔ archive.IsStable := by
  have params := decodeParams_reread_iff fun param listed => (told.params param listed).2
  have commandLine : decodeList decodeString (ofList .str archive.commandLine).reread =
      some archive.commandLine :=
    decodeList_reread_iff.mpr fun _ _ => rfl
  have stats := ArchiveStats.ofJson?_reread told.stats
  have members : ofJson? archive.toJson.reread = some archive ↔
      decodeList decodeAny (Json.arr archive.chunkerParams).reread = some archive.chunkerParams ∧
        decodeSeconds (rereadDouble archive.duration.toSecondsDouble) = some archive.duration ∧
        decodeLocalTime (ofLocalTime archive.stop).reread = some archive.stop ∧
        Limits.ofJson? archive.limits.toJson.reread = some archive.limits ∧
        decodeLocalTime (ofLocalTime archive.start).reread = some archive.start := by
    rw [ofJson?_eq_some_iff]
    simp [toJson, fields?_of_distinct, commandLine, stats]
  rw [members, params, ← Duration.readsBack_iff, decodeLocalTime_reread_iff told.stop,
    Limits.ofJson?_reread_iff, decodeLocalTime_reread_iff told.start]
  exact ⟨fun ⟨params, duration, stop, limits, start⟩ => ⟨params, duration, stop, limits, start⟩,
    fun ⟨params, duration, stop, limits, start⟩ => ⟨params, duration, stop, limits, start⟩⟩

end ArchiveInfo

/-! ### Answers -/

namespace InfoResponse

variable {response : InfoResponse} {value : Json}

/-- What holds of an answer that some text tells. -/
structure IsTold (response : InfoResponse) : Prop where
  archives : ∀ archive ∈ response.archives, archive.IsToldAt 2
  stats : ∀ size ∈ response.cache.stats.sizes, size < 2 ^ 64

/-- An answer that survives being written and read again. -/
def IsStable (response : InfoResponse) : Prop :=
  ∀ archive ∈ response.archives, archive.IsStable

theorem IsTold.ofJson?_reread_iff (told : response.IsTold) :
    ofJson? response.toJson.reread = some response ↔ response.IsStable := by
  have archives : decodeList ArchiveInfo.ofJson?
      (ofList ArchiveInfo.toJson response.archives).reread = some response.archives ↔
      response.IsStable := by
    rw [decodeList_reread_iff]
    exact forall₂_congr fun archive listed => (told.archives archive listed).ofJson?_reread_iff
  have cache := Cache.ofJson?_reread told.stats
  have encryption := Encryption.ofJson?_reread response.encryption
  have repository := RepositoryInfo.ofJson?_reread response.repository
  rw [← archives]
  obtain ⟨archives, cache, encryption, repository, directory⟩ := response
  simp [toJson, ofJson?, cache, encryption, repository, Option.bind_eq_some_iff]

end InfoResponse

end Records

end BackupClient
