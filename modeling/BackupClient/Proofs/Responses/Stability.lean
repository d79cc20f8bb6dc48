import BackupClient.Proofs.Responses.Rereading

/-!
Answers that survive being written and read again.

An answer that was read from some text keeps the bounds of what is read, so that its own text can be read;
and it comes back from there just if its times are of whole microseconds and its doubles are read as they are
written.
-/

namespace BackupClient

open Json

variable {depth : Nat} {value : Json}

/-! ### What is read -/

namespace Json

theorem lt_of_required {fields : Fields} {name : String} {size : Nat}
    (required : fields.required name decodeSize = some size) : size < 2 ^ 64 := by
  obtain ⟨held, -, decoded⟩ := Fields.exists_of_required required
  exact lt_of_decodeNat decoded

theorem FitsAt.decodeParams {params : List Json} (fits : FitsAt depth value)
    (read : decodeList Json.decodeAny value = some params) :
    ∀ param ∈ params, FitsAt (depth + 1) param ∧ IsCanonical param := by
  obtain ⟨items, rfl, decoded⟩ := decodeList_eq_some_iff.mp read
  intro param listed
  obtain ⟨item, known, decodes⟩ := exists_source decoded listed
  cases fits with
  | arr _ fit => exact (fit item known).decodeAny decodes

end Json

theorem CacheStats.lt_of_ofJson? {stats : CacheStats} (read : ofJson? value = some stats) :
    ∀ size ∈ stats.sizes, size < 2 ^ 64 := by
  obtain ⟨fields, -, read⟩ := Option.bind_eq_some_iff.mp read
  obtain ⟨totalChunks, first, read⟩ := Option.bind_eq_some_iff.mp read
  obtain ⟨totalCompressedSize, second, read⟩ := Option.bind_eq_some_iff.mp read
  obtain ⟨totalSize, third, read⟩ := Option.bind_eq_some_iff.mp read
  obtain ⟨totalUniqueChunks, fourth, read⟩ := Option.bind_eq_some_iff.mp read
  obtain ⟨uniqueCompressedSize, fifth, read⟩ := Option.bind_eq_some_iff.mp read
  obtain ⟨uniqueSize, sixth, read⟩ := Option.bind_eq_some_iff.mp read
  obtain rfl := Option.some.inj read
  simp only [sizes, List.forall_mem_cons]
  exact ⟨lt_of_required first, lt_of_required second, lt_of_required third, lt_of_required fourth,
    lt_of_required fifth, lt_of_required sixth, List.forall_mem_nil _⟩

theorem ArchiveStats.lt_of_ofJson? {stats : ArchiveStats} (read : ofJson? value = some stats) :
    ∀ size ∈ stats.sizes, size < 2 ^ 64 := by
  obtain ⟨fields, -, read⟩ := Option.bind_eq_some_iff.mp read
  obtain ⟨compressedSize, first, read⟩ := Option.bind_eq_some_iff.mp read
  obtain ⟨dedupedSize, second, read⟩ := Option.bind_eq_some_iff.mp read
  obtain ⟨fileCount, third, read⟩ := Option.bind_eq_some_iff.mp read
  obtain ⟨originalSize, fourth, read⟩ := Option.bind_eq_some_iff.mp read
  obtain rfl := Option.some.inj read
  simp only [sizes, List.forall_mem_cons]
  exact ⟨lt_of_required first, lt_of_required second, lt_of_required third, lt_of_required fourth,
    List.forall_mem_nil _⟩

theorem ArchiveInfo.isToldAt_of_ofJson? {archive : ArchiveInfo} (fits : FitsAt depth value)
    (read : ofJson? value = some archive) : archive.IsToldAt depth := by
  obtain ⟨fields, given, params, -, -, -, stopRequired, -, -, -, -, startRequired, sizes, -⟩ :=
    ArchiveInfo.ofJson?_eq_some_iff.mp read
  refine ⟨?params, ?start, ?stop, ?stats⟩
  case params =>
      rcases Fields.of_withDefault params with ⟨held, found, decoded⟩ | none
      · exact (fits.find? given found).decodeParams decoded
      · rw [none]
        exact List.forall_mem_nil _
  case start =>
      obtain ⟨held, -, decoded⟩ := Fields.exists_of_required startRequired
      exact isTold_of_decodeLocalTime decoded
  case stop =>
      obtain ⟨held, -, decoded⟩ := Fields.exists_of_required stopRequired
      exact isTold_of_decodeLocalTime decoded
  case stats =>
      rcases Fields.of_withDefault sizes with ⟨held, -, decoded⟩ | zero
      · exact ArchiveStats.lt_of_ofJson? decoded
      · rw [zero]
        decide

theorem Cache.lt_of_ofJson? {cache : Cache} (read : ofJson? value = some cache) :
    ∀ size ∈ cache.stats.sizes, size < 2 ^ 64 := by
  obtain ⟨fields, -, read⟩ := Option.bind_eq_some_iff.mp read
  obtain ⟨path, -, read⟩ := Option.bind_eq_some_iff.mp read
  obtain ⟨stats, required, read⟩ := Option.bind_eq_some_iff.mp read
  obtain rfl := Option.some.inj read
  obtain ⟨held, -, decoded⟩ := Fields.exists_of_required required
  exact CacheStats.lt_of_ofJson? decoded

theorem InfoResponse.isTold_of_ofJson? {response : InfoResponse} (fits : FitsAt 0 value)
    (read : ofJson? value = some response) : response.IsTold := by
  obtain ⟨fields, given, read⟩ := Option.bind_eq_some_iff.mp read
  obtain ⟨archives, list, read⟩ := Option.bind_eq_some_iff.mp read
  obtain ⟨cache, cacheRequired, read⟩ := Option.bind_eq_some_iff.mp read
  obtain ⟨encryption, -, read⟩ := Option.bind_eq_some_iff.mp read
  obtain ⟨repository, -, read⟩ := Option.bind_eq_some_iff.mp read
  obtain ⟨securityDirectory, -, read⟩ := Option.bind_eq_some_iff.mp read
  obtain rfl := Option.some.inj read
  refine ⟨?archives, ?stats⟩
  case archives =>
      intro archive listed
      rcases Fields.of_withDefault list with ⟨held, found, decoded⟩ | rfl
      · obtain ⟨items, rfl, results⟩ := decodeList_eq_some_iff.mp decoded
        obtain ⟨item, known, decodes⟩ := exists_source results listed
        cases fits.find? given found with
        | arr _ fit => exact ArchiveInfo.isToldAt_of_ofJson? (fit item known) decodes
      · cases listed
  case stats =>
      obtain ⟨held, -, decoded⟩ := Fields.exists_of_required cacheRequired
      exact Cache.lt_of_ofJson? decoded

/-! ### What is written -/

section Written

attribute [local simp] FitsAt.str

theorem Json.fitsAt_strings (shallow : depth < depthLimit) (texts : List String) :
    FitsAt depth (ofList .str texts) := by
  refine .arr shallow ?_
  intro item listed
  obtain ⟨text, -, rfl⟩ := List.mem_map.mp listed
  exact .str text

theorem Encryption.fitsAt_toJson (shallow : depth < depthLimit) (encryption : Encryption) :
    FitsAt depth encryption.toJson := by
  obtain ⟨mode, keyfile⟩ := encryption
  cases keyfile with
  | none => exact .obj shallow (by simp)
  | some keyfile => exact .obj shallow (by simp)

theorem RepositoryInfo.fitsAt_toJson (shallow : depth < depthLimit) (repository : RepositoryInfo) :
    FitsAt depth repository.toJson :=
  .obj shallow (by simp)

theorem CacheStats.fitsAt_toJson {stats : CacheStats} (shallow : depth < depthLimit)
    (small : ∀ size ∈ stats.sizes, size < 2 ^ 64) : FitsAt depth stats.toJson := by
  have fit : ∀ size ∈ stats.sizes, FitsAt (depth + 1) (ofNat size) :=
    fun size listed => fitsAt_ofNat (small size listed)
  exact .obj shallow (by simpa [sizes] using fit)

theorem Cache.fitsAt_toJson {cache : Cache} (shallow : depth + 1 < depthLimit)
    (small : ∀ size ∈ cache.stats.sizes, size < 2 ^ 64) : FitsAt depth cache.toJson :=
  .obj (Nat.lt_of_succ_lt shallow) (by simp [CacheStats.fitsAt_toJson shallow small])

theorem ArchiveStats.fitsAt_toJson {stats : ArchiveStats} (shallow : depth < depthLimit)
    (small : ∀ size ∈ stats.sizes, size < 2 ^ 64) : FitsAt depth stats.toJson := by
  have fit : ∀ size ∈ stats.sizes, FitsAt (depth + 1) (ofNat size) :=
    fun size listed => fitsAt_ofNat (small size listed)
  exact .obj shallow (by simpa [sizes] using fit)

theorem Limits.fitsAt_toJson (shallow : depth < depthLimit) (limits : Limits) :
    FitsAt depth limits.toJson :=
  .obj shallow (List.forall_mem_singleton.mpr (.float _))

theorem ArchiveInfo.IsToldAt.fitsAt_toJson {archive : ArchiveInfo} (shallow : depth + 1 < depthLimit)
    (told : archive.IsToldAt depth) : FitsAt depth archive.toJson := by
  have params : FitsAt (depth + 1) (.arr archive.chunkerParams) :=
    .arr shallow fun param listed => (told.params param listed).1
  have lines := fitsAt_strings shallow archive.commandLine
  have limits := archive.limits.fitsAt_toJson shallow
  have stats := ArchiveStats.fitsAt_toJson shallow told.stats
  exact .obj (Nat.lt_of_succ_lt shallow)
    (by simp [params, lines, limits, stats, FitsAt.float, ofLocalTime])

theorem InfoResponse.IsTold.fitsAt_toJson {response : InfoResponse} (told : response.IsTold) :
    FitsAt 0 response.toJson := by
  have archives : FitsAt 1 (ofList ArchiveInfo.toJson response.archives) := by
    refine .arr (by decide) ?_
    intro item listed
    obtain ⟨archive, known, rfl⟩ := List.mem_map.mp listed
    exact (told.archives archive known).fitsAt_toJson (by decide)
  have cache : FitsAt 1 response.cache.toJson := Cache.fitsAt_toJson (by decide) told.stats
  have encryption : FitsAt 1 response.encryption.toJson :=
    response.encryption.fitsAt_toJson (by decide)
  have repository : FitsAt 1 response.repository.toJson :=
    response.repository.fitsAt_toJson (by decide)
  exact .obj (by decide) (by simp [archives, cache, encryption, repository])

end Written

/-! ### Both -/

namespace InfoResponse

variable {response : InfoResponse} {text : List Char}

def read? (text : List Char) : Option InfoResponse :=
  (parse? text).bind ofJson?

def write (response : InfoResponse) : List Char :=
  Json.write response.toJson

theorem isTold_of_read? (read : read? text = some response) : response.IsTold := by
  obtain ⟨value, parsed, decoded⟩ := Option.bind_eq_some_iff.mp read
  exact isTold_of_ofJson? (fitsAt_of_parse? parsed) decoded

theorem IsTold.read?_write_iff (told : response.IsTold) :
    read? response.write = some response ↔ response.IsStable := by
  rw [read?, write, told.fitsAt_toJson.parse?_write, Option.bind_some, told.ofJson?_reread_iff]

/-- An answer that some text tells comes back from its own text just if it is stable: the times of its
archives are of whole microseconds, and their durations, size limits and chunker parameters are read as
they are written. -/
theorem survives_iff_stable (read : read? text = some response) :
    read? response.write = some response ↔ response.IsStable :=
  (isTold_of_read? read).read?_write_iff

/-- The text of an answer with one archive, which ends at a given time. -/
def homeText (stop : String) : String :=
  "\x7b\"archives\":[\x7b\"duration\":3,\"end\":\"" ++ stop ++
    "\",\"id\":\"a1\",\"name\":\"home\",\"start\":\"2024-07-22T19:43:49\"\x7d]," ++
    "\"cache\":\x7b\"path\":\"\",\"stats\":[0,0,0,0,0,0]\x7d," ++
    "\"encryption\":\x7b\"mode\":\"none\"\x7d,\"repository\":\x7b\"id\":\"r1\",\"location\":\"/r\"\x7d\x7d"

def homeArchive (nanos : Nat) : ArchiveInfo where
  chunkerParams := []
  commandLine := []
  comment := ""
  duration := .ofSeconds 3
  stop := ⟨⟨2024, 7, 22⟩, 19, 43, 52, nanos⟩
  hostname := ""
  id := "a1"
  limits := .zero
  name := "home"
  start := ⟨⟨2024, 7, 22⟩, 19, 43, 49, 0⟩
  stats := .zero
  username := ""

/-- The answer with this archive, whose end has some nanoseconds beyond the second. -/
def homeAnswer (nanos : Nat) : InfoResponse :=
  ⟨[homeArchive nanos], ⟨"", ⟨0, 0, 0, 0, 0, 0⟩⟩, ⟨"none", none⟩, ⟨"r1", "", "/r"⟩, ""⟩

set_option maxRecDepth 100000 in
theorem read?_homeText_micros :
    read? (homeText "2024-07-22T19:43:52.123456").toList = some (homeAnswer 123456000) := by
  decide +kernel

set_option maxRecDepth 100000 in
theorem read?_homeText_nanos :
    read? (homeText "2024-07-22T19:43:52.123456789").toList = some (homeAnswer 123456789) := by
  decide +kernel

theorem isStable_homeArchive {nanos : Nat} (micros : 1000 ∣ nanos) : (homeArchive nanos).IsStable where
  params := List.forall_mem_nil _
  duration := by
    show (parse? (Json.write (.float (Duration.ofSeconds 3).toSecondsDouble))).bind decodeSeconds =
      some (.ofSeconds 3)
    decide +kernel
  stop := micros
  limits := by
    show parse? (Json.write (.float Limits.zero.maxArchiveSize)) =
      some (.float Limits.zero.maxArchiveSize)
    decide +kernel
  start := Nat.dvd_zero _

/-- An answer that ends at a whole microsecond comes back. -/
theorem home_survives :
    read? (homeText "2024-07-22T19:43:52.123456").toList = some (homeAnswer 123456000) ∧
      read? (homeAnswer 123456000).write = some (homeAnswer 123456000) := by
  refine ⟨read?_homeText_micros, (survives_iff_stable read?_homeText_micros).mpr ?_⟩
  exact List.forall_mem_singleton.mpr (isStable_homeArchive (by decide))

/-- One that ends between two microseconds does not: the time is written with six decimals of nine. -/
theorem precise_home_is_lost :
    read? (homeText "2024-07-22T19:43:52.123456789").toList = some (homeAnswer 123456789) ∧
      read? (homeAnswer 123456789).write ≠ some (homeAnswer 123456789) := by
  refine ⟨read?_homeText_nanos, ?_⟩
  intro survived
  have stable := (isTold_of_read? read?_homeText_nanos).read?_write_iff.mp survived
  have whole : 1000 ∣ 123456789 := (stable (homeArchive 123456789) List.mem_cons_self).stop
  exact absurd whole (by decide)

end InfoResponse

end BackupClient
