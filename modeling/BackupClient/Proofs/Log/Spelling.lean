import BackupClient.Log.Line
import BackupClient.Proofs.Json.Records
import BackupClient.Proofs.Text.Lines

/-!
The lines that tell a record, and what is read from them.

A record may be written in many ways: its members in any order and with any spelling, with members of
other names between them, with blanks around everything, and without the members that go without saying.
The line is read twice, for the kind and for the record, and both times from the same object.
-/

namespace BackupClient

open Text Json

def LogRecord.typeName : LogRecord → String
  | .archiveProgress _ => "archive_progress"
  | .progressMessage _ => "progress_message"
  | .progressPercent _ => "progress_percent"
  | .fileStatus _ => "file_status"
  | .logMessage _ => "log_message"

def LogRecord.members (record : LogRecord) : List (String × Json) :=
  match record.toJson with
  | .obj members => members
  | _ => []

/-- The members that may be left out of a record, with the values that they have then. -/
def RecordKind.defaults : RecordKind → List (String × Json)
  | .archiveProgress =>
      [("original_size", .int 0), ("compressed_size", .int 0), ("deduplicated_size", .int 0),
        ("nfiles", .int 0), ("path", .str ""), ("time", .null), ("finished", .bool false)]
  | .progressMessage =>
      [("msgid", .null), ("finished", .bool false), ("message", .str ""), ("time", .null)]
  | .progressPercent =>
      [("msgid", .null), ("finished", .bool false), ("message", .str ""), ("current", .int 0),
        ("total", .int 0), ("info", .arr []), ("time", .null)]
  | .fileStatus => []
  | .logMessage => [("time", .null), ("name", .str ""), ("msgid", .null)]
  | .unknown => []

def LogRecord.Fits (record : LogRecord) : Prop :=
  ∀ member ∈ record.members, member.2.Bounded

/-- A member is told once by the text of its value, or not at all if it may be left out. -/
def Told (defaults : List (String × Json)) (members : List (String × List Char))
    (member : String × Json) : Prop :=
  (∃ text, members.filter (·.1 = member.1) = [(member.1, text)] ∧ Spells member.2 text) ∨
    members.filter (·.1 = member.1) = [] ∧ member ∈ defaults

/-- Names and texts of values that tell a record, in any order: the kind and the members of the record,
and under other names whatever there may be. -/
structure LogRecord.ToldBy (record : LogRecord) (members : List (String × List Char)) : Prop where
  kind : Told [] members ("type", .str record.typeName)
  own : ∀ member ∈ record.members, Told record.kind.defaults members member
  further : ∀ member ∈ members, member.1 ≠ "type" → member.1 ∉ record.members.map (·.1) →
    ValueText member.2

inductive LogRecord.Line (record : LogRecord) : List Char → Prop where
  | gaps {before text behind : List Char} {members : List (String × List Char)} : IsGap before →
      IsGap behind → ObjectText members text → record.ToldBy members →
      record.Line (before ++ (text ++ behind))

variable {record : LogRecord} {members : List (String × List Char)} {results : List (String × Json)}
  {defaults : List (String × Json)} {member : String × Json} {text : List Char}

/-! ### The object that a line holds -/

theorem Told.denotes (told : Told defaults members member) (bounded : member.2.Bounded)
    (listed : (member.1, text) ∈ members) : Denotes 1 text member.2 := by
  have mine : (member.1, text) ∈ members.filter (·.1 = member.1) :=
    List.mem_filter.mpr ⟨listed, decide_eq_true rfl⟩
  rcases told with ⟨text, once, spells⟩ | ⟨never, -⟩
  · rw [once, List.mem_singleton] at mine
    cases mine
    exact spells.denotes bounded (by decide)
  · rw [never] at mine
    cases mine

theorem Told.supplies (told : Told defaults members member) (bounded : member.2.Bounded)
    (reads : List.Forall₂ MemberReads members results) : Supplies defaults results member := by
  have narrowed : List.Forall₂ MemberReads (members.filter (·.1 = member.1))
      (results.filter (·.1 = member.1)) := by
    refine List.rel_filter ?_ reads
    rintro _ _ ⟨named, -⟩
    simp [named]
  rcases told with ⟨text, once, spells⟩ | ⟨never, default⟩
  · rw [once] at narrowed
    obtain ⟨result, others, ⟨named, denotes⟩, nothing, single⟩ :=
      List.forall₂_cons_left_iff.mp narrowed
    have same : result.2 = member.2 := denotes.unique (spells.denotes bounded (by decide))
    rw [List.forall₂_nil_left_iff.mp nothing] at single
    exact .inl (single.trans (congrArg (fun whole => [whole]) (Prod.ext named same)))
  · rw [never] at narrowed
    exact .inr ⟨List.forall₂_nil_left_iff.mp narrowed, default⟩

theorem bounded_str (content : String) : (Json.str content).Bounded :=
  nofun

theorem LogRecord.ToldBy.exists_reads (told : record.ToldBy members) (fits : record.Fits) :
    ∃ results, List.Forall₂ MemberReads members results := by
  apply exists_forall₂
  rintro ⟨name, text⟩ listed
  by_cases kind : name = "type"
  · subst kind
    exact ⟨(_, _), rfl, told.kind.denotes (bounded_str _) listed⟩
  · by_cases own : name ∈ record.members.map (·.1)
    · obtain ⟨member, mine, rfl⟩ := List.mem_map.mp own
      exact ⟨(_, _), rfl, (told.own member mine).denotes (fits member mine) listed⟩
    · obtain ⟨value, denotes⟩ := (told.further _ listed kind own).exists_denotes 1
      exact ⟨(name, value), rfl, denotes⟩

/-! ### Reading the kind and the record -/

theorem ofJson?_typeName (record : LogRecord) :
    RecordKind.ofJson? (.str record.typeName) = some record.kind := by
  cases record <;> rfl

theorem kindOf?_of_supplies (supplied : Supplies [] results ("type", .str record.typeName)) :
    Log.kindOf? (.obj results) = some record.kind := by
  obtain ⟨fields, read, found⟩ := exists_fields? (List.forall_mem_singleton.mpr supplied)
  have kind := (found _ List.mem_cons_self).required (by decide) (ofJson?_typeName record)
  simp only [List.map_cons, List.map_nil] at read
  simp [Log.kindOf?, read, kind]

theorem decodeCount_ofNat {number : Nat} (bounded : (Json.ofNat number).Bounded) :
    decodeCount (.ofNat number) = some number := by
  have below : 0 ≤ (number : Int) ∧ (number : Int) < Nat.pow 2 64 :=
    ⟨Int.natCast_nonneg number, by exact_mod_cast bounded number rfl⟩
  show (if 0 ≤ (number : Int) ∧ (number : Int) < Nat.pow 2 64 then some (number : Int).toNat else none) =
    some number
  rw [if_pos below, Int.toNat_natCast]

theorem decodeString_str (text : String) : decodeString (.str text) = some text :=
  rfl

theorem ofJson?_levelName (level : LogLevel) : LogLevel.ofJson? (.str level.name) = some level := by
  cases level <;> decide

section Fields

variable {fields : Fields} {name : String}

theorem Json.Fields.Supply.count {number : Nat} (supply : fields.Supply defaults (name, .ofNat number))
    (bounded : (Json.ofNat number).Bounded)
    (tacit : ∀ member ∈ defaults, member.1 = name → decodeCount member.2 = some 0) :
    fields.withDefault name 0 decodeCount = some number :=
  supply.withDefault tacit (decodeCount_ofNat bounded)

theorem Json.Fields.Supply.string {content : String} (supply : fields.Supply defaults (name, .str content))
    (tacit : ∀ member ∈ defaults, member.1 = name → decodeString member.2 = some "") :
    fields.withDefault name "" decodeString = some content :=
  supply.withDefault tacit rfl

theorem Json.Fields.Supply.flag {value : Bool} (supply : fields.Supply defaults (name, .bool value))
    (tacit : ∀ member ∈ defaults, member.1 = name → decodeBool member.2 = some false) :
    fields.withDefault name false decodeBool = some value :=
  supply.withDefault tacit rfl

theorem Json.Fields.Supply.noTime (supply : fields.Supply defaults (name, .ofTime none))
    (tacit : ∀ member ∈ defaults, member.1 = name → decodeTime member.2 = some none) :
    fields.withDefault name none decodeTime = some none :=
  supply.withDefault tacit rfl

theorem Json.Fields.Supply.messageId {text : Option String}
    (supply : fields.Supply defaults (name, .ofOption .str text))
    (tacit : ∀ member ∈ defaults, member.1 = name →
      decodeOption decodeString member.2 = some none) :
    fields.withDefault name none (decodeOption decodeString) = some text :=
  supply.withDefault tacit (decodeOption_ofOption (fun _ => by simp) fun _ _ => rfl)

theorem Json.Fields.Supply.texts {texts : List String}
    (supply : fields.Supply defaults (name, .ofList .str texts))
    (tacit : ∀ member ∈ defaults, member.1 = name → decodeList decodeString member.2 = some []) :
    fields.withDefault name [] (decodeList decodeString) = some texts :=
  supply.withDefault tacit (decodeList_strings texts)

end Fields

theorem LogRecord.ofJson?_of_supplies (timeless : record.time = none) (fits : record.Fits)
    (supplied : ∀ member ∈ record.members, Supplies record.kind.defaults results member) :
    LogRecord.ofJson? record.kind (.obj results) = some record := by
  obtain ⟨fields, read, found⟩ := exists_fields? supplied
  cases record with
  | archiveProgress progress =>
      obtain ⟨originalSize, compressedSize, dedupedSize, fileCount, currentPath, time, finished⟩ :=
        progress
      obtain rfl : time = none := timeless
      simp only [members, toJson, ArchiveProgress.toJson, kind, Fits, List.forall_mem_cons,
        List.map_cons, List.map_nil] at read found fits
      obtain ⟨size, compressed, deduped, count, path, time, finished, -⟩ := found
      obtain ⟨sizeFits, compressedFits, dedupedFits, countFits, -⟩ := fits
      simp [ofJson?, kind, ArchiveProgress.ofJson?, read, size.count sizeFits (by decide),
        compressed.count compressedFits (by decide), deduped.count dedupedFits (by decide),
        count.count countFits (by decide), path.string (by decide), time.noTime (by decide),
        finished.flag (by decide)]
  | progressMessage message =>
      obtain ⟨operationId, messageId, finished, text, time⟩ := message
      obtain rfl : time = none := timeless
      simp only [members, toJson, ProgressMessage.toJson, kind, Fits, List.forall_mem_cons,
        List.map_cons, List.map_nil] at read found fits
      obtain ⟨operation, messageId, finished, text, time, -⟩ := found
      have operation := operation.required (by decide) (decodeCount_ofNat fits.1)
      simp [ofJson?, kind, ProgressMessage.ofJson?, read, operation, messageId.messageId (by decide),
        finished.flag (by decide), text.string (by decide), time.noTime (by decide)]
  | progressPercent progress =>
      obtain ⟨operationId, messageId, finished, text, current, total, info, time⟩ := progress
      obtain rfl : time = none := timeless
      simp only [members, toJson, ProgressPercent.toJson, kind, Fits, List.forall_mem_cons,
        List.map_cons, List.map_nil] at read found fits
      obtain ⟨operation, messageId, finished, text, current, total, info, time, -⟩ := found
      obtain ⟨operationFits, -, -, -, currentFits, totalFits, -⟩ := fits
      have operation := operation.required (by decide) (decodeCount_ofNat operationFits)
      simp [ofJson?, kind, ProgressPercent.ofJson?, read, operation, messageId.messageId (by decide),
        finished.flag (by decide), text.string (by decide), current.count currentFits (by decide),
        total.count totalFits (by decide), info.texts (by decide), time.noTime (by decide)]
  | fileStatus file =>
      simp only [members, toJson, FileStatus.toJson, kind, List.forall_mem_cons, List.map_cons,
        List.map_nil] at read found
      have status := found.1.required (by decide) (decodeString_str _)
      have path := found.2.1.required (by decide) (decodeString_str _)
      simp [ofJson?, kind, FileStatus.ofJson?, read, status, path]
  | logMessage message =>
      obtain ⟨time, level, loggerName, text, messageId⟩ := message
      obtain rfl : time = none := timeless
      simp only [members, toJson, LogMessage.toJson, kind, List.forall_mem_cons, List.map_cons,
        List.map_nil] at read found
      obtain ⟨time, levelName, loggerName, text, messageId, -⟩ := found
      have level := levelName.required (by decide) (ofJson?_levelName level)
      have text := text.required (by decide) (decodeString_str _)
      simp [ofJson?, kind, LogMessage.ofJson?, read, time.noTime (by decide), level,
        loggerName.string (by decide), text, messageId.messageId (by decide)]

/-! ### Whole lines -/

theorem trim_object {before behind : List Char} (leading : IsGap before) (trailing : IsGap behind)
    (object : ObjectText members text) :
    trim (before ++ (text ++ behind)) = text ∧ text.head? = some '\x7b' := by
  rw [trim_gap_append leading, trim_append_gap trailing]
  cases object with
  | @braces spelled inner _ _ =>
      refine ⟨?_, rfl⟩
      have opening : trimStart ('\x7b' :: inner ++ ['\x7d']) = '\x7b' :: inner ++ ['\x7d'] :=
        List.dropWhile_cons_of_neg (by decide)
      rw [trim, opening]
      exact List.rdropWhile_concat_neg _ _ _ (by decide)

theorem LogRecord.Line.decodeLine {line : List Char} (tells : record.Line line)
    (timeless : record.time = none) (fits : record.Fits) : Log.decodeLine line = some record := by
  cases tells with
  | gaps leading trailing object told =>
      obtain ⟨trimmed, opens⟩ := trim_object leading trailing object
      obtain ⟨results, reads⟩ := told.exists_reads fits
      have kind := kindOf?_of_supplies (told.kind.supplies (bounded_str _) reads)
      have whole := ofJson?_of_supplies timeless fits fun member own =>
        (told.own member own).supplies (fits member own) reads
      simp [Log.decodeLine, trimmed, opens, object.parse? reads, kind, whole]

theorem Log.kindOf?_obj {kind : RecordKind} (known : kindOf? (.obj results) = some kind) :
    ∃ value, results.filter (·.1 = "type") = [("type", value)] ∧
      RecordKind.ofJson? value = some kind := by
  obtain ⟨fields, read, decoded⟩ := Option.bind_eq_some_iff.mp known
  obtain ⟨value, found, names⟩ := Option.bind_eq_some_iff.mp decoded
  cases repeated : repeatsName ["type"] results with
  | true => simp [fields?, repeated] at read
  | false =>
      have once := repeatsName_eq_false_iff.mp repeated
      rw [fields?_obj once] at read
      obtain rfl := Option.some.inj read
      rw [Fields.find?_filter List.mem_cons_self] at found
      have atMost := once "type" List.mem_cons_self
      cases held : results.filter (·.1 = "type") with
      | nil =>
          rw [held] at found
          cases found
      | cons member others =>
          have named : member.1 = "type" := by
            have mine : member ∈ results.filter (·.1 = "type") := held ▸ List.mem_cons_self
            exact of_decide_eq_true (List.mem_filter.mp mine).2
          rw [held] at found atMost
          obtain rfl := List.eq_nil_of_length_eq_zero (Nat.le_zero.mp (Nat.le_of_succ_le_succ atMost))
          obtain rfl : member.2 = value := Option.some.inj found
          exact ⟨member.2, by rw [← named], names⟩

theorem LogRecord.kind_of_ofJson? {kind : RecordKind} {value : Json}
    (read : LogRecord.ofJson? kind value = some record) : record.kind = kind := by
  cases kind with
  | unknown => cases read
  | archiveProgress | progressMessage | progressPercent | fileStatus | logMessage =>
      obtain ⟨_, -, rfl⟩ := Option.map_eq_some_iff.mp read
      rfl

theorem LogRecord.eq_typeName {name : String} (named : RecordKind.ofName name = record.kind) :
    name = record.typeName := by
  unfold RecordKind.ofName at named
  split at named <;> cases record <;> first | rfl | cases named

theorem eq_or_eq_of_decodeName {value : Json} {name : String} (decoded : decodeName value = some name) :
    value = .str name ∨ value = .obj [(name, .null)] := by
  unfold decodeName at decoded
  split at decoded <;> cases decoded
  · exact .inl rfl
  · exact .inr rfl

theorem LogRecord.kind_of_decodeLine {line : List Char} (read : Log.decodeLine line = some record) :
    ∃ members value, parse? (trim line) = some (.obj members) ∧
      members.filter (·.1 = "type") = [("type", value)] ∧
      (value = .str record.typeName ∨ value = .obj [(record.typeName, .null)]) := by
  unfold Log.decodeLine at read
  simp only at read
  split at read
  case isFalse => cases read
  case isTrue opens =>
    obtain ⟨value, parsed, decoded⟩ := Option.bind_eq_some_iff.mp read
    obtain ⟨kind, known, record⟩ := Option.bind_eq_some_iff.mp decoded
    obtain ⟨rest, begun⟩ := List.head?_eq_some_iff.mp opens
    rcases isObject_of_brace (begun ▸ parsed) with ⟨members, rfl⟩ | rfl
    · obtain ⟨named, single, names⟩ := Log.kindOf?_obj known
      obtain ⟨name, decoded, same⟩ := Option.map_eq_some_iff.mp names
      obtain rfl := eq_typeName (same.trans (kind_of_ofJson? record).symm)
      exact ⟨members, named, parsed, single, eq_or_eq_of_decodeName decoded⟩
    · cases known

/-- A line that tells a record without a time is read as just that record, and a record that is read from
any line at all has the kind that is named by the one `type` member of the line's object. -/
theorem Log.decodeLine_reads_what_is_told (line : List Char) (record : LogRecord) :
    (record.time = none → record.Fits → record.Line line → decodeLine line = some record) ∧
      (decodeLine line = some record →
        ∃ members value, parse? (trim line) = some (.obj members) ∧
          members.filter (·.1 = "type") = [("type", value)] ∧
          (value = .str record.typeName ∨ value = .obj [(record.typeName, .null)])) :=
  ⟨fun timeless fits tells => tells.decodeLine timeless fits, LogRecord.kind_of_decodeLine⟩

/-- A status with an escape in it, and a member that the record does not have. -/
theorem Log.decodeLine_escaped_status :
    decodeLine ("\u00a0\x7b\"path\":\"b\" ,\"size\":[\x7b\x7d],\"type\": \"file_status\"," ++
      "\"status\":\"\\u0041\"\x7d\r").toList = some (.fileStatus ⟨"A", "b"⟩) := by
  have unit : UnitText 'A'.toNat ['0', '0', '4', '1'] :=
    @UnitText.digits 0 0 4 1 '0' '0' '4' '1' (.decimal (by decide)) (.decimal (by decide))
      (.decimal (by decide)) (.decimal (by decide))
  have status : SpelledString "A" ['"', '\\', 'u', '0', '0', '4', '1', '"'] :=
    @SpelledString.quoted "A" ['\\', 'u', '0', '0', '4', '1'] (.cons (.unit unit) .nil)
  have path : SpelledString "b" ['"', 'b', '"'] := @SpelledString.plain "b" ['b'] rfl (by decide)
  have kind : SpelledString "file_status"
      ['"', 'f', 'i', 'l', 'e', '_', 's', 't', 'a', 't', 'u', 's', '"'] :=
    @SpelledString.plain _ ['f', 'i', 'l', 'e', '_', 's', 't', 'a', 't', 'u', 's'] rfl (by decide)
  have size : ValueText ['[', '\x7b', '\x7d', ']'] :=
    @ValueText.array [['\x7b', '\x7d']] ['\x7b', '\x7d']
      (List.forall_mem_singleton.mpr (@ValueText.object [] [] nofun nofun (.nothing (by decide))))
      (.parts (@Listed.last [] _ [] (by decide) (by decide)))
  have told {path size kind status : List Char} (pathTold : SpelledString "b" path)
      (further : ValueText size) (kindTold : SpelledString "file_status" kind)
      (statusTold : SpelledString "A" status) : LogRecord.ToldBy (.fileStatus ⟨"A", "b"⟩)
        [("path", path), ("size", size), ("type", kind), ("status", status)] := by
    refine ⟨.inl ⟨kind, rfl, .string kindTold⟩, ?_, ?_⟩
    · exact List.forall_mem_cons.mpr ⟨.inl ⟨status, rfl, .string statusTold⟩,
        List.forall_mem_singleton.mpr (.inl ⟨path, rfl, .string pathTold⟩)⟩
    · have own : "path" ∈ ["status", "path"] ∧ "status" ∈ ["status", "path"] := by decide
      refine List.forall_mem_cons.mpr ⟨fun _ other => absurd own.1 other, ?_⟩
      refine List.forall_mem_cons.mpr ⟨fun _ _ => further, ?_⟩
      refine List.forall_mem_cons.mpr ⟨fun other => absurd rfl other, ?_⟩
      exact List.forall_mem_singleton.mpr fun _ other => absurd own.2 other
  have object (path size kind status : List Char) := @ObjectText.braces
    [("path", path), ("size", size), ("type", kind), ("status", status)]
    [⟨['"', 'p', 'a', 't', 'h', '"'], [], [], path, by decide, by decide⟩,
      ⟨['"', 's', 'i', 'z', 'e', '"'], [], [], size, by decide, by decide⟩,
      ⟨['"', 't', 'y', 'p', 'e', '"'], [], [' '], kind, by decide, by decide⟩,
      ⟨['"', 's', 't', 'a', 't', 'u', 's', '"'], [], [], status, by decide, by decide⟩] _
    (.cons ⟨@SpelledString.plain "path" ['p', 'a', 't', 'h'] rfl (by decide), rfl⟩
      (.cons ⟨@SpelledString.plain "size" ['s', 'i', 'z', 'e'] rfl (by decide), rfl⟩
        (.cons ⟨@SpelledString.plain "type" ['t', 'y', 'p', 'e'] rfl (by decide), rfl⟩
          (.cons ⟨@SpelledString.plain "status" ['s', 't', 'a', 't', 'u', 's'] rfl (by decide), rfl⟩ .nil))))
    (.parts (@Listed.more [] _ [' '] _ _ (by decide) (by decide)
      (@Listed.more [] _ [] _ _ (by decide) (by decide)
        (@Listed.more [] _ [] _ _ (by decide) (by decide)
          (@Listed.last [] _ [] (by decide) (by decide))))))
  have line := @LogRecord.Line.gaps _ ['\u00a0'] _ ['\r'] _ (by decide) (by decide)
    (object _ _ _ _) (told path size kind status)
  have fits : (LogRecord.fileStatus ⟨"A", "b"⟩).Fits :=
    List.forall_mem_cons.mpr ⟨nofun, List.forall_mem_singleton.mpr nofun⟩
  have read := (Log.decodeLine_reads_what_is_told _ _).1 rfl fits line
  exact (congrArg decodeLine (by decide)).trans read

end BackupClient
