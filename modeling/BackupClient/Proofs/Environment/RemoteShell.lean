import BackupClient.Environment

/-!
The remote shell command, read back as a shell splits it into words.

White space outside quotes separates words; quotes and backslashes are taken away and nothing is expanded.
The main result says that each key comes back as one word of its own, whatever characters it is made of.
-/

namespace BackupClient.WordSplitting

/-- The characters that separate words.  The space is one of them and no visible ASCII character is. -/
structure Separators where
  separates : Char → Bool
  space : separates ' ' = true
  visible : ∀ char, '!' ≤ char → char ≤ '~' → separates char = false

/-- The separators of a shell that is left as it is: space, tab and line feed. -/
def Separators.standard : Separators where
  separates char := char = ' ' || char = '\t' || char = '\n'
  space := by decide
  visible char above _ := by
    have ne (blank : Char) (below : ¬ '!' ≤ blank) : char ≠ blank := by
      rintro rfl
      exact below above
    simp [ne ' ' (by decide), ne '\t' (by decide), ne '\n' (by decide)]

inductive Quoting where
  | bare
  | escaped
  | single
  | double
  | doubleEscaped
  deriving DecidableEq, Repr

/-- What was read so far: the words that are complete and the one that has begun. -/
structure Reading where
  words : List (List Char)
  word : Option (List Char)
  quoting : Quoting
  deriving DecidableEq, Repr

namespace Reading

def start : Reading :=
  ⟨[], none, .bare⟩

/-- Begin a quotation, and a word with it if none has begun. -/
def enter (reading : Reading) (quoting : Quoting) : Reading :=
  ⟨reading.words, some (reading.word.getD []), quoting⟩

def add (reading : Reading) (char : Char) (quoting : Quoting) : Reading :=
  ⟨reading.words, some (reading.word.getD [] ++ [char]), quoting⟩

/-- End the word, if one has begun. -/
def close (reading : Reading) : Reading :=
  ⟨reading.words ++ reading.word.toList, none, .bare⟩

/-- Take a character.  Between double quotes a backslash stands for itself before most characters. -/
def step (separators : Separators) (reading : Reading) (char : Char) : Reading :=
  match reading.quoting with
  | .bare =>
      if char = '\'' then reading.enter .single
      else if char = '"' then reading.enter .double
      else if char = '\\' then reading.enter .escaped
      else if separators.separates char then reading.close
      else reading.add char .bare
  | .escaped => reading.add char .bare
  | .single => if char = '\'' then reading.enter .bare else reading.add char .single
  | .double =>
      if char = '"' then reading.enter .bare
      else if char = '\\' then reading.enter .doubleEscaped
      else reading.add char .double
  | .doubleEscaped =>
      if ['$', '`', '"', '\\', '\n'].contains char then reading.add char .double
      else (reading.add '\\' .double).add char .double

def finish? (reading : Reading) : Option (List (List Char)) :=
  if reading.quoting = .bare then some (reading.words ++ reading.word.toList) else none

def read (separators : Separators) (reading : Reading) (text : List Char) : Reading :=
  text.foldl (step separators) reading

end Reading

/-- The words of a text, unless a quotation is left open. -/
def split (separators : Separators) (text : List Char) : Option (List (List Char)) :=
  (Reading.start.read separators text).finish?

/-- A character that is visible and neither a quote nor a backslash. -/
def IsOrdinary (char : Char) : Prop :=
  '!' ≤ char ∧ char ≤ '~' ∧ char ≠ '\'' ∧ char ≠ '"' ∧ char ≠ '\\'

instance (char : Char) : Decidable (IsOrdinary char) :=
  inferInstanceAs (Decidable (_ ∧ _))

theorem isOrdinary_of_isPlain {char : Char} (plain : EngineEnvironment.isPlain char = true) :
    IsOrdinary char := by
  simp only [EngineEnvironment.isPlain, Bool.or_eq_true, List.contains_eq_mem, decide_eq_true_eq,
    List.mem_cons, List.not_mem_nil, or_false] at plain
  rcases plain with alphanumeric | rfl | rfl | rfl | rfl | rfl | rfl | rfl | rfl
  · -- the signs of the shell are told apart by their class, the bounds by their numbers
    have ne (sign : Char) (other : sign.isAlphanum = false) : char ≠ sign := by
      rintro rfl
      rw [alphanumeric] at other
      cases other
    have ranges : (decide (char.val ≥ 'A'.val ∧ char.val ≤ 'Z'.val) ||
        (decide (char.val ≥ 'a'.val) && decide (char.val ≤ 'z'.val)) ||
        (decide (char.val ≥ '0'.val) && decide (char.val ≤ '9'.val))) = true := alphanumeric
    simp only [Bool.or_eq_true, Bool.and_eq_true, decide_eq_true_eq, ge_iff_le,
      UInt32.le_iff_toNat_le, Char.reduceVal, UInt32.reduceToNat] at ranges
    refine ⟨?_, ?_, ne _ (by decide), ne _ (by decide), ne _ (by decide)⟩ <;>
      simp only [Char.le_def, UInt32.le_iff_toNat_le, Char.reduceVal, UInt32.reduceToNat] <;>
      omega
  all_goals decide

namespace Reading

variable {separators : Separators} {words : List (List Char)} {word : List Char}

theorem read_cons (reading : Reading) (char : Char) (text : List Char) :
    reading.read separators (char :: text) = (reading.step separators char).read separators text :=
  rfl

theorem read_append (reading : Reading) (first second : List Char) :
    reading.read separators (first ++ second) =
      (reading.read separators first).read separators second :=
  List.foldl_append

theorem step_ordinary (reading : Reading) (bare : reading.quoting = .bare) {char : Char}
    (ordinary : IsOrdinary char) : reading.step separators char = reading.add char .bare := by
  obtain ⟨above, below, notSingle, notDouble, notBackslash⟩ := ordinary
  simp [step, bare, notSingle, notDouble, notBackslash, separators.visible char above below]

theorem step_space : step separators ⟨words, some word, .bare⟩ ' ' = ⟨words ++ [word], none, .bare⟩ := by
  simp [step, close, separators.space]

theorem read_ordinary {text : List Char} (ordinary : ∀ char ∈ text, IsOrdinary char) :
    read separators ⟨words, some word, .bare⟩ text = ⟨words, some (word ++ text), .bare⟩ := by
  induction text generalizing word with
  | nil => simp [read]
  | cons char text inductionHypothesis =>
      have first := ordinary char List.mem_cons_self
      have rest : read separators ⟨words, some (word ++ [char]), .bare⟩ text =
          ⟨words, some (word ++ [char] ++ text), .bare⟩ := by
        apply inductionHypothesis
        intro other later
        exact ordinary other (List.mem_cons_of_mem char later)
      rw [read_cons, step_ordinary _ rfl first]
      simpa [add] using rest

theorem read_ordinary_word {text : List Char} (ordinary : text.all (IsOrdinary ·) = true)
    (nonempty : text ≠ []) :
    read separators ⟨words, none, .bare⟩ text = ⟨words, some text, .bare⟩ := by
  have each : ∀ char ∈ text, IsOrdinary char := by simpa using ordinary
  cases text with
  | nil => exact absurd rfl nonempty
  | cons char text =>
      rw [read_cons, step_ordinary _ rfl (each char List.mem_cons_self)]
      exact read_ordinary fun other later => each other (List.mem_cons_of_mem char later)

/-- Between single quotes a quoted text is read as it was before it was quoted. -/
theorem read_quotedChars (text : List Char) :
    read separators ⟨words, some word, .single⟩ (EngineEnvironment.quotedChars text) =
      ⟨words, some (word ++ text), .single⟩ := by
  induction text generalizing word with
  | nil => simp [read, EngineEnvironment.quotedChars]
  | cons char text inductionHypothesis =>
      have first : read separators ⟨words, some word, .single⟩
          (if char = '\'' then ['\'', '\\', '\'', '\''] else [char]) =
            ⟨words, some (word ++ [char]), .single⟩ := by
        -- a quote ends the quotation, is escaped, and begins it again within the same word
        by_cases quote : char = '\''
        · subst quote
          rfl
        · simp [read, step, add, quote]
      have parts : EngineEnvironment.quotedChars (char :: text) =
          (if char = '\'' then ['\'', '\\', '\'', '\''] else [char]) ++
            EngineEnvironment.quotedChars text := List.flatMap_cons
      rw [parts, read_append, first, inductionHypothesis]
      simp

/-- What is written for a key is read as one word, the key. -/
theorem read_shellWord (key : List Char) :
    read separators ⟨words, none, .bare⟩ (EngineEnvironment.shellWord key) =
      ⟨words, some key, .bare⟩ := by
  unfold EngineEnvironment.shellWord
  split
  · rename_i plain
    simp only [Bool.and_eq_true, Bool.not_eq_true', List.isEmpty_eq_false_iff, List.all_eq_true]
      at plain
    have ordinary : ∀ char ∈ key, IsOrdinary char :=
      fun char inKey => isOrdinary_of_isPlain (plain.2 char inKey)
    exact read_ordinary_word (by simpa using ordinary) plain.1
  · rw [List.cons_append, read_cons]
    change read separators ⟨words, some [], .single⟩ _ = _
    rw [read_append, read_quotedChars]
    rfl

theorem read_option (key : List Char) :
    read separators ⟨words, some word, .bare⟩
        ([' ', '-', 'i', ' '] ++ EngineEnvironment.shellWord key) =
      ⟨words ++ [word, ['-', 'i']], some key, .bare⟩ := by
  have flag : read separators ⟨words, some word, .bare⟩ [' ', '-', 'i', ' '] =
      ⟨words ++ [word, ['-', 'i']], none, .bare⟩ := by
    rw [read_cons, step_space]
    change read separators (read separators ⟨words ++ [word], none, .bare⟩ ['-', 'i']) [' '] = _
    rw [read_ordinary_word (by decide) (by decide), read_cons, step_space]
    simp [read]
  rw [read_append, flag, read_shellWord]

theorem finish?_read_options (keys : List String) :
    (read separators ⟨words, some word, .bare⟩
        (keys.flatMap fun key =>
          [' ', '-', 'i', ' '] ++ EngineEnvironment.shellWord key.toList)).finish? =
      some (words ++ word :: keys.flatMap fun key => [['-', 'i'], key.toList]) := by
  induction keys generalizing words word with
  | nil => rfl
  | cons key keys inductionHypothesis =>
      rw [List.flatMap_cons, read_append, read_option, inductionHypothesis]
      simp

end Reading

theorem remoteShell_eq (environment : EngineEnvironment) :
    environment.remoteShell = EngineEnvironment.remoteShellStem.toList ++
      environment.sshKeys.flatMap fun key =>
        [' ', '-', 'i', ' '] ++ EngineEnvironment.shellWord key.toList := by
  simp only [EngineEnvironment.remoteShell, List.append_assoc, List.foldl_append_eq_append,
    List.flatMap]

theorem read_stem (separators : Separators) :
    Reading.start.read separators EngineEnvironment.remoteShellStem.toList =
      ⟨["ssh".toList, "-oBatchMode=yes".toList],
        some "-oStrictHostKeyChecking=accept-new".toList, .bare⟩ := by
  have parts : EngineEnvironment.remoteShellStem.toList =
      "ssh".toList ++ ' ' :: ("-oBatchMode=yes".toList ++
        ' ' :: "-oStrictHostKeyChecking=accept-new".toList) := by decide
  rw [parts, Reading.read_append, Reading.start,
    Reading.read_ordinary_word (by decide) (by decide), Reading.read_cons, Reading.step_space,
    Reading.read_append, Reading.read_ordinary_word (by decide) (by decide), Reading.read_cons,
    Reading.step_space, Reading.read_ordinary_word (by decide) (by decide)]
  rfl

/-- Whatever the keys are, the remote shell command is split into the words it begins with and then an
option for each key, with the key as one word of its own. -/
theorem split_remoteShell (separators : Separators) (environment : EngineEnvironment) :
    split separators environment.remoteShell =
      some ((["ssh", "-oBatchMode=yes", "-oStrictHostKeyChecking=accept-new"] ++
        environment.sshKeys.flatMap fun key => ["-i", key]).map String.toList) := by
  rw [split, remoteShell_eq, Reading.read_append, read_stem, Reading.finish?_read_options]
  simp [List.map_flatMap]

/-- An empty key and one that is made of signs of the shell. -/
example :
    split .standard (EngineEnvironment.ofKeys ["", "a' -oProxyCommand=\"$x\"\n\\"]).remoteShell =
      some (["ssh", "-oBatchMode=yes", "-oStrictHostKeyChecking=accept-new", "-i", "", "-i",
        "a' -oProxyCommand=\"$x\"\n\\"].map String.toList) := by
  decide +kernel

end BackupClient.WordSplitting
