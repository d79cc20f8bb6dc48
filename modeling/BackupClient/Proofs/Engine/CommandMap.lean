import BackupClient.Engine.Check
import BackupClient.Engine.Create
import BackupClient.Engine.Mount
import BackupClient.Engine.Query
import BackupClient.Engine.Session

/-!
Plans with their commands changed.

A change that keeps each program and its arguments may touch the environments only.  Whatever carries the
changed plan out then does what it does with the plan itself, but for the commands in the calls it makes:
processes are told apart by their command lines, and notices show nothing else.
-/

namespace BackupClient

namespace CommandSpec

structure KeepsLines (change : CommandSpec → CommandSpec) : Prop where
  program : ∀ spec, (change spec).program = spec.program
  arguments : ∀ spec, (change spec).arguments = spec.arguments

namespace KeepsLines

variable {change : CommandSpec → CommandSpec}

theorem verb_eq (keeps : KeepsLines change) (spec : CommandSpec) :
    (change spec).verb = spec.verb := by
  simp only [CommandSpec.verb, keeps.arguments]

theorem starting_eq (keeps : KeepsLines change) (spec : CommandSpec) :
    Traced.starting (change spec) = Traced.starting spec := by
  simp only [Traced.starting, commandLine, keeps.program, keeps.arguments]

theorem refusal?_eq (keeps : KeepsLines change) (response : Response) (spec : CommandSpec) :
    response.refusal? (change spec) = response.refusal? spec := by
  simp only [Response.refusal?, keeps.program]

end KeepsLines

end CommandSpec

/-! ### Plans and their parts -/

namespace Verb

variable {α β : Type}

def mapCommands (change : CommandSpec → CommandSpec) : Verb α → Verb α
  | .done value => .done value
  | .note notice next => .note notice (next.mapCommands change)
  | .makeDirectories path next =>
      .makeDirectories path fun result => (next result).mapCommands change
  | .inspect path next => .inspect path fun result => (next result).mapCommands change
  | .run spec next => .run (change spec) fun result => (next result).mapCommands change
  | .stream spec consumer next =>
      .stream (change spec) consumer fun result records => (next result records).mapCommands change

variable (change : CommandSpec → CommandSpec)

@[simp]
theorem mapCommands_pure (value : α) : (pure value : Verb α).mapCommands change = pure value := rfl

@[simp]
theorem mapCommands_bind (verb : Verb α) (after : α → Verb β) :
    (verb >>= after).mapCommands change =
      verb.mapCommands change >>= fun value => (after value).mapCommands change := by
  change (verb.bind after).mapCommands change =
    (verb.mapCommands change).bind fun value => (after value).mapCommands change
  induction verb with
  | done value => rfl
  | note notice next inductionHypothesis => simp only [bind, mapCommands, inductionHypothesis]
  | makeDirectories path next inductionHypothesis =>
      simp only [bind, mapCommands, inductionHypothesis]
  | inspect path next inductionHypothesis => simp only [bind, mapCommands, inductionHypothesis]
  | run spec next inductionHypothesis => simp only [bind, mapCommands, inductionHypothesis]
  | stream spec consumer next inductionHypothesis =>
      simp only [bind, mapCommands, inductionHypothesis]

@[simp]
theorem mapCommands_say (notice : Notice) : (say notice).mapCommands change = say notice := rfl

@[simp]
theorem mapCommands_sayAll (notices : List Notice) :
    (sayAll notices).mapCommands change = sayAll notices := by
  induction notices with
  | nil => rfl
  | cons notice notices inductionHypothesis => simp [sayAll, inductionHypothesis]

@[simp]
theorem mapCommands_ensureDirectory (path : String) :
    (ensureDirectory path).mapCommands change = ensureDirectory path := rfl

@[simp]
theorem mapCommands_look (path : String) : (look path).mapCommands change = look path := rfl

@[simp]
theorem mapCommands_collect (spec : CommandSpec) :
    (collect spec).mapCommands change = collect (change spec) := rfl

@[simp]
theorem mapCommands_follow (spec : CommandSpec) (consumer : Consumer) :
    (follow spec consumer).mapCommands change = follow (change spec) consumer := rfl

@[simp]
theorem mapCommands_countFiles (paths : List String) :
    (countFiles paths).mapCommands change = countFiles paths := by
  induction paths with
  | nil => rfl
  | cons path paths inductionHypothesis =>
      simp only [countFiles, mapCommands_bind, mapCommands_look, inductionHypothesis]
      refine bind_congr fun found => bind_congr fun others => ?_
      split <;> rfl

@[simp]
theorem mapCommands_buffered (spec : CommandSpec) :
    (buffered spec).mapCommands change = buffered (change spec) := by
  simp only [buffered, mapCommands_bind, mapCommands_collect]
  refine bind_congr fun result => ?_
  split <;> rfl

@[simp]
theorem mapCommands_plain (spec : CommandSpec) :
    (plain spec).mapCommands change = plain (change spec) := by
  simp [plain]

@[simp]
theorem mapCommands_document (decode : Json → Option α) (spec : CommandSpec) :
    (document decode spec).mapCommands change = document decode (change spec) := by
  simp only [document, mapCommands_bind, mapCommands_buffered]
  refine bind_congr fun answer => ?_
  split
  · split
    · simp only [mapCommands_bind, mapCommands_sayAll]
      refine bind_congr fun _ => ?_
      split <;> rfl
    · rfl
  · rfl

@[simp]
theorem mapCommands_queryVersion (spec : CommandSpec) :
    (Client.queryVersion spec).mapCommands change = Client.queryVersion (change spec) := by
  simp only [Client.queryVersion, mapCommands_bind, mapCommands_buffered]
  refine bind_congr fun answer => ?_
  split
  · split
    · split <;> rfl
    · rfl
  · rfl

@[simp]
theorem mapCommands_thenRun (status : Status) (second : Verb Status) :
    (thenRun status second).mapCommands change = thenRun status (second.mapCommands change) := by
  simp only [thenRun]
  split <;> simp

end Verb

/-! ### Carrying changed plans out -/

def Call.mapCommand (change : CommandSpec → CommandSpec) (call : Call) : Call :=
  { call with spec := change call.spec }

def Scene.mapCommands (change : CommandSpec → CommandSpec) (scene : Scene) : Scene :=
  { scene with calls := scene.calls.map (·.mapCommand change) }

def Setting.mapCommands (change : CommandSpec → CommandSpec) (setting : Setting) : Setting :=
  { setting with scene := setting.scene.mapCommands change }

namespace Setting

variable {change : CommandSpec → CommandSpec}

@[simp]
theorem mapCommands_cancelled (setting : Setting) :
    (setting.mapCommands change).cancelled = setting.cancelled := rfl

@[simp]
theorem mapCommands_say (setting : Setting) (notices : List Notice) :
    (setting.mapCommands change).say notices = (setting.say notices).mapCommands change := rfl

@[simp]
theorem mapCommands_processEnds (setting : Setting) (response : Response) :
    (setting.mapCommands change).processEnds response =
      (setting.processEnds response).mapCommands change := rfl

@[simp]
theorem mapCommands_forward (setting : Setting) (forwarder : Option Forwarder) :
    (setting.mapCommands change).forward forwarder =
      ((setting.forward forwarder).1, (setting.forward forwarder).2.mapCommands change) := by
  cases forwarder <;> rfl

theorem mapCommands_start (keeps : CommandSpec.KeepsLines change) (setting : Setting)
    (mode : RunMode) (spec : CommandSpec) :
    (setting.mapCommands change).start mode (change spec) =
      ((setting.start mode spec).1, (setting.start mode spec).2.mapCommands change) := by
  simp only [start, keeps.verb_eq, keeps.starting_eq, keeps.refusal?_eq, mapCommands,
    Scene.mapCommands, Scene.say]
  split
  · rfl
  · split <;> rfl

theorem mapCommands_openRun (keeps : CommandSpec.KeepsLines change) (setting : Setting)
    (spec : CommandSpec) :
    (setting.mapCommands change).openRun (change spec) =
      ((setting.openRun spec).1, (setting.openRun spec).2.1,
        (setting.openRun spec).2.2.mapCommands change) := by
  simp only [openRun, mapCommands_start keeps]
  obtain ⟨beginning, begun⟩ := setting.start .buffered spec
  cases beginning with
  | refused error => rfl
  | stopped => rfl
  | playing response => cases hangs : response.hangs <;> simp [hangs]

theorem mapCommands_openStream (keeps : CommandSpec.KeepsLines change) (setting : Setting)
    (spec : CommandSpec) (consumer : Consumer) :
    (setting.mapCommands change).openStream (change spec) consumer =
      ((setting.openStream spec consumer).1, (setting.openStream spec consumer).2.1,
        (setting.openStream spec consumer).2.2.1,
        (setting.openStream spec consumer).2.2.2.mapCommands change) := by
  simp only [openStream, mapCommands_start keeps]
  obtain ⟨beginning, begun⟩ := setting.start .streaming spec
  cases beginning with
  | refused error => rfl
  | stopped => rfl
  | playing response => cases hangs : response.hangs <;> simp [hangs]

end Setting

namespace Activity

variable {α : Type} {change : CommandSpec → CommandSpec}

def mapCommands (change : CommandSpec → CommandSpec) : Activity α → Activity α
  | .finished value => .finished value
  | .hanging response next => .hanging response fun result => (next result).mapCommands change
  | .streaming response ended forwarder records next =>
      .streaming response ended forwarder records fun result records =>
        (next result records).mapCommands change

@[simp]
theorem mapCommands_value? (activity : Activity α) :
    (activity.mapCommands change).value? = activity.value? := by
  cases activity <;> rfl

@[simp]
theorem mapCommands_deadline? (activity : Activity α) :
    (activity.mapCommands change).deadline? = activity.deadline? := by
  cases activity with
  | finished value => rfl
  | hanging response next => rfl
  | streaming response ended forwarder records next => cases forwarder <;> rfl

end Activity

def mapStanding {α : Type} (change : CommandSpec → CommandSpec)
    (standing : Activity α × Setting) : Activity α × Setting :=
  (standing.1.mapCommands change, standing.2.mapCommands change)

section

variable {α : Type} {change : CommandSpec → CommandSpec}

theorem Verb.mapCommands_advance (keeps : CommandSpec.KeepsLines change) (verb : Verb α)
    (setting : Setting) :
    (verb.mapCommands change).advance (setting.mapCommands change) =
      mapStanding change (verb.advance setting) := by
  induction verb generalizing setting with
  | done value => rfl
  | note notice next inductionHypothesis => exact inductionHypothesis (setting.say [notice])
  | makeDirectories path next inductionHypothesis =>
      simp only [mapCommands, advance]
      cases made : setting.scene.tree.makeDirectories path.toList with
      | ok tree =>
          simp only [Setting.mapCommands, Scene.mapCommands, made]
          exact inductionHypothesis (.ok ())
            { setting with scene := { setting.scene with tree := tree } }
      | error error =>
          simp only [Setting.mapCommands, Scene.mapCommands, made]
          exact inductionHypothesis (.error error) setting
  | inspect path next inductionHypothesis => exact inductionHypothesis _ setting
  | run spec next inductionHypothesis =>
      simp only [mapCommands, advance, Setting.mapCommands_openRun keeps]
      obtain ⟨response, result, opened⟩ := setting.openRun spec
      cases result with
      | none => rfl
      | some result => exact inductionHypothesis _ _
  | stream spec consumer next inductionHypothesis =>
      simp only [mapCommands, advance, Setting.mapCommands_openStream keeps,
        Setting.mapCommands_forward]
      obtain ⟨response, ended, records, opened⟩ := setting.openStream spec consumer
      obtain ⟨forwarder, forwarding⟩ := opened.forward (consumer.forwarder? records)
      cases ended with
      | none => rfl
      | some result =>
          dsimp only
          split
          · exact inductionHypothesis result records _
          · rfl

theorem Activity.mapCommands_resume (keeps : CommandSpec.KeepsLines change)
    (activity : Activity α) (setting : Setting) :
    (activity.mapCommands change).resume (setting.mapCommands change) =
      mapStanding change (activity.resume setting) := by
  cases activity with
  | finished value => rfl
  | hanging response next =>
      by_cases cancelled : setting.cancelled
      · simp only [mapCommands, resume, Setting.mapCommands_cancelled, cancelled, if_true]
        exact (next response.output).mapCommands_advance keeps
          ((setting.processEnds response).say (Traced.ran response.output))
      · simp only [mapCommands, resume, Setting.mapCommands_cancelled, cancelled]
        rfl
  | streaming response ended forwarder records next =>
      have goesOn (result : Except RunError ExitState) (setting : Setting) :=
        (next result records).mapCommands_advance keeps (setting.forward forwarder).2
      cases ended with
      | some result =>
          simp only [mapCommands, resume, Setting.mapCommands_forward]
          split
          · exact goesOn result setting
          · rfl
      | none =>
          by_cases cancelled : setting.cancelled
          · simp only [mapCommands, resume, Setting.mapCommands_cancelled, cancelled, if_true,
              Setting.mapCommands_processEnds, Setting.mapCommands_say,
              Setting.mapCommands_forward]
            split
            · exact goesOn response.ending _
            · rfl
          · simp only [mapCommands, resume, Setting.mapCommands_cancelled, cancelled,
              Bool.false_eq_true, if_false, Setting.mapCommands_forward]
            rfl

namespace Watched

def mapCommands (change : CommandSpec → CommandSpec) (watched : Watched α) : Watched α :=
  { watched with
    activity := watched.activity.mapCommands change
    setting := watched.setting.mapCommands change }

theorem mapCommands_nextMoment (watched : Watched α) :
    (watched.mapCommands change).nextMoment = watched.nextMoment := by
  simp only [nextMoment, mapCommands, Activity.mapCommands_deadline?]
  rfl

theorem mapCommands_moveTo (keeps : CommandSpec.KeepsLines change) (moment : Nat)
    (watched : Watched α) :
    (watched.mapCommands change).moveTo moment = (watched.moveTo moment).mapCommands change := by
  have resumed := watched.activity.mapCommands_resume keeps
    { watched.setting with
      scene := { watched.setting.scene with now := moment }
      cancelled := watched.setting.cancelled || watched.cancelAt.any (· ≤ moment) }
  exact congrArg (fun standing : Activity α × Setting =>
    { watched with
      activity := standing.1, setting := standing.2
      cancelAt := if watched.cancelAt.any (· ≤ moment) then none else watched.cancelAt }) resumed

theorem mapCommands_read (keeps : CommandSpec.KeepsLines change) (rounds : Nat)
    (watched : Watched α) :
    (watched.mapCommands change).read rounds = (watched.read rounds).mapCommands change := by
  induction rounds generalizing watched with
  | zero => rfl
  | succ rounds inductionHypothesis =>
      simp only [read]
      change (if watched.readFrom.any (· ≤ watched.setting.scene.now) then
        if watched.setting.channel.drain.1.isEmpty then _ else _ else _) = _
      split
      · split
        · rfl
        · have resumed := watched.activity.mapCommands_resume keeps
            { watched.setting with channel := watched.setting.channel.drain.2 }
          -- both read the same ticks, so they differ in what goes on after them only
          rw [← inductionHypothesis]
          exact congrArg (fun standing : Activity α × Setting =>
            read rounds ⟨standing.1, standing.2, watched.cancelAt, watched.readFrom,
              watched.taken ++ watched.setting.channel.drain.1⟩) resumed
      · rfl

/-- One round of the loop, with its end told by the value. -/
theorem run_succ (fuel : Nat) (watched : Watched α) :
    watched.run (fuel + 1) =
      if (watched.read fuel).activity.value?.isSome then watched.read fuel
      else (watched.read fuel).nextMoment.elim (watched.read fuel) fun moment =>
        run fuel ((watched.read fuel).moveTo moment) := by
  rw [run]
  obtain ⟨activity, setting, cancelAt, readFrom, taken⟩ := watched.read fuel
  cases activity with
  | finished value => rfl
  | hanging response next =>
      dsimp only [Activity.value?]
      split <;> rename_i moments <;> rw [moments] <;> rfl
  | streaming response ended forwarder records next =>
      dsimp only [Activity.value?]
      split <;> rename_i moments <;> rw [moments] <;> rfl

theorem mapCommands_run (keeps : CommandSpec.KeepsLines change) (fuel : Nat)
    (watched : Watched α) :
    (watched.mapCommands change).run fuel = (watched.run fuel).mapCommands change := by
  induction fuel generalizing watched with
  | zero => rfl
  | succ fuel inductionHypothesis =>
      rw [run_succ, run_succ, mapCommands_read keeps, mapCommands_nextMoment]
      have values : ((watched.read fuel).mapCommands change).activity.value? =
          (watched.read fuel).activity.value? := Activity.mapCommands_value? _
      rw [values]
      split
      · rfl
      · cases (watched.read fuel).nextMoment with
        | none => rfl
        | some moment =>
            have moved := mapCommands_moveTo keeps moment (watched.read fuel)
            simp only [Option.elim, moved, inductionHypothesis]

end Watched

def WatchedEnd.mapCommands (change : CommandSpec → CommandSpec) (ended : WatchedEnd α) :
    WatchedEnd α :=
  { ended with scene := ended.scene.mapCommands change }

namespace Watched

def start (verb : Verb α) (scene : Scene) (cancellation : Cancellation) (capacity : Nat)
    (reader : ProgressReader) : Watched α :=
  let channel :=
    if reader = .dropped then ProgressChannel.closed else ProgressChannel.empty capacity
  let (activity, setting) := verb.advance ⟨scene, cancellation = .before, channel⟩
  let readFrom :=
    match reader with
    | .after delay => some (scene.now + delay)
    | _ => none
  ⟨activity, setting, cancellation.moment? scene.now, readFrom, []⟩

def close (begun : Nat) (readFrom : Option Nat) (watched : Watched α) : WatchedEnd α :=
  let finish := max watched.setting.scene.now (readFrom.getD 0)
  ⟨watched.activity.value?, watched.taken ++ watched.setting.channel.held, finish - begun,
    { watched.setting.scene with now := finish }⟩

theorem mapCommands_start (keeps : CommandSpec.KeepsLines change) (verb : Verb α) (scene : Scene)
    (cancellation : Cancellation) (capacity : Nat) (reader : ProgressReader) :
    start (verb.mapCommands change) (scene.mapCommands change) cancellation capacity reader =
      (start verb scene cancellation capacity reader).mapCommands change := by
  have begun := verb.mapCommands_advance keeps ⟨scene, cancellation = .before,
    if reader = .dropped then ProgressChannel.closed else ProgressChannel.empty capacity⟩
  exact congrArg (fun standing : Activity α × Setting =>
    { start verb scene cancellation capacity reader with
      activity := standing.1, setting := standing.2 }) begun

theorem mapCommands_close (begun : Nat) (readFrom : Option Nat) (watched : Watched α) :
    (watched.mapCommands change).close begun readFrom =
      (watched.close begun readFrom).mapCommands change := by
  simp only [close, mapCommands, Activity.mapCommands_value?]
  rfl

end Watched

namespace Verb

variable {verb : Verb α} {fuel : Nat} {scene : Scene} {cancellation : Cancellation}
  {capacity : Nat} {reader : ProgressReader}

theorem watch_eq :
    verb.watch fuel scene cancellation capacity reader =
      ((Watched.start verb scene cancellation capacity reader).run fuel).close scene.now
        (Watched.start verb scene cancellation capacity reader).readFrom := rfl

/-- A plan whose commands are changed is carried out as the plan itself, but for the commands in its
calls. -/
theorem mapCommands_watch (keeps : CommandSpec.KeepsLines change) :
    (verb.mapCommands change).watch fuel (scene.mapCommands change) cancellation capacity reader =
      (verb.watch fuel scene cancellation capacity reader).mapCommands change := by
  rw [watch_eq, watch_eq, Watched.mapCommands_start keeps, Watched.mapCommands_run keeps,
    ← Watched.mapCommands_close]
  rfl

end Verb

end

end BackupClient
