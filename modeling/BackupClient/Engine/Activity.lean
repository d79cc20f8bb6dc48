import BackupClient.Command.Scripted
import BackupClient.Command.Traced
import BackupClient.Engine.Progress
import BackupClient.Engine.Prune
import BackupClient.Engine.Verb
import BackupClient.Log.Pipeline

/-!
Carrying plans out.

A plan is carried out as far as possible at once.  What is left is an activity that waits: for a process
that hangs to be cancelled, or for room for a final tick of progress.
-/

namespace BackupClient

/-- Everything that activities share: files, what processes do, the calls and notices so far with the
latest first, and the time in milliseconds. -/
structure Scene where
  tree : Files.Tree
  playbook : Playbook
  calls : List Call
  notices : List Notice
  now : Nat
  deriving DecidableEq

namespace Scene

def say (scene : Scene) (notices : List Notice) : Scene :=
  { scene with notices := notices.reverse ++ scene.notices }

end Scene

/-- A scene as one activity sees it, with its cancellation and its progress queue. -/
structure Setting where
  scene : Scene
  cancelled : Bool
  channel : ProgressChannel
  deriving DecidableEq

namespace Setting

def say (setting : Setting) (notices : List Notice) : Setting :=
  { setting with scene := setting.scene.say notices }

end Setting

/-- What meets a call: a refusal, the cancellation that came before, or a process. -/
inductive Beginning where
  | refused (error : RunError)
  | stopped
  | playing (response : Response)
  deriving DecidableEq

def Setting.start (setting : Setting) (mode : RunMode) (spec : CommandSpec) :
    Beginning × Setting :=
  let scene := setting.scene.say [Traced.starting spec]
  let (response, playbook) := scene.playbook.take spec.verb
  let scene := { scene with playbook := playbook, calls := ⟨mode, spec⟩ :: scene.calls }
  let setting := { setting with scene := scene }
  match response.refusal? spec with
  | some error => (.refused error, setting)
  | none => if setting.cancelled then (.stopped, setting) else (.playing response, setting)

def Setting.processEnds (setting : Setting) (response : Response) : Setting :=
  { setting with cancelled := setting.cancelled || response.thenCancels }

namespace Consumer

def notice? : Consumer → LogRecord → Option Notice
  | .archives, .logMessage message =>
      if message.level.isError ∧ (PruneLine.parse? message.text.toList).isNone then
        some ⟨.warn, "engine reported an error", [("message", .str message.text)]⟩
      else none
  | .progress _, .logMessage message =>
      if message.level.isError then
        some ⟨.warn, "engine reported an error",
          [("msgid", .str (Text.quotedOption message.messageId)), ("message", .str message.text)]⟩
      else none
  | _, _ => none

def forwarder? : Consumer → List LogRecord → Option Forwarder
  | .progress total, records => some (Forwarder.start total records)
  | _, _ => none

end Consumer

inductive Activity (α : Type) where
  | finished (value : α)
  | hanging (response : Response) (next : Except RunError CommandOutput → Verb α)
  | streaming (response : Response) (ended : Option (Except RunError ExitState))
      (forwarder : Option Forwarder) (records : List LogRecord)
      (next : Except RunError ExitState → List LogRecord → Verb α)

def Setting.forward (setting : Setting) (forwarder : Option Forwarder) :
    Option Forwarder × Setting :=
  match forwarder with
  | none => (none, setting)
  | some forwarder =>
      let (forwarder, channel, notices) :=
        forwarder.run setting.scene.now setting.cancelled setting.channel
      (some forwarder, { setting with channel := channel }.say notices)

def forwarded (forwarder : Option Forwarder) : Bool :=
  forwarder.all Forwarder.isDone

/-- Begin a run that hands its lines on: the records of its lines, whether it has ended and how, and the
forwarding. -/
def Setting.openStream (setting : Setting) (spec : CommandSpec) (consumer : Consumer) :
    Response × Option (Except RunError ExitState) × List LogRecord × Setting :=
  match setting.start .streaming spec with
  | (.refused error, setting) =>
      (.silent, some (.error error), [], setting.say (Traced.streamed (.error error)))
  | (.stopped, setting) =>
      let result := .ok (ExitState.stopped none)
      (.silent, some result, [], setting.say (Traced.streamed result))
  | (.playing response, setting) =>
      let records := Log.streamedRecords response.lines
      let setting := setting.say (records.filterMap consumer.notice?)
      if response.hangs then (response, none, records, setting)
      else
        (response, some response.ending, records,
          (setting.processEnds response).say (Traced.streamed response.ending))

/-- Begin a run that collects its output: its result unless it hangs. -/
def Setting.openRun (setting : Setting) (spec : CommandSpec) :
    Response × Option (Except RunError CommandOutput) × Setting :=
  match setting.start .buffered spec with
  | (.refused error, setting) =>
      (.silent, some (.error error), setting.say (Traced.ran (.error error)))
  | (.stopped, setting) =>
      (.silent, some (.ok .stopped), setting.say (Traced.ran (.ok .stopped)))
  | (.playing response, setting) =>
      if response.hangs then (response, none, setting)
      else
        (response, some response.output,
          (setting.processEnds response).say (Traced.ran response.output))

def Verb.advance {α : Type} : Verb α → Setting → Activity α × Setting
  | .done value, setting => (.finished value, setting)
  | .note notice next, setting => next.advance (setting.say [notice])
  | .makeDirectories path next, setting =>
      match setting.scene.tree.makeDirectories path.toList with
      | .ok tree =>
          (next (.ok ())).advance { setting with scene := { setting.scene with tree := tree } }
      | .error error => (next (.error error)).advance setting
  | .inspect path next, setting =>
      (next (setting.scene.tree.inspect path.toList)).advance setting
  | .run spec next, setting =>
      match setting.openRun spec with
      | (_, some result, setting) => (next result).advance setting
      | (response, none, setting) => (.hanging response next, setting)
  | .stream spec consumer next, setting =>
      let (response, ended, records, setting) := setting.openStream spec consumer
      let (forwarder, setting) := setting.forward (consumer.forwarder? records)
      match ended with
      | some result =>
          if forwarded forwarder then (next result records).advance setting
          else (.streaming response ended forwarder records next, setting)
      | none => (.streaming response none forwarder records next, setting)

namespace Activity

def resume {α : Type} (activity : Activity α) (setting : Setting) : Activity α × Setting :=
  match activity with
  | .finished value => (.finished value, setting)
  | .hanging response next =>
      if setting.cancelled then
        (next response.output).advance
          ((setting.processEnds response).say (Traced.ran response.output))
      else (.hanging response next, setting)
  | .streaming response ended forwarder records next =>
      let (ended, setting) :=
        match ended with
        | some result => (some result, setting)
        | none =>
            if setting.cancelled then
              (some response.ending,
                (setting.processEnds response).say (Traced.streamed response.ending))
            else (none, setting)
      let (forwarder, setting) := setting.forward forwarder
      match ended with
      | some result =>
          if forwarded forwarder then (next result records).advance setting
          else (.streaming response ended forwarder records next, setting)
      | none => (.streaming response none forwarder records next, setting)

def value? {α : Type} : Activity α → Option α
  | .finished value => some value
  | _ => none

def deadline? {α : Type} : Activity α → Option Nat
  | .streaming _ _ (some forwarder) _ _ => forwarder.waiting.map (·.deadline)
  | _ => none

end Activity

end BackupClient
