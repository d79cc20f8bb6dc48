import BackupClient.Command.Live
import BackupClient.Engine.Session

/-!
Carrying plans out with processes on a host.

The moment moves on with each process, in nanoseconds, and a cancellation that comes meanwhile also keeps
later processes from being started.
-/

namespace BackupClient

/-- What a plan works with on a host: how processes are started, the moment, the moment of a cancellation,
whether it has come, the queue of progress and its reader, the ticks that were read, and the notices so
far, the latest first. -/
structure LiveScene where
  setting : LiveSetting
  now : Nat
  cancelAt : Option Nat
  cancelled : Bool
  channel : ProgressChannel
  reading : Bool
  ticks : List BackupProgress
  notices : List Notice

namespace LiveScene

def say (scene : LiveScene) (notices : List Notice) : LiveScene :=
  { scene with notices := notices.reverse ++ scene.notices }

def runProcess (scene : LiveScene) (fuel : Nat) (mode : RunMode) (spec : CommandSpec) :
    LiveEnd × LiveScene :=
  let cancellation : LiveCancellation :=
    match scene.cancelAt with
    | some moment => .at moment
    | none => .never
  let scene := scene.say [Traced.starting spec]
  let ended := spec.runLive fuel scene.setting mode scene.now scene.cancelled cancellation
  (ended,
    { scene with
      now := ended.moment
      cancelled := scene.cancelled || scene.cancelAt.any (· ≤ ended.moment)
      notices := ended.notices ++ scene.notices })

/-- Forward the progress of records one after the other, with a reader that keeps up or none. -/
def forward (scene : LiveScene) (forwarder : Forwarder) : List LogRecord → LiveScene
  | [] => scene
  | record :: rest =>
      let (forwarder, channel, notices) :=
        { forwarder with pending := [record] }.run scene.now scene.cancelled scene.channel
      let (taken, channel) := if scene.reading then channel.drain else ([], channel)
      let scene := { scene with channel := channel, ticks := scene.ticks ++ taken }
      forward (scene.say notices) forwarder rest

end LiveScene

def Verb.execute {α : Type} (fuel : Nat) : Verb α → LiveScene → α × LiveScene
  | .done value, scene => (value, scene)
  | .note notice next, scene => next.execute fuel (scene.say [notice])
  | .makeDirectories path next, scene =>
      match scene.setting.tree.makeDirectories path.toList with
      | .ok tree =>
          (next (.ok ())).execute fuel
            { scene with setting := { scene.setting with tree := tree } }
      | .error error => (next (.error error)).execute fuel scene
  | .inspect path next, scene =>
      (next (scene.setting.tree.inspect path.toList)).execute fuel scene
  | .run spec next, scene =>
      let (ended, scene) := scene.runProcess fuel .buffered spec
      (next ended.output).execute fuel (scene.say (Traced.ran ended.output))
  | .stream spec consumer next, scene =>
      let (ended, scene) := scene.runProcess fuel .streaming spec
      let records := Log.streamedRecords ended.lines
      let scene := scene.say (records.filterMap consumer.notice? ++ Traced.streamed ended.result)
      let scene :=
        match consumer with
        | .progress total => scene.forward (Forwarder.start total []) records
        | _ => scene
      (next ended.result records).execute fuel scene

end BackupClient
