import BackupClient.Cancellation
import BackupClient.Engine.Activity

/-!
One verb from its start to its end, with a cancellation and a reader of its progress.

Time stands still while anything can happen and then jumps to the next moment at which something does.
At one moment the wait of a final tick ends first, then the cancellation comes, then the reader reads.
-/

namespace BackupClient

/-- How the progress of a verb is read: from some milliseconds on, only after the verb has ended, or not
at all. -/
inductive ProgressReader where
  | after (delay : Nat)
  | held
  | dropped
  deriving DecidableEq, Repr

structure Watched (α : Type) where
  activity : Activity α
  setting : Setting
  cancelAt : Option Nat
  readFrom : Option Nat
  taken : List BackupProgress

namespace Watched

/-- The next moment at which something happens.  A cancellation may come at the present one. -/
def nextMoment {α : Type} (watched : Watched α) : Option Nat :=
  let now := watched.setting.scene.now
  let later := [watched.activity.deadline?, watched.readFrom].filterMap (·.filter (now < ·))
  (watched.cancelAt.toList ++ later).min?

/-- Let the reader read, and let the verb go on with the room it gets. -/
def read {α : Type} (rounds : Nat) (watched : Watched α) : Watched α :=
  match rounds with
  | 0 => watched
  | rounds + 1 =>
      if watched.readFrom.any (· ≤ watched.setting.scene.now) then
        let (ticks, channel) := watched.setting.channel.drain
        if ticks.isEmpty then watched
        else
          let (activity, setting) :=
            watched.activity.resume { watched.setting with channel := channel }
          read rounds ⟨activity, setting, watched.cancelAt, watched.readFrom, watched.taken ++ ticks⟩
      else watched

def moveTo {α : Type} (moment : Nat) (watched : Watched α) : Watched α :=
  let setting := watched.setting
  let due := watched.cancelAt.any (· ≤ moment)
  let (activity, setting) :=
    watched.activity.resume
      { setting with
        scene := { setting.scene with now := moment }, cancelled := setting.cancelled || due }
  { watched with
    activity := activity, setting := setting
    cancelAt := if due then none else watched.cancelAt }

def run {α : Type} (fuel : Nat) (watched : Watched α) : Watched α :=
  match fuel with
  | 0 => watched
  | fuel + 1 =>
      let watched := read fuel watched
      match watched.activity with
      | .finished _ => watched
      | _ =>
          match watched.nextMoment with
          | some moment => run fuel (watched.moveTo moment)
          | none => watched

end Watched

/-- How a watched verb ended: its result, the ticks that were read, the milliseconds until both the verb
and the reader were done, and the scene after it. -/
structure WatchedEnd (α : Type) where
  value : Option α
  ticks : List BackupProgress
  elapsed : Nat
  scene : Scene

def Verb.watch {α : Type} (fuel : Nat) (verb : Verb α) (scene : Scene)
    (cancellation : Cancellation) (capacity : Nat) (reader : ProgressReader) : WatchedEnd α :=
  let channel :=
    if reader = .dropped then ProgressChannel.closed else ProgressChannel.empty capacity
  let (activity, setting) := verb.advance ⟨scene, cancellation = .before, channel⟩
  let cancelAt := cancellation.moment? scene.now
  let readFrom :=
    match reader with
    | .after delay => some (scene.now + delay)
    | _ => none
  let ended := Watched.run fuel ⟨activity, setting, cancelAt, readFrom, []⟩
  let now := ended.setting.scene.now
  let finish := max now (readFrom.getD 0)
  ⟨ended.activity.value?, ended.taken ++ ended.setting.channel.held, finish - scene.now,
    { ended.setting.scene with now := finish }⟩

end BackupClient
