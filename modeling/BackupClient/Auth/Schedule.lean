import BackupClient.Auth.Monitor
import BackupClient.Cancellation
import BackupClient.Time.Clock

/-!
Pollers and watches in virtual time.

Time stands still while anything can go on and then jumps to the next moment at which something can.
-/

namespace BackupClient

/-! ### One poller -/

/-- A poller with its source, and what it has done, the latest first. -/
structure PollRun (μ α : Type) where
  poller : Poller α
  feed : Feed μ
  source : PreparedSource μ
  acts : List (PollAct μ)
  cancelled : Bool
  cancelAt : Option Nat
  now : Nat

namespace PollRun

variable {μ α : Type}

def afterActs [DecidableEq μ] (run : PollRun μ α) (acts : List (PollAct μ)) : PollRun μ α :=
  let run := { run with acts := acts.reverse ++ run.acts }
  if acts.contains .opens then
    let (attempt, source) := run.source.openFor ""
    { run with source := source, feed := attempt.feed run.now }
  else run

def nextMoment (rules : PollRules) (run : PollRun μ α) : Option Nat :=
  (rules.deadline :: run.cancelAt.toList ++ run.poller.wake?.toList ++
    (run.feed.head?.map (·.1)).toList).min?

def moveTo (run : PollRun μ α) (moment : Nat) : PollRun μ α :=
  let due := run.cancelAt.any (· ≤ moment)
  { run with
    now := moment, cancelled := run.cancelled || due
    cancelAt := if due then none else run.cancelAt }

def run [DecidableEq μ] (fuel : Nat) (rules : PollRules) (classify : μ → Option α)
    (run : PollRun μ α) : PollRun μ α :=
  match fuel with
  | 0 => run
  | fuel + 1 =>
      match run.poller.step? rules classify run.now run.cancelled (run.feed.due? run.now) with
      | some step =>
          let feed := if step.took then run.feed.tail else run.feed
          PollRun.run fuel rules classify
            ({ run with poller := step.poller, feed := feed }.afterActs step.acts)
      | none =>
          if run.poller.outcome?.isSome then run
          else
            match run.nextMoment rules with
            | some moment => PollRun.run fuel rules classify (run.moveTo moment)
            | none => run

def play [DecidableEq μ] (fuel : Nat) (rules : PollRules) (classify : μ → Option α)
    (attempts : List (Attempt μ)) (cancellation : Cancellation) : PollRun μ α :=
  PollRun.run fuel rules classify
    { poller := .start, feed := [], source := ⟨attempts, []⟩, acts := []
      cancelled := cancellation = .before, cancelAt := cancellation.moment? 0, now := 0 }

def opens (run : PollRun μ α) : Nat :=
  run.source.opened.length

def seen (run : PollRun μ α) : List μ :=
  run.acts.reverse.filterMap fun act =>
    match act with
    | .reads message => some message
    | _ => none

def notices (run : PollRun μ α) : List Notice :=
  run.acts.filterMap fun act =>
    match act with
    | .tells notice => some notice
    | _ => none

end PollRun

/-! ### Watches -/

inductive Meanwhile where
  | advance (duration : Duration)
  | complete (id : String) (status : SessionStatus) (tokens : Option TokenPair)
  | sweep
  | create (id : String)
  | refuseTokens

structure WatchRoom where
  monitor : Monitor
  source : PreparedSource AuthStatusUpdate
  feeds : List (Feed AuthStatusUpdate)
  clock : Clock
  refusal : Option String
  listening : Bool
  cancelled : Bool
  cancelAt : Option Nat
  coming : List (Nat × Meanwhile)
  now : Nat

namespace WatchRoom

def empty (configuration : AuthConfiguration) (now : Instant) : WatchRoom where
  monitor := .idle configuration
  source := .empty
  feeds := []
  clock := ⟨now⟩
  refusal := none
  listening := true
  cancelled := false
  cancelAt := none
  coming := []
  now := 0

def lockedReason : String := "keyring locked"

def withRegistry (room : WatchRoom) (registry : Registry) : WatchRoom :=
  { room with monitor := room.monitor.withRegistry registry }

def registry (room : WatchRoom) : Registry :=
  room.monitor.registry

def happen (room : WatchRoom) : Meanwhile → WatchRoom
  | .advance duration => { room with clock := room.clock.advance duration }
  | .complete id status tokens =>
      room.withRegistry (room.registry.complete room.clock.now id status tokens).2
  | .sweep => room.withRegistry (room.registry.sweep room.clock.now).2
  | .create id => room.withRegistry (room.registry.create room.clock.now id).2
  | .refuseTokens => { room with refusal := some lockedReason }

def input (room : WatchRoom) (number : Nat) : WatchInput where
  clock := room.clock.now
  now := room.now
  cancelled := room.cancelled
  event := room.feeds[number]?.bind (·.due? room.now)
  refusal := room.refusal
  listening := room.listening

def openSource (room : WatchRoom) (number : Nat) (id : String) : WatchRoom :=
  let (attempt, source) := room.source.openFor id
  { room with source := source, feeds := room.feeds.set number (attempt.worded.feed room.now) }

def apply (room : WatchRoom) (number : Nat) (step : WatchStep) : WatchRoom :=
  let feeds := if step.took then room.feeds.modify number List.tail else room.feeds
  let room := { room with monitor := room.monitor.apply number step, feeds := feeds }
  match room.monitor.watches[number]? with
  | some watch => if step.acts.contains .opens then room.openSource number watch.id else room
  | none => room

def turn (fuel : Nat) (room : WatchRoom) (number : Nat) : WatchRoom :=
  match fuel with
  | 0 => room
  | fuel + 1 =>
      match room.monitor.step? number (room.input number) with
      | some step => turn fuel (room.apply number step) number
      | none => room

def allReturned (room : WatchRoom) : Bool :=
  room.monitor.watches.all fun watch => watch.stage.returned?.isSome

def moments (watch : Watch) (feed : Feed AuthStatusUpdate) : List Nat :=
  match watch.stage with
  | .polling rules poller =>
      rules.deadline :: poller.wake?.toList ++ (feed.head?.map (·.1)).toList
  | _ => []

def nextMoment (room : WatchRoom) : Option Nat :=
  ((room.monitor.watches.zipWith moments room.feeds).flatten ++ room.cancelAt.toList ++
    room.coming.map (·.1)).min?

/-- Go to a moment: what happens from outside comes first. -/
def moveTo (room : WatchRoom) (moment : Nat) : WatchRoom :=
  let due := room.cancelAt.any (· ≤ moment)
  let (happening, coming) := room.coming.partition (·.1 ≤ moment)
  (happening.map (·.2)).foldl happen
    { room with
      now := moment, cancelled := room.cancelled || due
      cancelAt := if due then none else room.cancelAt, coming := coming }

def run (fuel : Nat) (room : WatchRoom) : WatchRoom :=
  match fuel with
  | 0 => room
  | fuel + 1 =>
      let room := (List.range room.monitor.watches.length).foldl (turn (fuel + 1)) room
      if room.allReturned then room
      else
        match room.nextMoment with
        | some moment => run fuel (room.moveTo moment)
        | none => room

/-- Watch some sessions at once: the statuses that the watches return and the milliseconds that it took. -/
def watch (fuel : Nat) (room : WatchRoom) (ids : List String) (cancellation : Cancellation)
    (coming : List (Nat × Meanwhile)) : List SessionStatus × Nat × WatchRoom :=
  let room :=
    { room with
      monitor := ids.foldl Monitor.watch { room.monitor with watches := [] }
      feeds := ids.map fun _ => [], cancelled := cancellation = .before
      cancelAt := cancellation.moment? room.now
      coming := coming.map fun (delay, event) => (room.now + delay, event) }
  let ended := run fuel room
  (ended.monitor.watches.filterMap (·.stage.returned?), ended.now - room.now, ended)

end WatchRoom

end BackupClient
