import BackupClient.Auth.Source
import BackupClient.Log.Notice
import BackupClient.Time.Timer

/-!
Polling a source until a message is final.

The source is opened again after each failure or end of its stream.  A poller gives up when too many
attempts in a row have brought no message at all.  Whatever it waits for, a cancellation stops it first
and its deadline second.
-/

namespace BackupClient

/-- When a poller tries again, when it gives up, and when it stops.  The deadline is a moment in
milliseconds, and the last moment that its clock holds is one in nanoseconds. -/
structure PollRules where
  retryInterval : Duration
  maxRetries : UInt32
  deadline : Nat
  lastMoment : Nat := Timer.lastMoment
  deriving DecidableEq, Repr

inductive PollOutcome (α : Type) where
  | terminal (value : α)
  | exhausted
  | deadline
  | cancelled
  deriving DecidableEq, Repr

/-- What a poller is about: to begin an attempt, to have the source opened, to read its stream, where it
may have heard something or not, to wait for a moment, or nothing any more. -/
inductive PollPhase (α : Type) where
  | beginning
  | opening
  | reading (heard : Bool)
  | resting (wake : Nat)
  | stopped (outcome : PollOutcome α)
  deriving DecidableEq, Repr

/-- A poller with the number of attempts in a row that failed. -/
structure Poller (α : Type) where
  phase : PollPhase α
  failures : UInt32
  deriving DecidableEq, Repr

/-- What a poller does: it opens the source, it reads a message, or it tells something. -/
inductive PollAct (μ : Type) where
  | opens
  | reads (message : μ)
  | tells (notice : Notice)
  deriving DecidableEq

/-- One step of a poller, and whether it took the event that there was. -/
structure PollStep (μ α : Type) where
  poller : Poller α
  took : Bool
  acts : List (PollAct μ)
  deriving DecidableEq

/-- The milliseconds of a duration, rounded up. -/
def Duration.milliseconds (duration : Duration) : Nat :=
  (duration.nanos + 999999) / 1000000

namespace PollRules

/-- The millisecond at which a rest is over that begins now. -/
def wake (rules : PollRules) (now : Nat) : Nat :=
  (Timer.ending rules.lastMoment (now * 1000000) rules.retryInterval.nanos + 999999) / 1000000

end PollRules

namespace Poller

variable {μ α : Type}

def start : Poller α :=
  ⟨.beginning, 0⟩

def outcome? (poller : Poller α) : Option (PollOutcome α) :=
  match poller.phase with
  | .stopped outcome => some outcome
  | _ => none

def stop (poller : Poller α) (outcome : PollOutcome α) : PollStep μ α :=
  ⟨{ poller with phase := .stopped outcome }, false, []⟩

def openNotice (reason : String) (failures : UInt32) : Notice :=
  ⟨.warn, "failed to open status stream",
    [("error", .str reason), ("attempt", .int failures.toNat)]⟩

def streamNotice (reason : String) : Notice :=
  ⟨.warn, "status stream failed", [("error", .str reason)]⟩

def givingUpNotice (failures : UInt32) : Notice :=
  ⟨.warn, "giving up on status stream", [("attempts", .int failures.toNat)]⟩

/-- An attempt is over: give up after too many failures, else rest. -/
def endAttempt (rules : PollRules) (now : Nat) (failures : UInt32) (acts : List (PollAct μ)) :
    PollStep μ α :=
  if rules.maxRetries < failures then
    ⟨⟨.stopped .exhausted, failures⟩, true, acts ++ [.tells (givingUpNotice failures)]⟩
  else ⟨⟨.resting (rules.wake now), failures⟩, true, acts⟩

/-- The failures after a stream, which has failed only if nothing was heard. -/
def failuresAfter (poller : Poller α) (heard : Bool) : UInt32 :=
  if heard then poller.failures else poller.failures + 1

def take? (rules : PollRules) (classify : μ → Option α) (now : Nat) (poller : Poller α) :
    SourceEvent μ → Option (PollStep μ α)
  | .refused reason =>
      match poller.phase with
      | .opening =>
          let failures := poller.failures + 1
          some (endAttempt rules now failures [.tells (openNotice reason failures)])
      | _ => none
  | .opened =>
      match poller.phase with
      | .opening => some ⟨{ poller with phase := .reading false }, true, []⟩
      | _ => none
  | .message content =>
      match poller.phase with
      | .reading _ =>
          let phase :=
            match classify content with
            | some value => .stopped (.terminal value)
            | none => .reading true
          some ⟨⟨phase, 0⟩, true, [.reads content]⟩
      | _ => none
  | .failed reason =>
      match poller.phase with
      | .reading heard =>
          some (endAttempt rules now (poller.failuresAfter heard) [.tells (streamNotice reason)])
      | _ => none
  | .ended =>
      match poller.phase with
      | .reading heard => some (endAttempt rules now (poller.failuresAfter heard) [])
      | _ => none

/-- One step at a moment, unless the poller has to wait or has stopped. -/
def step? (rules : PollRules) (classify : μ → Option α) (now : Nat) (cancelled : Bool)
    (event : Option (SourceEvent μ)) (poller : Poller α) : Option (PollStep μ α) :=
  if poller.outcome?.isSome then none
  else if cancelled then some (poller.stop .cancelled)
  else if rules.deadline ≤ now then some (poller.stop .deadline)
  else
    match poller.phase with
    | .beginning => some ⟨{ poller with phase := .opening }, false, [.opens]⟩
    | .resting wake =>
        if wake ≤ now then some ⟨{ poller with phase := .beginning }, false, []⟩ else none
    | _ => event.bind (poller.take? rules classify now)

def wake? (poller : Poller α) : Option Nat :=
  match poller.phase with
  | .resting wake => some wake
  | _ => none

end Poller

end BackupClient
