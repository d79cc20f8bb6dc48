import BackupClient.Engine.Check
import BackupClient.Job

/-!
Forwarding the progress of a backup.

Ordinary ticks are dropped when the receiver does not keep up.  The tick of a finished archive waits for
room, but not for long, and not once the backup is cancelled.
-/

namespace BackupClient

structure ProgressChannel where
  capacity : Nat
  held : List BackupProgress
  isOpen : Bool
  deriving DecidableEq, Repr

namespace ProgressChannel

def closed : ProgressChannel :=
  ⟨1, [], false⟩

def empty (capacity : Nat) : ProgressChannel :=
  ⟨capacity, [], true⟩

def hasRoom (channel : ProgressChannel) : Bool :=
  channel.held.length < channel.capacity

def push (channel : ProgressChannel) (tick : BackupProgress) : ProgressChannel :=
  { channel with held := channel.held ++ [tick] }

def drain (channel : ProgressChannel) : List BackupProgress × ProgressChannel :=
  (channel.held, { channel with held := [] })

/-- Stop reading.  What is in the queue is lost. -/
def close (channel : ProgressChannel) : ProgressChannel :=
  { channel with held := [], isOpen := false }

end ProgressChannel

/-- A final tick that waits for room, and until when. -/
structure FinalTick where
  tick : BackupProgress
  deadline : Nat
  deriving DecidableEq, Repr

/-- The forwarding of one backup: the number of files, the greatest count so far, whether the receiver is
believed to listen, the final tick that waits, and the records that are left. -/
structure Forwarder where
  total : Nat
  processed : Nat
  listening : Bool
  waiting : Option FinalTick
  pending : List LogRecord
  deriving DecidableEq, Repr

/-- The number of milliseconds a final tick waits. -/
def finalTickWait : Nat := 5000

def BackupProgress.display (tick : BackupProgress) : String :=
  "BackupProgress \x7b total_files: " ++ Text.Decimal.text tick.totalFiles ++
    ", processed_files: " ++ Text.Decimal.text tick.processedFiles ++ " \x7d"

/-- What a record says about progress: that the archive is finished, or the count of files. -/
inductive ProgressMark where
  | finished
  | count (files : Nat)
  deriving DecidableEq, Repr

/-- The progress that a record tells, given the number of files. -/
def LogRecord.progressMark? (total : Nat) : LogRecord → Option ProgressMark
  | .archiveProgress progress =>
      if progress.finished then some .finished
      else if 0 < total ∧ 0 < progress.fileCount then some (.count progress.fileCount)
      else none
  | _ => none

namespace Forwarder

def start (total : Nat) (records : List LogRecord) : Forwarder :=
  ⟨total, 0, true, none, records⟩

def isDone (forwarder : Forwarder) : Bool :=
  forwarder.waiting.isNone && forwarder.pending.isEmpty

def advanceTo (forwarder : Forwarder) : ProgressMark → Nat
  | .finished => max forwarder.processed forwarder.total
  | .count files => max forwarder.processed files

def sendTick (forwarder : Forwarder) (channel : ProgressChannel) (tick : BackupProgress) :
    Forwarder × ProgressChannel :=
  if !channel.isOpen then ({ forwarder with listening := false }, channel)
  else if channel.hasRoom then (forwarder, channel.push tick)
  else (forwarder, channel)

def sendFinal (now : Nat) (forwarder : Forwarder) (channel : ProgressChannel)
    (tick : BackupProgress) : Forwarder × ProgressChannel :=
  if !channel.isOpen then ({ forwarder with listening := false }, channel)
  else if channel.hasRoom then (forwarder, channel.push tick)
  else ({ forwarder with waiting := some ⟨tick, now + finalTickWait⟩ }, channel)

def mark (now : Nat) (forwarder : Forwarder) (channel : ProgressChannel) (mark : ProgressMark) :
    Forwarder × ProgressChannel :=
  let forwarder := { forwarder with processed := forwarder.advanceTo mark }
  if !forwarder.listening then (forwarder, channel)
  else
    let tick : BackupProgress := ⟨forwarder.total, forwarder.processed⟩
    match mark with
    | .finished => sendFinal now forwarder channel tick
    | .count _ => sendTick forwarder channel tick

def droppedNotice (tick : BackupProgress) : Notice :=
  ⟨.warn, "progress receiver not reading, final tick dropped", [("tick", .str tick.display)]⟩

/-- See what has become of a final tick that waits.  Room comes before the end of the wait, and that
before the cancellation. -/
def settle (now : Nat) (cancelled : Bool) (forwarder : Forwarder) (channel : ProgressChannel) :
    Forwarder × ProgressChannel × List Notice :=
  match forwarder.waiting with
  | none => (forwarder, channel, [])
  | some final =>
      if !channel.isOpen then
        ({ forwarder with listening := false, waiting := none }, channel, [])
      else if channel.hasRoom then
        ({ forwarder with waiting := none }, channel.push final.tick, [])
      else if final.deadline ≤ now then
        ({ forwarder with listening := false, waiting := none }, channel,
          [droppedNotice final.tick])
      else if cancelled then
        ({ forwarder with listening := false, waiting := none }, channel, [])
      else (forwarder, channel, [])

/-- Handle the records that are left, until a final tick has to wait. -/
def runRecords (now : Nat) (cancelled : Bool) (forwarder : Forwarder)
    (channel : ProgressChannel) : List LogRecord → Forwarder × ProgressChannel × List Notice
  | [] => ({ forwarder with pending := [] }, channel, [])
  | record :: rest =>
      let (forwarder, channel) :=
        match record.progressMark? forwarder.total with
        | some found => forwarder.mark now channel found
        | none => (forwarder, channel)
      let (forwarder, channel, notices) := forwarder.settle now cancelled channel
      if forwarder.waiting.isSome then ({ forwarder with pending := rest }, channel, notices)
      else
        let (forwarder, channel, later) := runRecords now cancelled forwarder channel rest
        (forwarder, channel, notices ++ later)

def run (now : Nat) (cancelled : Bool) (forwarder : Forwarder) (channel : ProgressChannel) :
    Forwarder × ProgressChannel × List Notice :=
  let (forwarder, channel, notices) := forwarder.settle now cancelled channel
  if forwarder.waiting.isSome then (forwarder, channel, notices)
  else
    let (forwarder, channel, later) := forwarder.runRecords now cancelled channel forwarder.pending
    (forwarder, channel, notices ++ later)

end Forwarder

end BackupClient
