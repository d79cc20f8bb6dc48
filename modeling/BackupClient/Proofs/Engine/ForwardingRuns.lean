import BackupClient.Engine.Live
import BackupClient.Proofs.Engine.Forwarding

/-!
The forwarding as it runs.

A verb lets its forwarding go on as far as possible: it sees to the final tick that waits and handles records
until another one has to wait or none is left.  This is one of the orders in which the events may come.
-/

namespace BackupClient

namespace Forwarding

variable {forwarding : Forwarding} {others : List LogRecord} {record : LogRecord}
  {forwarder : Forwarder} {channel : ProgressChannel} {found : ProgressMark} {final : FinalTick}
  {now : Nat} {cancelled : Bool} {result : Forwarder × ProgressChannel}

/-! ### Records that are left -/

/-- Handle the mark of a record, if it has one. -/
def tell (now : Nat) (forwarder : Forwarder) (channel : ProgressChannel) (record : LogRecord) :
    Forwarder × ProgressChannel :=
  match record.progressMark? forwarder.total with
  | some found => forwarder.mark now channel found
  | none => (forwarder, channel)

def handle (now : Nat) (cancelled : Bool) (forwarder : Forwarder) (channel : ProgressChannel)
    (record : LogRecord) : Forwarder × ProgressChannel × List Notice :=
  let (forwarder, channel) := tell now forwarder channel record
  forwarder.settle now cancelled channel

/-- A final tick has to wait: the queue is open and full, and neither is the wait over nor the backup
cancelled. -/
structure Stalled (final : FinalTick) (forwarding : Forwarding) : Prop where
  waiting : forwarding.forwarder.waiting = some final
  isOpen : forwarding.channel.isOpen = true
  full : forwarding.channel.hasRoom = false
  early : forwarding.now < final.deadline
  uncancelled : forwarding.cancelled = false

theorem Stalled.resume (stalled : forwarding.Stalled final) : forwarding.resume = forwarding := by
  have same : forwarding.forwarder.settle forwarding.now forwarding.cancelled forwarding.channel =
      (forwarding.forwarder, forwarding.channel, []) := by
    simp [Forwarder.settle, stalled.waiting, stalled.isOpen, stalled.full, stalled.early,
      stalled.uncancelled]
  rw [Forwarding.resume, same]

/-- The reader of a scene takes each tick at once, or has closed the queue. -/
def KeepsUp (scene : LiveScene) : Prop :=
  scene.channel.isOpen = false ∨
    scene.reading = true ∧ scene.channel.held = [] ∧ 0 < scene.channel.capacity

theorem KeepsUp.ready {scene : LiveScene} (keepsUp : KeepsUp scene) :
    scene.channel.isOpen = false ∨ scene.channel.hasRoom = true := by
  refine keepsUp.imp_right ?_
  rintro ⟨-, read, room⟩
  rw [ProgressChannel.hasRoom, read]
  exact decide_eq_true room

end Forwarding

end BackupClient
