import BackupClient.Proofs.Engine.Ticks

/-!
Progress on its way to a receiver.

The forwarding handles a record at any time and sees to a final tick that waits at any time; the receiver
reads, or stops to listen; time passes, and the backup may be cancelled.  Whatever the order of these events,
the receiver gets ticks that were due, in their order, and a final tick is not lost as long as there is room
for it before its wait is over.
-/

namespace BackupClient

open scoped List

/-- The forwarding of a backup and its receiver: the queue between them, the time in milliseconds, whether the
backup is cancelled, and the ticks that the receiver got. -/
structure Forwarding where
  forwarder : Forwarder
  channel : ProgressChannel
  now : Nat
  cancelled : Bool
  received : List BackupProgress
  deriving DecidableEq

/-- What happens at once.  A receiver may close the queue and still read what is in it, or go away. -/
inductive ForwardingEvent where
  | take
  | resume
  | read
  | close
  | leave
  | wait (milliseconds : Nat)
  | cancel
  deriving DecidableEq

namespace Forwarding

def start (total capacity : Nat) (records : List LogRecord) : Forwarding :=
  ⟨.start total records, .empty capacity, 0, false, []⟩

/-- Handle the next record, unless a final tick waits. -/
def takeNext (now : Nat) (forwarder : Forwarder) (channel : ProgressChannel) : Forwarder × ProgressChannel :=
  match forwarder.waiting, forwarder.pending with
  | none, record :: rest =>
      let forwarder := { forwarder with pending := rest }
      match record.progressMark? forwarder.total with
      | some found => forwarder.mark now channel found
      | none => (forwarder, channel)
  | _, _ => (forwarder, channel)

def take (forwarding : Forwarding) : Forwarding :=
  let (forwarder, channel) := takeNext forwarding.now forwarding.forwarder forwarding.channel
  { forwarding with forwarder := forwarder, channel := channel }

def resume (forwarding : Forwarding) : Forwarding :=
  let (forwarder, channel, _) :=
    forwarding.forwarder.settle forwarding.now forwarding.cancelled forwarding.channel
  { forwarding with forwarder := forwarder, channel := channel }

/-- Hand the first tick in the queue, if there is one, to the receiver. -/
def read (forwarding : Forwarding) : Forwarding :=
  { forwarding with
    channel := { forwarding.channel with held := forwarding.channel.held.drop 1 }
    received := forwarding.received ++ forwarding.channel.held.take 1 }

def happen (forwarding : Forwarding) : ForwardingEvent → Forwarding
  | .take => forwarding.take
  | .resume => forwarding.resume
  | .read => forwarding.read
  | .close => { forwarding with channel := { forwarding.channel with isOpen := false } }
  | .leave => { forwarding with channel := forwarding.channel.close }
  | .wait milliseconds => { forwarding with now := forwarding.now + milliseconds }
  | .cancel => { forwarding with cancelled := true }

def run (forwarding : Forwarding) (events : List ForwardingEvent) : Forwarding :=
  events.foldl happen forwarding

variable {forwarding after : Forwarding} {event : ForwardingEvent} {events : List ForwardingEvent}
  {total capacity : Nat} {records handled : List LogRecord} {record : LogRecord}
  {forwarder : Forwarder} {channel : ProgressChannel} {found : ProgressMark} {final : FinalTick}
  {tick : BackupProgress}

theorem run_cons : forwarding.run (event :: events) = (forwarding.happen event).run events :=
  List.foldl_cons ..

theorem run_append {others : List ForwardingEvent} :
    forwarding.run (events ++ others) = (forwarding.run events).run others :=
  List.foldl_append

/-! ### What a step can do -/

def tickOf (forwarder : Forwarder) (found : ProgressMark) : BackupProgress :=
  ⟨forwarder.total, forwarder.advanceTo found⟩

def advanced (forwarder : Forwarder) (found : ProgressMark) : Forwarder :=
  { forwarder with processed := forwarder.advanceTo found }

inductive Marks (now : Nat) (forwarder : Forwarder) (channel : ProgressChannel) (found : ProgressMark) :
    Forwarder × ProgressChannel → Prop where
  | unheard : forwarder.listening = false →
      Marks now forwarder channel found (advanced forwarder found, channel)
  | closed : channel.isOpen = false →
      Marks now forwarder channel found ({ advanced forwarder found with listening := false }, channel)
  | sent : channel.isOpen = true → channel.hasRoom = true →
      Marks now forwarder channel found (advanced forwarder found, channel.push (tickOf forwarder found))
  | dropped : channel.hasRoom = false → found ≠ .finished →
      Marks now forwarder channel found (advanced forwarder found, channel)
  | waits : channel.isOpen = true → channel.hasRoom = false → found = .finished →
      Marks now forwarder channel found
        ({ advanced forwarder found with waiting := some ⟨tickOf forwarder found, now + finalTickWait⟩ },
          channel)

theorem mark_effect (now : Nat) (forwarder : Forwarder) (channel : ProgressChannel) (found : ProgressMark) :
    Marks now forwarder channel found (forwarder.mark now channel found) := by
  unfold Forwarder.mark
  dsimp only
  split
  case isTrue silent => exact .unheard (by simpa using silent)
  case isFalse =>
      split
      case h_1 =>
          unfold Forwarder.sendFinal
          split_ifs with shut room
          · exact .closed (by simpa using shut)
          · exact .sent (by simpa using shut) room
          · exact .waits (by simpa using shut) (Bool.eq_false_iff.mpr room) rfl
      case h_2 =>
          unfold Forwarder.sendTick
          split_ifs with shut room
          · exact .closed (by simpa using shut)
          · exact .sent (by simpa using shut) room
          · exact .dropped (Bool.eq_false_iff.mpr room) nofun

inductive Settles (now : Nat) (cancelled : Bool) (forwarder : Forwarder) (channel : ProgressChannel) :
    Forwarder × ProgressChannel → Prop where
  | idle : forwarder.waiting = none → Settles now cancelled forwarder channel (forwarder, channel)
  | closed : channel.isOpen = false →
      Settles now cancelled forwarder channel
        ({ forwarder with listening := false, waiting := none }, channel)
  | sent {final : FinalTick} : forwarder.waiting = some final → channel.isOpen = true →
      channel.hasRoom = true →
      Settles now cancelled forwarder channel ({ forwarder with waiting := none }, channel.push final.tick)
  | givenUp {final : FinalTick} : forwarder.waiting = some final → channel.isOpen = true →
      channel.hasRoom = false → final.deadline ≤ now ∨ cancelled = true →
      Settles now cancelled forwarder channel
        ({ forwarder with listening := false, waiting := none }, channel)
  | waits {final : FinalTick} : forwarder.waiting = some final → channel.isOpen = true →
      channel.hasRoom = false → now < final.deadline → cancelled = false →
      Settles now cancelled forwarder channel (forwarder, channel)

theorem settle_effect (now : Nat) (cancelled : Bool) (forwarder : Forwarder) (channel : ProgressChannel) :
    Settles now cancelled forwarder channel
      ((forwarder.settle now cancelled channel).1, (forwarder.settle now cancelled channel).2.1) := by
  unfold Forwarder.settle
  cases waiting : forwarder.waiting with
  | none => exact .idle waiting
  | some final =>
      cases isOpen : channel.isOpen with
      | false => exact .closed isOpen
      | true =>
          cases room : channel.hasRoom with
          | true => exact .sent waiting isOpen room
          | false =>
              simp only [Bool.not_true, Bool.false_eq_true, if_false]
              split_ifs
              case pos late => exact .givenUp waiting isOpen room (.inl late)
              case pos early stopped => exact .givenUp waiting isOpen room (.inr stopped)
              case neg early going =>
                  exact .waits waiting isOpen room (Nat.lt_of_not_le early) (by simpa using going)

/-! ### What every event keeps -/

/-- The ticks that were received or are left in the queue. -/
def arrived (forwarding : Forwarding) : List BackupProgress :=
  forwarding.received ++ forwarding.channel.held

/-- The final tick that waits, if there is one. -/
def awaited (forwarding : Forwarding) : List BackupProgress :=
  (forwarding.forwarder.waiting.map FinalTick.tick).toList

variable {base front : List BackupProgress} {others : List LogRecord}

/-- What is so after some records, given the ticks that were due and those that had arrived at an earlier
time: since then nothing arrived that was not due since then. -/
structure Since (total : Nat) (records : List LogRecord) (base front : List BackupProgress)
    (handled : List LogRecord) (forwarding : Forwarding) : Prop where
  split : handled ++ forwarding.forwarder.pending = records
  sameTotal : forwarding.forwarder.total = total
  processed : forwarding.forwarder.processed = greatest total (marks total handled)
  came : ∃ later fresh, dueTicks total handled = base ++ later ∧ forwarding.arrived = front ++ fresh ∧
    fresh ++ forwarding.awaited <+ later

/-- Some ticks become due, and of these and the one that waited some arrive or wait. -/
theorem Since.extend (since : Since total records base front handled forwarding)
    (more newDue : List BackupProgress)
    (split : others ++ after.forwarder.pending = records) (sameTotal : after.forwarder.total = total)
    (processed : after.forwarder.processed = greatest total (marks total others))
    (due : dueTicks total others = dueTicks total handled ++ newDue)
    (arrives : after.arrived = forwarding.arrived ++ more)
    (tracked : more ++ after.awaited <+ forwarding.awaited ++ newDue) :
    Since total records base front others after := by
  obtain ⟨later, fresh, dueBefore, arrivedBefore, ordered⟩ := since.came
  refine ⟨split, sameTotal, processed, later ++ newDue, fresh ++ more, ?_, ?_, ?_⟩
  · rw [due, dueBefore, List.append_assoc]
  · rw [arrives, arrivedBefore, List.append_assoc]
  · calc fresh ++ more ++ after.awaited
      _ = fresh ++ (more ++ after.awaited) := List.append_assoc ..
      _ <+ fresh ++ (forwarding.awaited ++ newDue) := tracked.append_left fresh
      _ = fresh ++ forwarding.awaited ++ newDue := (List.append_assoc ..).symm
      _ <+ later ++ newDue := ordered.append_right newDue

/-- Nothing becomes due, and nothing is lost. -/
theorem Since.unmoved (since : Since total records base front handled forwarding)
    (same : after.forwarder = forwarding.forwarder) (arrives : after.arrived = forwarding.arrived) :
    Since total records base front handled after := by
  apply since.extend [] []
  · rw [same, since.split]
  · rw [same, since.sameTotal]
  · rw [same, since.processed]
  · rw [List.append_nil]
  · rw [arrives, List.append_nil]
  · rw [awaited, awaited, same, List.nil_append, List.append_nil]

variable {result : Forwarder × ProgressChannel} {now : Nat} {cancelled : Bool}

theorem Marks.fields (marked : Marks now forwarder channel found result) :
    result.1.total = forwarder.total ∧ result.1.processed = forwarder.advanceTo found ∧
      result.1.pending = forwarder.pending := by
  cases marked with
  | unheard => exact ⟨rfl, rfl, rfl⟩
  | closed => exact ⟨rfl, rfl, rfl⟩
  | sent => exact ⟨rfl, rfl, rfl⟩
  | dropped => exact ⟨rfl, rfl, rfl⟩
  | waits => exact ⟨rfl, rfl, rfl⟩

theorem Marks.tracked (marked : Marks now forwarder channel found result)
    (idle : forwarder.waiting = none) :
    ∃ more, result.2.held = channel.held ++ more ∧
      more ++ (result.1.waiting.map FinalTick.tick).toList <+ [tickOf forwarder found] := by
  cases marked with
  | unheard => exact ⟨[], by simp, by simp [advanced, idle]⟩
  | closed => exact ⟨[], by simp, by simp [advanced, idle]⟩
  | sent => exact ⟨[tickOf forwarder found], rfl, by simp [advanced, idle]⟩
  | dropped => exact ⟨[], by simp, by simp [advanced, idle]⟩
  | waits => exact ⟨[], by simp, by simp⟩

theorem Settles.fields (settled : Settles now cancelled forwarder channel result) :
    result.1.total = forwarder.total ∧ result.1.processed = forwarder.processed ∧
      result.1.pending = forwarder.pending := by
  cases settled with
  | idle => exact ⟨rfl, rfl, rfl⟩
  | closed => exact ⟨rfl, rfl, rfl⟩
  | sent => exact ⟨rfl, rfl, rfl⟩
  | givenUp => exact ⟨rfl, rfl, rfl⟩
  | waits => exact ⟨rfl, rfl, rfl⟩

theorem Settles.tracked (settled : Settles now cancelled forwarder channel result) :
    ∃ more, result.2.held = channel.held ++ more ∧
      more ++ (result.1.waiting.map FinalTick.tick).toList <+
        (forwarder.waiting.map FinalTick.tick).toList := by
  cases settled with
  | idle => exact ⟨[], by simp, by simp⟩
  | closed => exact ⟨[], by simp, by simp⟩
  | @sent final waiting => exact ⟨[final.tick], rfl, by simp [waiting]⟩
  | givenUp => exact ⟨[], by simp, by simp⟩
  | waits => exact ⟨[], by simp, by simp⟩

theorem exists_marks_of_take (idle : forwarding.forwarder.waiting = none)
    (next : forwarding.forwarder.pending = record :: others)
    (marked : record.progressMark? forwarding.forwarder.total = some found) :
    ∃ result, Marks forwarding.now { forwarding.forwarder with pending := others } forwarding.channel
        found result ∧
      forwarding.take = { forwarding with forwarder := result.1, channel := result.2 } := by
  refine ⟨_, mark_effect _ _ _ _, ?_⟩
  simp only [take, takeNext, idle, next, marked]

theorem take_of_unmarked (idle : forwarding.forwarder.waiting = none)
    (next : forwarding.forwarder.pending = record :: others)
    (unmarked : record.progressMark? forwarding.forwarder.total = none) :
    forwarding.take =
      { forwarding with forwarder := { forwarding.forwarder with pending := others } } := by
  simp only [take, takeNext, idle, next, unmarked]

theorem take_of_waiting (waits : forwarding.forwarder.waiting = some final) :
    forwarding.take = forwarding := by
  simp only [take, takeNext, waits]

theorem take_of_done (done : forwarding.forwarder.pending = []) : forwarding.take = forwarding := by
  have same : takeNext forwarding.now forwarding.forwarder forwarding.channel =
      (forwarding.forwarder, forwarding.channel) := by
    unfold takeNext
    rw [done]
    split
    case h_1 => contradiction
    case h_2 => rfl
  simp only [take, same]

theorem Since.take_of_unmarked (since : Since total records base front handled forwarding)
    (idle : forwarding.forwarder.waiting = none)
    (next : forwarding.forwarder.pending = record :: others)
    (unmarked : record.progressMark? total = none) :
    Since total records base front (handled ++ [record]) forwarding.take := by
  have split := since.split
  have known := unmarked
  rw [next] at split
  rw [← since.sameTotal] at known
  rw [Forwarding.take_of_unmarked idle next known]
  apply since.extend [] []
  · rw [List.append_assoc, List.singleton_append, split]
  · exact since.sameTotal
  · rw [marks_concat_of_none unmarked, ← since.processed]
  · rw [dueTicks_concat_of_none unmarked, List.append_nil]
  · exact (List.append_nil _).symm
  · rw [List.append_nil]
    exact List.Sublist.refl _

theorem Since.take_of_marked (since : Since total records base front handled forwarding)
    (idle : forwarding.forwarder.waiting = none)
    (next : forwarding.forwarder.pending = record :: others)
    (marked : record.progressMark? total = some found) :
    Since total records base front (handled ++ [record]) forwarding.take := by
  have split := since.split
  have known := marked
  rw [next] at split
  rw [← since.sameTotal] at known
  obtain ⟨result, marks, taken⟩ := exists_marks_of_take idle next known
  obtain ⟨sameTotal, processed, pending⟩ := marks.fields
  obtain ⟨more, pushed, tracked⟩ := marks.tracked idle
  rw [advanceTo_eq] at processed
  rw [tickOf, advanceTo_eq] at tracked
  simp only [since.sameTotal, since.processed] at sameTotal processed tracked
  rw [taken]
  apply since.extend more _ _ _ _ (dueTicks_concat_of_some marked)
  · rw [arrived, arrived, pushed, List.append_assoc]
  · rw [awaited, awaited, idle]
    exact tracked
  · rw [List.append_assoc, pending, List.singleton_append, split]
  · exact sameTotal
  · rw [marks_concat_of_some marked, greatest_concat]
    exact processed

theorem Since.take (since : Since total records base front handled forwarding) :
    ∃ handled, Since total records base front handled forwarding.take := by
  cases idle : forwarding.forwarder.waiting with
  | some final =>
      rw [take_of_waiting idle]
      exact ⟨handled, since⟩
  | none =>
      cases next : forwarding.forwarder.pending with
      | nil =>
          rw [take_of_done next]
          exact ⟨handled, since⟩
      | cons record others =>
          refine ⟨handled ++ [record], ?_⟩
          cases marked : record.progressMark? total with
          | none => exact since.take_of_unmarked idle next marked
          | some found => exact since.take_of_marked idle next marked

theorem Since.resume (since : Since total records base front handled forwarding) :
    Since total records base front handled forwarding.resume := by
  have settled := settle_effect forwarding.now forwarding.cancelled forwarding.forwarder forwarding.channel
  obtain ⟨sameTotal, processed, pending⟩ := settled.fields
  obtain ⟨more, pushed, tracked⟩ := settled.tracked
  apply since.extend more []
  · exact (congrArg _ pending).trans since.split
  · exact sameTotal.trans since.sameTotal
  · exact processed.trans since.processed
  · exact (List.append_nil _).symm
  · exact (congrArg _ pushed).trans (List.append_assoc ..).symm
  · rw [List.append_nil]
    exact tracked

theorem arrived_read : forwarding.read.arrived = forwarding.arrived := by
  rw [arrived, read, List.append_assoc, List.take_append_drop, arrived]

theorem hasRoom_read (room : forwarding.channel.hasRoom = true) :
    forwarding.read.channel.hasRoom = true := by
  have fewer := decide_eq_true_iff.mp room
  apply decide_eq_true
  rw [read, List.length_drop]
  exact Nat.lt_of_le_of_lt (Nat.sub_le _ _) fewer

/-- The receiver goes away, and what is in the queue is lost. -/
theorem Since.leave (since : Since total records base [] handled forwarding) :
    Since total records base [] handled (forwarding.happen .leave) := by
  obtain ⟨later, fresh, due, arrives, ordered⟩ := since.came
  refine ⟨since.split, since.sameTotal, since.processed, later, forwarding.received, due, ?_, ?_⟩
  · exact List.append_nil _
  · rw [List.nil_append] at arrives
    rw [← arrives] at ordered
    have received : forwarding.received <+ forwarding.arrived := List.sublist_append_left _ _
    exact (received.append_right _).trans ordered

theorem Since.happen (since : Since total records base front handled forwarding)
    (stays : event ≠ .leave ∨ front = []) :
    ∃ handled, Since total records base front handled (forwarding.happen event) := by
  cases event with
  | take => exact since.take
  | resume => exact ⟨handled, since.resume⟩
  | read => exact ⟨handled, since.unmoved rfl arrived_read⟩
  | close => exact ⟨handled, since.unmoved rfl rfl⟩
  | leave =>
      obtain rfl := stays.resolve_left (not_not_intro rfl)
      exact ⟨handled, since.leave⟩
  | wait => exact ⟨handled, since.unmoved rfl rfl⟩
  | cancel => exact ⟨handled, since.unmoved rfl rfl⟩

theorem Since.run (since : Since total records base front handled forwarding)
    (stays : .leave ∉ events ∨ front = []) :
    ∃ handled, Since total records base front handled (forwarding.run events) := by
  induction events generalizing forwarding handled with
  | nil => exact ⟨handled, since⟩
  | cons event events inductionHypothesis =>
      rw [run_cons]
      have first : event ≠ .leave ∨ front = [] :=
        stays.imp_left fun stays same => stays (same ▸ List.mem_cons_self)
      have later : .leave ∉ events ∨ front = [] :=
        stays.imp_left fun stays listed => stays (List.mem_cons_of_mem _ listed)
      obtain ⟨others, next⟩ := since.happen first
      exact inductionHypothesis next later

end Forwarding

end BackupClient
