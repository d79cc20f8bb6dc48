import BackupClient.Proofs.Engine.ForwardingRuns

/-!
Final ticks on their way to a receiver.

The tick of a finished archive is sent at once or waits for room.  A receiver that stays gets it as soon as
there is room, unless the wait is over by then or the backup cancelled.
-/

namespace BackupClient

open scoped List

namespace Forwarding

variable {forwarding : Forwarding} {event : ForwardingEvent} {events : List ForwardingEvent}
  {total capacity : Nat} {records handled others : List LogRecord} {record : LogRecord}
  {final : FinalTick} {tick : BackupProgress} {base front : List BackupProgress}

/-! ### The receiver that stays -/

/-- A final tick waits in vain: the queue is open and full, and the wait is over or the backup cancelled. -/
def givesUp (forwarding : Forwarding) : Bool :=
  match forwarding.forwarder.waiting with
  | none => false
  | some final =>
      forwarding.channel.isOpen && !forwarding.channel.hasRoom &&
        (decide (final.deadline ≤ forwarding.now) || forwarding.cancelled)

/-- The receiver neither closes the queue nor goes away. -/
def StaysOpen (events : List ForwardingEvent) : Prop :=
  ∀ event ∈ events, event ≠ .close ∧ event ≠ .leave

/-- No final tick is given up. -/
def Patient (forwarding : Forwarding) (events : List ForwardingEvent) : Prop :=
  ∀ early late, events = early ++ .resume :: late → (forwarding.run early).givesUp = false

/-- The receiver is there, and ticks are still sent to it. -/
structure IsHeard (forwarding : Forwarding) : Prop where
  listening : forwarding.forwarder.listening = true
  isOpen : forwarding.channel.isOpen = true

theorem exists_settles_of_resume (forwarding : Forwarding) :
    ∃ result, Settles forwarding.now forwarding.cancelled forwarding.forwarder forwarding.channel result ∧
      forwarding.resume = { forwarding with forwarder := result.1, channel := result.2 } :=
  ⟨_, settle_effect _ _ _ _, rfl⟩

theorem IsHeard.take (heard : forwarding.IsHeard) : forwarding.take.IsHeard := by
  cases idle : forwarding.forwarder.waiting with
  | some final =>
      rw [take_of_waiting idle]
      exact heard
  | none =>
      cases next : forwarding.forwarder.pending with
      | nil =>
          rw [take_of_done next]
          exact heard
      | cons record others =>
          cases marked : record.progressMark? forwarding.forwarder.total with
          | none =>
              rw [take_of_unmarked idle next marked]
              exact ⟨heard.listening, heard.isOpen⟩
          | some found =>
              obtain ⟨result, marks, taken⟩ := exists_marks_of_take idle next marked
              rw [taken]
              cases marks with
              | unheard => exact ⟨heard.listening, heard.isOpen⟩
              | closed shut => exact absurd heard.isOpen (Bool.eq_false_iff.mp shut)
              | sent => exact ⟨heard.listening, heard.isOpen⟩
              | dropped => exact ⟨heard.listening, heard.isOpen⟩
              | waits => exact ⟨heard.listening, heard.isOpen⟩

theorem IsHeard.resume (heard : forwarding.IsHeard) (patient : forwarding.givesUp = false) :
    forwarding.resume.IsHeard := by
  obtain ⟨result, settles, resumed⟩ := exists_settles_of_resume forwarding
  rw [resumed]
  cases settles with
  | idle => exact heard
  | closed shut => exact absurd heard.isOpen (Bool.eq_false_iff.mp shut)
  | sent => exact ⟨heard.listening, heard.isOpen⟩
  | givenUp waiting isOpen full expired =>
      have vain : forwarding.givesUp = true := by simp [givesUp, waiting, isOpen, full, expired]
      rw [vain] at patient
      cases patient
  | waits => exact heard

theorem IsHeard.happen (heard : forwarding.IsHeard) (stays : event ≠ .close ∧ event ≠ .leave)
    (patient : event = .resume → forwarding.givesUp = false) : (forwarding.happen event).IsHeard := by
  cases event with
  | take => exact heard.take
  | resume => exact heard.resume (patient rfl)
  | read => exact ⟨heard.listening, heard.isOpen⟩
  | close => exact absurd rfl stays.1
  | leave => exact absurd rfl stays.2
  | wait => exact ⟨heard.listening, heard.isOpen⟩
  | cancel => exact ⟨heard.listening, heard.isOpen⟩

theorem Patient.of_cons (patient : forwarding.Patient (event :: events)) :
    (event = .resume → forwarding.givesUp = false) ∧ (forwarding.happen event).Patient events := by
  constructor
  · rintro rfl
    exact patient [] events rfl
  · rintro early late rfl
    exact patient (event :: early) late rfl

theorem IsHeard.run (heard : forwarding.IsHeard) (stays : StaysOpen events)
    (patient : forwarding.Patient events) : (forwarding.run events).IsHeard := by
  induction events generalizing forwarding with
  | nil => exact heard
  | cons event events inductionHypothesis =>
      obtain ⟨first, later⟩ := List.forall_mem_cons.mp stays
      obtain ⟨now, further⟩ := patient.of_cons
      rw [run_cons]
      exact inductionHypothesis (heard.happen first now) later further

/-! ### Final ticks -/

/-- A tick arrived behind some of those that were due before it, and nothing has come since that was not
due since. -/
def Landed (total : Nat) (records : List LogRecord) (base : List BackupProgress) (tick : BackupProgress)
    (forwarding : Forwarding) : Prop :=
  ∃ front handled, front <+ base ∧
    Since total records (base ++ [tick]) (front ++ [tick]) handled forwarding

theorem Landed.run (landed : Landed total records base tick forwarding) (stays : StaysOpen events) :
    Landed total records base tick (forwarding.run events) := by
  obtain ⟨front, handled, ordered, since⟩ := landed
  obtain ⟨others, later⟩ := since.run (.inl fun listed => (stays _ listed).2 rfl)
  exact ⟨front, others, ordered, later⟩

theorem Since.landed (since : Since total records [] [] handled forwarding)
    (due : dueTicks total handled = base ++ [tick]) (idle : forwarding.forwarder.waiting = none)
    (arrives : forwarding.arrived = front ++ [tick]) : Landed total records base tick forwarding := by
  have awaited : forwarding.awaited = [] := by rw [awaited, idle, Option.map_none, Option.toList_none]
  obtain ⟨later, fresh, same, came, ordered⟩ := since.came
  rw [List.nil_append] at same came
  rw [← same, ← came, awaited, List.append_nil, arrives, due] at ordered
  refine ⟨front, handled, (List.append_sublist_append_right _).mp ordered, ?_⟩
  refine ⟨since.split, since.sameTotal, since.processed, [], [], ?_, ?_, ?_⟩
  · rw [due, List.append_nil]
  · rw [arrives, List.append_nil]
  · rw [awaited]
    exact .slnil

structure Waits (total : Nat) (records : List LogRecord) (base : List BackupProgress)
    (handled : List LogRecord) (final : FinalTick) (forwarding : Forwarding) : Prop where
  since : Since total records [] [] handled forwarding
  due : dueTicks total handled = base ++ [final.tick]
  waiting : forwarding.forwarder.waiting = some final
  isOpen : forwarding.channel.isOpen = true

/-- With room, a final tick that waits is sent when the forwarding goes on. -/
theorem Waits.landed_of_resume (waits : Waits total records base handled final forwarding)
    (room : forwarding.channel.hasRoom = true) :
    Landed total records base final.tick (forwarding.happen .resume) := by
  obtain ⟨since, due, waiting, isOpen⟩ := waits
  have settled := since.resume
  obtain ⟨result, settles, resumed⟩ := exists_settles_of_resume forwarding
  have same : forwarding.happen .resume = forwarding.resume := rfl
  rw [same]
  rw [resumed] at settled ⊢
  cases settles with
  | idle none => cases waiting.symm.trans none
  | closed shut => exact absurd isOpen (Bool.eq_false_iff.mp shut)
  | sent found =>
      obtain rfl := Option.some.inj (found.symm.trans waiting)
      exact settled.landed due rfl (List.append_assoc ..).symm
  | givenUp _ _ full => exact absurd room (Bool.eq_false_iff.mp full)
  | waits _ _ full => exact absurd room (Bool.eq_false_iff.mp full)

theorem stalled_of_full (waiting : forwarding.forwarder.waiting = some final)
    (isOpen : forwarding.channel.isOpen = true) (full : forwarding.channel.hasRoom = false)
    (patient : forwarding.givesUp = false) : forwarding.Stalled final := by
  simp only [givesUp, waiting, isOpen, full, Bool.not_false, Bool.and_self, Bool.true_and,
    Bool.or_eq_false_iff, decide_eq_false_iff_not, Nat.not_le] at patient
  exact ⟨waiting, isOpen, full, patient.1, patient.2⟩

/-- A final tick that waits goes on waiting, or it is sent. -/
theorem Waits.happen (waits : Waits total records base handled final forwarding)
    (stays : event ≠ .close ∧ event ≠ .leave)
    (patient : event = .resume → forwarding.givesUp = false) :
    Waits total records base handled final (forwarding.happen event) ∧
        (forwarding.channel.hasRoom = true → (forwarding.happen event).channel.hasRoom = true) ∨
      Landed total records base final.tick (forwarding.happen event) := by
  obtain ⟨since, due, waiting, isOpen⟩ := waits
  cases event with
  | take =>
      left
      have same : forwarding.happen .take = forwarding := take_of_waiting waiting
      rw [same]
      exact ⟨⟨since, due, waiting, isOpen⟩, id⟩
  | resume =>
      cases room : forwarding.channel.hasRoom with
      | true => exact .inr (Waits.landed_of_resume ⟨since, due, waiting, isOpen⟩ room)
      | false =>
          left
          have same : forwarding.happen .resume = forwarding :=
            (stalled_of_full waiting isOpen room (patient rfl)).resume
          rw [same]
          exact ⟨⟨since, due, waiting, isOpen⟩, nofun⟩
  | read => exact .inl ⟨⟨since.unmoved rfl arrived_read, due, waiting, isOpen⟩, hasRoom_read⟩
  | close => exact absurd rfl stays.1
  | leave => exact absurd rfl stays.2
  | wait => exact .inl ⟨⟨since.unmoved rfl rfl, due, waiting, isOpen⟩, id⟩
  | cancel => exact .inl ⟨⟨since.unmoved rfl rfl, due, waiting, isOpen⟩, id⟩

theorem now_le_happen (forwarding : Forwarding) (event : ForwardingEvent) :
    forwarding.now ≤ (forwarding.happen event).now := by
  cases event with
  | wait milliseconds => exact Nat.le_add_right _ _
  | _ => exact Nat.le_refl _

theorem now_le_run (forwarding : Forwarding) (events : List ForwardingEvent) :
    forwarding.now ≤ (forwarding.run events).now := by
  induction events generalizing forwarding with
  | nil => exact Nat.le_refl _
  | cons event events inductionHypothesis =>
      exact (now_le_happen forwarding event).trans (inductionHypothesis _)

theorem cancelled_happen (cancelled : forwarding.cancelled = true) :
    (forwarding.happen event).cancelled = true := by
  cases event with
  | cancel => rfl
  | _ => exact cancelled

theorem cancelled_run (cancelled : forwarding.cancelled = true) :
    (forwarding.run events).cancelled = true := by
  induction events generalizing forwarding with
  | nil => exact cancelled
  | cons event events inductionHypothesis => exact inductionHypothesis (cancelled_happen cancelled)

theorem Waits.givesUp_of_early (waits : Waits total records base handled final forwarding)
    (early : forwarding.now < final.deadline) (uncancelled : forwarding.cancelled = false) :
    forwarding.givesUp = false := by
  simp [givesUp, waits.waiting, early, uncancelled]

/-- Up to a time at which the wait is not over and the backup not cancelled, a final tick is not given up. -/
theorem Waits.run (waits : Waits total records base handled final forwarding) (stays : StaysOpen events)
    (early : (forwarding.run events).now < final.deadline)
    (uncancelled : (forwarding.run events).cancelled = false) :
    Waits total records base handled final (forwarding.run events) ∨
      Landed total records base final.tick (forwarding.run events) := by
  induction events generalizing forwarding with
  | nil => exact .inl waits
  | cons event events inductionHypothesis =>
      obtain ⟨first, later⟩ := List.forall_mem_cons.mp stays
      have now : forwarding.now < final.deadline := (now_le_run forwarding _).trans_lt early
      have free : forwarding.cancelled = false := by
        apply Bool.eq_false_iff.mpr
        intro cancelled
        rw [cancelled_run cancelled] at uncancelled
        cases uncancelled
      rw [run_cons] at early uncancelled ⊢
      rcases waits.happen first fun _ => waits.givesUp_of_early now free with ⟨still, -⟩ | landed
      · exact inductionHypothesis still later early uncancelled
      · exact .inr (landed.run later)

/-- There is room in the queue, before a time and with the backup not cancelled. -/
structure HasRoomBefore (deadline : Nat) (forwarding : Forwarding) : Prop where
  room : forwarding.channel.hasRoom = true
  early : forwarding.now < deadline
  uncancelled : forwarding.cancelled = false

/-- The tick of a finished archive has its chance.  No such tick was given up before it, and there is room for
it, at once or after some more events and in time. -/
structure HasChance (total : Nat) (records handled : List LogRecord) (record : LogRecord)
    (begun : Forwarding) (before between : List ForwardingEvent) : Prop where
  next : handled ++ (begun.run before).forwarder.pending = records ∧
    (begun.run before).forwarder.pending.head? = some record
  finished : record.progressMark? total = some .finished
  idle : (begun.run before).forwarder.waiting = none
  patient : begun.Patient before
  room : (begun.run before).channel.hasRoom = true ∨
    (begun.run (before ++ .take :: between)).HasRoomBefore ((begun.run before).now + finalTickWait)

/-- The tick at a position of those that were due has arrived, behind some that were due before it and ahead
of some that were due after it. -/
def Arrives (due : List BackupProgress) (position : Nat) (arrived : List BackupProgress) : Prop :=
  ∃ before tick after, due[position]? = some tick ∧ arrived = before ++ tick :: after ∧
    before <+ due.take position ∧ after <+ due.drop (position + 1)

theorem Landed.arrives (landed : Landed total records base tick forwarding) :
    Arrives (dueTicks total records) base.length forwarding.arrived := by
  obtain ⟨front, handled, ordered, since⟩ := landed
  obtain ⟨later, fresh, due, arrived, tracked⟩ := since.came
  obtain ⟨rest, whole⟩ := dueTicks_grows total handled forwarding.forwarder.pending
  rw [since.split, due, List.append_assoc, List.append_assoc, List.singleton_append] at whole
  rw [List.append_assoc, List.singleton_append] at arrived
  refine ⟨front, tick, fresh, ?_, arrived, ?_, ?_⟩
  · simp [← whole]
  · simpa [← whole] using ordered
  · have fresh : fresh <+ later := (List.sublist_append_left _ _).trans tracked
    have rest : later <+ later ++ rest := List.sublist_append_left _ _
    have behind : base.drop (base.length + 1) = [] := List.drop_eq_nil_of_le (Nat.le_succ _)
    simpa [← whole, List.drop_append, behind] using fresh.trans rest

structure Delivers (total capacity : Nat) (records : List LogRecord) (events : List ForwardingEvent)
    (forwarding : Forwarding) : Prop where
  ordered : forwarding.received <+ dueTicks total records
  sameTotal : ∀ tick ∈ forwarding.received, tick.totalFiles = total
  rising : forwarding.received.Pairwise (·.processedFiles ≤ ·.processedFiles)
  final : ∀ before between after handled record,
    events = before ++ .take :: between ++ after → .resume ∈ after → StaysOpen events →
      HasChance total records handled record (start total capacity records) before between →
        Arrives (dueTicks total records) (dueTicks total handled).length forwarding.arrived
  readable : (forwarding.run (List.replicate forwarding.channel.held.length .read)).received =
    forwarding.arrived

end Forwarding

end BackupClient
