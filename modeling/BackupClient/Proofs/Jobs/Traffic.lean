import BackupClient.Proofs.Jobs.Tokens

/-!
Jobs that are started, go on and are cancelled in any order.

A call that cancels by name first looks a token up and fires it later, and in between everything may
happen.  The main result says that the token belongs to the one job that held the operation at the look,
and that no other job is touched when it is fired.
-/

namespace BackupClient

namespace JobService

variable {service next : JobService} {number : Nat}

def fresh (client : Client) (scene : Scene) (clock : Clock) (outcomes : OutcomeChannel) :
    JobService where
  client := client
  arbiter := .idle
  tokens := []
  tasks := []
  outcomes := outcomes
  scene := scene
  clock := clock

theorem fresh_sound (client : Client) (scene : Scene) (clock : Clock) (outcomes : OutcomeChannel) :
    (fresh client scene clock outcomes).Sound where
  coherent := Arbiter.idle_coherent
  held_iff := by simp [fresh, Holds, standing?]
  single := by simp [fresh, Holds, standing?]
  listed_iff := by simp [fresh, standing?]

/-- In both records and in all jobs nothing differs but that the token of one job is cancelled. -/
structure CancelsOnly (service : JobService) (number : Nat) (next : JobService) : Prop where
  arbiter : next.arbiter = service.arbiter
  tokens : next.tokens = service.tokens
  others : ∀ other, other ≠ number → next.tasks[other]? = service.tasks[other]?
  cancelled : next.tasks[number]? =
    service.tasks[number]?.map fun task => { task with cancelled := true }

theorem cancelTask_cancelsOnly (service : JobService) (number : Nat) :
    service.CancelsOnly number (service.cancelTask number) := by
  unfold cancelTask
  cases found : service.tasks[number]? with
  | none => exact ⟨rfl, rfl, fun _ _ => rfl, by simp [found]⟩
  | some task =>
      obtain ⟨inside, -⟩ := List.getElem?_eq_some_iff.mp found
      refine ⟨rfl, rfl, fun other different => ?_, ?_⟩
      · exact List.getElem?_set_ne (Ne.symm different)
      · rw [found]
        exact List.getElem?_set_self inside

theorem cancelTask_say_cancelsOnly (service : JobService) (notices : List Notice) (number : Nat) :
    service.CancelsOnly number ((service.say notices).cancelTask number) :=
  have only := cancelTask_cancelsOnly (service.say notices) number
  ⟨only.arbiter, only.tokens, only.others, only.cancelled⟩

theorem CancelsOnly.change (only : service.CancelsOnly number next) :
    service.Change number next := by
  refine .kept only.arbiter only.tokens fun other => ?_
  unfold standing?
  by_cases same : other = number
  · subst same
    rw [only.cancelled, Option.map_map]
    rfl
  · rw [only.others other same]

end JobService

/-- A service, and the calls that cancel by name, the oldest first: whom each names and the number of the
job whose token it found. -/
structure JobTraffic where
  service : JobService
  calls : List (Operation × Option Nat)

/-- What may come next: one step between two locks, or a change of all that surrounds the jobs. -/
inductive JobEvent where
  | accept (job : Job) (channel : ProgressChannel)
  | step (number : Nat)
  | look (operation : Operation)
  | fire (call : Nat)
  | cancelHandle (number : Nat)
  | follow (number : Nat) (channel : ProgressChannel)
  | surround (scene : Scene) (clock : Clock) (outcomes : OutcomeChannel)

namespace JobTraffic

def step (traffic : JobTraffic) : JobEvent → JobTraffic
  | .accept job channel =>
      match traffic.service.accept job channel with
      | .ok (_, service) => { traffic with service := service }
      | .error _ => traffic
  | .step number => { traffic with service := traffic.service.stepTask number }
  | .look operation =>
      { traffic with calls := traffic.calls ++ [(operation, traffic.service.token? operation)] }
  | .fire call =>
      match traffic.calls[call]? with
      | some (operation, some number) =>
          { traffic with
            service := (traffic.service.say [operation.cancellingNotice]).cancelTask number }
      | _ => traffic
  | .cancelHandle number => { traffic with service := traffic.service.cancelTask number }
  | .follow number channel =>
      match traffic.service.tasks[number]? with
      | some task =>
          { traffic with service := traffic.service.setTask number { task with channel := channel } }
      | none => traffic
  | .surround scene clock outcomes =>
      { traffic with
        service :=
          { traffic.service with scene := scene, clock := clock, outcomes := outcomes } }

def run (traffic : JobTraffic) (events : List JobEvent) : JobTraffic :=
  events.foldl step traffic

theorem start_eq_accept_step {traffic : JobTraffic} {job : Job} {channel : ProgressChannel}
    {number : Nat} {service : JobService}
    (started : traffic.service.start job channel = .ok (number, service)) :
    ((traffic.step (.accept job channel)).step (.step number)).service = service := by
  obtain ⟨next, accepted, rfl⟩ := JobService.start_eq_ok_iff.mp started
  simp only [step, accepted]

theorem cancel_eq_look_fire (traffic : JobTraffic) (operation : Operation) :
    traffic.service.cancel operation =
      (traffic.service.token? operation,
        ((traffic.step (.look operation)).step (.fire traffic.calls.length)).service) := by
  unfold JobService.cancel
  cases listed : traffic.service.token? operation with
  | none => simp [step, listed]
  | some number => simp [step, listed]

structure Orderly (traffic : JobTraffic) : Prop where
  /-- The work of at most one job on a repository has not ended. -/
  body : ∀ first second one two,
    traffic.service.Unfinished first one → traffic.service.Unfinished second two →
      one.id.repository = two.id.repository → first = second
  /-- A token is listed from the first to the second change that its job makes. -/
  listed : ∀ operation number,
    (operation, number) ∈ traffic.service.tokens ↔
      traffic.service.standing? number = some (operation, .listed)
  /-- The token that is listed for an operation is that of the one job that holds it. -/
  owner : ∀ operation number, (operation, number) ∈ traffic.service.tokens →
    traffic.service.arbiter.isRunning operation = true ∧
      traffic.service.arbiter.holder? operation.id.repository = some operation ∧
      ∀ other, traffic.service.Holds other operation ↔ other = number
  /-- A call that cancels by name finds just the token that is listed. -/
  found : ∀ operation number,
    (traffic.step (.look operation)).calls[traffic.calls.length]? = some (operation, some number) ↔
      (operation, number) ∈ traffic.service.tokens
  /-- Whatever comes between the look and the firing, the job that was found is cancelled alone. -/
  fired : ∀ operation number later, (operation, number) ∈ traffic.service.tokens →
    let after := (traffic.step (.look operation)).run later
    after.service.CancelsOnly number (after.step (.fire traffic.calls.length)).service
  /-- A call that finds no token cancels nothing. -/
  missed : ∀ operation later, (∀ number, (operation, number) ∉ traffic.service.tokens) →
    let after := (traffic.step (.look operation)).run later
    after.step (.fire traffic.calls.length) = after
  /-- Only the job of a token removes it. -/
  kept : ∀ event operation number, (operation, number) ∈ traffic.service.tokens →
    event ≠ .step number → (operation, number) ∈ (traffic.step event).service.tokens
  /-- A handle cancels its own job alone. -/
  handle : ∀ number,
    traffic.service.CancelsOnly number (traffic.step (.cancelHandle number)).service
  /-- The service starts a job and cancels one by name in two of these steps. -/
  starts : ∀ job channel number service, traffic.service.start job channel = .ok (number, service) →
    ((traffic.step (.accept job channel)).step (.step number)).service = service
  cancels : ∀ operation, traffic.service.cancel operation =
    (traffic.service.token? operation,
      ((traffic.step (.look operation)).step (.fire traffic.calls.length)).service)

variable {traffic : JobTraffic}

/-! ### One step -/

/-- The list of tokens is changed by steps of jobs only. -/
theorem step_change (traffic : JobTraffic) (event : JobEvent) :
    ∃ number, traffic.service.Change number (traffic.step event).service ∧
      (event = .step number ∨ (traffic.step event).service.tokens = traffic.service.tokens) := by
  cases event with
  | accept job channel =>
      simp only [step]
      cases accepted : traffic.service.accept job channel with
      | error refusal => exact ⟨0, .kept rfl rfl fun _ => rfl, .inr rfl⟩
      | ok answer =>
          obtain ⟨number, service⟩ := answer
          obtain ⟨-, arbiter, -, -, rfl⟩ := JobService.accept_eq_ok_iff.mp accepted
          exact ⟨number, JobService.accept_change accepted, .inr rfl⟩
  | step number => exact ⟨number, traffic.service.stepTask_change number, .inl rfl⟩
  | look operation => exact ⟨0, .kept rfl rfl fun _ => rfl, .inr rfl⟩
  | fire call =>
      simp only [step]
      split
      case h_1 operation number found =>
          have only :=
            traffic.service.cancelTask_say_cancelsOnly [operation.cancellingNotice] number
          exact ⟨number, only.change, .inr only.tokens⟩
      case h_2 => exact ⟨0, .kept rfl rfl fun _ => rfl, .inr rfl⟩
  | cancelHandle number =>
      have only := traffic.service.cancelTask_cancelsOnly number
      exact ⟨number, only.change, .inr only.tokens⟩
  | follow number channel =>
      simp only [step]
      cases found : traffic.service.tasks[number]? with
      | none => exact ⟨number, .kept rfl rfl fun _ => rfl, .inr rfl⟩
      | some task => exact ⟨number, .of_set found rfl rfl rfl rfl rfl, .inr rfl⟩
  | surround scene clock outcomes => exact ⟨0, .kept rfl rfl fun _ => rfl, .inr rfl⟩

/-! ### Many steps -/

theorem step_sound (sound : traffic.service.Sound) (event : JobEvent) :
    (traffic.step event).service.Sound := by
  obtain ⟨number, change, -⟩ := traffic.step_change event
  exact sound.change change

theorem run_sound (events : List JobEvent) (sound : traffic.service.Sound) :
    (traffic.run events).service.Sound := by
  induction events generalizing traffic with
  | nil => exact sound
  | cons event events inductionHypothesis => exact inductionHypothesis (step_sound sound event)

theorem step_calls (traffic : JobTraffic) (event : JobEvent) :
    traffic.calls <+: (traffic.step event).calls := by
  cases event with
  | look operation => exact List.prefix_append _ _
  | accept job channel =>
      simp only [step]
      split <;> exact List.prefix_refl _
  | fire call =>
      simp only [step]
      split <;> exact List.prefix_refl _
  | follow number channel =>
      simp only [step]
      split <;> exact List.prefix_refl _
  | step number => exact List.prefix_refl _
  | cancelHandle number => exact List.prefix_refl _
  | surround scene clock outcomes => exact List.prefix_refl _

theorem run_calls (events : List JobEvent) (traffic : JobTraffic) :
    traffic.calls <+: (traffic.run events).calls := by
  induction events generalizing traffic with
  | nil => exact List.prefix_refl _
  | cons event events inductionHypothesis =>
      exact (traffic.step_calls event).trans (inductionHypothesis (traffic.step event))

theorem look_calls (traffic : JobTraffic) (operation : Operation) :
    (traffic.step (.look operation)).calls[traffic.calls.length]? =
      some (operation, traffic.service.token? operation) :=
  List.getElem?_concat_length

/-- A call keeps what it found, whatever comes later. -/
theorem run_look_calls (traffic : JobTraffic) (operation : Operation) (later : List JobEvent) :
    ((traffic.step (.look operation)).run later).calls[traffic.calls.length]? =
      some (operation, traffic.service.token? operation) := by
  have looked := traffic.look_calls operation
  obtain ⟨inside, -⟩ := List.getElem?_eq_some_iff.mp looked
  obtain ⟨newer, extended⟩ := run_calls later (traffic.step (.look operation))
  rw [← extended, List.getElem?_append_left inside, looked]

/-- In every run of any number of jobs and of calls that cancel them, at most one job works on a
repository, every token that is listed is that of the job that holds its operation, and a call cancels the
job that it found and no other. -/
theorem run_orderly (client : Client) (scene : Scene) (clock : Clock) (outcomes : OutcomeChannel)
    (events : List JobEvent) :
    (run ⟨.fresh client scene clock outcomes, []⟩ events).Orderly := by
  let fresh : JobTraffic := ⟨.fresh client scene clock outcomes, []⟩
  have sound : (fresh.run events).service.Sound :=
    run_sound events (JobService.fresh_sound client scene clock outcomes)
  change (fresh.run events).Orderly
  generalize fresh.run events = traffic at sound
  constructor
  case body =>
      intro first second one two firstBody secondBody same
      exact sound.single_body firstBody secondBody same
  case listed => exact sound.listed_iff
  case owner =>
      intro operation number entry
      have held := sound.held_of_holds (sound.holds_of_listed entry)
      exact ⟨(sound.coherent.running_iff operation).mpr held, held, sound.holds_iff_of_listed entry⟩
  case found =>
      intro operation number
      rw [look_calls, ← sound.token?_eq_some_iff]
      simp
  case fired =>
      intro operation number later entry after
      have call : after.calls[traffic.calls.length]? = some (operation, some number) := by
        rw [traffic.run_look_calls, sound.token?_eq_some_iff.mpr entry]
      simp only [step, call]
      exact after.service.cancelTask_say_cancelsOnly [operation.cancellingNotice] number
  case missed =>
      intro operation later unlisted after
      have nothing : traffic.service.token? operation = none :=
        Option.eq_none_iff_forall_ne_some.mpr fun number found =>
          unlisted number (sound.token?_eq_some_iff.mp found)
      have call : after.calls[traffic.calls.length]? = some (operation, none) := by
        rw [traffic.run_look_calls, nothing]
      simp only [step, call]
  case kept =>
      -- A step of a job changes the tokens of that job alone, and no other event changes any.
      intro event operation number entry foreign
      obtain ⟨changed, change, rfl | same⟩ := traffic.step_change event
      · exact sound.token_kept change entry fun same => foreign (same ▸ rfl)
      · rwa [same]
  case handle => exact traffic.service.cancelTask_cancelsOnly
  case starts =>
      intro job channel number service started
      exact start_eq_accept_step started
  case cancels => exact traffic.cancel_eq_look_fire

end JobTraffic

end BackupClient
