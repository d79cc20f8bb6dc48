import BackupClient.Auth.Poller
import BackupClient.Auth.Registry
import BackupClient.Configuration

/-!
Watching sessions until they finish.

A watch goes step by step, one step for each time that it looks at something shared or waits.  Any number
of watches may be under way, on the same session too, and their steps may come in any order.  Tokens are
stored, and an event is sent, only by the watch that finished the session.
-/

namespace BackupClient

inductive AuthEvent where
  | authenticated (id : String)
  | notAuthenticated (id : String) (status : SessionStatus)
  deriving DecidableEq, Repr

def AuthEvent.ofStatus (id : String) : SessionStatus → AuthEvent
  | .authenticated => .authenticated id
  | status => .notAuthenticated id status

def tokenStoreMessage (reason : String) : String :=
  "failed to store tokens: " ++ reason

inductive WatchStage where
  | reading
  | measuring (session : AuthSession Instant)
  | polling (rules : PollRules) (poller : Poller AuthStatusUpdate)
  | completing (status : SessionStatus) (tokens : Option TokenPair)
  | recalling
  | storing (tokens : TokenPair)
  | withdrawing
  | announcing (status : SessionStatus)
  | returned (status : SessionStatus)
  deriving DecidableEq

/-- What a watch finds at a step: the wall clock, the moment in milliseconds, whether it is cancelled,
what the source tells, why the token store refuses if it does, and whether anybody listens to events. -/
structure WatchInput where
  clock : Instant
  now : Nat
  cancelled : Bool
  event : Option (SourceEvent AuthStatusUpdate)
  refusal : Option String
  listening : Bool
  deriving DecidableEq

inductive WatchAct where
  | opens
  | stores (tokens : TokenPair) (refusal : Option String)
  | sends (event : AuthEvent)
  | tells (notice : Notice)
  deriving DecidableEq

/-- One step of a watch, and whether it took what the source told. -/
structure WatchStep where
  stage : WatchStage
  registry : Registry
  took : Bool
  acts : List WatchAct
  deriving DecidableEq

def AuthStatusUpdate.classify (update : AuthStatusUpdate) : Option AuthStatusUpdate :=
  if update.status.isTerminal then some update else none

namespace WatchStage

def notice (level : NoticeLevel) (message id : String) (fields : List (String × Json)) : WatchAct :=
  .tells ⟨level, message, ("session_id", .str id) :: fields⟩

def verdict : PollOutcome AuthStatusUpdate → SessionStatus × Option TokenPair
  | .terminal ⟨.authenticated, some tokens⟩ => (.authenticated, some tokens)
  | .terminal ⟨.authenticated, none⟩ => (.cancelled, none)
  | .terminal ⟨status, _⟩ => (status, none)
  | .exhausted => (.expired, none)
  | .deadline => (.expired, none)
  | .cancelled => (.cancelled, none)

def verdictActs (id : String) : PollOutcome AuthStatusUpdate → List WatchAct
  | .terminal ⟨.authenticated, none⟩ =>
      [notice .error "session authenticated without tokens" id []]
  | _ => []

def ofPollAct : PollAct AuthStatusUpdate → Option WatchAct
  | .opens => some .opens
  | .reads _ => none
  | .tells notice => some (.tells notice)

/-- The rules of a session's poller, which stops when the time of the session is over. -/
def rules (configuration : AuthConfiguration) (session : AuthSession Instant) (input : WatchInput) :
    PollRules where
  retryInterval := configuration.retryInterval
  maxRetries := configuration.maxRetries.toUInt32
  deadline := input.now + (session.remaining input.clock).milliseconds

def read (id : String) (input : WatchInput) (registry : Registry) : WatchStep :=
  match registry.get? input.clock id with
  | none =>
      ⟨.returned .expired, registry, false, [notice .warn "watching unknown auth session" id []]⟩
  | some session =>
      let stage :=
        if session.status = .pending then .measuring session
        else .completing session.status none
      ⟨stage, registry, false, []⟩

def poll? (id : String) (input : WatchInput) (registry : Registry) (rules : PollRules)
    (poller : Poller AuthStatusUpdate) : Option WatchStep :=
  match poller.outcome? with
  | some outcome =>
      let (status, tokens) := verdict outcome
      some ⟨.completing status tokens, registry, false, verdictActs id outcome⟩
  | none =>
      (poller.step? rules AuthStatusUpdate.classify input.now input.cancelled input.event).map
        fun step => ⟨.polling rules step.poller, registry, step.took, step.acts.filterMap ofPollAct⟩

def complete (id : String) (input : WatchInput) (registry : Registry) (status : SessionStatus)
    (tokens : Option TokenPair) : WatchStep :=
  let (recorded, registry) := registry.complete input.clock id status tokens
  let stage :=
    match recorded, tokens with
    | none, _ => .recalling
    | some .authenticated, some tokens => .storing tokens
    | some status, _ => .announcing status
  ⟨stage, registry, false, []⟩

def lookAgain (id : String) (input : WatchInput) (registry : Registry) : WatchStep :=
  let status := ((registry.get? input.clock id).map (·.status)).getD .expired
  ⟨.returned status, registry, false, []⟩

def store (id : String) (input : WatchInput) (registry : Registry) (tokens : TokenPair) :
    WatchStep :=
  match input.refusal with
  | none => ⟨.announcing .authenticated, registry, false, [.stores tokens none]⟩
  | some reason =>
      ⟨.withdrawing, registry, false,
        [.stores tokens (some reason),
          notice .error "failed to store tokens" id [("error", .str (tokenStoreMessage reason))]]⟩

def announce (id : String) (input : WatchInput) (registry : Registry) (status : SessionStatus) :
    WatchStep :=
  let finished := notice .info "auth session finished" id [("status", .str status.display)]
  let sent : WatchAct :=
    if input.listening then .sends (.ofStatus id status)
    else notice .warn "auth event receiver dropped" id []
  ⟨.returned status, registry, false, [finished, sent]⟩

/-- One step, unless the watch has to wait or has returned. -/
def step? (configuration : AuthConfiguration) (id : String) (input : WatchInput)
    (registry : Registry) : WatchStage → Option WatchStep
  | .reading => some (read id input registry)
  | .measuring session =>
      some ⟨.polling (rules configuration session input) .start, registry, false, []⟩
  | .polling rules poller => poll? id input registry rules poller
  | .completing status tokens => some (complete id input registry status tokens)
  | .recalling => some (lookAgain id input registry)
  | .storing tokens => some (store id input registry tokens)
  | .withdrawing => some ⟨.announcing .cancelled, registry.revoke id, false, []⟩
  | .announcing status => some (announce id input registry status)
  | .returned _ => none

def returned? : WatchStage → Option SessionStatus
  | .returned status => some status
  | _ => none

end WatchStage

/-- A watch: the id of its session and how far it has come. -/
structure Watch where
  id : String
  stage : WatchStage
  deriving DecidableEq

/-- Watches over a registry, and what they have done, the latest first, each with the number of its
watch. -/
structure Monitor where
  configuration : AuthConfiguration
  registry : Registry
  watches : List Watch
  acts : List (Nat × WatchAct)
  deriving DecidableEq

namespace Monitor

def idle (configuration : AuthConfiguration) : Monitor where
  configuration := configuration
  registry := .empty configuration.sessionLifetime configuration.collectionDelay
  watches := []
  acts := []

def watch (monitor : Monitor) (id : String) : Monitor :=
  { monitor with watches := monitor.watches ++ [⟨id, .reading⟩] }

def step? (monitor : Monitor) (number : Nat) (input : WatchInput) : Option WatchStep :=
  monitor.watches[number]?.bind fun watch =>
    watch.stage.step? monitor.configuration watch.id input monitor.registry

def apply (monitor : Monitor) (number : Nat) (step : WatchStep) : Monitor :=
  { monitor with
    registry := step.registry
    watches := monitor.watches.modify number fun watch => { watch with stage := step.stage }
    acts := (step.acts.map fun act => (number, act)).reverse ++ monitor.acts }

def advance (monitor : Monitor) (number : Nat) (input : WatchInput) : Monitor :=
  match monitor.step? number input with
  | some step => monitor.apply number step
  | none => monitor

def withRegistry (monitor : Monitor) (registry : Registry) : Monitor :=
  { monitor with registry := registry }

end Monitor

end BackupClient
