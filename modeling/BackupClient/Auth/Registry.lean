import BackupClient.Auth.Session

/-!
The sessions that are known.

A session leaves the pending status once.  Sessions that ended, or that expired, are forgotten some time
later.
-/

namespace BackupClient

/-- The sessions by their ids, how long a session may take, and how long it is remembered. -/
structure Registry where
  lifetime : Duration
  collectionDelay : Duration
  sessions : List (String × AuthSession Instant)
  deriving DecidableEq

namespace Registry

def empty (lifetime collectionDelay : Duration) : Registry :=
  ⟨lifetime, collectionDelay, []⟩

def find? (registry : Registry) (id : String) : Option (AuthSession Instant) :=
  (registry.sessions.find? (·.1 = id)).map (·.2)

/-- Record a session under an id, in the place of an earlier one. -/
def put (registry : Registry) (id : String) (session : AuthSession Instant) : Registry :=
  { registry with sessions := (id, session) :: registry.sessions.filter (·.1 ≠ id) }

/-- Is a session forgotten by now?  That needs an end that lies far enough back, so that one whose
forgetting would be out of range is kept for ever. -/
def isForgotten (registry : Registry) (now : Instant) (session : AuthSession Instant) : Bool :=
  session.statusAt now ≠ .pending ∧
    ((session.finishedAt.getD session.expiresAt).shift? (.ofDuration registry.collectionDelay)).any
      (· ≤ now)

def sweep (registry : Registry) (now : Instant) : Nat × Registry :=
  let kept := registry.sessions.filter fun (_, session) => !registry.isForgotten now session
  (registry.sessions.length - kept.length, { registry with sessions := kept })

/-- Begin a session, in the place of an earlier one of the same id. -/
def begin (registry : Registry) (now : Instant) (id : String) : AuthSession Instant × Registry :=
  let session := AuthSession.start id now registry.lifetime
  (session, registry.put id session)

def create (registry : Registry) (now : Instant) (id : String) : AuthSession Instant × Registry :=
  (registry.sweep now).2.begin now id

def get? (registry : Registry) (now : Instant) (id : String) : Option (AuthSession Instant) :=
  (registry.find? id).map fun session => { session with status := session.statusAt now }

/-- Finish a session that is pending.  The answer is the status that is recorded: expired if the time of
the session is over, else the one that was asked for.  Tokens are kept with an authentication only. -/
def complete (registry : Registry) (now : Instant) (id : String) (status : SessionStatus)
    (tokens : Option TokenPair) : Option SessionStatus × Registry :=
  match registry.find? id with
  | none => (none, registry)
  | some session =>
      if status.isTerminal ∧ session.status = .pending then
        let recorded := if session.isExpired now then .expired else status
        let finished :=
          { session with
            status := recorded, finishedAt := some now
            tokens := if recorded = .authenticated then tokens else none }
        (some recorded, registry.put id finished)
      else (none, registry)

def revoke (registry : Registry) (id : String) : Registry :=
  match registry.find? id with
  | none => registry
  | some session => registry.put id { session with status := .cancelled, tokens := none }

def size (registry : Registry) : Nat :=
  registry.sessions.length

end Registry

end BackupClient
