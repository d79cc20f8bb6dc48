import BackupClient.Time.Shift
import BackupClient.Json.Decode

/-!
Sessions of an out-of-band login.

A session is pending when it is requested and takes one terminal status.  A pending session whose time is
over reads as expired before anything updates it.
-/

namespace BackupClient

inductive SessionStatus where
  | pending
  | authenticated
  | expired
  | cancelled
  deriving DecidableEq, Repr

namespace SessionStatus

def isTerminal (status : SessionStatus) : Bool :=
  status != .pending

def display : SessionStatus → String
  | .pending => "pending"
  | .authenticated => "authenticated"
  | .expired => "expired"
  | .cancelled => "cancelled"

def name : SessionStatus → String
  | .pending => "PENDING"
  | .authenticated => "AUTHENTICATED"
  | .expired => "EXPIRED"
  | .cancelled => "CANCELLED"

def ofName? (name : String) : Option SessionStatus :=
  [SessionStatus.pending, .authenticated, .expired, .cancelled].find? (·.name = name)

def ofJson? (value : Json) : Option SessionStatus :=
  (Json.decodeName value).bind ofName?

end SessionStatus

/-- The tokens that a login yields.  They are never printed. -/
structure TokenPair where
  access : String
  refresh : String
  deriving DecidableEq

namespace TokenPair

def redacted (_tokens : TokenPair) : String :=
  "TokenPair \x7b access_token: \"<redacted>\", refresh_token: \"<redacted>\" \x7d"

def toJson (tokens : TokenPair) : Json :=
  .obj [("accessToken", .str tokens.access), ("refreshToken", .str tokens.refresh)]

def ofJson? (value : Json) : Option TokenPair := do
  let fields ← value.fields? ["accessToken", "refreshToken"]
  let access ← fields.required "accessToken" Json.decodeString
  let refresh ← fields.required "refreshToken" Json.decodeString
  some ⟨access, refresh⟩

end TokenPair

structure AuthStatusUpdate where
  status : SessionStatus
  tokens : Option TokenPair
  deriving DecidableEq

namespace AuthStatusUpdate

def pending : AuthStatusUpdate :=
  ⟨.pending, none⟩

def toJson (update : AuthStatusUpdate) : Json :=
  .obj [("status", .str update.status.name),
    ("tokens", Json.ofOption TokenPair.toJson update.tokens)]

def ofJson? (value : Json) : Option AuthStatusUpdate := do
  let fields ← value.fields? ["status", "tokens"]
  let status ← fields.required "status" SessionStatus.ofJson?
  let tokens ← fields.withDefault "tokens" none (Json.decodeOption TokenPair.ofJson?)
  some ⟨status, tokens⟩

end AuthStatusUpdate

/-- A session with its times on some scale. -/
structure AuthSession (τ : Type) where
  id : String
  status : SessionStatus
  createdAt : τ
  expiresAt : τ
  finishedAt : Option τ
  tokens : Option TokenPair
  deriving DecidableEq

namespace AuthSession

variable {τ : Type} [TimeScale τ]

/-- A pending session.  One whose end is out of range ends at the last instant. -/
def start (id : String) (createdAt : τ) (lifetime : Duration) : AuthSession τ where
  id := id
  status := .pending
  createdAt := createdAt
  expiresAt := (TimeScale.shift? createdAt (.ofDuration lifetime)).getD TimeScale.last
  finishedAt := none
  tokens := none

/-- The time that is left, none once it is over. -/
def remaining (session : AuthSession τ) (now : τ) : Duration :=
  (TimeScale.shiftTo now session.expiresAt).toDuration?.getD Duration.zero

variable [DecidableLE τ]

def isExpired (session : AuthSession τ) (now : τ) : Bool :=
  session.expiresAt ≤ now

def statusAt (session : AuthSession τ) (now : τ) : SessionStatus :=
  if session.status = .pending ∧ session.isExpired now then .expired else session.status

end AuthSession

end BackupClient
