import BackupClient.Configuration
import BackupClient.Proofs.Json.Edits
import BackupClient.Proofs.Time.Span

/-!
Settings written and read again.

The document of a configuration gives the configuration back.  Without some of its members it gives the
one with the defaults in their places, and with a member of an unknown name, be it for the client or for
logins, it gives none.  The same holds of the texts of these documents.
-/

namespace BackupClient

open Json

variable {depth : Nat} {gone authGone : List String} {name : String} {value document : Json}

theorem Json.exactAt_ofSpan (duration : Duration) : ExactAt depth (ofSpan duration) :=
  exactAt_str _

theorem Json.decodeSpan_ofSpan (duration : Duration) : decodeSpan (ofSpan duration) = some duration := by
  rw [decodeSpan, ofSpan, decodeString, Option.bind_some, String.toList_ofList, Span.read?_write]

section Forms

attribute [local simp] decodeSpan_ofSpan Fields.withDefault_cons_of_ne exactAt_str exactAt_ofSpan

/-! ### Settings for logins -/

namespace AuthConfiguration

variable {configuration : AuthConfiguration}

def IsBounded (configuration : AuthConfiguration) : Prop :=
  configuration.maxRetries < Nat.pow 2 32

instance (configuration : AuthConfiguration) : Decidable configuration.IsBounded :=
  inferInstanceAs (Decidable (configuration.maxRetries < Nat.pow 2 32))

def defaulted (gone : List String) (configuration : AuthConfiguration) : AuthConfiguration where
  retryInterval := if "retry_interval" ∈ gone then standard.retryInterval else configuration.retryInterval
  maxRetries := if "max_retries" ∈ gone then standard.maxRetries else configuration.maxRetries
  sessionLifetime :=
    if "session_lifetime" ∈ gone then standard.sessionLifetime else configuration.sessionLifetime
  collectionDelay := if "gc_delay" ∈ gone then standard.collectionDelay else configuration.collectionDelay

theorem exactAt_toJson (bounded : configuration.IsBounded) (shallow : depth < depthLimit) :
    ExactAt depth configuration.toJson := by
  have retries : ExactAt (depth + 1) (ofNat configuration.maxRetries) := by
    apply exactAt_ofNat
    exact Nat.lt_trans bounded (by decide)
  exact exactAt_obj shallow (by simp [retries])

theorem ofJson?_without (bounded : configuration.IsBounded) :
    ofJson? (configuration.toJson.without gone) = some (configuration.defaulted gone) := by
  have retries := decodeNat_ofNat bounded
  rw [ofJson?, toJson, strictFields?_without (by simp [names]) (by simp)]
  simp only [Option.bind_eq_bind, Option.bind_some, Fields.withDefault_without]
  simp [retries, ← apply_ite some, defaulted]

theorem ofJson?_of_hasUnknown (unknown : HasUnknown names value) : ofJson? value = none := by
  rw [ofJson?, unknown.strictFields?]
  rfl

end AuthConfiguration

/-! ### Settings of the client -/

namespace Configuration

variable {configuration : Configuration}

def readText? (text : List Char) : Option Configuration :=
  (parse? text).bind ofJson?

/-- A document is decoded to a configuration or to none, and so is its text. -/
def Gives (document : Json) (result : Option Configuration) : Prop :=
  ofJson? document = result ∧ readText? (write document) = result

/-- The document of a configuration without the members of some names, and without those of some names among
the settings for logins. -/
def pruned (gone authGone : List String) (configuration : Configuration) : Json :=
  (configuration.toJson.changeMember "auth" (·.without authGone)).without gone

def defaulted (gone authGone : List String) (configuration : Configuration) : Configuration where
  binaryPath := if "binary_path" ∈ gone then standard.binaryPath else configuration.binaryPath
  mountBinaryPath :=
    if "mount_binary_path" ∈ gone then standard.mountBinaryPath else configuration.mountBinaryPath
  sshKeys := if "ssh_private_keys" ∈ gone then standard.sshKeys else configuration.sshKeys
  mountRoot := if "mount_root" ∈ gone then standard.mountRoot else configuration.mountRoot
  terminationGrace :=
    if "termination_grace" ∈ gone then standard.terminationGrace else configuration.terminationGrace
  auth := if "auth" ∈ gone then standard.auth else configuration.auth.defaulted authGone

theorem pruned_eq : configuration.pruned gone authGone =
    (Json.obj [("binary_path", .str configuration.binaryPath),
      ("mount_binary_path", ofOption .str configuration.mountBinaryPath),
      ("ssh_private_keys", ofList .str configuration.sshKeys),
      ("mount_root", ofOption .str configuration.mountRoot),
      ("termination_grace", ofSpan configuration.terminationGrace),
      ("auth", configuration.auth.toJson.without authGone)]).without gone := by
  simp [pruned, toJson, changeMember]

theorem ofJson?_pruned (bounded : configuration.auth.IsBounded) :
    ofJson? (configuration.pruned gone authGone) = some (configuration.defaulted gone authGone) := by
  have path (held : Option String) : decodeOption decodeString (ofOption .str held) = some held :=
    decodeOption_ofOption nofun fun _ _ => rfl
  have keys := decodeList_strings configuration.sshKeys
  have auth : AuthConfiguration.ofJson? (configuration.auth.toJson.without authGone) =
      some (configuration.auth.defaulted authGone) := AuthConfiguration.ofJson?_without bounded
  rw [ofJson?, read?, pruned_eq, strictFields?_without (by simp [names]) (by simp)]
  simp only [Option.bind_eq_bind, Option.bind_some, Fields.withDefault_without]
  simp [path, keys, auth, decodeString, ← apply_ite some, defaulted, standard]

theorem exactAt_pruned (bounded : configuration.auth.IsBounded) :
    ExactAt 0 (configuration.pruned gone authGone) := by
  have path (held : Option String) : ExactAt 1 (ofOption .str held) :=
    exactAt_ofOption fun value _ => exactAt_str value
  have keys : ExactAt 1 (ofList .str configuration.sshKeys) :=
    exactAt_ofList (by decide) fun value _ => exactAt_str value
  have auth : ExactAt 1 (configuration.auth.toJson.without authGone) :=
    (AuthConfiguration.exactAt_toJson bounded (by decide)).without
  rw [pruned_eq]
  apply ExactAt.without
  exact exactAt_obj (by decide) (by simp [path, keys, auth])

theorem gives_pruned (bounded : configuration.auth.IsBounded) :
    Gives (configuration.pruned gone authGone) (some (configuration.defaulted gone authGone)) := by
  have exact : ExactAt 0 (configuration.pruned gone authGone) := exactAt_pruned bounded
  refine ⟨ofJson?_pruned bounded, ?_⟩
  rw [readText?, exact.parse?_write, Option.bind_some, ofJson?_pruned bounded]

theorem pruned_nil : configuration.pruned [] [] = configuration.toJson := by
  simp [pruned_eq, toJson, AuthConfiguration.toJson, Json.without]

theorem defaulted_nil : configuration.defaulted [] [] = configuration := by
  simp [defaulted, AuthConfiguration.defaulted]

end Configuration

end Forms

/-! ### Unknown names -/

namespace Configuration

variable {configuration : Configuration} {members : List (String × Json)}

/-- An unknown name stands in the document, or among its settings for logins. -/
inductive IsForeign : Json → Prop where
  | client {document : Json} : HasUnknown names document → IsForeign document
  | auth {members : List (String × Json)} {auth : Json} : ("auth", auth) ∈ members →
      HasUnknown AuthConfiguration.names auth → IsForeign (.obj members)

theorem IsForeign.ofJson? (foreign : IsForeign document) : ofJson? document = none := by
  cases foreign with
  | client unknown =>
      rw [Configuration.ofJson?, read?, unknown.strictFields?]
      rfl
  | @auth members auth listed unknown =>
      rw [Configuration.ofJson?, read?]
      cases read : strictFields? names (.obj members) with
      | none => rfl
      | some fields =>
          have refused : fields.withDefault "auth" standard.auth AuthConfiguration.ofJson? = none := by
            rw [Fields.withDefault, find?_of_strictFields? read listed]
            exact AuthConfiguration.ofJson?_of_hasUnknown unknown
          simp only [Option.bind_eq_bind, Option.bind_some, refused, Option.bind_none,
            Option.bind_fun_none]

theorem IsForeign.exists_parse?_write (foreign : IsForeign document) :
    ∃ result, parse? (write document) = some result ∧ IsForeign result := by
  cases foreign with
  | client unknown =>
      have shallow : 0 < depthLimit := by decide
      obtain ⟨result, denotes, same⟩ := exists_denotes_sameNames document shallow
      exact ⟨result, denotes.parse?, .client (unknown.of_sameNames same)⟩
  | @auth members auth listed unknown =>
      obtain ⟨results, parsed, read⟩ := exists_parse?_write_obj members
      obtain ⟨⟨name, result⟩, kept, named, same⟩ := exists_source read.flip listed
      subst named
      exact ⟨.obj results, parsed, .auth kept (unknown.of_sameNames same)⟩

theorem IsForeign.gives_none (foreign : IsForeign document) : Gives document none := by
  refine ⟨foreign.ofJson?, ?_⟩
  obtain ⟨result, parsed, foreign⟩ := foreign.exists_parse?_write
  rw [readText?, parsed, Option.bind_some, foreign.ofJson?]

theorem isForeign_withMember (position : Nat) (unknown : name ∉ names) :
    IsForeign ((configuration.pruned gone authGone).withMember position (name, value)) := by
  rw [pruned_eq, Json.without]
  exact .client (hasUnknown_withMember position unknown)

theorem isForeign_changeMember (position : Nat) (kept : "auth" ∉ gone)
    (unknown : name ∉ AuthConfiguration.names) :
    IsForeign ((configuration.pruned gone authGone).changeMember "auth"
      (·.withMember position (name, value))) := by
  rw [pruned_eq, Json.without, changeMember]
  apply IsForeign.auth
  · apply List.mem_map.mpr
    refine ⟨("auth", configuration.auth.toJson.without authGone), ?_, if_pos rfl⟩
    apply List.mem_filter.mpr
    exact ⟨by simp, decide_eq_true kept⟩
  · rw [AuthConfiguration.toJson, Json.without]
    exact hasUnknown_withMember position unknown

/-! ### Edited documents -/

/-- What is decoded from the document of a configuration, as it is, without some members, or with an unknown
one at any place. -/
structure IsReadByName (configuration : Configuration) : Prop where
  whole : Gives configuration.toJson (some configuration)
  pruned : ∀ gone authGone,
    Gives (configuration.pruned gone authGone) (some (configuration.defaulted gone authGone))
  unknown : ∀ gone authGone position name value, name ∉ names →
    Gives ((configuration.pruned gone authGone).withMember position (name, value)) none
  unknownAuth : ∀ gone authGone position name value, "auth" ∉ gone →
    name ∉ AuthConfiguration.names → Gives
      ((configuration.pruned gone authGone).changeMember "auth"
        (·.withMember position (name, value))) none

/-- Settings are read by their names: those that are there as they are, those that are not with their
defaults, and none at all if there is one that does not exist. -/
theorem documents_are_read_by_name (bounded : configuration.auth.IsBounded) :
    configuration.IsReadByName where
  whole := by
    have given : Gives (configuration.pruned [] []) _ := gives_pruned bounded
    rwa [pruned_nil, defaulted_nil] at given
  pruned gone authGone := gives_pruned bounded
  unknown gone authGone position name value unknown :=
    (isForeign_withMember position unknown).gives_none
  unknownAuth gone authGone position name value kept unknown :=
    (isForeign_changeMember position kept unknown).gives_none

/-- Paths that have to be escaped, the most retries there may be, and the longest duration. -/
def farthest : Configuration where
  binaryPath := "/opt/borg \"é\""
  mountBinaryPath := some ""
  sshKeys := ["/home/u/.ssh/id_ed25519", "\n"]
  mountRoot := none
  terminationGrace := ⟨Nat.pow 2 64 * 1000000000 - 1, by decide⟩
  auth := ⟨.ofSeconds 0, Nat.pow 2 32 - 1, .ofSeconds 31557600, ⟨1001001, by decide⟩⟩

theorem farthest_is_read_by_name : farthest.auth.IsBounded ∧ farthest.IsReadByName := by
  have bounded : farthest.auth.IsBounded := by decide
  exact ⟨bounded, documents_are_read_by_name bounded⟩

end Configuration

end BackupClient
