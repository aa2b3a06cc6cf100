import AuditGateway.Relay.Value
import AuditGateway.Audit.Event
import AuditGateway.Lib.Machine
import Mathlib.Logic.Function.Basic

set_option relaxedAutoImplicit false
set_option autoImplicit false

/-!
# Sessions

What the gateway remembers about the sessions of a target, in a table that all connections of
the target share. The table is locked for one operation at a time, and the operations of different
connections come in any order; a lookup of a session's client locks it twice.

The last fields of the state of `Sessions` record what happened, for the statements only.

## Main definitions

* `Channel` — the secure channel of a connection.
* `SessionEntry`, `SessionRegistry` — the table and its operations.
* `SessionEntry.admits` — whether a session may be activated over a channel.
* `Sessions`, `Sessions.Section`, `Sessions.step` — the table under the locked sections of all
  connections.
-/

namespace AuditGateway

/-! ## Secure channels -/

/-- The security policies of a channel. -/
inductive SecurityPolicy
  | unknown
  | none
  | aes128Sha256RsaOaep
  | basic256Sha256
  | aes256Sha256RsaPss
  | basic128Rsa15
  | basic256
  deriving DecidableEq

/-- The security modes of a channel. -/
inductive MessageSecurityMode
  | invalid
  | none
  | sign
  | signAndEncrypt
  deriving DecidableEq

/-- Orders security settings: None < Sign < SignAndEncrypt. -/
def securityRank (policy : SecurityPolicy) (mode : MessageSecurityMode) : ℕ :=
  match policy, mode with
  | .none, _ => 0
  | _, .sign => 1
  | _, .signAndEncrypt => 2
  | _, _ => 0

/-- The secure channel of a connection. A channel is only opened if its mode fits its policy, and
without a policy it has no certificate. -/
structure Channel where
  policy : SecurityPolicy
  mode : MessageSecurityMode
  /-- The thumbprint of the client's certificate. -/
  clientCertificate : Option String
  consistent : match mode with
    | .none => policy = .none
    | .sign => policy ≠ .none
    | .signAndEncrypt => policy ≠ .none
    | .invalid => False
  certificate_none : policy = .none → clientCertificate = Option.none

/-- The rank of the security of a channel. -/
def Channel.rank (channel : Channel) : ℕ := securityRank channel.policy channel.mode

/-- The channel without security. -/
def Channel.open : Channel := ⟨.none, .none, Option.none, rfl, fun _ => rfl⟩

/-- Only a channel without security has rank zero. -/
theorem Channel.rank_eq_zero_iff (channel : Channel) :
    channel.rank = 0 ↔ channel.policy = .none := by
  obtain ⟨policy, mode, certificate, hconsistent, hnone⟩ := channel
  unfold rank securityRank
  cases mode with
  | invalid => cases hconsistent
  | none => simp_all
  | sign => cases policy <;> simp_all
  | signAndEncrypt => cases policy <;> simp_all

/-- Ranks are at most two. -/
theorem Channel.rank_le (channel : Channel) : channel.rank ≤ 2 := by
  unfold rank securityRank
  split <;> omega

/-! ## The table -/

/-- What the gateway remembers about a session. -/
structure SessionEntry where
  client : ClientContext
  /-- The certificate of the channel the session was created on. -/
  clientCertificate : Option String
  timeout : ℕ
  lastUsed : ℕ
  /-- Security of the channel the session was created on. -/
  securityPolicy : SecurityPolicy
  securityMode : MessageSecurityMode
  /-- The connection the session belongs to (created or last activated on). -/
  connectionId : ℕ

/-- The sessions, by their authentication token. -/
abbrev SessionRegistry := NodeId → Option SessionEntry

namespace SessionRegistry

/-- Forgets the sessions that were not used for twice their timeout, and adds one. -/
def insert (s : SessionRegistry) (now : ℕ) (token : NodeId) (entry : SessionEntry) :
    SessionRegistry :=
  Function.update (fun t => (s t).filter fun e => now - e.lastUsed < 2 * e.timeout) token
    (some entry)

/-- Changes the entry of a session, if there is one. -/
def modify (s : SessionRegistry) (now : ℕ) (token : NodeId)
    (f : SessionEntry → SessionEntry) : SessionRegistry :=
  Function.update s token ((s token).map fun e => f { e with lastUsed := now })

/-- The session belongs to the connection. -/
def ownedBy (s : SessionRegistry) (token : NodeId) (connectionId : ℕ) : Bool :=
  match s token with
  | some e => e.connectionId = connectionId
  | none => false

/-- The session's client, if the session belongs to the connection. -/
def clientOf (s : SessionRegistry) (token : NodeId) (connectionId : ℕ) : Option ClientContext :=
  ((s token).map (·.client)).filter fun _ => s.ownedBy token connectionId

/-- Removes the session if it belongs to the connection. -/
def removeOwned (s : SessionRegistry) (token : NodeId) (connectionId : ℕ) : SessionRegistry :=
  if s.ownedBy token connectionId then Function.update s token none else s

end SessionRegistry

namespace SessionEntry

/-- The entry of a session that is created on a channel. -/
def create (channel : Channel) (connectionId : ℕ) (client : ClientContext) (timeout now : ℕ) :
    SessionEntry where
  client := client
  clientCertificate := channel.clientCertificate
  timeout := timeout
  lastUsed := now
  securityPolicy := channel.policy
  securityMode := channel.mode
  connectionId := connectionId

/-- The session belongs to the connection from now on, with the client it was activated for. -/
def activate (connectionId : ℕ) (client : ClientContext) (e : SessionEntry) : SessionEntry :=
  { e with client := client, connectionId := connectionId }

/-- The channel proves the same client as the channel of the session. -/
def sameClient (e : SessionEntry) (channel : Channel) : Bool :=
  match e.clientCertificate, channel.clientCertificate with
  | some a, some b => a = b
  | _, _ => false

/-- What becomes of an activation before it is forwarded. `checks` is what the checks of the
client's signature and user token make of it. -/
def admits {α : Type*} (e : SessionEntry) (channel : Channel) (checks : Except StatusCode α) :
    Except StatusCode α :=
  if channel.rank < securityRank e.securityPolicy e.securityMode then
    .error .badSecurityModeInsufficient
  else if channel.policy ≠ .none ∧ ¬ e.sameClient channel then
    .error .badApplicationSignatureInvalid
  else checks

end SessionEntry

/-! ## All connections of a target -/

/-- What a connection does while it holds the lock of the table. -/
inductive Sessions.Section
  /-- A session is created; the server has issued the token. -/
  | insert (token : NodeId) (client : ClientContext) (timeout : ℕ)
  /-- An activation reads the entry, and is forwarded if the checks admit it. -/
  | begin (token : NodeId) (checks : Except StatusCode UserIdentity)
  /-- The server has accepted an activation that was forwarded. -/
  | activate (token : NodeId) (client : ClientContext)
  /-- The server has refused it, or no answer came. -/
  | refuse (token : NodeId)
  /-- A session is closed. -/
  | removeOwned (token : NodeId)
  /-- A lookup reads the client of a session. -/
  | lookup (token : NodeId)
  /-- The lookup checks who the session belongs to. -/
  | check

/-- The table and what the connections are about to do. -/
structure Sessions where
  registry : SessionRegistry := fun _ => none
  /-- The lookups between their two sections, by connection. -/
  lookups : ℕ → Option (NodeId × ClientContext) := fun _ => none
  /-- The activations that were forwarded, with their connections. -/
  activating : List (ℕ × NodeId) := []
  /-- The contexts that were stored for each session, the newest first, with the connections
  that stored them. -/
  stores : NodeId → List (ℕ × ClientContext) := fun _ => []
  /-- The connections of the activations that the server accepted, the newest first. -/
  activations : NodeId → List ℕ := fun _ => []
  /-- The connections the sessions were created on. -/
  creators : NodeId → Option ℕ := fun _ => none
  /-- What the lookups have returned: connection, session and context. -/
  found : List (ℕ × NodeId × Option ClientContext) := []

namespace Sessions

/-- What the lookup of a connection returns if it checks the owner now. -/
def checked (s : Sessions) (connectionId : ℕ) (token : NodeId) (client : ClientContext) :
    Option ClientContext :=
  if s.registry.ownedBy token connectionId then some client else none

/-- One locked section of a connection. A connection that has read the client of a session checks
its owner before it does anything else, and the server issues fresh tokens. -/
def step (channels : ℕ → Channel) (s : Sessions) (l : ℕ × ℕ × Section) : Option Sessions :=
  let (c, now, act) := l
  match s.lookups c, act with
  | some (token, client), .check =>
    some { s with
      lookups := Function.update s.lookups c none
      found := s.found ++ [(c, token, s.checked c token client)] }
  | some _, _ => none
  | none, .check => none
  | none, .insert token client timeout =>
    if s.stores token = [] then
      some { s with
        registry := s.registry.insert now token
          (SessionEntry.create (channels c) c client timeout now)
        stores := Function.update s.stores token [(c, client)]
        creators := Function.update s.creators token (some c) }
    else none
  | none, .begin token checks =>
    match s.registry token with
    | none => some s
    | some e =>
      let s := { s with registry := s.registry.modify now token id }
      match e.admits (channels c) checks with
      | .ok _ => some { s with activating := s.activating ++ [(c, token)] }
      | .error _ => some s
  | none, .activate token client =>
    if (c, token) ∈ s.activating then
      some { s with
        registry := s.registry.modify now token (SessionEntry.activate c client)
        activating := s.activating.erase (c, token)
        stores := Function.update s.stores token
          (if (s.registry token).isSome then (c, client) :: s.stores token else s.stores token)
        activations := Function.update s.activations token (c :: s.activations token) }
    else none
  | none, .refuse token =>
    if (c, token) ∈ s.activating then
      some { s with activating := s.activating.erase (c, token) }
    else none
  | none, .removeOwned token => some { s with registry := s.registry.removeOwned token c }
  | none, .lookup token =>
    some { s with
      registry := s.registry.modify now token id
      lookups := Function.update s.lookups c ((s.registry token).map fun e => (token, e.client)) }

end Sessions

end AuditGateway
