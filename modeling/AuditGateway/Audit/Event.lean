import Mathlib.Data.Int.Order.Basic
import Mathlib.Tactic.Common

set_option relaxedAutoImplicit false
set_option autoImplicit false

/-!
# The audit event model

Every record is an `AuditEntry`: when it happened, which target and which client it concerns,
and the `AuditEvent` itself. Unsigned counters are `ℕ`, sequence numbers (`i64`) are `ℤ`; a
trail would need `2^63` records before the difference could show.

## Main definitions

* `Json` — a JSON value, the part of a record whose shape a client chooses.
* `DateTime` — a UTC instant.
* `AuditEvent`, `AuditEntry`, `ClientContext`, `UserIdentity` — the contents of a record.
* `AuditEvent.kind`, `AuditEvent.nodeId`, `UserIdentity.label` — what the indexed columns hold.
* `clip` — shortens text a client chose.
-/

namespace AuditGateway

/-! ## Values -/

/-- A number as `serde_json` keeps it. -/
inductive JsonNumber
  | posInt (n : ℕ)
  | negInt (n : ℤ)
  /-- A finite `f64`, by its bits. -/
  | float (bits : UInt64)
  deriving DecidableEq

/-- A JSON value; an object is the list of its members. -/
inductive Json
  | null
  | bool (b : Bool)
  | number (n : JsonNumber)
  | string (s : String)
  | array (values : List Json)
  | object (members : List (String × Json))

/-- A UTC instant, in nanoseconds since the epoch. -/
structure DateTime where
  nanos : ℤ
  deriving DecidableEq

namespace DateTime

/-- The instant in whole microseconds, the precision of the trail's time column. -/
def micros (t : DateTime) : ℤ := t.nanos / 1000

/-- The instant `n` minutes later. -/
def addMinutes (t : DateTime) (n : ℤ) : DateTime := ⟨t.nanos + n * 60 * 1000000000⟩

end DateTime

/-- Shortens text a client chose before it goes into the audit trail. -/
def clip (text : String) (maxChars : ℕ) : String :=
  if text.length ≤ maxChars then text
  else String.ofList (text.toList.take maxChars) ++ "… (" ++ toString text.length ++ " characters)"

/-- Limits for `clip`. -/
def maxName : ℕ := 256

@[inherit_doc maxName] def maxText : ℕ := 1024

/-! ## Who did it -/

/-- The identity a session was activated with. -/
inductive UserIdentity
  | anonymous
  | userName (name : String)
  | certificate (subject thumbprint : String)
  | issuedToken
  deriving DecidableEq

/-- Short form used for the indexed `user` column. -/
def UserIdentity.label : UserIdentity → String
  | .anonymous => "anonymous"
  | .userName name => name
  | .certificate subject _ => subject
  | .issuedToken => "issued-token"

/-- Everything the gateway knows about the downstream client. -/
structure ClientContext where
  remoteAddr : String := ""
  applicationUri : Option String := none
  applicationName : Option String := none
  certificateThumbprint : Option String := none
  user : Option UserIdentity := none
  sessionId : Option String := none
  deriving DecidableEq

/-- A value as it appears in the trail: the data type name and a JSON rendering. -/
structure AuditValue where
  dataType : String
  value : Json

/-! ## Events -/

/-- Records that need someone's attention until they are acknowledged. -/
inductive Severity
  | warning
  | error
  deriving DecidableEq

/-- What happened. -/
inductive AuditEvent
  -- gateway lifecycle
  | gatewayStarted (version : String)
  | gatewayStopped
  | configChanged (by_ summary : String)
  | uiLogin (user : String)
  | uiLoginFailed (user : String)
  | apiTokenRejected (token : String)
  | mcpQuery (by_ token tool arguments : String)
  | discovery (by_ endpointUrl : String)
  /-- Records up to and including `lastSeq` were deleted by retention; `lastHash` is the hash
  of that record, so the remaining chain stays verifiable from this point on. -/
  | retentionPruned (deleted : ℕ) (lastSeq : ℤ) (lastHash : String)
  /-- Records that could not be stored (fail-open mode) since the last report. -/
  | eventsLost (count : ℕ)
  /-- At start the newest records were missing: the trail had reached `expectedSeq` but ends
  at `foundSeq`. -/
  | trailTruncated (expectedSeq foundSeq : ℤ)
  | exportGap (destination : String) (afterSeq nextSeq : ℤ) (reason : String)
  | clockJumped (seconds : ℤ)
  -- upstream server
  | upstreamAvailable (endpointUrl : String) (endpoints : ℕ)
  | upstreamUnavailable (endpointUrl reason : String)
  | targetNotTrusted (endpointUrl : String)
  | targetRefusedGateway (endpointUrl detail : String)
  | targetTrustRestored (endpointUrl policy : String)
  | upstreamEndpointsChanged (endpointUrl : String) (before after : List String)
  -- client connections and sessions
  | clientConnected
  | connectionsRefused (remoteAddr : String) (count : ℕ) (reason : String)
  | clientDisconnected (reason : String)
  | secureChannelOpened (securityPolicy securityMode : String)
  | sessionCreated (sessionName : String)
  | sessionActivated
  | sessionClosed
  | authenticationFailed (status : String)
  | certificateRejected (subject thumbprint reason : String)
  -- changes to the server
  /-- Fail-closed mode: committed before a change request is forwarded. -/
  | changeIntent (requestHandle : ℕ) (service : String) (nodeIds : List String)
      (details : List Json)
  | write (requestHandle : ℕ) (nodeId : String) (displayName : Option String)
      (attributeName : String) (indexRange : Option String) (oldValue : Option AuditValue)
      (newValue : AuditValue) (writtenStatus sourceTimestamp serverTimestamp : Option String)
      (status : String)
  | call (requestHandle : ℕ) (objectId methodId : String) (displayName : Option String)
      (inputArguments : List AuditValue) (status : String)
  | historyUpdate (requestHandle : ℕ) (nodeId details status : String)
  | nodeManagement (requestHandle : ℕ) (service nodeId status : String)
  | subscriptionsTransferred (requestHandle : ℕ) (subscriptionIds : List ℕ) (status : String)
  | alarmsAcknowledged (by_ : String) (severity : Severity) (upToSeq : ℤ) (count : ℕ)
  /-- Value writes to a summarised node, recorded as one summary instead of one record each. -/
  | ignoredWrites (nodeId : String) (displayName : Option String) (count failed : ℕ)
      (first last : DateTime) (lastValue : AuditValue) (lastStatus : String)
      (clients : List String)

namespace AuditEvent

/-- Stable name of the event type, stored in the indexed `kind` column. -/
def kind : AuditEvent → String
  | gatewayStarted .. => "gateway_started"
  | gatewayStopped => "gateway_stopped"
  | configChanged .. => "config_changed"
  | uiLogin .. => "ui_login"
  | mcpQuery .. => "mcp_query"
  | uiLoginFailed .. => "ui_login_failed"
  | discovery .. => "discovery"
  | retentionPruned .. => "retention_pruned"
  | eventsLost .. => "events_lost"
  | trailTruncated .. => "trail_truncated"
  | clockJumped .. => "clock_jumped"
  | exportGap .. => "export_gap"
  | upstreamAvailable .. => "upstream_available"
  | upstreamUnavailable .. => "upstream_unavailable"
  | targetNotTrusted .. => "target_not_trusted"
  | targetRefusedGateway .. => "target_refused_gateway"
  | targetTrustRestored .. => "target_trust_restored"
  | apiTokenRejected .. => "api_token_rejected"
  | upstreamEndpointsChanged .. => "upstream_endpoints_changed"
  | clientConnected => "client_connected"
  | connectionsRefused .. => "connections_refused"
  | clientDisconnected .. => "client_disconnected"
  | secureChannelOpened .. => "secure_channel_opened"
  | sessionCreated .. => "session_created"
  | sessionActivated => "session_activated"
  | sessionClosed => "session_closed"
  | authenticationFailed .. => "authentication_failed"
  | certificateRejected .. => "certificate_rejected"
  | changeIntent .. => "change_intent"
  | write .. => "write"
  | call .. => "call"
  | historyUpdate .. => "history_update"
  | nodeManagement .. => "node_management"
  | subscriptionsTransferred .. => "subscriptions_transferred"
  | ignoredWrites .. => "ignored_writes"
  | alarmsAcknowledged .. => "alarms_acknowledged"

/-- The node this event is about, if any; stored in the indexed `node_id` column. -/
def nodeId : AuditEvent → Option String
  | write _ nodeId .. => some nodeId
  | ignoredWrites nodeId .. => some nodeId
  | historyUpdate _ nodeId .. => some nodeId
  | nodeManagement _ _ nodeId _ => some nodeId
  | call _ _ methodId .. => some methodId
  | _ => none

/-- What a retention record says: how many records were deleted, and number and hash of the
last of them. -/
def pruned? : AuditEvent → Option (ℕ × ℤ × String)
  | retentionPruned deleted lastSeq lastHash => some (deleted, lastSeq, lastHash)
  | _ => none

/-- Only a retention record says what was removed. -/
theorem pruned?_eq_some {e : AuditEvent} {d : ℕ} {n : ℤ} {h : String} :
    e.pruned? = some (d, n, h) ↔ e = retentionPruned d n h := by
  cases e <;> simp [pruned?]

end AuditEvent

/-- A record of the trail, without its place in it. -/
structure AuditEntry where
  ts : DateTime
  target : Option String := none
  client : Option ClientContext := none
  event : AuditEvent

namespace AuditEntry

/-- An entry of the gateway itself, dated now. -/
def new (now : DateTime) (event : AuditEvent) : AuditEntry := { ts := now, event := event }

/-- The entry with its target set. -/
def withTarget (e : AuditEntry) (target : String) : AuditEntry := { e with target := some target }

/-- The entry with its client set. -/
def withClient (e : AuditEntry) (client : ClientContext) : AuditEntry :=
  { e with client := some client }

end AuditEntry

end AuditGateway
