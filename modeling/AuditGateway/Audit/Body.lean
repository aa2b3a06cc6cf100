import AuditGateway.Audit.Event
import Mathlib.Algebra.Group.Nat.Defs

set_option relaxedAutoImplicit false
set_option autoImplicit false

/-!
# Bodies

The JSON value of a record, as it is stored and as it is read. An event is an object with the type
among its fields, a field without a value is left out, and a user is an object with the kind of
identity among its fields.

## Main definitions

* `AuditEvent.members`, `AuditEvent.toJson`, `AuditEntry.toJson` — the JSON values.
-/

namespace AuditGateway

namespace Json

/-- An unsigned integer. -/
def nat (n : ℕ) : Json := .number (.posInt n)

/-- A signed integer. -/
def int (n : ℤ) : Json := .number (if 0 ≤ n then .posInt n.toNat else .negInt n)

/-- An unsigned integer of `bits` bits. -/
def toUInt (bits : ℕ) : Json → Option ℕ
  | .number (.posInt n) => if n < 2 ^ bits then some n else none
  | _ => none

/-- An array of texts. -/
def texts (l : List String) : Json := .array (l.map .string)

/-- The member of an object. -/
def get? (json : Json) (key : String) : Option Json :=
  match json with
  | .object members => members.lookup key
  | _ => none

/-- A member that is left out without a value. -/
def optional {α : Type} (key : String) (value : Option α) (toJson : α → Json) :
    List (String × Json) :=
  value.toList.map fun a => (key, toJson a)

end Json

/-- The user of a client as JSON. -/
def UserIdentity.toJson : UserIdentity → Json
  | .anonymous => .object [("kind", .string "anonymous")]
  | .userName name => .object [("kind", .string "user_name"), ("name", .string name)]
  | .certificate subject thumbprint =>
    .object [("kind", .string "certificate"), ("subject", .string subject),
      ("thumbprint", .string thumbprint)]
  | .issuedToken => .object [("kind", .string "issued_token")]

/-- A client as JSON; what is not known is left out. -/
def ClientContext.toJson (client : ClientContext) : Json :=
  .object (("remote_addr", .string client.remoteAddr) ::
    (Json.optional "application_uri" client.applicationUri .string ++
      Json.optional "application_name" client.applicationName .string ++
      Json.optional "certificate_thumbprint" client.certificateThumbprint .string ++
      Json.optional "user" client.user UserIdentity.toJson ++
      Json.optional "session_id" client.sessionId .string))

/-- A value with its type as JSON. -/
def AuditValue.toJson (value : AuditValue) : Json :=
  .object [("data_type", .string value.dataType), ("value", value.value)]

/-- The name of a severity in JSON. -/
def Severity.name : Severity → String
  | .warning => "warning"
  | .error => "error"

/-- A name in camel case as one in snake case. -/
def snakeCase (name : String) : String :=
  let lower (c : Char) : List Char := [c.toLower]
  match name.toList with
  | [] => ""
  | c :: cs =>
    String.ofList (lower c ++ cs.flatMap fun c => if c.isUpper then '_' :: lower c else lower c)

namespace AuditEvent

/-- The name of the variant, as `type` has it in JSON. -/
def variantName : AuditEvent → String
  | gatewayStarted .. => "GatewayStarted"
  | gatewayStopped => "GatewayStopped"
  | configChanged .. => "ConfigChanged"
  | uiLogin .. => "UiLogin"
  | uiLoginFailed .. => "UiLoginFailed"
  | apiTokenRejected .. => "ApiTokenRejected"
  | mcpQuery .. => "McpQuery"
  | discovery .. => "Discovery"
  | retentionPruned .. => "RetentionPruned"
  | eventsLost .. => "EventsLost"
  | trailTruncated .. => "TrailTruncated"
  | exportGap .. => "ExportGap"
  | clockJumped .. => "ClockJumped"
  | upstreamAvailable .. => "UpstreamAvailable"
  | upstreamUnavailable .. => "UpstreamUnavailable"
  | targetNotTrusted .. => "TargetNotTrusted"
  | targetRefusedGateway .. => "TargetRefusedGateway"
  | targetTrustRestored .. => "TargetTrustRestored"
  | upstreamEndpointsChanged .. => "UpstreamEndpointsChanged"
  | clientConnected => "ClientConnected"
  | connectionsRefused .. => "ConnectionsRefused"
  | clientDisconnected .. => "ClientDisconnected"
  | secureChannelOpened .. => "SecureChannelOpened"
  | sessionCreated .. => "SessionCreated"
  | sessionActivated => "SessionActivated"
  | sessionClosed => "SessionClosed"
  | authenticationFailed .. => "AuthenticationFailed"
  | certificateRejected .. => "CertificateRejected"
  | changeIntent .. => "ChangeIntent"
  | write .. => "Write"
  | call .. => "Call"
  | historyUpdate .. => "HistoryUpdate"
  | nodeManagement .. => "NodeManagement"
  | subscriptionsTransferred .. => "SubscriptionsTransferred"
  | alarmsAcknowledged .. => "AlarmsAcknowledged"
  | ignoredWrites .. => "IgnoredWrites"

/-- What the type of an event is written as. -/
def tag (event : AuditEvent) : String := snakeCase event.variantName

/-- **The kind of an event is its type** as it is written. -/
theorem tag_eq_kind (event : AuditEvent) : event.tag = event.kind := by
  cases event <;> simp only [tag, variantName, kind] <;> decide

/-- The fields of an event, without its type. `time` is the text of an instant. -/
def members (time : DateTime → String) : AuditEvent → List (String × Json)
  | gatewayStarted version => [("version", .string version)]
  | gatewayStopped => []
  | configChanged by_ summary => [("by", .string by_), ("summary", .string summary)]
  | uiLogin user => [("user", .string user)]
  | uiLoginFailed user => [("user", .string user)]
  | apiTokenRejected token => [("token", .string token)]
  | mcpQuery by_ token tool arguments =>
    [("by", .string by_), ("token", .string token), ("tool", .string tool),
      ("arguments", .string arguments)]
  | discovery by_ endpointUrl => [("by", .string by_), ("endpoint_url", .string endpointUrl)]
  | retentionPruned deleted lastSeq lastHash =>
    [("deleted", .nat deleted), ("last_seq", .int lastSeq), ("last_hash", .string lastHash)]
  | eventsLost count => [("count", .nat count)]
  | trailTruncated expectedSeq foundSeq =>
    [("expected_seq", .int expectedSeq), ("found_seq", .int foundSeq)]
  | exportGap destination afterSeq nextSeq reason =>
    [("destination", .string destination), ("after_seq", .int afterSeq),
      ("next_seq", .int nextSeq), ("reason", .string reason)]
  | clockJumped seconds => [("seconds", .int seconds)]
  | upstreamAvailable endpointUrl endpoints =>
    [("endpoint_url", .string endpointUrl), ("endpoints", .nat endpoints)]
  | upstreamUnavailable endpointUrl reason =>
    [("endpoint_url", .string endpointUrl), ("reason", .string reason)]
  | targetNotTrusted endpointUrl => [("endpoint_url", .string endpointUrl)]
  | targetRefusedGateway endpointUrl detail =>
    [("endpoint_url", .string endpointUrl), ("detail", .string detail)]
  | targetTrustRestored endpointUrl policy =>
    [("endpoint_url", .string endpointUrl), ("policy", .string policy)]
  | upstreamEndpointsChanged endpointUrl before after =>
    [("endpoint_url", .string endpointUrl), ("before", .texts before), ("after", .texts after)]
  | clientConnected => []
  | connectionsRefused remoteAddr count reason =>
    [("remote_addr", .string remoteAddr), ("count", .nat count), ("reason", .string reason)]
  | clientDisconnected reason => [("reason", .string reason)]
  | secureChannelOpened securityPolicy securityMode =>
    [("security_policy", .string securityPolicy), ("security_mode", .string securityMode)]
  | sessionCreated sessionName => [("session_name", .string sessionName)]
  | sessionActivated => []
  | sessionClosed => []
  | authenticationFailed status => [("status", .string status)]
  | certificateRejected subject thumbprint reason =>
    [("subject", .string subject), ("thumbprint", .string thumbprint), ("reason", .string reason)]
  | changeIntent requestHandle service nodeIds details =>
    [("request_handle", .nat requestHandle), ("service", .string service),
      ("node_ids", .texts nodeIds)] ++
      if details = [] then [] else [("details", .array details)]
  | write requestHandle nodeId displayName attributeName indexRange oldValue newValue
      writtenStatus sourceTimestamp serverTimestamp status =>
    [("request_handle", .nat requestHandle), ("node_id", .string nodeId)] ++
      Json.optional "display_name" displayName .string ++
      [("attribute", .string attributeName)] ++
      Json.optional "index_range" indexRange .string ++
      Json.optional "old_value" oldValue AuditValue.toJson ++
      [("new_value", newValue.toJson)] ++
      Json.optional "written_status" writtenStatus .string ++
      Json.optional "source_timestamp" sourceTimestamp .string ++
      Json.optional "server_timestamp" serverTimestamp .string ++
      [("status", .string status)]
  | call requestHandle objectId methodId displayName inputArguments status =>
    [("request_handle", .nat requestHandle), ("object_id", .string objectId),
      ("method_id", .string methodId)] ++
      Json.optional "display_name" displayName .string ++
      [("input_arguments", .array (inputArguments.map AuditValue.toJson)),
        ("status", .string status)]
  | historyUpdate requestHandle nodeId details status =>
    [("request_handle", .nat requestHandle), ("node_id", .string nodeId),
      ("details", .string details), ("status", .string status)]
  | nodeManagement requestHandle service nodeId status =>
    [("request_handle", .nat requestHandle), ("service", .string service),
      ("node_id", .string nodeId), ("status", .string status)]
  | subscriptionsTransferred requestHandle subscriptionIds status =>
    [("request_handle", .nat requestHandle),
      ("subscription_ids", .array (subscriptionIds.map .nat)), ("status", .string status)]
  | alarmsAcknowledged by_ severity upToSeq count =>
    [("by", .string by_), ("severity", .string severity.name), ("up_to_seq", .int upToSeq),
      ("count", .nat count)]
  | ignoredWrites nodeId displayName count failed first last lastValue lastStatus clients =>
    [("node_id", .string nodeId)] ++
      Json.optional "display_name" displayName .string ++
      [("count", .nat count), ("failed", .nat failed), ("first", .string (time first)),
        ("last", .string (time last)), ("last_value", lastValue.toJson),
        ("last_status", .string lastStatus), ("clients", .texts clients)]

/-- The event as an object, with its type in front of its fields. -/
def toJson (time : DateTime → String) (event : AuditEvent) : Json :=
  .object (("type", .string event.tag) :: event.members time)

end AuditEvent

/-- An entry as JSON, which is the body of its record. -/
def AuditEntry.toJson (time : DateTime → String) (entry : AuditEntry) : Json :=
  .object (("ts", .string (time entry.ts)) ::
    (Json.optional "target" entry.target .string ++
      Json.optional "client" entry.client ClientContext.toJson ++
      [("event", entry.event.toJson time)]))

end AuditGateway
