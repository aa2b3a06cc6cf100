import AuditGateway.Audit.Body
import AuditGateway.Lib.Partial
import Mathlib.Algebra.Group.Int.Defs

set_option relaxedAutoImplicit false
set_option autoImplicit false

/-!
# Reading bodies

How an entry is read from the JSON value of its body. A structure is read from an object, whose
other members are ignored, or from an array of its fields in order; an event from either, with its
type as a member or in front. An event of which every number fits its type is read as it was
written, whatever it holds.

## Main definitions

* `Json.fields`, `Json.tagged`, `Members.required`, `Members.optional` — the parts of a reader.
* `AuditEntry.ofJson`, `AuditEvent.ofJson`, `ClientContext.ofJson` — the readers.
* `AuditEntry.Typed` — every number fits its type.

## Main results

* `AuditEvent.ofJson_toJson`, `AuditEntry.ofJson_toJson` — what is written is read.
-/

namespace AuditGateway

/-- The members of an object, in the order of the text. -/
abbrev Members := List (String × Json)

/-! ## Values -/

/-- A number fits into a signed integer of 64 bits. -/
def IsI64 (n : ℤ) : Prop := -2 ^ 63 ≤ n ∧ n < 2 ^ 63

namespace Json

/-- The text of a string. -/
def toText : Json → Option String
  | .string s => some s
  | _ => none

/-- A signed integer of 64 bits. -/
def toI64 : Json → Option ℤ
  | .number (.posInt n) => if n < 2 ^ 63 then some n else none
  | .number (.negInt n) => if -2 ^ 63 ≤ n then some n else none
  | _ => none

/-- An array whose values are all read. -/
def toList {α : Type} (read : Json → Option α) : Json → Option (List α)
  | .array values => values.mapM read
  | _ => none

/-- A value or null. -/
def nullable {α : Type} (read : Json → Option α) : Json → Option (Option α)
  | .null => some none
  | json => (read json).map some

/-- The fields of a structure, given by name or in order. -/
def fields (names : List String) : Json → Option Members
  | .object members => some members
  | .array values => if values.length ≤ names.length then some (names.zip values) else none
  | _ => none

end Json

namespace Members

variable {α : Type}

/-- The value of the only member, if there is one. -/
def single : Members → Option (Option Json)
  | [] => some none
  | [member] => some (some member.2)
  | _ => none

/-- The value of a field, if it has one. A field given twice is an error. -/
def field (members : Members) (name : String) : Option (Option Json) :=
  single (members.filter fun member => member.1 = name)

/-- A field that must be there. -/
def required (members : Members) (name : String) (read : Json → Option α) : Option α :=
  (members.field name).bind fun value => value.bind read

/-- A field with a default. -/
def withDefault (members : Members) (name : String) (read : Json → Option α) (default : α) :
    Option α :=
  (members.field name).bind fun value => value.elim (some default) read

/-- A field that may be left out, or be null. -/
def optional (members : Members) (name : String) (read : Json → Option α) : Option (Option α) :=
  members.withDefault name (Json.nullable read) none

/-- A field that holds a text. -/
def text (members : Members) (name : String) : Option String := members.required name Json.toText

/-- A field that holds a list of texts. -/
def texts (members : Members) (name : String) : Option (List String) :=
  members.required name (Json.toList Json.toText)

/-- A field that holds an unsigned integer of 32 bits. -/
def u32 (members : Members) (name : String) : Option ℕ := members.required name (Json.toUInt 32)

/-- A field that holds an unsigned integer of 64 bits. -/
def u64 (members : Members) (name : String) : Option ℕ := members.required name (Json.toUInt 64)

/-- A field that holds a signed integer of 64 bits. -/
def i64 (members : Members) (name : String) : Option ℤ := members.required name Json.toI64

end Members

/-- The tag of a value, and the value without it. -/
def Json.tagged (tag : String) : Json → Option (String × Json)
  | .object members =>
    (Members.required members tag toText).map fun kind =>
      (kind, .object (members.filter fun member => member.1 ≠ tag))
  | .array (kind :: values) => kind.toText.map fun kind => (kind, .array values)
  | _ => none

/-! ## Readers -/

/-- The user of a client, with its kind as a member or in front. -/
def UserIdentity.ofJson (json : Json) : Option UserIdentity := do
  let (kind, body) ← json.tagged "kind"
  match kind with
  | "anonymous" => do
    let _ ← body.fields []
    return .anonymous
  | "user_name" => do
    let f ← body.fields ["name"]
    return .userName (← f.text "name")
  | "certificate" => do
    let f ← body.fields ["subject", "thumbprint"]
    return .certificate (← f.text "subject") (← f.text "thumbprint")
  | "issued_token" => do
    let _ ← body.fields []
    return .issuedToken
  | _ => none

/-- A client; what is missing or null is not known. -/
def ClientContext.ofJson (json : Json) : Option ClientContext := do
  let f ← json.fields ["remote_addr", "application_uri", "application_name",
    "certificate_thumbprint", "user", "session_id"]
  let remoteAddr ← f.text "remote_addr"
  let applicationUri ← f.optional "application_uri" Json.toText
  let applicationName ← f.optional "application_name" Json.toText
  let certificateThumbprint ← f.optional "certificate_thumbprint" Json.toText
  let user ← f.optional "user" UserIdentity.ofJson
  let sessionId ← f.optional "session_id" Json.toText
  return { remoteAddr, applicationUri, applicationName, certificateThumbprint, user, sessionId }

/-- A value with its type. -/
def AuditValue.ofJson (json : Json) : Option AuditValue := do
  let f ← json.fields ["data_type", "value"]
  return ⟨← f.text "data_type", ← f.required "value" some⟩

/-- A severity is its name, alone or as the only member of an object. -/
def Severity.ofJson : Json → Option Severity
  | .string "warning" => some .warning
  | .string "error" => some .error
  | .object [("warning", .null)] => some .warning
  | .object [("error", .null)] => some .error
  | _ => none

namespace AuditEvent

/-- The fields of an event, and how it is read from them. -/
structure Reader where
  names : List String
  read : Members → Option AuditEvent

/-- The readers of the events, by type. `time` reads an instant. -/
def readers (time : String → Option DateTime) : List (String × Reader) :=
  let instant (f : Members) (name : String) := f.required name fun value => value.toText.bind time
  [("gateway_started", ⟨["version"], fun f => do return .gatewayStarted (← f.text "version")⟩),
    ("gateway_stopped", ⟨[], fun _ => some .gatewayStopped⟩),
    ("config_changed", ⟨["by", "summary"],
      fun f => do return .configChanged (← f.text "by") (← f.text "summary")⟩),
    ("ui_login", ⟨["user"], fun f => do return .uiLogin (← f.text "user")⟩),
    ("ui_login_failed", ⟨["user"], fun f => do return .uiLoginFailed (← f.text "user")⟩),
    ("api_token_rejected", ⟨["token"], fun f => do return .apiTokenRejected (← f.text "token")⟩),
    ("mcp_query", ⟨["by", "token", "tool", "arguments"],
      fun f => do
        return .mcpQuery (← f.text "by") (← f.text "token") (← f.text "tool")
          (← f.text "arguments")⟩),
    ("discovery", ⟨["by", "endpoint_url"],
      fun f => do return .discovery (← f.text "by") (← f.text "endpoint_url")⟩),
    ("retention_pruned", ⟨["deleted", "last_seq", "last_hash"],
      fun f => do
        return .retentionPruned (← f.u64 "deleted") (← f.i64 "last_seq") (← f.text "last_hash")⟩),
    ("events_lost", ⟨["count"], fun f => do return .eventsLost (← f.u64 "count")⟩),
    ("trail_truncated", ⟨["expected_seq", "found_seq"],
      fun f => do return .trailTruncated (← f.i64 "expected_seq") (← f.i64 "found_seq")⟩),
    ("export_gap", ⟨["destination", "after_seq", "next_seq", "reason"],
      fun f => do
        return .exportGap (← f.text "destination") (← f.i64 "after_seq") (← f.i64 "next_seq")
          (← f.text "reason")⟩),
    ("clock_jumped", ⟨["seconds"], fun f => do return .clockJumped (← f.i64 "seconds")⟩),
    ("upstream_available", ⟨["endpoint_url", "endpoints"],
      fun f => do return .upstreamAvailable (← f.text "endpoint_url") (← f.u64 "endpoints")⟩),
    ("upstream_unavailable", ⟨["endpoint_url", "reason"],
      fun f => do return .upstreamUnavailable (← f.text "endpoint_url") (← f.text "reason")⟩),
    ("target_not_trusted", ⟨["endpoint_url"],
      fun f => do return .targetNotTrusted (← f.text "endpoint_url")⟩),
    ("target_refused_gateway", ⟨["endpoint_url", "detail"],
      fun f => do return .targetRefusedGateway (← f.text "endpoint_url") (← f.text "detail")⟩),
    ("target_trust_restored", ⟨["endpoint_url", "policy"],
      fun f => do return .targetTrustRestored (← f.text "endpoint_url") (← f.text "policy")⟩),
    ("upstream_endpoints_changed", ⟨["endpoint_url", "before", "after"],
      fun f => do
        return .upstreamEndpointsChanged (← f.text "endpoint_url") (← f.texts "before")
          (← f.texts "after")⟩),
    ("client_connected", ⟨[], fun _ => some .clientConnected⟩),
    ("connections_refused", ⟨["remote_addr", "count", "reason"],
      fun f => do
        return .connectionsRefused (← f.text "remote_addr") (← f.u64 "count")
          (← f.text "reason")⟩),
    ("client_disconnected", ⟨["reason"],
      fun f => do return .clientDisconnected (← f.text "reason")⟩),
    ("secure_channel_opened", ⟨["security_policy", "security_mode"],
      fun f => do
        return .secureChannelOpened (← f.text "security_policy") (← f.text "security_mode")⟩),
    ("session_created", ⟨["session_name"],
      fun f => do return .sessionCreated (← f.text "session_name")⟩),
    ("session_activated", ⟨[], fun _ => some .sessionActivated⟩),
    ("session_closed", ⟨[], fun _ => some .sessionClosed⟩),
    ("authentication_failed", ⟨["status"],
      fun f => do return .authenticationFailed (← f.text "status")⟩),
    ("certificate_rejected", ⟨["subject", "thumbprint", "reason"],
      fun f => do
        return .certificateRejected (← f.text "subject") (← f.text "thumbprint")
          (← f.text "reason")⟩),
    ("change_intent", ⟨["request_handle", "service", "node_ids", "details"],
      fun f => do
        return .changeIntent (← f.u32 "request_handle") (← f.text "service")
          (← f.texts "node_ids") (← f.withDefault "details" (Json.toList some) [])⟩),
    ("write", ⟨["request_handle", "node_id", "display_name", "attribute", "index_range",
        "old_value", "new_value", "written_status", "source_timestamp", "server_timestamp",
        "status"],
      fun f => do
        return .write (← f.u32 "request_handle") (← f.text "node_id")
          (← f.optional "display_name" Json.toText) (← f.text "attribute")
          (← f.optional "index_range" Json.toText) (← f.optional "old_value" AuditValue.ofJson)
          (← f.required "new_value" AuditValue.ofJson)
          (← f.optional "written_status" Json.toText)
          (← f.optional "source_timestamp" Json.toText)
          (← f.optional "server_timestamp" Json.toText) (← f.text "status")⟩),
    ("call", ⟨["request_handle", "object_id", "method_id", "display_name", "input_arguments",
        "status"],
      fun f => do
        return .call (← f.u32 "request_handle") (← f.text "object_id") (← f.text "method_id")
          (← f.optional "display_name" Json.toText)
          (← f.required "input_arguments" (Json.toList AuditValue.ofJson)) (← f.text "status")⟩),
    ("history_update", ⟨["request_handle", "node_id", "details", "status"],
      fun f => do
        return .historyUpdate (← f.u32 "request_handle") (← f.text "node_id")
          (← f.text "details") (← f.text "status")⟩),
    ("node_management", ⟨["request_handle", "service", "node_id", "status"],
      fun f => do
        return .nodeManagement (← f.u32 "request_handle") (← f.text "service")
          (← f.text "node_id") (← f.text "status")⟩),
    ("subscriptions_transferred", ⟨["request_handle", "subscription_ids", "status"],
      fun f => do
        return .subscriptionsTransferred (← f.u32 "request_handle")
          (← f.required "subscription_ids" (Json.toList (Json.toUInt 32))) (← f.text "status")⟩),
    ("alarms_acknowledged", ⟨["by", "severity", "up_to_seq", "count"],
      fun f => do
        return .alarmsAcknowledged (← f.text "by") (← f.required "severity" Severity.ofJson)
          (← f.i64 "up_to_seq") (← f.u64 "count")⟩),
    ("ignored_writes", ⟨["node_id", "display_name", "count", "failed", "first", "last",
        "last_value", "last_status", "clients"],
      fun f => do
        return .ignoredWrites (← f.text "node_id") (← f.optional "display_name" Json.toText)
          (← f.u64 "count") (← f.u64 "failed") (← instant f "first") (← instant f "last")
          (← f.required "last_value" AuditValue.ofJson) (← f.text "last_status")
          (← f.texts "clients")⟩)]

/-- An event, by its type. -/
def ofJson (time : String → Option DateTime) (json : Json) : Option AuditEvent := do
  let (tag, body) ← json.tagged "type"
  let reader ← (readers time).lookup tag
  reader.read (← body.fields reader.names)

end AuditEvent

/-- An entry from the body of its record. -/
def AuditEntry.ofJson (time : String → Option DateTime) (json : Json) : Option AuditEntry := do
  let f ← json.fields ["ts", "target", "client", "event"]
  let ts ← f.required "ts" fun value => value.toText.bind time
  let target ← f.optional "target" Json.toText
  let client ← f.optional "client" ClientContext.ofJson
  let event ← f.required "event" (AuditEvent.ofJson time)
  return { ts, target, client, event }

/-! ## Which numbers fit -/

namespace AuditEvent

/-- Every number of the event fits its type. -/
def Typed : AuditEvent → Prop
  | retentionPruned deleted lastSeq _ => deleted < 2 ^ 64 ∧ IsI64 lastSeq
  | eventsLost count => count < 2 ^ 64
  | trailTruncated expectedSeq foundSeq => IsI64 expectedSeq ∧ IsI64 foundSeq
  | exportGap _ afterSeq nextSeq _ => IsI64 afterSeq ∧ IsI64 nextSeq
  | clockJumped seconds => IsI64 seconds
  | upstreamAvailable _ endpoints => endpoints < 2 ^ 64
  | connectionsRefused _ count _ => count < 2 ^ 64
  | changeIntent requestHandle .. => requestHandle < 2 ^ 32
  | write requestHandle .. => requestHandle < 2 ^ 32
  | call requestHandle .. => requestHandle < 2 ^ 32
  | historyUpdate requestHandle .. => requestHandle < 2 ^ 32
  | nodeManagement requestHandle .. => requestHandle < 2 ^ 32
  | subscriptionsTransferred requestHandle subscriptionIds _ =>
    requestHandle < 2 ^ 32 ∧ ∀ id ∈ subscriptionIds, id < 2 ^ 32
  | alarmsAcknowledged _ _ upToSeq count => IsI64 upToSeq ∧ count < 2 ^ 64
  | ignoredWrites _ _ count failed .. => count < 2 ^ 64 ∧ failed < 2 ^ 64
  | _ => True

/-- The instants in the event. -/
def instants : AuditEvent → List DateTime
  | ignoredWrites _ _ _ _ first last .. => [first, last]
  | _ => []

end AuditEvent

/-! ## What is written is read -/

namespace Json

/-- A number that fits is read as it was written. -/
theorem toUInt_nat {bits n : ℕ} (h : n < 2 ^ bits) : (nat n).toUInt bits = some n := if_pos h

/-- A signed integer of 64 bits is read as it was written. -/
theorem toI64_int {n : ℤ} (h : IsI64 n) : (int n).toI64 = some n := by
  obtain ⟨hlow, hhigh⟩ := h
  unfold int
  split_ifs with hn
  · rw [toI64, if_pos (by omega), Int.toNat_of_nonneg hn]
  · rw [toI64, if_pos hlow]

/-- A list is read if each of its values is. -/
theorem toList_array {α : Type} {read : Json → Option α} {toJson : α → Json} {l : List α}
    (h : ∀ a ∈ l, read (toJson a) = some a) : (Json.array (l.map toJson)).toList read = some l :=
  mapM_map_some h

/-- A list of texts is read as it was written. -/
theorem toList_texts (l : List String) : (texts l).toList toText = some l :=
  toList_array fun _ _ => rfl

end Json

namespace Members

variable {α : Type}

/-- One member is the only one. -/
@[simp] theorem single_singleton (name : String) (json : Json) :
    single [(name, json)] = some (some json) := rfl

/-- A member that is left out without a value is found, or not there. -/
theorem single_optional (key : String) (value : Option α) (toJson : α → Json) :
    single (Json.optional key value toJson) = some (value.map toJson) := by
  cases value <;> rfl

/-- An optional member is found under its own name only. -/
theorem filter_optional (name key : String) (value : Option α) (toJson : α → Json) :
    (Json.optional key value toJson).filter (fun member => member.1 = name) =
      if key = name then Json.optional key value toJson else [] := by
  cases value with
  | none => simp [Json.optional]
  | some a =>
    by_cases h : key = name
    · simp [Json.optional, h]
    · simp [Json.optional, h]

/-- A field is read that is there. -/
theorem required_eq {members : Members} {name : String} {read : Json → Option α} {json : Json}
    (h : members.field name = some (some json)) : members.required name read = read json := by
  rw [required, h]
  rfl

/-- A value is read that may be left out. -/
theorem elim_nullable {read : Json → Option α} {toJson : α → Json}
    (h : ∀ a, Json.nullable read (toJson a) = some (some a)) (value : Option α) :
    value.elim (some none) (Json.nullable read ∘ toJson) = some value := by
  cases value with
  | none => rfl
  | some a => exact h a

/-- An optional text is read as it was written. -/
theorem elim_text (value : Option String) :
    value.elim (some none) (Json.nullable Json.toText ∘ Json.string) = some value :=
  elim_nullable (fun _ => rfl) value

end Members

/-- A user is read as it was written. -/
theorem UserIdentity.ofJson_toJson (user : UserIdentity) :
    UserIdentity.ofJson user.toJson = some user := by
  cases user with
  | anonymous => rfl
  | userName name => rfl
  | certificate subject thumbprint => rfl
  | issuedToken => rfl

/-- A user that may be missing is read as it was written. -/
theorem UserIdentity.elim_toJson (user : Option UserIdentity) :
    user.elim (some none) (Json.nullable UserIdentity.ofJson ∘ UserIdentity.toJson) =
      some user := by
  refine Members.elim_nullable (fun user => ?_) user
  have hread := user.ofJson_toJson
  cases user <;> exact congrArg (Option.map some) hread

/-- A client is read as it was written. -/
theorem ClientContext.ofJson_toJson (client : ClientContext) :
    ClientContext.ofJson client.toJson = some client := by
  simp [ofJson, toJson, Json.fields, Members.text, Members.required, Members.optional,
    Members.withDefault, Members.field, Members.filter_optional, Members.single_optional,
    Members.elim_text, UserIdentity.elim_toJson, Json.toText]

/-- A value is read as it was written. -/
theorem AuditValue.ofJson_toJson (value : AuditValue) :
    AuditValue.ofJson value.toJson = some value := rfl

/-- A value that may be missing is read as it was written. -/
theorem AuditValue.elim_toJson (value : Option AuditValue) :
    value.elim (some none) (Json.nullable AuditValue.ofJson ∘ AuditValue.toJson) = some value :=
  Members.elim_nullable (fun _ => rfl) value

/-- An optional member has its own name. -/
theorem Json.keys_optional_sublist {α : Type} (key : String) (value : Option α)
    (toJson : α → Json) : ((Json.optional key value toJson).map Prod.fst).Sublist [key] := by
  cases value with
  | none => exact List.nil_sublist _
  | some a => exact List.Sublist.refl _

namespace AuditEvent

variable {time : DateTime → String} {parse : String → Option DateTime}

/-- The type of an event and its fields have different names. -/
theorem nodup_keys (event : AuditEvent) :
    ("type" :: (event.members time).map Prod.fst).Nodup := by
  cases event with
  | changeIntent requestHandle service nodeIds details =>
    have hnames : ("type" :: (["request_handle", "service", "node_ids"] ++ ["details"])).Nodup := by
      decide
    refine hnames.sublist (.cons_cons _ ?_)
    rw [members, List.map_append]
    refine (List.Sublist.refl _).append ?_
    split_ifs with hdetails
    · exact List.nil_sublist _
    · exact List.Sublist.refl _
  | write requestHandle nodeId displayName attributeName indexRange oldValue newValue
      writtenStatus sourceTimestamp serverTimestamp status =>
    have hnames : ("type" :: (["request_handle", "node_id"] ++ ["display_name"] ++
        ["attribute"] ++ ["index_range"] ++ ["old_value"] ++ ["new_value"] ++ ["written_status"] ++
        ["source_timestamp"] ++ ["server_timestamp"] ++ ["status"])).Nodup := by decide
    refine hnames.sublist (.cons_cons _ ?_)
    simp only [members, List.map_append]
    exact ((((((((((List.Sublist.refl _).append (Json.keys_optional_sublist ..)).append
      (.refl _)).append (Json.keys_optional_sublist ..)).append
      (Json.keys_optional_sublist ..)).append (.refl _)).append
      (Json.keys_optional_sublist ..)).append (Json.keys_optional_sublist ..)).append
      (Json.keys_optional_sublist ..)).append (.refl _))
  | call requestHandle objectId methodId displayName inputArguments status =>
    have hnames : ("type" :: (["request_handle", "object_id", "method_id"] ++ ["display_name"] ++
        ["input_arguments", "status"])).Nodup := by decide
    refine hnames.sublist (.cons_cons _ ?_)
    simp only [members, List.map_append]
    exact ((List.Sublist.refl _).append (Json.keys_optional_sublist ..)).append (.refl _)
  | ignoredWrites nodeId displayName count failed first last lastValue lastStatus clients =>
    have hnames : ("type" :: (["node_id"] ++ ["display_name"] ++ ["count", "failed", "first",
        "last", "last_value", "last_status", "clients"])).Nodup := by decide
    refine hnames.sublist (.cons_cons _ ?_)
    simp only [members, List.map_append]
    exact ((List.Sublist.refl _).append (Json.keys_optional_sublist ..)).append (.refl _)
  | _ =>
    simp only [members, List.map_cons, List.map_nil]
    decide

/-- The type of an event and its fields are told apart. -/
theorem tagged_toJson (event : AuditEvent) :
    (event.toJson time).tagged "type" = some (event.kind, .object (event.members time)) := by
  have hne : ∀ member ∈ event.members time, member.1 ≠ "type" := by
    have hkeys : ("type" :: (event.members time).map Prod.fst).Nodup := nodup_keys event
    intro member hmember heq
    apply (List.nodup_cons.1 hkeys).1
    exact heq ▸ List.mem_map_of_mem hmember
  have hother : (event.members time).filter (fun member => member.1 = "type") = [] := by
    rw [List.filter_eq_nil_iff]
    intro member hmember
    simpa using hne member hmember
  have hsame : (event.members time).filter (fun member => member.1 ≠ "type") =
      event.members time := by
    rw [List.filter_eq_self]
    intro member hmember
    simpa using hne member hmember
  have hfield : Members.field (("type", .string event.tag) :: event.members time) "type" =
      some (some (.string event.tag)) := by
    rw [Members.field, List.filter_cons_of_pos (by simp), hother,
      Members.single_singleton]
  rw [toJson, Json.tagged, Members.required_eq hfield, List.filter_cons_of_neg (by simp), hsame,
    Json.toText, Option.map_some, tag_eq_kind]

/-- An event is read by the reader of its kind. -/
theorem ofJson_eq {event : AuditEvent} {reader : Reader}
    (h : (readers parse).lookup event.kind = some reader) :
    ofJson parse (event.toJson time) = reader.read (event.members time) := by
  rw [ofJson, tagged_toJson]
  simp only [Option.bind_eq_bind, Option.bind_some, h]
  rfl

/-- An event of which every number fits is read as it was written. -/
theorem ofJson_toJson {event : AuditEvent} (htyped : event.Typed)
    (htime : ∀ t ∈ event.instants, parse (time t) = some t) :
    ofJson parse (event.toJson time) = some event := by
  cases event with
  | retentionPruned deleted lastSeq lastHash =>
    obtain ⟨hdeleted, hseq⟩ := htyped
    refine (ofJson_eq rfl).trans ?_
    simp [members, Members.u64, Members.i64, Members.text, Members.field, Members.required,
       Json.toUInt_nat hdeleted, Json.toI64_int hseq, Json.toText]
  | eventsLost count =>
    refine (ofJson_eq rfl).trans ?_
    simp [members, Members.u64, Members.field, Members.required,
      Json.toUInt_nat htyped]
  | trailTruncated expectedSeq foundSeq =>
    obtain ⟨hexpected, hfound⟩ := htyped
    refine (ofJson_eq rfl).trans ?_
    simp [members, Members.i64, Members.required, Members.field, Json.toI64_int hexpected,
      Json.toI64_int hfound]
  | exportGap destination afterSeq nextSeq reason =>
    obtain ⟨hafter, hnext⟩ := htyped
    refine (ofJson_eq rfl).trans ?_
    simp [members, Members.i64, Members.text, Members.required, Members.field, Json.toText,
      Json.toI64_int hafter, Json.toI64_int hnext]
  | clockJumped seconds =>
    refine (ofJson_eq rfl).trans ?_
    simp [members, Members.i64, Members.required, Members.field, Json.toI64_int htyped]
  | upstreamAvailable endpointUrl endpoints =>
    refine (ofJson_eq rfl).trans ?_
    simp [members, Members.u64, Members.text, Members.required, Members.field, Json.toText,
      Json.toUInt_nat htyped]
  | upstreamEndpointsChanged endpointUrl before after =>
    refine (ofJson_eq rfl).trans ?_
    simp [members, Members.text, Members.texts, Members.required, Members.field, Json.toText,
      Json.toList_texts]
  | connectionsRefused remoteAddr count reason =>
    refine (ofJson_eq rfl).trans ?_
    simp [members, Members.u64, Members.text, Members.required, Members.field, Json.toText,
      Json.toUInt_nat htyped]
  | changeIntent requestHandle service nodeIds details =>
    have hhandle : (Json.nat requestHandle).toUInt 32 = some requestHandle :=
      Json.toUInt_nat htyped
    have hread : (Json.array details).toList some = some details := by
      have hall := mapM_map_some (f := some) (g := id) fun json (_ : json ∈ details) => rfl
      rwa [List.map_id] at hall
    refine (ofJson_eq rfl).trans ?_
    by_cases hdetails : details = []
    · simp [members, Members.u32, Members.text, Members.texts, Members.required,
        Members.withDefault, Members.field, Members.single, Json.toText, Json.toList_texts, hhandle,
        hdetails]
    · simp [members, Members.u32, Members.text, Members.texts, Members.required,
        Members.withDefault, Members.field, Json.toText, Json.toList_texts, hhandle, hdetails,
        hread]
  | write requestHandle nodeId displayName attributeName indexRange oldValue newValue
      writtenStatus sourceTimestamp serverTimestamp status =>
    have hhandle : (Json.nat requestHandle).toUInt 32 = some requestHandle :=
      Json.toUInt_nat htyped
    refine (ofJson_eq rfl).trans ?_
    simp [members, Members.u32, Members.text, Members.required, Members.optional,
      Members.withDefault, Members.field, Members.filter_optional, Members.single_optional,
      Members.elim_text, AuditValue.elim_toJson, AuditValue.ofJson_toJson, Json.toText, hhandle]
  | call requestHandle objectId methodId displayName inputArguments status =>
    have hhandle : (Json.nat requestHandle).toUInt 32 = some requestHandle :=
      Json.toUInt_nat htyped
    have hinputs : (Json.array (inputArguments.map AuditValue.toJson)).toList AuditValue.ofJson =
        some inputArguments := Json.toList_array fun value _ => value.ofJson_toJson
    refine (ofJson_eq rfl).trans ?_
    simp [members, Members.u32, Members.text, Members.required, Members.optional,
      Members.withDefault, Members.field, Members.filter_optional, Members.single_optional,
      Members.elim_text, Json.toText, hhandle, hinputs]
  | historyUpdate requestHandle nodeId details status =>
    have hhandle : (Json.nat requestHandle).toUInt 32 = some requestHandle :=
      Json.toUInt_nat htyped
    refine (ofJson_eq rfl).trans ?_
    simp [members, Members.u32, Members.text, Members.required, Members.field, Json.toText, hhandle]
  | nodeManagement requestHandle service nodeId status =>
    have hhandle : (Json.nat requestHandle).toUInt 32 = some requestHandle :=
      Json.toUInt_nat htyped
    refine (ofJson_eq rfl).trans ?_
    simp [members, Members.u32, Members.text, Members.required, Members.field, Json.toText, hhandle]
  | subscriptionsTransferred requestHandle subscriptionIds status =>
    obtain ⟨hhandle, hids⟩ := htyped
    have hread : (Json.array (subscriptionIds.map .nat)).toList (Json.toUInt 32) =
        some subscriptionIds := Json.toList_array fun id hid => Json.toUInt_nat (hids id hid)
    refine (ofJson_eq rfl).trans ?_
    simp [members, Members.u32, Members.text, Members.required, Members.field, Json.toText,
      Json.toUInt_nat hhandle, hread]
  | alarmsAcknowledged by_ severity upToSeq count =>
    obtain ⟨hseq, hcount⟩ := htyped
    have hseverity : Severity.ofJson (.string severity.name) = some severity := by
      cases severity <;> rfl
    refine (ofJson_eq rfl).trans ?_
    simp [members, Members.u64, Members.i64, Members.text, Members.required, Members.field,
      Json.toText, Json.toI64_int hseq, Json.toUInt_nat hcount, hseverity]
  | ignoredWrites nodeId displayName count failed first last lastValue lastStatus clients =>
    obtain ⟨hcount, hfailed⟩ := htyped
    have hfirst : parse (time first) = some first := htime first (List.mem_cons_self ..)
    have hlast : parse (time last) = some last := htime last (by simp [instants])
    refine (ofJson_eq rfl).trans ?_
    simp [members, Members.u64, Members.text, Members.texts, Members.required, Members.optional,
      Members.withDefault, Members.field, Members.filter_optional, Members.single_optional,
      Members.elim_text, AuditValue.ofJson_toJson, Json.toText, Json.toList_texts,
      Json.toUInt_nat hcount, Json.toUInt_nat hfailed, hfirst, hlast]
  | _ => exact (ofJson_eq rfl).trans rfl

end AuditEvent

/-- An entry of which every number fits is read as it was written. -/
theorem AuditEntry.ofJson_toJson {time : DateTime → String} {parse : String → Option DateTime}
    {entry : AuditEntry} (htyped : entry.event.Typed)
    (htime : ∀ t ∈ entry.ts :: entry.event.instants, parse (time t) = some t) :
    AuditEntry.ofJson parse (entry.toJson time) = some entry := by
  obtain ⟨hts, hevent⟩ := List.forall_mem_cons.1 htime
  have hread := AuditEvent.ofJson_toJson htyped hevent
  have hclient : entry.client.elim (some none)
      (Json.nullable ClientContext.ofJson ∘ ClientContext.toJson) = some entry.client := by
    refine Members.elim_nullable (fun client => ?_) _
    have hread := client.ofJson_toJson
    exact congrArg (Option.map some) hread
  simp [ofJson, toJson, Json.fields, Members.required, Members.optional, Members.withDefault,
    Members.field, Members.filter_optional, Members.single_optional, Members.elim_text,
    Json.toText, hclient, hts, hread]

end AuditGateway
