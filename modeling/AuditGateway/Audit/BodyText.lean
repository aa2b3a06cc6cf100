import AuditGateway.Audit.Decode
import AuditGateway.Audit.Store

set_option relaxedAutoImplicit false
set_option autoImplicit false

/-!
# Bodies as text

A body is stored as text. The text of a JSON value is parsed to the same value, as long as the
value is not nested too deep; only a float may come back rounded. So an entry is read from its body
as it was written, up to the rounding of the floats in its values, which neither its type nor its
columns depend on.

## Main definitions

* `JsonCrates` — the functions of other crates that print and parse JSON.
* `Json.Printable` — a value that is nested at most so deep, with numbers of 64 bits.
* `Json.round`, `AuditEntry.round` — with every float as it is parsed.

## Main results

* `AuditEntry.round_toJson` — rounding commutes with writing.
* `AuditEntry.printable_toJson` — how deep a body is nested.
* `JsonCrates.fromJson_toJson` — a body is read back.
-/

namespace AuditGateway

/-! ## Rounding -/

/-- Only floats are rounded. -/
def JsonNumber.round (r : UInt64 → UInt64) : JsonNumber → JsonNumber
  | .posInt n => .posInt n
  | .negInt n => .negInt n
  | .float bits => .float (r bits)

namespace Json

variable (r : UInt64 → UInt64)

mutual

/-- The value with every float rounded. -/
def round : Json → Json
  | .null => .null
  | .bool b => .bool b
  | .number n => .number (n.round r)
  | .string s => .string s
  | .array values => .array (roundValues values)
  | .object members => .object (roundMembers members)

/-- Every value of an array is rounded. -/
def roundValues : List Json → List Json
  | [] => []
  | value :: values => round value :: roundValues values

/-- Every value of an object is rounded. -/
def roundMembers : List (String × Json) → List (String × Json)
  | [] => []
  | (key, value) :: members => (key, round value) :: roundMembers members

end

variable {r}

/-- The values of an array are rounded one by one. -/
theorem roundValues_eq (values : List Json) : roundValues r values = values.map (round r) := by
  induction values with
  | nil => rw [roundValues, List.map_nil]
  | cons value values ih => rw [roundValues, ih, List.map_cons]

/-- The members of an object are rounded one by one. -/
theorem roundMembers_eq (members : List (String × Json)) :
    roundMembers r members = members.map fun member => (member.1, member.2.round r) := by
  induction members with
  | nil => rw [roundMembers, List.map_nil]
  | cons member members ih =>
    obtain ⟨key, value⟩ := member
    rw [roundMembers, ih, List.map_cons]

/-- A string is not rounded. -/
@[simp] theorem round_string (s : String) : (Json.string s).round r = .string s := by rw [round]

/-- Rounding goes into arrays. -/
@[simp] theorem round_array (values : List Json) :
    (Json.array values).round r = .array (values.map (round r)) := by
  rw [round, roundValues_eq]

/-- Rounding goes into objects. -/
@[simp] theorem round_object (members : List (String × Json)) :
    (Json.object members).round r =
      .object (members.map fun member => (member.1, member.2.round r)) := by
  rw [round, roundMembers_eq]

/-- A natural number is not rounded. -/
@[simp] theorem round_nat (n : ℕ) : (nat n).round r = nat n := by
  rw [nat, round]
  rfl

/-- An integer is not rounded. -/
@[simp] theorem round_int (n : ℤ) : (int n).round r = int n := by
  unfold int
  split_ifs
  · rw [round]
    rfl
  · rw [round]
    rfl

/-- A list of texts is not rounded. -/
@[simp] theorem round_texts (l : List String) : (texts l).round r = texts l := by
  rw [texts, round_array, List.map_map]
  congr 1

mutual

/-- Nothing else is changed: a value stays the same if its floats do. -/
theorem round_of_exact (h : ∀ bits, r bits = bits) : ∀ json : Json, json.round r = json
  | .null => by rw [round]
  | .bool b => by rw [round]
  | .number n => by
    rw [round]
    cases n with
    | posInt n => rfl
    | negInt n => rfl
    | float bits => rw [JsonNumber.round, h]
  | .string s => by rw [round]
  | .array values => by rw [round, roundValues_of_exact h values]
  | .object members => by rw [round, roundMembers_of_exact h members]

/-- Values are as they were if no float is rounded. -/
theorem roundValues_of_exact (h : ∀ bits, r bits = bits) :
    ∀ values : List Json, roundValues r values = values
  | [] => by rw [roundValues]
  | value :: values => by
    rw [roundValues, round_of_exact h value, roundValues_of_exact h values]

/-- Members are as they were if no float is rounded. -/
theorem roundMembers_of_exact (h : ∀ bits, r bits = bits) :
    ∀ members : List (String × Json), roundMembers r members = members
  | [] => by rw [roundMembers]
  | (key, value) :: members => by
    rw [roundMembers, round_of_exact h value, roundMembers_of_exact h members]

end

/-- A member that is left out without a value is rounded with its value. -/
theorem map_optional {α β : Type} (key : String) (value : Option α) {f : α → Json} {g : β → Json}
    {h : α → β} (hcomm : ∀ a, (f a).round r = g (h a)) :
    (optional key value f).map (fun member => (member.1, member.2.round r)) =
      optional key (value.map h) g := by
  cases value with
  | none => rfl
  | some a => simp [optional, hcomm]

/-- An optional text is not rounded. -/
theorem map_optional_text (key : String) (value : Option String) :
    (optional key value .string).map (fun member => (member.1, member.2.round r)) =
      optional key value .string := by
  cases value <;> simp [optional]

end Json

variable {r : UInt64 → UInt64} {time : DateTime → String}

/-- The value with every float rounded. -/
def AuditValue.round (r : UInt64 → UInt64) (value : AuditValue) : AuditValue :=
  { value with value := value.value.round r }

/-- A value is rounded before or behind its conversion. -/
@[simp] theorem AuditValue.round_toJson (value : AuditValue) :
    value.toJson.round r = (value.round r).toJson := by
  simp [toJson, round]

/-- The event with every float in its values rounded. -/
def AuditEvent.round (r : UInt64 → UInt64) : AuditEvent → AuditEvent
  | changeIntent requestHandle service nodeIds details =>
    changeIntent requestHandle service nodeIds (details.map (Json.round r))
  | write requestHandle nodeId displayName attributeName indexRange oldValue newValue
      writtenStatus sourceTimestamp serverTimestamp status =>
    write requestHandle nodeId displayName attributeName indexRange
      (oldValue.map (AuditValue.round r)) (newValue.round r) writtenStatus sourceTimestamp
      serverTimestamp status
  | call requestHandle objectId methodId displayName inputArguments status =>
    call requestHandle objectId methodId displayName (inputArguments.map (AuditValue.round r))
      status
  | ignoredWrites nodeId displayName count failed first last lastValue lastStatus clients =>
    ignoredWrites nodeId displayName count failed first last (lastValue.round r) lastStatus clients
  | event => event

/-- An entry as it is read back: the floats in its values are rounded. -/
def AuditEntry.round (r : UInt64 → UInt64) (entry : AuditEntry) : AuditEntry :=
  { entry with event := entry.event.round r }

namespace AuditEvent

/-- Rounding does not change the kind of an event. -/
@[simp] theorem kind_round (event : AuditEvent) : (event.round r).kind = event.kind := by
  cases event <;> rfl

/-- Rounding does not change the node of an event. -/
@[simp] theorem nodeId_round (event : AuditEvent) : (event.round r).nodeId = event.nodeId := by
  cases event <;> rfl

/-- Rounding does not change what retention removed. -/
@[simp] theorem pruned?_round (event : AuditEvent) : (event.round r).pruned? = event.pruned? := by
  cases event <;> rfl

/-- Rounding does not change the instants of an event. -/
@[simp] theorem instants_round (event : AuditEvent) :
    (event.round r).instants = event.instants := by
  cases event <;> rfl

/-- A rounded event has its numbers of their types. -/
theorem typed_round {event : AuditEvent} (h : event.Typed) : (event.round r).Typed := by
  cases event <;> exact h

/-- The fields of the rounded event. -/
theorem round_members (event : AuditEvent) :
    (event.members time).map (fun member => (member.1, member.2.round r)) =
      (event.round r).members time := by
  cases event with
  | changeIntent requestHandle service nodeIds details =>
    by_cases hdetails : details = []
    · simp [members, round, hdetails]
    · simp [members, round, hdetails]
  | write requestHandle nodeId displayName attributeName indexRange oldValue newValue
      writtenStatus sourceTimestamp serverTimestamp status =>
    simp only [members, round, List.map_append, Json.map_optional_text,
      Json.map_optional "old_value" oldValue AuditValue.round_toJson]
    simp
  | call requestHandle objectId methodId displayName inputArguments status =>
    simp [members, round, Json.map_optional_text]
  | ignoredWrites nodeId displayName count failed first last lastValue lastStatus clients =>
    simp [members, round, Json.map_optional_text]
  | _ => simp [members, round]

/-- An event is rounded before or behind its conversion. -/
theorem round_toJson (event : AuditEvent) :
    (event.toJson time).round r = (event.round r).toJson time := by
  rw [toJson, Json.round_object, List.map_cons, round_members, toJson, tag_eq_kind, tag_eq_kind,
    kind_round, Json.round_string]

end AuditEvent

/-- Nothing of a user is rounded. -/
theorem UserIdentity.round_toJson (user : UserIdentity) : user.toJson.round r = user.toJson := by
  cases user <;> simp [toJson]

/-- Nothing of a client is rounded. -/
theorem ClientContext.round_toJson (client : ClientContext) :
    client.toJson.round r = client.toJson := by
  have huser := Json.map_optional (r := r) "user" client.user (h := id) UserIdentity.round_toJson
  rw [Option.map_id_apply] at huser
  simp [toJson, Json.map_optional_text, huser]

/-- **Rounding commutes with writing** an entry. -/
theorem AuditEntry.round_toJson (entry : AuditEntry) :
    (entry.toJson time).round r = (entry.round r).toJson time := by
  have hclient := Json.map_optional (r := r) "client" entry.client (h := id)
    ClientContext.round_toJson
  rw [Option.map_id_apply] at hclient
  simp [toJson, round, Json.map_optional_text, hclient, AuditEvent.round_toJson]

/-- Rounding does not change the columns of an entry. -/
theorem columns_round (c : Crates) (entry : AuditEntry) :
    columns c (entry.round r) = columns c entry := by
  simp [columns, AuditEntry.round]

/-! ## Nesting -/

/-- The number fits into 64 bits. -/
def JsonNumber.Fits : JsonNumber → Prop
  | .posInt n => n < 2 ^ 64
  | .negInt n => -2 ^ 63 ≤ n ∧ n < 0
  | .float _ => True

namespace Json

/-- The value is nested at most so deep, its numbers fit, and no object has a name twice. -/
def Printable : ℕ → Json → Prop
  | _, .null => True
  | _, .bool _ => True
  | _, .number n => n.Fits
  | _, .string _ => True
  | 0, .array _ => False
  | 0, .object _ => False
  | depth + 1, .array values => ∀ value ∈ values, value.Printable depth
  | depth + 1, .object members =>
    (members.map Prod.fst).Nodup ∧ ∀ member ∈ members, member.2.Printable depth

/-- Null can be printed. -/
@[simp] theorem printable_null (depth : ℕ) : null.Printable depth := by
  cases depth <;> trivial

/-- A truth value can be printed. -/
@[simp] theorem printable_bool (depth : ℕ) (b : Bool) : (bool b).Printable depth := by
  cases depth <;> trivial

/-- A text can be printed. -/
@[simp] theorem printable_string (depth : ℕ) (s : String) : (string s).Printable depth := by
  cases depth <;> trivial

/-- A number that fits can be printed. -/
theorem printable_number {n : JsonNumber} (h : n.Fits) (depth : ℕ) :
    (number n).Printable depth := by
  cases depth <;> exact h

/-- A natural number of 64 bits can be printed. -/
theorem printable_nat {n : ℕ} (h : n < 2 ^ 64) (depth : ℕ) : (nat n).Printable depth := by
  have hfits : (JsonNumber.posInt n).Fits := h
  exact printable_number hfits depth

/-- A natural number of 32 bits can be printed. -/
theorem printable_u32 {n : ℕ} (h : n < 2 ^ 32) (depth : ℕ) : (nat n).Printable depth :=
  printable_nat (h.trans (by decide)) depth

/-- A signed integer of 64 bits can be printed. -/
theorem printable_int {n : ℤ} (h : IsI64 n) (depth : ℕ) : (int n).Printable depth := by
  obtain ⟨hlow, hhigh⟩ := h
  unfold int
  split_ifs with hn
  · exact printable_nat (by omega) depth
  · have hfits : (JsonNumber.negInt n).Fits := ⟨hlow, by omega⟩
    exact printable_number hfits depth

/-- What fits into a depth fits into a greater one.

**Proof sketch.** Induction on the depth: the elements of an array and the members of an object fit
into a smaller one. -/
theorem Printable.mono {d depth : ℕ} {json : Json} (h : json.Printable d) (hle : d ≤ depth) :
    json.Printable depth := by
  induction d generalizing depth json with
  | zero =>
    cases json with
    | null => exact printable_null depth
    | bool b => exact printable_bool depth b
    | number n => exact printable_number h depth
    | string s => exact printable_string depth s
    | array values => exact h.elim
    | object members => exact h.elim
  | succ d ih =>
    obtain ⟨depth, rfl⟩ : ∃ k, depth = k + 1 := ⟨depth - 1, by omega⟩
    have hle : d ≤ depth := by omega
    cases json with
    | null => exact printable_null _
    | bool b => exact printable_bool _ b
    | number n => exact printable_number h _
    | string s => exact printable_string _ s
    | array values => exact fun value hvalue => ih (h value hvalue) hle
    | object members => exact ⟨h.1, fun member hmember => ih (h.2 member hmember) hle⟩

/-- An array is one deeper than its values. -/
theorem printable_array {depth : ℕ} {values : List Json}
    (h : ∀ value ∈ values, value.Printable depth) : (array values).Printable (depth + 1) := h

/-- An object is one deeper than its values, and needs different names. -/
theorem printable_object {depth : ℕ} {members : List (String × Json)}
    (hkeys : (members.map Prod.fst).Nodup) (h : ∀ member ∈ members, member.2.Printable depth) :
    (object members).Printable (depth + 1) := ⟨hkeys, h⟩

/-- A list of texts can be printed. -/
theorem printable_texts (depth : ℕ) (l : List String) : (texts l).Printable (depth + 1) := by
  refine printable_array fun value hvalue => ?_
  obtain ⟨s, -, rfl⟩ := List.mem_map.1 hvalue
  exact printable_string depth s

/-- An optional value can be printed if the value can. -/
theorem printable_optional {α : Type} {depth : ℕ} (key : String) {value : Option α}
    {toJson : α → Json} (h : ∀ a ∈ value, (toJson a).Printable depth) :
    ∀ member ∈ optional key value toJson, member.2.Printable depth := by
  intro member hmember
  obtain ⟨a, ha, rfl⟩ := List.mem_map.1 hmember
  exact h a (Option.mem_toList.1 ha)

/-- An optional text can be printed. -/
theorem printable_optional_text {depth : ℕ} (key : String) (value : Option String) :
    ∀ member ∈ optional key value .string, member.2.Printable depth :=
  printable_optional key fun s _ => printable_string depth s

end Json

/-- A user can be printed. -/
theorem UserIdentity.printable_toJson (user : UserIdentity) : user.toJson.Printable 1 := by
  cases user <;> exact Json.printable_object (by simp) (by simp)

/-- A client can be printed. -/
theorem ClientContext.printable_toJson (client : ClientContext) : client.toJson.Printable 2 := by
  have hnames : (["remote_addr"] ++ (["application_uri"] ++ ["application_name"] ++
      ["certificate_thumbprint"] ++ ["user"] ++ ["session_id"])).Nodup := by decide
  have huser := Json.printable_optional "user" fun user (_ : user ∈ client.user) =>
    user.printable_toJson
  refine Json.printable_object (hnames.sublist ?_) ?_
  · simp only [List.map_cons, List.map_append]
    exact .cons_cons _ (((((Json.keys_optional_sublist ..).append
      (Json.keys_optional_sublist ..)).append (Json.keys_optional_sublist ..)).append
      (Json.keys_optional_sublist ..)).append (Json.keys_optional_sublist ..))
  · simp only [List.forall_mem_cons, List.forall_mem_append]
    exact ⟨Json.printable_string _ _, ⟨⟨⟨Json.printable_optional_text _ _,
      Json.printable_optional_text _ _⟩, Json.printable_optional_text _ _⟩, huser⟩,
      Json.printable_optional_text _ _⟩

/-- A value is one deeper in its record. -/
theorem AuditValue.printable_toJson {value : AuditValue} {depth : ℕ}
    (h : value.value.Printable depth) : value.toJson.Printable (depth + 1) := by
  refine Json.printable_object (by simp) ?_
  simp only [List.forall_mem_cons]
  exact ⟨Json.printable_string .., h, by simp⟩

namespace AuditEvent

/-- The values in the event are nested at most so deep. -/
def Nested (depth : ℕ) : AuditEvent → Prop
  | changeIntent _ _ _ details => ∀ json ∈ details, json.Printable (depth + 3)
  | write _ _ _ _ _ oldValue newValue .. =>
    (∀ value ∈ oldValue, value.value.Printable depth) ∧ newValue.value.Printable depth
  | call _ _ _ _ inputArguments _ => ∀ value ∈ inputArguments, value.value.Printable depth
  | ignoredWrites _ _ _ _ _ _ lastValue .. => lastValue.value.Printable depth
  | _ => True

/-- How deep the fields of an event are nested. -/
theorem printable_members {event : AuditEvent} {depth : ℕ} (htyped : event.Typed)
    (h : event.Nested depth) :
    ∀ member ∈ event.members time, member.2.Printable (depth + 4) := by
  cases event with
  | retentionPruned deleted lastSeq lastHash =>
    obtain ⟨hdeleted, hseq⟩ := htyped
    simp [members, Json.printable_nat hdeleted, Json.printable_int hseq]
  | eventsLost count => simp [members, Json.printable_nat htyped]
  | trailTruncated expectedSeq foundSeq =>
    obtain ⟨hexpected, hfound⟩ := htyped
    simp [members, Json.printable_int hexpected, Json.printable_int hfound]
  | exportGap destination afterSeq nextSeq reason =>
    obtain ⟨hafter, hnext⟩ := htyped
    simp [members, Json.printable_int hafter, Json.printable_int hnext]
  | clockJumped seconds => simp [members, Json.printable_int htyped]
  | upstreamAvailable endpointUrl endpoints => simp [members, Json.printable_nat htyped]
  | upstreamEndpointsChanged endpointUrl before after => simp [members, Json.printable_texts]
  | connectionsRefused remoteAddr count reason => simp [members, Json.printable_nat htyped]
  | changeIntent requestHandle service nodeIds details =>
    have hhandle : (Json.nat requestHandle).Printable (depth + 4) :=
      Json.printable_u32 htyped _
    have hdetails : (Json.array details).Printable (depth + 4) := Json.printable_array h
    rw [members, List.forall_mem_append]
    refine ⟨by simp [hhandle, Json.printable_texts], ?_⟩
    split_ifs with hnone
    · simp
    · simpa using hdetails
  | write requestHandle nodeId displayName attributeName indexRange oldValue newValue
      writtenStatus sourceTimestamp serverTimestamp status =>
    obtain ⟨hold, hnew⟩ := h
    have hhandle : (Json.nat requestHandle).Printable (depth + 4) :=
      Json.printable_u32 htyped _
    have hold' := Json.printable_optional "old_value" fun value hvalue =>
      (AuditValue.printable_toJson (hold value hvalue)).mono (show depth + 1 ≤ depth + 4 by omega)
    have hnew' : newValue.toJson.Printable (depth + 4) :=
      (AuditValue.printable_toJson hnew).mono (by omega)
    have htext := @Json.printable_optional_text (depth + 4)
    simp only [members, List.forall_mem_append]
    refine ⟨⟨⟨⟨⟨⟨⟨⟨⟨?_, htext _ _⟩, ?_⟩, htext _ _⟩, hold'⟩, ?_⟩, htext _ _⟩, htext _ _⟩,
      htext _ _⟩, ?_⟩
    · simp [hhandle]
    · simp
    · simpa using hnew'
    · simp
  | call requestHandle objectId methodId displayName inputArguments status =>
    have hhandle : (Json.nat requestHandle).Printable (depth + 4) :=
      Json.printable_u32 htyped _
    have hinputs : (Json.array (inputArguments.map AuditValue.toJson)).Printable (depth + 4) := by
      refine Json.printable_array fun json hjson => ?_
      obtain ⟨value, hvalue, rfl⟩ := List.mem_map.1 hjson
      exact (AuditValue.printable_toJson (h value hvalue)).mono (by omega)
    simp only [members, List.forall_mem_append]
    refine ⟨⟨?_, Json.printable_optional_text _ _⟩, ?_⟩
    · simp [hhandle]
    · simp [hinputs]
  | historyUpdate requestHandle nodeId details status =>
    have hhandle : (Json.nat requestHandle).Printable (depth + 4) :=
      Json.printable_u32 htyped _
    simp [members, hhandle]
  | nodeManagement requestHandle service nodeId status =>
    have hhandle : (Json.nat requestHandle).Printable (depth + 4) :=
      Json.printable_u32 htyped _
    simp [members, hhandle]
  | subscriptionsTransferred requestHandle subscriptionIds status =>
    obtain ⟨hlt, hids⟩ := htyped
    have hhandle : (Json.nat requestHandle).Printable (depth + 4) :=
      Json.printable_u32 hlt _
    have hids' : (Json.array (subscriptionIds.map .nat)).Printable (depth + 4) := by
      refine Json.printable_array fun json hjson => ?_
      obtain ⟨id, hid, rfl⟩ := List.mem_map.1 hjson
      exact Json.printable_u32 (hids id hid) _
    simp [members, hhandle, hids']
  | alarmsAcknowledged by_ severity upToSeq count =>
    obtain ⟨hseq, hcount⟩ := htyped
    simp [members, Json.printable_int hseq, Json.printable_nat hcount]
  | ignoredWrites nodeId displayName count failed first last lastValue lastStatus clients =>
    obtain ⟨hcount, hfailed⟩ := htyped
    have hlast : lastValue.toJson.Printable (depth + 4) :=
      (AuditValue.printable_toJson h).mono (by omega)
    simp only [members, List.forall_mem_append]
    refine ⟨⟨?_, Json.printable_optional_text _ _⟩, ?_⟩
    · simp
    · simp [hlast, Json.printable_nat hcount, Json.printable_nat hfailed, Json.printable_texts]
  | _ => simp [members]

/-- How deep an event is nested. -/
theorem printable_toJson {event : AuditEvent} {depth : ℕ} (htyped : event.Typed)
    (h : event.Nested depth) : (event.toJson time).Printable (depth + 5) := by
  refine Json.printable_object (nodup_keys event) ?_
  rw [List.forall_mem_cons]
  exact ⟨Json.printable_string _ _, printable_members htyped h⟩

end AuditEvent

/-- **How deep a body is nested**: by six levels more than the values in it. -/
theorem AuditEntry.printable_toJson {entry : AuditEntry} {depth : ℕ}
    (htyped : entry.event.Typed) (h : entry.event.Nested depth) :
    (entry.toJson time).Printable (depth + 6) := by
  have hnames : (["ts"] ++ (["target"] ++ ["client"] ++ ["event"])).Nodup := by decide
  have hclient := Json.printable_optional "client" fun client (_ : client ∈ entry.client) =>
    client.printable_toJson.mono (show 2 ≤ depth + 5 by omega)
  have hevent : (entry.event.toJson time).Printable (depth + 5) :=
    AuditEvent.printable_toJson htyped h
  refine Json.printable_object (hnames.sublist ?_) ?_
  · simp only [List.map_cons, List.map_append]
    exact .cons_cons _ (((Json.keys_optional_sublist ..).append
      (Json.keys_optional_sublist ..)).append (.refl _))
  · simp only [List.forall_mem_cons, List.forall_mem_append]
    exact ⟨Json.printable_string _ _, ⟨Json.printable_optional_text _ _, hclient⟩, hevent, by simp⟩

/-! ## The text -/

/-- The functions of other crates that print and parse JSON. -/
structure JsonCrates where
  print : Json → String
  parse : String → Option Json
  /-- What a float is parsed to that was printed. -/
  round : UInt64 → UInt64
  /-- What the parser or a reader says to a text. -/
  message : String → String
  /-- The text of an instant in a body. -/
  time : DateTime → String
  parseTime : String → Option DateTime

namespace JsonCrates

/-- The functions that the store calls. -/
def crates (x : JsonCrates) (sha256 : ByteArray → List UInt8) (rfc3339 : DateTime → String) :
    Crates where
  sha256 := sha256
  toJson entry := x.print (entry.toJson x.time)
  fromJson text :=
    match (x.parse text).bind (AuditEntry.ofJson x.parseTime) with
    | some entry => .ok entry
    | none => .error (x.message text)
  rfc3339 := rfc3339

/-- How deep a value may be nested that the parser accepts. -/
def maxDepth : ℕ := 127

/-- The parser reads what was printed, unless it is nested too deep, and every instant is read. -/
structure Lawful (x : JsonCrates) (entry : AuditEntry) : Prop where
  parse_print : (entry.toJson x.time).Printable maxDepth →
    x.parse (x.print (entry.toJson x.time)) = some ((entry.toJson x.time).round x.round)
  parse_time : ∀ t ∈ entry.ts :: entry.event.instants, x.parseTime (x.time t) = some t

variable {x : JsonCrates} {sha256 : ByteArray → List UInt8} {rfc3339 : DateTime → String}

/-- **A body is read back**: the entry with its floats rounded, unless its values are nested too
deep. -/
theorem fromJson_toJson {entry : AuditEntry} (hx : x.Lawful entry) {depth : ℕ}
    (htyped : entry.event.Typed) (hnested : entry.event.Nested depth)
    (hdepth : depth + 6 ≤ maxDepth) :
    (x.crates sha256 rfc3339).fromJson ((x.crates sha256 rfc3339).toJson entry) =
      .ok (entry.round x.round) := by
  have hprintable : (entry.toJson x.time).Printable maxDepth :=
    (AuditEntry.printable_toJson htyped hnested).mono hdepth
  have hround : ∀ t ∈ (entry.round x.round).ts :: (entry.round x.round).event.instants,
      x.parseTime (x.time t) = some t := by
    simpa [AuditEntry.round] using hx.parse_time
  have hread := AuditEntry.ofJson_toJson (AuditEvent.typed_round htyped) hround
  simp only [crates, hx.parse_print hprintable, AuditEntry.round_toJson, Option.bind_some, hread]

end JsonCrates

end AuditGateway
