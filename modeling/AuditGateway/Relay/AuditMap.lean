import AuditGateway.Lib.Partial
import AuditGateway.Relay.Ignore

set_option relaxedAutoImplicit false
set_option autoImplicit false

/-!
# Audit plans

How change requests and their responses become audit events. A plan captures what is needed of
a request before it is forwarded; the events combine it with the response. Planning renders the
values of the request, so it panics where rendering does, and then has no result.

## Main definitions

* `RequestMessage`, `ResponseMessage` — the services, with what the relay reads of them.
* `isAudited`, `AuditMap.plan` — which requests are audited, and their plans.
* `AuditPlan.takeIgnored`, `AuditPlan.preRead`, `AuditPlan.applyPreRead` — summarised writes, and
  the reads sent with a change.
* `AuditPlan.intent`, `AuditPlan.events` — the records before and after a change.

## Main results

* `AuditMap.plan_isSome_iff` — which requests can be planned.
* `AuditMap.isSome_of_plan_eq` — a planned request has a plan exactly if it is audited.
* `AuditPlan.applyPreRead_isSome` — which results of reads can be applied.
-/

namespace AuditGateway

/-! ## Requests and responses -/

/-- What every request carries. -/
structure RequestHeader where
  authenticationToken : NodeId
  requestHandle : ℕ
  timeoutHint : ℕ

/-- A value that is to be written. -/
structure WriteValue where
  nodeId : NodeId
  attributeId : ℕ
  /-- The text of the index range, if there is one. -/
  indexRange : Option String
  value : DataValue

/-- A method that is to be called. -/
structure CallMethodRequest where
  /-- The text of the object's node. -/
  objectId : String
  methodId : NodeId
  inputArguments : Option (List Variant)

/-- The texts of the two nodes. -/
structure AddNodesItem where
  requestedNewNodeId : String
  parentNodeId : String

/-- The texts of the two nodes. -/
structure ReferencesItem where
  sourceNodeId : String
  targetNodeId : String

/-- A value that is to be read. -/
structure ReadValueId where
  nodeId : NodeId
  attributeId : ℕ
  indexRange : Option String := none

/-- A request of a client, by its service. -/
inductive RequestMessage
  -- answered by the gateway itself
  | openSecureChannel (header : RequestHeader)
  | closeSecureChannel (header : RequestHeader)
  | getEndpoints (header : RequestHeader)
  | findServers (header : RequestHeader)
  | findServersOnNetwork (header : RequestHeader)
  | registerServer (header : RequestHeader)
  | registerServer2 (header : RequestHeader)
  -- session services
  /-- With the client's description of itself. -/
  | createSession (header : RequestHeader) (applicationUri applicationName : String)
  | activateSession (header : RequestHeader)
  | closeSession (header : RequestHeader)
  -- changes
  | write (header : RequestHeader) (nodesToWrite : Option (List WriteValue))
  | call (header : RequestHeader) (methodsToCall : Option (List CallMethodRequest))
  | historyUpdate (header : RequestHeader)
      (historyUpdateDetails : Option (List ExtensionObject))
  | addNodes (header : RequestHeader) (nodesToAdd : Option (List AddNodesItem))
  /-- The texts of the nodes. -/
  | deleteNodes (header : RequestHeader) (nodesToDelete : Option (List String))
  | addReferences (header : RequestHeader) (referencesToAdd : Option (List ReferencesItem))
  | deleteReferences (header : RequestHeader) (referencesToDelete : Option (List ReferencesItem))
  | transferSubscriptions (header : RequestHeader) (subscriptionIds : Option (List ℕ))
  /-- Any other service. -/
  | other (header : RequestHeader)

/-- The header of a request. -/
def RequestMessage.requestHeader : RequestMessage → RequestHeader
  | openSecureChannel header => header
  | closeSecureChannel header => header
  | getEndpoints header => header
  | findServers header => header
  | findServersOnNetwork header => header
  | registerServer header => header
  | registerServer2 header => header
  | createSession header .. => header
  | activateSession header => header
  | closeSession header => header
  | write header _ => header
  | call header _ => header
  | historyUpdate header _ => header
  | addNodes header _ => header
  | deleteNodes header _ => header
  | addReferences header _ => header
  | deleteReferences header _ => header
  | transferSubscriptions header _ => header
  | other header => header

/-- What every response carries. -/
structure ResponseHeader where
  requestHandle : ℕ
  serviceResult : StatusCode

/-- A response, by its service. Where the results are structures, their status codes. -/
inductive ResponseMessage
  | createSession (header : ResponseHeader) (sessionId : String) (authenticationToken : NodeId)
      (revisedSessionTimeout : ℕ)
  | activateSession (header : ResponseHeader)
  | read (header : ResponseHeader) (results : Option (List DataValue))
  | write (header : ResponseHeader) (results : Option (List StatusCode))
  | call (header : ResponseHeader) (results : Option (List StatusCode))
  | historyUpdate (header : ResponseHeader) (results : Option (List StatusCode))
  | addNodes (header : ResponseHeader) (results : Option (List StatusCode))
  | deleteNodes (header : ResponseHeader) (results : Option (List StatusCode))
  | addReferences (header : ResponseHeader) (results : Option (List StatusCode))
  | deleteReferences (header : ResponseHeader) (results : Option (List StatusCode))
  | transferSubscriptions (header : ResponseHeader) (results : Option (List StatusCode))
  | serviceFault (header : ResponseHeader)
  | other (header : ResponseHeader)

/-- The header of a response. -/
def ResponseMessage.responseHeader : ResponseMessage → ResponseHeader
  | createSession header .. => header
  | activateSession header => header
  | read header _ => header
  | write header _ => header
  | call header _ => header
  | historyUpdate header _ => header
  | addNodes header _ => header
  | deleteNodes header _ => header
  | addReferences header _ => header
  | deleteReferences header _ => header
  | transferSubscriptions header _ => header
  | serviceFault header => header
  | other header => header

/-! ## Names of nodes -/

/-- Most node names the per-target cache keeps before it starts over. -/
def nameCacheSize : ℕ := 100000

/-- Display names of nodes, per target. -/
abbrev NameCache := List (NodeId × String)

namespace NameCache

/-- The name of a node, if it is known. -/
def get (names : NameCache) (node : NodeId) : Option String := names.lookup node

/-- The name of a node is known from now on. -/
def insert (names : NameCache) (node : NodeId) (name : String) : NameCache :=
  let names := if names.length ≥ nameCacheSize then [] else names
  (node, name) :: names.filter fun entry => entry.1 ≠ node

end NameCache

/-! ## Plans -/

/-- A written value, as it will be recorded. -/
structure WriteItem where
  /-- Position in the request, and so in the response's results. -/
  index : ℕ
  node : NodeId
  attributeId : ℕ
  range : Option String
  nodeId : String
  attributeName : String
  indexRange : Option String
  newValue : AuditValue
  writtenStatus : Option String
  sourceTimestamp : Option String
  serverTimestamp : Option String
  oldValue : Option AuditValue
  displayName : Option String

/-- A called method, as it will be recorded. -/
structure CallItem where
  method : NodeId
  objectId : String
  methodId : String
  inputArguments : List AuditValue
  displayName : Option String

/-- A changed history, as it will be recorded. -/
structure HistoryItem where
  nodeId : String
  details : String

/-- What will be recorded of a request that changes something. -/
inductive AuditPlan
  | write (requestHandle : ℕ) (items : List WriteItem)
  | call (requestHandle : ℕ) (items : List CallItem)
  | historyUpdate (requestHandle : ℕ) (items : List HistoryItem)
  | nodeManagement (requestHandle : ℕ) (service : String) (nodes : List String)
  | transferSubscriptions (requestHandle : ℕ) (subscriptionIds : List ℕ)

/-- Whether a request is audited. Such requests are also seen through to the end when the client
disconnects. -/
def isAudited : RequestMessage → Bool
  | .write .. => true
  | .call .. => true
  | .historyUpdate .. => true
  | .addNodes .. => true
  | .deleteNodes .. => true
  | .addReferences .. => true
  | .deleteReferences .. => true
  | .transferSubscriptions .. => true
  | _ => false

namespace AuditMap

/-- The name of an attribute, or its number. -/
def attributeName (x : Texts) (id : ℕ) : String :=
  (x.attributeId id).getD ("Attribute(" ++ toString id ++ ")")

/-- The item of a written value, if this can be rendered. -/
def writeItem (x : Texts) (index : ℕ) (w : WriteValue) : Option WriteItem :=
  (auditValue x (w.value.value.getD .empty)).map fun newValue =>
    { index := index
      node := w.nodeId
      attributeId := w.attributeId
      range := w.indexRange
      nodeId := clip (x.nodeId w.nodeId) maxText
      attributeName := attributeName x w.attributeId
      indexRange := w.indexRange
      newValue := newValue
      writtenStatus := w.value.status.map x.statusCode
      sourceTimestamp := w.value.sourceTimestamp
      serverTimestamp := w.value.serverTimestamp
      oldValue := none
      displayName := none }

/-- The item of a called method, if its arguments can be rendered. -/
def callItem (x : Texts) (r : CallMethodRequest) : Option CallItem :=
  ((r.inputArguments.getD []).mapM (auditValue x)).map fun inputArguments =>
    { method := r.methodId
      objectId := clip r.objectId maxText
      methodId := clip (x.nodeId r.methodId) maxText
      inputArguments := inputArguments
      displayName := none }

/-- The kind of a change of history. -/
def historyDetails : HistoryDetails → String
  | .updateData => "UpdateData"
  | .updateStructureData => "UpdateStructureData"
  | .updateEvent => "UpdateEvent"
  | .deleteRawModified => "DeleteRawModified"
  | .deleteAtTime => "DeleteAtTime"
  | .deleteEvent => "DeleteEvent"

/-- The item of a change of history. -/
def historyItem (x : Texts) (details : ExtensionObject) : HistoryItem :=
  match details.body with
  | .historyDetails kind nodeId _ => ⟨clip (x.nodeId nodeId) maxText, historyDetails kind⟩
  | _ => ⟨"", "unknown (" ++ details.binaryTypeId ++ ")"⟩

/-- What is recorded of a node that is added. -/
def addNodesItem (n : AddNodesItem) : String :=
  clip (n.requestedNewNodeId ++ " (parent " ++ n.parentNodeId ++ ")") maxText

/-- What is recorded of a reference that is added. -/
def referencesItem (n : ReferencesItem) : String :=
  clip (n.sourceNodeId ++ " -> " ++ n.targetNodeId) maxText

/-- A plan for requests that change the server, `some none` for all others; `none` is a panic. -/
def plan (x : Texts) : RequestMessage → Option (Option AuditPlan)
  | .write header nodesToWrite =>
    ((nodesToWrite.getD []).zipIdx.mapM fun w => writeItem x w.2 w.1).map fun items =>
      some (.write header.requestHandle items)
  | .call header methodsToCall =>
    ((methodsToCall.getD []).mapM (callItem x)).map fun items =>
      some (.call header.requestHandle items)
  | .historyUpdate header details =>
    some (some (.historyUpdate header.requestHandle ((details.getD []).map (historyItem x))))
  | .addNodes header nodes =>
    some (some (.nodeManagement header.requestHandle "AddNodes"
      ((nodes.getD []).map addNodesItem)))
  | .deleteNodes header nodes =>
    some (some (.nodeManagement header.requestHandle "DeleteNodes"
      ((nodes.getD []).map fun n => clip n maxText)))
  | .addReferences header references =>
    some (some (.nodeManagement header.requestHandle "AddReferences"
      ((references.getD []).map referencesItem)))
  | .deleteReferences header references =>
    some (some (.nodeManagement header.requestHandle "DeleteReferences"
      ((references.getD []).map referencesItem)))
  | .transferSubscriptions header subscriptionIds =>
    some (some (.transferSubscriptions header.requestHandle (subscriptionIds.getD [])))
  | _ => some none

/-- The status of item `i`: the item's own result, or the service result if the whole request
failed, or `unknown` if no response arrived. -/
def itemStatus (x : Texts) (results : Option (List StatusCode)) (i : ℕ)
    (serviceResult : StatusCode) (unknown : Option String) : String :=
  match unknown with
  | some unknown => unknown
  | none =>
    if serviceResult.isBad then x.statusCode serviceResult
    else x.statusCode ((results.bind fun r => r[i]?).getD .badUnexpectedError)

/-- The attribute that holds a node's value. -/
def valueAttribute : ℕ := 13

/-- The attribute with the name of a node. -/
def displayNameAttribute : ℕ := 4

end AuditMap

/-! ## Summarised writes -/

/-- One ignored write and its outcome. -/
structure IgnoredWrite where
  nodeId : String
  displayName : Option String
  value : AuditValue
  status : String

/-- The outcome of each ignored write. -/
def ignoredOutcomes (x : Texts) (items : List WriteItem) (response : ResponseMessage)
    (unknown : Option StatusCode) (names : NameCache) : List IgnoredWrite :=
  let serviceResult := response.responseHeader.serviceResult
  let results :=
    match response with
    | .write _ results => results
    | _ => none
  let unknown := unknown.map fun s => "Uncertain: no response (" ++ x.statusCode s ++ ")"
  items.map fun w =>
    { nodeId := w.nodeId
      displayName := names.get w.node
      value := w.newValue
      status := AuditMap.itemStatus x results w.index serviceResult unknown }

/-! ## Reads sent with a change -/

/-- What is read before a request is forwarded. -/
inductive PreReadKind
  | oldValue
  | name
  deriving DecidableEq

/-- Reads sent together with a change request: old values and display names. -/
structure PreRead where
  nodesToRead : List ReadValueId
  targets : List (ℕ × PreReadKind)

/-- Reads and what each of them is for, if there are any. -/
def PreRead.of (reads : List (ReadValueId × ℕ × PreReadKind)) : Option PreRead :=
  if reads.isEmpty then none else some ⟨reads.map (·.1), reads.map (·.2)⟩

namespace AuditMap

/-- The read for a display name that is not cached. -/
def nameRead (names : NameCache) (i : ℕ) (node : NodeId) :
    List (ReadValueId × ℕ × PreReadKind) :=
  match names.get node with
  | some _ => []
  | none => [({ nodeId := node, attributeId := displayNameAttribute }, i, .name)]

/-- What is read before a write: the old value, and the name of the node. -/
def writeReads (oldValues : Bool) (names : NameCache) (i : ℕ) (item : WriteItem) :
    List (ReadValueId × ℕ × PreReadKind) :=
  (if oldValues then [(⟨item.node, item.attributeId, item.range⟩, i, .oldValue)] else []) ++
    nameRead names i item.node

end AuditMap

namespace AuditPlan

/-- Takes the value writes for which `ignored` is true out of a write plan. -/
def takeIgnored (ignored : NodeId → Bool) : AuditPlan → AuditPlan × Option (List WriteItem)
  | write requestHandle items =>
    let taken := items.filter fun w => w.attributeId = AuditMap.valueAttribute ∧ ignored w.node
    let kept := items.filter fun w => ¬(w.attributeId = AuditMap.valueAttribute ∧ ignored w.node)
    (write requestHandle kept, if taken.isEmpty then none else some taken)
  | plan => (plan, none)

/-- A plan with nothing left to record (all its writes were ignored). -/
def isEmpty : AuditPlan → Bool
  | write _ items => items.isEmpty
  | _ => false

/-- Fills in cached names and returns the reads still needed. -/
def preRead (oldValues : Bool) (names : NameCache) : AuditPlan → AuditPlan × Option PreRead
  | write requestHandle items =>
    (write requestHandle (items.map fun item =>
        { item with displayName := (names.get item.node).or item.displayName }),
      PreRead.of (items.zipIdx.flatMap fun item =>
        AuditMap.writeReads oldValues names item.2 item.1))
  | call requestHandle items =>
    (call requestHandle (items.map fun item =>
        { item with displayName := (names.get item.method).or item.displayName }),
      PreRead.of (items.zipIdx.flatMap fun item => AuditMap.nameRead names item.2 item.1.method))
  | plan => (plan, none)

/-- Applies one result of a read. -/
def applyResult (x : Texts) (plan : AuditPlan) (names : NameCache) (i : ℕ) (kind : PreReadKind)
    (result : DataValue) : Option (AuditPlan × NameCache) :=
  if result.status.all StatusCode.isGood then
    match result.value, kind, plan with
    | some value, .oldValue, .write requestHandle items =>
      match items[i]? with
      | some item =>
        (AuditMap.auditValue x value).map fun old =>
          (.write requestHandle (items.set i { item with oldValue := some old }), names)
      | none => none
    | some (.localizedText text), .name, .write requestHandle items =>
      match items[i]? with
      | some item =>
        let name := clip text maxName
        some (.write requestHandle (items.set i { item with displayName := some name }),
          names.insert item.node name)
      | none => none
    | some (.localizedText text), .name, .call requestHandle items =>
      match items[i]? with
      | some item =>
        let name := clip text maxName
        some (.call requestHandle (items.set i { item with displayName := some name }),
          names.insert item.method name)
      | none => none
    | _, _, _ => some (plan, names)
  else some (plan, names)

/-- Applies the results of the reads. -/
def applyPreRead (x : Texts) (plan : AuditPlan) (names : NameCache) (pre : PreRead)
    (results : List DataValue) : Option (AuditPlan × NameCache) :=
  (pre.targets.zip results).foldlM
    (fun acc target => applyResult x acc.1 acc.2 target.1.1 target.1.2 target.2) (plan, names)

/-- The name of the service. -/
def service : AuditPlan → String
  | write .. => "Write"
  | call .. => "Call"
  | historyUpdate .. => "HistoryUpdate"
  | nodeManagement _ service _ => service
  | transferSubscriptions .. => "TransferSubscriptions"

end AuditPlan

/-! ## Records -/

/-- A value with its type, as JSON. -/
def AuditValue.json (v : AuditValue) : Json :=
  .object [("data_type", .string v.dataType), ("value", v.value)]

namespace AuditPlan

/-- The record committed before forwarding in fail-closed mode. -/
def intent (plan : AuditPlan) : AuditEvent :=
  match plan with
  | write h items =>
    .changeIntent h plan.service (items.map (·.nodeId)) (items.map fun i =>
      .object [("attribute", .string i.attributeName), ("new_value", i.newValue.json)])
  | call h items =>
    .changeIntent h plan.service (items.map (·.methodId)) (items.map fun i =>
      .object [("input_arguments", .array (i.inputArguments.map (·.json))),
        ("object_id", .string i.objectId)])
  | historyUpdate h items =>
    .changeIntent h plan.service (items.map (·.nodeId)) (items.map fun i =>
      .object [("details", .string i.details)])
  | nodeManagement h _ nodes => .changeIntent h plan.service nodes []
  | transferSubscriptions h ids => .changeIntent h plan.service (ids.map toString) []

/-- When a whole request fails at the service level, at most this many of its items are recorded
one by one. -/
def maxFailedItems : ℕ := 100

/-- The results in a response to a node management request. -/
def nodeManagementResults : ResponseMessage → Option (List StatusCode)
  | .addNodes _ results => results
  | .deleteNodes _ results => results
  | .addReferences _ results => results
  | .deleteReferences _ results => results
  | _ => none

/-- The status of a whole transfer. -/
def transferStatus (x : Texts) (response : ResponseMessage) (unknown : Option String) : String :=
  let serviceResult := response.responseHeader.serviceResult
  if unknown.isSome || serviceResult.isBad then
    AuditMap.itemStatus x none 0 serviceResult unknown
  else
    let results :=
      match response with
      | .transferSubscriptions _ results => results.getD []
      | _ => []
    if results.all StatusCode.isGood && !results.isEmpty then "Good"
    else ", ".intercalate (results.map x.statusCode)

/-- The events for all items of a plan. -/
def eventsAll (x : Texts) (plan : AuditPlan) (response : ResponseMessage)
    (unknown : Option String) : List AuditEvent :=
  let status results i :=
    AuditMap.itemStatus x results i response.responseHeader.serviceResult unknown
  match plan with
  | write h items =>
    let results :=
      match response with
      | .write _ results => results
      | _ => none
    items.map fun w =>
      .write h w.nodeId w.displayName w.attributeName w.indexRange w.oldValue w.newValue
        w.writtenStatus w.sourceTimestamp w.serverTimestamp (status results w.index)
  | call h items =>
    let results :=
      match response with
      | .call _ results => results
      | _ => none
    items.zipIdx.map fun c =>
      .call h c.1.objectId c.1.methodId c.1.displayName c.1.inputArguments (status results c.2)
  | historyUpdate h items =>
    let results :=
      match response with
      | .historyUpdate _ results => results
      | _ => none
    items.zipIdx.map fun i => .historyUpdate h i.1.nodeId i.1.details (status results i.2)
  | nodeManagement h service nodes =>
    nodes.zipIdx.map fun n =>
      .nodeManagement h service n.1 (status (nodeManagementResults response) n.2)
  | transferSubscriptions h subscriptionIds =>
    [.subscriptionsTransferred h subscriptionIds (transferStatus x response unknown)]

/-- Events for the outcome. A request that failed as a whole changed nothing: a sample of its
items is enough. -/
def eventsWith (x : Texts) (plan : AuditPlan) (response : ResponseMessage)
    (unknown : Option String) : List AuditEvent :=
  let events := eventsAll x plan response unknown
  if response.responseHeader.serviceResult.isBad && unknown.isNone then
    events.take maxFailedItems
  else events

/-- The events for the response of the server. -/
def events (x : Texts) (plan : AuditPlan) (response : ResponseMessage) : List AuditEvent :=
  plan.eventsWith x response none

/-- Events for a request that was sent, but whose response never arrived. -/
def eventsUnknown (x : Texts) (plan : AuditPlan) (response : ResponseMessage)
    (status : StatusCode) : List AuditEvent :=
  plan.eventsWith x response
    (some ("Uncertain: no response (" ++ x.statusCode status ++
      "); the server may have applied it"))

end AuditPlan

/-! ## Which requests can be planned -/

/-- The values that planning a request renders. -/
def RequestMessage.renderedValues : RequestMessage → List Variant
  | .write _ nodesToWrite => (nodesToWrite.getD []).map fun w => w.value.value.getD .empty
  | .call _ methodsToCall => (methodsToCall.getD []).flatMap fun r => r.inputArguments.getD []
  | _ => []

/-- All values of the request can be rendered. -/
def RequestMessage.Renderable (request : RequestMessage) : Prop :=
  ∀ v ∈ request.renderedValues, v.Renderable

namespace AuditMap

/-- A written value has an item exactly if it can be rendered. -/
theorem writeItem_isSome_iff (x : Texts) (i : ℕ) (w : WriteValue) :
    (writeItem x i w).isSome ↔ (w.value.value.getD .empty).Renderable := by
  rw [writeItem, Option.isSome_map, auditValue_isSome_iff]

/-- A called method has an item exactly if its arguments can be rendered. -/
theorem callItem_isSome_iff (x : Texts) (r : CallMethodRequest) :
    (callItem x r).isSome ↔ ∀ v ∈ r.inputArguments.getD [], v.Renderable := by
  rw [callItem, Option.isSome_map, mapM_isSome_iff]
  simp only [auditValue_isSome_iff]

/-- **Which requests can be planned**: exactly those whose values can all be rendered. -/
theorem plan_isSome_iff (x : Texts) (request : RequestMessage) :
    (plan x request).isSome ↔ request.Renderable := by
  unfold RequestMessage.Renderable
  cases request with
  | write header nodesToWrite =>
    rw [plan, Option.isSome_map, mapM_isSome_iff]
    simp only [writeItem_isSome_iff, RequestMessage.renderedValues, List.mem_map]
    constructor
    · rintro h _ ⟨w, hw, rfl⟩
      obtain ⟨i, hi, rfl⟩ := List.mem_iff_getElem.1 hw
      exact h (_, i) (List.mk_mem_zipIdx_iff_getElem?.2 (List.getElem?_eq_getElem hi))
    · intro h w hw
      obtain ⟨hlt, hget⟩ := List.mem_zipIdx' hw
      refine h _ ⟨w.1, ?_, rfl⟩
      rw [hget]
      exact List.getElem_mem hlt
  | call header methodsToCall =>
    rw [plan, Option.isSome_map, mapM_isSome_iff]
    simp only [callItem_isSome_iff, RequestMessage.renderedValues, List.mem_flatMap]
    constructor
    · rintro h v ⟨r, hr, hv⟩
      exact h r hr v hv
    · intro h r hr v hv
      exact h v ⟨r, hr, hv⟩
  | _ => exact iff_of_true rfl (fun v hv => nomatch hv)

/-- A request that can be planned has a plan exactly if it is audited. -/
theorem isSome_of_plan_eq {x : Texts} {request : RequestMessage} {p : Option AuditPlan}
    (h : plan x request = some p) : p.isSome ↔ isAudited request := by
  cases request with
  | write header nodesToWrite =>
    rw [plan, Option.map_eq_some_iff] at h
    obtain ⟨items, -, rfl⟩ := h
    simp [isAudited]
  | call header methodsToCall =>
    rw [plan, Option.map_eq_some_iff] at h
    obtain ⟨items, -, rfl⟩ := h
    simp [isAudited]
  | _ =>
    obtain rfl := Option.some.inj h
    simp [isAudited]

end AuditMap

/-! ## Which results of reads can be applied -/

/-- All old values among the results of a read can be rendered. -/
def PreRead.Renderable (pre : PreRead) (results : List DataValue) : Prop :=
  ∀ p ∈ pre.targets.zip results, p.1.2 = .oldValue → p.2.status.all StatusCode.isGood →
    ∀ v ∈ p.2.value, v.Renderable

namespace AuditPlan

/-- The number of items that reads can be made for. -/
def size : AuditPlan → ℕ
  | write _ items => items.length
  | call _ items => items.length
  | _ => 0

/-- Every read is for an item of the plan. -/
def Targets (plan : AuditPlan) (pre : PreRead) : Prop := ∀ t ∈ pre.targets, t.1 < plan.size

/-- One result applies to an item of the plan if its old value can be rendered. -/
theorem applyResult_isSome (x : Texts) {plan : AuditPlan} (names : NameCache) {i : ℕ}
    {kind : PreReadKind} {result : DataValue} (hi : i < plan.size)
    (hr : kind = .oldValue → result.status.all StatusCode.isGood →
      ∀ v ∈ result.value, v.Renderable) :
    ∃ plan' names', applyResult x plan names i kind result = some (plan', names') ∧
      plan'.size = plan.size := by
  unfold applyResult
  split_ifs with hgood
  · split
    · next value requestHandle items hvalue =>
      obtain ⟨old, hold⟩ := Option.isSome_iff_exists.1
        ((AuditMap.auditValue_isSome_iff x value).2 (hr rfl hgood value hvalue))
      rw [List.getElem?_eq_getElem hi]
      simp only [hold, Option.map_some]
      exact ⟨_, _, rfl, List.length_set ..⟩
    · rw [List.getElem?_eq_getElem hi]
      exact ⟨_, _, rfl, List.length_set ..⟩
    · rw [List.getElem?_eq_getElem hi]
      exact ⟨_, _, rfl, List.length_set ..⟩
    · exact ⟨_, _, rfl, rfl⟩
  · exact ⟨_, _, rfl, rfl⟩

/-- **Which results can be applied**: those whose old values can all be rendered. -/
theorem applyPreRead_isSome (x : Texts) {plan : AuditPlan} (names : NameCache) {pre : PreRead}
    {results : List DataValue} (ht : plan.Targets pre) (hr : pre.Renderable results) :
    (plan.applyPreRead x names pre results).isSome := by
  have hall : ∀ p ∈ pre.targets.zip results, p.1.1 < plan.size ∧
      (p.1.2 = .oldValue → p.2.status.all StatusCode.isGood → ∀ v ∈ p.2.value, v.Renderable) :=
    fun p hp => ⟨ht p.1 (List.of_mem_zip hp).1, hr p hp⟩
  unfold applyPreRead
  clear ht hr
  generalize pre.targets.zip results = targets at hall
  induction targets generalizing plan names with
  | nil => rfl
  | cons p targets ih =>
    obtain ⟨hp, hall⟩ := List.forall_mem_cons.1 hall
    obtain ⟨plan', names', happly, hsize⟩ := applyResult_isSome x names hp.1 hp.2
    rw [List.foldlM_cons, happly]
    refine ih names' fun q hq => ?_
    rw [hsize]
    exact hall q hq

/-- The reads for some items, and what they are for. -/
theorem targets_of_reads {α : Type*} {items : List α}
    {f : α × ℕ → List (ReadValueId × ℕ × PreReadKind)} (hf : ∀ a, ∀ r ∈ f a, r.2.1 = a.2)
    {pre : PreRead} (h : PreRead.of (items.zipIdx.flatMap f) = some pre) :
    ∀ t ∈ pre.targets, t.1 < items.length := by
  unfold PreRead.of at h
  split_ifs at h
  obtain rfl := Option.some.inj h
  intro t ht
  obtain ⟨r, hr, rfl⟩ := List.mem_map.1 ht
  obtain ⟨a, ha, hr⟩ := List.mem_flatMap.1 hr
  rw [hf a r hr]
  exact (List.mem_zipIdx' ha).1

/-- The read of a name is for the item it was made for. -/
theorem index_of_mem_nameRead {names : NameCache} {i : ℕ} {node : NodeId}
    {r : ReadValueId × ℕ × PreReadKind} (h : r ∈ AuditMap.nameRead names i node) : r.2.1 = i := by
  unfold AuditMap.nameRead at h
  split at h
  · cases h
  · rw [List.mem_singleton.1 h]

/-- The reads that a plan needs are for its items. -/
theorem targets_preRead {oldValues : Bool} {names : NameCache} {plan : AuditPlan} {pre : PreRead}
    (h : (plan.preRead oldValues names).2 = some pre) :
    (plan.preRead oldValues names).1.Targets pre := by
  cases plan with
  | write handle items =>
    intro t ht
    show t.1 < (items.map _).length
    rw [List.length_map]
    refine targets_of_reads (fun a r hr => ?_) h t ht
    rcases List.mem_append.1 hr with hr | hr
    · split_ifs at hr
      · rw [List.mem_singleton.1 hr]
      · cases hr
    · exact index_of_mem_nameRead hr
  | call handle items =>
    intro t ht
    show t.1 < (items.map _).length
    rw [List.length_map]
    exact targets_of_reads (fun a r hr => index_of_mem_nameRead hr) h t ht
  | _ => cases h

end AuditPlan

end AuditGateway
