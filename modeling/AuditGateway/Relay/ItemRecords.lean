import AuditGateway.Relay.Intent

set_option relaxedAutoImplicit false
set_option autoImplicit false

/-!
# What becomes of the items of a change

A plan goes through four hands before its items are recorded: the summarised writes are taken out,
cached names are filled in, the results of the reads are applied, and a request that failed as a
whole is cut to a sample. None of them may lose an item, or give it the status of another one.

## Main definitions

* `RequestMessage.items` — the items of a change.
* `AuditMap.outcome` — what is recorded of a change, one by one and summarised.
* `Complete` — every item is recorded once, in order and with its own status.

## Main results

* `completeForward_eq` — a forwarding task records this outcome.
* `outcome_complete_iff` — when the record of a change is complete.
-/

namespace AuditGateway

/-! ## The items of a change -/

/-- One item of a change. -/
inductive ChangeItem
  | write (w : WriteValue)
  | call (r : CallMethodRequest)
  | historyUpdate (details : ExtensionObject)
  /-- With the text that names it. -/
  | nodeManagement (service node : String)

/-- The items of a change, in the order of the request. A transfer of subscriptions is one change
as a whole. -/
def RequestMessage.items : RequestMessage → Option (List ChangeItem)
  | .write _ nodesToWrite => some ((nodesToWrite.getD []).map .write)
  | .call _ methodsToCall => some ((methodsToCall.getD []).map .call)
  | .historyUpdate _ details => some ((details.getD []).map .historyUpdate)
  | .addNodes _ nodes =>
    some ((nodes.getD []).map fun n => .nodeManagement "AddNodes" (AuditMap.addNodesItem n))
  | .deleteNodes _ nodes =>
    some ((nodes.getD []).map fun n => .nodeManagement "DeleteNodes" (clip n maxText))
  | .addReferences _ references =>
    some ((references.getD []).map fun n =>
      .nodeManagement "AddReferences" (AuditMap.referencesItem n))
  | .deleteReferences _ references =>
    some ((references.getD []).map fun n =>
      .nodeManagement "DeleteReferences" (AuditMap.referencesItem n))
  | _ => none

/-- A value write to a node that the predicate accepts. -/
def ChangeItem.isSummarised (ignored : NodeId → Bool) : ChangeItem → Bool
  | .write w => w.attributeId = AuditMap.valueAttribute ∧ ignored w.nodeId
  | _ => false

/-! ## Outcomes -/

/-- How a change ended: the response that the client gets, and the status if no answer came to a
request that may have been sent. -/
structure Outcome where
  response : ResponseMessage
  unknown : Option StatusCode

namespace Outcome

/-- The result of the service as a whole. -/
def serviceResult (o : Outcome) : StatusCode := o.response.responseHeader.serviceResult

/-- An answer came, and the whole request failed. -/
def Failed (o : Outcome) : Prop := o.unknown = none ∧ o.serviceResult.isBad

/-- Whether an outcome is a failure. -/
instance (o : Outcome) : Decidable o.Failed := inferInstanceAs (Decidable (_ ∧ _))

/-- The results for the items of a request. A response of another service has none; the services
of node management share theirs. -/
def results (o : Outcome) : RequestMessage → Option (List StatusCode)
  | .write .. =>
    match o.response with
    | .write _ results => results
    | _ => none
  | .call .. =>
    match o.response with
    | .call _ results => results
    | _ => none
  | .historyUpdate .. =>
    match o.response with
    | .historyUpdate _ results => results
    | _ => none
  | _ => AuditPlan.nodeManagementResults o.response

/-- The status that the item at position `i` of a request has to be recorded with. `uncertain` is
the text for a request without an answer. -/
structure HasStatus (x : Texts) (o : Outcome) (request : RequestMessage)
    (uncertain : StatusCode → String) (i : ℕ) (status : String) : Prop where
  unanswered : ∀ s, o.unknown = some s → status = uncertain s
  failed : o.Failed → status = x.statusCode o.serviceResult
  result : o.unknown = none → ¬ o.serviceResult.isBad → ∀ results ∈ o.results request,
    ∀ s, results[i]? = some s → status = x.statusCode s
  missing : o.unknown = none → ¬ o.serviceResult.isBad →
    (∀ results ∈ o.results request, results.length ≤ i) →
      status = x.statusCode .badUnexpectedError

end Outcome

/-- The status of a change without an answer. -/
def uncertainEvent (x : Texts) (s : StatusCode) : String :=
  "Uncertain: no response (" ++ x.statusCode s ++ "); the server may have applied it"

/-- The status of a summarised write without an answer. -/
def uncertainWrite (x : Texts) (s : StatusCode) : String :=
  "Uncertain: no response (" ++ x.statusCode s ++ ")"

/-! ## What is recorded of a change -/

/-- What is recorded of a change, and the names learnt from its reads. -/
structure Recorded where
  events : List AuditEvent
  summarised : List IgnoredWrite
  names : NameCache

/-- What is left of a plan behind its reads. -/
def AuditPlan.withReads (x : Texts) (plan : AuditPlan) (names : NameCache) :
    Option PreRead → Option (List DataValue) → Option (AuditPlan × NameCache)
  | some pre, some results => plan.applyPreRead x names pre results
  | _, _ => some (plan, names)

/-- What forwarding records of a change: its values are rendered, the summarised writes taken out,
and the results of its reads applied; `none` is a panic. `names` are the names known when the
request is planned, `names'` those known when it is answered. -/
def AuditMap.outcome (x : Texts) (ignored : NodeId → Bool) (oldValues : Bool)
    (names names' : NameCache) (read : Option (List DataValue)) (o : Outcome)
    (request : RequestMessage) : Option Recorded :=
  (plan x request).bind fun plan =>
    match plan with
    | none => some ⟨[], [], names'⟩
    | some plan =>
      let (plan, taken) := plan.takeIgnored ignored
      let (plan, pre) := plan.preRead oldValues names
      (plan.withReads x names' pre read).map fun (plan, names') =>
        { events := plan.eventsWith x o.response (o.unknown.map (uncertainEvent x))
          summarised := (taken.map fun items =>
            ignoredOutcomes x items o.response o.unknown names').getD []
          names := names' }

/-- The event records the item with the status. -/
inductive Records (x : Texts) (handle : ℕ) : ChangeItem → String → AuditEvent → Prop
  | write {w : WriteValue} {newValue : AuditValue}
      (h : AuditMap.auditValue x (w.value.value.getD .empty) = some newValue)
      (displayName : Option String) (oldValue : Option AuditValue) (status : String) :
      Records x handle (.write w) status
        (.write handle (clip (x.nodeId w.nodeId) maxText) displayName
          (AuditMap.attributeName x w.attributeId) w.indexRange oldValue newValue
          (w.value.status.map x.statusCode) w.value.sourceTimestamp w.value.serverTimestamp status)
  | call {r : CallMethodRequest} {arguments : List AuditValue}
      (h : (r.inputArguments.getD []).mapM (AuditMap.auditValue x) = some arguments)
      (displayName : Option String) (status : String) :
      Records x handle (.call r) status
        (.call handle (clip r.objectId maxText) (clip (x.nodeId r.methodId) maxText) displayName
          arguments status)
  | historyUpdate (details : ExtensionObject) (status : String) :
      Records x handle (.historyUpdate details) status
        (.historyUpdate handle (AuditMap.historyItem x details).nodeId
          (AuditMap.historyItem x details).details status)
  | nodeManagement (service node status : String) :
      Records x handle (.nodeManagement service node) status
        (.nodeManagement handle service node status)

/-- The summarised write is the item with the status. -/
inductive Summarises (x : Texts) : ChangeItem → String → IgnoredWrite → Prop
  | write {w : WriteValue} {newValue : AuditValue}
      (h : AuditMap.auditValue x (w.value.value.getD .empty) = some newValue)
      (displayName : Option String) (status : String) :
      Summarises x (.write w) status
        ⟨clip (x.nodeId w.nodeId) maxText, displayName, newValue, status⟩

/-- Every item is recorded once, with its own status: the items that are summarised as summarised
writes, all others as events in the order of the items. Of a request that failed as a whole only
the first `AuditPlan.maxFailedItems` of them are recorded. -/
structure Complete (x : Texts) (request : RequestMessage) (items : List ChangeItem)
    (ignored : NodeId → Bool) (o : Outcome) (r : Recorded) : Prop where
  summarised : List.Forall₂ (fun a w => ∃ status,
      o.HasStatus x request (uncertainWrite x) a.2 status ∧ Summarises x a.1 status w)
    (items.zipIdx.filter fun a => a.1.isSummarised ignored) r.summarised
  events : List.Forall₂ (fun a e => ∃ status,
      o.HasStatus x request (uncertainEvent x) a.2 status ∧
        Records x request.requestHeader.requestHandle a.1 status e)
    (let recorded := items.zipIdx.filter fun a => !a.1.isSummarised ignored
      if o.Failed then recorded.take AuditPlan.maxFailedItems else recorded) r.events

/-! ## The status of an item -/

/-- The status of an item is that of its result, or the one of the service. -/
theorem hasStatus_itemStatus (x : Texts) (o : Outcome) (request : RequestMessage)
    (uncertain : StatusCode → String) (i : ℕ) :
    o.HasStatus x request uncertain i (AuditMap.itemStatus x (o.results request) i
      o.serviceResult (o.unknown.map uncertain)) where
  unanswered s hs := by rw [hs, Option.map_some, AuditMap.itemStatus]
  failed h := by
    rw [h.1, Option.map_none, AuditMap.itemStatus]
    exact if_pos h.2
  result hunknown hgood results hresults s hs := by
    have hbind : ((o.results request).bind fun r => r[i]?) = some s := by
      rw [Option.mem_def.1 hresults, Option.bind_some, hs]
    rw [hunknown, Option.map_none, AuditMap.itemStatus, hbind]
    exact if_neg hgood
  missing hunknown hgood hresults := by
    have hbind : ((o.results request).bind fun r => r[i]?) = none := by
      rw [Option.bind_eq_none_iff]
      intro results hsome
      exact List.getElem?_eq_none_iff.2 (hresults results hsome)
    rw [hunknown, Option.map_none, AuditMap.itemStatus, hbind]
    exact if_neg hgood

/-! ## Plans and the items they are of -/

/-- Related lists are numbered alike. -/
theorem forall₂_zipIdx {α β : Type*} {R : α → β → Prop} {l : List α} {m : List β}
    (h : List.Forall₂ R l m) (n : ℕ) :
    List.Forall₂ (fun a b => R a.1 b.1 ∧ a.2 = b.2) (l.zipIdx n) (m.zipIdx n) := by
  induction h generalizing n with
  | nil => exact List.Forall₂.nil
  | cons hab _ ih => exact List.Forall₂.cons ⟨hab, rfl⟩ (ih (n + 1))

/-- An element is replaced by one that is related to the same. -/
theorem forall₂_set {α β : Type*} {R : α → β → Prop} {l : List α} {m : List β} {i : ℕ} {b c : β}
    (h : List.Forall₂ R l m) (hb : m[i]? = some b) (hc : ∀ a, R a b → R a c) :
    List.Forall₂ R l (m.set i c) := by
  induction h generalizing i with
  | nil => exact List.Forall₂.nil
  | cons hab hrest ih =>
    cases i with
    | zero =>
      obtain rfl := Option.some.inj hb
      exact List.Forall₂.cons (hc _ hab) hrest
    | succ i => exact List.Forall₂.cons hab (ih hb)

/-- The item of the plan is that of the request, up to old value and name. -/
structure WriteItem.Of (x : Texts) (a : ChangeItem × ℕ) (item : WriteItem) : Prop where
  index : item.index = a.2
  request : ∃ w, a.1 = .write w ∧ item.node = w.nodeId ∧ item.attributeId = w.attributeId ∧
    item.nodeId = clip (x.nodeId w.nodeId) maxText ∧
    item.attributeName = AuditMap.attributeName x w.attributeId ∧
    item.indexRange = w.indexRange ∧
    AuditMap.auditValue x (w.value.value.getD .empty) = some item.newValue ∧
    item.writtenStatus = w.value.status.map x.statusCode ∧
    item.sourceTimestamp = w.value.sourceTimestamp ∧
    item.serverTimestamp = w.value.serverTimestamp

/-- The item of the plan is that of the request, up to its name. -/
def CallItem.Of (x : Texts) (a : ChangeItem) (item : CallItem) : Prop :=
  ∃ r, a = .call r ∧ item.objectId = clip r.objectId maxText ∧
    item.methodId = clip (x.nodeId r.methodId) maxText ∧
    (r.inputArguments.getD []).mapM (AuditMap.auditValue x) = some item.inputArguments

/-- The plan is for these items of a request, which come with their positions in it. -/
inductive AuditPlan.Of (x : Texts) : RequestMessage → List (ChangeItem × ℕ) → AuditPlan → Prop
  | write {header : RequestHeader} {nodesToWrite : Option (List WriteValue)}
      {l : List (ChangeItem × ℕ)} {items : List WriteItem}
      (h : List.Forall₂ (WriteItem.Of x) l items) :
      Of x (.write header nodesToWrite) l (.write header.requestHandle items)
  | call {header : RequestHeader} {methodsToCall : Option (List CallMethodRequest)}
      {l : List ChangeItem} {items : List CallItem} (h : List.Forall₂ (CallItem.Of x) l items) :
      Of x (.call header methodsToCall) l.zipIdx (.call header.requestHandle items)
  | historyUpdate (header : RequestHeader) (details : Option (List ExtensionObject)) :
      Of x (.historyUpdate header details) ((details.getD []).map ChangeItem.historyUpdate).zipIdx
        (.historyUpdate header.requestHandle ((details.getD []).map (AuditMap.historyItem x)))
  | nodeManagement {request : RequestMessage} (service : String) (nodes : List String)
      (h : ∀ o : Outcome, o.results request = AuditPlan.nodeManagementResults o.response) :
      Of x request (nodes.map (ChangeItem.nodeManagement service)).zipIdx
        (.nodeManagement request.requestHeader.requestHandle service nodes)

namespace AuditPlan.Of

variable {x : Texts} {request : RequestMessage} {l : List (ChangeItem × ℕ)} {plan : AuditPlan}

/-- A plan is made for all items of its request. -/
theorem of_plan_eq {items : List ChangeItem} {p : Option AuditPlan}
    (hitems : request.items = some items) (hp : AuditMap.plan x request = some p) :
    ∃ plan, p = some plan ∧ Of x request items.zipIdx plan := by
  cases request with
  | write header nodesToWrite =>
    obtain rfl := Option.some.inj hitems
    rw [AuditMap.plan, Option.map_eq_some_iff] at hp
    obtain ⟨items, hitems, rfl⟩ := hp
    refine ⟨_, rfl, write ?_⟩
    rw [List.zipIdx_map, List.forall₂_map_left_iff]
    refine (forall₂_of_mapM hitems).imp fun a item h => ?_
    rw [AuditMap.writeItem, Option.map_eq_some_iff] at h
    obtain ⟨v, hv, rfl⟩ := h
    exact ⟨rfl, a.1, rfl, rfl, rfl, rfl, rfl, rfl, hv, rfl, rfl, rfl⟩
  | call header methodsToCall =>
    obtain rfl := Option.some.inj hitems
    rw [AuditMap.plan, Option.map_eq_some_iff] at hp
    obtain ⟨items, hitems, rfl⟩ := hp
    refine ⟨_, rfl, call ?_⟩
    rw [List.forall₂_map_left_iff]
    refine (forall₂_of_mapM hitems).imp fun r item h => ?_
    rw [AuditMap.callItem, Option.map_eq_some_iff] at h
    obtain ⟨arguments, harguments, rfl⟩ := h
    exact ⟨r, rfl, rfl, rfl, harguments⟩
  | historyUpdate header details =>
    obtain rfl := Option.some.inj hitems
    obtain rfl := Option.some.inj hp
    exact ⟨_, rfl, historyUpdate header details⟩
  | addNodes header nodes =>
    obtain rfl := Option.some.inj hitems
    obtain rfl := Option.some.inj hp
    have h := @nodeManagement x (.addNodes header nodes) "AddNodes"
      ((nodes.getD []).map AuditMap.addNodesItem) fun _ => rfl
    rw [List.map_map] at h
    exact ⟨_, rfl, h⟩
  | deleteNodes header nodes =>
    obtain rfl := Option.some.inj hitems
    obtain rfl := Option.some.inj hp
    have h := @nodeManagement x (.deleteNodes header nodes) "DeleteNodes"
      ((nodes.getD []).map fun n => clip n maxText) fun _ => rfl
    rw [List.map_map] at h
    exact ⟨_, rfl, h⟩
  | addReferences header references =>
    obtain rfl := Option.some.inj hitems
    obtain rfl := Option.some.inj hp
    have h := @nodeManagement x (.addReferences header references)
      "AddReferences" ((references.getD []).map AuditMap.referencesItem) fun _ => rfl
    rw [List.map_map] at h
    exact ⟨_, rfl, h⟩
  | deleteReferences header references =>
    obtain rfl := Option.some.inj hitems
    obtain rfl := Option.some.inj hp
    have h := @nodeManagement x (.deleteReferences header references)
      "DeleteReferences" ((references.getD []).map AuditMap.referencesItem) fun _ => rfl
    rw [List.map_map] at h
    exact ⟨_, rfl, h⟩
  | _ => cases hitems

/-- Only writes are summarised. -/
theorem filter_eq_self {l : List ChangeItem} (ignored : NodeId → Bool)
    (h : ∀ a ∈ l, ∀ w, a ≠ .write w) :
    (l.zipIdx.filter fun a => !a.1.isSummarised ignored) = l.zipIdx ∧
      (l.zipIdx.filter fun a => a.1.isSummarised ignored) = [] := by
  have hnot : ∀ a ∈ l.zipIdx, a.1.isSummarised ignored = false := by
    intro a ha
    have hitem := h a.1 (List.fst_mem_of_mem_zipIdx ha)
    cases heq : a.1 with
    | write w => exact absurd heq (hitem w)
    | _ => rfl
  constructor
  · rw [List.filter_eq_self]
    intro a ha
    rw [hnot a ha]
    rfl
  · rw [List.filter_eq_nil_iff]
    intro a ha
    rw [hnot a ha]
    exact Bool.false_ne_true

/-- The summarised writes are taken out of the plan. -/
theorem takeIgnored (h : Of x request l plan) (ignored : NodeId → Bool) :
    Of x request (l.filter fun a => !a.1.isSummarised ignored) (plan.takeIgnored ignored).1 ∧
      List.Forall₂ (WriteItem.Of x) (l.filter fun a => a.1.isSummarised ignored)
        ((plan.takeIgnored ignored).2.getD []) ∧
      ((plan.takeIgnored ignored).2.isSome → ∃ header nodesToWrite,
        request = .write header nodesToWrite) := by
  cases h with
  | @write header nodesToWrite l items h =>
    have hiff : ∀ a item, WriteItem.Of x a item → (a.1.isSummarised ignored ↔
        item.attributeId = AuditMap.valueAttribute ∧ ignored item.node) := by
      rintro a item ⟨-, w, hw, hnode, hattribute, -⟩
      rw [hw, hnode, hattribute]
      exact decide_eq_true_iff
    refine ⟨write ?_, ?_, fun _ => ⟨header, nodesToWrite, rfl⟩⟩
    · refine List.rel_filter (fun a item hitem => ?_) h
      simp only [Bool.not_eq_true', Bool.eq_false_iff, ne_eq, hiff a item hitem, decide_eq_true_eq]
    · have htaken : (AuditPlan.takeIgnored ignored (.write header.requestHandle items)).2.getD [] =
          items.filter fun w => w.attributeId = AuditMap.valueAttribute ∧ ignored w.node := by
        rw [AuditPlan.takeIgnored]
        split_ifs with hempty
        · exact (List.isEmpty_iff.1 hempty).symm
        · rfl
      rw [htaken]
      refine List.rel_filter (fun a item hitem => ?_) h
      exact (hiff a item hitem).trans decide_eq_true_iff.symm
  | @call header methodsToCall l items h =>
    have hcall : ∀ a ∈ l, ∀ w, a ≠ ChangeItem.write w := by
      refine ((List.forall₂_and_left l items).1 (h.imp fun a item hitem => ⟨?_, hitem⟩)).1
      rintro w rfl
      obtain ⟨r, hr, -⟩ := hitem
      cases hr
    rw [(filter_eq_self ignored hcall).1, (filter_eq_self ignored hcall).2]
    exact ⟨call h, List.Forall₂.nil, fun hsome => by cases hsome⟩
  | historyUpdate header details =>
    have hhistory : ∀ a ∈ (details.getD []).map ChangeItem.historyUpdate, ∀ w,
        a ≠ ChangeItem.write w := by
      intro a ha w hw
      obtain ⟨d, -, rfl⟩ := List.mem_map.1 ha
      cases hw
    rw [(filter_eq_self ignored hhistory).1, (filter_eq_self ignored hhistory).2]
    exact ⟨historyUpdate header details, List.Forall₂.nil, fun hsome => by cases hsome⟩
  | nodeManagement service nodes h =>
    have hnode : ∀ a ∈ nodes.map (ChangeItem.nodeManagement service), ∀ w,
        a ≠ ChangeItem.write w := by
      intro a ha w hw
      obtain ⟨node, -, rfl⟩ := List.mem_map.1 ha
      cases hw
    rw [(filter_eq_self ignored hnode).1, (filter_eq_self ignored hnode).2]
    exact ⟨nodeManagement service nodes h, List.Forall₂.nil, fun hsome => by cases hsome⟩

/-- Cached names are no part of what the items are. -/
theorem preRead (h : Of x request l plan) (oldValues : Bool) (names : NameCache) :
    Of x request l (plan.preRead oldValues names).1 := by
  cases h with
  | write h =>
    refine write ?_
    rw [List.forall₂_map_right_iff]
    exact h.imp fun a item hitem => ⟨hitem.index, hitem.request⟩
  | call h =>
    refine call ?_
    rw [List.forall₂_map_right_iff]
    exact h.imp fun a item hitem => hitem
  | historyUpdate header details => exact historyUpdate header details
  | nodeManagement service nodes h => exact nodeManagement service nodes h

/-- The result of a read is no part of what the items are. -/
theorem applyResult (h : Of x request l plan) {names names' : NameCache} {i : ℕ}
    {kind : PreReadKind} {result : DataValue} {plan' : AuditPlan}
    (happly : plan.applyResult x names i kind result = some (plan', names')) :
    Of x request l plan' := by
  unfold AuditPlan.applyResult at happly
  split_ifs at happly
  · split at happly
    · split at happly
      · next item hitem =>
        rw [Option.map_eq_some_iff] at happly
        obtain ⟨old, -, hplan⟩ := happly
        cases hplan
        cases h with
        | write h => exact write (forall₂_set h hitem fun a ha => ⟨ha.index, ha.request⟩)
      · cases happly
    · split at happly
      · next item hitem =>
        cases happly
        cases h with
        | write h => exact write (forall₂_set h hitem fun a ha => ⟨ha.index, ha.request⟩)
      · cases happly
    · split at happly
      · next item hitem =>
        cases happly
        cases h with
        | call h => exact call (forall₂_set h hitem fun a ha => ha)
      · cases happly
    · cases happly
      exact h
  · cases happly
    exact h

/-- The results of the reads are no part of what the items are. -/
theorem withReads (h : Of x request l plan) {names names' : NameCache} {pre : Option PreRead}
    {read : Option (List DataValue)} {plan' : AuditPlan}
    (happly : plan.withReads x names pre read = some (plan', names')) :
    Of x request l plan' := by
  unfold AuditPlan.withReads at happly
  split at happly
  · next pre results =>
    unfold AuditPlan.applyPreRead at happly
    generalize pre.targets.zip results = targets at happly
    induction targets generalizing plan names with
    | nil =>
      cases happly
      exact h
    | cons target targets ih =>
      rw [List.foldlM_cons, Option.bind_eq_bind, Option.bind_eq_some_iff] at happly
      obtain ⟨⟨plan₁, names₁⟩, hfirst, hrest⟩ := happly
      exact ih (h.applyResult hfirst) hrest
  · cases happly
    exact h

/-- Every item gives one event, in order and with its own status. -/
theorem eventsAll (h : Of x request l plan) (o : Outcome) (uncertain : StatusCode → String) :
    List.Forall₂ (fun a e => ∃ status, o.HasStatus x request uncertain a.2 status ∧
      Records x request.requestHeader.requestHandle a.1 status e) l
      (plan.eventsAll x o.response (o.unknown.map uncertain)) := by
  have hstatus := hasStatus_itemStatus x o request uncertain
  cases h with
  | write h =>
    unfold AuditPlan.eventsAll
    rw [List.forall₂_map_right_iff]
    refine h.imp fun a item hitem => ?_
    obtain ⟨hindex, w, hw, -, -, hid, hname, hrange, hvalue, hwritten, hsource, hserver⟩ := hitem
    refine ⟨_, hstatus a.2, ?_⟩
    rw [hw, hid, hname, hrange, hwritten, hsource, hserver, hindex]
    exact Records.write hvalue ..
  | call h =>
    unfold AuditPlan.eventsAll
    rw [List.forall₂_map_right_iff]
    refine (forall₂_zipIdx h 0).imp fun a item hitem => ?_
    obtain ⟨⟨r, hr, hobject, hmethod, harguments⟩, hindex⟩ := hitem
    refine ⟨_, hstatus a.2, ?_⟩
    rw [hr, hobject, hmethod, ← hindex]
    exact Records.call harguments ..
  | historyUpdate header details =>
    unfold AuditPlan.eventsAll
    rw [List.forall₂_map_right_iff, List.zipIdx_map, List.zipIdx_map, List.forall₂_map_left_iff,
      List.forall₂_map_right_iff, List.forall₂_same]
    exact fun a _ => ⟨_, hstatus a.2, Records.historyUpdate ..⟩
  | nodeManagement service nodes h =>
    unfold AuditPlan.eventsAll
    rw [List.forall₂_map_right_iff, List.zipIdx_map, List.forall₂_map_left_iff, List.forall₂_same]
    refine fun a _ => ⟨_, hstatus a.2, ?_⟩
    rw [h]
    exact Records.nodeManagement ..

end AuditPlan.Of

/-! ## Which records are complete -/

/-- The summarised writes with their own statuses. -/
theorem forall₂_ignoredOutcomes {x : Texts} {l : List (ChangeItem × ℕ)} {items : List WriteItem}
    (h : List.Forall₂ (WriteItem.Of x) l items) (header : RequestHeader)
    (nodesToWrite : Option (List WriteValue)) (o : Outcome) (names : NameCache) :
    List.Forall₂ (fun a w => ∃ status,
      o.HasStatus x (.write header nodesToWrite) (uncertainWrite x) a.2 status ∧
        Summarises x a.1 status w) l (ignoredOutcomes x items o.response o.unknown names) := by
  have hstatus := hasStatus_itemStatus x o (.write header nodesToWrite) (uncertainWrite x)
  unfold ignoredOutcomes
  rw [List.forall₂_map_right_iff]
  refine h.imp fun a item hitem => ?_
  obtain ⟨hindex, w, hw, -, -, hid, -, -, hvalue, -⟩ := hitem
  refine ⟨_, hstatus a.2, ?_⟩
  rw [hw, hid, hindex]
  exact Summarises.write hvalue ..

/-- What is recorded of a request with a plan. -/
theorem outcome_eq {x : Texts} {request : RequestMessage} {plan : AuditPlan}
    (hp : AuditMap.plan x request = some (some plan)) (ignored : NodeId → Bool)
    (oldValues : Bool) (names names' : NameCache) (read : Option (List DataValue)) (o : Outcome) :
    AuditMap.outcome x ignored oldValues names names' read o request =
      ((((plan.takeIgnored ignored).1.preRead oldValues names).1.withReads x names'
        ((plan.takeIgnored ignored).1.preRead oldValues names).2 read).map fun p =>
          { events := p.1.eventsWith x o.response (o.unknown.map (uncertainEvent x))
            summarised := ((plan.takeIgnored ignored).2.map fun items =>
              ignoredOutcomes x items o.response o.unknown p.2).getD []
            names := p.2 }) := by
  rw [AuditMap.outcome, hp]
  rfl

/-- What is recorded, if anything is, is complete. -/
theorem complete_of_outcome {x : Texts} {request : RequestMessage} {items : List ChangeItem}
    {ignored : NodeId → Bool} {oldValues : Bool} {names names' : NameCache}
    {read : Option (List DataValue)} {o : Outcome} {r : Recorded}
    (hitems : request.items = some items)
    (h : AuditMap.outcome x ignored oldValues names names' read o request = some r) :
    Complete x request items ignored o r := by
  obtain ⟨p, hp, -⟩ := Option.bind_eq_some_iff.1 h
  obtain ⟨plan, rfl, hplan⟩ := AuditPlan.Of.of_plan_eq hitems hp
  rw [outcome_eq hp] at h
  obtain ⟨hkept, htaken, hwrite⟩ := hplan.takeIgnored ignored
  obtain ⟨⟨plan', names₁⟩, hreads, rfl⟩ := Option.map_eq_some_iff.1 h
  have hevents := ((hkept.preRead oldValues names).withReads hreads).eventsAll o (uncertainEvent x)
  constructor
  · show List.Forall₂ _ _ (((plan.takeIgnored ignored).2.map fun items =>
      ignoredOutcomes x items o.response o.unknown names₁).getD [])
    cases hsome : (plan.takeIgnored ignored).2 with
    | none =>
      rw [hsome] at htaken
      rw [List.forall₂_nil_right_iff.1 htaken]
      exact List.Forall₂.nil
    | some taken =>
      rw [hsome] at htaken
      obtain ⟨header, nodesToWrite, rfl⟩ := hwrite (by rw [hsome]; rfl)
      exact forall₂_ignoredOutcomes htaken ..
  · have hiff : (o.response.responseHeader.serviceResult.isBad &&
        (o.unknown.map (uncertainEvent x)).isNone) = true ↔ o.Failed := by
      rw [Bool.and_eq_true, Option.isNone_map, Option.isNone_iff_eq_none]
      exact and_comm
    unfold AuditPlan.eventsWith
    dsimp only
    by_cases hfailed : o.Failed
    · rw [if_pos hfailed, if_pos (hiff.2 hfailed)]
      exact List.forall₂_take _ hevents
    · rw [if_neg hfailed, if_neg (fun hbad => hfailed (hiff.1 hbad))]
      exact hevents

/-- The reads that are sent with a change. -/
def AuditMap.reads (x : Texts) (ignored : NodeId → Bool) (oldValues : Bool) (names : NameCache)
    (request : RequestMessage) : Option PreRead :=
  ((plan x request).getD none).bind fun plan =>
    ((plan.takeIgnored ignored).1.preRead oldValues names).2

namespace AuditPlan

/-- Whether a plan is for written values. -/
def isWrite : AuditPlan → Bool
  | write .. => true
  | _ => false

/-- Only old values of the items of a write have to be rendered. -/
theorem renderable_of_applyResult {x : Texts} {plan : AuditPlan} {names : NameCache} {i : ℕ}
    {kind : PreReadKind} {result : DataValue} (hwrite : kind = .oldValue → plan.isWrite)
    (h : (plan.applyResult x names i kind result).isSome) :
    kind = .oldValue → result.status.all StatusCode.isGood → ∀ v ∈ result.value, v.Renderable := by
  rintro rfl hgood v hv
  cases plan with
  | write handle items =>
    unfold applyResult at h
    rw [if_pos hgood, Option.mem_def.1 hv] at h
    dsimp only at h
    split at h
    · rwa [Option.isSome_map, AuditMap.auditValue_isSome_iff] at h
    · cases h
  | _ => cases hwrite rfl

/-- A read that is applied does not change what the plan is for. -/
theorem isWrite_of_applyResult {x : Texts} {plan plan' : AuditPlan} {names names' : NameCache}
    {i : ℕ} {kind : PreReadKind} {result : DataValue}
    (h : plan.applyResult x names i kind result = some (plan', names')) :
    plan'.isWrite = plan.isWrite := by
  unfold applyResult at h
  split_ifs at h
  · split at h
    · split at h
      · obtain ⟨old, -, hplan⟩ := Option.map_eq_some_iff.1 h
        cases hplan
        rfl
      · cases h
    · split at h
      · cases h
        rfl
      · cases h
    · split at h
      · cases h
        rfl
      · cases h
    · cases h
      rfl
  · cases h
    rfl

/-- Results that were applied could be rendered. -/
theorem renderable_of_applyPreRead {x : Texts} {plan : AuditPlan} {names : NameCache}
    {pre : PreRead} {results : List DataValue}
    (hwrite : ∀ t ∈ pre.targets, t.2 = .oldValue → plan.isWrite)
    (h : (plan.applyPreRead x names pre results).isSome) : pre.Renderable results := by
  have hall : ∀ p ∈ pre.targets.zip results, p.1.2 = .oldValue → plan.isWrite :=
    fun p hp => hwrite p.1 (List.of_mem_zip hp).1
  unfold applyPreRead at h
  unfold PreRead.Renderable
  clear hwrite
  generalize pre.targets.zip results = targets at h hall
  induction targets generalizing plan names with
  | nil => exact fun p hp => nomatch hp
  | cons p targets ih =>
    obtain ⟨hp, hall⟩ := List.forall_mem_cons.1 hall
    rw [List.foldlM_cons, Option.bind_eq_bind] at h
    cases hfirst : plan.applyResult x names p.1.1 p.1.2 p.2 with
    | none =>
      rw [hfirst] at h
      cases h
    | some first =>
      obtain ⟨plan', names'⟩ := first
      refine List.forall_mem_cons.2 ⟨renderable_of_applyResult hp (by rw [hfirst]; rfl), ?_⟩
      rw [hfirst] at h
      refine ih h fun q hq hkind => ?_
      rw [isWrite_of_applyResult hfirst]
      exact hall q hq hkind

/-- Old values are read for writes only. -/
theorem isWrite_of_oldValue {oldValues : Bool} {names : NameCache} {plan : AuditPlan}
    {pre : PreRead} (h : (plan.preRead oldValues names).2 = some pre) :
    ∀ t ∈ pre.targets, t.2 = .oldValue → (plan.preRead oldValues names).1.isWrite := by
  cases plan with
  | write handle items => exact fun _ _ _ => rfl
  | call handle items =>
    intro t ht hkind
    unfold preRead PreRead.of at h
    dsimp only at h
    split_ifs at h
    obtain rfl := Option.some.inj h
    obtain ⟨r, hr, rfl⟩ := List.mem_map.1 ht
    obtain ⟨a, -, hr⟩ := List.mem_flatMap.1 hr
    unfold AuditMap.nameRead at hr
    split at hr
    · cases hr
    · rw [List.mem_singleton.1 hr] at hkind
      cases hkind
  | _ => cases h

end AuditPlan

/-- **Every item is recorded once, in order and with its own status**, of every change, whichever
writes are summarised, and however the change ended, exactly if its values can be rendered, and the
old values that were read with it as well. -/
theorem outcome_complete_iff (x : Texts) {request : RequestMessage} {items : List ChangeItem}
    (hitems : request.items = some items) (ignored : NodeId → Bool) (oldValues : Bool)
    (names names' : NameCache) (read : Option (List DataValue)) (o : Outcome) :
    (∃ r, AuditMap.outcome x ignored oldValues names names' read o request = some r ∧
      Complete x request items ignored o r) ↔
    request.Renderable ∧ ∀ pre ∈ AuditMap.reads x ignored oldValues names request,
      ∀ results ∈ read, pre.Renderable results := by
  constructor
  · rintro ⟨r, h, -⟩
    obtain ⟨p, hp, -⟩ := Option.bind_eq_some_iff.1 h
    refine ⟨(AuditMap.plan_isSome_iff x request).1 (by rw [hp]; rfl), ?_⟩
    intro pre hpre results hresults
    obtain ⟨plan, rfl, -⟩ := AuditPlan.Of.of_plan_eq hitems hp
    rw [outcome_eq hp] at h
    obtain ⟨⟨plan', names₁⟩, hreads, -⟩ := Option.map_eq_some_iff.1 h
    rw [AuditMap.reads, hp] at hpre
    rw [Option.mem_def.1 hresults] at hreads
    have hpre : ((plan.takeIgnored ignored).1.preRead oldValues names).2 = some pre := hpre
    rw [hpre] at hreads
    exact AuditPlan.renderable_of_applyPreRead (AuditPlan.isWrite_of_oldValue hpre)
      (Option.isSome_iff_exists.2 ⟨_, hreads⟩)
  · rintro ⟨hrequest, hread⟩
    obtain ⟨p, hp⟩ := Option.isSome_iff_exists.1 ((AuditMap.plan_isSome_iff x request).2 hrequest)
    obtain ⟨plan, rfl, -⟩ := AuditPlan.Of.of_plan_eq hitems hp
    have hreads : (((plan.takeIgnored ignored).1.preRead oldValues names).1.withReads x names'
        ((plan.takeIgnored ignored).1.preRead oldValues names).2 read).isSome := by
      unfold AuditPlan.withReads
      split
      · next pre results hpre =>
        refine AuditPlan.applyPreRead_isSome x names' (AuditPlan.targets_preRead hpre) ?_
        exact hread pre (by rw [AuditMap.reads, hp]; exact hpre) results rfl
      · rfl
    have hsome : (AuditMap.outcome x ignored oldValues names names' read o request).isSome := by
      rw [outcome_eq hp, Option.isSome_map]
      exact hreads
    obtain ⟨r, hr⟩ := Option.isSome_iff_exists.1 hsome
    exact ⟨r, hr, complete_of_outcome hitems hr⟩

/-- The second of three writes is summarised, and the response has only two results. -/
def partlySummarised : RequestMessage :=
  .write (Connection.plainHeader 1) (some [⟨⟨3, .numeric 2⟩, AuditMap.valueAttribute, none, {}⟩,
    ⟨⟨3, .numeric 5⟩, AuditMap.valueAttribute, none, {}⟩,
    ⟨⟨3, .numeric 5⟩, AuditMap.displayNameAttribute, none, {}⟩])

/-- The records of a request of which one item is summarised. -/
theorem outcome_complete_iff_partlySummarised : ∃ r,
    AuditMap.outcome Connection.plainTexts (fun node => node = ⟨3, .numeric 5⟩) false [] [] none
      ⟨.write ⟨1, .good⟩ (some [.good, .badInternalError]), none⟩ partlySummarised = some r ∧
    Complete Connection.plainTexts partlySummarised
      [.write ⟨⟨3, .numeric 2⟩, AuditMap.valueAttribute, none, {}⟩,
        .write ⟨⟨3, .numeric 5⟩, AuditMap.valueAttribute, none, {}⟩,
        .write ⟨⟨3, .numeric 5⟩, AuditMap.displayNameAttribute, none, {}⟩]
      (fun node => node = ⟨3, .numeric 5⟩)
      ⟨.write ⟨1, .good⟩ (some [.good, .badInternalError]), none⟩ r := by
  refine (outcome_complete_iff Connection.plainTexts rfl _ false [] [] none _).2 ⟨?_, ?_⟩
  · intro v hv
    have hempty : v = .empty := by
      simpa [partlySummarised, RequestMessage.renderedValues] using hv
    rw [hempty]
    trivial
  · exact fun _ _ _ hread => by cases hread

/-- The one item of a write leaves no record: its value cannot be rendered. -/
theorem item_not_recorded :
    (∃ items, (Connection.structureWrite wideArgument).items = some items ∧ items.length = 1) ∧
      ∀ items o, ¬ ∃ r, AuditMap.outcome Connection.plainTexts (fun _ => false) false [] [] none o
          (Connection.structureWrite wideArgument) = some r ∧
        Complete Connection.plainTexts (Connection.structureWrite wideArgument) items
          (fun _ => false) o r := by
  have hplan := Connection.plan_structureWrite Connection.plainTexts not_renderable_wideArgument
  generalize wideArgument = e at hplan
  refine ⟨⟨_, rfl, rfl⟩, fun items o => ?_⟩
  rintro ⟨r, hr, -⟩
  rw [AuditMap.outcome, hplan] at hr
  cases hr

/-! ## A forwarding task records this outcome -/

/-- How a change ended with an answer. -/
def Answer.outcome (request : RequestMessage) : Answer → Outcome
  | .response message => ⟨message, none⟩
  | .error status maybeSent => ⟨fault request status, if maybeSent then some status else none⟩

/-- Nothing is taken out if no node is ignored. -/
theorem takeIgnored_of_forall_not {ignored : NodeId → Bool} (h : ∀ node, ignored node = false)
    (plan : AuditPlan) : plan.takeIgnored ignored = (plan, none) := by
  unfold AuditPlan.takeIgnored
  cases plan with
  | write handle items => simp [h]
  | _ => rfl

/-- What a task has prepared for a request with a plan. -/
theorem prepare_of_plan {x : Texts} {settings : Settings} {names : NameCache}
    {client : ClientContext} {request : RequestMessage} {f : Forward} {plan : AuditPlan}
    (hp : AuditMap.plan x request = some (some plan))
    (hf : prepare x settings names client request = some f) :
    let taken := plan.takeIgnored fun node => settings.summarise.matches node client
    f.client = client ∧ f.ignored = taken.2 ∧
      (taken.1.isEmpty → f.plan = none ∧ f.preRead = none) ∧
      (taken.1.isEmpty = false →
        f.plan = some (taken.1.preRead settings.recordOldValue names).1 ∧
          f.preRead = (taken.1.preRead settings.recordOldValue names).2) := by
  rw [prepare, hp, Option.map_some] at hf
  obtain rfl := Option.some.inj hf
  by_cases hsummarise : settings.summarise.isEmpty
  · rw [takeIgnored_of_forall_not fun node => Lookup.matches_of_isEmpty hsummarise node client]
    cases hempty : plan.isEmpty with
    | true => simp [hsummarise, Option.filter_some, hempty]
    | false => simp [hsummarise, Option.filter_some, hempty]
  · generalize htaken : (plan.takeIgnored fun node => settings.summarise.matches node client) =
      taken
    obtain ⟨plan', ignored⟩ := taken
    cases hempty : plan'.isEmpty with
    | true => simp [hsummarise, htaken, Option.filter_some, hempty]
    | false => simp [hsummarise, htaken, Option.filter_some, hempty]

/-- Of a plan with nothing left to record nothing is recorded. -/
theorem eventsWith_of_isEmpty {plan : AuditPlan} (h : plan.isEmpty) (x : Texts)
    (response : ResponseMessage) (unknown : Option String) :
    plan.eventsWith x response unknown = [] := by
  cases plan with
  | write handle items =>
    obtain rfl := List.isEmpty_iff.1 h
    unfold AuditPlan.eventsWith AuditPlan.eventsAll
    simp
  | _ => cases h

/-- What is left of the plan of a task. -/
theorem applied_eq (x : Texts) (names : NameCache) (f : Forward)
    (read : Option (List DataValue)) :
    f.applied x names read = match f.plan with
      | none => some (none, names)
      | some plan => (plan.withReads x names f.preRead read).map fun p => (some p.1, p.2) := by
  obtain ⟨client, plan, ignored, pre, failClosed⟩ := f
  cases plan with
  | none => rfl
  | some plan =>
    cases pre with
    | none => rfl
    | some pre =>
      cases read with
      | none => rfl
      | some results => rfl

/-- What a task records of what is left of its plan. -/
theorem completeForward_of_applied (x : Texts) (ctx : Ctx) (s : Connection) (task : Task)
    (f : Forward) (answer : Answer) (read : Option (List DataValue)) (now : DateTime) :
    Connection.completeForward x ctx s task f answer read now =
      match f.applied x s.shared.names read with
      | none => s.panic
      | some (plan, names) =>
        let o := answer.outcome task.request
        ((((plan.map fun plan =>
            plan.eventsWith x o.response (o.unknown.map (uncertainEvent x))).getD []).foldl
          (Connection.recordEvent ctx task f.client now)
          (((f.ignored.map fun items =>
              ignoredOutcomes x items o.response o.unknown names).getD []).foldl
            (Connection.countIgnored ctx task f.client now)
            { s with shared := { s.shared with names := names } })).respond task.id
          o.response) := by
  unfold Connection.completeForward
  cases f.applied x s.shared.names read with
  | none => rfl
  | some p =>
    obtain ⟨plan, names⟩ := p
    cases f.ignored with
    | none =>
      cases answer with
      | response message => cases plan <;> rfl
      | error status maybeSent => cases plan <;> cases maybeSent <;> rfl
    | some items =>
      cases answer with
      | response message => cases plan <;> rfl
      | error status maybeSent => cases plan <;> cases maybeSent <;> rfl

/-- **A forwarding task records this outcome**: it counts the summarised writes and records the
events in order, or panics. -/
theorem completeForward_eq {x : Texts} {ctx : Ctx} {settings : Settings} {names : NameCache}
    {client : ClientContext} {task : Task} {f : Forward} {plan : AuditPlan}
    (hp : AuditMap.plan x task.request = some (some plan))
    (hf : prepare x settings names client task.request = some f) (s : Connection)
    (answer : Answer) (read : Option (List DataValue)) (now : DateTime) :
    Connection.completeForward x ctx s task f answer read now =
      match AuditMap.outcome x (fun node => settings.summarise.matches node client)
        settings.recordOldValue names s.shared.names read (answer.outcome task.request)
        task.request with
      | none => s.panic
      | some r =>
        (r.events.foldl (Connection.recordEvent ctx task client now)
          (r.summarised.foldl (Connection.countIgnored ctx task client now)
            { s with shared := { s.shared with names := r.names } })).respond task.id
          (answer.outcome task.request).response := by
  obtain ⟨hclient, hignored, hnone, hsome⟩ := prepare_of_plan hp hf
  rw [outcome_eq hp]
  generalize hkept : (plan.takeIgnored fun node => settings.summarise.matches node client) =
    taken at hignored hnone hsome
  rw [completeForward_of_applied, hclient, hignored]
  cases hempty : taken.1.isEmpty with
  | true =>
    obtain ⟨hplan, hpre⟩ := hnone hempty
    rw [applied_eq, hplan]
    obtain ⟨handle, hwrite⟩ : ∃ handle, taken.1 = .write handle [] := by
      cases hkind : taken.1 with
      | write handle items =>
        rw [hkind] at hempty
        exact ⟨handle, by rw [List.isEmpty_iff.1 hempty]⟩
      | _ =>
        rw [hkind] at hempty
        cases hempty
    have hevents : ∀ unknown, (AuditPlan.write handle []).eventsWith x
        (answer.outcome task.request).response unknown = [] := by
      intro unknown
      exact eventsWith_of_isEmpty rfl ..
    have hreads : (AuditPlan.write handle []).preRead settings.recordOldValue names =
        (.write handle [], none) := rfl
    rw [hwrite, hreads]
    dsimp only [AuditPlan.withReads, Option.map_some]
    rw [hevents]
    rfl
  | false =>
    obtain ⟨hplan, hpre⟩ := hsome hempty
    rw [applied_eq, hplan, hpre]
    dsimp only
    cases (taken.1.preRead settings.recordOldValue names).1.withReads x s.shared.names
        (taken.1.preRead settings.recordOldValue names).2 read with
    | none => rfl
    | some p => rfl

end AuditGateway
