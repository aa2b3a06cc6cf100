import AuditGateway.Relay.Connection

set_option relaxedAutoImplicit false
set_option autoImplicit false

/-!
# What an intent names

In fail-closed mode a change waits for the commit of a record that names what it is about to do.
What this record has to name is read off the request; what it does name goes through the plan,
from which the summarised writes are taken out first.

## Main definitions

* `changeItems`, `intended` — what the intent of a request has to name.

## Main results

* `intent_eq_intended` — the intent names what it has to.
-/

namespace AuditGateway

/-! ## What an intent names -/

/-- A value write to a node that is summarised for the client. -/
def summarises (settings : Settings) (client : ClientContext) (w : WriteValue) : Bool :=
  w.attributeId = AuditMap.valueAttribute ∧ settings.summarise.matches w.nodeId client

open AuditMap in
/-- The items of a request that are no summarised value writes, in the order of the request:
their names, and their new values or arguments. -/
def changeItems (x : Texts) (settings : Settings) (client : ClientContext) :
    RequestMessage → List (String × Option Json)
  | .write _ nodesToWrite =>
    ((nodesToWrite.getD []).filter fun w => !summarises settings client w).map fun w =>
      (clip (x.nodeId w.nodeId) maxText,
        (auditValue x (w.value.value.getD .empty)).map fun v =>
          .object [("attribute", .string (attributeName x w.attributeId)), ("new_value", v.json)])
  | .call _ methodsToCall =>
    (methodsToCall.getD []).map fun r =>
      (clip (x.nodeId r.methodId) maxText,
        ((r.inputArguments.getD []).mapM (auditValue x)).map fun arguments =>
          .object [("input_arguments", .array (arguments.map (·.json))),
            ("object_id", .string (clip r.objectId maxText))])
  | .historyUpdate _ details =>
    (details.getD []).map fun d =>
      ((historyItem x d).nodeId, some (.object [("details", .string (historyItem x d).details)]))
  | .addNodes _ nodes => (nodes.getD []).map fun n => (addNodesItem n, none)
  | .deleteNodes _ nodes => (nodes.getD []).map fun n => (clip n maxText, none)
  | .addReferences _ references => (references.getD []).map fun n => (referencesItem n, none)
  | .deleteReferences _ references => (references.getD []).map fun n => (referencesItem n, none)
  | .transferSubscriptions _ ids => (ids.getD []).map fun id => (toString id, none)
  | _ => []

/-- The name of the service, in an intent. -/
def serviceName : RequestMessage → String
  | .write .. => "Write"
  | .call .. => "Call"
  | .historyUpdate .. => "HistoryUpdate"
  | .addNodes .. => "AddNodes"
  | .deleteNodes .. => "DeleteNodes"
  | .addReferences .. => "AddReferences"
  | .deleteReferences .. => "DeleteReferences"
  | .transferSubscriptions .. => "TransferSubscriptions"
  | _ => ""

/-- Whether a request writes values. -/
def isWrite : RequestMessage → Bool
  | .write .. => true
  | _ => false

/-- The record that has to be committed before a request is handed over: in fail-closed mode,
for every audited request but a write all of whose items are summarised. -/
def intended (x : Texts) (ctx : Ctx) (settings : Settings) (client : ClientContext)
    (request : RequestMessage) : Option AuditEntry :=
  let items := changeItems x settings client request
  if settings.failMode = .failClosed ∧ isAudited request ∧
      ¬(isWrite request ∧ items.isEmpty) then
    some (ctx.entry settings.now client (.changeIntent request.requestHeader.requestHandle
      (serviceName request) (items.map Prod.fst) (items.filterMap Prod.snd)))
  else none

/-! ## The intent names what it has to -/

/-- Name and details of an item of a write. -/
def WriteItem.named (i : WriteItem) : String × Json :=
  (i.nodeId, .object [("attribute", .string i.attributeName), ("new_value", i.newValue.json)])

/-- Name and details of an item of a call. -/
def CallItem.named (i : CallItem) : String × Json :=
  (i.methodId, .object [("input_arguments", .array (i.inputArguments.map (·.json))),
    ("object_id", .string i.objectId)])

namespace AuditMap

variable {x : Texts}

/-- The node, the attribute and the new value of a written value. -/
theorem writeItem_eq_some {i : ℕ} {w : WriteValue} {item : WriteItem}
    (h : writeItem x i w = some item) :
    item.node = w.nodeId ∧ item.attributeId = w.attributeId ∧
      (clip (x.nodeId w.nodeId) maxText,
        (auditValue x (w.value.value.getD .empty)).map fun v =>
          Json.object [("attribute", .string (attributeName x w.attributeId)),
            ("new_value", v.json)]) = (item.named.1, some item.named.2) := by
  rw [writeItem, Option.map_eq_some_iff] at h
  obtain ⟨v, hv, rfl⟩ := h
  rw [hv]
  exact ⟨rfl, rfl, rfl⟩

/-- The method and the arguments of a called method. -/
theorem callItem_eq_some {r : CallMethodRequest} {item : CallItem}
    (h : callItem x r = some item) :
    (clip (x.nodeId r.methodId) maxText,
      ((r.inputArguments.getD []).mapM (auditValue x)).map fun arguments =>
        Json.object [("input_arguments", .array (arguments.map (·.json))),
          ("object_id", .string (clip r.objectId maxText))]) =
      (item.named.1, some item.named.2) := by
  rw [callItem, Option.map_eq_some_iff] at h
  obtain ⟨arguments, harguments, rfl⟩ := h
  rw [harguments]
  rfl

/-- The items of a write that are kept are those of the values that are kept. -/
theorem map_named_writeItems {settings : Settings} {client : ClientContext}
    {values : List WriteValue} {n : ℕ} {items : List WriteItem}
    (h : (values.zipIdx n).mapM (fun w => writeItem x w.2 w.1) = some items) :
    ((values.filter fun w => !summarises settings client w).map fun w =>
      (clip (x.nodeId w.nodeId) maxText,
        (auditValue x (w.value.value.getD .empty)).map fun v =>
          Json.object [("attribute", .string (attributeName x w.attributeId)),
            ("new_value", v.json)])) =
      (items.filter fun i => ¬(i.attributeId = valueAttribute ∧
        settings.summarise.matches i.node client)).map fun i => (i.named.1, some i.named.2) := by
  induction values generalizing n items with
  | nil =>
    obtain rfl : [] = items := Option.some.inj h
    rfl
  | cons w values ih =>
    have hall := forall₂_of_mapM h
    rw [List.zipIdx_cons] at hall
    cases hall with
    | cons hitem hrest =>
      obtain ⟨hnode, hattribute, hnamed⟩ := writeItem_eq_some hitem
      rename_i item rest
      have ih := ih (mapM_of_forall₂ hrest)
      rw [List.filter_cons, List.filter_cons, hnode, hattribute]
      by_cases hsummarised : summarises settings client w
      · have hout := hsummarised
        simp only [summarises, decide_eq_true_eq] at hout
        simp only [hsummarised, hout, and_self, not_true, decide_false, Bool.not_true,
          Bool.false_eq_true, if_false]
        exact ih
      · have hin := hsummarised
        simp only [summarises, decide_eq_true_eq] at hin
        simp only [hsummarised, hin, not_false_eq_true, decide_true, Bool.not_false, if_true,
          List.map_cons, hnamed, ih]

/-- The same of all methods of a request. -/
theorem map_named_callItems {requests : List CallMethodRequest} {items : List CallItem}
    (h : requests.mapM (callItem x) = some items) :
    (requests.map fun r => (clip (x.nodeId r.methodId) maxText,
      ((r.inputArguments.getD []).mapM (auditValue x)).map fun arguments =>
        Json.object [("input_arguments", .array (arguments.map (·.json))),
          ("object_id", .string (clip r.objectId maxText))])) =
      items.map fun i => (i.named.1, some i.named.2) := by
  have hall := forall₂_of_mapM h
  clear h
  induction hall with
  | nil => rfl
  | cons hitem _ ih => rw [List.map_cons, List.map_cons, callItem_eq_some hitem, ih]

end AuditMap

/-! ### From the plan to the intent -/

/-- No node is matched by an empty lookup. -/
theorem Lookup.matches_of_isEmpty {l : Lookup} (h : l.isEmpty) (node : NodeId)
    (client : ClientContext) : l.matches node client = false := by
  rw [isEmpty, Bool.and_eq_true, List.isEmpty_iff, List.isEmpty_iff] at h
  have hclient : ∀ key, l.forClient node key = false := by
    intro key
    simp [forClient, h.2]
  rw [Lookup.matches, h.1, hclient]
  cases client.applicationUri with
  | none => rfl
  | some uri => simp [hclient]

namespace AuditPlan

/-- The plan without the summarised writes. -/
def kept (settings : Settings) (client : ClientContext) (plan : AuditPlan) : AuditPlan :=
  (plan.takeIgnored fun node => settings.summarise.matches node client).1

/-- With an empty lookup everything is kept. -/
theorem kept_of_isEmpty {settings : Settings} (h : settings.summarise.isEmpty)
    (client : ClientContext) (plan : AuditPlan) : plan.kept settings client = plan := by
  unfold kept takeIgnored
  cases plan with
  | write handle items => simp [Lookup.matches_of_isEmpty h]
  | _ => rfl

/-- Reads and names do not show in the intent. -/
theorem intent_preRead (oldValues : Bool) (names : NameCache) (plan : AuditPlan) :
    (plan.preRead oldValues names).1.intent = plan.intent := by
  cases plan with
  | write handle items => simp [preRead, intent, service]
  | call handle items => simp [preRead, intent, service]
  | _ => rfl

end AuditPlan

variable {x : Texts} {ctx : Ctx} {settings : Settings} {names : NameCache}
  {client : ClientContext} {request : RequestMessage} {f : Forward}

/-- What a forwarding task keeps of its plan. -/
theorem prepare_eq_some (h : prepare x settings names client request = some f) :
    ∃ p, AuditMap.plan x request = some p ∧ f.client = client ∧
      f.failClosed = decide (settings.failMode = .failClosed) ∧
      f.plan = ((p.map (AuditPlan.kept settings client)).filter fun plan => !plan.isEmpty).map
        fun plan => (plan.preRead settings.recordOldValue names).1 := by
  rw [prepare, Option.map_eq_some_iff] at h
  obtain ⟨p, hp, rfl⟩ := h
  refine ⟨p, hp, rfl, rfl, ?_⟩
  cases p with
  | none => rfl
  | some plan =>
    dsimp only
    by_cases hempty : settings.summarise.isEmpty
    · rw [if_pos hempty, Option.map_some, AuditPlan.kept_of_isEmpty hempty]
      dsimp only
      cases hkept : (some plan).filter fun plan => !plan.isEmpty with
      | none => rfl
      | some plan' => rfl
    · rw [if_neg hempty, Option.map_some]
      show _ = ((some (plan.kept settings client)).filter fun plan => !plan.isEmpty).map _
      rw [AuditPlan.kept]
      dsimp only
      cases hkept : (some (plan.takeIgnored fun node =>
          settings.summarise.matches node client).1).filter fun plan => !plan.isEmpty with
      | none => rfl
      | some plan' => rfl

/-- The intent of the plan without the summarised writes, unless nothing is left of it. -/
theorem intent_eq (ctx : Ctx) (h : prepare x settings names client request = some f) :
    ∃ p, AuditMap.plan x request = some p ∧ f.intent ctx settings.now =
      if settings.failMode = .failClosed then
        ((p.map (AuditPlan.kept settings client)).filter fun plan => !plan.isEmpty).map fun plan =>
          ctx.entry settings.now client plan.intent
      else none := by
  obtain ⟨p, hp, hclient, hclosed, hplan⟩ := prepare_eq_some h
  refine ⟨p, hp, ?_⟩
  rw [Forward.intent, hclosed, hclient, hplan]
  simp only [decide_eq_true_eq, Option.map_map, Function.comp_def, AuditPlan.intent_preRead]

/-- The names of named values. -/
theorem map_fst_named {α : Type*} (g : α → String × Json) (items : List α) :
    (items.map fun i => ((g i).1, some (g i).2)).map Prod.fst = items.map fun i => (g i).1 := by
  rw [List.map_map]
  rfl

/-- The values of named values. -/
theorem filterMap_snd_named {α : Type*} (g : α → String × Json) (items : List α) :
    (items.map fun i => ((g i).1, some (g i).2)).filterMap Prod.snd =
      items.map fun i => (g i).2 := by
  rw [List.filterMap_map, ← List.filterMap_eq_map]
  rfl

/-- **The intent names what it has to**: the record a task waits for names exactly the items of
its request that are no summarised value writes, in the order of the request, with their new
values or arguments; only in fail-open mode, for a request that is not audited, and for a write
without such an item there is none. -/
theorem intent_eq_intended (ctx : Ctx) (h : prepare x settings names client request = some f) :
    f.intent ctx settings.now = intended x ctx settings client request := by
  obtain ⟨p, hp, hintent⟩ := intent_eq ctx h
  rw [hintent]
  unfold intended
  by_cases hclosed : settings.failMode = .failClosed
  · rw [if_pos hclosed]
    simp only [hclosed, true_and]
    cases request with
    | write header nodesToWrite =>
      rw [AuditMap.plan, Option.map_eq_some_iff] at hp
      obtain ⟨items, hitems, rfl⟩ := hp
      rw [changeItems, AuditMap.map_named_writeItems hitems]
      set kept := items.filter fun i => ¬(i.attributeId = AuditMap.valueAttribute ∧
        settings.summarise.matches i.node client) with hkept
      have hplan : (AuditPlan.write header.requestHandle items).kept settings client =
          .write header.requestHandle kept := rfl
      rw [Option.map_some, hplan]
      by_cases hnone : kept = []
      · rw [hnone]
        rfl
      · have hnonempty : kept.isEmpty = false := by simpa using hnone
        rw [if_pos (by simp [isAudited, hnone]), map_fst_named, filterMap_snd_named,
          Option.filter_some, if_pos (by simp [AuditPlan.isEmpty, hnonempty])]
        rfl
    | call header methodsToCall =>
      rw [AuditMap.plan, Option.map_eq_some_iff] at hp
      obtain ⟨items, hitems, rfl⟩ := hp
      rw [changeItems, AuditMap.map_named_callItems hitems, map_fst_named, filterMap_snd_named]
      rfl
    | historyUpdate header details =>
      obtain rfl := Option.some.inj hp
      show some _ = some _
      rw [changeItems]
      simp only [AuditPlan.kept, AuditPlan.takeIgnored, AuditPlan.intent, List.map_map,
        List.filterMap_map, Function.comp_def, List.filterMap_eq_map']
      rfl
    | _ =>
      obtain rfl := Option.some.inj hp
      first
      | rfl
      | simp [changeItems, AuditPlan.kept, AuditPlan.takeIgnored, AuditPlan.intent, isAudited,
          AuditPlan.isEmpty, isWrite]
        rfl
  · rw [if_neg hclosed, if_neg (fun h => hclosed h.1)]

end AuditGateway
