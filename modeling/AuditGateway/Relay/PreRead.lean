import AuditGateway.Lib.Modified
import AuditGateway.Relay.Connection
import AuditGateway.Relay.Rendered

set_option relaxedAutoImplicit false
set_option autoImplicit false

/-!
# Reads sent with a change

The reads for old values and names of a plan are in one list, whose length depends on the cache of
names, and their results are matched by position only. The cache belongs to the target, so other
requests look up names and file them in between.

## Main definitions

* `AuditPlan.preReadAt`, `AuditPlan.applyPreReadAt` — the reads of a plan and their results, with
  the cache as it is at each moment.
* `PreRead.Reads` — the value that was read for an item.
* `AuditPlan.Filled` — every item has what was read for it, and nothing else has changed.

## Main results

* `AuditPlan.applyPreReadAt_isSome_iff` — which results can be applied.
* `AuditPlan.lands_on_own_item` — old values and names land on their own item.
* `AuditMap.renders_iff` — which values, requests and results can be rendered.

## Design

A result fills in one field of one item, so what all results do to an item is a fold over those for
it. Each item has at most one read of a kind, and it is for the item's own node.
-/

namespace AuditGateway

/-! ## The cache -/

namespace NameCache

/-- The names of other nodes stay. -/
theorem lookup_filter_ne (names : NameCache) {node n : NodeId} (h : n ≠ node) :
    (names.filter fun entry => entry.1 ≠ node).lookup n = names.lookup n := by
  induction names with
  | nil => rfl
  | cons entry names ih =>
    obtain ⟨m, name⟩ := entry
    by_cases hm : m = node
    · subst hm
      have hne : (n == m) = false := beq_eq_false_iff_ne.2 h
      rw [List.filter_cons_of_neg (by simp), ih, List.lookup_cons, hne]
    · rw [List.filter_cons_of_pos (by simpa using hm), List.lookup_cons, List.lookup_cons, ih]

/-- A name is filed under its own node, and the cache may have started over. -/
theorem get_insert {names : NameCache} {node n : NodeId} {name m : String}
    (h : (names.insert node name).get n = some m) :
    n = node ∧ m = name ∨ names.get n = some m := by
  unfold get insert at h
  by_cases hn : n = node
  · subst hn
    rw [List.lookup_cons_self] at h
    exact .inl ⟨rfl, (Option.some.inj h).symm⟩
  · have hne : (n == node) = false := beq_eq_false_iff_ne.2 hn
    rw [List.lookup_cons, hne] at h
    simp only [lookup_filter_ne _ hn] at h
    split_ifs at h
    · cases h
    · exact .inr h

/-- Every name in the cache is one that its node may have. -/
def Holds (allowed : NodeId → String → Prop) (names : NameCache) : Prop :=
  ∀ node name, names.get node = some name → allowed node name

/-- A name that is allowed may be added. -/
theorem Holds.insert {allowed : NodeId → String → Prop} {names : NameCache}
    (h : names.Holds allowed) {node : NodeId} {name : String} (hname : allowed node name) :
    (names.insert node name).Holds allowed := by
  intro n m hget
  obtain ⟨rfl, rfl⟩ | hget := get_insert hget
  · exact hname
  · exact h n m hget

end NameCache

/-! ## The reads of a plan -/

/-- The value of a result, if it is good and has one. -/
def DataValue.goodValue (result : DataValue) : Option Variant :=
  if result.status.all StatusCode.isGood then result.value else none

/-- A value was read for an item: the result at the position of its read. -/
def PreRead.Reads (pre : PreRead) (results : List DataValue) (i : ℕ) (kind : PreReadKind)
    (read : ReadValueId) (value : Variant) : Prop :=
  ∃ (k : ℕ) (result : DataValue), pre.targets[k]? = some (i, kind) ∧
    pre.nodesToRead[k]? = some read ∧
    results[k]? = some result ∧ result.goodValue = some value

/-- The read for a node's display name. -/
def ReadValueId.name (node : NodeId) : ReadValueId :=
  { nodeId := node, attributeId := AuditMap.displayNameAttribute }

/-- The read for what a write replaces. -/
def WriteItem.read (item : WriteItem) : ReadValueId := ⟨item.node, item.attributeId, item.range⟩

/-- An item with the name that is in the cache, if there is one. -/
def WriteItem.withName (item : WriteItem) (names : NameCache) : WriteItem :=
  { item with displayName := (names.get item.node).or item.displayName }

/-- A called method with its name, if it is known. -/
def CallItem.withName (item : CallItem) (names : NameCache) : CallItem :=
  { item with displayName := (names.get item.method).or item.displayName }

namespace AuditPlan

/-- `preRead` with the cache as it is when each item is looked up. -/
def preReadAt (oldValues : Bool) (names : ℕ → NameCache) : AuditPlan → AuditPlan × Option PreRead
  | write requestHandle items =>
    (write requestHandle (items.zipIdx.map fun item => item.1.withName (names item.2)),
      PreRead.of (items.zipIdx.flatMap fun item =>
        AuditMap.writeReads oldValues (names item.2) item.2 item.1))
  | call requestHandle items =>
    (call requestHandle (items.zipIdx.map fun item => item.1.withName (names item.2)),
      PreRead.of (items.zipIdx.flatMap fun item =>
        AuditMap.nameRead (names item.2) item.2 item.1.method))
  | plan => (plan, none)

/-- `applyPreRead` with what others do to the cache before each result is applied. -/
def applyPreReadAt (x : Texts) (plan : AuditPlan) (names : NameCache)
    (others : ℕ → NameCache → NameCache) (pre : PreRead) (results : List DataValue) :
    Option (AuditPlan × NameCache) :=
  (pre.targets.zip results).zipIdx.foldlM
    (fun acc target =>
      applyResult x acc.1 (others target.2 acc.2) target.1.1.1 target.1.1.2 target.1.2)
    (plan, names)

/-! ## Each read is for its own item -/

/-- The node of an item that reads can be made for. -/
def node : AuditPlan → ℕ → Option NodeId
  | write _ items, i => items[i]?.map (·.node)
  | call _ items, i => items[i]?.map (·.method)
  | _, _ => none

/-- The read of a kind for an item. -/
def read (plan : AuditPlan) (i : ℕ) : PreReadKind → Option ReadValueId
  | .oldValue =>
    match plan with
    | write _ items => items[i]?.map WriteItem.read
    | _ => none
  | .name => (plan.node i).map ReadValueId.name

/-- The read of a name. -/
theorem mem_nameRead {names : NameCache} {i : ℕ} {n : NodeId}
    {r : ReadValueId × ℕ × PreReadKind} (h : r ∈ AuditMap.nameRead names i n) :
    r = (ReadValueId.name n, i, .name) := by
  unfold AuditMap.nameRead at h
  split at h
  · cases h
  · exact List.mem_singleton.1 h

/-- The reads of a written value. -/
theorem mem_writeReads {oldValues : Bool} {names : NameCache} {i : ℕ} {item : WriteItem}
    {r : ReadValueId × ℕ × PreReadKind} (h : r ∈ AuditMap.writeReads oldValues names i item) :
    r = (item.read, i, .oldValue) ∨ r = (ReadValueId.name item.node, i, .name) := by
  rcases List.mem_append.1 h with h | h
  · split_ifs at h
    · exact .inl (List.mem_singleton.1 h)
    · cases h
  · exact .inr (mem_nameRead h)

/-- The list of reads is that of the items, and what each is for is beside it. -/
theorem preRead_of_eq_some {reads : List (ReadValueId × ℕ × PreReadKind)} {pre : PreRead}
    (h : PreRead.of reads = some pre) :
    pre.nodesToRead = reads.map (·.1) ∧ pre.targets = reads.map (·.2) := by
  unfold PreRead.of at h
  split_ifs at h
  cases h
  exact ⟨rfl, rfl⟩

/-- Every read is that of the item it is for. -/
theorem read_of_getElem? {oldValues : Bool} {found : ℕ → NameCache} {plan : AuditPlan}
    {pre : PreRead} (h : (plan.preReadAt oldValues found).2 = some pre) {k i : ℕ}
    {kind : PreReadKind} (hk : pre.targets[k]? = some (i, kind)) :
    ∃ read, plan.read i kind = some read ∧ pre.nodesToRead[k]? = some read := by
  have hown : ∀ reads : List (ReadValueId × ℕ × PreReadKind), PreRead.of reads = some pre →
      (∀ r ∈ reads, plan.read r.2.1 r.2.2 = some r.1) →
      ∃ read, plan.read i kind = some read ∧ pre.nodesToRead[k]? = some read := by
    intro reads hreads hall
    obtain ⟨hnodes, htargets⟩ := preRead_of_eq_some hreads
    rw [htargets, List.getElem?_map, Option.map_eq_some_iff] at hk
    obtain ⟨r, hr, heq⟩ := hk
    have hread := hall r (List.mem_of_getElem? hr)
    rw [heq] at hread
    refine ⟨r.1, hread, ?_⟩
    rw [hnodes, List.getElem?_map, hr, Option.map_some]
  cases plan with
  | write handle items =>
    refine hown _ h fun r hr => ?_
    obtain ⟨item, hitem, hr⟩ := List.mem_flatMap.1 hr
    have hget : items[item.2]? = some item.1 := List.mem_zipIdx_iff_getElem?.1 hitem
    obtain rfl | rfl := mem_writeReads hr
    · simp [read, hget]
    · simp [read, node, hget]
  | call handle items =>
    refine hown _ h fun r hr => ?_
    obtain ⟨item, hitem, hr⟩ := List.mem_flatMap.1 hr
    have hget : items[item.2]? = some item.1 := List.mem_zipIdx_iff_getElem?.1 hitem
    obtain rfl := mem_nameRead hr
    simp [read, node, hget]
  | _ => cases h

/-- The reads of all items are for different things, if those of each item are. -/
theorem nodup_of_reads {α : Type*} {items : List α}
    {f : α × ℕ → List (ReadValueId × ℕ × PreReadKind)} (hf : ∀ a, ∀ r ∈ f a, r.2.1 = a.2)
    (hnodup : ∀ a, ((f a).map (·.2)).Nodup) :
    ((items.zipIdx.flatMap f).map (·.2)).Nodup := by
  rw [List.map_flatMap, List.nodup_flatMap]
  refine ⟨fun a _ => hnodup a, ?_⟩
  have hindex : (items.zipIdx.map Prod.snd).Nodup := by
    rw [List.zipIdx_map_snd]
    exact List.nodup_range'
  refine (List.pairwise_map.1 hindex).imp fun {a b} hne => ?_
  intro t hta htb
  obtain ⟨r, hr, rfl⟩ := List.mem_map.1 hta
  obtain ⟨r', hr', heq⟩ := List.mem_map.1 htb
  apply hne
  rw [← hf a r hr, ← hf b r' hr', heq]

/-- An item has at most one read of a kind. -/
theorem nodup_targets {oldValues : Bool} {found : ℕ → NameCache} {plan : AuditPlan}
    {pre : PreRead} (h : (plan.preReadAt oldValues found).2 = some pre) : pre.targets.Nodup := by
  have hname : ∀ (names : NameCache) (i : ℕ) (n : NodeId),
      ((AuditMap.nameRead names i n).map (·.2)).Nodup := by
    intro names i n
    unfold AuditMap.nameRead
    split
    · exact List.nodup_nil
    · exact List.nodup_singleton _
  cases plan with
  | write handle items =>
    obtain ⟨-, htargets⟩ := preRead_of_eq_some h
    rw [htargets]
    refine nodup_of_reads (fun a r hr => ?_) (fun a => ?_)
    · obtain rfl | rfl := mem_writeReads hr
      · rfl
      · rfl
    · rw [AuditMap.writeReads, List.map_append]
      refine List.nodup_append'.2 ⟨?_, hname _ _ _, ?_⟩
      · split_ifs
        · exact List.nodup_singleton _
        · exact List.nodup_nil
      · intro t ht ht'
        obtain ⟨r, hr, rfl⟩ := List.mem_map.1 ht'
        obtain rfl := mem_nameRead hr
        split_ifs at ht
        · cases List.mem_singleton.1 ht
        · cases ht
  | call handle items =>
    obtain ⟨-, htargets⟩ := preRead_of_eq_some h
    rw [htargets]
    refine nodup_of_reads (fun a r hr => ?_) (fun a => hname _ _ _)
    obtain rfl := mem_nameRead hr
    rfl
  | _ => cases h

end AuditPlan

/-! ## What a result fills in -/

/-- A result and what its read was for. -/
abbrev ReadAnswer := (ℕ × PreReadKind) × DataValue

/-- The name that a value gives a node. -/
def Variant.displayName : Variant → Option String
  | .localizedText text => some (clip text maxName)
  | _ => none

/-- Only a localized text is a name. -/
theorem bind_displayName_of_forall {value : Option Variant}
    (h : ∀ text, value = some (.localizedText text) → False) :
    value.bind Variant.displayName = none := by
  cases value with
  | none => rfl
  | some v =>
    cases v with
    | localizedText text => exact (h text rfl).elim
    | _ => rfl

/-- The item after an answer for it. -/
def WriteItem.fill (x : Texts) (answer : ReadAnswer) (item : WriteItem) : WriteItem :=
  match answer.1.2 with
  | .oldValue =>
    { item with oldValue := (answer.2.goodValue.bind (AuditMap.auditValue x)).or item.oldValue }
  | .name =>
    { item with displayName := (answer.2.goodValue.bind Variant.displayName).or item.displayName }

/-- A called method with the name that was read. -/
def CallItem.fill (answer : ReadAnswer) (item : CallItem) : CallItem :=
  match answer.1.2 with
  | .oldValue => item
  | .name =>
    { item with displayName := (answer.2.goodValue.bind Variant.displayName).or item.displayName }

namespace AuditPlan

/-- A plan with what was read. -/
def fill (x : Texts) (answer : ReadAnswer) : AuditPlan → AuditPlan
  | write requestHandle items => write requestHandle (items.modify answer.1.1 (·.fill x answer))
  | call requestHandle items => call requestHandle (items.modify answer.1.1 (·.fill answer))
  | plan => plan

/-- The cache after an answer. -/
def file (plan : AuditPlan) (answer : ReadAnswer) (names : NameCache) : NameCache :=
  match answer.1.2, answer.2.goodValue.bind Variant.displayName, plan.node answer.1.1 with
  | .name, some name, some n => names.insert n name
  | _, _, _ => names

/-- A change in place is a modification. -/
theorem modify_of_getElem? {α : Type*} {items : List α} {i : ℕ} {item : α}
    (h : items[i]? = some item) {f : α → α} {item' : α} (hf : f item = item') :
    items.set i item' = items.modify i f := by
  apply List.ext_getElem?
  intro j
  rw [List.getElem?_set, List.getElem?_modify]
  by_cases hij : i = j
  · subst hij
    rw [h, if_pos rfl, if_pos (List.getElem?_eq_some_iff.1 h).1]
    simp [hf]
  · simp [hij]

/-- A modification that changes nothing changes no list. -/
theorem modify_id {α : Type*} {items : List α} {i : ℕ} {f : α → α} (hf : ∀ a, f a = a) :
    items.modify i f = items := by
  apply List.ext_getElem?
  intro j
  rw [List.getElem?_modify]
  simp [hf]

/-- A result of the wrong kind for its read, or for the plan, changes nothing. -/
theorem fill_of_no_match (x : Texts) {plan : AuditPlan} (names : NameCache) {i : ℕ}
    {kind : PreReadKind} {result : DataValue}
    (hold : ∀ value handle items, result.goodValue = some value → kind = .oldValue →
      plan = .write handle items → False)
    (hwrite : ∀ text handle items, result.goodValue = some (.localizedText text) →
      kind = .name → plan = .write handle items → False)
    (hcall : ∀ text handle items, result.goodValue = some (.localizedText text) →
      kind = .name → plan = .call handle items → False) :
    plan = plan.fill x ((i, kind), result) ∧ names = plan.file ((i, kind), result) names := by
  cases kind with
  | oldValue =>
    cases plan with
    | write handle items =>
      have hnone : result.goodValue = none :=
        Option.eq_none_iff_forall_ne_some.2 fun value hvalue =>
          hold value handle items hvalue rfl rfl
      refine ⟨congrArg (write handle) (modify_id fun item => ?_).symm, rfl⟩
      simp [WriteItem.fill, hnone]
    | call handle items =>
      exact ⟨congrArg (call handle) (modify_id fun item => rfl).symm, rfl⟩
    | _ => exact ⟨rfl, rfl⟩
  | name =>
    cases plan with
    | write handle items =>
      have hnone := bind_displayName_of_forall fun text htext =>
        hwrite text handle items htext rfl rfl
      refine ⟨congrArg (write handle) (modify_id fun item => ?_).symm, ?_⟩
      · simp [WriteItem.fill, hnone]
      · simp [file, hnone]
    | call handle items =>
      have hnone := bind_displayName_of_forall fun text htext =>
        hcall text handle items htext rfl rfl
      refine ⟨congrArg (call handle) (modify_id fun item => ?_).symm, ?_⟩
      · simp [CallItem.fill, hnone]
      · simp [file, hnone]
    | _ => simp [fill, file, node]

/-- What one answer does: it fills in an item, and files a name for the item's node. -/
theorem applyResult_eq {x : Texts} {plan plan' : AuditPlan} {names names' : NameCache} {i : ℕ}
    {kind : PreReadKind} {result : DataValue}
    (h : applyResult x plan names i kind result = some (plan', names')) :
    plan' = plan.fill x ((i, kind), result) ∧ names' = plan.file ((i, kind), result) names := by
  unfold applyResult at h
  by_cases hgood : result.status.all StatusCode.isGood
  · rw [if_pos hgood] at h
    have hvalue : result.goodValue = result.value := if_pos hgood
    split at h
    · next value handle items hread =>
      split at h
      · next item hitem =>
        obtain ⟨old, hold, heq⟩ := Option.map_eq_some_iff.1 h
        cases heq
        constructor
        · refine congrArg (write handle) (modify_of_getElem? hitem ?_)
          simp [WriteItem.fill, hvalue, hread, hold]
        · simp [file]
      · cases h
    · next text handle items hread =>
      split at h
      · next item hitem =>
        cases h
        constructor
        · refine congrArg (write handle) (modify_of_getElem? hitem ?_)
          simp [WriteItem.fill, hvalue, hread, Variant.displayName]
        · simp [file, hvalue, hread, node, hitem, Variant.displayName]
      · cases h
    · next text handle items hread =>
      split at h
      · next item hitem =>
        cases h
        constructor
        · refine congrArg (call handle) (modify_of_getElem? hitem ?_)
          simp [CallItem.fill, hvalue, hread, Variant.displayName]
        · simp [file, hvalue, hread, node, hitem, Variant.displayName]
      · cases h
    · next hold hwrite hcall =>
      obtain ⟨hplan, hnames⟩ := Prod.mk.inj (Option.some.inj h)
      rw [← hvalue] at hold hwrite hcall
      obtain ⟨hfill, hfile⟩ := fill_of_no_match x names hold hwrite hcall
      exact ⟨hplan ▸ hfill, hnames ▸ hfile⟩
  · rw [if_neg hgood] at h
    cases h
    have hvalue : result.goodValue = none := if_neg hgood
    refine fill_of_no_match x names ?_ ?_ ?_
    · simp [hvalue]
    · simp [hvalue]
    · simp [hvalue]

/-- A read is for an item of the plan. -/
theorem lt_size_of_read {plan : AuditPlan} {i : ℕ} {kind : PreReadKind} {read : ReadValueId}
    (h : plan.read i kind = some read) : i < plan.size := by
  have hlt : ∀ {α β : Type} {items : List α} {f : α → β} {b : β},
      items[i]?.map f = some b → i < items.length := by
    intro α β items f b hb
    obtain ⟨item, hitem, -⟩ := Option.map_eq_some_iff.1 hb
    exact (List.getElem?_eq_some_iff.1 hitem).1
  cases kind with
  | oldValue =>
    cases plan with
    | write handle items => exact hlt h
    | _ => cases h
  | name =>
    obtain ⟨n, hnode, -⟩ := Option.map_eq_some_iff.1 h
    cases plan with
    | write handle items => exact hlt hnode
    | call handle items => exact hlt hnode
    | _ => cases hnode

/-- Which answers can be applied to a plan. -/
theorem applyResult_isSome_iff (x : Texts) {plan : AuditPlan} (names : NameCache) {i : ℕ}
    {kind : PreReadKind} {result : DataValue} {read : ReadValueId}
    (hread : plan.read i kind = some read) :
    (applyResult x plan names i kind result).isSome ↔
      (kind = .oldValue → ∀ value, result.goodValue = some value → value.Renderable) := by
  constructor
  · rintro hsome rfl value hvalue
    have hgood : result.status.all StatusCode.isGood := by
      by_contra hbad
      rw [DataValue.goodValue, if_neg hbad] at hvalue
      cases hvalue
    rw [DataValue.goodValue, if_pos hgood] at hvalue
    cases plan with
    | write handle items =>
      obtain ⟨item, hitem, -⟩ := Option.map_eq_some_iff.1 hread
      simpa [applyResult, hgood, hvalue, hitem, AuditMap.auditValue_isSome_iff] using hsome
    | _ => cases hread
  · intro h
    have hrenders : kind = .oldValue → result.status.all StatusCode.isGood → ∀ value,
        result.value = some value → value.Renderable :=
      fun hkind hgood value hvalue => h hkind value ((if_pos hgood).trans hvalue)
    obtain ⟨plan', names', happly, -⟩ := applyResult_isSome x names (lt_size_of_read hread) hrenders
    rw [happly]
    rfl

/-! ## Results change neither nodes nor ranges -/

/-- What is read changes old value and name only. -/
theorem fill_rest (x : Texts) (answer : ReadAnswer) (item : WriteItem) :
    item.fill x answer = { item with
      oldValue := (item.fill x answer).oldValue
      displayName := (item.fill x answer).displayName } := by
  obtain ⟨⟨i, kind⟩, result⟩ := answer
  cases kind with
  | oldValue => rfl
  | name => rfl

/-- What is read changes the name only. -/
theorem fill_rest_call (answer : ReadAnswer) (item : CallItem) :
    item.fill answer = { item with displayName := (item.fill answer).displayName } := by
  obtain ⟨⟨i, kind⟩, result⟩ := answer
  cases kind with
  | oldValue => rfl
  | name => rfl

/-- A modification that keeps a property of elements keeps it of a list. -/
theorem map_getElem?_modify {α β : Type*} {items : List α} {i : ℕ} {f : α → α} {g : α → β}
    (h : ∀ a, g (f a) = g a) (j : ℕ) : (items.modify i f)[j]?.map g = items[j]?.map g := by
  rw [List.getElem?_modify]
  cases items[j]? with
  | none => rfl
  | some a =>
    show some (g (if i = j then f a else a)) = some (g a)
    by_cases hij : i = j
    · rw [if_pos hij, h]
    · rw [if_neg hij]

/-- The nodes stay when a plan is filled. -/
theorem node_fill (x : Texts) (answer : ReadAnswer) (plan : AuditPlan) (i : ℕ) :
    (plan.fill x answer).node i = plan.node i := by
  cases plan with
  | write handle items =>
    exact map_getElem?_modify (fun item => by rw [fill_rest]) i
  | call handle items =>
    exact map_getElem?_modify (fun item => by rw [fill_rest_call]) i
  | _ => rfl

/-- The reads stay when a plan is filled. -/
theorem read_fill (x : Texts) (answer : ReadAnswer) (plan : AuditPlan) (i : ℕ)
    (kind : PreReadKind) :
    (plan.fill x answer).read i kind = plan.read i kind := by
  cases kind with
  | name => exact congrArg (Option.map ReadValueId.name) (node_fill x answer plan i)
  | oldValue =>
    cases plan with
    | write handle items =>
      exact map_getElem?_modify (fun item => by rw [fill_rest]; rfl) i
    | _ => rfl

/-- What does not depend on positions is read off the list. -/
theorem map_getElem?_zipIdx {α β γ : Type*} {items : List α} {f : α × ℕ → β} {g : β → γ}
    {h : α → γ} (hg : ∀ a i, g (f (a, i)) = h a) (i : ℕ) :
    (items.zipIdx.map f)[i]?.map g = items[i]?.map h := by
  rw [List.getElem?_map, List.getElem?_zipIdx, Option.map_map, Option.map_map]
  cases items[i]? with
  | none => rfl
  | some a => simp [hg]

/-- A pre-read changes no node of a plan. -/
theorem node_preReadAt (oldValues : Bool) (found : ℕ → NameCache) (plan : AuditPlan) (i : ℕ) :
    (plan.preReadAt oldValues found).1.node i = plan.node i := by
  cases plan with
  | write handle items => exact map_getElem?_zipIdx (fun item i => rfl) i
  | call handle items => exact map_getElem?_zipIdx (fun item i => rfl) i
  | _ => rfl

/-- A pre-read changes no read of a plan. -/
theorem read_preReadAt (oldValues : Bool) (found : ℕ → NameCache) (plan : AuditPlan) (i : ℕ)
    (kind : PreReadKind) : (plan.preReadAt oldValues found).1.read i kind = plan.read i kind := by
  cases kind with
  | name => exact congrArg (Option.map ReadValueId.name) (node_preReadAt oldValues found plan i)
  | oldValue =>
    cases plan with
    | write handle items => exact map_getElem?_zipIdx (fun item i => rfl) i
    | _ => rfl

/-! ## All results -/

section Results

variable {x : Texts} {plan : AuditPlan} {oldValues : Bool} {found : ℕ → NameCache}
  {pre : PreRead} {results : List DataValue} {names : NameCache}
  {others : ℕ → NameCache → NameCache}

/-- An answer in the list is the result at the position of its read. -/
theorem exists_of_mem_answers {answer : ReadAnswer} (h : answer ∈ pre.targets.zip results) :
    ∃ k : ℕ, pre.targets[k]? = some answer.1 ∧ results[k]? = some answer.2 := by
  obtain ⟨k, hk⟩ := List.mem_iff_getElem?.1 h
  exact ⟨k, List.getElem?_zip_eq_some.1 hk⟩

/-- **Which results can be applied**: exactly those whose old values can all be rendered, so no
position is out of bounds. -/
theorem applyPreReadAt_isSome_iff (hpre : (plan.preReadAt oldValues found).2 = some pre) :
    ((plan.preReadAt oldValues found).1.applyPreReadAt x names others pre results).isSome ↔
      pre.Renderable results := by
  have hfold : ((plan.preReadAt oldValues found).1.applyPreReadAt x names others pre results).isSome
      ↔ ∀ p ∈ (pre.targets.zip results).zipIdx, p.1.1.2 = .oldValue →
        ∀ value, p.1.2.goodValue = some value → value.Renderable := by
    refine foldlM_isSome_iff (fun s => ∀ i kind, s.1.read i kind = plan.read i kind)
      (fun p hp s hs => ?_) (fun s p t hs ht => ?_) (fun i kind => read_preReadAt ..)
    · obtain ⟨k, hk, -⟩ := exists_of_mem_answers (List.fst_mem_of_mem_zipIdx hp)
      obtain ⟨read, hread, -⟩ := read_of_getElem? hpre hk
      exact applyResult_isSome_iff x _ ((hs _ _).trans hread)
    · intro i kind
      rw [(applyResult_eq ht).1, read_fill]
      exact hs i kind
  rw [hfold]
  constructor
  · intro h answer hanswer hkind hgood value hvalue
    obtain ⟨k, hk⟩ := List.mem_iff_getElem?.1 hanswer
    exact h (answer, k) (List.mk_mem_zipIdx_iff_getElem?.2 hk) hkind value
      ((if_pos hgood).trans hvalue)
  · intro h p hp hkind value hvalue
    have hgood : p.1.2.status.all StatusCode.isGood := by
      by_contra hbad
      rw [DataValue.goodValue, if_neg hbad] at hvalue
      cases hvalue
    rw [DataValue.goodValue, if_pos hgood] at hvalue
    exact h p.1 (List.fst_mem_of_mem_zipIdx hp) hkind hgood value hvalue

/-- What all results make of the plan. -/
theorem applyPreReadAt_plan {prepared plan' : AuditPlan} {names' : NameCache}
    (h : prepared.applyPreReadAt x names others pre results = some (plan', names')) :
    plan' = (pre.targets.zip results).foldl (fun plan answer => plan.fill x answer) prepared := by
  have hfold := foldl_of_foldlM
    (g := fun s p => (s.1.fill x p.1, s.1.file p.1 (others p.2 s.2)))
    (fun s p t ht => Prod.ext (applyResult_eq ht).1 (applyResult_eq ht).2) h
  have hplan : ∀ (l : List (ReadAnswer × ℕ)) (s : AuditPlan × NameCache),
      (l.foldl (fun s p => (s.1.fill x p.1, s.1.file p.1 (others p.2 s.2))) s).1 =
        (l.map Prod.fst).foldl (fun plan answer => plan.fill x answer) s.1 := by
    intro l
    induction l with
    | nil => exact fun s => rfl
    | cons p l ih => exact fun s => ih _
  have hfst := (congrArg Prod.fst hfold).trans (hplan _ _)
  rwa [List.zipIdx_map_fst] at hfst

/-- **The cache only gains names that were read**: what is allowed of the names in it, of those that
others file and of each name read for its node, is allowed of the names in it afterwards. -/
theorem holds_applyPreReadAt (hpre : (plan.preReadAt oldValues found).2 = some pre)
    {plan' : AuditPlan} {names' : NameCache}
    (h : (plan.preReadAt oldValues found).1.applyPreReadAt x names others pre results =
      some (plan', names'))
    {allowed : NodeId → String → Prop} (hnames : names.Holds allowed)
    (hothers : ∀ k c, NameCache.Holds allowed c → (others k c).Holds allowed)
    (hreads : ∀ i n text, pre.Reads results i .name (ReadValueId.name n) (.localizedText text) →
      allowed n (clip text maxName)) : names'.Holds allowed := by
  have hfold := foldl_of_foldlM
    (g := fun s p => (s.1.fill x p.1, s.1.file p.1 (others p.2 s.2)))
    (fun s p t ht => Prod.ext (applyResult_eq ht).1 (applyResult_eq ht).2) h
  obtain rfl := congrArg Prod.snd hfold
  refine (List.foldlRecOn (motive := fun s : AuditPlan × NameCache =>
    (∀ i, s.1.node i = plan.node i) ∧ s.2.Holds allowed) (pre.targets.zip results).zipIdx _
    ⟨node_preReadAt oldValues found plan, hnames⟩ fun s hs p hp => ?_).2
  obtain ⟨hnode, hholds⟩ := hs
  refine ⟨fun i => (node_fill x p.1 s.1 i).trans (hnode i), ?_⟩
  have hafter := hothers p.2 s.2 hholds
  show (s.1.file p.1 (others p.2 s.2)).Holds allowed
  unfold file
  split
  · next name n hkind hname hitem =>
    -- the name of the item's own node
    obtain ⟨value, hvalue, hname⟩ := Option.bind_eq_some_iff.1 hname
    obtain ⟨text, rfl, rfl⟩ : ∃ text, value = .localizedText text ∧ clip text maxName = name := by
      cases value with
      | localizedText text => exact ⟨text, rfl, Option.some.inj hname⟩
      | _ => cases hname
    refine hafter.insert (hreads p.1.1.1 n text ?_)
    obtain ⟨k, htarget, hresult⟩ := exists_of_mem_answers (List.fst_mem_of_mem_zipIdx hp)
    rw [← Prod.mk.eta (p := p.1.1), hkind] at htarget
    obtain ⟨own, hown, hget⟩ := read_of_getElem? hpre htarget
    rw [AuditPlan.read, ← hnode, hitem, Option.map_some, Option.some.injEq] at hown
    exact ⟨k, p.1.2, htarget, hown ▸ hget, hresult, hvalue⟩
  · exact hafter

/-- What is read for an item comes from an answer to one of its reads. -/
theorem answer_of_reads {i : ℕ} {kind : PreReadKind} {own : ReadValueId} {value : Variant}
    (h : pre.Reads results i kind own value) :
    ∃ answer ∈ pre.targets.zip results, answer.1 = (i, kind) ∧
      answer.2.goodValue = some value := by
  obtain ⟨k, result, htarget, -, hresult, hvalue⟩ := h
  exact ⟨((i, kind), result),
    List.mem_of_getElem? (List.getElem?_zip_eq_some.2 ⟨htarget, hresult⟩), rfl, hvalue⟩

/-- An answer to a read of an item is what is read for it. -/
theorem reads_of_answer (hpre : (plan.preReadAt oldValues found).2 = some pre) {i : ℕ}
    {kind : PreReadKind} {own : ReadValueId} (hown : plan.read i kind = some own)
    {answer : ReadAnswer} (hanswer : answer ∈ pre.targets.zip results)
    (hfor : answer.1 = (i, kind)) {value : Variant} (hvalue : answer.2.goodValue = some value) :
    pre.Reads results i kind own value := by
  obtain ⟨k, htarget, hresult⟩ := exists_of_mem_answers hanswer
  rw [hfor] at htarget
  obtain ⟨own', hown', hget⟩ := read_of_getElem? hpre htarget
  obtain rfl := Option.some.inj (hown.symm.trans hown')
  exact ⟨k, answer.2, htarget, hget, hresult, hvalue⟩

/-- Two answers of the same kind for an item are one. -/
theorem eq_of_mem_answers (hpre : (plan.preReadAt oldValues found).2 = some pre)
    {a b : ReadAnswer} (ha : a ∈ pre.targets.zip results) (hb : b ∈ pre.targets.zip results)
    (h : a.1 = b.1) : a = b := by
  obtain ⟨k, hk, hka⟩ := exists_of_mem_answers ha
  obtain ⟨l, hl, hlb⟩ := exists_of_mem_answers hb
  have hkl : k = l := by
    refine (List.getElem?_inj (List.getElem?_eq_some_iff.1 hk).1 (nodup_targets hpre)).1 ?_
    rw [hk, hl, h]
  subst hkl
  exact Prod.ext h (Option.some.inj (hka.symm.trans hlb))

/-- What becomes of a field of an item: what was read for it, or else what it was. -/
theorem field_of_answers (hpre : (plan.preReadAt oldValues found).2 = some pre) {i : ℕ}
    {kind : PreReadKind} {own : ReadValueId} (hown : plan.read i kind = some own)
    {α β : Type} {change : α → ReadAnswer → α} {f : α → Option β} {render : Variant → Option β}
    (hchange : ∀ a answer, f (change a answer) =
      (if answer.1 = (i, kind) then answer.2.goodValue.bind render else none).or (f a))
    (a : α) :
    (∀ value b, pre.Reads results i kind own value → render value = some b →
      f ((pre.targets.zip results).foldl change a) = some b) ∧
    ((∀ value, pre.Reads results i kind own value → render value = none) →
      f ((pre.targets.zip results).foldl change a) = f a) := by
  constructor
  · intro value b hreads hrender
    obtain ⟨answer, hanswer, hfor, hvalue⟩ := answer_of_reads hreads
    refine field_foldl_of_mem hchange hanswer ?_ (fun other hother c hc => ?_) a
    · rw [if_pos hfor, hvalue]
      exact hrender
    · split_ifs at hc with hsame
      obtain rfl := eq_of_mem_answers hpre hother hanswer (hsame.trans hfor.symm)
      rw [hvalue, Option.bind_some, hrender] at hc
      exact (Option.some.inj hc).symm
  · intro hnone
    refine field_foldl_of_forall hchange (fun answer hanswer => ?_) a
    split_ifs with hfor
    · cases hvalue : answer.2.goodValue with
      | none => rfl
      | some value => exact hnone value (reads_of_answer hpre hown hanswer hfor hvalue)
    · rfl

end Results

end AuditPlan

/-! ## Old values and names land on their own item -/

/-- The item of a write after the reads: what was read for its own node, attribute and range is its
old value, what was read or cached for its node is its name, and nothing else has changed. -/
structure WriteItem.Filled (x : Texts) (names : NameCache) (pre : PreRead)
    (results : List DataValue) (i : ℕ) (item item' : WriteItem) : Prop where
  rest : item' = { item with oldValue := item'.oldValue, displayName := item'.displayName }
  old_eq : ∀ value, pre.Reads results i .oldValue item.read value →
    item'.oldValue = AuditMap.auditValue x value
  old_empty : (∀ value, ¬ pre.Reads results i .oldValue item.read value) → item'.oldValue = none
  name_eq : ∀ text, pre.Reads results i .name (.name item.node) (.localizedText text) →
    item'.displayName = some (clip text maxName)
  name_cached : (∀ text, ¬ pre.Reads results i .name (.name item.node) (.localizedText text)) →
    item'.displayName = names.get item.node

/-- The item of a call after the reads. -/
structure CallItem.Filled (names : NameCache) (pre : PreRead) (results : List DataValue) (i : ℕ)
    (item item' : CallItem) : Prop where
  rest : item' = { item with displayName := item'.displayName }
  name_eq : ∀ text, pre.Reads results i .name (.name item.method) (.localizedText text) →
    item'.displayName = some (clip text maxName)
  name_cached : (∀ text, ¬ pre.Reads results i .name (.name item.method) (.localizedText text)) →
    item'.displayName = names.get item.method

/-- Where only the old value and the name differ, the rest of a written item is equal. -/
theorem WriteItem.eq_rest {item item' : WriteItem}
    (h : ∃ old name, item' = { item with oldValue := old, displayName := name }) :
    item' = { item with oldValue := item'.oldValue, displayName := item'.displayName } := by
  obtain ⟨old, name, rfl⟩ := h
  rfl

/-- Where only the name differs, the rest of a called method is equal. -/
theorem CallItem.eq_rest {item item' : CallItem}
    (h : ∃ name, item' = { item with displayName := name }) :
    item' = { item with displayName := item'.displayName } := by
  obtain ⟨name, rfl⟩ := h
  rfl

namespace AuditPlan

/-- Every item has what was read for it, where item `i` was looked up in `found i`. -/
def Filled (x : Texts) (found : ℕ → NameCache) (pre : PreRead) (results : List DataValue) :
    AuditPlan → AuditPlan → Prop
  | write handle items, plan' => ∃ items', plan' = write handle items' ∧
    items'.length = items.length ∧ ∀ (i : ℕ) (item item' : WriteItem), items[i]? = some item →
      items'[i]? = some item' → item.Filled x (found i) pre results i item'
  | call handle items, plan' => ∃ items', plan' = call handle items' ∧
    items'.length = items.length ∧ ∀ (i : ℕ) (item item' : CallItem), items[i]? = some item →
      items'[i]? = some item' → item.Filled (found i) pre results i item'
  | plan, plan' => plan' = plan

/-- Nothing has been read for the plan yet. -/
def Unread : AuditPlan → Prop
  | write _ items => ∀ item ∈ items, item.oldValue = none ∧ item.displayName = none
  | call _ items => ∀ item ∈ items, item.displayName = none
  | _ => True

/-- A fresh plan holds nothing that was read. -/
theorem unread_of_plan {x : Texts} {request : RequestMessage} {p : AuditPlan}
    (h : AuditMap.plan x request = some (some p)) : p.Unread := by
  cases request with
  | write header nodesToWrite =>
    obtain ⟨items, hitems, heq⟩ := Option.map_eq_some_iff.1 h
    cases heq
    intro item hitem
    obtain ⟨w, -, hw⟩ := exists_of_mem_mapM hitems hitem
    obtain ⟨value, -, rfl⟩ := Option.map_eq_some_iff.1 hw
    exact ⟨rfl, rfl⟩
  | call header methodsToCall =>
    obtain ⟨items, hitems, heq⟩ := Option.map_eq_some_iff.1 h
    cases heq
    intro item hitem
    obtain ⟨r, -, hr⟩ := exists_of_mem_mapM hitems hitem
    obtain ⟨values, -, rfl⟩ := Option.map_eq_some_iff.1 hr
    rfl
  | _ =>
    cases h
    try trivial

/-- Taking ignored writes out reads nothing. -/
theorem unread_takeIgnored {p : AuditPlan} (h : p.Unread) (ignored : NodeId → Bool) :
    (p.takeIgnored ignored).1.Unread := by
  cases p with
  | write handle items => exact fun item hitem => h item (List.mem_of_mem_filter hitem)
  | _ => exact h

section Results

variable {x : Texts} {plan : AuditPlan} {oldValues : Bool} {found : ℕ → NameCache}
  {pre : PreRead} {results : List DataValue} {names : NameCache}
  {others : ℕ → NameCache → NameCache}

/-- What an answer does to a field that only answers of one kind fill in. -/
theorem field_fill {α β : Type} {f : α → Option β} {fill : ReadAnswer → α → α}
    {kind : PreReadKind} {render : Variant → Option β}
    (hfill : ∀ (i : ℕ) (result : DataValue) (a : α),
      f (fill ((i, kind), result) a) = (result.goodValue.bind render).or (f a))
    (hkeep : ∀ (i : ℕ) (kind' : PreReadKind) (result : DataValue) (a : α), kind' ≠ kind →
      f (fill ((i, kind'), result) a) = f a) (i : ℕ) (a : α) (answer : ReadAnswer) :
    f (if answer.1.1 = i then fill answer a else a) =
      (if answer.1 = (i, kind) then answer.2.goodValue.bind render else none).or (f a) := by
  obtain ⟨⟨j, kind'⟩, result⟩ := answer
  by_cases hij : j = i
  · subst hij
    by_cases hkind : kind' = kind
    · subst hkind
      rw [if_pos rfl, if_pos rfl, hfill]
    · rw [if_pos rfl, if_neg (fun h => hkind (congrArg Prod.snd h)), hkeep j kind' result a hkind,
        Option.none_or]
  · rw [if_neg hij, if_neg (fun h => hij (congrArg Prod.fst h)), Option.none_or]

/-- The old value of an item after one more answer. -/
theorem oldValue_fill (i : ℕ) (a : WriteItem) (answer : ReadAnswer) :
    (if answer.1.1 = i then a.fill x answer else a).oldValue =
      (if answer.1 = (i, .oldValue) then answer.2.goodValue.bind (AuditMap.auditValue x)
        else none).or a.oldValue := by
  refine field_fill (fun _ _ _ => rfl) (fun _ kind' _ _ hne => ?_) i a answer
  cases kind' with
  | oldValue => exact absurd rfl hne
  | name => rfl

/-- The name of a written item after one more answer. -/
theorem displayName_fill (i : ℕ) (a : WriteItem) (answer : ReadAnswer) :
    (if answer.1.1 = i then a.fill x answer else a).displayName =
      (if answer.1 = (i, .name) then answer.2.goodValue.bind Variant.displayName
        else none).or a.displayName := by
  refine field_fill (fun _ _ _ => rfl) (fun _ kind' _ _ hne => ?_) i a answer
  cases kind' with
  | oldValue => rfl
  | name => exact absurd rfl hne

/-- The name of a called method after one more answer. -/
theorem displayName_fill_call (i : ℕ) (a : CallItem) (answer : ReadAnswer) :
    (if answer.1.1 = i then a.fill answer else a).displayName =
      (if answer.1 = (i, .name) then answer.2.goodValue.bind Variant.displayName
        else none).or a.displayName := by
  refine field_fill (fun _ _ _ => rfl) (fun _ kind' _ _ hne => ?_) i a answer
  cases kind' with
  | oldValue => rfl
  | name => exact absurd rfl hne

/-- Filling a plan of writes fills its items. -/
theorem foldl_fill_write (handle : ℕ) (items : List WriteItem) (answers : List ReadAnswer) :
    answers.foldl (fun plan answer => plan.fill x answer) (write handle items) =
      write handle (answers.foldl (fun items answer =>
        items.modify answer.1.1 (·.fill x answer)) items) := by
  induction answers generalizing items with
  | nil => rfl
  | cons answer answers ih => exact ih _

/-- Filling a plan of calls fills its methods. -/
theorem foldl_fill_call (handle : ℕ) (items : List CallItem) (answers : List ReadAnswer) :
    answers.foldl (fun plan answer => plan.fill x answer) (call handle items) =
      call handle (answers.foldl (fun items answer =>
        items.modify answer.1.1 (·.fill answer)) items) := by
  induction answers generalizing items with
  | nil => rfl
  | cons answer answers ih => exact ih _

/-- A value that was read as an old value can be rendered where the results could be applied. -/
theorem isSome_of_reads (hrender : pre.Renderable results) {i : ℕ} {own : ReadValueId}
    {value : Variant} (h : pre.Reads results i .oldValue own value) :
    ∃ old, AuditMap.auditValue x value = some old := by
  obtain ⟨answer, hanswer, hfor, hvalue⟩ := answer_of_reads h
  have hgood : answer.2.status.all StatusCode.isGood := by
    by_contra hbad
    rw [DataValue.goodValue, if_neg hbad] at hvalue
    cases hvalue
  rw [DataValue.goodValue, if_pos hgood] at hvalue
  exact Option.isSome_iff_exists.1 ((AuditMap.auditValue_isSome_iff x value).2
    (hrender answer hanswer (by rw [hfor]) hgood value hvalue))

/-- No name was read where no text was. -/
theorem displayName_of_forall {i : ℕ} {own : ReadValueId}
    (h : ∀ text, ¬ pre.Reads results i .name own (.localizedText text)) (value : Variant)
    (hvalue : pre.Reads results i .name own value) : value.displayName = none := by
  cases value with
  | localizedText text => exact (h text hvalue).elim
  | _ => rfl

/-- What every answer for an item keeps, all of them keep. -/
theorem foldl_fill_keeps {α : Type} {P : α → Prop} {fill : ReadAnswer → α → α}
    (hfill : ∀ answer a, P a → P (fill answer a)) (i : ℕ) {a : α} (ha : P a)
    (answers : List ReadAnswer) :
    P (answers.foldl (fun a answer => if answer.1.1 = i then fill answer a else a) a) := by
  induction answers generalizing a with
  | nil => exact ha
  | cons answer answers ih =>
    rw [List.foldl_cons]
    apply ih
    split_ifs
    · exact hfill answer a ha
    · exact ha

/-- Answers change only the old value and the name of an item. -/
theorem rest_foldl_fill (i : ℕ) (item : WriteItem) (answers : List ReadAnswer) :
    ∃ old name, answers.foldl (fun a answer => if answer.1.1 = i then a.fill x answer else a) item =
      { item with oldValue := old, displayName := name } := by
  refine foldl_fill_keeps (P := fun a => ∃ old name,
    a = { item with oldValue := old, displayName := name }) ?_ i
    ⟨item.oldValue, item.displayName, rfl⟩ answers
  rintro answer _ ⟨old, name, rfl⟩
  exact ⟨_, _, fill_rest x answer _⟩

/-- Filling a called method changes its name only. -/
theorem rest_foldl_fill_call (i : ℕ) (item : CallItem) (answers : List ReadAnswer) :
    ∃ name, answers.foldl (fun a answer => if answer.1.1 = i then a.fill answer else a) item =
      { item with displayName := name } := by
  refine foldl_fill_keeps (P := fun a => ∃ name, a = { item with displayName := name }) ?_ i
    ⟨item.displayName, rfl⟩ answers
  rintro answer _ ⟨name, rfl⟩
  exact ⟨_, fill_rest_call answer _⟩

/-- A plan of writes is filled as its answers say. -/
theorem filled_write (handle : ℕ) {items : List WriteItem} (hunread : (write handle items).Unread)
    (hpre : ((write handle items).preReadAt oldValues found).2 = some pre)
    (hrender : pre.Renderable results) :
    (write handle items).Filled x found pre results ((pre.targets.zip results).foldl
      (fun plan answer => plan.fill x answer)
      ((write handle items).preReadAt oldValues found).1) := by
  refine ⟨_, foldl_fill_write .., ?_, ?_⟩
  · rw [length_foldl_modify, List.length_map, List.length_zipIdx]
  · intro i item item' hitem hitem'
    obtain ⟨hold, hname⟩ := hunread item (List.mem_of_getElem? hitem)
    rw [getElem?_foldl_modify, List.getElem?_map, List.getElem?_zipIdx, hitem] at hitem'
    obtain rfl := Option.some.inj hitem'
    have hread : (write handle items).read i .oldValue = some item.read := by
      rw [read, hitem]
      rfl
    have hnameRead : (write handle items).read i .name = some (.name item.node) := by
      rw [read, node, hitem]
      rfl
    obtain ⟨holdEq, holdEmpty⟩ := field_of_answers (f := WriteItem.oldValue) hpre hread
      (oldValue_fill (x := x) i) (item.withName (found (0 + i)))
    obtain ⟨hnameEq, hnameEmpty⟩ := field_of_answers (f := WriteItem.displayName) hpre
      hnameRead (displayName_fill (x := x) i) (item.withName (found (0 + i)))
    exact
      { rest := by
          obtain ⟨old, name, heq⟩ := rest_foldl_fill (x := x) i (item.withName (found (0 + i)))
            (pre.targets.zip results)
          exact WriteItem.eq_rest ⟨old, name, heq⟩
        old_eq := by
          intro value hvalue
          obtain ⟨old, hrendered⟩ := isSome_of_reads (x := x) hrender hvalue
          rw [hrendered]
          exact holdEq value old hvalue hrendered
        old_empty := by
          intro hnone
          exact (holdEmpty fun value hvalue => (hnone value hvalue).elim).trans hold
        name_eq := by
          intro text htext
          exact hnameEq _ _ htext rfl
        name_cached := by
          intro hnone
          refine (hnameEmpty (displayName_of_forall hnone)).trans ?_
          rw [WriteItem.withName, hname, Option.or_none, Nat.zero_add] }

/-- A plan of calls is filled as its answers say. -/
theorem filled_call (handle : ℕ) {items : List CallItem} (hunread : (call handle items).Unread)
    (hpre : ((call handle items).preReadAt oldValues found).2 = some pre) :
    (call handle items).Filled x found pre results ((pre.targets.zip results).foldl
      (fun plan answer => plan.fill x answer)
      ((call handle items).preReadAt oldValues found).1) := by
  refine ⟨_, foldl_fill_call .., ?_, ?_⟩
  · rw [length_foldl_modify, List.length_map, List.length_zipIdx]
  · intro i item item' hitem hitem'
    have hname := hunread item (List.mem_of_getElem? hitem)
    rw [getElem?_foldl_modify, List.getElem?_map, List.getElem?_zipIdx, hitem] at hitem'
    obtain rfl := Option.some.inj hitem'
    have hnameRead : (call handle items).read i .name = some (.name item.method) := by
      rw [read, node, hitem]
      rfl
    obtain ⟨hnameEq, hnameEmpty⟩ := field_of_answers (f := CallItem.displayName) hpre
      hnameRead (displayName_fill_call i) (item.withName (found (0 + i)))
    exact
      { rest := by
          obtain ⟨name, heq⟩ := rest_foldl_fill_call i (item.withName (found (0 + i)))
            (pre.targets.zip results)
          exact CallItem.eq_rest ⟨name, heq⟩
        name_eq := by
          intro text htext
          exact hnameEq _ _ htext rfl
        name_cached := by
          intro hnone
          refine (hnameEmpty (displayName_of_forall hnone)).trans ?_
          rw [CallItem.withName, hname, Option.or_none, Nat.zero_add] }

/-- The items of a plan as the reads leave them. -/
theorem filled_applyPreReadAt (hunread : plan.Unread)
    (hpre : (plan.preReadAt oldValues found).2 = some pre) {plan' : AuditPlan}
    {names' : NameCache}
    (h : (plan.preReadAt oldValues found).1.applyPreReadAt x names others pre results =
      some (plan', names')) : plan.Filled x found pre results plan' := by
  have hrender := (applyPreReadAt_isSome_iff hpre).1 (Option.isSome_of_eq_some h)
  obtain rfl := applyPreReadAt_plan h
  cases plan with
  | write handle items => exact filled_write handle hunread hpre hrender
  | call handle items => exact filled_call handle hunread hpre
  | _ => cases hpre

end Results

/-- Without reads, every item has the name that was cached. -/
theorem filled_preReadAt (x : Texts) {plan : AuditPlan} (hunread : plan.Unread) (oldValues : Bool)
    (found : ℕ → NameCache) :
    plan.Filled x found ⟨[], []⟩ [] (plan.preReadAt oldValues found).1 := by
  have hreads : ∀ {i kind own value}, ¬ PreRead.Reads ⟨[], []⟩ [] i kind own value := by
    rintro i kind own value ⟨k, result, htarget, -⟩
    cases htarget
  cases plan with
  | write handle items =>
    refine ⟨_, rfl, by rw [List.length_map, List.length_zipIdx], ?_⟩
    intro i item item' hitem hitem'
    obtain ⟨hold, hname⟩ := hunread item (List.mem_of_getElem? hitem)
    rw [List.getElem?_map, List.getElem?_zipIdx, hitem] at hitem'
    obtain rfl := Option.some.inj hitem'
    refine ⟨rfl, fun value h => (hreads h).elim, fun _ => hold, fun text h => (hreads h).elim,
      fun _ => ?_⟩
    show ((found (0 + i)).get item.node).or item.displayName = _
    rw [hname, Option.or_none, Nat.zero_add]
  | call handle items =>
    refine ⟨_, rfl, by rw [List.length_map, List.length_zipIdx], ?_⟩
    intro i item item' hitem hitem'
    have hname := hunread item (List.mem_of_getElem? hitem)
    rw [List.getElem?_map, List.getElem?_zipIdx, hitem] at hitem'
    obtain rfl := Option.some.inj hitem'
    refine ⟨rfl, fun text h => (hreads h).elim, fun _ => ?_⟩
    show ((found (0 + i)).get item.method).or item.displayName = _
    rw [hname, Option.or_none, Nat.zero_add]
  | _ => exact rfl

/-- **Old values and names land on their own item.** For a planned request, whatever is taken out
of the plan, whatever is in the cache when an item is looked up and when a result is applied, and
whatever results arrive: every item has the value read for its own node, attribute and range, and
the name cached or read for its own node; the results can be applied if what is rendered of them
can be; and the cache only gains names read for their node.

**Proof sketch.** The list of targets has no duplicates and each read is that of the item at its
position, so the fold over the answers changes a field of an item at most once, by the result at the
position of its read. -/
theorem lands_on_own_item (x : Texts) {request : RequestMessage} {p : AuditPlan}
    (hplan : AuditMap.plan x request = some (some p)) (ignored : NodeId → Bool)
    (oldValues : Bool) (found : ℕ → NameCache) {kept prepared : AuditPlan}
    {reads : Option PreRead} (hkept : (p.takeIgnored ignored).1 = kept)
    (hprepared : kept.preReadAt oldValues found = (prepared, reads)) :
    kept.Filled x found ⟨[], []⟩ [] prepared ∧
    ∀ pre ∈ reads, ∀ (names : NameCache) (others : ℕ → NameCache → NameCache)
      (results : List DataValue),
      prepared.Targets pre ∧
      ((prepared.applyPreReadAt x names others pre results).isSome ↔ pre.Renderable results) ∧
      ∀ plan' names',
        prepared.applyPreReadAt x names others pre results = some (plan', names') →
        kept.Filled x found pre results plan' ∧
        ∀ allowed : NodeId → String → Prop, names.Holds allowed →
          (∀ k c, NameCache.Holds allowed c → (others k c).Holds allowed) →
          (∀ i n text, pre.Reads results i .name (.name n) (.localizedText text) →
            allowed n (clip text maxName)) →
          names'.Holds allowed := by
  have hunread : kept.Unread := hkept ▸ unread_takeIgnored (unread_of_plan hplan) ignored
  obtain rfl : (kept.preReadAt oldValues found).1 = prepared := congrArg Prod.fst hprepared
  refine ⟨filled_preReadAt x hunread oldValues found, ?_⟩
  intro pre hreads names others results
  have hpre : (kept.preReadAt oldValues found).2 = some pre :=
    (congrArg Prod.snd hprepared).trans hreads
  refine ⟨fun t ht => ?_, applyPreReadAt_isSome_iff hpre, fun plan' names' happly => ?_⟩
  · obtain ⟨k, hk⟩ := List.mem_iff_getElem?.1 ht
    obtain ⟨own, hown, -⟩ := read_of_getElem? hpre hk
    exact lt_size_of_read ((read_preReadAt ..).trans hown)
  · exact ⟨filled_applyPreReadAt hunread hpre happly,
      fun allowed hnames hothers => holds_applyPreReadAt hpre happly hnames hothers⟩

/-- Two nodes are written, of which the first is summarised. -/
def levelWrites : RequestMessage :=
  .write (Connection.plainHeader 1)
    (some [⟨⟨3, .numeric 2⟩, AuditMap.valueAttribute, none, { value := some (.string "5") }⟩,
      ⟨⟨3, .numeric 3⟩, AuditMap.valueAttribute, none, { value := some (.string "6") }⟩])

/-- The value and the name of the second. -/
def levelResults : List DataValue :=
  [{ value := some (.string "7") }, { value := some (.localizedText "Level") }]

/-- Two writes, one of them ignored, with the old value landing on the item that is kept. -/
theorem lands_on_own_item_levelWrites : ∃ p kept prepared pre plan' names',
    AuditMap.plan Connection.plainTexts levelWrites = some (some p) ∧
    (p.takeIgnored fun n => n = ⟨3, .numeric 2⟩).1 = kept ∧
    kept.preReadAt true (fun _ => []) = (prepared, some pre) ∧
    prepared.applyPreReadAt Connection.plainTexts [] (fun _ => id) pre levelResults =
      some (plan', names') ∧
    kept.Filled Connection.plainTexts (fun _ => []) pre levelResults plan' := by
  refine ⟨_, _, _, _, _, _, rfl, rfl, rfl, rfl, ?_⟩
  have hplan : AuditMap.plan Connection.plainTexts levelWrites = some (some _) := rfl
  exact (((lands_on_own_item Connection.plainTexts hplan
    (fun n => n = ⟨3, .numeric 2⟩) true (fun _ => []) rfl rfl).2 _ rfl [] (fun _ => id)
    levelResults).2.2 _ _ rfl).1

end AuditPlan

/-! ## What cannot be rendered -/

namespace AuditMap

/-- **What can be rendered**: exactly the values without a structure whose text would be cut inside
a character, the requests with only such values, and the results with only such old values. -/
theorem renders_iff (x : Texts) :
    (∀ v, (auditValue x v).isSome ↔ v.Renderable) ∧
    (∀ request, (plan x request).isSome ↔ ∀ v ∈ request.renderedValues, v.Renderable) ∧
    ∀ (p : AuditPlan) (oldValues : Bool) (found : ℕ → NameCache),
      ∀ pre ∈ (p.preReadAt oldValues found).2, ∀ (names : NameCache)
        (others : ℕ → NameCache → NameCache) (results : List DataValue),
        ((p.preReadAt oldValues found).1.applyPreReadAt x names others pre results).isSome ↔
          pre.Renderable results :=
  ⟨auditValue_isSome_iff x, plan_isSome_iff x,
    fun _ _ _ _ hpre _ _ _ => AuditPlan.applyPreReadAt_isSome_iff hpre⟩

/-- A structure with a long name, as the decoder returns it, can neither be rendered nor planned,
nor be an old value. -/
theorem not_renders_wideArgument :
    (Variant.extensionObject wideArgument).Decoded 0 ∧
    auditValue Connection.plainTexts (.extensionObject wideArgument) = none ∧
    plan Connection.plainTexts (Connection.structureWrite wideArgument) = none ∧
    ∃ p pre, plan Connection.plainTexts Connection.plainWrite = some (some p) ∧
      (p.preReadAt true fun _ => []).2 = some pre ∧
      (p.preReadAt true fun _ => []).1.applyPreReadAt Connection.plainTexts [] (fun _ => id) pre
        [{ value := some (.extensionObject wideArgument) }] = none := by
  have hwide : ¬ (Variant.extensionObject wideArgument).Renderable := by
    rw [Variant.Renderable]
    exact not_renderable_wideArgument
  refine ⟨.scalar 0 trivial trivial, ?_, ?_, _, _, rfl, rfl, ?_⟩
  · rw [← Option.not_isSome_iff_eq_none, auditValue_isSome_iff]
    exact hwide
  · exact Connection.plan_structureWrite _ not_renderable_wideArgument
  · rw [← Option.not_isSome_iff_eq_none, AuditPlan.applyPreReadAt_isSome_iff rfl]
    intro h
    exact hwide (h _ (List.mem_cons_self ..) rfl rfl _ rfl)

end AuditMap

end AuditGateway
