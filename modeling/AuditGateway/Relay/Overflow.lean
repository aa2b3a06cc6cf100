import AuditGateway.Relay.ItemRecords

set_option relaxedAutoImplicit false
set_option autoImplicit false

/-!
# Summarised writes that do not fit

The table of summarised writes has room for so many nodes, and a write to one more is recorded at
once. What is left of it by then is what a summary would have kept: the node, the value and the
status. A write that has more to it gets another record than it would have had without the summary.

## Main definitions

* `AuditEvent.withoutReads` — a record without what is read beside the write.
* `WriteValue.Plain` — a write of a value and nothing else.
* `Recorded.summarisedItems`, `Recorded.recordedItems` — the items with what is recorded of them.
* `RecordedAsUsual` — the record of a write that does not fit is the usual one.

## Main results

* `recordedAsUsual_iff` — which writes that do not fit are recorded as usual.
* `not_recordedAsUsual_indexRange` — a write of one element of an array is not.
-/

namespace AuditGateway

/-! ## The record of one write, in two ways -/

/-- The record of a write without what is read beside it: the old value and the display name. -/
def AuditEvent.withoutReads : AuditEvent → AuditEvent
  | .write requestHandle nodeId _ attributeName indexRange _ newValue writtenStatus sourceTimestamp
      serverTimestamp status =>
    .write requestHandle nodeId none attributeName indexRange none newValue writtenStatus
      sourceTimestamp serverTimestamp status
  | event => event

/-- A value is written, and nothing else: no part of an array, no status and no time. -/
structure WriteValue.Plain (w : WriteValue) : Prop where
  indexRange : w.indexRange = none
  status : w.value.status = none
  sourceTimestamp : w.value.sourceTimestamp = none
  serverTimestamp : w.value.serverTimestamp = none

namespace Recorded

variable (r : Recorded) (items : List ChangeItem) (ignored : NodeId → Bool)

/-- The summarised items, each with its place in the request and what is left of it. -/
def summarisedItems : List ((ChangeItem × ℕ) × IgnoredWrite) :=
  (items.zipIdx.filter fun a => a.1.isSummarised ignored).zip r.summarised

/-- The items that are recorded one by one, each with its place in the request and its record. -/
def recordedItems : List ((ChangeItem × ℕ) × AuditEvent) :=
  (items.zipIdx.filter fun a => !a.1.isSummarised ignored).zip r.events

end Recorded

/-- What is recorded when the summarised write `s` does not fit is the record that is made of the
same item in `usual`, where it is not summarised. `ignored` says which writes are summarised there,
and `i` is the place of the item in the request. -/
def RecordedAsUsual (ctx : Ctx) (task : Task) (client : ClientContext) (now : DateTime)
    (conn : Connection) (s : IgnoredWrite) (usual : Recorded) (items : List ChangeItem)
    (ignored : NodeId → Bool) (w : WriteValue) (i : ℕ) : Prop :=
  ∃ event event', conn.countIgnored ctx task client now s =
      conn.record task.id (ctx.entry now client event) ∧
    ((.write w, i), event') ∈ usual.recordedItems items ignored ∧
    event.withoutReads = event'.withoutReads

/-! ## Statuses -/

/-- The status of an item of an answered request is that of the response. -/
theorem Outcome.HasStatus.eq_of_answered {x : Texts} {o : Outcome} {request : RequestMessage}
    {uncertain uncertain' : StatusCode → String} {i : ℕ} {status status' : String}
    (h : o.HasStatus x request uncertain i status) (h' : o.HasStatus x request uncertain' i status')
    (hanswered : o.unknown = none) : status = status' := by
  by_cases hbad : o.serviceResult.isBad
  · rw [h.failed ⟨hanswered, hbad⟩, h'.failed ⟨hanswered, hbad⟩]
  · cases hresults : o.results request with
    | none =>
      have hmissing : ∀ results ∈ o.results request, results.length ≤ i := by
        intro results hmem
        rw [hresults] at hmem
        cases hmem
      rw [h.missing hanswered hbad hmissing, h'.missing hanswered hbad hmissing]
    | some results =>
      have hmem : results ∈ o.results request := hresults
      cases hi : results[i]? with
      | some s =>
        rw [h.result hanswered hbad results hmem s hi, h'.result hanswered hbad results hmem s hi]
      | none =>
        have hmissing : ∀ results ∈ o.results request, results.length ≤ i := by
          intro results' hmem'
          rw [hresults] at hmem'
          obtain rfl := Option.some.inj hmem'
          exact List.getElem?_eq_none_iff.1 hi
        rw [h.missing hanswered hbad hmissing, h'.missing hanswered hbad hmissing]

/-- A summarised write without an answer has another status than a record without one. -/
theorem uncertainWrite_ne (x : Texts) (s : StatusCode) :
    uncertainWrite x s ≠ uncertainEvent x s := by
  have hend : ")".toList ≠ "); the server may have applied it".toList := by simp
  unfold uncertainWrite uncertainEvent
  intro h
  apply hend
  -- the texts are compared as they stand, not computed
  generalize "); the server may have applied it" = long at h ⊢
  generalize ")" = short at h ⊢
  generalize "Uncertain: no response (" = start at h
  have hlist := congrArg String.toList h
  simp only [String.toList_append] at hlist
  exact List.append_cancel_left hlist

/-! ## The sample of a failed request -/

section Sample

variable {α : Type} {p : α → Bool}

/-- The elements before a place that pass a test. -/
theorem length_filter_zipIdx (l : List α) (n : ℕ) :
    ((l.zipIdx n).filter fun a => p a.1).length = l.countP p := by
  induction l generalizing n with
  | nil => rfl
  | cons a l ih =>
    rw [List.zipIdx_cons, List.filter_cons, List.countP_cons]
    cases p a with
    | true => simp [ih]
    | false => simp [ih]

/-- An element that passes is among the first ones that pass if few before it do. -/
theorem mem_take_filter_zipIdx {l : List α} {a : α} {i n : ℕ} (ha : l[i]? = some a) (hp : p a) :
    (a, i) ∈ ((l.zipIdx).filter fun a => p a.1).take n ↔ (l.take i).countP p < n := by
  obtain ⟨hi, hget⟩ := List.getElem?_eq_some_iff.1 ha
  have hsplit : l = l.take i ++ a :: l.drop (i + 1) := by
    rw [← hget, List.cons_getElem_drop_succ, List.take_append_drop]
  have hlength : (l.take i).length = i := List.length_take_of_le hi.le
  have hbefore : (a, i) ∉ ((l.take i).zipIdx).filter fun a => p a.1 := by
    intro hmem
    have hlt := (List.mem_zipIdx' (List.mem_of_mem_filter hmem)).1
    omega
  have hfilter : (l.zipIdx).filter (fun a => p a.1) =
      ((l.take i).zipIdx).filter (fun a => p a.1) ++
        (a, i) :: ((l.drop (i + 1)).zipIdx (i + 1)).filter fun a => p a.1 := by
    conv_lhs => rw [hsplit]
    rw [List.zipIdx_append, List.filter_append, hlength, Nat.zero_add, List.zipIdx_cons,
      List.filter_cons, if_pos hp]
  rw [hfilter, ← length_filter_zipIdx (l.take i) 0]
  generalize ((l.take i).zipIdx).filter (fun a => p a.1) = before at hbefore ⊢
  by_cases hlt : before.length < n
  · refine iff_of_true ?_ hlt
    rw [List.take_append, List.mem_append]
    right
    obtain ⟨m, hm⟩ : ∃ m, n - before.length = m + 1 := ⟨n - before.length - 1, by omega⟩
    rw [hm, List.take_succ_cons]
    exact List.mem_cons_self ..
  · refine iff_of_false (fun hmem => ?_) hlt
    rw [List.take_append_of_le_length (by omega)] at hmem
    exact hbefore (List.mem_of_mem_take hmem)

end Sample

/-! ## What the two records have in common -/

section Usual

variable {x : Texts} {header : RequestHeader} {nodesToWrite : Option (List WriteValue)}
  {ignored ignored' : NodeId → Bool} {o : Outcome} {r : Recorded} {items : List ChangeItem}
  {w : WriteValue} {i : ℕ}

/-- What is left of a summarised item. -/
theorem Complete.summarisedItem (h : Complete x (.write header nodesToWrite) items ignored o r)
    {s : IgnoredWrite} (hs : ((.write w, i), s) ∈ r.summarisedItems items ignored) :
    ∃ status, o.HasStatus x (.write header nodesToWrite) (uncertainWrite x) i status ∧
      Summarises x (.write w) status s :=
  (List.forall₂_iff_zip.1 h.summarised).2 hs

/-- Only the sample of a failed request has records. -/
theorem Complete.recordedItems_eq
    (h : Complete x (.write header nodesToWrite) items ignored o r) :
    r.recordedItems items ignored =
      (if o.Failed then
        (items.zipIdx.filter fun a => !a.1.isSummarised ignored).take AuditPlan.maxFailedItems
      else items.zipIdx.filter fun a => !a.1.isSummarised ignored).zip r.events := by
  have hevents := h.events.length_eq
  dsimp only at hevents
  unfold Recorded.recordedItems
  split_ifs at hevents ⊢ with hfailed
  · have hle : r.events.length ≤ AuditPlan.maxFailedItems := by
      rw [← hevents]
      exact List.length_take_le ..
    conv_rhs => rw [← List.take_of_length_le hle]
    rw [List.zip_eq_zipWith, List.zip_eq_zipWith, ← List.take_zipWith, List.take_of_length_le]
    rw [List.length_zipWith]
    omega
  · rfl

/-- The record of an item that is not summarised. -/
theorem Complete.recordedItem (h : Complete x (.write header nodesToWrite) items ignored o r)
    {event : AuditEvent} (he : ((.write w, i), event) ∈ r.recordedItems items ignored) :
    ∃ status, o.HasStatus x (.write header nodesToWrite) (uncertainEvent x) i status ∧
      Records x header.requestHandle (.write w) status event := by
  rw [h.recordedItems_eq] at he
  exact (List.forall₂_iff_zip.1 h.events).2 he

/-- An item that is not summarised has a record, unless it is left out of the sample. -/
theorem Complete.exists_recordedItem_iff
    (h : Complete x (.write header nodesToWrite) items ignored o r)
    (hi : items[i]? = some (.write w)) (hnot : (ChangeItem.write w).isSummarised ignored = false) :
    (∃ event, ((.write w, i), event) ∈ r.recordedItems items ignored) ↔
      (o.Failed → (items.take i).countP (fun a => !a.isSummarised ignored) <
        AuditPlan.maxFailedItems) := by
  have hpass : (!(ChangeItem.write w).isSummarised ignored) = true := by rw [hnot]; rfl
  have hsample : (.write w, i) ∈ (if o.Failed then
        (items.zipIdx.filter fun a => !a.1.isSummarised ignored).take AuditPlan.maxFailedItems
      else items.zipIdx.filter fun a => !a.1.isSummarised ignored) ↔
      (o.Failed → (items.take i).countP (fun a => !a.isSummarised ignored) <
        AuditPlan.maxFailedItems) := by
    split_ifs with hfailed
    · rw [mem_take_filter_zipIdx (p := fun a => !a.isSummarised ignored) hi hpass]
      exact ⟨fun hlt _ => hlt, fun hlt => hlt hfailed⟩
    · refine iff_of_true (List.mem_filter.2 ⟨?_, hpass⟩) fun h => absurd h hfailed
      exact List.mk_mem_zipIdx_iff_getElem?.2 hi
  rw [← hsample, h.recordedItems_eq]
  constructor
  · rintro ⟨event, hevent⟩
    exact (List.of_mem_zip hevent).1
  · intro hmem
    obtain ⟨k, hk, hget⟩ := List.mem_iff_getElem.1 hmem
    have hk' : k < r.events.length := by
      rw [← h.events.length_eq]
      exact hk
    refine ⟨r.events[k], List.mem_iff_getElem.2 ⟨k, ?_, ?_⟩⟩
    · rw [List.length_zip]
      omega
    · rw [List.getElem_zip, hget]

/-- A write that does not fit into the table is recorded at once. -/
theorem countIgnored_of_full {ctx : Ctx} {task : Task} {client : ClientContext} {now : DateTime}
    {conn : Connection} {s : IgnoredWrite} {event : AuditEvent}
    (hrequest : task.request = .write header nodesToWrite)
    (hfull : conn.shared.ignored.add now s.nodeId s.displayName s.value s.status client = none) :
    conn.countIgnored ctx task client now s = conn.record task.id (ctx.entry now client event) ↔
      event = Connection.overflowEvent header.requestHandle s := by
  have hcount : conn.countIgnored ctx task client now s = conn.record task.id
      (ctx.entry now client (Connection.overflowEvent header.requestHandle s)) := by
    unfold Connection.countIgnored
    rw [hfull, hrequest]
    rfl
  rw [hcount]
  constructor
  · intro h
    have hrecorded := congrArg Connection.recorded h
    simp only [Connection.record, List.append_cancel_left_eq, List.cons.injEq, Prod.mk.injEq,
      and_true, true_and] at hrecorded
    exact (congrArg AuditEntry.event hrecorded).symm
  · rintro rfl
    rfl

/-- A write that is recorded as usual was answered, and has a value and nothing else. -/
theorem RecordedAsUsual.plain {task : Task} (hrequest : task.request = .write header nodesToWrite)
    {usual : Recorded}
    (hcomplete : Complete x (.write header nodesToWrite) items ignored' o usual)
    {s : IgnoredWrite} {status : String}
    (hstatus : o.HasStatus x (.write header nodesToWrite) (uncertainWrite x) i status)
    (hleft : Summarises x (.write w) status s) {ctx : Ctx} {client : ClientContext}
    {now : DateTime} {conn : Connection}
    (hfull : conn.shared.ignored.add now s.nodeId s.displayName s.value s.status client = none)
    (h : RecordedAsUsual ctx task client now conn s usual items ignored' w i) :
    o.unknown = none ∧ w.Plain ∧
      ∃ event, ((.write w, i), event) ∈ usual.recordedItems items ignored' := by
  obtain ⟨event, event', hevent, hmem, heq⟩ := h
  obtain ⟨status', hstatus', hrecord⟩ := hcomplete.recordedItem hmem
  rw [countIgnored_of_full hrequest hfull] at hevent
  rw [hevent] at heq
  cases hleft with
  | write hvalue displayName =>
    cases hrecord with
    | write hvalue' displayName' oldValue' =>
      simp only [Connection.overflowEvent, AuditEvent.withoutReads, AuditEvent.write.injEq] at heq
      obtain ⟨-, -, -, -, hrange, -, -, hwritten, hsource, hserver, hsame⟩ := heq
      have hanswered : o.unknown = none := by
        cases hunknown : o.unknown with
        | none => rfl
        | some u =>
          rw [hstatus.unanswered u hunknown, hstatus'.unanswered u hunknown] at hsame
          exact absurd hsame (uncertainWrite_ne x u)
      exact ⟨hanswered, ⟨hrange.symm, Option.map_eq_none_iff.1 hwritten.symm, hsource.symm,
        hserver.symm⟩, _, hmem⟩

/-- An answered write with a value and nothing else has the usual record. -/
theorem WriteValue.Plain.recordedAsUsual (hplain : w.Plain) (hanswered : o.unknown = none)
    (hname : AuditMap.attributeName x w.attributeId = "Value") {task : Task}
    (hrequest : task.request = .write header nodesToWrite) {usual : Recorded}
    (hcomplete : Complete x (.write header nodesToWrite) items ignored' o usual)
    {event : AuditEvent} (hmem : ((.write w, i), event) ∈ usual.recordedItems items ignored')
    {s : IgnoredWrite} {status : String}
    (hstatus : o.HasStatus x (.write header nodesToWrite) (uncertainWrite x) i status)
    (hleft : Summarises x (.write w) status s) {ctx : Ctx} {client : ClientContext}
    {now : DateTime} {conn : Connection}
    (hfull : conn.shared.ignored.add now s.nodeId s.displayName s.value s.status client = none) :
    RecordedAsUsual ctx task client now conn s usual items ignored' w i := by
  obtain ⟨status', hstatus', hrecord⟩ := hcomplete.recordedItem hmem
  refine ⟨_, event, (countIgnored_of_full hrequest hfull).2 rfl, hmem, ?_⟩
  cases hleft with
  | @write _ newValue hvalue displayName =>
    cases hrecord with
    | @write _ newValue' hvalue' displayName' oldValue' =>
      obtain rfl : newValue = newValue' := Option.some.inj (hvalue.symm.trans hvalue')
      simp only [Connection.overflowEvent, AuditEvent.withoutReads]
      rw [hname, hplain.indexRange, hplain.status, hplain.sourceTimestamp,
        hplain.serverTimestamp, hstatus.eq_of_answered hstatus' hanswered]
      rfl

/-- **Which writes that do not fit are recorded as usual**: those of an answered request that write
a value and nothing else, unless the request failed as a whole and the sample leaves them out. -/
theorem recordedAsUsual_iff (hname : x.attributeId AuditMap.valueAttribute = some "Value")
    {task : Task} (hrequest : task.request = .write header nodesToWrite)
    {oldValues oldValues' : Bool} {names₁ names₂ names₁' names₂' : NameCache}
    {read read' : Option (List DataValue)} {usual : Recorded}
    (h : AuditMap.outcome x ignored oldValues names₁ names₂ read o task.request = some r)
    (h' : AuditMap.outcome x ignored' oldValues' names₁' names₂' read' o task.request = some usual)
    {s : IgnoredWrite}
    (hs : ((.write w, i), s) ∈ r.summarisedItems ((nodesToWrite.getD []).map .write) ignored)
    (hnot : ignored' w.nodeId = false) {ctx : Ctx} {client : ClientContext} {now : DateTime}
    {conn : Connection}
    (hfull : conn.shared.ignored.add now s.nodeId s.displayName s.value s.status client = none) :
    RecordedAsUsual ctx task client now conn s usual ((nodesToWrite.getD []).map .write) ignored'
        w i ↔
      o.unknown = none ∧ w.Plain ∧ (o.Failed →
        (((nodesToWrite.getD []).take i).countP fun w =>
          !(ChangeItem.write w).isSummarised ignored') < AuditPlan.maxFailedItems) := by
  rw [hrequest] at h h'
  have hcomplete' := complete_of_outcome rfl h'
  obtain ⟨hitem, hsummarised⟩ := List.mem_filter.1 (List.of_mem_zip hs).1
  have hi := List.mk_mem_zipIdx_iff_getElem?.1 hitem
  have hattribute : w.attributeId = AuditMap.valueAttribute := (of_decide_eq_true hsummarised).1
  have hname' : AuditMap.attributeName x w.attributeId = "Value" := by
    rw [hattribute, AuditMap.attributeName, hname]
    rfl
  have hnot' : (ChangeItem.write w).isSummarised ignored' = false := by
    simp [ChangeItem.isSummarised, hnot]
  have hsample := hcomplete'.exists_recordedItem_iff hi hnot'
  rw [← List.map_take, List.countP_map] at hsample
  obtain ⟨status, hstatus, hleft⟩ := (complete_of_outcome rfl h).summarisedItem hs
  constructor
  · intro husual
    obtain ⟨hanswered, hplain, hrecorded⟩ := husual.plain hrequest hcomplete' hstatus hleft hfull
    exact ⟨hanswered, hplain, hsample.1 hrecorded⟩
  · rintro ⟨hanswered, hplain, hfirst⟩
    obtain ⟨event, hmem⟩ := hsample.2 hfirst
    exact hplain.recordedAsUsual hanswered hname' hrequest hcomplete' hmem hstatus hleft hfull

end Usual

/-! ## Writes to one node too many -/

/-- A connection of a target with as many summarised nodes as there is room for. -/
def fullConnection : Connection where
  shared := ⟨fun _ => none, [], List.replicate maxNodes
    ("ns=3;i=1", ⟨none, 1, 0, ⟨0⟩, ⟨0⟩, ⟨"Null", .null⟩, "Good", []⟩)⟩

/-- A node that is not counted finds no room. -/
theorem add_fullConnection (now : DateTime) {nodeId : String} (h : nodeId ≠ "ns=3;i=1")
    (displayName : Option String) (value : AuditValue) (status : String)
    (client : ClientContext) :
    fullConnection.shared.ignored.add now nodeId displayName value status client = none := by
  have hlookup : fullConnection.shared.ignored.lookup nodeId = none := by
    rw [fullConnection, List.lookup_replicate]
    simp [maxNodes, h]
  have hlength : fullConnection.shared.ignored.length = maxNodes := List.length_replicate
  unfold IgnoredWrites.add
  rw [hlookup, hlength]
  simp

/-- A write to the one node that is summarised, and the part of the value that is written. -/
def levelWrite (indexRange : Option String) : WriteValue :=
  ⟨⟨3, .numeric 2⟩, AuditMap.valueAttribute, indexRange, {}⟩

/-- A task that writes the level of a tank. -/
def levelTask (indexRange : Option String) : Task :=
  ⟨0, .write (Connection.plainHeader 1) (some [levelWrite indexRange]), true⟩

/-- The answer is good. -/
def levelOutcome : Outcome := ⟨.write ⟨1, .good⟩ (some [.good]), none⟩

/-- What is recorded of it if the writes that `ignored` says are summarised. -/
def levelRecorded (ignored : NodeId → Bool) (indexRange : Option String) : Option Recorded :=
  AuditMap.outcome Connection.plainTexts ignored false [] [] none levelOutcome
    (levelTask indexRange).request

/-- The level of the tank is recorded. -/
theorem exists_levelRecorded (ignored : NodeId → Bool) (indexRange : Option String) :
    ∃ r, levelRecorded ignored indexRange = some r := by
  have hrenderable : (levelTask indexRange).request.Renderable := by
    intro v hv
    have hempty : v = .empty := by
      simpa [levelTask, levelWrite, RequestMessage.renderedValues] using hv
    rw [hempty]
    trivial
  obtain ⟨r, hr, -⟩ := (outcome_complete_iff Connection.plainTexts rfl ignored false [] [] none
    levelOutcome).2 ⟨hrenderable, fun _ _ _ h => by cases h⟩
  exact ⟨r, hr⟩

/-- Its record is complete. -/
theorem complete_of_levelRecorded {ignored : NodeId → Bool} {indexRange : Option String}
    {r : Recorded} (h : levelRecorded ignored indexRange = some r) :
    Complete Connection.plainTexts (levelTask indexRange).request [.write (levelWrite indexRange)]
      ignored levelOutcome r :=
  complete_of_outcome rfl h

/-- What is left of it when it is summarised. -/
theorem exists_levelLeft {indexRange : Option String} {r : Recorded}
    (h : levelRecorded (fun _ => true) indexRange = some r) :
    ∃ s, ((.write (levelWrite indexRange), 0), s) ∈
        r.summarisedItems [.write (levelWrite indexRange)] (fun _ => true) ∧
      s.nodeId ≠ "ns=3;i=1" := by
  have hnode : ∀ node : NodeId, node = ⟨3, .numeric 2⟩ →
      clip (Connection.plainTexts.nodeId node) maxText ≠ "ns=3;i=1" := by
    rintro _ rfl
    decide +kernel
  have hitems : ([ChangeItem.write (levelWrite indexRange)].zipIdx.filter fun a =>
      a.1.isSummarised fun _ => true) = [(.write (levelWrite indexRange), 0)] := rfl
  obtain ⟨s, rest, ⟨status, -, hleft⟩, -, hr⟩ :=
    List.forall₂_cons_left_iff.1 (complete_of_levelRecorded h).summarised
  refine ⟨s, ?_, ?_⟩
  · rw [Recorded.summarisedItems, hitems, hr]
    exact List.mem_cons_self ..
  · cases hleft with
    | write hvalue displayName => exact hnode _ rfl

/-- A write without a range that is counted is recorded as usual. -/
theorem recordedAsUsual_iff_level : ∃ r usual s,
    levelRecorded (fun _ => true) none = some r ∧
    levelRecorded (fun _ => false) none = some usual ∧
    ((.write (levelWrite none), 0), s) ∈
      r.summarisedItems [.write (levelWrite none)] (fun _ => true) ∧
    RecordedAsUsual Connection.plainCtx (levelTask none) { remoteAddr := "10.0.0.5:50000" } ⟨0⟩
      fullConnection s usual [.write (levelWrite none)] (fun _ => false) (levelWrite none) 0 := by
  obtain ⟨r, hr⟩ := exists_levelRecorded (fun _ => true) none
  obtain ⟨usual, husual⟩ := exists_levelRecorded (fun _ => false) none
  obtain ⟨s, hs, hnode⟩ := exists_levelLeft hr
  refine ⟨r, usual, s, hr, husual, hs, ?_⟩
  refine (recordedAsUsual_iff rfl rfl hr husual hs (by rfl)
    (add_fullConnection _ hnode ..)).2 ?_
  exact ⟨rfl, ⟨rfl, rfl, rfl, rfl⟩, fun _ => by decide⟩

/-- One element of an array is written: the record says that the whole value was. -/
theorem not_recordedAsUsual_indexRange : ∃ r usual s,
    levelRecorded (fun _ => true) (some "1") = some r ∧
    levelRecorded (fun _ => false) (some "1") = some usual ∧
    ((.write (levelWrite (some "1")), 0), s) ∈
      r.summarisedItems [.write (levelWrite (some "1"))] (fun _ => true) ∧
    ∀ client now, fullConnection.shared.ignored.add now s.nodeId s.displayName s.value s.status
        client = none ∧
      ¬ RecordedAsUsual Connection.plainCtx (levelTask (some "1")) client now fullConnection s usual
        [.write (levelWrite (some "1"))] (fun _ => false) (levelWrite (some "1")) 0 := by
  obtain ⟨r, hr⟩ := exists_levelRecorded (fun _ => true) (some "1")
  obtain ⟨usual, husual⟩ := exists_levelRecorded (fun _ => false) (some "1")
  obtain ⟨s, hs, hnode⟩ := exists_levelLeft hr
  refine ⟨r, usual, s, hr, husual, hs, fun client now => ?_⟩
  have hfull := add_fullConnection now hnode s.displayName s.value s.status client
  refine ⟨hfull, fun h => ?_⟩
  obtain ⟨status, hstatus, hleft⟩ := (complete_of_levelRecorded hr).summarisedItem hs
  obtain ⟨-, hplain, -⟩ :=
    h.plain rfl (complete_of_levelRecorded husual) hstatus hleft hfull
  cases hplain.indexRange

end AuditGateway
