import AuditGateway.Relay.Ignore
import AuditGateway.Audit.Evolution
import AuditGateway.Audit.Accounting
import Mathlib.Algebra.BigOperators.Group.List.Basic
import Mathlib.Data.Multiset.Range

set_option relaxedAutoImplicit false
set_option autoImplicit false

/-!
# Summarised writes on their way to the trail

The connections of a target count summarised writes in one table. The accept loop takes the table
at every interval and once more when the target is stopped, and a connection that ends behind the
stop takes it itself; whoever has taken it hands the summaries to the audit, one after the other.
A target is dropped when its accept loop and all its connections have ended.

The last fields of the state record what happened, for the statements only: every write that was
counted has a number.

## Main definitions

* `Summaries`, `Summaries.Op`, `Summaries.step` — the table, who records it, and the audit.
* `Summaries.Safe` — the steps that lose no summary.
* `Summaries.Conserved` — every counted write is in exactly one place.

## Main results

* `Summaries.conserved_of_safe` — nothing vanishes in a run of safe steps.
* `Summaries.summary_vanishes` — a summary that fails to be committed in fail-closed mode.
-/

namespace AuditGateway

/-- What a summary is about: its node, and how many writes it counts. -/
def AuditEvent.summary? : AuditEvent → Option (String × ℕ)
  | ignoredWrites nodeId _ count .. => some (nodeId, count)
  | _ => none

/-- The event of a summary holds its user and its count. -/
theorem summary?_summaryEvent (p : String × Summary) :
    (summaryEvent p).summary? = some (p.1, p.2.count) := rfl

/-! ## The state -/

/-- Summaries on their way to the audit, each with the writes it counts. -/
abbrev Taken := List (AuditEvent × List ℕ)

/-- Somebody who records summaries. -/
structure Recorder where
  /-- A connection at its end, or the accept loop. -/
  connection : Option ℕ
  /-- The summaries that are left, if the table was taken already. -/
  taken : Option Taken := none
  /-- The call for the last summary that was handed to the audit. -/
  call : Option ℕ := none

/-- The writes in the summaries that are left. -/
def Recorder.writes (r : Recorder) : List ℕ := (r.taken.getD []).flatMap Prod.snd

/-- The accept loop. -/
inductive AcceptLoop
  | accepting
  /-- Records the summaries of an interval. -/
  | summarising
  /-- Records the last summaries of a stopped target. -/
  | stopping
  | stopped
  deriving DecidableEq

/-- What the accept loop does when it has recorded the summaries. -/
def AcceptLoop.next : AcceptLoop → AcceptLoop
  | summarising => accepting
  | stopping => stopped
  | loop => loop

/-- A loop that runs goes on accepting. -/
theorem AcceptLoop.next_runs {loop : AcceptLoop} (h : loop = .accepting ∨ loop = .summarising) :
    loop.next = .accepting := by
  rcases h with rfl | rfl
  · rfl
  · rfl

/-- A loop that stops was stopping before. -/
theorem AcceptLoop.of_next_stops {loop : AcceptLoop}
    (h : loop.next = .stopping ∨ loop.next = .stopped) : loop = .stopping ∨ loop = .stopped := by
  cases loop with
  | accepting => simp [next] at h
  | summarising => simp [next] at h
  | stopping => exact .inl rfl
  | stopped => exact .inr rfl

/-- The summaries of ignored writes beside the pipeline that records them. -/
structure Summaries where
  pipeline : Pipeline
  table : IgnoredWrites := []
  groups : Lookup := ⟨[], []⟩
  /-- The target is told to stop. -/
  shutdown : Bool := false
  loop : AcceptLoop := .accepting
  /-- The number of connections accepted so far. -/
  accepted : ℕ := 0
  /-- The connections that may still count writes. -/
  connections : List ℕ := []
  recorders : List Recorder := []
  /-- The number of writes counted so far. -/
  added : ℕ := 0
  /-- The writes in the table, with their nodes. -/
  counted : List (String × ℕ) := []
  /-- The calls that handed summaries to the audit, with the writes that these count. -/
  calls : List (ℕ × List ℕ) := []

namespace Summaries

/-- The summaries of a relay that has just started. -/
def start (pipeline : Pipeline) : Summaries where
  pipeline := pipeline

/-- What can happen. -/
inductive Op
  /-- The audit and its other callers. -/
  | audit (op : Pipeline.Op)
  /-- The summarise groups of the target are changed. -/
  | setGroups (groups : Lookup)
  /-- The target is stopped. -/
  | stop
  /-- A client connects. -/
  | accept
  /-- A connection counts a write, if there is room for its node. -/
  | add (connection : ℕ) (now : DateTime) (nodeId : String) (displayName : Option String)
      (value : AuditValue) (status : String) (client : ClientContext)
  /-- The summary interval is over. -/
  | interval
  /-- The accept loop ends. -/
  | endLoop
  /-- The audited requests of a connection are seen through. -/
  | connectionEnds (connection : ℕ)
  /-- A task of a connection panics while they are. -/
  | connectionPanics (connection : ℕ)
  /-- Somebody takes the table. -/
  | take (connection : Option ℕ)
  /-- The next summary is handed to the audit; `waits` says that there is no room at once. -/
  | hand (connection : Option ℕ) (now : DateTime) (waits : Bool)
  /-- All summaries are recorded. -/
  | finish (connection : Option ℕ)
  /-- The target is dropped: nobody uses it any more. -/
  | drop

/-! ## One step -/

/-- The writes in the table that a summary counts. -/
def writesTo (counted : List (String × ℕ)) (event : AuditEvent) : List ℕ :=
  match event.summary? with
  | some (nodeId, _) => (counted.filter fun w => w.1 = nodeId).map Prod.snd
  | none => []

/-- A call of the audit has returned. -/
def returned (pipeline : Pipeline) : Option ℕ → Bool
  | none => true
  | some k =>
    k ∉ pipeline.holding.map Command.id ∧ k ∉ pipeline.waiting ∧
      k ∉ pipeline.answers.map Prod.fst

/-- Whether a step of the pipeline is plain can be decided. -/
instance (op : Pipeline.Op) : Decidable op.Plain := by
  cases op <;> unfold Pipeline.Op.Plain <;> infer_instance

/-- A caller that records summaries is not dropped while it waits. -/
def permits (s : Summaries) : Pipeline.Op → Bool
  | .cancel id => id ∉ s.calls.map Prod.fst
  | _ => true

/-- One step. -/
def step (c : Crates) (name : String) (s : Summaries) : Op → Option Summaries
  | .audit op =>
    if op.Plain ∧ s.permits op then
      (s.pipeline.step c op).map fun pipeline => { s with pipeline := pipeline }
    else none
  | .setGroups groups => some { s with groups := groups }
  | .stop => some { s with shutdown := true }
  | .accept =>
    if s.loop = .accepting then
      some { s with connections := s.connections ++ [s.accepted], accepted := s.accepted + 1 }
    else none
  | .add connection now nodeId displayName value status client =>
    if connection ∈ s.connections then
      match s.table.add now nodeId displayName value status client with
      | some table =>
        some { s with
          table := table
          counted := s.counted ++ [(nodeId, s.added)]
          added := s.added + 1 }
      | none => some s
    else none
  | .interval =>
    if s.loop = .accepting then
      some { s with loop := .summarising, recorders := s.recorders ++ [{ connection := none }] }
    else none
  | .endLoop =>
    if s.loop = .accepting ∧ s.shutdown then
      some { s with loop := .stopping, recorders := s.recorders ++ [{ connection := none }] }
    else none
  | .connectionEnds connection =>
    if connection ∈ s.connections then
      some { s with
        connections := s.connections.erase connection
        -- writes that finished after the target stopped are summarised here
        recorders :=
          if s.shutdown then s.recorders ++ [{ connection := some connection }]
          else s.recorders }
    else none
  | .connectionPanics connection =>
    if connection ∈ s.connections then
      some { s with connections := s.connections.erase connection }
    else none
  | .take connection =>
    match s.recorders.find? fun r => r.connection = connection with
    | some ⟨_, none, call⟩ =>
      some { s with
        table := []
        counted := []
        recorders := (s.recorders.eraseP fun r => r.connection = connection) ++
          [⟨connection, some (s.table.take.map fun e => (e, writesTo s.counted e)), call⟩] }
    | _ => none
  | .hand connection now waits =>
    match s.recorders.find? fun r => r.connection = connection with
    | some ⟨_, some ((event, writes) :: rest), call⟩ =>
      if returned s.pipeline call then
        (s.pipeline.step c (.record ((AuditEntry.new now event).withTarget name) waits)).map
          fun pipeline =>
            { s with
              pipeline := pipeline
              recorders := (s.recorders.eraseP fun r => r.connection = connection) ++
                [⟨connection, some rest, some s.pipeline.calls⟩]
              calls := s.calls ++ [(s.pipeline.calls, writes)] }
      else none
    | _ => none
  | .finish connection =>
    match s.recorders.find? fun r => r.connection = connection with
    | some ⟨_, some [], call⟩ =>
      if returned s.pipeline call then
        some { s with
          loop := if connection = none then s.loop.next else s.loop
          recorders := s.recorders.eraseP fun r => r.connection = connection }
      else none
    | _ => none
  | .drop =>
    if s.loop = .stopped ∧ s.connections = [] ∧ s.recorders = [] then
      some { s with table := [], counted := [] }
    else none

/-! ## Where the writes are -/

/-- The writes behind some calls. -/
def behind (s : Summaries) (l : Multiset ℕ) : Multiset ℕ :=
  (s.calls.map fun p => l.count p.1 • (p.2 : Multiset ℕ)).sum

/-- The writes in the table. -/
def inTable (s : Summaries) : Multiset ℕ := s.counted.map Prod.snd

/-- The writes in summaries that were taken and not handed to the audit yet. -/
def inHand (s : Summaries) : Multiset ℕ := s.recorders.flatMap Recorder.writes

/-- The writes in summaries on their way to the trail: taken, held by a caller, queued, in the
batch, or waiting as an error to be counted. -/
def queued (s : Summaries) : Multiset ℕ :=
  s.inHand + s.behind (held s.pipeline.holding +
    held (s.pipeline.writer.current ++ s.pipeline.queue) +
      (Pipeline.unreadIds s.pipeline.answers))

/-- The writes in stored summaries. -/
def stored (s : Summaries) : Multiset ℕ := s.behind (s.pipeline.log.map Prod.fst)

/-- The writes in summaries that were counted as lost, or by a record of lost records. -/
def lost (s : Summaries) : Multiset ℕ :=
  s.behind ((s.pipeline.lostIds : Multiset ℕ) + s.pipeline.flightIds + s.pipeline.reportedIds)

/-- Every counted write is in exactly one place, and each place counts what it holds. `n` is what
records of lost records counted before the run. -/
structure Conserved (c : Crates) (n : ℕ) (s : Summaries) : Prop where
  once : s.inTable + s.queued + s.stored + s.lost = Multiset.range s.added
  /-- The table counts the writes of each node. -/
  table : ∀ p ∈ s.table, p.2.count = (s.counted.filter fun w => w.1 = p.1).length
  /-- A stored summary counts its writes. -/
  rows : ∀ p ∈ s.calls, ∀ row, (p.1, row) ∈ s.pipeline.log → ∃ entry nodeId,
    row = record c row.seq row.prevHash entry ∧ entry.event.summary? = some (nodeId, p.2.length)
  /-- The counter of lost records, and the records of lost records, count the summaries that are
  lost. -/
  counter : s.pipeline.lost = s.pipeline.lostIds.length ∧
    eventsLost s.pipeline.trail.entries = n + s.pipeline.reportedIds.length

/-- Somebody will take the table. -/
def Tended (s : Summaries) : Prop :=
  s.loop = .accepting ∨ s.loop = .summarising ∨ s.connections ≠ [] ∨
    ∃ r ∈ s.recorders, r.taken = none

/-- The steps that lose no summary: nobody is told in fail-closed mode that a summary was not
committed, and a connection of a stopped target panics only if nothing is counted or somebody
else is left to take the table. -/
def Safe (s : Summaries) : Op → Prop
  | .audit (.finish id) =>
    id ∈ s.calls.map Prod.fst → (∃ e, (id, .error e) ∈ s.pipeline.answers) →
      s.pipeline.mode = .failOpen
  | .connectionPanics connection =>
    s.table = [] ∨ Tended { s with connections := s.connections.erase connection }
  | _ => True

/-! ## The table -/

/-- The table counts the writes that are in it. -/
structure TableOk (table : IgnoredWrites) (counted : List (String × ℕ)) : Prop where
  nodup : (table.map Prod.fst).Nodup
  count : ∀ p ∈ table, p.2.count = (counted.filter fun w => w.1 = p.1).length
  covered : ∀ w ∈ counted, w.1 ∈ table.map Prod.fst

/-- The empty table is in order. -/
theorem tableOk_nil : TableOk [] [] :=
  ⟨List.nodup_nil, fun _ h => (nomatch h), fun _ h => nomatch h⟩

/-- What is found in a table is in it. -/
theorem mem_of_lookup {table : IgnoredWrites} {nodeId : String} {summary : Summary}
    (h : table.lookup nodeId = some summary) : (nodeId, summary) ∈ table := by
  obtain ⟨l, m, rfl, -⟩ := List.lookup_eq_some_iff.1 h
  exact List.mem_append_right _ (List.mem_cons_self ..)

/-- One more write is counted. -/
theorem TableOk.add {table table' : IgnoredWrites} {counted : List (String × ℕ)}
    (h : TableOk table counted) {now : DateTime} {nodeId status : String}
    {displayName : Option String} {value : AuditValue} {client : ClientContext}
    (hadd : table.add now nodeId displayName value status client = some table') (n : ℕ) :
    TableOk table' (counted ++ [(nodeId, n)]) := by
  obtain ⟨summary, rfl, hsummary⟩ := IgnoredWrites.add_eq_some hadd
  have hcount : ((table.lookup nodeId).map (·.count)).getD 0 =
      (counted.filter fun w => w.1 = nodeId).length := by
    cases hlookup : table.lookup nodeId with
    | some summary => exact h.count _ (mem_of_lookup hlookup)
    | none =>
      symm
      rw [Option.map_none, Option.getD_none, List.length_eq_zero_iff, List.filter_eq_nil_iff]
      intro w hw hnode
      obtain ⟨p, hp, hpw⟩ := List.mem_map.1 (h.covered w hw)
      have hne := List.lookup_eq_none_iff.1 hlookup p hp
      rw [hpw, of_decide_eq_true hnode] at hne
      simp at hne
  refine ⟨?_, fun p hp => ?_, fun w hw => ?_⟩
  · rw [List.map_cons, List.nodup_cons]
    refine ⟨fun hmem => ?_, (h.nodup.sublist (List.filter_sublist.map _))⟩
    obtain ⟨p, hp, hpnode⟩ := List.mem_map.1 hmem
    exact of_decide_eq_true (List.mem_filter.1 hp).2 hpnode
  · rw [List.filter_append, List.length_append]
    rcases List.mem_cons.1 hp with rfl | hp
    · simp [hsummary, hcount]
    · obtain ⟨hmem, hne⟩ := List.mem_filter.1 hp
      have hne' : nodeId ≠ p.1 := fun heq => of_decide_eq_true hne heq.symm
      rw [h.count p hmem]
      simp [hne']
  · rw [List.map_cons, List.mem_cons]
    by_cases hnode : w.1 = nodeId
    · exact .inl hnode
    · right
      rcases List.mem_append.1 hw with hw | hw
      · obtain ⟨p, hp, hpw⟩ := List.mem_map.1 (h.covered w hw)
        refine List.mem_map.2 ⟨p, List.mem_filter.2 ⟨hp, ?_⟩, hpw⟩
        rw [hpw]
        exact decide_eq_true hnode
      · rw [List.mem_singleton.1 hw] at hnode
        exact absurd rfl hnode

/-- Elements sorted by a key, where the keys that occur are given. -/
theorem perm_flatMap_filter {α β : Type*} [DecidableEq β] (f : α → β) {keys : List β}
    (hnodup : keys.Nodup) {l : List α} (h : ∀ a ∈ l, f a ∈ keys) :
    (keys.flatMap fun k => l.filter fun a => f a = k).Perm l := by
  induction keys generalizing l with
  | nil =>
    cases l with
    | nil => exact List.Perm.refl _
    | cons a l => cases h a (List.mem_cons_self ..)
  | cons k keys ih =>
    obtain ⟨hk, hnodup⟩ := List.nodup_cons.1 hnodup
    have hrest : ∀ a ∈ l.filter (fun a => !decide (f a = k)), f a ∈ keys := by
      intro a ha
      obtain ⟨ha, hne⟩ := List.mem_filter.1 ha
      refine (List.mem_cons.1 (h a ha)).resolve_left ?_
      simpa using hne
    have hsame : ∀ k' ∈ keys, ((l.filter fun a => !decide (f a = k)).filter fun a => f a = k') =
        l.filter fun a => f a = k' := by
      intro k' hk'
      rw [List.filter_filter]
      refine List.filter_congr fun a _ => ?_
      by_cases ha : f a = k'
      · have hne : f a ≠ k := fun heq => hk (heq ▸ ha ▸ hk')
        simp [ha, ha ▸ hne]
      · simp [ha]
    have ih := ih hnodup hrest
    rw [List.flatMap_congr hsame] at ih
    rw [List.flatMap_cons]
    exact (ih.append_left _).trans (List.filter_append_perm (fun a => decide (f a = k)) l)

/-- The writes of the summaries that are taken are those in the table. -/
theorem TableOk.perm_take {table : IgnoredWrites} {counted : List (String × ℕ)}
    (h : TableOk table counted) :
    ((table.take.map fun e => (e, writesTo counted e)).flatMap Prod.snd).Perm
      (counted.map Prod.snd) := by
  have hsorted := List.perm_insertionSort (fun p q : String × Summary => p.1 ≤ q.1) table
  rw [IgnoredWrites.take, List.map_map, List.flatMap_map]
  refine (hsorted.flatMap_right _).trans ?_
  have hkeys := (perm_flatMap_filter Prod.fst h.nodup h.covered).map Prod.snd
  rw [List.flatMap_map, List.map_flatMap] at hkeys
  exact hkeys

/-- Every summary that is taken counts its writes. -/
theorem TableOk.count_take {table : IgnoredWrites} {counted : List (String × ℕ)}
    (h : TableOk table counted) :
    ∀ p ∈ table.take.map fun e => (e, writesTo counted e),
      ∃ nodeId, p.1.summary? = some (nodeId, p.2.length) := by
  intro p hp
  obtain ⟨e, he, rfl⟩ := List.mem_map.1 hp
  obtain ⟨q, hq, rfl⟩ := List.mem_map.1 he
  have hmem := (List.perm_insertionSort _ table).subset hq
  refine ⟨q.1, ?_⟩
  rw [summary?_summaryEvent, h.count q hmem, writesTo, summary?_summaryEvent, List.length_map]

/-! ## The invariant -/

/-- The event is a summary of this many writes. -/
def Counts (event : AuditEvent) (count : ℕ) : Prop :=
  ∃ nodeId, event.summary? = some (nodeId, count)

/-- Every counted write is in the table, in a summary that was taken, or in one whose caller was
neither told in fail-closed mode nor dropped; and as long as something is in the table, somebody is
left to take it. -/
structure Inv (c : Crates) (n : ℕ) (s : Summaries) : Prop where
  ordered : Pipeline.Ordered c s.pipeline
  tallied : Pipeline.Tallied n s.pipeline
  balanced : Pipeline.Balanced s.pipeline
  gone : s.pipeline.dropped ⊆ s.pipeline.cancelled
  cancelled_lt : ∀ k ∈ s.pipeline.cancelled, k < s.pipeline.calls
  calls_ok : ∀ p ∈ s.calls, p.1 ∈ s.pipeline.handed ∧ p.1 ∉ s.pipeline.refused ∧
    p.1 ∉ s.pipeline.cancelled
  once : s.inTable + s.inHand + (s.calls.flatMap Prod.snd) = Multiset.range s.added
  table_ok : TableOk s.table s.counted
  hands : ∀ r ∈ s.recorders, ∀ l ∈ r.taken, ∀ p ∈ l, Counts p.1 p.2.length
  entries : ∀ item ∈ items (s.pipeline.holding ++ s.pipeline.queued), ∀ p ∈ s.calls,
    item.id = p.1 → Counts item.entry.event p.2.length
  tended : s.table = [] ∨ s.Tended
  told : s.loop = .stopping ∨ s.loop = .stopped → s.shutdown

variable {c : Crates} {name : String} {n : ℕ} {s t : Summaries}

/-- A list of lists, as a sum. -/
theorem coe_flatMap {α β : Type*} (l : List α) (f : α → List β) :
    ((l.flatMap f : List β) : Multiset β) = (l.map fun a => (f a : Multiset β)).sum := by
  induction l with
  | nil => rfl
  | cons a l ih => rw [List.flatMap_cons, ← Multiset.coe_add, ih, List.map_cons, List.sum_cons]

/-- What is behind two sets of calls. -/
theorem behind_add (s : Summaries) (l m : Multiset ℕ) :
    s.behind (l + m) = s.behind l + s.behind m := by
  unfold behind
  rw [← List.sum_map_add]
  simp only [Multiset.count_add, add_nsmul]

namespace Inv

/-- The entry of a summary is accounted for exactly once. -/
theorem count_accounted (h : Inv c n s) {p : ℕ × List ℕ} (hp : p ∈ s.calls) :
    s.pipeline.accounted.count p.1 = 1 := by
  obtain ⟨hhanded, hrefused, hcancelled⟩ := h.calls_ok p hp
  have hdropped : p.1 ∉ s.pipeline.dropped := fun hmem => hcancelled (h.gone hmem)
  have hcount := congrArg (Multiset.count p.1) h.balanced
  rw [Multiset.count_add, Multiset.count_add, Multiset.coe_count, Multiset.coe_count,
    Multiset.coe_count, List.count_eq_one_of_mem h.tallied.handed_nodup hhanded,
    List.count_eq_zero_of_not_mem hrefused, List.count_eq_zero_of_not_mem hdropped] at hcount
  omega

/-- Refused entries were handed in. -/
theorem refused_subset (h : Inv c n s) : s.pipeline.refused ⊆ s.pipeline.handed := by
  intro k hk
  have hmem : k ∈ s.pipeline.accounted + s.pipeline.refused + s.pipeline.dropped :=
    Multiset.mem_add.2 (.inl (Multiset.mem_add.2 (.inr hk)))
  rwa [← h.balanced] at hmem

/-- The writes behind all accounted calls. -/
theorem behind_accounted (h : Inv c n s) :
    s.behind s.pipeline.accounted = (s.calls.flatMap Prod.snd) := by
  rw [coe_flatMap, behind]
  congr 1
  refine List.map_congr_left fun p hp => ?_
  rw [h.count_accounted hp, one_nsmul]

/-- The invariant is what the statement says. -/
theorem conserved (h : Inv c n s) : Conserved c n s where
  once := by
    have hbehind := h.behind_accounted
    rw [Pipeline.accounted] at hbehind
    rw [← h.once, ← hbehind, queued, stored, lost]
    simp only [behind_add]
    abel
  table := h.table_ok.count
  rows p hp row hrow := by
    obtain ⟨item, hitem, hid, hrecord⟩ := h.ordered.log_ok.record_eq (p.1, row) hrow
    have hmem : item ∈ items (s.pipeline.holding ++ s.pipeline.queued) := by
      rw [h.ordered.queued_eq, mem_items]
      exact List.mem_append_right _ (List.mem_append_left _ (mem_items.1 hitem))
    obtain ⟨nodeId, hcounts⟩ := h.entries item hmem p hp hid
    exact ⟨item.entry, nodeId, hrecord, hcounts⟩
  counter := ⟨h.tallied.lost_eq, h.tallied.reported_eq⟩

end Inv

/-! ## Every safe step keeps the invariant -/

/-- Who is dropped has made a call. -/
theorem cancelled_lt_step {p q : Pipeline} (h : Pipeline.Ordered c p)
    (hlt : ∀ k ∈ p.cancelled, k < p.calls) {op : Pipeline.Op} (hs : p.step c op = some q) :
    ∀ k ∈ q.cancelled, k < q.calls := by
  have hle := (Pipeline.evolves_step h hs).1.calls_le
  intro k hk
  cases op with
  | cancel id =>
    rw [(Pipeline.cancelled_cancel hs).1, List.mem_append, List.mem_singleton] at hk
    rcases hk with hk | rfl
    · exact Nat.lt_of_lt_of_le (hlt k hk) hle
    · exact Nat.lt_of_lt_of_le (Pipeline.lt_calls_of_cancel h hs) hle
  | _ =>
    rw [Pipeline.cancelled_eq hs fun _ heq => nomatch heq] at hk
    exact Nat.lt_of_lt_of_le (hlt k hk) hle

/-- The audit and its other callers lose no summary. -/
theorem inv_audit (h : Inv c n s) {op : Pipeline.Op} (hsafe : s.Safe (.audit op))
    (hs : step c name s (.audit op) = some t) : Inv c n t := by
  simp only [step] at hs
  split_ifs at hs with hguard
  obtain ⟨hplain, hpermits⟩ := hguard
  obtain ⟨pipeline, hstep, rfl⟩ := Option.map_eq_some_iff.1 hs
  obtain ⟨hevolves, -⟩ := Pipeline.evolves_step h.ordered hstep
  refine { h with
    ordered := Pipeline.ordered_step h.ordered hstep
    tallied := Pipeline.tallied_step h.ordered h.tallied hplain hstep
    balanced := Pipeline.balanced_step h.ordered h.tallied h.balanced hstep
    gone := Pipeline.dropped_subset_step h.ordered h.gone hstep
    cancelled_lt := cancelled_lt_step h.ordered h.cancelled_lt hstep
    calls_ok := fun p hp => ⟨?_, ?_, ?_⟩
    entries := fun item hitem p hp hid => ?_ }
  · exact (Pipeline.handed_prefix hstep).subset (h.calls_ok p hp).1
  · have hrefused := (h.calls_ok p hp).2.1
    cases op with
    | setMode mode =>
      cases hstep
      exact hrefused
    | finish id =>
      rcases Pipeline.refused_finish hstep with heq | ⟨heq, hclosed, herror⟩
      · show p.1 ∉ pipeline.refused
        rwa [heq]
      · show p.1 ∉ pipeline.refused
        rw [heq, List.mem_append, List.mem_singleton]
        rintro (hmem | hid)
        · exact hrefused hmem
        · have hopen := hsafe (hid ▸ List.mem_map_of_mem hp) herror
          rw [hclosed] at hopen
          cases hopen
    | _ =>
      show p.1 ∉ pipeline.refused
      rw [(Pipeline.refused_eq hstep (fun _ heq => nomatch heq) (fun _ heq => nomatch heq)).2]
      exact hrefused
  · have hcancelled := (h.calls_ok p hp).2.2
    cases op with
    | cancel id =>
      show p.1 ∉ pipeline.cancelled
      rw [(Pipeline.cancelled_cancel hstep).1, List.mem_append, List.mem_singleton]
      rintro (hmem | hid)
      · exact hcancelled hmem
      · refine of_decide_eq_true hpermits ?_
        rw [← hid]
        exact List.mem_map_of_mem hp
    | _ =>
      show p.1 ∉ pipeline.cancelled
      rw [Pipeline.cancelled_eq hstep fun _ heq => nomatch heq]
      exact hcancelled
  · rcases hevolves.items_old item hitem with hold | hnew
    · exact h.entries item hold p hp hid
    · have hlt := h.tallied.handed_lt p.1 (h.calls_ok p hp).1
      omega

/-- The writes in hand do not depend on the order of the recorders. -/
theorem inHand_of_perm {r : Recorder} {rest : List Recorder}
    (hp : s.recorders.Perm (r :: rest)) :
    s.inHand = (r.writes : Multiset ℕ) + (rest.flatMap Recorder.writes : List ℕ) := by
  rw [Multiset.coe_add, ← List.flatMap_cons]
  exact Multiset.coe_eq_coe.2 (hp.flatMap_right _)

/-- Somebody else is still to take the table. -/
theorem Tended.of_recorders {r : Recorder} {rest : List Recorder}
    (hp : s.recorders.Perm (r :: rest)) (htaken : r.taken ≠ none) (hsub : rest ⊆ t.recorders)
    (hloop : s.loop = .accepting ∨ s.loop = .summarising →
      t.loop = .accepting ∨ t.loop = .summarising)
    (hconnections : t.connections = s.connections) (h : s.Tended) : t.Tended := by
  rcases h with h | h | h | ⟨r', hr', hnone⟩
  · exact (hloop (.inl h)).imp_right .inl
  · exact (hloop (.inr h)).imp_right .inl
  · rw [← hconnections] at h
    exact .inr (.inr (.inl h))
  · refine .inr (.inr (.inr ⟨r', hsub ?_, hnone⟩))
    refine (List.mem_cons.1 (hp.subset hr')).resolve_left ?_
    rintro rfl
    exact htaken hnone

/-- A recorder is found in the list of recorders. -/
theorem perm_of_find {r : Recorder} {connection : Option ℕ}
    (hfind : s.recorders.find? (fun r => r.connection = connection) = some r) :
    s.recorders.Perm (r :: s.recorders.eraseP fun r => r.connection = connection) :=
  Machine.perm_of_find? hfind

/-- Somebody takes the table. -/
theorem inv_take (h : Inv c n s) {connection : Option ℕ}
    (hs : step c name s (.take connection) = some t) : Inv c n t := by
  simp only [step] at hs
  split at hs
  · next who call hfind =>
    cases hs
    have hperm := perm_of_find hfind
    refine { h with
      once := ?_, table_ok := tableOk_nil, hands := fun r hr l hl => ?_, tended := .inl rfl }
    · rw [← h.once, inHand_of_perm hperm, inHand_of_perm (List.perm_append_singleton ..),
        inTable, inTable, ← Multiset.coe_eq_coe.2 h.table_ok.perm_take]
      show 0 + (_ + _) + _ = _ + (0 + _) + _
      rw [zero_add, zero_add]
      rfl
    · rcases List.mem_append.1 hr with hr | hr
      · exact h.hands r (hperm.symm.subset (List.mem_cons_of_mem _ hr)) l hl
      · rw [List.mem_singleton.1 hr] at hl
        obtain rfl := Option.some.inj hl
        exact h.table_ok.count_take
  · cases hs

/-- What is handed to the audit. -/
theorem record_cases {p q : Pipeline} {entry : AuditEntry} {waits : Bool}
    (hs : p.step c (.record entry waits) = some q) :
    q.handed = p.handed ++ [p.calls] ∧
      ∀ item ∈ items (q.holding ++ q.queued),
        item ∈ items (p.holding ++ p.queued) ∨ item.id = p.calls ∧ item.entry = entry := by
  have hcases : ∃ acked, q.handed = p.handed ++ [p.calls] ∧
      (q.holding ++ q.queued).Perm ((p.holding ++ p.queued) ++
        [.append ⟨p.calls, entry, acked⟩]) := by
    rcases Pipeline.step_record hs with rfl | ⟨acked, rfl⟩
    · refine ⟨false, rfl, ?_⟩
      rw [List.append_assoc]
      exact List.Perm.refl _
    · refine ⟨acked, rfl, ?_⟩
      rw [List.append_assoc]
      show (p.holding ++ [_] ++ p.queued).Perm _
      rw [List.append_assoc]
      exact List.perm_append_comm.append_left _
  obtain ⟨acked, hhanded, hperm⟩ := hcases
  refine ⟨hhanded, fun item hitem => ?_⟩
  have hmem := hperm.subset (mem_items.1 hitem)
  rcases List.mem_append.1 hmem with hmem | hmem
  · exact .inl (mem_items.2 hmem)
  · obtain rfl := Command.append.inj (List.mem_singleton.1 hmem)
    exact .inr ⟨rfl, rfl⟩

/-- A summary is handed to the audit. -/
theorem inv_hand (h : Inv c n s) {connection : Option ℕ} {now : DateTime} {waits : Bool}
    (hs : step c name s (.hand connection now waits) = some t) : Inv c n t := by
  simp only [step] at hs
  split at hs
  · next who event writes rest call hfind =>
    split_ifs at hs
    obtain ⟨pipeline, hstep, rfl⟩ := Option.map_eq_some_iff.1 hs
    have hperm := perm_of_find hfind
    have hmem := List.mem_of_find?_eq_some hfind
    obtain ⟨nodeId, hcounts⟩ := h.hands _ hmem _ rfl _ (List.mem_cons_self ..)
    have hplain : Pipeline.Op.Plain
        (.record ((AuditEntry.new now event).withTarget name) waits) := by
      cases event with
      | ignoredWrites => rfl
      | _ => cases hcounts
    obtain ⟨hhanded, hitems⟩ := record_cases hstep
    have hfresh : ∀ p ∈ s.calls, p.1 < s.pipeline.calls := fun p hp =>
      h.tallied.handed_lt p.1 (h.calls_ok p hp).1
    refine { h with
      ordered := Pipeline.ordered_step h.ordered hstep
      tallied := Pipeline.tallied_step h.ordered h.tallied hplain hstep
      balanced := Pipeline.balanced_step h.ordered h.tallied h.balanced hstep
      gone := Pipeline.dropped_subset_step h.ordered h.gone hstep
      cancelled_lt := cancelled_lt_step h.ordered h.cancelled_lt hstep
      calls_ok := fun p hp => ?_
      once := ?_
      hands := fun r hr l hl p hp => ?_
      entries := fun item hitem p hp hid => ?_
      tended := h.tended.imp_right ?_ }
    · show p.1 ∈ pipeline.handed ∧ p.1 ∉ pipeline.refused ∧ p.1 ∉ pipeline.cancelled
      rw [hhanded, (Pipeline.refused_eq hstep (fun _ heq => nomatch heq)
        (fun _ heq => nomatch heq)).2, Pipeline.cancelled_eq hstep fun _ heq => nomatch heq]
      rcases List.mem_append.1 hp with hp | hp
      · exact ⟨List.mem_append_left _ (h.calls_ok p hp).1, (h.calls_ok p hp).2⟩
      · rw [List.mem_singleton.1 hp]
        refine ⟨List.mem_append_right _ (List.mem_singleton_self _), fun hmem => ?_, fun hmem => ?_⟩
        · have hlt := h.tallied.handed_lt _ (h.refused_subset hmem)
          exact Nat.lt_irrefl _ hlt
        · exact Nat.lt_irrefl _ (h.cancelled_lt _ hmem)
    · rw [← h.once, inHand_of_perm hperm, inHand_of_perm (List.perm_append_singleton ..)]
      show s.inTable + ((rest.flatMap Prod.snd : List ℕ) + _) +
        ((s.calls ++ [(s.pipeline.calls, writes)]).flatMap Prod.snd : List ℕ) =
          s.inTable + (((writes ++ rest.flatMap Prod.snd : List ℕ) : Multiset ℕ) + _) + _
      rw [List.flatMap_append, ← Multiset.coe_add, ← Multiset.coe_add, List.flatMap_singleton]
      abel
    · rcases List.mem_append.1 hr with hr | hr
      · exact h.hands r (hperm.symm.subset (List.mem_cons_of_mem _ hr)) l hl p hp
      · rw [List.mem_singleton.1 hr] at hl
        obtain rfl := Option.some.inj hl
        exact h.hands _ hmem _ rfl p (List.mem_cons_of_mem _ hp)
    · rcases hitems item hitem with hold | ⟨hitemid, hentry⟩
      · rcases List.mem_append.1 hp with hp | hp
        · exact h.entries item hold p hp hid
        · rw [List.mem_singleton.1 hp] at hid
          have hlt := h.ordered.calls_ok.fresh _ (mem_items.1 hold)
          exact absurd hid (Nat.ne_of_lt hlt)
      · rcases List.mem_append.1 hp with hp | hp
        · have hlt := hfresh p hp
          omega
        · rw [List.mem_singleton.1 hp, hentry]
          exact ⟨nodeId, hcounts⟩
    · exact Tended.of_recorders hperm (fun htaken => nomatch htaken)
        (List.subset_append_left ..) id rfl
  · cases hs

/-- Somebody else starts to record summaries. -/
theorem Inv.recorder (h : Inv c n s) (who : Option ℕ) {loop : AcceptLoop} (connections : List ℕ)
    (htold : loop = .stopping ∨ loop = .stopped → s.shutdown) :
    Inv c n { s with
      loop := loop
      connections := connections
      recorders := s.recorders ++ [{ connection := who }] } := by
  refine { h with
    once := ?_
    hands := fun r hr l hl => ?_
    tended := .inr (.inr (.inr (.inr
      ⟨_, List.mem_append_right _ (List.mem_singleton_self _), rfl⟩)))
    told := htold }
  · rw [← h.once, inHand_of_perm (List.perm_append_singleton ..)]
    show s.inTable + (0 + s.inHand) + _ = _
    rw [zero_add]
  · rcases List.mem_append.1 hr with hr | hr
    · exact h.hands r hr l hl
    · rw [List.mem_singleton.1 hr] at hl
      cases hl

/-- All summaries of a recorder are recorded. -/
theorem inv_finish (h : Inv c n s) {connection : Option ℕ}
    (hs : step c name s (.finish connection) = some t) : Inv c n t := by
  simp only [step] at hs
  split at hs
  · next who call hfind =>
    rw [Option.ite_none_right_eq_some] at hs
    obtain ⟨-, hs⟩ := hs
    cases hs
    have hperm := perm_of_find hfind
    refine { h with
      once := ?_
      hands := fun r hr l hl => ?_
      tended := h.tended.imp_right ?_
      told := fun hloop => h.told ?_ }
    · rw [← h.once, inHand_of_perm hperm]
      show _ + _ + _ = _ + (0 + _) + _
      rw [zero_add]
      rfl
    · exact h.hands r (hperm.symm.subset (List.mem_cons_of_mem _ hr)) l hl
    · refine Tended.of_recorders hperm (fun htaken => nomatch htaken) (List.Subset.refl _) ?_ rfl
      intro hloop
      dsimp only
      split_ifs
      · exact .inl (AcceptLoop.next_runs hloop)
      · exact hloop
    · dsimp only at hloop
      split_ifs at hloop
      · exact AcceptLoop.of_next_stops hloop
      · exact hloop
  · cases hs

/-- A connection counts a write. -/
theorem inv_add (h : Inv c n s) {connection : ℕ} {now : DateTime} {nodeId status : String}
    {displayName : Option String} {value : AuditValue} {client : ClientContext}
    (hs : step c name s (.add connection now nodeId displayName value status client) = some t) :
    Inv c n t := by
  simp only [step] at hs
  split_ifs at hs with hconnection
  split at hs
  · next table hadd =>
    cases hs
    refine { h with
      once := ?_
      table_ok := h.table_ok.add hadd s.added
      tended := .inr (.inr (.inr (.inl (List.ne_nil_of_mem hconnection)))) }
    show ((s.counted ++ [(nodeId, s.added)]).map Prod.snd : List ℕ) + s.inHand + _ =
      Multiset.range (s.added + 1)
    rw [Multiset.range_succ, ← h.once, List.map_append, ← Multiset.coe_add, inTable,
      ← Multiset.singleton_add]
    show _ + ({s.added} : Multiset ℕ) + _ + _ = _
    abel
  · cases hs
    exact h

/-- The table is empty when nobody is left to take it. -/
theorem inv_drop (h : Inv c n s) (hs : step c name s .drop = some t) : Inv c n t := by
  simp only [step] at hs
  split_ifs at hs with hleft
  obtain ⟨hloop, hconnections, hrecorders⟩ := hleft
  cases hs
  have hempty : s.table = [] := by
    refine h.tended.resolve_right ?_
    unfold Tended
    rw [hloop, hconnections, hrecorders]
    simp
  have hcounted : s.counted = [] := by
    apply List.eq_nil_iff_forall_not_mem.2
    intro w hw
    have hmem := h.table_ok.covered w hw
    rw [hempty] at hmem
    cases hmem
  refine { h with once := ?_, table_ok := tableOk_nil, tended := .inl rfl }
  rw [← h.once, inTable, inTable, hcounted]
  rfl

/-- **Step lemma**: a safe step loses no summary. -/
theorem inv_step (h : Inv c n s) {op : Op} (hsafe : s.Safe op) (hs : step c name s op = some t) :
    Inv c n t := by
  cases op with
  | audit op => exact inv_audit h hsafe hs
  | take connection => exact inv_take h hs
  | hand connection now waits => exact inv_hand h hs
  | finish connection => exact inv_finish h hs
  | add connection now nodeId displayName value status client => exact inv_add h hs
  | drop => exact inv_drop h hs
  | setGroups groups =>
    cases hs
    exact { h with }
  | stop =>
    cases hs
    exact { h with told := fun _ => rfl }
  | accept =>
    simp only [step] at hs
    split_ifs at hs with hloop
    cases hs
    exact { h with tended := .inr (.inl hloop) }
  | interval =>
    simp only [step] at hs
    split_ifs at hs with hloop
    cases hs
    exact h.recorder none s.connections fun hstop => by simp at hstop
  | endLoop =>
    simp only [step] at hs
    split_ifs at hs with hloop
    cases hs
    exact h.recorder none s.connections fun _ => hloop.2
  | connectionEnds connection =>
    simp only [step] at hs
    split_ifs at hs with hconnection hshutdown
    · cases hs
      exact h.recorder (some connection) (s.connections.erase connection) h.told
    · cases hs
      have hloop : s.loop = .accepting ∨ s.loop = .summarising := by
        cases hloop : s.loop with
        | accepting => exact .inl rfl
        | summarising => exact .inr rfl
        | stopping => exact absurd (h.told (.inl hloop)) hshutdown
        | stopped => exact absurd (h.told (.inr hloop)) hshutdown
      exact { h with tended := .inr (hloop.imp_right .inl) }
  | connectionPanics connection =>
    simp only [step] at hs
    split_ifs at hs with hconnection
    cases hs
    exact { h with tended := hsafe }

/-- The invariant holds at the start. -/
theorem inv_start {trail : Trail} (htrail : Trail.Chained c trail) (hopen : trail.store.isSome)
    (mode : FailMode) (saved : ℕ) :
    Inv c (eventsLost trail.entries) (start (Pipeline.start mode trail saved)) where
  ordered := Pipeline.ordered_start htrail hopen mode saved
  tallied := Pipeline.tallied_start mode trail saved
  balanced := Pipeline.balanced_start mode trail saved
  gone := List.Subset.refl _
  cancelled_lt := fun _ h => nomatch h
  calls_ok := fun _ h => nomatch h
  once := rfl
  table_ok := tableOk_nil
  hands := fun _ h => nomatch h
  entries := fun _ _ _ h => nomatch h
  tended := .inl rfl
  told := fun h => h.elim (fun heq => nomatch heq) fun heq => nomatch heq

/-- **Summarised writes never vanish**, in runs of safe steps: whatever the connections, the accept
loop, the audit and its other callers do in between, in both fail modes, every write that was
counted is in exactly one place. -/
theorem conserved_of_safe {life : List Trail.Op} {trail : Trail}
    (hlife : Machine.run (Trail.step c) Trail.init life = some trail)
    (hopen : trail.store.isSome) (mode : FailMode) (saved : ℕ) {ops : List Op}
    (hsafe : Machine.Meets (step c name) Safe (start (Pipeline.start mode trail saved)) ops)
    (hr : Machine.run (step c name) (start (Pipeline.start mode trail saved)) ops = some t) :
    Conserved c (eventsLost trail.entries) t := by
  have hstart := inv_start (Trail.chained_of_run hlife) hopen mode saved
  exact (Machine.run_invariant_of_meets (fun _ _ _ h hsafe hs => inv_step h hsafe hs) hstart hsafe
    hr).conserved

/-- A client writes to a summarised node, and the summary is handed to the audit. -/
def handedRun : List Op :=
  [.accept, .add 0 ⟨0⟩ "ns=3;i=5" none ⟨"Boolean", .null⟩ "Good" { remoteAddr := "10.0.0.5:50000" },
    .interval, .take none, .hand none ⟨0⟩ false]

/-- The batch of the summary, behind which the target is stopped and dropped. -/
def recordedRun : List Op :=
  handedRun ++ [.audit .recv, .audit .tryRecvEmpty, .audit (.startBatch ⟨0⟩), .audit (.write true),
    .finish none, .stop, .endLoop, .connectionEnds 0, .take (some 0), .finish (some 0),
    .take none, .finish none, .drop]

/-- A run in which one ignored write is counted and recorded. -/
theorem conserved_of_safe_recordedRun : ∃ t,
    Machine.run (step plainCrates "plc") (start (Pipeline.start .failOpen Trail.opened 0))
      recordedRun = some t ∧ Conserved plainCrates 0 t ∧ t.added = 1 ∧
        t.pipeline.log.map Prod.fst = [0] := by
  obtain ⟨t, ht⟩ := Option.isSome_iff_exists.1
    (show (Machine.run (step plainCrates "plc") (start (Pipeline.start .failOpen Trail.opened 0))
      recordedRun).isSome = true from rfl)
  have hread : (Machine.run (step plainCrates "plc")
      (start (Pipeline.start .failOpen Trail.opened 0)) recordedRun).map
        (fun t => (t.added, t.pipeline.log.map Prod.fst)) = some (1, [0]) := rfl
  rw [ht, Option.map_some, Option.some.injEq, Prod.mk.injEq] at hread
  refine ⟨t, ht, conserved_of_safe (Trail.run_opened plainCrates) rfl .failOpen 0 ?_ ht, hread⟩
  -- no caller reads an error, and no connection panics
  apply Machine.meets_of_forall_mem
  simp [recordedRun, handedRun, Safe]

/-- The summary is handed to the audit in fail-closed mode, and its commit fails. -/
def refusedRun : List Op :=
  handedRun ++ [.audit (.send 0), .audit .recv, .audit .tryRecvEmpty, .audit (.startBatch ⟨0⟩),
    .audit (.write false), .audit (.finish 0)]

/-- The write is in no place any more. -/
theorem summary_vanishes : ∃ t,
    Machine.run (step plainCrates "plc") (start (Pipeline.start .failClosed Trail.opened 0))
      refusedRun = some t ∧ t.added = 1 ∧ t.inTable = 0 ∧ t.queued = 0 ∧ t.stored = 0 ∧
        t.lost = 0 ∧ ¬ Conserved plainCrates 0 t := by
  obtain ⟨t, ht⟩ := Option.isSome_iff_exists.1
    (show (Machine.run (step plainCrates "plc") (start (Pipeline.start .failClosed Trail.opened 0))
      refusedRun).isSome = true from rfl)
  have hread : (Machine.run (step plainCrates "plc")
      (start (Pipeline.start .failClosed Trail.opened 0)) refusedRun).map
        (fun t => (t.added, t.inTable, t.queued, t.stored, t.lost)) =
          some (1, 0, 0, 0, 0) := rfl
  rw [ht, Option.map_some, Option.some.injEq, Prod.mk.injEq, Prod.mk.injEq, Prod.mk.injEq,
    Prod.mk.injEq] at hread
  obtain ⟨hadded, htable, hqueued, hstored, hlost⟩ := hread
  refine ⟨t, ht, hadded, htable, hqueued, hstored, hlost, fun h => ?_⟩
  have honce := congrArg Multiset.card h.once
  rw [hadded, htable, hqueued, hstored, hlost, Multiset.card_range] at honce
  simp at honce

end Summaries

end AuditGateway
