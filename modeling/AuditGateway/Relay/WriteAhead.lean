import AuditGateway.Audit.Evolution
import AuditGateway.Relay.Intent
import AuditGateway.Relay.Tasks

set_option relaxedAutoImplicit false
set_option autoImplicit false

/-!
# Write-ahead records

In fail-closed mode a change is handed over to the server only after a record that names what it
is about to do is committed. The connection and the audit pipeline run together here: a task
that waits for the commit of its intent is a caller of the pipeline, and goes on with the answer
that the writer gives this caller.

## Main definitions

* `Gateway`, `Gateway.Op`, `Gateway.step` — a connection together with the audit pipeline.
* `Gateway.WriteAhead` — no change is ahead of its record.

## Main results

* `Gateway.ahead_step` — every step keeps the changes behind their records.
* `Gateway.writeAhead_of_renders` — no change is ahead of its record, in every run that renders
  all its values.
* `Gateway.request_without_plan` — an audited request that cannot be planned.
-/

namespace AuditGateway

/-! ## A connection together with the audit -/

/-- A connection and the audit pipeline. -/
structure Gateway where
  conn : Connection
  pipeline : Pipeline
  /-- The requests that asked for the commit of their intent, with the numbers of their calls. -/
  calls : List (ℕ × ℕ) := []

namespace Gateway

/-- What can happen. -/
inductive Op
  /-- The connection does something on its own. -/
  | relay (op : Connection.Op)
  /-- The writer, or another caller, does something. -/
  | audit (op : Pipeline.Op)
  /-- A task that waits for the commit of its intent reads its answer and goes on. -/
  | committed (id : ℕ) (now : DateTime) (instant : ℕ)

/-- The commit that a task has just asked for. -/
def asked (s t : Connection) : Option (Task × Forward × AuditEntry) :=
  t.committing[s.committing.length]?

variable (x : Texts) (ctx : Ctx) (c : Crates)

/-- One step. A task reads the fail mode that is set, and its call belongs to it: nobody else reads
the answer, and it is dropped only with its task. -/
def step (s : Gateway) : Op → Option Gateway
  | .relay (.poll settings checks) =>
    if settings.failMode = s.pipeline.mode then
      match s.conn.step x ctx (.poll settings checks) with
      | none => none
      | some conn =>
        match asked s.conn conn with
        | none => some { s with conn := conn }
        | some (task, _, entry) =>
          (s.pipeline.step c (.recordCommitted entry)).map fun pipeline =>
            ⟨conn, pipeline, s.calls ++ [(task.id, s.pipeline.calls)]⟩
    else none
  | .relay (.committed ..) => none
  | .relay op => (s.conn.step x ctx op).map fun conn => { s with conn := conn }
  | .audit (.finish k) =>
    if k ∈ s.calls.map Prod.snd then none
    else (s.pipeline.step c (.finish k)).map fun pipeline => { s with pipeline := pipeline }
  | .audit (.cancel k) =>
    if ∃ p ∈ s.conn.committing, (p.1.id, k) ∈ s.calls then none
    else (s.pipeline.step c (.cancel k)).map fun pipeline => { s with pipeline := pipeline }
  | .audit op => (s.pipeline.step c op).map fun pipeline => { s with pipeline := pipeline }
  | .committed id now instant =>
    match s.calls.find? fun call => call.1 = id with
    | none => none
    | some (_, k) =>
      match s.pipeline.answers.find? fun answer => answer.1 = k with
      | none => none
      | some (_, answer) =>
        match s.pipeline.step c (.finish k),
            s.conn.step x ctx (.committed id answer.isOk now instant) with
        | some pipeline, some conn => some { s with conn := conn, pipeline := pipeline }
        | _, _ => none

/-- A connection that has just been accepted. -/
def start (shared : Shared) (pipeline : Pipeline) : Gateway := ⟨{ shared := shared }, pipeline, []⟩

/-- The steps in which no task panics over a value that cannot be rendered. -/
def Renders (s : Gateway) : Op → Prop
  | .relay op => s.conn.Renders op
  | _ => True

/-- **Write-ahead.** Whatever was handed over belongs to a request whose task has run and that was
planned. If that request has an intent, a row of the trail is the record of it, under the number
of its own call. If the commit failed, nothing was handed over for the request, and the client
gets a fault. Exactly the audited requests have a plan, and none of them is dropped. -/
structure WriteAhead (s : Gateway) : Prop where
  started : ∀ m ∈ s.conn.sent, ∃ st ∈ s.conn.started, m.IsFor st.task ∧
    ∃ p, AuditMap.plan x st.task.request = some p ∧ (p.isSome ↔ isAudited st.task.request)
  covered : ∀ m ∈ s.conn.sent, ∀ st ∈ s.conn.started, st.task.id = m.id →
    ∀ entry, intended x ctx st.settings st.client st.task.request = some entry →
      ∃ k row, (m.id, k) ∈ s.calls ∧ (k, row) ∈ s.pipeline.log ∧
        row ∈ s.pipeline.trail.written ∧ row = record c row.seq row.prevHash entry
  rejected : ∀ id k e, (id, k) ∈ s.calls → (k, .error e) ∈ s.pipeline.returned →
    (∀ m ∈ s.conn.sent, m.id ≠ id) ∧ ∃ st ∈ s.conn.started, st.task.id = id ∧
      (id, fault st.task.request .badInternalError) ∈ s.conn.responses
  planned : ∀ st ∈ s.conn.started, ∃ p, AuditMap.plan x st.task.request = some p ∧
    (p.isSome ↔ isAudited st.task.request)
  kept : ∀ task ∈ s.conn.dropped, ¬ isAudited task.request

/-! ## The invariant of every run -/

/-- What holds in every state: the calls of the connection are its own, the entry behind a call is
the intent of its request, a task that waits has its answer still to come, and what was handed
over is behind its record. -/
structure Ahead (s : Gateway) : Prop where
  ordered : Pipeline.Ordered c s.pipeline
  tracked : Connection.Tracked s.conn
  calls_ids : (s.calls.map Prod.fst).Nodup
  calls_numbers : (s.calls.map Prod.snd).Nodup
  calls_lt : ∀ call ∈ s.calls, call.2 < s.pipeline.calls
  named : ∀ call ∈ s.calls, ∃ st ∈ s.conn.started, st.task.id = call.1 ∧
    (∃ p, AuditMap.plan x st.task.request = some p) ∧
    ∀ item ∈ items (s.pipeline.holding ++ s.pipeline.queued), item.id = call.2 →
      intended x ctx st.settings st.client st.task.request = some item.entry
  waits : ∀ p ∈ s.conn.committing, ∃ k, (p.1.id, k) ∈ s.calls ∧
    ∀ a, (k, a) ∉ s.pipeline.returned
  planned : ∀ m ∈ s.conn.sent, ∀ st ∈ s.conn.started, st.task.id = m.id →
    ∃ p, AuditMap.plan x st.task.request = some p
  covered : ∀ m ∈ s.conn.sent, ∀ st ∈ s.conn.started, st.task.id = m.id →
    ∀ entry, intended x ctx st.settings st.client st.task.request = some entry →
      ∃ k row, (m.id, k) ∈ s.calls ∧ (k, row) ∈ s.pipeline.log ∧
        row ∈ s.pipeline.trail.written ∧ row = record c row.seq row.prevHash entry
  rejected : ∀ id k e, (id, k) ∈ s.calls → (k, .error e) ∈ s.pipeline.returned →
    (∀ m ∈ s.conn.sent, m.id ≠ id) ∧ ∃ st ∈ s.conn.started, st.task.id = id ∧
      (id, fault st.task.request .badInternalError) ∈ s.conn.responses

variable {x : Texts} {ctx : Ctx} {c : Crates} {s t : Gateway}

namespace Ahead

/-- A request has one call. -/
theorem call_unique (h : Ahead x ctx c s) {id k k' : ℕ} (hk : (id, k) ∈ s.calls)
    (hk' : (id, k') ∈ s.calls) : k = k' :=
  (Prod.mk.inj (List.inj_on_of_nodup_map h.calls_ids hk hk' rfl)).2

/-- A call has one request. -/
theorem id_unique (h : Ahead x ctx c s) {id id' k : ℕ} (hk : (id, k) ∈ s.calls)
    (hk' : (id', k) ∈ s.calls) : id = id' :=
  (Prod.mk.inj (List.inj_on_of_nodup_map h.calls_numbers hk hk' rfl)).1

/-- A caller gets one answer only. -/
theorem answer_unique {s : Pipeline} (h : Pipeline.Ordered c s) {k : ℕ} {n : ℤ} {e : AuditError}
    (hok : (k, .ok n) ∈ s.answers ++ s.returned)
    (herror : (k, .error e) ∈ s.answers ++ s.returned) : False := by
  have hrow := (h.answer_iff hok n).1 rfl
  have heq := (h.answer_iff herror n).2 hrow
  cases heq

/-- The audit does something. The caller that reads its answer is not one of the connection, or
a task that does not wait any more, and is told if its commit has failed. -/
theorem audit (h : Ahead x ctx c s) {op : Pipeline.Op} {pipeline : Pipeline}
    (hs : s.pipeline.step c op = some pipeline)
    (hop : ∀ k, op = .finish k → ∀ id, (id, k) ∈ s.calls →
      (∀ p ∈ s.conn.committing, p.1.id ≠ id) ∧ ∀ e, (k, .error e) ∈ pipeline.returned →
        (∀ m ∈ s.conn.sent, m.id ≠ id) ∧ ∃ st ∈ s.conn.started, st.task.id = id ∧
          (id, fault st.task.request .badInternalError) ∈ s.conn.responses) :
    Ahead x ctx c { s with pipeline := pipeline } := by
  obtain ⟨hevolves, hreturned⟩ := Pipeline.evolves_step h.ordered hs
  refine ⟨Pipeline.ordered_step h.ordered hs, h.tracked, h.calls_ids, h.calls_numbers,
    fun call hcall => ?_, fun call hcall => ?_, fun p hp => ?_, h.planned,
    fun m hm st hst hid entry hentry => ?_, fun id k e hk he => ?_⟩
  · exact Nat.lt_of_lt_of_le (h.calls_lt call hcall) hevolves.calls_le
  · obtain ⟨st, hst, hid, hplan, hitems⟩ := h.named call hcall
    refine ⟨st, hst, hid, hplan, fun item hitem hnumber => ?_⟩
    rcases hevolves.items_old item hitem with hitem | hnew
    · exact hitems item hitem hnumber
    · have := h.calls_lt call hcall
      omega
  · obtain ⟨k, hk, hnone⟩ := h.waits p hp
    refine ⟨k, hk, fun a ha => ?_⟩
    rcases hreturned _ ha with ha | heq
    · exact hnone a ha
    · exact (hop k heq p.1.id hk).1 p hp rfl
  · obtain ⟨k, row, hk, hlog, hwritten, hrow⟩ := h.covered m hm st hst hid entry hentry
    exact ⟨k, row, hk, hevolves.log_prefix.subset hlog, hevolves.written_prefix.subset hwritten,
      hrow⟩
  · rcases hreturned _ he with he' | heq
    · exact h.rejected id k e hk he'
    · exact (hop k heq id hk).2 e he

/-- The writer, or a caller that is no task of the connection, does something. -/
theorem audit_other (h : Ahead x ctx c s) {op : Pipeline.Op} {pipeline : Pipeline}
    (hs : s.pipeline.step c op = some pipeline)
    (hop : ∀ k, op = .finish k → k ∉ s.calls.map Prod.snd) :
    Ahead x ctx c { s with pipeline := pipeline } := by
  refine h.audit hs fun k heq id hk => ?_
  exact absurd (List.mem_map.2 ⟨(id, k), hk, rfl⟩) (hop k heq)

/-- The connection does something in which nothing is handed over and nobody asks for a commit.
A task may run for the first time. -/
theorem relay (h : Ahead x ctx c s) {conn : Connection} (htracked : Connection.Tracked conn)
    (hstarted : s.conn.started ⊆ conn.started)
    (hnew : ∀ st ∈ conn.started, st ∈ s.conn.started ∨ ∀ m ∈ s.conn.sent, m.id ≠ st.task.id)
    (hsent : conn.sent = s.conn.sent) (hcommitting : conn.committing ⊆ s.conn.committing)
    (hresponses : s.conn.responses ⊆ conn.responses) :
    Ahead x ctx c { s with conn := conn } := by
  refine ⟨h.ordered, htracked, h.calls_ids, h.calls_numbers, h.calls_lt, fun call hcall => ?_,
    fun p hp => h.waits p (hcommitting hp), fun m hm st hst hid => ?_,
    fun m hm st hst hid entry hentry => ?_, fun id k e hk he => ?_⟩
  · obtain ⟨st, hst, hnamed⟩ := h.named call hcall
    exact ⟨st, hstarted hst, hnamed⟩
  · have hm : m ∈ s.conn.sent := hsent ▸ hm
    rcases hnew st hst with hst | hne
    · exact h.planned m hm st hst hid
    · exact absurd hid.symm (hne m hm)
  · have hm : m ∈ s.conn.sent := hsent ▸ hm
    rcases hnew st hst with hst | hne
    · exact h.covered m hm st hst hid entry hentry
    · exact absurd hid.symm (hne m hm)
  · obtain ⟨hnone, st, hst, hid, hfault⟩ := h.rejected id k e hk he
    refine ⟨fun m hm => hnone m (hsent ▸ hm), st, hstarted hst, hid, hresponses hfault⟩

/-- The connection only answers and records. -/
theorem frame (h : Ahead x ctx c s) {conn : Connection} (hframe : Connection.Frame s.conn conn) :
    Ahead x ctx c { s with conn := conn } := by
  refine h.relay (h.tracked.frame hframe) ?_ (fun st hst => .inl ?_) hframe.sent ?_
    hframe.responses.subset
  · rw [hframe.started]
    exact List.Subset.refl _
  · rwa [← hframe.started]
  · rw [hframe.committing]
    exact List.Subset.refl _

/-- A request whose intent is in the trail, or that needs none, is handed over. -/
theorem handed (h : Ahead x ctx c s) (st : Started) (hst : st ∈ s.conn.started)
    {awaiting : Awaiting} {preRead : Option PreRead}
    (htracked : Connection.Tracked (s.conn.handed st.task awaiting preRead))
    (hplan : ∃ p, AuditMap.plan x st.task.request = some p)
    (hcovered : ∀ entry, intended x ctx st.settings st.client st.task.request = some entry →
      ∃ k row, (st.task.id, k) ∈ s.calls ∧ (k, row) ∈ s.pipeline.log ∧
        row ∈ s.pipeline.trail.written ∧ row = record c row.seq row.prevHash entry)
    (hfailed : ∀ k e, (st.task.id, k) ∈ s.calls → (k, .error e) ∉ s.pipeline.returned) :
    Ahead x ctx c { s with conn := s.conn.handed st.task awaiting preRead } := by
  have hsent : ∀ m ∈ (s.conn.handed st.task awaiting preRead).sent,
      m ∈ s.conn.sent ∨ m.id = st.task.id := by
    intro m hm
    rcases List.mem_append.1 hm with hm | hm
    · refine (List.mem_append.1 hm).imp_right fun hm => ?_
      obtain ⟨pre, -, rfl⟩ := Option.map_eq_some_iff.1 (Option.mem_toList.1 hm)
      rfl
    · rw [List.mem_singleton.1 hm]
      exact .inr rfl
  refine ⟨h.ordered, htracked, h.calls_ids, h.calls_numbers, h.calls_lt, h.named, h.waits,
    fun m hm st' hst' hid => ?_, fun m hm st' hst' hid entry hentry => ?_,
    fun id k e hk he => ?_⟩
  · rcases hsent m hm with hm | hm
    · exact h.planned m hm st' hst' hid
    · obtain rfl := h.tracked.started_eq hst' hst (hid.trans hm)
      exact hplan
  · rcases hsent m hm with hm | hm
    · exact h.covered m hm st' hst' hid entry hentry
    · obtain rfl := h.tracked.started_eq hst' hst (hid.trans hm)
      rw [hm]
      exact hcovered entry hentry
  · obtain ⟨hnone, hfault⟩ := h.rejected id k e hk he
    refine ⟨fun m hm hid => ?_, hfault⟩
    rcases hsent m hm with hm | hm
    · exact hnone m hm hid
    · rw [← hid, hm] at hk
      exact hfailed k e hk he

/-- A task asks for the commit of its intent. -/
theorem ask (h : Ahead x ctx c s) (st : Started) (hst : st ∈ s.conn.started)
    (hnew : st.task.id ∉ s.calls.map Prod.fst) {f : Forward} {entry : AuditEntry}
    (htracked : Connection.Tracked
      { s.conn with committing := s.conn.committing ++ [(st.task, f, entry)] })
    (hplan : ∃ p, AuditMap.plan x st.task.request = some p)
    (hentry : intended x ctx st.settings st.client st.task.request = some entry)
    {pipeline : Pipeline} (hs : s.pipeline.step c (.recordCommitted entry) = some pipeline) :
    Ahead x ctx c
      ⟨{ s.conn with committing := s.conn.committing ++ [(st.task, f, entry)] }, pipeline,
        s.calls ++ [(st.task.id, s.pipeline.calls)]⟩ := by
  have h' := h.audit_other hs fun k hk => nomatch hk
  obtain rfl := Option.some.inj hs
  have hlt : s.pipeline.calls ∉ s.calls.map Prod.snd := by
    intro hmem
    obtain ⟨call, hcall, hid⟩ := List.mem_map.1 hmem
    have := h.calls_lt call hcall
    omega
  have hcall : ∀ call ∈ s.calls ++ [(st.task.id, s.pipeline.calls)],
      call ∈ s.calls ∨ call = (st.task.id, s.pipeline.calls) :=
    fun call hcall => (List.mem_append.1 hcall).imp_right List.mem_singleton.1
  -- a new call has no answer yet
  have hfresh : ∀ a, (s.pipeline.calls, a) ∉ s.pipeline.returned := by
    intro a ha
    obtain ⟨k, row, hrow⟩ | hfailed : (∃ k row, (s.pipeline.calls, row) ∈ s.pipeline.log ∧
        row.seq = k) ∨ s.pipeline.calls ∈ s.pipeline.failed := by
      cases a with
      | ok n =>
        obtain ⟨row, hrow⟩ := h.ordered.answers_ok.ok_sound _ n (List.mem_append_right _ ha)
        exact .inl ⟨n, row, hrow⟩
      | error e =>
        exact .inr (h.ordered.answers_ok.error_sound _ e (List.mem_append_right _ ha))
    · have hmem := h.ordered.ids_past_sublist.subset
        (h.ordered.log_ok.ids_sublist.subset (List.mem_map_of_mem hrow.1))
      obtain ⟨item, hitem, hid⟩ := mem_ids.1 hmem
      have hlt := h.ordered.calls_ok.fresh (.append item)
        (List.mem_append_right _ (mem_items.1 hitem))
      have hid' : (Command.append item).id = s.pipeline.calls := hid
      omega
    · have hmem := h.ordered.ids_past_sublist.subset (h.ordered.log_ok.failed_past _ hfailed)
      obtain ⟨item, hitem, hid⟩ := mem_ids.1 hmem
      have hlt := h.ordered.calls_ok.fresh (.append item)
        (List.mem_append_right _ (mem_items.1 hitem))
      have hid' : (Command.append item).id = s.pipeline.calls := hid
      omega
  refine ⟨h'.ordered, htracked, ?_, ?_, fun call hc => ?_, fun call hc => ?_, fun p hp => ?_,
    h'.planned, fun m hm st' hst' hid entry' hentry' => ?_, fun id k e hk he => ?_⟩
  · rw [List.map_append, List.nodup_append]
    refine ⟨h.calls_ids, List.nodup_singleton _, fun a ha b hb hab => hnew ?_⟩
    obtain rfl : b = st.task.id := List.mem_singleton.1 hb
    rwa [← hab]
  · rw [List.map_append, List.nodup_append]
    refine ⟨h.calls_numbers, List.nodup_singleton _, fun a ha b hb hab => hlt ?_⟩
    obtain rfl : b = s.pipeline.calls := List.mem_singleton.1 hb
    rwa [← hab]
  · rcases hcall call hc with hc | rfl
    · exact h'.calls_lt call hc
    · exact Nat.lt_succ_self _
  · rcases hcall call hc with hc | rfl
    · exact h'.named call hc
    · refine ⟨st, hst, rfl, hplan, fun item hitem hid => ?_⟩
      -- the only entry under the new number is the new one
      rw [mem_items] at hitem
      have hitem' : Command.append item ∈ s.pipeline.holding ++
          [.append ⟨s.pipeline.calls, entry, true⟩] ++ s.pipeline.queued := hitem
      have hid' : (Command.append item).id = s.pipeline.calls := hid
      simp only [List.mem_append, List.mem_singleton] at hitem'
      rcases hitem' with (hmem | hmem) | hmem
      · have := h.ordered.calls_ok.fresh _ (List.mem_append_left _ hmem)
        omega
      · rw [Command.append.inj hmem]
        exact hentry
      · have := h.ordered.calls_ok.fresh _ (List.mem_append_right _ hmem)
        omega
  · rcases List.mem_append.1 hp with hp | hp
    · obtain ⟨k, hk, hnone⟩ := h'.waits p hp
      exact ⟨k, List.mem_append_left _ hk, hnone⟩
    · obtain rfl := List.mem_singleton.1 hp
      exact ⟨s.pipeline.calls, by simp, hfresh⟩
  · obtain ⟨k, row, hk, hrest⟩ := h'.covered m hm st' hst' hid entry' hentry'
    exact ⟨k, row, List.mem_append_left _ hk, hrest⟩
  · rcases hcall _ hk with hk | heq
    · exact h'.rejected id k e hk he
    · obtain ⟨rfl, rfl⟩ := Prod.mk.inj heq
      exact absurd he (hfresh _)

/-- A task panics. -/
theorem panic (h : Ahead x ctx c s) : Ahead x ctx c { s with conn := s.conn.panic } := by
  refine h.relay h.tracked.panic ?_ (fun st hst => .inl ?_) ?_ ?_ ?_
  · rw [Connection.started_panic]
    exact List.Subset.refl _
  · rwa [← Connection.started_panic]
  · exact Connection.sent_panic _
  · exact (Connection.committing_panic_sublist _).subset
  · rw [Connection.responses_panic]
    exact List.Subset.refl _

end Ahead

/-! ## Every step keeps the changes behind their records -/

/-- The next task runs. -/
theorem ahead_poll (h : Ahead x ctx c s) {settings : Settings}
    {checks : Except StatusCode UserIdentity}
    (hs : step x ctx c s (.relay (.poll settings checks)) = some t) : Ahead x ctx c t := by
  simp only [step] at hs
  split_ifs at hs
  cases hconn : s.conn.step x ctx (.poll settings checks) with
  | none => simp only [hconn] at hs; cases hs
  | some conn =>
    simp only [hconn] at hs
    have htracked := Connection.tracked_step h.tracked hconn
    obtain ⟨task, fresh, hfresh, -, rfl⟩ := Connection.step_poll hconn
    clear hconn
    set st : Started := ⟨task, settings, attributed ctx s.conn.shared.sessions task.request⟩
    set u : Connection :=
      { s.conn with fresh := fresh, started := s.conn.started ++ [st] } with hu
    obtain ⟨hbegin, hnew, hunsent⟩ := h.tracked.begin hfresh st rfl
    have hfirst := h.tracked.new_of_fresh hfresh
    have hahead : Ahead x ctx c { s with conn := u } := by
      refine h.relay hbegin (by simp [hu]) (fun st' hst' => ?_) rfl (List.Subset.refl _)
        (List.Subset.refl _)
      rcases List.mem_append.1 hst' with hst' | hst'
      · exact .inl hst'
      · rw [List.mem_singleton.1 hst']
        exact .inr hunsent
    -- the request has no call yet
    have hcall : st.task.id ∉ s.calls.map Prod.fst := by
      intro hmem
      obtain ⟨call, hcall, hid⟩ := List.mem_map.1 hmem
      obtain ⟨st', hst', hid', -⟩ := h.named call hcall
      exact hfirst st' hst' (hid'.trans hid)
    have hsame : ∀ {v : Connection}, v.committing = s.conn.committing →
        asked s.conn v = none := by
      intro v hv
      rw [asked, hv, List.getElem?_eq_none le_rfl]
    cases @Connection.start_cases x ctx task u settings checks with
    | answered hframe =>
      rw [hsame hframe.committing] at hs
      cases hs
      exact hahead.frame hframe
    | panicked v hframe hf ht =>
      rw [ht] at hs
      have hnone : asked s.conn v.panic = none := by
        have hle := (Connection.committing_panic_sublist v).length_le
        rw [hframe.committing] at hle
        rw [asked, List.getElem?_eq_none hle]
      rw [hnone] at hs
      cases hs
      exact (hahead.frame hframe).panic
    | held v f entry hframe hf hentry ht =>
      have hnames := intent_eq_intended ctx hf
      obtain ⟨p, hplan, -⟩ := prepare_eq_some hf
      have hasked : asked s.conn (Connection.start x ctx u task settings checks) =
          some (task, f, entry) := by
        have hlength : s.conn.committing = v.committing := hframe.committing.symm
        rw [ht, asked, hlength]
        simp
      rw [hasked] at hs
      obtain ⟨pipeline, hpipeline, rfl⟩ := Option.map_eq_some_iff.1 hs
      rw [ht] at htracked ⊢
      refine (hahead.frame hframe).ask st ?_ hcall htracked ⟨p, hplan⟩ ?_ hpipeline
      · show st ∈ v.started
        rw [hframe.started]
        simp [hu]
      · rw [← hentry, hnames]
    | sent v f awaiting preRead hframe hf hintent hawaiting ht =>
      have hnames := intent_eq_intended ctx hf
      obtain ⟨p, hplan, -⟩ := prepare_eq_some hf
      have hnone : asked s.conn (Connection.start x ctx u task settings checks) = none := by
        rw [ht]
        exact hsame hframe.committing
      rw [hnone] at hs
      cases hs
      rw [ht] at htracked ⊢
      refine (hahead.frame hframe).handed st ?_ htracked ⟨p, hplan⟩
        (fun entry hentry => ?_) (fun k e hk => ?_)
      · show st ∈ v.started
        rw [hframe.started]
        simp [hu]
      · rw [hintent] at hnames
        rw [← hnames] at hentry
        cases hentry
      · exact absurd (List.mem_map.2 ⟨_, hk, rfl⟩) hcall

/-- The row behind an answer. -/
theorem Ahead.row_of_answer (h : Ahead x ctx c s) {id k : ℕ} {n : ℤ} (hk : (id, k) ∈ s.calls)
    (ha : (k, .ok n) ∈ s.pipeline.answers) :
    ∃ st ∈ s.conn.started, st.task.id = id ∧ (∃ p, AuditMap.plan x st.task.request = some p) ∧
      ∃ entry row, intended x ctx st.settings st.client st.task.request = some entry ∧
        (k, row) ∈ s.pipeline.log ∧ row ∈ s.pipeline.trail.written ∧
        row = record c row.seq row.prevHash entry := by
  obtain ⟨row, hrow, -⟩ := h.ordered.answers_ok.ok_sound k n (List.mem_append_left _ ha)
  obtain ⟨item, hitem, hid, hrecord⟩ := h.ordered.log_ok.record_eq _ hrow
  obtain ⟨st, hst, hstid, hplan, hitems⟩ := h.named _ hk
  have hqueued : item ∈ items (s.pipeline.holding ++ s.pipeline.queued) := by
    rw [h.ordered.queued_eq, items_append, items_append]
    exact List.mem_append_right _ (List.mem_append_left _ hitem)
  exact ⟨st, hst, hstid, hplan, item.entry, row, hitems item hqueued hid, hrow,
    h.ordered.log_ok.rows_sublist.subset (List.mem_map_of_mem hrow), hrecord⟩

/-- The answers that a caller which has read its own one has got. -/
theorem returned_finish {s t : Pipeline} {k : ℕ} {answer : Except AuditError ℤ}
    (hfind : s.answers.find? (fun answer => answer.1 = k) = some (k, answer))
    (hs : s.step c (.finish k) = some t) : t.returned = s.returned ++ [(k, answer)] := by
  simp only [Pipeline.step, hfind] at hs
  cases hs
  unfold Pipeline.read
  split <;> rfl

/-- A task that waits for its commit gets the answer. -/
theorem ahead_committed (h : Ahead x ctx c s) {id instant : ℕ} {now : DateTime}
    (hs : step x ctx c s (.committed id now instant) = some t) : Ahead x ctx c t := by
  simp only [step] at hs
  split at hs
  · cases hs
  · next id' k hcall =>
    obtain rfl : id' = id := by simpa using List.find?_some hcall
    have hcall := List.mem_of_find?_eq_some hcall
    split at hs
    · cases hs
    · next k' answer hanswer =>
      obtain rfl : k' = k := by simpa using List.find?_some hanswer
      split at hs
      · next pipeline conn hpipeline hconn =>
        cases hs
        have htracked := Connection.tracked_step h.tracked hconn
        have hanswered := List.mem_of_find?_eq_some hanswer
        have hordered := Pipeline.ordered_step h.ordered hpipeline
        have hreturned := returned_finish hanswer hpipeline
        obtain ⟨task, f, entry, hfind, -, hcase⟩ := Connection.step_committed hconn
        obtain ⟨hrelease, hid, hmem, hstarted, hnew⟩ := h.tracked.release hfind
        set u : Connection := { s.conn with
          committing := s.conn.committing.eraseP fun p => p.1.id = id' } with hu
        have hgone : ∀ p ∈ u.committing, p.1.id ≠ id' := by
          intro p hp hp'
          refine hnew (List.mem_map.2 ⟨p.1, ?_, hp'.trans hid.symm⟩)
          exact List.mem_append_left _ (List.mem_map_of_mem hp)
        have hahead : Ahead x ctx c { s with conn := u } :=
          h.relay hrelease (List.Subset.refl _) (fun st hst => .inl hst) rfl
            List.eraseP_sublist.subset (List.Subset.refl _)
        rcases hcase with ⟨hok, rfl⟩ | ⟨hok, rfl⟩
        · cases answer with
          | error e => cases hok
          | ok n =>
            -- the entry is stored: the request may go
            have hrecorded := hahead.frame (Connection.frame_record u id' entry)
            have hread : (k', .ok n) ∈ pipeline.answers ++ pipeline.returned := by
              rw [hreturned]
              simp
            have hstored : Ahead x ctx c ⟨u.record id' entry, pipeline, s.calls⟩ := by
              refine hrecorded.audit hpipeline fun j hj i hi => ?_
              obtain rfl := Pipeline.Op.finish.inj hj
              obtain rfl := h.id_unique hcall hi
              refine ⟨hgone, fun e he => ?_⟩
              exact (Ahead.answer_unique hordered hread (List.mem_append_right _ he)).elim
            rcases Connection.handOver_cases x ctx (u.record id' entry) task (.forward f)
              f.preRead now instant with heq | hframe
            · rw [heq] at htracked ⊢
              obtain ⟨st, hst, hstid, hplan, entry', row, hentry, hlog, hwritten, hrow⟩ :=
                h.row_of_answer hcall hanswered
              obtain ⟨st', hst', rfl⟩ := List.mem_map.1 hstarted
              obtain rfl : st' = st := h.tracked.started_eq hst' hst (hid.trans hstid.symm)
              obtain ⟨hevolves, -⟩ := Pipeline.evolves_step h.ordered hpipeline
              refine hstored.handed st' hst htracked hplan (fun e he => ?_) fun j e hj he => ?_
              · rw [hentry] at he
                obtain rfl := Option.some.inj he
                rw [hid]
                exact ⟨k', row, hcall, hevolves.log_prefix.subset hlog,
                  hevolves.written_prefix.subset hwritten, hrow⟩
              · rw [hid] at hj
                obtain rfl := h.call_unique hcall hj
                exact Ahead.answer_unique hordered hread (List.mem_append_right _ he)
            · exact hstored.frame hframe
        · cases answer with
          | ok n => cases hok
          | error e =>
            -- the client is told, and nothing was handed over
            have hfault := hahead.frame
              (Connection.frame_respond u id' (fault task.request .badInternalError))
            refine hfault.audit hpipeline fun j hj i hi => ?_
            obtain rfl := Pipeline.Op.finish.inj hj
            obtain rfl := h.id_unique hcall hi
            refine ⟨hgone, fun e' _ => ⟨fun m hm hm' => ?_, ?_⟩⟩
            · exact h.tracked.sent_not_committing m hm _ hmem (hm'.trans hid.symm)
            · obtain ⟨st, hst, rfl⟩ := List.mem_map.1 hstarted
              exact ⟨st, hst, hid, List.mem_append_right _ (List.mem_singleton_self _)⟩
      · cases hs

/-- The connection does something in which nothing is handed over. -/
theorem ahead_relay (h : Ahead x ctx c s) {op : Connection.Op} {conn : Connection}
    (hpoll : ∀ settings checks, op ≠ .poll settings checks)
    (hcommitted : ∀ id ok now instant, op ≠ .committed id ok now instant)
    (hconn : s.conn.step x ctx op = some conn) : Ahead x ctx c { s with conn := conn } := by
  have hquiet := Connection.quiet_step hpoll hcommitted hconn
  refine h.relay (Connection.tracked_step h.tracked hconn) ?_ (fun st hst => .inl ?_)
    hquiet.sent hquiet.committing.subset hquiet.responses.subset
  · rw [hquiet.started]
    exact List.Subset.refl _
  · rwa [← hquiet.started]

/-- What the connection does in a step, and what the audit does in it. -/
theorem relay_cases {op : Connection.Op} (hs : step x ctx c s (.relay op) = some t) :
    (∃ settings checks, op = .poll settings checks) ∨
      (∀ settings checks, op ≠ .poll settings checks) ∧
      (∀ id ok now instant, op ≠ .committed id ok now instant) ∧
      ∃ conn, s.conn.step x ctx op = some conn ∧ t = { s with conn := conn } := by
  have hother : ∀ {op : Connection.Op},
      (s.conn.step x ctx op).map (fun conn => { s with conn := conn }) = some t →
      ∃ conn, s.conn.step x ctx op = some conn ∧ t = { s with conn := conn } := by
    intro op hop
    obtain ⟨conn, hconn, rfl⟩ := Option.map_eq_some_iff.1 hop
    exact ⟨conn, hconn, rfl⟩
  cases op with
  | poll settings checks => exact .inl ⟨settings, checks, rfl⟩
  | committed id ok now instant => cases hs
  | _ => exact .inr ⟨by simp, by simp, hother hs⟩

/-- A step of the audit that is none of a waiting task. -/
theorem audit_cases {op : Pipeline.Op} (hs : step x ctx c s (.audit op) = some t) :
    (∀ k, op = .finish k → k ∉ s.calls.map Prod.snd) ∧
      ∃ pipeline, s.pipeline.step c op = some pipeline ∧ t = { s with pipeline := pipeline } := by
  have hother : ∀ {op : Pipeline.Op},
      (s.pipeline.step c op).map (fun pipeline => { s with pipeline := pipeline }) = some t →
      ∃ pipeline, s.pipeline.step c op = some pipeline ∧
        t = { s with pipeline := pipeline } := by
    intro op hop
    obtain ⟨pipeline, hpipeline, rfl⟩ := Option.map_eq_some_iff.1 hop
    exact ⟨pipeline, hpipeline, rfl⟩
  cases op with
  | finish k =>
    simp only [step] at hs
    split_ifs at hs with hmem
    refine ⟨fun j hj => ?_, hother hs⟩
    obtain rfl := Pipeline.Op.finish.inj hj
    exact hmem
  | cancel k =>
    simp only [step] at hs
    split_ifs at hs
    exact ⟨(fun _ hk => nomatch hk), hother hs⟩
  | _ => exact ⟨(fun _ hk => nomatch hk), hother hs⟩

/-- **Step lemma**: every step keeps the changes behind their records. -/
theorem ahead_step (h : Ahead x ctx c s) {op : Op} (hs : step x ctx c s op = some t) :
    Ahead x ctx c t := by
  cases op with
  | relay op =>
    rcases relay_cases hs with ⟨settings, checks, rfl⟩ | ⟨hpoll, hcommitted, conn, hconn, rfl⟩
    · exact ahead_poll h hs
    · exact ahead_relay h hpoll hcommitted hconn
  | audit op =>
    obtain ⟨hop, pipeline, hpipeline, rfl⟩ := audit_cases hs
    exact h.audit_other hpipeline hop
  | committed id now instant => exact ahead_committed h hs

/-- Nothing was sent at the start. -/
theorem ahead_start (shared : Shared) {pipeline : Pipeline}
    (h : Pipeline.Ordered c pipeline) : Ahead x ctx c (start shared pipeline) where
  ordered := h
  tracked := Connection.tracked_start shared
  calls_ids := List.nodup_nil
  calls_numbers := List.nodup_nil
  calls_lt := fun _ hcall => nomatch hcall
  named := fun _ hcall => nomatch hcall
  waits := fun _ hp => nomatch hp
  planned := fun _ hm => nomatch hm
  covered := fun _ hm => nomatch hm
  rejected := fun _ _ _ hk => nomatch hk

/-- What the connection does in a step is a step of it. -/
theorem conn_cases {op : Op} (hr : Renders s op) (hs : step x ctx c s op = some t) :
    t.conn = s.conn ∨ ∃ op', s.conn.Renders op' ∧ s.conn.step x ctx op' = some t.conn := by
  cases op with
  | relay op =>
    refine .inr ⟨op, hr, ?_⟩
    rcases relay_cases hs with ⟨settings, checks, rfl⟩ | ⟨-, -, conn, hconn, rfl⟩
    · simp only [step] at hs
      split_ifs at hs
      split at hs
      · cases hs
      · next conn hconn =>
        rw [hconn]
        split at hs
        · cases hs
          rfl
        · obtain ⟨pipeline, -, rfl⟩ := Option.map_eq_some_iff.1 hs
          rfl
    · exact hconn
  | audit op =>
    obtain ⟨-, pipeline, -, rfl⟩ := audit_cases hs
    exact .inl rfl
  | committed id now instant =>
    simp only [step] at hs
    split at hs
    · cases hs
    · split at hs
      · cases hs
      · split at hs
        · next conn hpipeline hconn =>
          cases hs
          refine .inr ⟨_, ?_, hconn⟩
          exact trivial
        · cases hs

/-- A step that renders all its values keeps every audited request. -/
theorem kept_step (h : Connection.Kept x s.conn) {op : Op} (hr : Renders s op)
    (hs : step x ctx c s op = some t) : Connection.Kept x t.conn := by
  rcases conn_cases hr hs with heq | ⟨op', hr', hconn⟩
  · rw [heq]
    exact h
  · exact Connection.kept_step h hr' hconn

/-- What holds in a run, with what is kept, is what is to be shown. -/
theorem Ahead.writeAhead (h : Ahead x ctx c s) (hkept : Connection.Kept x s.conn) :
    WriteAhead x ctx c s where
  started := by
    intro m hm
    obtain ⟨task, htask, hfor⟩ := h.tracked.sent_started m hm
    obtain ⟨st, hst, rfl⟩ := List.mem_map.1 htask
    exact ⟨st, hst, hfor, hkept.planned st hst⟩
  covered := h.covered
  rejected := h.rejected
  planned := hkept.planned
  kept := hkept.kept

/-- **No change is ahead of its record**, in every run of a connection together with the audit
in which no task panics over a value that cannot be rendered. -/
theorem writeAhead_of_renders {life : List Trail.Op} {trail : Trail}
    (hlife : Machine.run (Trail.step c) Trail.init life = some trail)
    (hopen : trail.store.isSome) (mode : FailMode) (saved : ℕ) (shared : Shared) {ops : List Op}
    (hr : Machine.Meets (step x ctx c) Renders
      (start shared (Pipeline.start mode trail saved)) ops)
    (hrun : Machine.run (step x ctx c) (start shared (Pipeline.start mode trail saved)) ops =
      some t) : WriteAhead x ctx c t := by
  have hordered := Pipeline.ordered_start (Trail.chained_of_run hlife) hopen mode saved
  have hstep : ∀ s op t, (Ahead x ctx c s ∧ Connection.Kept x s.conn) → Renders s op →
      step x ctx c s op = some t → Ahead x ctx c t ∧ Connection.Kept x t.conn :=
    fun s op t h hr hs => ⟨ahead_step h.1 hs, kept_step h.2 hr hs⟩
  obtain ⟨hahead, hkept⟩ := Machine.run_invariant_of_meets hstep
    ⟨ahead_start shared hordered, Connection.kept_start x shared⟩ hr hrun
  exact hahead.writeAhead hkept

/-- A write in fail-closed mode: the writer commits the intent, and then the request goes, behind
the read of the node's name. -/
def closedRun : List Op :=
  [.relay (.receive Connection.plainWrite (.ok ())),
    .relay (.poll (Connection.plainSettings .failClosed) (.ok .anonymous)),
    .audit (.send 0), .audit .recv, .audit .tryRecvEmpty, .audit (.startBatch ⟨0⟩),
    .audit (.write true), .committed 0 ⟨0⟩ 0]

/-- A run in which a write is recorded, sent and answered before the connection closes. -/
theorem writeAhead_of_renders_closedRun : ∃ t,
    Machine.run (step Connection.plainTexts Connection.plainCtx plainCrates)
      (start Connection.noSessions (Pipeline.start .failClosed Trail.opened 0)) closedRun =
        some t ∧
      t.conn.sent.map Sent.id = [0, 0] ∧ t.calls = [(0, 0)] ∧
      WriteAhead Connection.plainTexts Connection.plainCtx plainCrates t := by
  obtain ⟨t, ht⟩ := Option.isSome_iff_exists.1
    (show (Machine.run (step Connection.plainTexts Connection.plainCtx plainCrates)
      (start Connection.noSessions (Pipeline.start .failClosed Trail.opened 0))
        closedRun).isSome = true from rfl)
  have hsent : (Machine.run (step Connection.plainTexts Connection.plainCtx plainCrates)
      (start Connection.noSessions (Pipeline.start .failClosed Trail.opened 0)) closedRun).map
        (fun t => (t.conn.sent.map Sent.id, t.calls)) = some ([0, 0], [(0, 0)]) := rfl
  rw [ht, Option.map_some, Option.some.injEq, Prod.mk.injEq] at hsent
  refine ⟨t, ht, hsent.1, hsent.2, writeAhead_of_renders (Trail.run_opened plainCrates) rfl
    .failClosed 0 Connection.noSessions ?_ ht⟩
  -- the one request that is planned writes no value
  refine ⟨trivial, fun t₁ h₁ => ⟨fun task htask => ?_, fun t₂ _ => ?_⟩⟩
  · obtain rfl := Option.some.inj h₁
    obtain rfl := Option.some.inj htask
    intro v hv
    obtain rfl : v = .empty := List.mem_singleton.1 hv
    trivial
  · exact Machine.meets_of_forall_mem _ (by simp [Renders]) t₂

/-! ### A request that cannot be planned -/

/-- The request is sent in fail-closed mode, and its task runs. -/
def structureRun (e : ExtensionObject) : List Op :=
  [.relay (.receive (Connection.structureWrite e) (.ok ())),
    .relay (.poll (Connection.plainSettings .failClosed) (.ok .anonymous))]

/-- The task of a request that cannot be planned panics. -/
theorem start_of_plan_eq_none {s : Connection} {task : Task} {settings : Settings}
    {checks : Except StatusCode UserIdentity} {e : ExtensionObject}
    (htask : task.request = Connection.structureWrite e)
    (hplan : AuditMap.plan x (Connection.structureWrite e) = none) :
    Connection.start x ctx s task settings checks =
      (s.withSessions (s.shared.sessions.modify settings.instant
        task.request.requestHeader.authenticationToken id)).panic := by
  have hprepare : ∀ client,
      prepare x settings s.shared.names client (Connection.structureWrite e) = none := by
    intro client
    rw [prepare, hplan]
    rfl
  have hforward : Connection.start x ctx s task settings checks =
      Connection.forward x ctx s task settings := by
    unfold Connection.start
    rw [htask]
    rfl
  have hsame : (s.withSessions (s.shared.sessions.modify settings.instant
      (Connection.structureWrite e).requestHeader.authenticationToken id)).shared.names =
        s.shared.names := rfl
  rw [hforward, Connection.forward]
  simp only [htask, hsame, hprepare]

/-- The request is audited, but it has no plan. -/
theorem request_without_plan : ∃ e t,
    Machine.run (step Connection.plainTexts Connection.plainCtx plainCrates)
      (start Connection.noSessions (Pipeline.start .failClosed Trail.opened 0))
        (structureRun e) = some t ∧
      isAudited (Connection.structureWrite e) ∧
      AuditMap.plan Connection.plainTexts (Connection.structureWrite e) = none ∧
      ¬ WriteAhead Connection.plainTexts Connection.plainCtx plainCrates t := by
  have hplan := Connection.plan_structureWrite Connection.plainTexts not_renderable_wideArgument
  generalize wideArgument = e at hplan
  set s : Connection := ({ shared := Connection.noSessions } : Connection).receive
    (Connection.structureWrite e) (.ok ()) with hs
  obtain ⟨u, hu, hcommitting, hstarted⟩ : ∃ u, s.step Connection.plainTexts Connection.plainCtx
      (.poll (Connection.plainSettings .failClosed) (.ok .anonymous)) = some u ∧
      u.committing = [] ∧ ∃ st ∈ u.started, st.task.request = Connection.structureWrite e := by
    refine ⟨_, rfl, ?_, ?_⟩
    · rw [start_of_plan_eq_none rfl hplan]
      rfl
    · rw [start_of_plan_eq_none rfl hplan]
      exact ⟨_, List.mem_singleton_self _, rfl⟩
  have hpoll : step Connection.plainTexts Connection.plainCtx plainCrates
      ⟨s, Pipeline.start .failClosed Trail.opened 0, []⟩ (.relay (.poll
        (Connection.plainSettings .failClosed) (.ok .anonymous))) =
      some ⟨u, Pipeline.start .failClosed Trail.opened 0, []⟩ := by
    have hasked : asked s u = none := by
      rw [asked, hcommitting]
      rfl
    simp only [step, hu, hasked]
    rfl
  refine ⟨e, _, (Machine.run_cons_eq_some _).2 ⟨_, rfl,
    (Machine.run_cons_eq_some _).2 ⟨_, hpoll, rfl⟩⟩, rfl, hplan, fun h => ?_⟩
  obtain ⟨st, hst, hrequest⟩ := hstarted
  obtain ⟨p, hp, -⟩ := h.planned st hst
  rw [hrequest, hplan] at hp
  cases hp

end Gateway

end AuditGateway
