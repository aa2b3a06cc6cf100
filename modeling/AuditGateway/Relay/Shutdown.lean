import AuditGateway.Relay.ConnectionTask
import AuditGateway.Relay.Summaries

set_option relaxedAutoImplicit false
set_option autoImplicit false

/-!
# The gateway stops

The gateway stops its targets one after the other and waits for their accept loops. Every
connection is a task of its own that nobody waits for: it sees that its target is stopped and ends
in its own time. Behind the last accept loop the gateway records that it has stopped, waits until
the audit has handled everything queued so far, and returns.

## Main definitions

* `GatewayRun`, `GatewayRun.Op`, `GatewayRun.step` — targets, connections, the audit, and the main
  task.
* `GatewayRun.Flushed` — every audited request that was sent has its outcome recorded and flushed.
* `GatewayRun.Safe` — the steps of a run in which nothing is in progress when the targets have
  stopped.

## Main results

* `GatewayRun.flushed_of_safe` — nothing is missing when such a run has returned.
* `GatewayRun.outcome_missing` — a change in flight at the stop has no outcome.
-/

namespace AuditGateway

/-! ## The state -/

/-- A connection of a target. -/
structure Served where
  target : ℕ
  ctx : Ctx
  task : ConnectionTask
  /-- The calls to the audit that tasks wait for, by request. -/
  calling : List (ℕ × ℕ) := []
  /-- The calls that have handed over the records of the connection, in that order. -/
  calls : List (ℕ × (ℕ × AuditEntry)) := []

namespace Served

/-- Calls to the audit are steps of their own. -/
def isQuiet : ConnectionTask.Op → Bool
  | .audited _ => false
  | _ => true

/-- A step of a connection. Tasks that are dropped at its end wait for nothing any more. -/
def step (x : Texts) (c : Served) (op : ConnectionTask.Op) : Option Served :=
  (c.task.step x c.ctx op).map fun task =>
    { c with
      task := task
      calling :=
        match op with
        | .closeTimeout => []
        | _ => c.calling }

/-- The records of a request that were handed to the audit, with their calls. -/
def records (c : Served) (id : ℕ) : List (ℕ × AuditEntry) :=
  (c.calls.filter fun p => p.2.1 = id).map fun p => (p.1, p.2.2)

/-- No audited request is in progress on the connection. -/
def Idle (c : Served) : Prop :=
  (∀ p ∈ c.task.conn.committing, ¬ isAudited p.1.request) ∧
    (∀ p ∈ c.task.conn.awaiting, ¬ isAudited p.1.request) ∧ c.task.recording = []

end Served

/-- Where the main task stands. -/
inductive Main
  | serving
  /-- Targets are stopped; these are left. -/
  | stopping (left : List ℕ)
  /-- Waits for the accept loop of the target. -/
  | joining (target : ℕ) (left : List ℕ)
  /-- Waits for the commit of the last record. -/
  | recording (call : ℕ)
  | flushing (call : ℕ)
  | returned

/-- The call to the audit that the main task waits for. -/
def Main.call : Main → Option ℕ
  | recording call => some call
  | flushing call => some call
  | _ => none

/-- All targets have stopped. -/
def Main.Stopped : Main → Prop
  | recording _ => True
  | flushing _ => True
  | returned => True
  | _ => False

/-- The gateway in a run up to its end: pipeline, connections and the step of its shutdown. -/
structure GatewayRun where
  pipeline : Pipeline
  main : Main := .serving
  /-- The number of targets started so far. -/
  started : ℕ := 0
  /-- The targets that are running. -/
  running : List ℕ := []
  /-- The targets that are told to stop. -/
  shutdown : List ℕ := []
  /-- The targets whose accept loop has not ended. -/
  accepting : List ℕ := []
  served : List Served := []

namespace GatewayRun

/-- What can happen. -/
inductive Op
  /-- The audit and its other callers. -/
  | audit (op : Pipeline.Op)
  /-- A target is started. -/
  | startTarget
  /-- A target is stopped for good, or to be started again. -/
  | stopTarget (target : ℕ)
  /-- A client connects. -/
  | accept (target : ℕ) (ctx : Ctx) (shared : Shared)
  /-- An accept loop ends. -/
  | endLoop (target : ℕ)
  /-- Something happens on a connection, other than a call to the audit. -/
  | connection (i : ℕ) (op : ConnectionTask.Op)
  /-- A task hands its next record to the audit; `committed` says that it asks for the commit,
  `waits` that there is no room at once. -/
  | hand (i id : ℕ) (committed waits : Bool)
  /-- That call returns. -/
  | handed (i id : ℕ)
  /-- The gateway is told to stop. -/
  | stopAll
  /-- The next target is told to stop. -/
  | cancel
  /-- The accept loop of that target has ended. -/
  | join
  /-- All targets have stopped. -/
  | stopped (now : DateTime)
  /-- The last record is committed, or failed to be. -/
  | recorded
  /-- The audit has handled everything queued so far. -/
  | flushed

/-! ## One step -/

/-- Callers that wait for the audit are not dropped. -/
def permits (s : GatewayRun) : Pipeline.Op → Bool
  | .cancel k =>
    k ∉ s.served.flatMap (fun c => c.calling.map Prod.snd) ∧ s.main.call ≠ some k
  | _ => true

/-- The main task goes on. -/
def stepMain (c : Crates) (s : GatewayRun) : Op → Option GatewayRun
  | .stopAll =>
    match s.main with
    | .serving => some { s with main := .stopping s.running, running := [] }
    | _ => none
  | .cancel =>
    match s.main with
    | .stopping (target :: left) =>
      some { s with main := .joining target left, shutdown := s.shutdown ++ [target] }
    | _ => none
  | .join =>
    match s.main with
    | .joining target left =>
      if target ∉ s.accepting then some { s with main := .stopping left } else none
    | _ => none
  | .stopped now =>
    match s.main with
    | .stopping [] =>
      (s.pipeline.step c (.recordCommitted (AuditEntry.new now .gatewayStopped))).map
        fun pipeline => { s with pipeline := pipeline, main := .recording s.pipeline.calls }
    | _ => none
  | .recorded =>
    match s.main with
    | .recording call =>
      if Summaries.returned s.pipeline (some call) then
        (s.pipeline.step c .flush).map fun pipeline =>
          { s with pipeline := pipeline, main := .flushing s.pipeline.calls }
      else none
    | _ => none
  | .flushed =>
    match s.main with
    | .flushing call =>
      if call ∈ s.pipeline.flushed then some { s with main := .returned } else none
    | _ => none
  | _ => none

/-- One step of a gateway that runs. -/
def stepOn (x : Texts) (c : Crates) (s : GatewayRun) : Op → Option GatewayRun
  | .audit op =>
    if s.permits op then
      (s.pipeline.step c op).map fun pipeline => { s with pipeline := pipeline }
    else none
  | .startTarget =>
    some { s with
      started := s.started + 1
      running := s.running ++ [s.started]
      accepting := s.accepting ++ [s.started] }
  | .stopTarget target =>
    if target ∈ s.running then
      some { s with running := s.running.erase target, shutdown := s.shutdown ++ [target] }
    else none
  | .accept target ctx shared =>
    if target ∈ s.accepting then
      some { s with
        served := s.served ++ [⟨target, ctx, { conn := { shared := shared } }, [], []⟩] }
    else none
  | .endLoop target =>
    if target ∈ s.shutdown then some { s with accepting := s.accepting.erase target } else none
  | .connection i op =>
    match s.served[i]? with
    | some served =>
      if Served.isQuiet op then
        (served.step x op).map fun served => { s with served := s.served.set i served }
      else none
    | none => none
  | .hand i id committed waits =>
    match s.served[i]? with
    | some served =>
      match served.task.recording.find? fun p => p.1 = id with
      | some (_, entry) =>
        if served.task.conn.loop.polls ∧ id ∉ served.calling.map Prod.fst then
          (s.pipeline.step c
            (if committed then .recordCommitted entry else .record entry waits)).map
            fun pipeline =>
              { s with
                pipeline := pipeline
                served := s.served.set i
                  { served with calling := served.calling ++ [(id, s.pipeline.calls)] } }
        else none
      | none => none
    | none => none
  | .handed i id =>
    match s.served[i]? with
    | some served =>
      match served.calling.find? (fun p => p.1 = id),
        served.task.recording.find? (fun p => p.1 = id),
          served.task.step x served.ctx (.audited id) with
      | some (_, call), some p, some task =>
        if Summaries.returned s.pipeline (some call) then
          some { s with
            served := s.served.set i
              { served with
                task := task
                calling := served.calling.eraseP fun p => p.1 = id
                calls := served.calls ++ [(call, p)] } }
        else none
      | _, _, _ => none
    | none => none
  | op => s.stepMain c op

/-- One step. Nothing happens any more when the main task has returned. -/
def step (x : Texts) (c : Crates) (s : GatewayRun) (op : Op) : Option GatewayRun :=
  match s.main with
  | .returned => none
  | _ => s.stepOn x c op

/-! ## What is recorded when the gateway returns -/

/-- The record was handed to the audit with the call, and the audit is done with it: it is
stored, or its batch has failed, or there was no room for it for too long. -/
structure Handled (p : Pipeline) (call : ℕ) (entry : AuditEntry) : Prop where
  handed : call < p.calls
  held : call ∉ p.holding.map Command.id
  queued : ∀ item ∈ items p.queued, item.id = call → item.entry = entry ∧
    (call ∈ p.log.map Prod.fst ∨ call ∈ p.failed)

/-- Every audited request that was handed over upstream has the records of its outcome, and the
audit is done with them. -/
def Flushed (x : Texts) (s : GatewayRun) : Prop :=
  ∀ c ∈ s.served, ∀ st ∈ c.task.conn.started, isAudited st.task.request →
    c.task.conn.sent.any (Sent.isRequest st.task.id) → ∃ result,
      c.task.results st.task.id = [result] ∧
      RecordedFor x c.ctx st ((c.records st.task.id).map Prod.snd) result ∧
      ∀ p ∈ c.records st.task.id, Handled s.pipeline p.1 p.2

/-- The steps of a run in which no audited request is in progress when all targets have stopped,
and none is started from then on. On every connection values can be rendered, the channel answers
"not connected" only for requests that never leave, and nothing is left to do at its end. -/
def Safe (s : GatewayRun) : Op → Prop
  | .connection i op => ∀ c ∈ s.served[i]?, c.task.Assumed op ∧
      (s.main.Stopped → ∀ settings checks, op = .relay (.poll settings checks) →
        ∀ task ∈ c.task.conn.fresh.head?, ¬ isAudited task.request)
  | .stopped _ => ∀ c ∈ s.served, c.Idle
  | _ => True

end GatewayRun

/-! ## The task that moves -/

namespace Connection

variable {x : Texts} {ctx : Ctx} {s t : Connection}

/-- The request whose task moves in a step. -/
def mover (s : Connection) : Op → Option ℕ
  | .poll .. => s.fresh.head?.map (·.id)
  | .committed id .. => some id
  | .answer id .. => some id
  | _ => none

/-- What waits for something else has moved. -/
structure Waits (id : Option ℕ) (s t : Connection) : Prop where
  committing : ∀ p ∈ t.committing, p ∈ s.committing ∨ id = some p.1.id
  awaiting : ∀ p ∈ t.awaiting, p ∈ s.awaiting ∨ id = some p.1.id

/-- Where less is being committed and awaited, nothing new waits. -/
theorem Waits.of_subset {id : Option ℕ} (hcommitting : t.committing ⊆ s.committing)
    (hawaiting : t.awaiting ⊆ s.awaiting) : Waits id s t :=
  ⟨fun _ hp => .inl (hcommitting hp), fun _ hp => .inl (hawaiting hp)⟩

/-- What is new behind a state is new behind one with less in flight only. -/
theorem Waits.mono {id : Option ℕ} {u : Connection} (h : Waits id s t)
    (hcommitting : s.committing ⊆ u.committing) (hawaiting : s.awaiting ⊆ u.awaiting) :
    Waits id u t :=
  ⟨fun p hp => (h.committing p hp).imp_left fun hmem => hcommitting hmem,
    fun p hp => (h.awaiting p hp).imp_left fun hmem => hawaiting hmem⟩

/-- In a step that keeps both, nothing new waits. -/
theorem Frame.waits (h : Frame s t) (id : Option ℕ) : Waits id s t := by
  refine .of_subset ?_ ?_
  · rw [h.committing]
    exact List.Subset.refl _
  · rw [h.awaiting]
    exact List.Subset.refl _

/-- Nothing new waits behind a panic. -/
theorem waits_panic (s : Connection) (id : Option ℕ) : Waits id s s.panic := by
  unfold panic
  split_ifs
  · exact .of_subset (List.nil_subset _) (List.nil_subset _)
  · exact .of_subset (List.Subset.refl _) (List.Subset.refl _)

/-- Only the task itself is new among what waits when it is handed over. -/
theorem waits_handed (s : Connection) (task : Task) (awaiting : Awaiting)
    (preRead : Option PreRead) : Waits (some task.id) s (s.handed task awaiting preRead) := by
  refine ⟨fun p hp => .inl hp, fun p hp => ?_⟩
  rcases List.mem_append.1 hp with hp | hp
  · exact .inl hp
  · rw [List.mem_singleton.1 hp]
    exact .inr rfl

/-- Only the task itself is new among what waits behind `handOver`. -/
theorem waits_handOver (x : Texts) (ctx : Ctx) (s : Connection) (task : Task)
    (awaiting : Awaiting) (preRead : Option PreRead) (now : DateTime) (instant : ℕ) :
    Waits (some task.id) s (handOver x ctx s task awaiting preRead now instant) := by
  rcases handOver_cases x ctx s task awaiting preRead now instant with heq | hframe
  · rw [heq]
    exact waits_handed ..
  · exact hframe.waits _

/-- Only a task that was started is new among what waits. -/
theorem waits_start {settings : Settings} {task : Task} (h : StartCase x ctx settings task s t) :
    Waits (some task.id) s t := by
  cases h with
  | answered h => exact h.waits _
  | panicked u h hf ht =>
    rw [ht]
    refine (waits_panic u _).mono ?_ ?_
    · rw [h.committing]
      exact List.Subset.refl _
    · rw [h.awaiting]
      exact List.Subset.refl _
  | held u f entry h hf hentry ht =>
    rw [ht]
    refine ⟨fun p hp => ?_, fun p hp => ?_⟩
    · rcases List.mem_append.1 hp with hp | hp
      · rw [h.committing] at hp
        exact .inl hp
      · rw [List.mem_singleton.1 hp]
        exact .inr rfl
    · rw [← h.awaiting]
      exact .inl hp
  | sent u f awaiting preRead h hf hintent hawaiting ht =>
    rw [ht]
    refine (waits_handed ..).mono ?_ ?_
    · rw [h.committing]
      exact List.Subset.refl _
    · rw [h.awaiting]
      exact List.Subset.refl _

/-- Only the task that moves may wait for something else behind a step. -/
theorem waits_step {op : Op} (hs : step x ctx s op = some t) : Waits (s.mover op) s t := by
  cases op with
  | elsewhere shared =>
    cases hs
    exact .of_subset (List.Subset.refl _) (List.Subset.refl _)
  | receive message upstream =>
    rcases step_receive hs with ⟨-, rfl⟩ | ⟨-, rfl⟩
    · unfold receive
      dsimp only
      split_ifs
      · split <;> exact .of_subset (List.Subset.refl _) (List.Subset.refl _)
      · split <;> exact .of_subset (List.Subset.refl _) (List.Subset.refl _)
    · exact .of_subset (List.Subset.refl _) (List.Subset.refl _)
  | upstreamClosed =>
    cases hs
    exact .of_subset (List.Subset.refl _) (List.Subset.refl _)
  | close =>
    obtain ⟨-, rfl⟩ := step_close hs
    exact .of_subset (List.Subset.refl _) (List.Subset.refl _)
  | stop =>
    obtain ⟨-, rfl⟩ := step_stop hs
    exact .of_subset (List.Subset.refl _) (List.Subset.refl _)
  | finishAudited order =>
    obtain ⟨-, rfl⟩ := step_finishAudited hs
    exact .of_subset List.filter_sublist.subset List.filter_sublist.subset
  | giveUp =>
    obtain ⟨-, rfl⟩ := step_giveUp hs
    exact .of_subset (List.nil_subset _) (List.nil_subset _)
  | poll settings checks =>
    obtain ⟨task, fresh, hfresh, -, rfl⟩ := step_poll hs
    rw [mover, hfresh]
    exact (waits_start (start_cases _ settings checks)).mono (List.Subset.refl _)
      (List.Subset.refl _)
  | committed id ok now instant =>
    obtain ⟨task, f, entry, hfind, -, hcase⟩ := step_committed hs
    have hid : task.id = id := by simpa using List.find?_some hfind
    rcases hcase with ⟨-, rfl⟩ | ⟨-, rfl⟩
    · rw [mover, ← hid]
      exact (waits_handOver ..).mono List.eraseP_subset (List.Subset.refl _)
    · exact .of_subset List.eraseP_subset (List.Subset.refl _)
  | answer id answer read checks now instant =>
    obtain ⟨task, awaiting, hfind, -, rfl⟩ := step_answer hs
    rcases frame_complete x ctx { s with awaiting := s.awaiting.eraseP fun p => p.1.id = id }
      task awaiting answer read checks now instant with hframe | ⟨heq, -⟩
    · exact (hframe.waits _).mono (List.Subset.refl _) List.eraseP_subset
    · rw [heq]
      exact (waits_panic ..).mono (List.Subset.refl _) List.eraseP_subset

/-- Only the task that moves records something. -/
theorem recorded_step {op : Op} (hs : step x ctx s op = some t) :
    ∃ l, t.recorded = s.recorded ++ l ∧ ∀ p ∈ l, s.mover op = some p.1 := by
  have hsame : ∀ {u : Connection}, u.recorded = s.recorded →
      ∃ l, u.recorded = s.recorded ++ l ∧ ∀ p ∈ l, s.mover op = some p.1 :=
    fun h => ⟨[], by rw [h, List.append_nil], fun _ hp => nomatch hp⟩
  have hmap : ∀ {u : Connection} {task : Task}, s.mover op = some task.id →
      (∃ l : List AuditEntry, u.recorded = s.recorded ++ l.map (Prod.mk task.id)) →
      ∃ l, u.recorded = s.recorded ++ l ∧ ∀ p ∈ l, s.mover op = some p.1 := by
    rintro u task hmover ⟨l, hl⟩
    refine ⟨_, hl, fun p hp => ?_⟩
    obtain ⟨entry, -, rfl⟩ := List.mem_map.1 hp
    exact hmover
  cases op with
  | elsewhere shared =>
    cases hs
    exact hsame rfl
  | receive message upstream =>
    rcases step_receive hs with ⟨-, rfl⟩ | ⟨-, rfl⟩
    · unfold receive
      dsimp only
      split_ifs
      · split <;> exact hsame rfl
      · split <;> exact hsame rfl
    · exact hsame rfl
  | upstreamClosed =>
    cases hs
    exact hsame rfl
  | close =>
    obtain ⟨-, rfl⟩ := step_close hs
    exact hsame rfl
  | stop =>
    obtain ⟨-, rfl⟩ := step_stop hs
    exact hsame rfl
  | finishAudited order =>
    obtain ⟨-, rfl⟩ := step_finishAudited hs
    exact hsame rfl
  | giveUp =>
    obtain ⟨-, rfl⟩ := step_giveUp hs
    exact hsame rfl
  | poll settings checks =>
    obtain ⟨task, fresh, hfresh, -, rfl⟩ := step_poll hs
    refine hmap ?_ (recorded_start x ctx _ task settings checks)
    rw [mover, hfresh]
    rfl
  | committed id ok now instant =>
    obtain ⟨task, f, entry, hfind, -, hcase⟩ := step_committed hs
    have hid : task.id = id := by simpa using List.find?_some hfind
    rcases hcase with ⟨-, rfl⟩ | ⟨-, rfl⟩
    · refine hmap (by rw [mover, hid]) ?_
      obtain ⟨l, hl⟩ := recorded_handOver x ctx
        (record { s with committing := s.committing.eraseP fun p => p.1.id = id } id entry) task
        (.forward f) f.preRead now instant
      refine ⟨entry :: l, hl.trans ?_⟩
      rw [record, hid, List.map_cons, List.append_assoc]
      rfl
    · exact hsame rfl
  | answer id answer read checks now instant =>
    obtain ⟨task, awaiting, hfind, -, rfl⟩ := step_answer hs
    have hid : task.id = id := by simpa using List.find?_some hfind
    exact hmap (by rw [mover, hid]) (recorded_complete x ctx
      { s with awaiting := s.awaiting.eraseP fun p => p.1.id = id } task awaiting answer read
      checks now instant)

/-- A task starts when it runs for the first time. -/
theorem started_step {op : Op} (hs : step x ctx s op = some t) :
    ∀ st ∈ t.started, st ∈ s.started ∨
      (∃ settings checks, op = .poll settings checks) ∧ s.fresh.head? = some st.task := by
  intro st hst
  by_cases hpoll : ∃ settings checks, op = .poll settings checks
  · obtain ⟨settings, checks, rfl⟩ := hpoll
    obtain ⟨task, fresh, hfresh, -, rfl⟩ := step_poll hs
    rw [started_start, List.mem_append, List.mem_singleton] at hst
    refine hst.imp_right fun heq => ⟨⟨settings, checks, rfl⟩, ?_⟩
    rw [heq, hfresh]
    rfl
  · left
    by_cases hcommitted : ∃ id ok now instant, op = .committed id ok now instant
    · obtain ⟨id, ok, now, instant, rfl⟩ := hcommitted
      obtain ⟨task, f, entry, hfind, -, hcase⟩ := step_committed hs
      rcases hcase with ⟨-, rfl⟩ | ⟨-, rfl⟩
      · rcases handOver_cases x ctx
          (record { s with committing := s.committing.eraseP fun p => p.1.id = id } id entry)
          task (.forward f) f.preRead now instant with heq | hframe
        · rw [heq] at hst
          exact hst
        · rw [hframe.started] at hst
          exact hst
      · exact hst
    · have hquiet := quiet_step (fun settings checks heq => hpoll ⟨settings, checks, heq⟩)
        (fun id ok now instant heq => hcommitted ⟨id, ok, now, instant, heq⟩) hs
      rwa [hquiet.started] at hst

end Connection

namespace ConnectionTask

open Connection (Tracked Free)

variable {x : Texts} {ctx : Ctx} {s t : ConnectionTask} {id : ℕ}

/-- The outcomes of a step are among the records that it adds. -/
theorem outcomes_subset {a b : Connection} {op : Connection.Op} {l : List (ℕ × AuditEntry)}
    (h : b.recorded = a.recorded ++ l) : outcomes a b op ⊆ l := by
  have hdrop : b.recorded.drop a.recorded.length = l := by rw [h, List.drop_left]
  unfold outcomes
  split
  · rw [hdrop]
    exact List.tail_subset l
  · rw [hdrop]
    exact List.Subset.refl l

/-- Nothing new is to be done for a request whose task does not move. -/
theorem Done.apply (h : Done s id) {op : Connection.Op} (hne : s.conn.mover op ≠ some id)
    (hs : s.apply x ctx op = some t) : Done t id := by
  obtain ⟨c, hc, rfl⟩ := apply_eq_some.1 hs
  have hwaits := Connection.waits_step hc
  obtain ⟨l, hl, hmover⟩ := Connection.recorded_step hc
  refine ⟨⟨fun p hp hid => ?_, fun p hp hid => ?_⟩, fun p hp hid => ?_⟩
  · rcases hwaits.committing p hp with hp | hp
    · exact h.free.committing p hp hid
    · exact hne (hp.trans (by rw [hid]))
  · rcases hwaits.awaiting p hp with hp | hp
    · exact h.free.awaiting p hp hid
    · exact hne (hp.trans (by rw [hid]))
  · rcases List.mem_append.1 hp with hp | hp
    · exact h.recorded p hp hid
    · exact hne ((hmover p (outcomes_subset hl hp)).trans (by rw [hid]))

/-- A task that has run and for which nothing is left to do does not move. -/
theorem mover_ne (htracked : Tracked s.conn) {st : Started} (hst : st ∈ s.conn.started)
    (hdone : Done s st.task.id) {op : Connection.Op} {c : Connection}
    (hc : s.conn.step x ctx op = some c) : s.conn.mover op ≠ some st.task.id := by
  intro heq
  cases op with
  | poll settings checks =>
    obtain ⟨task, fresh, hfresh, -, -⟩ := Connection.step_poll hc
    rw [Connection.mover, hfresh] at heq
    exact htracked.new_of_fresh hfresh st hst (Option.some.inj heq).symm
  | committed id ok now instant =>
    obtain rfl : id = st.task.id := Option.some.inj heq
    obtain ⟨task, f, entry, hfind, -, -⟩ := Connection.step_committed hc
    exact hdone.free.committing _ (List.mem_of_find?_eq_some hfind)
      (by simpa using List.find?_some hfind)
  | answer id answer read checks now instant =>
    obtain rfl : id = st.task.id := Option.some.inj heq
    obtain ⟨task, awaiting, hfind, -, -⟩ := Connection.step_answer hc
    exact hdone.free.awaiting _ (List.mem_of_find?_eq_some hfind)
      (by simpa using List.find?_some hfind)
  | _ => cases heq

/-- What is done stays done. -/
theorem Done.step (htracked : Tracked s.conn) {st : Started} (hst : st ∈ s.conn.started)
    (hdone : Done s st.task.id) {op : Op} (hs : s.step x ctx op = some t) :
    Done t st.task.id := by
  have happly : ∀ {u : ConnectionTask} {op : Connection.Op}, s.apply x ctx op = some u →
      Done u st.task.id := by
    intro u op hu
    obtain ⟨c, hc, -⟩ := apply_eq_some.1 hu
    exact hdone.apply (mover_ne htracked hst hdone hc) hu
  cases op with
  | relay op =>
    simp only [ConnectionTask.step] at hs
    split_ifs at hs
    exact happly hs
  | write id =>
    simp only [ConnectionTask.step] at hs
    split_ifs at hs
    cases hs
    exact ⟨hdone.free, hdone.recorded⟩
  | returned id result read checks now instant =>
    obtain ⟨u, hu, rfl⟩ := Option.map_eq_some_iff.1 hs
    exact ⟨(happly hu).free, (happly hu).recorded⟩
  | audited id =>
    simp only [ConnectionTask.step] at hs
    split at hs
    · split_ifs at hs
      cases hs
      exact ⟨hdone.free, fun p hp => hdone.recorded p (List.mem_of_mem_eraseP hp)⟩
    · cases hs
  | drained =>
    simp only [ConnectionTask.step] at hs
    split_ifs at hs
    exact happly hs
  | drainTimeout =>
    simp only [ConnectionTask.step] at hs
    split_ifs at hs
    obtain ⟨u, hu, rfl⟩ := Option.map_eq_some_iff.1 hs
    exact ⟨(happly hu).free, (happly hu).recorded⟩
  | closeTimeout =>
    simp only [ConnectionTask.step] at hs
    split_ifs at hs
    obtain ⟨u, hu, rfl⟩ := Option.map_eq_some_iff.1 hs
    exact ⟨(happly hu).free, fun _ hp => by cases hp⟩

/-- The requests whose tasks have run. -/
theorem started_step {op : Op} (hs : s.step x ctx op = some t) :
    ∀ st ∈ t.conn.started, st ∈ s.conn.started ∨
      (∃ settings checks, op = .relay (.poll settings checks)) ∧
        s.conn.fresh.head? = some st.task := by
  have happly : ∀ {u : ConnectionTask} {op : Connection.Op}, s.apply x ctx op = some u →
      ∀ st ∈ u.conn.started, st ∈ s.conn.started ∨
        (∃ settings checks, op = .poll settings checks) ∧ s.conn.fresh.head? = some st.task := by
    intro u op hu
    obtain ⟨c, hc, rfl⟩ := apply_eq_some.1 hu
    exact Connection.started_step hc
  intro st hst
  cases op with
  | relay op =>
    simp only [ConnectionTask.step] at hs
    split_ifs at hs
    refine (happly hs st hst).imp_right fun h => ⟨?_, h.2⟩
    obtain ⟨settings, checks, rfl⟩ := h.1
    exact ⟨settings, checks, rfl⟩
  | write id =>
    simp only [ConnectionTask.step] at hs
    split_ifs at hs
    cases hs
    exact .inl hst
  | returned id result read checks now instant =>
    obtain ⟨u, hu, rfl⟩ := Option.map_eq_some_iff.1 hs
    refine .inl ((happly hu st hst).resolve_right ?_)
    rintro ⟨⟨settings, checks, hop⟩, -⟩
    cases hop
  | audited id =>
    simp only [ConnectionTask.step] at hs
    split at hs
    · split_ifs at hs
      cases hs
      exact .inl hst
    · cases hs
  | drained =>
    simp only [ConnectionTask.step] at hs
    split_ifs at hs
    refine .inl ((happly hs st hst).resolve_right ?_)
    rintro ⟨⟨settings, checks, hop⟩, -⟩
    cases hop
  | drainTimeout =>
    simp only [ConnectionTask.step] at hs
    split_ifs at hs
    obtain ⟨u, hu, rfl⟩ := Option.map_eq_some_iff.1 hs
    refine .inl ((happly hu st hst).resolve_right ?_)
    rintro ⟨⟨settings, checks, hop⟩, -⟩
    cases hop
  | closeTimeout =>
    simp only [ConnectionTask.step] at hs
    split_ifs at hs
    obtain ⟨u, hu, rfl⟩ := Option.map_eq_some_iff.1 hs
    refine .inl ((happly hu st hst).resolve_right ?_)
    rintro ⟨⟨settings, checks, hop⟩, -⟩
    cases hop

end ConnectionTask

/-! ## Calls to the audit -/

namespace Pipeline

variable {c : Crates} {s t : Pipeline} {k : ℕ} {entry : AuditEntry}

/-- The call hands in this entry and no other. -/
structure Calls (s : Pipeline) (k : ℕ) (entry : AuditEntry) : Prop where
  lt : k < s.calls
  entry_eq : ∀ item ∈ items (s.holding ++ s.queued), item.id = k → item.entry = entry

/-- A step keeps the entry of a call. -/
theorem Calls.step (h : Calls s k entry) (hordered : Ordered c s) {op : Op}
    (hs : step c s op = some t) : Calls t k entry := by
  have hevolves := (evolves_step hordered hs).1
  refine ⟨Nat.lt_of_lt_of_le h.lt hevolves.calls_le, fun item hitem hid => ?_⟩
  rcases hevolves.items_old item hitem with hold | hnew
  · exact h.entry_eq item hold hid
  · have := h.lt
    omega

/-- Its caller does not wait for room any more. -/
def Released (s : Pipeline) (k : ℕ) : Prop := k ∉ s.holding.map Command.id

/-- A caller that does not wait for room does not wait for it later. -/
theorem Released.step (h : Released s k) (hlt : k < s.calls) (hordered : Ordered c s) {op : Op}
    (hs : step c s op = some t) : Released t k := by
  intro hmem
  obtain ⟨d, hd, rfl⟩ := List.mem_map.1 hmem
  rcases (queues_step hordered hs).holding d hd with hd | hd
  · exact h (List.mem_map_of_mem hd)
  · omega

/-- The flush is not queued yet, or what the call has queued is in front of it. -/
def Ahead (s : Pipeline) (f k : ℕ) : Prop :=
  .flush f ∈ s.holding ∨
    ∃ before behind, s.queued = before ++ .flush f :: behind ∧ k ∉ behind.map Command.id

/-- What is in front of a flush stays in front of it. -/
theorem Ahead.step {f : ℕ} (h : Ahead s f k) (hlt : k < s.calls) (hreleased : Released s k)
    (hordered : Ordered c s) {op : Op} (hcancel : op ≠ .cancel f)
    (hs : step c s op = some t) : Ahead t f k := by
  have hq := queues_step hordered hs
  obtain ⟨l, hl, hnew⟩ := hq.queued
  have hbehind : ∀ m : List Command, m ⊆ l → k ∉ m.map Command.id := by
    intro m hm hmem
    obtain ⟨d, hd, rfl⟩ := List.mem_map.1 hmem
    rcases hnew d (hm hd) with hd | hd
    · exact hreleased (List.mem_map_of_mem hd)
    · omega
  rcases h with hflush | ⟨before, behind, heq, hk⟩
  · refine (hq.flush f hcancel hflush).imp_right fun hqueued => ?_
    rw [hl] at hqueued
    rcases List.mem_append.1 hqueued with hold | hmem
    · exact absurd rfl (hordered.id_ne_of_holding hflush hold)
    · obtain ⟨before, behind, rfl⟩ := List.append_of_mem hmem
      refine ⟨s.queued ++ before, behind, by rw [hl, List.append_assoc], hbehind behind ?_⟩
      exact fun d hd => List.mem_append_right _ (List.mem_cons_of_mem _ hd)
  · refine .inr ⟨before, behind ++ l, by rw [hl, heq, List.append_assoc, List.cons_append], ?_⟩
    rw [List.map_append, List.mem_append, not_or]
    exact ⟨hk, hbehind l (List.Subset.refl l)⟩

/-- What is in front of an answered flush is handled. -/
theorem Ahead.handled {f : ℕ} (h : Ahead s f k) (hordered : Ordered c s) (hf : f ∈ s.flushed)
    {item : Item} (hitem : item ∈ items s.queued) (hid : item.id = k) :
    k ∈ s.log.map Prod.fst ∨ k ∈ s.failed := by
  have hpast : Command.flush f ∈ s.queued :=
    hordered.past_prefix.subset (hordered.flushed_ok f hf)
  rcases h with hflush | ⟨before, behind, heq, hk⟩
  · exact absurd rfl (hordered.id_ne_of_holding hflush hpast)
  · rw [← hid]
    refine hordered.flush_handled heq hf item ?_
    rw [heq, mem_items, List.mem_append, List.mem_cons] at hitem
    rw [mem_items]
    rcases hitem with hmem | hmem | hmem
    · exact hmem
    · cases hmem
    · refine absurd ?_ hk
      rw [← hid]
      exact List.mem_map_of_mem (f := Command.id) hmem

end Pipeline

/-- A call that hands in an entry. -/
theorem Pipeline.calls_record {c : Crates} {s t : Pipeline} (h : Pipeline.Ordered c s)
    {entry : AuditEntry} {committed waits : Bool}
    (hs : s.step c (if committed then .recordCommitted entry else .record entry waits) = some t) :
    t.Calls s.calls entry := by
  have hold : ∀ item ∈ items (s.holding ++ s.queued), item.id ≠ s.calls := by
    intro item hitem heq
    have hlt := h.calls_ok.fresh _ (mem_items.1 hitem)
    rw [← heq] at hlt
    exact Nat.lt_irrefl _ hlt
  have hhold : ∀ acked, (s.handIn.hold (.append ⟨s.calls, entry, acked⟩)).Calls s.calls entry := by
    refine fun acked => ⟨Nat.lt_succ_self _, fun item hitem hid => ?_⟩
    have hmem : Command.append item ∈ (s.holding ++ [.append ⟨s.calls, entry, acked⟩]) ++
        s.queued := mem_items.1 hitem
    rw [List.append_assoc, List.mem_append, List.mem_append, List.mem_singleton] at hmem
    rcases hmem with hmem | hmem | hmem
    · exact absurd hid (hold item (mem_items.2 (List.mem_append_left _ hmem)))
    · rw [Command.append.inj hmem]
    · exact absurd hid (hold item (mem_items.2 (List.mem_append_right _ hmem)))
  cases committed with
  | true =>
    cases hs
    exact hhold true
  | false =>
    have hs : s.step c (.record entry waits) = some t := hs
    simp only [Pipeline.step] at hs
    split at hs
    · split_ifs at hs
      cases hs
      refine ⟨Nat.lt_succ_self _, fun item hitem hid => ?_⟩
      have hmem : Command.append item ∈
          s.holding ++ (s.queued ++ [.append ⟨s.calls, entry, false⟩]) := mem_items.1 hitem
      rw [← List.append_assoc, List.mem_append, List.mem_singleton] at hmem
      rcases hmem with hmem | hmem
      · exact absurd hid (hold item (mem_items.2 hmem))
      · rw [Command.append.inj hmem]
    · cases hs
      exact hhold false
    · cases hs
      exact hhold true

/-! ## The connections of a running gateway -/

namespace Served

open ConnectionTask (Done)

variable {x : Texts} {c : Crates} {p p' : Pipeline} {main main' : Main} {v v' : Served}

/-- What holds of a connection in every state. -/
structure Ok (x : Texts) (p : Pipeline) (main : Main) (v : Served) : Prop where
  task : ConnectionTask.Inv x v.ctx v.task
  handed : v.calls.map Prod.snd = v.task.handed
  calling : ∀ q ∈ v.calling, ∃ e, v.task.recording.find? (fun e => e.1 = q.1) = some e ∧
    p.Calls q.2 e.2
  nodup : (v.calling.map Prod.fst).Nodup
  calls : ∀ q ∈ v.calls, p.Calls q.1 q.2.2 ∧ p.Released q.1
  done : main.Stopped → ∀ st ∈ v.task.conn.started, isAudited st.task.request →
    Done v.task st.task.id
  ahead : ∀ f, main = .flushing f → ∀ st ∈ v.task.conn.started, isAudited st.task.request →
    ∀ q ∈ v.records st.task.id, p.Ahead f q.1

/-- A record of a connection is one of the calls. -/
theorem mem_calls_of_mem_records {id : ℕ} {q : ℕ × AuditEntry} (h : q ∈ v.records id) :
    (q.1, (id, q.2)) ∈ v.calls := by
  obtain ⟨⟨k, i, entry⟩, hmem, rfl⟩ := List.mem_map.1 h
  obtain ⟨hcalls, hid⟩ := List.mem_filter.1 hmem
  obtain rfl : i = id := of_decide_eq_true hid
  exact hcalls

/-- The records of a request are what its task has handed over. -/
theorem Ok.records_eq (h : Ok x p main v) (id : ℕ) :
    (v.records id).map Prod.snd = v.task.records id := by
  rw [records, ConnectionTask.records, ← h.handed, List.filter_map, List.map_map, List.map_map]
  rfl

/-- The audit moves on. -/
theorem Ok.pipeline (h : Ok x p main v) (hordered : Pipeline.Ordered c p) {op : Pipeline.Op}
    (hcancel : ∀ f, main = .flushing f → op ≠ .cancel f) (hs : p.step c op = some p') :
    Ok x p' main v where
  task := h.task
  handed := h.handed
  calling q hq := by
    obtain ⟨e, he, hcalls⟩ := h.calling q hq
    exact ⟨e, he, hcalls.step hordered hs⟩
  nodup := h.nodup
  calls q hq := by
    obtain ⟨hcalls, hreleased⟩ := h.calls q hq
    exact ⟨hcalls.step hordered hs, hreleased.step hcalls.lt hordered hs⟩
  done := h.done
  ahead f hf st hst haudited q hq := by
    obtain ⟨hcalls, hreleased⟩ := h.calls _ (mem_calls_of_mem_records hq)
    exact (h.ahead f hf st hst haudited q hq).step hcalls.lt hreleased hordered (hcancel f hf) hs

/-- The main task moves on. -/
theorem Ok.goOn (h : Ok x p main v)
    (hdone : main'.Stopped → ∀ st ∈ v.task.conn.started, isAudited st.task.request →
      Done v.task st.task.id)
    (hahead : ∀ f, main' = .flushing f → ∀ st ∈ v.task.conn.started, isAudited st.task.request →
      ∀ q ∈ v.records st.task.id, p.Ahead f q.1) : Ok x p main' v :=
  { h with done := hdone, ahead := hahead }

/-- Records that are there stay the first ones. -/
theorem recording_step {s t : ConnectionTask} {ctx : Ctx} {op : ConnectionTask.Op}
    (hquiet : isQuiet op) (hclose : op ≠ .closeTimeout) (hs : s.step x ctx op = some t) :
    t.handed = s.handed ∧ ∃ l, t.recording = s.recording ++ l := by
  have happly : ∀ {u : ConnectionTask} {op : Connection.Op}, s.apply x ctx op = some u →
      u.handed = s.handed ∧ ∃ l, u.recording = s.recording ++ l := by
    intro u op hu
    obtain ⟨c, hc, rfl⟩ := ConnectionTask.apply_eq_some.1 hu
    exact ⟨rfl, _, rfl⟩
  cases op with
  | relay op =>
    simp only [ConnectionTask.step] at hs
    split_ifs at hs
    exact happly hs
  | write id =>
    simp only [ConnectionTask.step] at hs
    split_ifs at hs
    cases hs
    exact ⟨rfl, [], (List.append_nil _).symm⟩
  | returned id result read checks now instant =>
    obtain ⟨u, hu, rfl⟩ := Option.map_eq_some_iff.1 hs
    have hsame := happly hu
    exact hsame
  | audited id => cases hquiet
  | drained =>
    simp only [ConnectionTask.step] at hs
    split_ifs at hs
    exact happly hs
  | drainTimeout =>
    simp only [ConnectionTask.step] at hs
    split_ifs at hs
    obtain ⟨u, hu, rfl⟩ := Option.map_eq_some_iff.1 hs
    have hsame := happly hu
    exact hsame
  | closeTimeout => exact absurd rfl hclose

/-- Something happens on the connection. -/
theorem Ok.step (h : Ok x p main v) {op : ConnectionTask.Op} (hquiet : isQuiet op)
    (hassumed : v.task.Assumed op)
    (hlate : main.Stopped → ∀ settings checks, op = .relay (.poll settings checks) →
      ∀ task ∈ v.task.conn.fresh.head?, ¬ isAudited task.request)
    (hs : v.step x op = some v') : Ok x p main v' := by
  obtain ⟨t, ht, rfl⟩ := Option.map_eq_some_iff.1 hs
  have hstarted := ConnectionTask.started_step ht
  -- behind the stop no audited task runs for the first time
  have hold : main.Stopped → ∀ st ∈ t.conn.started, isAudited st.task.request →
      st ∈ v.task.conn.started := by
    intro hstopped st hst haudited
    rcases hstarted st hst with hst | ⟨⟨settings, checks, hop⟩, hhead⟩
    · exact hst
    · exact absurd haudited (hlate hstopped settings checks hop _ hhead)
  have hhanded : t.handed = v.task.handed := by
    by_cases hclose : op = .closeTimeout
    · subst hclose
      simp only [ConnectionTask.step] at ht
      split_ifs at ht
      obtain ⟨u, hu, rfl⟩ := Option.map_eq_some_iff.1 ht
      obtain ⟨c, hc, rfl⟩ := ConnectionTask.apply_eq_some.1 hu
      rfl
    · exact (recording_step hquiet hclose ht).1
  refine ⟨ConnectionTask.inv_step h.task hassumed ht, h.handed.trans hhanded.symm, ?_, ?_, h.calls,
    fun hstopped st hst haudited => ?_, fun f hf st hst haudited => ?_⟩
  · by_cases hclose : op = .closeTimeout
    · subst hclose
      exact fun _ hq => by cases hq
    · obtain ⟨-, l, hl⟩ := recording_step hquiet hclose ht
      intro q hq
      have hq : q ∈ v.calling := by
        cases op with
        | closeTimeout => exact absurd rfl hclose
        | _ => exact hq
      obtain ⟨e, he, hcalls⟩ := h.calling q hq
      refine ⟨e, ?_, hcalls⟩
      show t.recording.find? _ = _
      rw [hl, List.find?_append, he, Option.some_or]
  · cases op with
    | closeTimeout => exact List.nodup_nil
    | _ => exact h.nodup
  · have hst := hold hstopped st hst haudited
    exact (h.done hstopped st hst haudited).step h.task.kept.tracked hst ht
  · exact h.ahead f hf st (hold (by rw [hf]; trivial) st hst haudited) haudited

/-- A record is handed to the audit. -/
theorem Ok.hand (h : Ok x p main v) {id k : ℕ} {e : ℕ × AuditEntry}
    (hfind : v.task.recording.find? (fun e => e.1 = id) = some e)
    (hid : id ∉ v.calling.map Prod.fst) (hcalls : p.Calls k e.2) :
    Ok x p main { v with calling := v.calling ++ [(id, k)] } := by
  refine { h with calling := fun q hq => ?_, nodup := ?_ }
  · rcases List.mem_append.1 hq with hq | hq
    · exact h.calling q hq
    · rw [List.mem_singleton.1 hq]
      exact ⟨e, hfind, hcalls⟩
  · show ((v.calling ++ [(id, k)]).map Prod.fst).Nodup
    rw [List.map_append, List.nodup_append]
    refine ⟨h.nodup, List.nodup_singleton _, fun a ha b hb hab => hid ?_⟩
    have hb : b = id := List.mem_singleton.1 hb
    rw [← hb, ← hab]
    exact ha

/-- Taking out the first element that is found hides no other. -/
theorem find?_eraseP_of_ne {α : Type*} {l : List (ℕ × α)} {e : ℕ × α} {id i : ℕ}
    (h : l.find? (fun e => e.1 = id) = some e) (hne : i ≠ id) :
    (l.eraseP fun e => e.1 = id).find? (fun e => e.1 = i) = l.find? fun e => e.1 = i := by
  have hid : e.1 = id := by simpa using List.find?_some h
  have hout : ¬ e.1 = i := by
    rw [hid]
    exact Ne.symm hne
  rw [← List.head?_filter, ← List.head?_filter, ← ConnectionTask.filter_cons_eraseP h i]
  simp [hout]

/-- The audit has taken a record. -/
theorem Ok.handedOver (h : Ok x p main v) {id k : ℕ} {e : ℕ × AuditEntry} {t : ConnectionTask}
    (hcalling : v.calling.find? (fun q => q.1 = id) = some (id, k))
    (hfind : v.task.recording.find? (fun e => e.1 = id) = some e)
    (ht : v.task.step x v.ctx (.audited id) = some t) (hreleased : p.Released k) :
    Ok x p main { v with
      task := t
      calling := v.calling.eraseP fun q => q.1 = id
      calls := v.calls ++ [(k, e)] } := by
  have hinv := ConnectionTask.inv_step h.task (by trivial) ht
  have hid : e.1 = id := by simpa using List.find?_some hfind
  have hstep := ht
  simp only [ConnectionTask.step, hfind] at ht
  split_ifs at ht
  cases ht
  obtain ⟨e', he', hcalls⟩ := h.calling _ (List.mem_of_find?_eq_some hcalling)
  obtain rfl : e = e' := Option.some.inj (hfind.symm.trans he')
  refine ⟨hinv, ?_, fun q hq => ?_, (List.eraseP_sublist.map _).nodup h.nodup, fun q hq => ?_,
    fun hstopped st hst haudited => ?_, fun f hf st hst haudited q hq => ?_⟩
  · show (v.calls ++ [(k, e)]).map Prod.snd = v.task.handed ++ [e]
    rw [List.map_append, h.handed]
    rfl
  · -- the other calls are for other requests
    have hq : q ∈ v.calling.eraseP fun q => q.1 = id := hq
    have hne : q.1 ≠ id := by
      intro heq
      have hperm := (Machine.perm_of_find? hcalling).map Prod.fst
      have hnodup := hperm.nodup_iff.1 h.nodup
      rw [List.map_cons, List.nodup_cons] at hnodup
      have hmem := List.mem_map_of_mem (f := Prod.fst) hq
      rw [heq] at hmem
      exact hnodup.1 hmem
    obtain ⟨e', he', hcalls'⟩ := h.calling q (List.mem_of_mem_eraseP hq)
    refine ⟨e', ?_, hcalls'⟩
    exact (find?_eraseP_of_ne hfind hne).trans he'
  · rcases List.mem_append.1 hq with hq | hq
    · exact h.calls q hq
    · rw [List.mem_singleton.1 hq]
      exact ⟨hcalls, hreleased⟩
  · exact (h.done hstopped st hst haudited).step h.task.kept.tracked hst hstep
  · have hstopped : main.Stopped := by
      rw [hf]
      trivial
    refine h.ahead f hf st hst haudited q ?_
    have hne : ¬ e.1 = st.task.id :=
      (h.done hstopped st hst haudited).recorded e (List.mem_of_find?_eq_some hfind)
    obtain ⟨a, ha, rfl⟩ := List.mem_map.1 hq
    refine List.mem_map.2 ⟨a, ?_, rfl⟩
    rw [List.filter_append] at ha
    rcases List.mem_append.1 ha with ha | ha
    · exact ha
    · obtain ⟨hmem, heq⟩ := List.mem_filter.1 ha
      rw [List.mem_singleton.1 hmem] at heq
      exact absurd (of_decide_eq_true heq) hne

end Served

/-! ## Nothing is missing when the gateway returns -/

namespace GatewayRun

variable {x : Texts} {c : Crates} {s t : GatewayRun}

/-- What holds of a running gateway in every state. -/
structure Inv (x : Texts) (c : Crates) (s : GatewayRun) : Prop where
  ordered : Pipeline.Ordered c s.pipeline
  served : ∀ v ∈ s.served, v.Ok x s.pipeline s.main
  returned : s.main = .returned → Flushed x s

/-- The audit moves on. -/
theorem Inv.pipeline (h : Inv x c s) {op : Pipeline.Op} {p : Pipeline}
    (hs : s.pipeline.step c op = some p) (hmain : s.main ≠ .returned)
    (hcancel : ∀ f, s.main = .flushing f → op ≠ .cancel f) : Inv x c { s with pipeline := p } where
  ordered := Pipeline.ordered_step h.ordered hs
  served v hv := (h.served v hv).pipeline h.ordered hcancel hs
  returned hreturned := absurd hreturned hmain

/-- A connection moves on. -/
theorem Inv.set (h : Inv x c s) (hmain : s.main ≠ .returned) {i : ℕ} {v : Served}
    (hv : v.Ok x s.pipeline s.main) : Inv x c { s with served := s.served.set i v } where
  ordered := h.ordered
  served w hw := by
    rcases List.mem_or_eq_of_mem_set hw with hw | rfl
    · exact h.served w hw
    · exact hv
  returned hreturned := absurd hreturned hmain

/-- The main task moves on. -/
theorem Inv.goOn (h : Inv x c s) (main : Main) (hreturned : main ≠ .returned)
    (hdone : main.Stopped → ∀ v ∈ s.served, ∀ st ∈ v.task.conn.started,
      isAudited st.task.request → v.task.Done st.task.id)
    (hahead : ∀ f, main = .flushing f → ∀ v ∈ s.served, ∀ st ∈ v.task.conn.started,
      isAudited st.task.request → ∀ q ∈ v.records st.task.id, s.pipeline.Ahead f q.1) :
    Inv x c { s with main := main } where
  ordered := h.ordered
  served v hv := (h.served v hv).goOn (fun hstopped => hdone hstopped v hv)
    fun f hf => hahead f hf v hv
  returned heq := absurd heq hreturned

/-- Targets are started and stopped. -/
theorem Inv.targets (h : Inv x c s) (started : ℕ) (running shutdown accepting : List ℕ) :
    Inv x c { s with
      started := started
      running := running
      shutdown := shutdown
      accepting := accepting } :=
  ⟨h.ordered, h.served, h.returned⟩

/-- On a connection without a request in progress nothing is left to do. -/
theorem done_of_idle {v : Served} (h : ConnectionTask.Inv x v.ctx v.task) (hidle : v.Idle) :
    ∀ st ∈ v.task.conn.started, isAudited st.task.request → v.task.Done st.task.id := by
  intro st hst haudited
  obtain ⟨hcommitting, hawaiting, hrecording⟩ := hidle
  have hsame : ∀ task ∈ v.task.conn.waitingTasks, task.id = st.task.id → task = st.task := by
    intro task htask hid
    obtain ⟨st', hst', rfl⟩ := List.mem_map.1 (h.kept.tracked.waiting_started task htask)
    rw [h.kept.tracked.started_eq hst' hst hid]
  refine ⟨⟨fun p hp hid => hcommitting p hp ?_, fun p hp hid => hawaiting p hp ?_⟩, ?_⟩
  · rwa [hsame p.1 (List.mem_append_left _ (List.mem_map_of_mem hp)) hid]
  · rwa [hsame p.1 (List.mem_append_right _ (List.mem_map_of_mem hp)) hid]
  · rw [hrecording]
    exact fun _ hp => nomatch hp

/-- When the flush is answered, nothing is missing. -/
theorem flushed_of_ahead (h : Inv x c s) {f : ℕ} (hmain : s.main = .flushing f)
    (hf : f ∈ s.pipeline.flushed) : Flushed x s := by
  intro v hv st hst haudited hsent
  have hok := h.served v hv
  have hdone := hok.done (by rw [hmain]; trivial) st hst haudited
  obtain ⟨result, hresults, hrecords⟩ := hok.task.sent_of_done hst haudited hdone hsent
  refine ⟨result, hresults, ?_, fun q hq => ?_⟩
  · rwa [hok.records_eq]
  · obtain ⟨hcalls, hreleased⟩ := hok.calls _ (Served.mem_calls_of_mem_records hq)
    refine ⟨hcalls.lt, hreleased, fun item hitem hid => ⟨hcalls.entry_eq item ?_ hid, ?_⟩⟩
    · rw [mem_items, List.mem_append]
      exact .inr (mem_items.1 hitem)
    · exact (hok.ahead f hmain st hst haudited q hq).handled h.ordered hf hitem hid

/-- The steps of the main task keep the invariant. -/
theorem inv_main (h : Inv x c s) {op : Op} (hsafe : Safe s op) (hmain : s.main ≠ .returned)
    (hs : s.stepMain c op = some t) : Inv x c t := by
  cases op with
  | stopAll =>
    simp only [stepMain] at hs
    split at hs
    · cases hs
      exact (h.goOn (.stopping s.running) (fun heq => nomatch heq) (fun hst => hst.elim)
        fun _ heq => nomatch heq).targets ..
    · cases hs
  | cancel =>
    simp only [stepMain] at hs
    split at hs
    · next target left _ =>
      cases hs
      exact (h.goOn (.joining target left) (fun heq => nomatch heq) (fun hst => hst.elim)
        fun _ heq => nomatch heq).targets ..
    · cases hs
  | join =>
    simp only [stepMain] at hs
    split at hs
    · next target left _ =>
      split_ifs at hs
      cases hs
      exact h.goOn (.stopping left) (fun heq => nomatch heq) (fun hst => hst.elim)
        fun _ heq => nomatch heq
    · cases hs
  | stopped now =>
    simp only [stepMain] at hs
    split at hs
    · next hstopping =>
      obtain ⟨p, hp, rfl⟩ := Option.map_eq_some_iff.1 hs
      have hpipeline := h.pipeline hp hmain fun _ _ heq => nomatch heq
      exact hpipeline.goOn _ (fun heq => nomatch heq)
        (fun _ v hv => done_of_idle (h.served v hv).task (hsafe v hv)) fun _ heq => nomatch heq
    · cases hs
  | recorded =>
    simp only [stepMain] at hs
    split at hs
    · next call hrecording =>
      split_ifs at hs
      obtain ⟨p, hp, rfl⟩ := Option.map_eq_some_iff.1 hs
      have hpipeline := h.pipeline hp hmain fun _ _ heq => nomatch heq
      refine hpipeline.goOn _ (fun heq => nomatch heq)
        (fun _ v hv => (h.served v hv).done (by rw [hrecording]; trivial)) ?_
      intro f hf v hv st hst haudited q hq
      obtain rfl : s.pipeline.calls = f := Main.flushing.inj hf
      cases hp
      exact .inl (List.mem_append_right _ (List.mem_singleton_self _))
    · cases hs
  | flushed =>
    simp only [stepMain] at hs
    split at hs
    · next call hflushing =>
      split_ifs at hs with hanswered
      cases hs
      have hflushed := flushed_of_ahead h hflushing hanswered
      refine ⟨h.ordered, fun v hv => (h.served v hv).goOn (fun _ => ?_) (fun _ heq => nomatch heq),
        fun _ => hflushed⟩
      exact (h.served v hv).done (by rw [hflushing]; trivial)
    · cases hs
  | _ => cases hs

/-- **Step lemma**: every safe step keeps track of what is left to do. -/
theorem inv_step (h : Inv x c s) {op : Op} (hsafe : Safe s op) (hs : s.step x c op = some t) :
    Inv x c t := by
  have hmain : s.main ≠ .returned := by
    intro heq
    rw [step, heq] at hs
    cases hs
  have hs : s.stepOn x c op = some t := by
    unfold step at hs
    split at hs
    · cases hs
    · exact hs
  cases op with
  | audit op =>
    simp only [stepOn] at hs
    split_ifs at hs with hpermits
    obtain ⟨p, hp, rfl⟩ := Option.map_eq_some_iff.1 hs
    refine h.pipeline hp hmain fun f hf hop => ?_
    rw [hop, permits, decide_eq_true_iff, hf] at hpermits
    exact hpermits.2 rfl
  | startTarget =>
    cases hs
    exact h.targets ..
  | stopTarget target =>
    simp only [stepOn] at hs
    split_ifs at hs
    cases hs
    exact h.targets ..
  | accept target ctx shared =>
    simp only [stepOn] at hs
    split_ifs at hs
    cases hs
    refine ⟨h.ordered, fun v hv => ?_, fun hreturned => absurd hreturned hmain⟩
    rcases List.mem_append.1 hv with hv | hv
    · exact h.served v hv
    · rw [List.mem_singleton.1 hv]
      exact ⟨ConnectionTask.inv_start x ctx shared, rfl, fun _ hq => (nomatch hq), List.nodup_nil,
        fun _ hq => (nomatch hq), fun _ _ hst => (nomatch hst), fun _ _ _ hst => nomatch hst⟩
  | endLoop target =>
    simp only [stepOn] at hs
    split_ifs at hs
    cases hs
    exact h.targets ..
  | connection i op =>
    simp only [stepOn] at hs
    split at hs
    · next v hv =>
      split_ifs at hs with hquiet
      obtain ⟨v', hv', rfl⟩ := Option.map_eq_some_iff.1 hs
      obtain ⟨hassumed, hlate⟩ := hsafe v hv
      exact h.set hmain ((h.served v (List.mem_of_getElem? hv)).step hquiet hassumed hlate hv')
    · cases hs
  | hand i id committed waits =>
    simp only [stepOn] at hs
    split at hs
    · next v hv =>
      split at hs
      · next _ entry hfind =>
        by_cases hguard : v.task.conn.loop.polls ∧ id ∉ v.calling.map Prod.fst
        · rw [if_pos hguard] at hs
          obtain ⟨p, hp, rfl⟩ := Option.map_eq_some_iff.1 hs
          have hpipeline := h.pipeline hp hmain fun f _ => by cases committed <;> nofun
          exact hpipeline.set hmain ((hpipeline.served v (List.mem_of_getElem? hv)).hand hfind
            hguard.2 (Pipeline.calls_record h.ordered hp))
        · rw [if_neg hguard] at hs
          cases hs
      · cases hs
    · cases hs
  | handed i id =>
    simp only [stepOn] at hs
    split at hs
    · next v hv =>
      split at hs
      · next i' call e task hcalling hfind htask =>
        split_ifs at hs with hreturned
        cases hs
        obtain rfl : i' = id := by simpa using List.find?_some hcalling
        exact h.set hmain ((h.served v (List.mem_of_getElem? hv)).handedOver hcalling hfind htask
          (of_decide_eq_true hreturned).1)
      · cases hs
    · cases hs
  | stopAll => exact inv_main h hsafe hmain hs
  | cancel => exact inv_main h hsafe hmain hs
  | join => exact inv_main h hsafe hmain hs
  | stopped now => exact inv_main h hsafe hmain hs
  | recorded => exact inv_main h hsafe hmain hs
  | flushed => exact inv_main h hsafe hmain hs

/-- A gateway that has just started. -/
def start (pipeline : Pipeline) : GatewayRun where
  pipeline := pipeline

/-- **Every outcome is recorded when the gateway returns**, in every run, with any targets,
connections and requests, in which no audited request is in progress when all targets have stopped
and none is started from then on. -/
theorem flushed_of_safe {life : List Trail.Op} {trail : Trail}
    (hlife : Machine.run (Trail.step c) Trail.init life = some trail) (hopen : trail.store.isSome)
    (mode : FailMode) (saved : ℕ) {ops : List Op}
    (hsafe : Machine.Meets (step x c) Safe (start (Pipeline.start mode trail saved)) ops)
    (hr : Machine.run (step x c) (start (Pipeline.start mode trail saved)) ops = some t)
    (hreturned : t.main = .returned) : Flushed x t := by
  have hstart : Inv x c (start (Pipeline.start mode trail saved)) := by
    refine ⟨Pipeline.ordered_start (Trail.chained_of_run hlife) hopen mode saved, ?_, ?_⟩
    · exact fun _ hv => nomatch hv
    · exact fun heq => nomatch heq
  exact (Machine.run_invariant_of_meets (fun _ _ _ h hop hs => inv_step h hop hs) hstart hsafe
    hr).returned hreturned

/-- A target with a client, whose write waits for its answer. -/
def writing : List Op :=
  [.startTarget, .accept 0 Connection.plainCtx Connection.noSessions,
    .connection 0 (.relay (.receive Connection.plainWrite (.ok ()))),
    .connection 0 (.relay (.poll (Connection.plainSettings .failOpen) (.ok .anonymous))),
    .connection 0 (.write 0)]

/-- The gateway stops with `k` records in the queue. -/
def stopping (k : ℕ) : List Op :=
  [.stopAll, .cancel, .endLoop 0, .join, .stopped ⟨0⟩, .audit (.send k)] ++
    List.replicate (k + 1) (.audit .recv) ++
    [.audit .tryRecvEmpty, .audit (.startBatch ⟨0⟩), .audit (.write true), .audit (.finish k),
      .recorded, .audit (.send (k + 1)), .audit .recv, .audit (.startBatch ⟨0⟩),
      .audit (.finishCommand true ⟨0⟩ ⟨0⟩), .flushed]

/-- The answer comes, and its record is handed over, before the gateway is told to stop. -/
def answeredRun : List Op :=
  writing ++ [.connection 0 (.returned 0 (.ok (.write ⟨1, .good⟩ (some [.good]))) none (.ok ())
      ⟨1⟩ 1), .hand 0 0 false false, .handed 0 0] ++ stopping 1

/-- The answer does not come before the gateway returns. -/
def unansweredRun : List Op := writing ++ stopping 0

/-- A shutdown behind one write that is answered: nothing is left behind. -/
theorem flushed_of_safe_answeredRun : ∃ t,
    Machine.run (step Connection.plainTexts plainCrates)
      (start (Pipeline.start .failOpen Trail.opened 0)) answeredRun = some t ∧
      t.served.map (fun v => (v.records 0).map Prod.fst) = [[0]] ∧
      t.pipeline.log.map Prod.fst = [0, 1] ∧ Flushed Connection.plainTexts t := by
  obtain ⟨t, ht⟩ := Option.isSome_iff_exists.1
    (show (Machine.run (step Connection.plainTexts plainCrates)
      (start (Pipeline.start .failOpen Trail.opened 0)) answeredRun).isSome = true from rfl)
  have hend : (Machine.run (step Connection.plainTexts plainCrates)
      (start (Pipeline.start .failOpen Trail.opened 0)) answeredRun).map (fun t =>
        (t.served.map (fun v => (v.records 0).map Prod.fst), t.pipeline.log.map Prod.fst, t.main)) =
      some ([[0]], [0, 1], .returned) := rfl
  rw [ht, Option.map_some, Option.some.injEq, Prod.mk.injEq, Prod.mk.injEq] at hend
  refine ⟨t, ht, hend.1, hend.2.1,
    flushed_of_safe (Trail.run_opened plainCrates) rfl .failOpen 0 ?_ ht hend.2.2⟩
  refine Machine.meets_cons_of_eq _ trivial rfl (Machine.meets_cons_of_eq _ trivial rfl
    (Machine.meets_cons_of_eq _ ?_ rfl (Machine.meets_cons_of_eq _ ?_ rfl
    (Machine.meets_cons_of_eq _ ?_ rfl (Machine.meets_cons_of_eq _ ?_ rfl
    (Machine.meets_cons_of_eq _ trivial rfl (Machine.meets_cons_of_eq _ trivial rfl
    (Machine.meets_cons_of_eq _ trivial rfl (Machine.meets_cons_of_eq _ trivial rfl
    (Machine.meets_cons_of_eq _ trivial rfl (Machine.meets_cons_of_eq _ trivial rfl
    (Machine.meets_cons_of_eq _ ?_ rfl ?_))))))))))))
  · exact fun v _ => ⟨trivial, fun h => h.elim⟩
  · intro v hv
    obtain rfl := Option.some.inj hv
    refine ⟨fun task htask => ?_, fun h => h.elim⟩
    -- the write writes no value
    obtain rfl := Option.some.inj htask
    intro w hw
    obtain rfl : w = .empty := List.mem_singleton.1 hw
    trivial
  · intro v hv
    obtain rfl := Option.some.inj hv
    exact ⟨List.not_mem_nil, fun h => h.elim⟩
  · intro v hv
    obtain rfl := Option.some.inj hv
    refine ⟨⟨(fun h => nomatch h), fun _ _ _ _ _ _ _ _ hread => nomatch hread⟩, fun h => h.elim⟩
  · -- the write has been answered and recorded
    intro v hv
    obtain rfl := List.mem_singleton.1 hv
    exact ⟨fun _ hp => (nomatch hp), fun _ hp => (nomatch hp), rfl⟩
  · exact Machine.meets_of_forall_mem _ (by simp [Safe]) _

/-- **A change in flight at the stop has no outcome**: the gateway returns, and of a write that was
sent nothing is recorded. -/
theorem outcome_missing : ∃ t,
    Machine.run (step Connection.plainTexts plainCrates)
      (start (Pipeline.start .failOpen Trail.opened 0)) unansweredRun = some t ∧
      t.main = .returned ∧ t.served.map (·.task.written) = [[0]] ∧
      t.served.map (·.records 0) = [[]] ∧ ¬ Flushed Connection.plainTexts t := by
  obtain ⟨t, ht⟩ := Option.isSome_iff_exists.1
    (show (Machine.run (step Connection.plainTexts plainCrates)
      (start (Pipeline.start .failOpen Trail.opened 0)) unansweredRun).isSome = true from rfl)
  have hend : (Machine.run (step Connection.plainTexts plainCrates)
      (start (Pipeline.start .failOpen Trail.opened 0)) unansweredRun).map (fun t =>
        (t.main, t.served.map (·.task.written), t.served.map (·.records 0),
          t.served.map fun v => (v.task.conn.started.map fun st => (st.task.id, st.task.request),
            v.task.conn.sent.any (Sent.isRequest 0), (v.task.results 0).length))) =
      some (.returned, [[0]], [[]], [([(0, Connection.plainWrite)], true, 0)]) := rfl
  rw [ht, Option.map_some, Option.some.injEq] at hend
  simp only [Prod.mk.injEq] at hend
  obtain ⟨hmain, hwritten, hrecords, hserved⟩ := hend
  refine ⟨t, ht, hmain, hwritten, hrecords, fun hflushed => ?_⟩
  obtain ⟨v, rest, hv, hfacts, -⟩ := List.map_eq_cons_iff.1 hserved
  simp only [Prod.mk.injEq] at hfacts
  obtain ⟨hstarted, hsent, hresults⟩ := hfacts
  obtain ⟨st, rest', hst, hwrite, -⟩ := List.map_eq_cons_iff.1 hstarted
  rw [Prod.mk.injEq] at hwrite
  obtain ⟨result, hresult, -⟩ := hflushed v (by rw [hv]; exact List.mem_cons_self ..) st
    (by rw [hst]; exact List.mem_cons_self ..) (by rw [hwrite.2]; rfl) (by rwa [hwrite.1])
  rw [hwrite.1] at hresult
  rw [hresult] at hresults
  cases hresults

end GatewayRun

end AuditGateway
