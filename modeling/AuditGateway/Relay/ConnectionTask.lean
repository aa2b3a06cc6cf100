import AuditGateway.Relay.ItemRecords
import AuditGateway.Relay.Tasks

set_option relaxedAutoImplicit false
set_option autoImplicit false

/-!
# The end of a connection

When the client is gone, the tasks of audited requests are seen through: for some time they wait
for their answers, then the upstream connection is closed, and for some more time they record that
they got none. What is left then is dropped. A task that has its answer hands its records to the
audit one after the other, and the connection may end between any two of them.

The fields `written` and `ended` record what became of the requests upstream, for the statements
only.

## Main definitions

* `ConnectionTask`, `ConnectionTask.Op`, `ConnectionTask.step` — a connection, the records its
  tasks are still to hand over, and the steps to its end.
* `RecordedAs` — the records of a change that ended in some way.
* `RecordedFor` — the records of a change with which the channel was done like this.
* `ConnectionTask.Settled` — what became of the audited requests of a connection.

## Main results

* `ConnectionTask.settled_of_assumed` — every audited request that was handed over has its outcome
  recorded once.
-/

namespace AuditGateway

/-! ## What the upstream connection makes of a request -/

/-- What a task gets for a request that it gave to the channel. -/
def upstreamSend : Except StatusCode ResponseMessage → Answer
  | .ok response => .response response
  -- only "not connected" proves that the request never left
  | .error status => .error status (status ≠ .badNotConnected)

/-- The request itself, not the read in front of it. -/
def Sent.isRequest (id : ℕ) : Sent → Bool
  | request id' _ => id' = id
  | read .. => false

/-! ## The state -/

/-- A connection with its records on the way to the audit, and what the channel has written and
answered. -/
structure ConnectionTask where
  conn : Connection
  /-- The records that tasks with an answer are still to hand over, by request; the first one of a
  request is that of a call to the audit. -/
  recording : List (ℕ × AuditEntry) := []
  /-- The time to wait for answers is over. -/
  closing : Bool := false
  /-- The records of outcomes that were handed over, by request. -/
  handed : List (ℕ × AuditEntry) := []
  /-- The requests that were written to the upstream connection. -/
  written : List ℕ := []
  /-- What the channel made of the requests. -/
  ended : List (ℕ × Except StatusCode ResponseMessage) := []
  /-- The requests whose tasks were dropped at the end. -/
  abandoned : List ℕ := []

namespace ConnectionTask

/-- What can happen. -/
inductive Op
  /-- Everything but answers and the end of the connection. -/
  | relay (op : Connection.Op)
  /-- A request is written to the upstream connection. -/
  | write (id : ℕ)
  /-- The channel is done with a request. -/
  | returned (id : ℕ) (result : Except StatusCode ResponseMessage)
      (read : Option (List DataValue)) (checks : Except StatusCode Unit) (now : DateTime)
      (instant : ℕ)
  /-- A call to the audit returns. -/
  | audited (id : ℕ)
  /-- All audited tasks have ended. -/
  | drained
  /-- The time to wait for answers is over: the upstream connection is closed. -/
  | drainTimeout
  /-- The time to wait for the closed connection is over. -/
  | closeTimeout

/-- The records of outcomes in what a step hands to the audit. The first record of a commit is the
intent, and its call has returned. -/
def outcomes (s t : Connection) : Connection.Op → List (ℕ × AuditEntry)
  | .committed .. => (t.recorded.drop s.recorded.length).tail
  | _ => t.recorded.drop s.recorded.length

/-- A step of the connection; its records are still to be handed over. -/
def apply (x : Texts) (ctx : Ctx) (s : ConnectionTask) (op : Connection.Op) :
    Option ConnectionTask :=
  (s.conn.step x ctx op).map fun conn =>
    { s with conn := conn, recording := s.recording ++ outcomes s.conn conn op }

/-- Steps that are not made by the channel or by the end of the connection. -/
def isRelay : Connection.Op → Bool
  | .answer .. => false
  | .giveUp => false
  | _ => true

/-- One step. -/
def step (x : Texts) (ctx : Ctx) (s : ConnectionTask) : Op → Option ConnectionTask
  | .relay op => if isRelay op then s.apply x ctx op else none
  | .write id =>
    if s.conn.sent.any (Sent.isRequest id) then some { s with written := s.written ++ [id] }
    else none
  | .returned id result read checks now instant =>
    (s.apply x ctx (.answer id (upstreamSend result) read checks now instant)).map fun t =>
      { t with ended := t.ended ++ [(id, result)] }
  | .audited id =>
    match s.recording.find? fun p => p.1 = id with
    | some p =>
      if s.conn.loop.polls then
        some { s with
          handed := s.handed ++ [p]
          recording := s.recording.eraseP fun p => p.1 = id }
      else none
    | none => none
  | .drained =>
    if s.conn.tasks.isEmpty ∧ s.recording.isEmpty then s.apply x ctx .giveUp else none
  | .drainTimeout =>
    -- new tasks are polled before the time is looked at
    if s.conn.loop = .draining ∧ s.conn.fresh.isEmpty ∧ !s.closing then
      (s.apply x ctx .upstreamClosed).map fun t => { t with closing := true }
    else none
  | .closeTimeout =>
    if s.closing ∧ s.conn.fresh.isEmpty then
      (s.apply x ctx .giveUp).map fun t =>
        { t with
          recording := []
          abandoned := s.conn.tasks.map (·.id) ++ s.recording.map Prod.fst }
    else none

/-! ## What became of the requests -/

/-- The records of a request that were handed to the audit. -/
def records (s : ConnectionTask) (id : ℕ) : List AuditEntry :=
  (s.handed.filter fun p => p.1 = id).map Prod.snd

/-- The records of a request, with those that are still to be handed over. -/
def allRecords (s : ConnectionTask) (id : ℕ) : List AuditEntry :=
  ((s.handed ++ s.recording).filter fun p => p.1 = id).map Prod.snd

/-- What the channel made of a request. -/
def results (s : ConnectionTask) (id : ℕ) : List (Except StatusCode ResponseMessage) :=
  (s.ended.filter fun p => p.1 = id).map Prod.snd

end ConnectionTask

/-- The records are those of a change that ended like this: one for every item, except for those
that are counted in a summary, all attributed to the client of the request. -/
def RecordedAs (x : Texts) (ctx : Ctx) (st : Started) (o : Outcome)
    (entries : List AuditEntry) : Prop :=
  ∃ (names names' : NameCache) (read : Option (List DataValue)) (r : Recorded)
    (overflow : List IgnoredWrite) (now : DateTime),
    AuditMap.outcome x (fun node => st.settings.summarise.matches node st.client)
        st.settings.recordOldValue names names' read o st.task.request = some r ∧
      (∀ items, st.task.request.items = some items → Complete x st.task.request items
        (fun node => st.settings.summarise.matches node st.client) o r) ∧
      overflow.Sublist r.summarised ∧
      entries =
        (overflow.map (Connection.overflowEvent st.task.request.requestHeader.requestHandle) ++
        r.events).map (ctx.entry now st.client)

/-- The records of a change with which the channel was done like this: the results of the server if
it answered, and an uncertain status if it did not, unless the request never left. -/
def RecordedFor (x : Texts) (ctx : Ctx) (st : Started) (entries : List AuditEntry) :
    Except StatusCode ResponseMessage → Prop
  | .ok response => RecordedAs x ctx st ⟨response, none⟩ entries
  | .error status =>
    (status ≠ .badNotConnected →
      RecordedAs x ctx st ⟨fault st.task.request status, some status⟩ entries) ∧
    (status = .badNotConnected → RecordedAs x ctx st ⟨fault st.task.request status, none⟩ entries)

/-- What a task records of what the channel gives it. -/
theorem recordedFor_of_upstreamSend {x : Texts} {ctx : Ctx} {st : Started}
    {entries : List AuditEntry} {result : Except StatusCode ResponseMessage}
    (h : RecordedAs x ctx st ((upstreamSend result).outcome st.task.request) entries) :
    RecordedFor x ctx st entries result := by
  cases result with
  | ok response => exact h
  | error status =>
    refine ⟨fun hne => ?_, fun heq => ?_⟩
    · have hmaybe : decide (status ≠ .badNotConnected) = true := decide_eq_true hne
      rw [upstreamSend, hmaybe] at h
      exact h
    · have hnever : decide (status ≠ .badNotConnected) = false :=
        decide_eq_false fun hne => hne heq
      rw [upstreamSend, hnever] at h
      exact h

namespace ConnectionTask

/-- What became of the audited requests. -/
structure Settled (x : Texts) (ctx : Ctx) (s : ConnectionTask) : Prop where
  /-- The channel was done with every request that was handed over, once, and the records are those
  for its result. -/
  sent : ∀ st ∈ s.conn.started, isAudited st.task.request →
    s.conn.sent.any (Sent.isRequest st.task.id) → ∃ result, s.results st.task.id = [result] ∧
      RecordedFor x ctx st (s.records st.task.id) result
  /-- So a request that was written has the results of its response, or an uncertain status. -/
  written : ∀ id ∈ s.written, .error .badNotConnected ∉ s.results id
  /-- A request that was not handed over has no records, or those of a failure. -/
  unsent : ∀ st ∈ s.conn.started, isAudited st.task.request →
    ¬ s.conn.sent.any (Sent.isRequest st.task.id) → s.records st.task.id = [] ∨
      RecordedAs x ctx st ⟨fault st.task.request .badServerNotConnected, none⟩
        (s.records st.task.id)
  /-- No audited task was dropped. -/
  dropped : (∀ task ∈ s.conn.dropped, ¬ isAudited task.request) ∧ s.abandoned = []

/-- The steps of a run in which all values can be rendered, the channel answers `BadNotConnected`
only for requests that never leave, and when the connection ends, no call to the audit is pending
and with the upstream connection closed no request waits for its answer. The second is what
`Upstream::send` takes that status for; the channel is not part of this code. -/
def Assumed (s : ConnectionTask) : Op → Prop
  | .relay (.poll _ _) => ∀ task ∈ s.conn.fresh.head?, task.request.Renderable
  | .write id => .error .badNotConnected ∉ s.results id
  | .returned id result read _ _ _ =>
    (result = .error .badNotConnected → id ∉ s.written) ∧
      ∀ p ∈ s.conn.awaiting, p.1.id = id → ∀ f, p.2 = .forward f → ∀ pre ∈ f.preRead,
        ∀ results ∈ read, pre.Renderable results
  | .closeTimeout =>
    s.conn.committing = [] ∧ s.recording = [] ∧ (s.conn.upstreamOpen = false → s.conn.awaiting = [])
  | _ => True

end ConnectionTask

/-! ## What a task records -/

/-- A plan with nothing left to record is that of a write. -/
theorem AuditPlan.eq_write_of_isEmpty {plan : AuditPlan} (h : plan.isEmpty) :
    ∃ handle, plan = .write handle [] := by
  cases plan with
  | write handle items => exact ⟨handle, by rw [List.isEmpty_iff.1 h]⟩
  | _ => cases h

/-- What a task can apply its reads to is recorded. -/
theorem outcome_isSome {x : Texts} {settings : Settings} {names : NameCache}
    {client : ClientContext} {request : RequestMessage} {f : Forward} {plan : AuditPlan}
    (hp : AuditMap.plan x request = some (some plan))
    (hf : prepare x settings names client request = some f) {names' : NameCache}
    {read : Option (List DataValue)} (h : (f.applied x names' read).isSome) (o : Outcome) :
    (AuditMap.outcome x (fun node => settings.summarise.matches node client)
      settings.recordOldValue names names' read o request).isSome := by
  obtain ⟨-, -, -, hsome⟩ := prepare_of_plan hp hf
  rw [outcome_eq hp, Option.isSome_map]
  generalize plan.takeIgnored (fun node => settings.summarise.matches node client) = taken at hsome
  by_cases hempty : taken.1.isEmpty
  · obtain ⟨handle, hwrite⟩ := AuditPlan.eq_write_of_isEmpty hempty
    rw [hwrite]
    rfl
  · obtain ⟨hplan, hpre⟩ := hsome (Bool.eq_false_iff.2 hempty)
    rw [applied_eq, hplan, hpre] at h
    simpa only [Option.isSome_map] using h

namespace Connection

variable {x : Texts} {ctx : Ctx} {s t u : Connection} {task : Task}

/-- Events are recorded one behind the other. -/
theorem recorded_foldl_recordEvent (ctx : Ctx) (task : Task) (client : ClientContext)
    (now : DateTime) (events : List AuditEvent) (s : Connection) :
    (events.foldl (recordEvent ctx task client now) s).recorded =
      s.recorded ++ (events.map (ctx.entry now client)).map (Prod.mk task.id) := by
  induction events generalizing s with
  | nil => simp
  | cons event events ih =>
    rw [List.foldl_cons, ih]
    simp [recordEvent, record]

/-- The summarised writes that are not counted are recorded. -/
theorem recorded_foldl_countIgnored (ctx : Ctx) (task : Task) (client : ClientContext)
    (now : DateTime) (l : List IgnoredWrite) (s : Connection) :
    ∃ overflow : List IgnoredWrite, overflow.Sublist l ∧
      (l.foldl (countIgnored ctx task client now) s).recorded = s.recorded ++
        ((overflow.map (overflowEvent task.request.requestHeader.requestHandle)).map
          (ctx.entry now client)).map (Prod.mk task.id) := by
  induction l generalizing s with
  | nil => exact ⟨[], List.Sublist.refl _, by simp⟩
  | cons w l ih =>
    obtain ⟨overflow, hover, heq⟩ := ih (countIgnored ctx task client now s w)
    rw [List.foldl_cons, heq]
    unfold countIgnored
    split
    · exact ⟨overflow, hover.cons w, rfl⟩
    · refine ⟨w :: overflow, hover.cons_cons w, ?_⟩
      simp [record]

/-- A task records for its own request only. -/
theorem recorded_completeForward (s : Connection) (f : Forward) (answer : Answer)
    (read : Option (List DataValue)) (now : DateTime) :
    ∃ l : List AuditEntry, (completeForward x ctx s task f answer read now).recorded =
      s.recorded ++ l.map (Prod.mk task.id) := by
  rw [completeForward_of_applied]
  split
  · refine ⟨[], ?_⟩
    unfold panic
    split_ifs <;> simp
  · next plan names _ =>
    obtain ⟨overflow, -, hover⟩ := recorded_foldl_countIgnored ctx task f.client now
      ((f.ignored.map fun items => ignoredOutcomes x items (answer.outcome task.request).response
        (answer.outcome task.request).unknown names).getD [])
      { s with shared := { s.shared with names := names } }
    have hevents := recorded_foldl_recordEvent ctx task f.client now
      ((plan.map fun plan => plan.eventsWith x (answer.outcome task.request).response
        ((answer.outcome task.request).unknown.map (uncertainEvent x))).getD [])
      (((f.ignored.map fun items => ignoredOutcomes x items (answer.outcome task.request).response
        (answer.outcome task.request).unknown names).getD []).foldl
          (countIgnored ctx task f.client now)
          { s with shared := { s.shared with names := names } })
    rw [hover, List.append_assoc, ← List.map_append] at hevents
    exact ⟨_, hevents⟩

/-- An answer adds records of its own request only. -/
theorem recorded_complete (x : Texts) (ctx : Ctx) (s : Connection) (task : Task)
    (awaiting : Awaiting) (answer : Answer) (read : Option (List DataValue))
    (checks : Except StatusCode Unit) (now : DateTime) (instant : ℕ) :
    ∃ l : List AuditEntry,
      (complete x ctx s task awaiting answer read checks now instant).recorded =
      s.recorded ++ l.map (Prod.mk task.id) := by
  have hsame : ∀ {t : Connection}, t.recorded = s.recorded →
      ∃ l : List AuditEntry, t.recorded = s.recorded ++ l.map (Prod.mk task.id) :=
    fun h => ⟨[], by rw [h, List.map_nil, List.append_nil]⟩
  unfold complete
  dsimp only
  split
  · exact recorded_completeForward ..
  · split
    · exact hsame rfl
    · exact hsame rfl
  · split_ifs
    · exact hsame rfl
    · exact hsame rfl
  · exact hsame rfl
  · exact hsame rfl
  · exact hsame rfl
  · exact hsame rfl

/-- Handing over a request only adds records. -/
theorem recorded_handOver (x : Texts) (ctx : Ctx) (s : Connection) (task : Task)
    (awaiting : Awaiting) (preRead : Option PreRead) (now : DateTime) (instant : ℕ) :
    ∃ l : List AuditEntry, (handOver x ctx s task awaiting preRead now instant).recorded =
      s.recorded ++ l.map (Prod.mk task.id) := by
  unfold handOver
  split_ifs
  · exact ⟨[], (List.append_nil _).symm⟩
  · exact recorded_complete ..

/-- Starting a task only adds records. -/
theorem recorded_start (x : Texts) (ctx : Ctx) (s : Connection) (task : Task)
    (settings : Settings) (checks : Except StatusCode UserIdentity) :
    ∃ l : List AuditEntry, (start x ctx s task settings checks).recorded =
      s.recorded ++ l.map (Prod.mk task.id) := by
  have hsame : ∀ {t : Connection}, t.recorded = s.recorded →
      ∃ l : List AuditEntry, t.recorded = s.recorded ++ l.map (Prod.mk task.id) :=
    fun h => ⟨[], by rw [h, List.map_nil, List.append_nil]⟩
  unfold start
  dsimp only
  split
  · exact hsame rfl
  · exact recorded_handOver ..
  · split
    · exact hsame rfl
    · split
      · exact hsame rfl
      · exact recorded_handOver ..
  · exact recorded_handOver ..
  · unfold forward
    dsimp only
    split
    · refine hsame ?_
      unfold panic
      split_ifs <;> rfl
    · split
      · exact hsame rfl
      · exact recorded_handOver ..

/-- A task that runs for the first time starts no other. -/
theorem started_start (x : Texts) (ctx : Ctx) (s : Connection) (task : Task)
    (settings : Settings) (checks : Except StatusCode UserIdentity) :
    (start x ctx s task settings checks).started = s.started := by
  cases @start_cases x ctx task s settings checks with
  | answered hframe => exact hframe.started
  | panicked u hframe hf ht => rw [ht, started_panic, hframe.started]
  | held u f entry hframe hf hentry ht =>
    rw [ht]
    exact hframe.started
  | sent u f awaiting preRead hframe hf hintent hawaiting ht =>
    rw [ht]
    exact hframe.started

/-- What a task of a change records that goes on with its answer. -/
theorem completeForward_recordedAs {st : Started} {names : NameCache} {f : Forward}
    (haudited : isAudited st.task.request)
    (hf : prepare x st.settings names st.client st.task.request = some f) (s : Connection)
    (answer : Answer) {read : Option (List DataValue)} (now : DateTime)
    (happlied : (f.applied x s.shared.names read).isSome) :
    ∃ entries, RecordedAs x ctx st (answer.outcome st.task.request) entries ∧
      (completeForward x ctx s st.task f answer read now).recorded =
        s.recorded ++ entries.map (Prod.mk st.task.id) ∧
      Frame s (completeForward x ctx s st.task f answer read now) := by
  obtain ⟨p, hp, -⟩ := prepare_eq_some hf
  obtain ⟨plan, rfl⟩ := Option.isSome_iff_exists.1 ((AuditMap.isSome_of_plan_eq hp).2 haudited)
  obtain ⟨r, hr⟩ := Option.isSome_iff_exists.1
    (outcome_isSome hp hf happlied (answer.outcome st.task.request))
  have hframe : Frame s (completeForward x ctx s st.task f answer read now) := by
    refine (frame_completeForward ..).resolve_right fun h => ?_
    rw [h.2] at happlied
    cases happlied
  obtain ⟨overflow, hover, heq⟩ :=
    recorded_foldl_countIgnored ctx st.task st.client now r.summarised
    { s with shared := { s.shared with names := r.names } }
  refine ⟨_, ⟨names, s.shared.names, read, r, overflow, now, hr,
    fun items hitems => complete_of_outcome hitems hr, hover, rfl⟩, ?_, hframe⟩
  rw [completeForward_eq hp hf, hr]
  show Connection.recorded (List.foldl _ _ _) = _
  rw [recorded_foldl_recordEvent, heq, List.map_append, List.map_append, List.append_assoc]

/-! ## One task at a time -/

/-- Only the task with the number has moved. -/
structure Moves (id : ℕ) (s t : Connection) : Prop where
  committing : ∀ p : Task × Forward × AuditEntry, p.1.id ≠ id →
    (p ∈ t.committing ↔ p ∈ s.committing)
  awaiting : ∀ p : Task × Awaiting, p.1.id ≠ id → (p ∈ t.awaiting ↔ p ∈ s.awaiting)
  sent : ∀ i ≠ id, t.sent.any (Sent.isRequest i) = s.sent.any (Sent.isRequest i)
  loop : t.loop = s.loop
  upstreamOpen : t.upstreamOpen = s.upstreamOpen

/-- Two moves of a task are one. -/
theorem Moves.trans {id : ℕ} (h : Moves id s t) (h' : Moves id t u) : Moves id s u where
  committing p hp := (h'.committing p hp).trans (h.committing p hp)
  awaiting p hp := (h'.awaiting p hp).trans (h.awaiting p hp)
  sent i hi := (h'.sent i hi).trans (h.sent i hi)
  loop := h'.loop.trans h.loop
  upstreamOpen := h'.upstreamOpen.trans h.upstreamOpen

/-- A step that leaves the tasks alone moves no task. -/
theorem Frame.moves (h : Frame s t) (id : ℕ) : Moves id s t where
  committing p _ := by rw [h.committing]
  awaiting p _ := by rw [h.awaiting]
  sent i _ := by rw [h.sent]
  loop := h.loop
  upstreamOpen := h.upstreamOpen

/-- The request of a task is handed over, behind its read. -/
theorem any_isRequest_handed (s : Connection) (task : Task) (awaiting : Awaiting)
    (preRead : Option PreRead) (i : ℕ) :
    (s.handed task awaiting preRead).sent.any (Sent.isRequest i) =
      (s.sent.any (Sent.isRequest i) || decide (task.id = i)) := by
  cases preRead <;> simp [handed, Sent.isRequest]

/-- A request that is handed over waits for its answer. -/
theorem moves_handed (s : Connection) (task : Task) (awaiting : Awaiting)
    (preRead : Option PreRead) : Moves task.id s (s.handed task awaiting preRead) where
  committing _ _ := Iff.rfl
  awaiting p hp := by
    show p ∈ s.awaiting ++ [(task, awaiting)] ↔ p ∈ s.awaiting
    rw [List.mem_append, List.mem_singleton, or_iff_left]
    rintro rfl
    exact hp rfl
  sent i hi := by
    rw [any_isRequest_handed, decide_eq_false (Ne.symm hi), Bool.or_false]
  loop := rfl
  upstreamOpen := rfl

/-- Handing over moves its own task only. -/
theorem moves_handOver (x : Texts) (ctx : Ctx) (s : Connection) (task : Task)
    (awaiting : Awaiting) (preRead : Option PreRead) (now : DateTime) (instant : ℕ) :
    Moves task.id s (handOver x ctx s task awaiting preRead now instant) := by
  rcases handOver_cases x ctx s task awaiting preRead now instant with heq | hframe
  · rw [heq]
    exact moves_handed ..
  · exact hframe.moves _

/-- Starting a task moves this task only. -/
theorem moves_start {settings : Settings} (h : StartCase x ctx settings task s t)
    (hplan : (AuditMap.plan x task.request).isSome) : Moves task.id s t := by
  cases h with
  | answered h => exact h.moves _
  | panicked u h hf ht =>
    rw [prepare, Option.map_eq_none_iff] at hf
    rw [hf] at hplan
    cases hplan
  | held u f entry h hf hentry ht =>
    refine (h.moves _).trans ?_
    rw [ht]
    refine ⟨fun p hp => ?_, fun _ _ => Iff.rfl, fun _ _ => rfl, rfl, rfl⟩
    rw [List.mem_append, List.mem_singleton, or_iff_left]
    rintro rfl
    exact hp rfl
  | sent u f awaiting preRead h hf hintent hawaiting ht =>
    rw [ht]
    exact (h.moves _).trans (moves_handed ..)

/-- What becomes of the request of a change whose plan is ready. -/
inductive Forwarded (x : Texts) (ctx : Ctx) (st : Started) (f : Forward) (s t : Connection) : Prop
  | held (entry : AuditEntry) (hcommitting : t.committing = s.committing ++ [(st.task, f, entry)])
      (hawaiting : t.awaiting = s.awaiting) (hsent : t.sent = s.sent)
      (hrecorded : t.recorded = s.recorded)
  | handed (hcommitting : t.committing = s.committing)
      (hawaiting : t.awaiting = s.awaiting ++ [(st.task, .forward f)])
      (hsent : t.sent.any (Sent.isRequest st.task.id)) (hrecorded : t.recorded = s.recorded)
  | unsent (entries : List AuditEntry)
      (h : RecordedAs x ctx st ⟨fault st.task.request .badServerNotConnected, none⟩ entries)
      (hframe : Frame s t)
      (hrecorded : t.recorded = s.recorded ++ entries.map (Prod.mk st.task.id))

/-- A request is handed over, or recorded as one that failed. -/
theorem handOver_forwarded {st : Started} {names : NameCache} {f : Forward}
    (haudited : isAudited st.task.request)
    (hf : prepare x st.settings names st.client st.task.request = some f) (s : Connection)
    (preRead : Option PreRead) (now : DateTime) (instant : ℕ) :
    Forwarded x ctx st f s (handOver x ctx s st.task (.forward f) preRead now instant) := by
  unfold handOver
  split_ifs
  · refine .handed rfl rfl ?_ rfl
    rw [any_isRequest_handed, decide_eq_true rfl, Bool.or_true]
  · obtain ⟨entries, hentries, hrecorded, hframe⟩ := completeForward_recordedAs haudited hf s
      (.error .badServerNotConnected false) now (by rw [applied_none]; rfl)
    exact .unsent entries hentries hframe hrecorded

/-- The task of a change forwards it. -/
theorem start_eq_forward (h : isAudited task.request) (s : Connection) (settings : Settings)
    (checks : Except StatusCode UserIdentity) :
    start x ctx s task settings checks = forward x ctx s task settings := by
  unfold start
  dsimp only
  split
  all_goals first
    | rfl
    | next hrequest =>
      rw [hrequest] at h
      cases h

/-- A request that is forwarded has come to its intent or to the server. -/
theorem start_forwarded {st : Started} {f : Forward} (haudited : isAudited st.task.request)
    (hclient : st.client = attributed ctx s.shared.sessions st.task.request)
    (hf : prepare x st.settings s.shared.names st.client st.task.request = some f)
    (checks : Except StatusCode UserIdentity) :
    Forwarded x ctx st f s (start x ctx s st.task st.settings checks) := by
  rw [start_eq_forward haudited]
  have heq : prepare x st.settings s.shared.names
      (attributed ctx s.shared.sessions st.task.request) st.task.request = some f := by
    rw [← hclient]
    exact hf
  unfold forward
  dsimp only [withSessions]
  rw [heq]
  dsimp only
  split
  · next entry _ => exact .held entry rfl rfl rfl rfl
  · have hframe := frame_withSessions s (s.shared.sessions.modify st.settings.instant
      st.task.request.requestHeader.authenticationToken id)
    cases @handOver_forwarded x ctx _ _ _ haudited hf (s.withSessions (s.shared.sessions.modify
      st.settings.instant st.task.request.requestHeader.authenticationToken id)) f.preRead
      st.settings.now st.settings.instant with
    | held entry hcommitting hawaiting hsent hrecorded =>
      exact .held entry hcommitting hawaiting hsent hrecorded
    | handed hcommitting hawaiting hsent hrecorded =>
      exact .handed hcommitting hawaiting hsent hrecorded
    | unsent entries h hframe' hrecorded =>
      exact .unsent entries h (hframe.trans hframe') hrecorded

/-- A task that stops waiting for its commit. -/
theorem moves_eraseP_committing (s : Connection) (id : ℕ) :
    Moves id s { s with committing := s.committing.eraseP fun p => p.1.id = id } where
  committing p hp := List.mem_eraseP_of_neg (by simpa using hp)
  awaiting _ _ := Iff.rfl
  sent _ _ := rfl
  loop := rfl
  upstreamOpen := rfl

/-- A task that stops waiting for its answer. -/
theorem moves_eraseP_awaiting (s : Connection) (id : ℕ) :
    Moves id s { s with awaiting := s.awaiting.eraseP fun p => p.1.id = id } where
  committing _ _ := Iff.rfl
  awaiting p hp := List.mem_eraseP_of_neg (by simpa using hp)
  sent _ _ := rfl
  loop := rfl
  upstreamOpen := rfl

/-- The request with the number waits for nothing. -/
structure Free (s : Connection) (id : ℕ) : Prop where
  committing : ∀ p ∈ s.committing, p.1.id ≠ id
  awaiting : ∀ p ∈ s.awaiting, p.1.id ≠ id

/-- A task that does not wait is free. -/
theorem free_of_not_mem {id : ℕ} (h : id ∉ s.waitingTasks.map (·.id)) : Free s id := by
  constructor
  · rintro p hp rfl
    exact h (List.mem_map_of_mem (List.mem_append_left _ (List.mem_map_of_mem hp)))
  · rintro p hp rfl
    exact h (List.mem_map_of_mem (List.mem_append_right _ (List.mem_map_of_mem hp)))

/-- It stays free when the tasks are left alone. -/
theorem Free.frame {id : ℕ} (h : Free s id) (hframe : Frame s t) : Free t id := by
  constructor
  · rw [hframe.committing]
    exact h.committing
  · rw [hframe.awaiting]
    exact h.awaiting

/-- A task that gets its answer waits for nothing else. -/
theorem Tracked.free_of_find? (h : Tracked s) {id : ℕ} {p : Task × Awaiting}
    (hfind : s.awaiting.find? (fun p => p.1.id = id) = some p) :
    Free { s with awaiting := s.awaiting.eraseP fun p => p.1.id = id } id := by
  have hid : p.1.id = id := by simpa using List.find?_some hfind
  have hperm := ((Machine.perm_of_find? hfind).map (·.1)).append_left (s.committing.map (·.1))
  rw [List.map_cons] at hperm
  have hnodup := (((hperm.trans List.perm_middle).map (·.id)).nodup_iff).1 h.waiting_nodup
  rw [List.map_cons, List.nodup_cons, hid] at hnodup
  exact free_of_not_mem hnodup.1

/-- Nobody waits for a commit and for an answer. -/
theorem Tracked.committing_ne_awaiting (h : Tracked s) {p : Task × Forward × AuditEntry}
    {q : Task × Awaiting} (hp : p ∈ s.committing) (hq : q ∈ s.awaiting) : p.1.id ≠ q.1.id := by
  have hnodup := h.waiting_nodup
  rw [waitingTasks, List.map_append, List.nodup_append] at hnodup
  exact hnodup.2.2 _ (List.mem_map_of_mem (List.mem_map_of_mem hp)) _
    (List.mem_map_of_mem (List.mem_map_of_mem hq))

/-- A task waits for one commit only. -/
theorem Tracked.committing_inj (h : Tracked s) {p q : Task × Forward × AuditEntry}
    (hp : p ∈ s.committing) (hq : q ∈ s.committing) (hid : p.1.id = q.1.id) : p = q := by
  have hnodup := h.waiting_nodup
  rw [waitingTasks, List.map_append, List.nodup_append, List.map_map] at hnodup
  exact List.inj_on_of_nodup_map hnodup.1 hp hq hid

/-- A task waits for one answer only. -/
theorem Tracked.awaiting_inj (h : Tracked s) {p q : Task × Awaiting}
    (hp : p ∈ s.awaiting) (hq : q ∈ s.awaiting) (hid : p.1.id = q.1.id) : p = q := by
  have hnodup := h.waiting_nodup
  rw [waitingTasks, List.map_append, List.nodup_append, List.map_map, List.map_map] at hnodup
  exact List.inj_on_of_nodup_map hnodup.2.1 hp hq hid

end Connection

namespace ConnectionTask

open Connection (Tracked Kept Moves Free Forwarded)

variable {x : Texts} {ctx : Ctx} {s t : ConnectionTask} {st : Started}

/-! ## How far a request is -/

/-- Where an audited request is whose task has run. -/
inductive Progress (x : Texts) (ctx : Ctx) (s : ConnectionTask) (st : Started) : Prop
  /-- Its task waits for the commit of its intent. -/
  | committing (p : Task × Forward × AuditEntry) (hp : p ∈ s.conn.committing)
      (htask : p.1 = st.task)
      (hf : ∃ names, prepare x st.settings names st.client st.task.request = some p.2.1)
      (hsent : ¬ s.conn.sent.any (Sent.isRequest st.task.id))
      (hresults : s.results st.task.id = []) (hrecords : s.allRecords st.task.id = [])
  /-- Its task waits for its answer. -/
  | awaiting (f : Forward) (hp : (st.task, .forward f) ∈ s.conn.awaiting)
      (hf : ∃ names, prepare x st.settings names st.client st.task.request = some f)
      (hsent : s.conn.sent.any (Sent.isRequest st.task.id))
      (hresults : s.results st.task.id = []) (hrecords : s.allRecords st.task.id = [])
  /-- Its intent was not committed. -/
  | refused (hfree : Free s.conn st.task.id)
      (hsent : ¬ s.conn.sent.any (Sent.isRequest st.task.id))
      (hresults : s.results st.task.id = []) (hrecords : s.allRecords st.task.id = [])
  /-- The upstream connection was closed before it was handed over. -/
  | unsent (hfree : Free s.conn st.task.id)
      (hsent : ¬ s.conn.sent.any (Sent.isRequest st.task.id))
      (hresults : s.results st.task.id = [])
      (hrecords : RecordedAs x ctx st ⟨fault st.task.request .badServerNotConnected, none⟩
        (s.allRecords st.task.id))
  /-- The channel is done with it. -/
  | returned (result : Except StatusCode ResponseMessage) (hfree : Free s.conn st.task.id)
      (hsent : s.conn.sent.any (Sent.isRequest st.task.id))
      (hresults : s.results st.task.id = [result])
      (hrecords : RecordedAs x ctx st ((upstreamSend result).outcome st.task.request)
        (s.allRecords st.task.id))

/-- Nothing has changed for the request with the number. -/
structure Same (id : ℕ) (s t : ConnectionTask) : Prop where
  committing : ∀ p : Task × Forward × AuditEntry, p.1.id = id →
    (p ∈ t.conn.committing ↔ p ∈ s.conn.committing)
  awaiting : ∀ p : Task × Awaiting, p.1.id = id →
    (p ∈ t.conn.awaiting ↔ p ∈ s.conn.awaiting)
  sent : t.conn.sent.any (Sent.isRequest id) = s.conn.sent.any (Sent.isRequest id)
  results : t.results id = s.results id
  records : t.allRecords id = s.allRecords id

/-- A free task stays free while nothing changes for it. -/
theorem Same.free {id : ℕ} (h : Same id s t) (hfree : Free s.conn id) : Free t.conn id where
  committing p hp hid := hfree.committing p ((h.committing p hid).1 hp) hid
  awaiting p hp hid := hfree.awaiting p ((h.awaiting p hid).1 hp) hid

/-- A task has come as far as before while nothing changes for it. -/
theorem Progress.of_same (h : Progress x ctx s st) (hsame : Same st.task.id s t) :
    Progress x ctx t st := by
  cases h with
  | committing p hp htask hf hsent hresults hrecords =>
    refine .committing p ((hsame.committing p (by rw [htask])).2 hp) htask hf ?_ ?_ ?_
    · rwa [hsame.sent]
    · rwa [hsame.results]
    · rwa [hsame.records]
  | awaiting f hp hf hsent hresults hrecords =>
    refine .awaiting f ((hsame.awaiting _ rfl).2 hp) hf ?_ ?_ ?_
    · rwa [hsame.sent]
    · rwa [hsame.results]
    · rwa [hsame.records]
  | refused hfree hsent hresults hrecords =>
    refine .refused (hsame.free hfree) ?_ ?_ ?_
    · rwa [hsame.sent]
    · rwa [hsame.results]
    · rwa [hsame.records]
  | unsent hfree hsent hresults hrecords =>
    refine .unsent (hsame.free hfree) ?_ ?_ ?_
    · rwa [hsame.sent]
    · rwa [hsame.results]
    · rwa [hsame.records]
  | returned result hfree hsent hresults hrecords =>
    refine .returned result (hsame.free hfree) ?_ ?_ ?_
    · rwa [hsame.sent]
    · rwa [hsame.results]
    · rwa [hsame.records]

/-- A request that waits for its commit has come no further. -/
theorem Progress.of_committing (h : Progress x ctx s st) (htracked : Tracked s.conn)
    {p : Task × Forward × AuditEntry} (hp : p ∈ s.conn.committing)
    (hid : p.1.id = st.task.id) :
    p.1 = st.task ∧ (∃ names, prepare x st.settings names st.client st.task.request = some p.2.1) ∧
      ¬ s.conn.sent.any (Sent.isRequest st.task.id) ∧ s.results st.task.id = [] ∧
      s.allRecords st.task.id = [] := by
  cases h with
  | committing q hq htask hf hsent hresults hrecords =>
    obtain rfl := htracked.committing_inj hp hq (hid.trans (by rw [htask]))
    exact ⟨htask, hf, hsent, hresults, hrecords⟩
  | awaiting f hq => exact absurd hid (htracked.committing_ne_awaiting hp hq)
  | refused hfree => exact absurd hid (hfree.committing p hp)
  | unsent hfree => exact absurd hid (hfree.committing p hp)
  | returned result hfree => exact absurd hid (hfree.committing p hp)

/-- A request that waits for its answer has come no further. -/
theorem Progress.of_awaiting (h : Progress x ctx s st) (htracked : Tracked s.conn)
    {p : Task × Awaiting} (hp : p ∈ s.conn.awaiting) (hid : p.1.id = st.task.id) :
    p.1 = st.task ∧ (∃ f, p.2 = .forward f ∧
      ∃ names, prepare x st.settings names st.client st.task.request = some f) ∧
      s.conn.sent.any (Sent.isRequest st.task.id) ∧ s.results st.task.id = [] ∧
      s.allRecords st.task.id = [] := by
  cases h with
  | committing q hq htask =>
    exact absurd (hid.trans (by rw [htask])).symm (htracked.committing_ne_awaiting hq hp)
  | awaiting f hq hf hsent hresults hrecords =>
    obtain rfl := htracked.awaiting_inj hp hq hid
    exact ⟨rfl, ⟨f, rfl, hf⟩, hsent, hresults, hrecords⟩
  | refused hfree => exact absurd hid (hfree.awaiting p hp)
  | unsent hfree => exact absurd hid (hfree.awaiting p hp)
  | returned result hfree => exact absurd hid (hfree.awaiting p hp)

/-! ## Every step keeps track of the outcomes -/

/-- The records of a task behind new ones of one task. -/
theorem map_snd_filter_append {α : Type*} (a : List (ℕ × α)) (l : List α) (id i : ℕ) :
    ((a ++ l.map (Prod.mk id)).filter fun p => p.1 = i).map Prod.snd =
      (a.filter fun p => p.1 = i).map Prod.snd ++ if id = i then l else [] := by
  rw [List.filter_append, List.map_append]
  congr 1
  induction l with
  | nil => simp
  | cons b l ih =>
    rw [List.map_cons, List.filter_cons]
    by_cases h : id = i
    · simpa [h] using ih
    · simp [h]

/-- Moving the first element that is found past the others keeps their order. -/
theorem filter_cons_eraseP {α : Type*} {l : List (ℕ × α)} {p : ℕ × α} {id : ℕ}
    (h : l.find? (fun p => p.1 = id) = some p) (i : ℕ) :
    ([p] ++ l.eraseP fun p => p.1 = id).filter (fun p => p.1 = i) = l.filter fun p => p.1 = i := by
  induction l with
  | nil => cases h
  | cons q l ih =>
    rw [List.find?_cons] at h
    by_cases hq : q.1 = id
    · rw [decide_eq_true hq] at h
      obtain rfl := Option.some.inj h
      rw [List.eraseP_cons_of_pos (by simpa using hq)]
      rfl
    · rw [decide_eq_false hq] at h
      have hid : p.1 = id := by simpa using List.find?_some h
      rw [List.eraseP_cons_of_neg (by simpa using hq)]
      have ih := ih h
      by_cases hi : id = i
      · have hne : ¬ q.1 = i := by rwa [← hi]
        simpa [hid, hi, hne] using ih
      · have hne : ¬ p.1 = i := by rwa [hid]
        simp only [List.cons_append, List.nil_append, List.filter_cons, hne, decide_false,
          Bool.false_eq_true, if_false] at ih ⊢
        rw [ih]

/-- What holds of the requests of a connection in every state. -/
structure Inv (x : Texts) (ctx : Ctx) (s : ConnectionTask) : Prop where
  kept : Kept x s.conn
  closed : s.closing → s.conn.upstreamOpen = false
  atEnd : s.conn.loop = .ended → s.conn.tasks = [] ∧ s.recording = []
  abandoned : s.abandoned = []
  records : ∀ p ∈ s.handed ++ s.recording, ∃ st ∈ s.conn.started, st.task.id = p.1
  results : ∀ p ∈ s.ended, ∃ st ∈ s.conn.started, st.task.id = p.1
  written : ∀ id ∈ s.written, .error .badNotConnected ∉ s.results id
  progress : ∀ st ∈ s.conn.started, isAudited st.task.request → Progress x ctx s st

namespace Inv

variable {c : Connection} {id : ℕ}

/-- The connection changes, but nothing becomes of an audited request. -/
theorem still (h : Inv x ctx s) (hkept : Kept x c) (hstarted : c.started = s.conn.started)
    (hsent : c.sent = s.conn.sent) (hcommitting : c.committing ⊆ s.conn.committing)
    (hcommitting' : ∀ p ∈ s.conn.committing, isAudited p.1.request → p ∈ c.committing)
    (hawaiting : c.awaiting ⊆ s.conn.awaiting)
    (hawaiting' : ∀ p ∈ s.conn.awaiting, isAudited p.1.request → p ∈ c.awaiting)
    (hopen : s.conn.upstreamOpen = false → c.upstreamOpen = false)
    (hover : c.loop = .ended → c.tasks = [] ∧ s.recording = []) :
    Inv x ctx { s with conn := c } where
  kept := hkept
  closed hclosing := hopen (h.closed hclosing)
  atEnd := hover
  abandoned := h.abandoned
  records := by
    show ∀ p ∈ s.handed ++ s.recording, ∃ st ∈ c.started, st.task.id = p.1
    rw [hstarted]
    exact h.records
  results := by
    show ∀ p ∈ s.ended, ∃ st ∈ c.started, st.task.id = p.1
    rw [hstarted]
    exact h.results
  written := h.written
  progress st hst haudited := by
    have hst : st ∈ s.conn.started := by rwa [← hstarted]
    have hsame : ∀ task ∈ s.conn.waitingTasks, task.id = st.task.id → task = st.task := by
      intro task htask hid
      obtain ⟨st', hst', rfl⟩ := List.mem_map.1 (h.kept.tracked.waiting_started task htask)
      rw [h.kept.tracked.started_eq hst' hst hid]
    refine (h.progress st hst haudited).of_same ⟨fun p hp => ⟨fun hmem => hcommitting hmem, ?_⟩,
      fun p hp => ⟨fun hmem => hawaiting hmem, ?_⟩, ?_, rfl, rfl⟩
    · intro hmem
      refine hcommitting' p hmem ?_
      rwa [hsame p.1 (List.mem_append_left _ (List.mem_map_of_mem hmem)) hp]
    · intro hmem
      refine hawaiting' p hmem ?_
      rwa [hsame p.1 (List.mem_append_right _ (List.mem_map_of_mem hmem)) hp]
    · rw [hsent]

/-- One task moves, records something and has results. -/
theorem advance (h : Inv x ctx s) {l : List AuditEntry}
    {r : List (Except StatusCode ResponseMessage)} (hkept : Kept x c)
    (hmoves : Moves id s.conn c) (hpolls : s.conn.loop.polls)
    (hold : ∀ st ∈ s.conn.started, st ∈ c.started)
    (hnew : ∀ st ∈ c.started, st.task.id ≠ id → st ∈ s.conn.started)
    (hid : ∃ st ∈ c.started, st.task.id = id)
    (hr : id ∈ s.written → .error .badNotConnected ∉ r)
    (hprogress : ∀ st ∈ c.started, st.task.id = id → isAudited st.task.request →
      Progress x ctx { s with
        conn := c
        recording := s.recording ++ l.map (Prod.mk id)
        ended := s.ended ++ r.map (Prod.mk id) } st) :
    Inv x ctx { s with
      conn := c
      recording := s.recording ++ l.map (Prod.mk id)
      ended := s.ended ++ r.map (Prod.mk id) } where
  kept := hkept
  closed hclosing := by
    show c.upstreamOpen = false
    rw [hmoves.upstreamOpen]
    exact h.closed hclosing
  atEnd hended := by
    have hended : c.loop = .ended := hended
    rw [← hmoves.loop, hended] at hpolls
    cases hpolls
  abandoned := h.abandoned
  records p hp := by
    have hp : p ∈ s.handed ++ (s.recording ++ l.map (Prod.mk id)) := hp
    rw [← List.append_assoc] at hp
    rcases List.mem_append.1 hp with hp | hp
    · obtain ⟨st, hst, heq⟩ := h.records p hp
      exact ⟨st, hold st hst, heq⟩
    · obtain ⟨entry, -, rfl⟩ := List.mem_map.1 hp
      exact hid
  results p hp := by
    rcases List.mem_append.1 hp with hp | hp
    · obtain ⟨st, hst, heq⟩ := h.results p hp
      exact ⟨st, hold st hst, heq⟩
    · obtain ⟨entry, -, rfl⟩ := List.mem_map.1 hp
      exact hid
  written i hi := by
    unfold ConnectionTask.results
    dsimp only
    rw [map_snd_filter_append, List.mem_append, not_or]
    refine ⟨h.written i hi, ?_⟩
    by_cases heq : id = i
    · rw [if_pos heq]
      exact hr (by rwa [heq])
    · rw [if_neg heq]
      exact List.not_mem_nil
  progress st hst haudited := by
    by_cases heq : st.task.id = id
    · exact hprogress st hst heq haudited
    · refine (h.progress st (hnew st hst heq) haudited).of_same ⟨fun p hp => ?_, fun p hp => ?_,
        hmoves.sent _ heq, ?_, ?_⟩
      · exact hmoves.committing p (by rwa [hp])
      · exact hmoves.awaiting p (by rwa [hp])
      · unfold ConnectionTask.results
        dsimp only
        rw [map_snd_filter_append, if_neg (Ne.symm heq), List.append_nil]
      · unfold ConnectionTask.allRecords
        dsimp only
        rw [← List.append_assoc, map_snd_filter_append, if_neg (Ne.symm heq), List.append_nil]

end Inv

/-- The records of the task that moved. -/
theorem allRecords_recording (s : ConnectionTask) (c : Connection) (l : List AuditEntry) (id : ℕ)
    (r : List (ℕ × Except StatusCode ResponseMessage)) :
    allRecords { s with
      conn := c
      recording := s.recording ++ l.map (Prod.mk id)
      ended := r } id = s.allRecords id ++ l := by
  unfold allRecords
  dsimp only
  rw [← List.append_assoc, map_snd_filter_append, if_pos rfl]

/-- The results of the task that moved. -/
theorem results_ended (s : ConnectionTask) (c : Connection) (l : List (ℕ × AuditEntry)) (id : ℕ)
    (r : List (Except StatusCode ResponseMessage)) :
    results { s with
      conn := c
      recording := l
      ended := s.ended ++ r.map (Prod.mk id) } id = s.results id ++ r := by
  unfold results
  dsimp only
  rw [map_snd_filter_append, if_pos rfl]

/-- New records of a task are determined by all of them. -/
theorem eq_of_append_map {a : List (ℕ × AuditEntry)} {l m : List AuditEntry} {id : ℕ}
    (h : a ++ l.map (Prod.mk id) = a ++ m.map (Prod.mk id)) : l = m :=
  List.map_injective_iff.2 (Prod.mk_right_injective id) (List.append_cancel_left h)

/-- A change whose plan is ready, and what it records. -/
theorem Progress.of_forwarded {f : Forward} {u : Connection} {l : List AuditEntry}
    (hf : ∃ names, prepare x st.settings names st.client st.task.request = some f)
    (h : Forwarded x ctx st f u t.conn) (hfree : Free u st.task.id)
    (hsent : ¬ u.sent.any (Sent.isRequest st.task.id)) (hresults : t.results st.task.id = [])
    (hrecorded : t.conn.recorded = u.recorded ++ l.map (Prod.mk st.task.id))
    (hrecords : t.allRecords st.task.id = l) : Progress x ctx t st := by
  have hnone : t.conn.recorded = u.recorded → l = [] := by
    intro heq
    rw [hrecorded] at heq
    simpa using heq
  cases h with
  | held entry hcommitting hawaiting hsent' hrecorded' =>
    refine .committing (st.task, f, entry) ?_ rfl hf (by rwa [hsent']) hresults ?_
    · rw [hcommitting]
      exact List.mem_append_right _ (List.mem_singleton_self _)
    · rw [hrecords, hnone hrecorded']
  | handed hcommitting hawaiting hsent' hrecorded' =>
    refine .awaiting f ?_ hf hsent' hresults ?_
    · rw [hawaiting]
      exact List.mem_append_right _ (List.mem_singleton_self _)
    · rw [hrecords, hnone hrecorded']
  | unsent entries hentries hframe hrecorded' =>
    refine .unsent (hfree.frame hframe) (by rwa [hframe.sent]) hresults ?_
    rw [hrecorded] at hrecorded'
    rwa [hrecords, eq_of_append_map hrecorded']

/-- A step of the connection hands its records to the audit one by one. -/
theorem apply_eq_some {op : Connection.Op} :
    s.apply x ctx op = some t ↔ ∃ c, s.conn.step x ctx op = some c ∧
      { s with conn := c, recording := s.recording ++ outcomes s.conn c op } = t :=
  Option.map_eq_some_iff

/-- What a step records of outcomes. -/
theorem outcomes_of_recorded {a b : Connection} {op : Connection.Op} {l : List (ℕ × AuditEntry)}
    (hop : ∀ id ok now instant, op ≠ .committed id ok now instant)
    (h : b.recorded = a.recorded ++ l) : outcomes a b op = l := by
  unfold outcomes
  split
  · exact absurd rfl (hop _ _ _ _)
  · rw [h, List.drop_left]

namespace Inv

/-- A task runs for the first time. -/
theorem poll (h : Inv x ctx s) {settings : Settings} {checks : Except StatusCode UserIdentity}
    (hr : Assumed s (.relay (.poll settings checks)))
    (hs : s.apply x ctx (.poll settings checks) = some t) : Inv x ctx t := by
  obtain ⟨c, hc, rfl⟩ := apply_eq_some.1 hs
  have hkept := Connection.kept_step h.kept (by exact hr) hc
  obtain ⟨task, fresh, hfresh, hpolls, hc⟩ := Connection.step_poll hc
  have hr : task.request.Renderable := hr task (by rw [hfresh]; rfl)
  have hplan := (AuditMap.plan_isSome_iff x task.request).2 hr
  set st : Started := ⟨task, settings, attributed ctx s.conn.shared.sessions task.request⟩
    with hst
  obtain ⟨hbegin, hout, hunsent⟩ := h.kept.tracked.begin hfresh st rfl
  set u : Connection := { s.conn with fresh := fresh, started := s.conn.started ++ [st] } with hu
  have hcase := @Connection.start_cases x ctx task u settings checks
  have hmoves : Moves task.id s.conn c := by
    have hu : Moves task.id s.conn u :=
      ⟨fun _ _ => Iff.rfl, fun _ _ => Iff.rfl, fun _ _ => rfl, rfl, rfl⟩
    refine hu.trans ?_
    rw [hc]
    exact Connection.moves_start hcase hplan
  have hstarted : c.started = s.conn.started ++ [st] := by
    rw [hc, Connection.started_start]
  obtain ⟨l, hl⟩ := Connection.recorded_start x ctx u task settings checks
  rw [← hc] at hl
  have hnew : ∀ st' ∈ s.conn.started, st'.task.id ≠ task.id := fun st' hst' =>
    h.kept.tracked.new_of_fresh hfresh st' hst'
  have houtcomes : outcomes s.conn c (.poll settings checks) = l.map (Prod.mk task.id) :=
    outcomes_of_recorded (fun _ _ _ _ hop => by cases hop) hl
  rw [houtcomes]
  have hresults : s.results task.id = [] := by
    refine List.map_eq_nil_iff.2 (List.filter_eq_nil_iff.2 fun p hp hid => ?_)
    obtain ⟨st', hst', heq⟩ := h.results p hp
    exact hnew st' hst' (heq.trans (of_decide_eq_true hid))
  have hrecords : s.allRecords task.id = [] := by
    refine List.map_eq_nil_iff.2 (List.filter_eq_nil_iff.2 fun p hp hid => ?_)
    obtain ⟨st', hst', heq⟩ := h.records p hp
    exact hnew st' hst' (heq.trans (of_decide_eq_true hid))
  have hadvance := @advance x ctx s c task.id h l [] hkept hmoves hpolls
  rw [List.map_nil, List.append_nil, hstarted] at hadvance
  refine hadvance (fun st' hst' => List.mem_append_left _ hst') (fun st' hst' hne => ?_)
    ⟨st, List.mem_append_right _ (List.mem_singleton_self _), rfl⟩ (fun _ => List.not_mem_nil)
    fun st' hst' hid haudited => ?_
  · rcases List.mem_append.1 hst' with hst' | hst'
    · exact hst'
    · rw [List.mem_singleton.1 hst'] at hne
      exact absurd rfl hne
  · rcases List.mem_append.1 hst' with hst' | hst'
    · exact absurd hid (hnew st' hst')
    · obtain rfl := List.mem_singleton.1 hst'
      -- the request of a change is planned, and its task forwards it
      obtain ⟨p, hp⟩ := Option.isSome_iff_exists.1 hplan
      obtain ⟨f, hf⟩ : ∃ f, prepare x settings s.conn.shared.names st.client task.request =
          some f := by
        rw [prepare, hp]
        exact ⟨_, rfl⟩
      have hforwarded := @Connection.start_forwarded x ctx u st f haudited rfl hf checks
      rw [← hc] at hforwarded
      refine Progress.of_forwarded ⟨_, hf⟩ hforwarded (Connection.free_of_not_mem hout) ?_
        hresults hl ?_
      · rw [Bool.not_eq_true, List.any_eq_false]
        intro m hm hfor
        cases m with
        | read => cases hfor
        | request i message => exact hunsent _ hm (of_decide_eq_true hfor)
      · exact (allRecords_recording s c l task.id _).trans (by rw [hrecords, List.nil_append])

/-- The commit of an intent succeeds or fails. -/
theorem committed (h : Inv x ctx s) {id instant : ℕ} {ok : Bool} {now : DateTime}
    (hs : s.apply x ctx (.committed id ok now instant) = some t) : Inv x ctx t := by
  obtain ⟨c, hc, rfl⟩ := apply_eq_some.1 hs
  have hkept := Connection.kept_committed h.kept hc
  obtain ⟨task, f, entry, hfind, hpolls, hcase⟩ := Connection.step_committed hc
  obtain ⟨htracked, hid, hmem, hstarted, hout⟩ := h.kept.tracked.release hfind
  have hid : task.id = id := hid
  obtain ⟨st, hst, htask⟩ := List.mem_map.1 hstarted
  set u : Connection :=
    { s.conn with committing := s.conn.committing.eraseP fun p => p.1.id = id } with hu
  have hmoves : Moves id s.conn u := Connection.moves_eraseP_committing s.conn id
  have hbefore : ∀ st' ∈ s.conn.started, st'.task.id = id → isAudited st'.task.request →
      task = st'.task ∧
        (∃ names, prepare x st'.settings names st'.client st'.task.request = some f) ∧
        ¬ s.conn.sent.any (Sent.isRequest st'.task.id) ∧ s.results st'.task.id = [] ∧
        s.allRecords st'.task.id = [] := fun st' hst' hid' haudited =>
    (h.progress st' hst' haudited).of_committing h.kept.tracked hmem (hid.trans hid'.symm)
  rcases hcase with ⟨-, hc⟩ | ⟨-, hc⟩
  · obtain ⟨l, hl⟩ := Connection.recorded_handOver x ctx (u.record id entry) task (.forward f)
      f.preRead now instant
    rw [← hc, hid] at hl
    have houtcomes : outcomes s.conn c (.committed id ok now instant) = l.map (Prod.mk id) := by
      show (c.recorded.drop s.conn.recorded.length).tail = _
      rw [hl]
      show (((s.conn.recorded ++ [(id, entry)]) ++ l.map (Prod.mk id)).drop _).tail = _
      rw [List.append_assoc, List.drop_left]
      rfl
    rw [houtcomes]
    have hmoves' : Moves id (u.record id entry) c := by
      rw [hc, ← hid]
      exact Connection.moves_handOver ..
    have hstarted' : c.started = s.conn.started := by
      rw [hc]
      rcases Connection.handOver_cases x ctx (u.record id entry) task (.forward f) f.preRead now
        instant with heq | hframe
      · rw [heq]
        rfl
      · exact hframe.started
    have hadvance := @advance x ctx s c id h l [] hkept
      ((hmoves.trans ((Connection.frame_record u id entry).moves id)).trans hmoves') hpolls
    rw [List.map_nil, List.append_nil, hstarted'] at hadvance
    refine hadvance (fun _ hst' => hst') (fun _ hst' _ => hst')
      ⟨st, hst, (by rw [htask, hid])⟩ (fun _ => List.not_mem_nil) fun st' hst' hid' haudited => ?_
    obtain ⟨rfl, hf, hsent, hresults, hrecords⟩ := hbefore st' hst' hid' haudited
    have hforwarded := @Connection.handOver_forwarded x ctx _ _ _ haudited hf.choose_spec
      (u.record id entry) f.preRead now instant
    rw [← hc] at hforwarded
    refine Progress.of_forwarded hf hforwarded
      ((Connection.free_of_not_mem hout).frame (Connection.frame_record ..)) hsent hresults
      (by rw [hl, hid']) ?_
    rw [hid']
    exact (allRecords_recording s c l id _).trans (by rw [← hid', hrecords, List.nil_append])
  · have houtcomes : outcomes s.conn c (.committed id ok now instant) = [] := by
      rw [hc]
      show (s.conn.recorded.drop s.conn.recorded.length).tail = []
      rw [List.drop_length]
      rfl
    rw [houtcomes, List.append_nil]
    subst hc
    have hframe := Connection.frame_respond u id (fault task.request .badInternalError)
    have hadvance := @advance x ctx s _ id h [] [] hkept (hmoves.trans (hframe.moves id)) hpolls
    rw [List.map_nil, List.map_nil, List.append_nil, List.append_nil] at hadvance
    refine hadvance (fun _ hst' => hst') (fun _ hst' _ => hst')
      ⟨st, hst, (by rw [htask, hid])⟩ (fun _ => List.not_mem_nil) fun st' hst' hid' haudited => ?_
    obtain ⟨rfl, hf, hsent, hresults, hrecords⟩ := hbefore st' hst' hid' haudited
    exact .refused ((Connection.free_of_not_mem hout).frame hframe) hsent hresults hrecords

/-- The channel is done with a request. -/
theorem returned (h : Inv x ctx s) {id instant : ℕ} {result : Except StatusCode ResponseMessage}
    {read : Option (List DataValue)} {checks : Except StatusCode Unit} {now : DateTime}
    (hr : Assumed s (.returned id result read checks now instant))
    (hs : s.step x ctx (.returned id result read checks now instant) = some t) :
    Inv x ctx t := by
  obtain ⟨t', ht', rfl⟩ := Option.map_eq_some_iff.1 hs
  obtain ⟨c, hc, rfl⟩ := apply_eq_some.1 ht'
  have hkept := Connection.kept_answer h.kept (fun _ => hr.2) hc
  obtain ⟨task, awaiting, hfind, hpolls, hc⟩ := Connection.step_answer hc
  have hmem := List.mem_of_find?_eq_some hfind
  have hid : task.id = id := by simpa using List.find?_some hfind
  have hfree := h.kept.tracked.free_of_find? hfind
  obtain ⟨st, hst, htask⟩ := List.mem_map.1
    (h.kept.tracked.waiting_started task (List.mem_append_right _ (List.mem_map_of_mem hmem)))
  set u : Connection :=
    { s.conn with awaiting := s.conn.awaiting.eraseP fun p => p.1.id = id } with hu
  have happlied : ∀ f, awaiting = .forward f → (f.applied x u.shared.names read).isSome :=
    fun f hf => Forward.applied_isSome x u.shared.names
      (h.kept.tracked.targets' _ hmem f hf) (hr.2 _ hmem hid f hf)
  have hframe : Connection.Frame u c := by
    rw [hc]
    refine (Connection.frame_complete ..).resolve_right ?_
    rintro ⟨-, f, hf, hnone⟩
    have hsome := happlied f hf
    rw [hnone] at hsome
    cases hsome
  obtain ⟨l, hl⟩ := Connection.recorded_complete x ctx u task awaiting (upstreamSend result) read
    checks now instant
  rw [← hc, hid] at hl
  have houtcomes : outcomes s.conn c (.answer id (upstreamSend result) read checks now instant) =
      l.map (Prod.mk id) := outcomes_of_recorded (fun _ _ _ _ hop => by cases hop) hl
  rw [houtcomes]
  have hmoves : Moves id s.conn u := Connection.moves_eraseP_awaiting s.conn id
  have hadvance := @advance x ctx s c id h l [result] hkept
    (hmoves.trans (hframe.moves id)) hpolls
  have hstarted' : c.started = s.conn.started := hframe.started
  rw [hstarted'] at hadvance
  refine hadvance (fun _ hst' => hst') (fun _ hst' _ => hst')
    ⟨st, hst, (by rw [htask, hid])⟩ (fun hwritten hmem => ?_) fun st' hst' hid' haudited => ?_
  · exact hr.1 (List.mem_singleton.1 hmem).symm hwritten
  · obtain ⟨rfl, ⟨f, hforward, names, hf⟩, hsent, hresults, hrecords⟩ :=
      (h.progress st' hst' haudited).of_awaiting h.kept.tracked hmem (hid.trans hid'.symm)
    have hforward : awaiting = .forward f := hforward
    subst hforward
    obtain ⟨entries, hentries, heq, -⟩ := @Connection.completeForward_recordedAs x ctx
      _ _ _ haudited hf u (upstreamSend result) _ now (happlied f rfl)
    have hc : c = Connection.completeForward x ctx u st'.task f (upstreamSend result) read now :=
      hc
    rw [← hc, hl, hid] at heq
    obtain rfl := eq_of_append_map heq
    refine .returned result ?_ ?_ ?_ ?_
    · rw [hid']
      exact hfree.frame hframe
    · show c.sent.any _
      rwa [hframe.sent]
    · rw [hid']
      exact (results_ended s c _ id [result]).trans (by rw [← hid', hresults, List.nil_append])
    · rw [hid']
      have hall := allRecords_recording s c l id (s.ended ++ [result].map (Prod.mk id))
      rw [← hid', hrecords, List.nil_append, hid'] at hall
      rwa [hall]

variable {c : Connection}

/-- The connection changes, but no task moves. -/
theorem still_of_eq (h : Inv x ctx s) (hkept : Kept x c) (hstarted : c.started = s.conn.started)
    (hsent : c.sent = s.conn.sent) (hcommitting : c.committing = s.conn.committing)
    (hawaiting : c.awaiting = s.conn.awaiting)
    (hopen : s.conn.upstreamOpen = false → c.upstreamOpen = false)
    (hover : c.loop = .ended → c.tasks = [] ∧ s.recording = []) :
    Inv x ctx { s with conn := c } := by
  refine h.still hkept hstarted hsent ?_ (fun p hp _ => ?_) ?_ (fun p hp _ => ?_) hopen hover
  · rw [hcommitting]
    exact List.Subset.refl _
  · rwa [hcommitting]
  · rw [hawaiting]
    exact List.Subset.refl _
  · rwa [hawaiting]

/-- A step of the connection in which nothing is recorded. -/
theorem apply_eq {op : Connection.Op} (hs : s.apply x ctx op = some t)
    (hc : s.conn.step x ctx op = some c) (hrecorded : c.recorded = s.conn.recorded)
    (hop : ∀ id ok now instant, op ≠ .committed id ok now instant) : t = { s with conn := c } := by
  obtain ⟨c', hc', rfl⟩ := apply_eq_some.1 hs
  obtain rfl : c = c' := Option.some.inj (hc.symm.trans hc')
  rw [outcomes_of_recorded (l := []) hop (by rw [hrecorded, List.append_nil]), List.append_nil]

/-- A request arrives. -/
theorem receive (h : Inv x ctx s) {message : RequestMessage} {upstream : Except StatusCode Unit}
    (hs : s.apply x ctx (.receive message upstream) = some t) : Inv x ctx t := by
  obtain ⟨c, hc, -⟩ := apply_eq_some.1 hs
  have hkept := Connection.kept_step h.kept (by trivial) hc
  have heq : c.started = s.conn.started ∧ c.sent = s.conn.sent ∧
      c.committing = s.conn.committing ∧ c.awaiting = s.conn.awaiting ∧
      c.recorded = s.conn.recorded ∧ c.upstreamOpen = s.conn.upstreamOpen ∧ c.loop ≠ .ended := by
    rcases Connection.step_receive hc with ⟨hloop, rfl⟩ | ⟨hloop, rfl⟩
    · unfold Connection.receive
      dsimp only
      split_ifs
      · split
        · exact ⟨rfl, rfl, rfl, rfl, rfl, rfl, fun hended => by cases hended⟩
        · exact ⟨rfl, rfl, rfl, rfl, rfl, rfl, by rw [hloop]; exact fun hended => by cases hended⟩
      · split
        · exact ⟨rfl, rfl, rfl, rfl, rfl, rfl, by
            show s.conn.loop ≠ _
            rw [hloop]
            exact fun hended => by cases hended⟩
        · exact ⟨rfl, rfl, rfl, rfl, rfl, rfl, by rw [hloop]; exact fun hended => by cases hended⟩
    · exact ⟨rfl, rfl, rfl, rfl, rfl, rfl, by rw [hloop]; exact fun hended => by cases hended⟩
  obtain ⟨hstarted, hsent, hcommitting, hawaiting, hrecorded, hopen, hended⟩ := heq
  rw [apply_eq hs hc hrecorded fun _ _ _ _ hop => by cases hop]
  exact h.still_of_eq hkept hstarted hsent hcommitting hawaiting
    (fun hclosed => hopen.trans hclosed) fun heq => absurd heq hended

/-- The audited tasks are kept. -/
theorem finishAudited (h : Inv x ctx s) {order : List ℕ}
    (hs : s.apply x ctx (.finishAudited order) = some t) : Inv x ctx t := by
  obtain ⟨c, hc, -⟩ := apply_eq_some.1 hs
  have hkept := Connection.kept_step h.kept (by trivial) hc
  have haudited : ∀ task ∈ s.conn.waitingTasks, isAudited task.request → task.audited := by
    intro task htask hrequest
    rw [h.kept.tracked.audited task (List.mem_append_left _
      (h.kept.tracked.waiting_started task htask)), hrequest, Bool.true_or]
  have hc' := hc
  obtain ⟨-, rfl⟩ := Connection.step_finishAudited hc
  rw [apply_eq hs hc' rfl fun _ _ _ _ hop => by cases hop]
  refine h.still hkept rfl rfl List.filter_sublist.subset (fun p hp hrequest => ?_)
    List.filter_sublist.subset (fun p hp hrequest => ?_) (fun hclosed => hclosed)
    fun hended => by cases hended
  · exact List.mem_filter.2 ⟨hp, haudited p.1
      (List.mem_append_left _ (List.mem_map_of_mem hp)) hrequest⟩
  · exact List.mem_filter.2 ⟨hp, haudited p.1
      (List.mem_append_right _ (List.mem_map_of_mem hp)) hrequest⟩

/-- The invariant behind a step of the connection. -/
theorem relay (h : Inv x ctx s) {op : Connection.Op} (hr : Assumed s (.relay op))
    (hs : s.step x ctx (.relay op) = some t) : Inv x ctx t := by
  simp only [step] at hs
  split_ifs at hs with hrelay
  cases op with
  | elsewhere shared =>
    have hc : s.conn.step x ctx (.elsewhere shared) = some { s.conn with shared := shared } := rfl
    rw [apply_eq hs hc rfl fun _ _ _ _ hop => by cases hop]
    exact h.still_of_eq (Connection.kept_step h.kept (by trivial) hc) rfl rfl rfl rfl
      (fun hclosed => hclosed) h.atEnd
  | receive message upstream => exact h.receive hs
  | upstreamClosed =>
    have hc : s.conn.step x ctx .upstreamClosed = some { s.conn with upstreamOpen := false } := rfl
    rw [apply_eq hs hc rfl fun _ _ _ _ hop => by cases hop]
    exact h.still_of_eq (Connection.kept_step h.kept (by trivial) hc) rfl rfl rfl rfl
      (fun _ => rfl) h.atEnd
  | close =>
    obtain ⟨c, hc, -⟩ := apply_eq_some.1 hs
    have hkept := Connection.kept_step h.kept (by trivial) hc
    have hc' := hc
    obtain ⟨-, rfl⟩ := Connection.step_close hc
    rw [apply_eq hs hc' rfl fun _ _ _ _ hop => by cases hop]
    exact h.still_of_eq hkept rfl rfl rfl rfl (fun hclosed => hclosed) fun hended => by cases hended
  | stop =>
    obtain ⟨c, hc, -⟩ := apply_eq_some.1 hs
    have hkept := Connection.kept_step h.kept (by trivial) hc
    have hc' := hc
    obtain ⟨-, rfl⟩ := Connection.step_stop hc
    rw [apply_eq hs hc' rfl fun _ _ _ _ hop => by cases hop]
    exact h.still_of_eq hkept rfl rfl rfl rfl (fun hclosed => hclosed) fun hended => by cases hended
  | finishAudited order => exact h.finishAudited hs
  | poll settings checks => exact h.poll hr hs
  | committed id ok now instant => exact h.committed hs
  | giveUp => cases hrelay
  | answer id answer read checks now instant => cases hrelay

/-- A request is written that the channel did not refuse. -/
theorem write (h : Inv x ctx s) {id : ℕ} (hr : Assumed s (.write id))
    (hs : s.step x ctx (.write id) = some t) : Inv x ctx t := by
  simp only [step] at hs
  split_ifs at hs
  cases hs
  refine { h with written := fun i hi => ?_, progress := fun st hst haudited => ?_ }
  · rcases List.mem_append.1 hi with hi | hi
    · exact h.written i hi
    · rw [List.mem_singleton.1 hi]
      exact hr
  · exact (h.progress st hst haudited).of_same
      ⟨fun _ _ => Iff.rfl, fun _ _ => Iff.rfl, rfl, rfl, rfl⟩

/-- A record is handed over; it stays one of its request. -/
theorem audited (h : Inv x ctx s) {id : ℕ} (hs : s.step x ctx (.audited id) = some t) :
    Inv x ctx t := by
  simp only [step] at hs
  split at hs
  · next p hfind =>
    split_ifs at hs with hpolls
    cases hs
    have hperm := Machine.perm_of_find? hfind
    have hid : p.1 = id := by simpa using List.find?_some hfind
    refine { h with
      atEnd := fun hended => ?_
      records := fun q hq => h.records q ?_
      progress := fun st hst haudited => ?_ }
    · have hended : s.conn.loop = .ended := hended
      rw [hended] at hpolls
      cases hpolls
    · have hq : q ∈ (s.handed ++ [p]) ++ s.recording.eraseP fun p => p.1 = id := hq
      rw [List.append_assoc] at hq
      rcases List.mem_append.1 hq with hq | hq
      · exact List.mem_append_left _ hq
      · exact List.mem_append_right _ (hperm.mem_iff.2 hq)
    · refine (h.progress st hst haudited).of_same
        ⟨fun _ _ => Iff.rfl, fun _ _ => Iff.rfl, rfl, rfl, ?_⟩
      unfold allRecords
      dsimp only
      rw [List.append_assoc, List.filter_append, filter_cons_eraseP hfind, List.filter_append]
  · cases hs

/-- The connection ends with nothing left to do. -/
theorem drained (h : Inv x ctx s) (hs : s.step x ctx .drained = some t) : Inv x ctx t := by
  simp only [step] at hs
  split_ifs at hs with hnothing
  have htasks := List.isEmpty_iff.1 hnothing.1
  obtain ⟨c, hc, -⟩ := apply_eq_some.1 hs
  have hkept := Connection.kept_step h.kept (by trivial) hc
  have hc' := hc
  obtain ⟨-, rfl⟩ := Connection.step_giveUp hc
  obtain ⟨-, hwaiting⟩ := List.append_eq_nil_iff.1 htasks
  obtain ⟨hcommitting, hawaiting⟩ := List.append_eq_nil_iff.1 hwaiting
  rw [apply_eq hs hc' rfl fun _ _ _ _ hop => by cases hop]
  exact h.still_of_eq hkept rfl rfl (List.map_eq_nil_iff.1 hcommitting).symm
    (List.map_eq_nil_iff.1 hawaiting).symm (fun hclosed => hclosed)
    fun _ => ⟨rfl, List.isEmpty_iff.1 hnothing.2⟩

/-- The upstream connection is closed when the time for answers is over. -/
theorem drainTimeout (h : Inv x ctx s) (hs : s.step x ctx .drainTimeout = some t) :
    Inv x ctx t := by
  simp only [step] at hs
  split_ifs at hs
  obtain ⟨t', ht', rfl⟩ := Option.map_eq_some_iff.1 hs
  have hinv := @relay x ctx s t' h .upstreamClosed trivial ht'
  obtain ⟨c, hc, rfl⟩ := apply_eq_some.1 ht'
  refine { hinv with closed := fun _ => ?_, progress := fun st hst haudited => ?_ }
  · cases hc
    rfl
  · exact (hinv.progress st hst haudited).of_same
      ⟨fun _ _ => Iff.rfl, fun _ _ => Iff.rfl, rfl, rfl, rfl⟩

/-- When the connection ends behind its last time limit, nothing is left to do. -/
theorem closeTimeout (h : Inv x ctx s) (hr : Assumed s .closeTimeout)
    (hs : s.step x ctx .closeTimeout = some t) : Inv x ctx t := by
  simp only [step] at hs
  split_ifs at hs with hclosing
  obtain ⟨t', ht', rfl⟩ := Option.map_eq_some_iff.1 hs
  obtain ⟨hcommitting, hrecording, hawaiting⟩ := hr
  have hawaiting := hawaiting (h.closed hclosing.1)
  have htasks : s.conn.tasks = [] := by
    rw [Connection.tasks, List.isEmpty_iff.1 hclosing.2, hcommitting, hawaiting]
    rfl
  have hdrained : s.step x ctx .drained = some t' := by
    rw [step, if_pos ⟨List.isEmpty_iff.2 htasks, List.isEmpty_iff.2 hrecording⟩]
    exact ht'
  have hinv := h.drained hdrained
  obtain ⟨c, hc, -⟩ := apply_eq_some.1 ht'
  have hsame : t'.recording = [] := by
    have hc' := hc
    obtain ⟨-, rfl⟩ := Connection.step_giveUp hc
    rw [apply_eq ht' hc' rfl fun _ _ _ _ hop => by cases hop]
    exact hrecording
  refine { hinv with
    atEnd := fun hended => ⟨(hinv.atEnd hended).1, rfl⟩
    abandoned := ?_
    records := ?_
    progress := fun st hst haudited => ?_ }
  · show s.conn.tasks.map (·.id) ++ s.recording.map Prod.fst = []
    rw [htasks, hrecording]
    rfl
  · have hrecords := hinv.records
    rw [hsame] at hrecords
    exact hrecords
  · refine (hinv.progress st hst haudited).of_same
      ⟨fun _ _ => Iff.rfl, fun _ _ => Iff.rfl, rfl, rfl, ?_⟩
    unfold allRecords
    dsimp only
    rw [hsame]

end Inv

/-- **Step lemma**: every step under the assumptions keeps track of the outcomes. -/
theorem inv_step {op : Op} (h : Inv x ctx s) (hr : Assumed s op)
    (hs : s.step x ctx op = some t) : Inv x ctx t := by
  cases op with
  | relay op => exact h.relay hr hs
  | write id => exact h.write hr hs
  | returned id result read checks now instant => exact h.returned hr hs
  | audited id => exact h.audited hs
  | drained => exact h.drained hs
  | drainTimeout => exact h.drainTimeout hs
  | closeTimeout => exact h.closeTimeout hr hs

/-- The invariant at the start. -/
theorem inv_start (x : Texts) (ctx : Ctx) (shared : Shared) :
    Inv x ctx { conn := { shared := shared } } where
  kept := Connection.kept_start x shared
  closed hclosing := nomatch hclosing
  atEnd hended := nomatch hended
  abandoned := rfl
  records _ hp := nomatch hp
  results _ hp := nomatch hp
  written _ hid := nomatch hid
  progress _ hst := nomatch hst

/-- Nothing is left to do for the request with the number. -/
structure Done (s : ConnectionTask) (id : ℕ) : Prop where
  free : Free s.conn id
  recorded : ∀ p ∈ s.recording, p.1 ≠ id

/-- All records of a task that is done are with the audit. -/
theorem Done.allRecords_eq {id : ℕ} (h : Done s id) : s.allRecords id = s.records id := by
  have hnil : (s.recording.filter fun p => p.1 = id) = [] :=
    List.filter_eq_nil_iff.2 fun p hp heq => h.recorded p hp (of_decide_eq_true heq)
  rw [allRecords, List.filter_append, hnil, List.append_nil, ConnectionTask.records]

/-- A request that was handed over and for which nothing is left to do has its outcome. -/
theorem Inv.sent_of_done (h : Inv x ctx s) (hst : st ∈ s.conn.started)
    (haudited : isAudited st.task.request) (hdone : Done s st.task.id)
    (hsent : s.conn.sent.any (Sent.isRequest st.task.id)) : ∃ result,
      s.results st.task.id = [result] ∧
        RecordedFor x ctx st (s.records st.task.id) result := by
  rw [← hdone.allRecords_eq]
  cases h.progress st hst haudited with
  | committing p hp htask => exact absurd (by rw [htask]) (hdone.free.committing p hp)
  | awaiting f hp => exact absurd rfl (hdone.free.awaiting _ hp)
  | refused _ hunsent => exact absurd hsent hunsent
  | unsent _ hunsent => exact absurd hsent hunsent
  | returned result _ _ hresults hrecords =>
    exact ⟨result, hresults, recordedFor_of_upstreamSend hrecords⟩

/-- A request that was not handed over and for which nothing is left to do is recorded as a
failure, or not at all. -/
theorem Inv.unsent_of_done (h : Inv x ctx s) (hst : st ∈ s.conn.started)
    (haudited : isAudited st.task.request) (hdone : Done s st.task.id)
    (hunsent : ¬ s.conn.sent.any (Sent.isRequest st.task.id)) : s.records st.task.id = [] ∨
      RecordedAs x ctx st ⟨fault st.task.request .badServerNotConnected, none⟩
        (s.records st.task.id) := by
  rw [← hdone.allRecords_eq]
  cases h.progress st hst haudited with
  | committing _ _ _ _ _ _ hnone => exact .inl hnone
  | awaiting _ _ _ hsent => exact absurd hsent hunsent
  | refused _ _ _ hnone => exact .inl hnone
  | unsent _ _ _ hrecords => exact .inr hrecords
  | returned _ _ hsent => exact absurd hsent hunsent

/-- When the connection has ended, nothing is left to do for any request. -/
theorem Inv.settled (h : Inv x ctx s) (hended : s.conn.loop = .ended) : Settled x ctx s := by
  obtain ⟨htasks, hrecording⟩ := h.atEnd hended
  obtain ⟨-, hwaiting⟩ := List.append_eq_nil_iff.1 htasks
  obtain ⟨hcommitting, hawaiting⟩ := List.append_eq_nil_iff.1 hwaiting
  rw [List.map_eq_nil_iff] at hcommitting hawaiting
  have hdone : ∀ id, Done s id := by
    refine fun id => ⟨⟨?_, ?_⟩, ?_⟩
    · rw [hcommitting]
      exact fun _ hp => nomatch hp
    · rw [hawaiting]
      exact fun _ hp => nomatch hp
    · rw [hrecording]
      exact fun _ hp => nomatch hp
  exact ⟨fun st hst haudited hsent => h.sent_of_done hst haudited (hdone _) hsent, h.written,
    fun st hst haudited hunsent => h.unsent_of_done hst haudited (hdone _) hunsent,
    h.kept.kept, h.abandoned⟩

/-- In every run of a connection under the assumptions (`Assumed`: the values can be rendered,
`BadNotConnected` only comes for requests that never leave, the limits on the end of a connection
are met) nothing is ever recorded of a request beyond its outcome, and when the connection has
ended, **every audited request that was handed over has its outcome recorded exactly once**: the
results of its response, or an uncertain status; one that never left is recorded as a failure, and
no audited task was dropped. -/
theorem settled_of_assumed (shared : Shared) {ops : List Op}
    (hassumed : Machine.Meets (step x ctx) Assumed { conn := { shared := shared } } ops)
    (hr : Machine.run (step x ctx) { conn := { shared := shared } } ops = some t) :
    (∀ st ∈ t.conn.started, isAudited st.task.request → t.records st.task.id = [] ∨
      ∃ o rest, RecordedAs x ctx st o (t.records st.task.id ++ rest)) ∧
    (t.conn.loop = .ended → Settled x ctx t) := by
  have h : Inv x ctx t := Machine.run_invariant_of_meets
    (fun _ _ _ h hop hs => inv_step h hop hs) (inv_start x ctx shared) hassumed hr
  refine ⟨fun st hst haudited => ?_, h.settled⟩
  have hall : t.allRecords st.task.id = t.records st.task.id ++
      (t.recording.filter fun p => p.1 = st.task.id).map Prod.snd := by
    rw [allRecords, List.filter_append, List.map_append, ConnectionTask.records]
  have hnone : t.allRecords st.task.id = [] → t.records st.task.id = [] := by
    intro hnone
    rw [hall] at hnone
    exact (List.append_eq_nil_iff.1 hnone).1
  cases h.progress st hst haudited with
  | committing _ _ _ _ _ _ hrecords => exact .inl (hnone hrecords)
  | awaiting _ _ _ _ _ hrecords => exact .inl (hnone hrecords)
  | refused _ _ _ hrecords => exact .inl (hnone hrecords)
  | unsent _ _ _ hrecords => exact .inr ⟨_, _, hall ▸ hrecords⟩
  | returned result _ _ _ hrecords => exact .inr ⟨_, _, hall ▸ hrecords⟩

/-- The client is gone while a write waits for its answer; none comes before the upstream
connection is closed. -/
def drainedRun : List Op :=
  [.relay (.receive Connection.plainWrite (.ok ())),
    .relay (.poll (Connection.plainSettings .failOpen) (.ok .anonymous)), .write 0,
    .relay .stop, .relay (.finishAudited []), .drainTimeout,
    .returned 0 (.error .badConnectionClosed) none (.ok ()) ⟨1⟩ 1, .audited 0, .drained]

/-- A write without an answer is recorded when the connection has ended. -/
theorem settled_of_assumed_drainedRun : ∃ t,
    Machine.run (step Connection.plainTexts Connection.plainCtx)
      { conn := { shared := Connection.noSessions } } drainedRun = some t ∧
      (t.records 0).map (·.event.kind) = ["write"] ∧ t.written = [0] ∧
      Settled Connection.plainTexts Connection.plainCtx t := by
  obtain ⟨t, ht⟩ := Option.isSome_iff_exists.1
    (show (Machine.run (step Connection.plainTexts Connection.plainCtx)
      { conn := { shared := Connection.noSessions } } drainedRun).isSome = true from rfl)
  have hend : (Machine.run (step Connection.plainTexts Connection.plainCtx)
      { conn := { shared := Connection.noSessions } } drainedRun).map (fun t =>
        ((t.records 0).map (·.event.kind), t.written, t.conn.loop)) =
      some (["write"], [0], .ended) := rfl
  rw [ht, Option.map_some, Option.some.injEq, Prod.mk.injEq, Prod.mk.injEq] at hend
  refine ⟨t, ht, hend.1, hend.2.1, (settled_of_assumed Connection.noSessions ?_ ht).2 hend.2.2⟩
  refine Machine.meets_cons_of_eq _ trivial rfl (Machine.meets_cons_of_eq _ ?_ rfl
    (Machine.meets_cons_of_eq _ ?_ rfl (Machine.meets_cons_of_eq _ trivial rfl
    (Machine.meets_cons_of_eq _ trivial rfl (Machine.meets_cons_of_eq _ trivial rfl
    (Machine.meets_cons_of_eq _ ?_ rfl (Machine.meets_cons_of_eq _ trivial rfl
    (Machine.meets_cons_of_eq _ trivial rfl trivial))))))))
  · -- the write writes no value
    intro task htask
    obtain rfl := Option.some.inj htask
    intro v hv
    obtain rfl : v = .empty := List.mem_singleton.1 hv
    trivial
  · exact List.not_mem_nil
  · exact ⟨(fun h => nomatch h), fun _ _ _ _ _ _ _ _ hread => nomatch hread⟩

end ConnectionTask

end AuditGateway
