import AuditGateway.Relay.Admission
import AuditGateway.Relay.ConnectionTask

set_option relaxedAutoImplicit false
set_option autoImplicit false

/-!
# The connections of a target

The accept loop of a target counts every connection it accepts and gives it to a task of its own;
what it refuses is reported from time to time. The count is given back on the last line of the task,
so a task that does not get there keeps its place for as long as the target runs.

A panic of the connection loop is caught, and so is one of a request whose task runs in it. Behind
the loop, where audited requests are seen through, it is not.

## Main definitions

* `Phase`, `Phase.step` — a connection task, and what it does.
* `Serve`, `Serve.step` — the accept loop with its tasks.
* `Serve.Kept` — every place is held by a task, and every refusal is accounted for.
* `Connection.Panics` — the steps of a connection in which the task of a request panics.

## Main results

* `Connection.loop_ended_iff` — when a connection comes to its end.
* `Serve.inv_step` — what is counted, place by place.
* `slotsKept_iff` — in which runs no place is lost and no refusal forgotten.
-/

namespace AuditGateway

/-! ## A connection task -/

/-- Where a connection task stands. -/
inductive Phase
  | handshake
  /-- The connection loop, and behind it audited requests that are seen through. -/
  | serving (ctx : Ctx) (conn : Connection)
  /-- What comes then: the upstream connection is closed and the end recorded. -/
  | leaving
  /-- `run` has returned. -/
  | returned
  /-- The place was given back: the end of the task. -/
  | released
  /-- The task has ended by a panic. -/
  | panicked

/-- What can happen to a task. -/
inductive TaskOp
  | handshakeFailed
  | connected (ctx : Ctx) (shared : Shared)
  /-- A step of the connection. A request whose task cannot render a value panics in it. -/
  | serve (op : Connection.Op)
  /-- The connection loop panics in another way. -/
  | loopPanics
  /-- The task panics outside of the connection loop in another way. -/
  | panics
  /-- The last record is written, and `run` returns. -/
  | leave

namespace Phase

/-- The task has not ended. -/
def alive : Phase → Bool
  | released => false
  | panicked => false
  | _ => true

/-- The task has panicked. -/
def hasPanicked : Phase → Bool
  | panicked => true
  | _ => false

/-- The place of the connection was not given back. -/
def holds : Phase → Bool
  | released => false
  | _ => true

/-- The task has returned. -/
def hasReturned : Phase → Bool
  | returned => true
  | _ => false

/-- Behind a step of the connection. -/
def served (ctx : Ctx) (op : Connection.Op) (conn : Connection) : Phase :=
  match conn.loop, op with
  | .ended, .giveUp => leaving
  -- nobody catches a panic while audited requests are seen through
  | .ended, _ => panicked
  | _, _ => serving ctx conn

/-- One step. -/
def step (x : Texts) : Phase → TaskOp → Option Phase
  | handshake, .handshakeFailed => some returned
  | handshake, .connected ctx shared => some (serving ctx { shared := shared })
  | serving ctx conn, .serve op => (conn.step x ctx op).map (served ctx op)
  | serving ctx conn, .loopPanics =>
    if conn.loop = .running ∨ conn.loop = .closing then some (serving ctx conn.panic) else none
  | serving _ conn, .panics => if conn.loop = .draining then some panicked else none
  | handshake, .panics => some panicked
  | leaving, .panics => some panicked
  | leaving, .leave => some returned
  | _, _ => none

end Phase

/-! ## The accept loop -/

/-- A connection task, with the address of its client. -/
structure ClientTask (Ip : Type) where
  ip : Ip
  phase : Phase

/-- A target that accepts clients. -/
structure Serve (Ip : Type) where
  admission : Admission Ip
  tasks : List (ClientTask Ip) := []
  /-- What the running report has still to record. -/
  reporting : List (Ip × ℕ × String) := []
  /-- The records of refused connections, with the address they are about. -/
  recorded : List (Ip × AuditEntry) := []
  /-- Those that the audit returned an error for. -/
  failed : List (Ip × AuditEntry) := []
  /-- The refused connections, for the statements only. -/
  refused : List Ip := []

/-- The connections that a record counts. -/
def AuditEvent.refusedCount : AuditEvent → ℕ
  | connectionsRefused _ count _ => count
  | _ => 0

namespace Serve

/-- What can happen. -/
inductive Op (Ip : Type)
  /-- A client connects. -/
  | accept (now : ℚ) (ip : Ip)
  | report (now : ℚ)
  /-- The next record of the report, and what the audit returns for it. -/
  | record (now : DateTime) (result : Except Unit Unit)
  | task (i : ℕ) (op : TaskOp)
  /-- The last line of a task. -/
  | release (i : ℕ)

variable {Ip : Type}

/-- A target that accepts its first connections. -/
def start (Ip : Type) (maxConnections maxConnectionsPerAddress : ℕ) : Serve Ip :=
  { admission := .new Ip maxConnections maxConnectionsPerAddress }

/-- The record about refused connections. -/
def entry (text : Ip → String) (target : String) (now : DateTime) (r : Ip × ℕ × String) :
    AuditEntry :=
  (AuditEntry.new now (.connectionsRefused (text r.1) r.2.1 r.2.2)).withTarget target

variable [DecidableEq Ip]

/-- One step. `text` writes an address. -/
def step (x : Texts) (text : Ip → String) (target : String) (s : Serve Ip) :
    Op Ip → Option (Serve Ip)
  | .accept now ip =>
    -- while a report is recorded, nobody accepts
    if s.reporting.isEmpty then
      match s.admission.admitIp now ip with
      | (admission, .ok ()) =>
        some { s with admission := admission, tasks := s.tasks ++ [⟨ip, .handshake⟩] }
      | (admission, .error ()) =>
        some { s with admission := admission, refused := s.refused ++ [ip] }
    else none
  | .report now =>
    if s.reporting.isEmpty then
      let (admission, refused) := s.admission.takeRefused now
      some { s with admission := admission, reporting := refused }
    else none
  | .record now result =>
    match s.reporting with
    | [] => none
    | r :: reporting =>
      let s := { s with reporting := reporting }
      match result with
      | .ok () => some { s with recorded := s.recorded ++ [(r.1, entry text target now r)] }
      | .error () => some { s with failed := s.failed ++ [(r.1, entry text target now r)] }
  | .task i op =>
    match s.tasks[i]? with
    | some task =>
      (task.phase.step x op).map fun phase => { s with tasks := s.tasks.set i { task with phase } }
    | none => none
  | .release i =>
    match s.tasks[i]? with
    | some task =>
      if task.phase.hasReturned then
        some { s with
          admission := s.admission.release task.ip
          tasks := s.tasks.set i { task with phase := .released } }
      else none
    | none => none

/-! ## What is counted -/

/-- The refusals of an address in a report. -/
def reportedOf (reports : List (Ip × ℕ × String)) (ip : Ip) : ℕ :=
  ((reports.filter fun r => r.1 = ip).map (·.2.1)).sum

/-- The refusals of an address in records. -/
def countedOf (records : List (Ip × AuditEntry)) (ip : Ip) : ℕ :=
  ((records.filter fun r => r.1 = ip).map (·.2.event.refusedCount)).sum

/-- The refusals of an address that are still pending. -/
def pendingOf (s : Serve Ip) (ip : Ip) : ℕ :=
  s.admission.refusedOf ip + reportedOf s.reporting ip

/-- **No place is lost and no refusal forgotten**: what is counted in all is what is counted of the
addresses, and every place is held by a task that has not ended; there are not too many; and a
refused connection is counted in one record or still pending. -/
structure Kept (s : Serve Ip) : Prop where
  addresses : s.admission.active = s.admission.total
  tasks : s.admission.active = s.tasks.countP (·.phase.alive)
  bound : s.admission.active ≤ s.admission.maxTotal
  boundOf : ∀ ip, s.admission.activeOf ip ≤ s.admission.maxPerAddress
  refused : ∀ ip, s.refused.count ip = countedOf s.recorded ip + s.pendingOf ip

end Serve

/-! ## The end of a connection -/

namespace Connection

variable {x : Texts} {ctx : Ctx} {s t : Connection} {op : Op}

/-- The task of a request panics over a value that it cannot render: over one of the request when it
runs for the first time, or over an old value when it goes on. -/
def Panics (x : Texts) (s : Connection) : Op → Prop
  | .poll .. => ∃ task ∈ s.fresh.head?, ¬task.request.Renderable
  | .answer id _ read .. => ∃ p, s.awaiting.find? (fun p => p.1.id = id) = some p ∧
      ∃ f, p.2 = .forward f ∧ f.applied x s.shared.names read = none
  | _ => False

/-- A request that cannot be rendered is one that changes something. -/
theorem isAudited_of_not_renderable {request : RequestMessage} (h : ¬request.Renderable) :
    isAudited request := by
  unfold RequestMessage.Renderable RequestMessage.renderedValues at h
  split at h
  · rfl
  · rfl
  · exact absurd (fun _ hv => nomatch hv) h

/-- A panic ends a loop that is draining and stops any other one. -/
theorem loop_panic (s : Connection) :
    s.panic.loop = if s.loop = .draining then .ended else .stopped := by
  unfold panic
  split_ifs <;> rfl

/-- A task that runs for the first time panics exactly if its request cannot be rendered. -/
theorem loop_start (x : Texts) (ctx : Ctx) (s : Connection) (task : Task) (settings : Settings)
    (checks : Except StatusCode UserIdentity) :
    (task.request.Renderable → (start x ctx s task settings checks).loop = s.loop) ∧
    (¬task.request.Renderable → (start x ctx s task settings checks).loop =
      if s.loop = .draining then .ended else .stopped) := by
  constructor
  · intro hr
    have hplan := (AuditMap.plan_isSome_iff x task.request).2 hr
    rcases (start_cases s settings checks : StartCase x ctx settings task s _) with
      h | ⟨u, h, hf, -⟩ | ⟨u, f, entry, h, -, -, ht⟩ | ⟨u, f, awaiting, preRead, h, -, -, -, ht⟩
    · exact h.loop
    · unfold prepare at hf
      rw [Option.map_eq_none_iff] at hf
      rw [hf] at hplan
      cases hplan
    · rw [ht]
      exact h.loop
    · rw [ht]
      exact h.loop
  · intro hr
    have hplan : AuditMap.plan x task.request = none := by
      rw [← Option.not_isSome_iff_eq_none, AuditMap.plan_isSome_iff]
      exact hr
    rw [start_eq_forward (isAudited_of_not_renderable hr)]
    unfold forward prepare
    dsimp only
    rw [hplan, Option.map_none]
    dsimp only
    rw [loop_panic]
    rfl

/-- A task that goes on panics exactly if the results of its read cannot be applied. -/
theorem loop_complete (x : Texts) (ctx : Ctx) (s : Connection) (task : Task)
    (awaiting : Awaiting) (answer : Answer) (read : Option (List DataValue))
    (checks : Except StatusCode Unit) (now : DateTime) (instant : ℕ) :
    ((¬∃ f, awaiting = .forward f ∧ f.applied x s.shared.names read = none) →
      (complete x ctx s task awaiting answer read checks now instant).loop = s.loop) ∧
    ((∃ f, awaiting = .forward f ∧ f.applied x s.shared.names read = none) →
      (complete x ctx s task awaiting answer read checks now instant).loop =
        if s.loop = .draining then .ended else .stopped) := by
  constructor
  · intro happlied
    have hframe := (frame_complete x ctx s task awaiting answer read checks now
      instant).resolve_right fun h => happlied h.2
    exact hframe.loop
  · rintro ⟨f, rfl, happlied⟩
    unfold complete completeForward
    dsimp only
    rw [happlied]
    exact loop_panic s

/-- Receiving a request does not end the loop. -/
theorem loop_receive (s : Connection) (message : RequestMessage)
    (upstream : Except StatusCode Unit) (h : s.loop = .running) :
    (s.receive message upstream).loop ≠ .ended := by
  unfold receive
  dsimp only
  split_ifs
  · split
    · exact nofun
    · rw [h]
      exact nofun
  · split
    · show s.loop ≠ .ended
      rw [h]
      exact nofun
    · rw [h]
      exact nofun

/-- A step that leaves the loop as it is. -/
theorem ended_iff_of_still (h : s.loop ≠ .ended) (hloop : t.loop = s.loop)
    (hpanics : ¬s.Panics x op) (hop : op ≠ .giveUp) :
    t.loop = .ended ↔ s.loop = .draining ∧ (op = .giveUp ∨ s.Panics x op) := by
  rw [hloop]
  exact iff_of_false h fun h => h.2.elim hop hpanics

/-- A step in which a task panics. -/
theorem ended_iff_of_panic (hloop : t.loop = if s.loop = .draining then .ended else .stopped)
    (hpanics : s.Panics x op) :
    t.loop = .ended ↔ s.loop = .draining ∧ (op = .giveUp ∨ s.Panics x op) := by
  rw [hloop]
  split_ifs with hdraining
  · exact iff_of_true rfl ⟨hdraining, .inr hpanics⟩
  · exact iff_of_false nofun fun h => hdraining h.1

/-- When a poll ends the loop. -/
theorem ended_iff_poll {settings : Settings} {checks : Except StatusCode UserIdentity}
    (hs : s.step x ctx (.poll settings checks) = some t) (h : s.loop ≠ .ended) :
    t.loop = .ended ↔ s.loop = .draining ∧
      (Op.poll settings checks = .giveUp ∨ s.Panics x (.poll settings checks)) := by
  obtain ⟨task, fresh, hfresh, hpolls, rfl⟩ := step_poll hs
  have hstart := loop_start x ctx { s with
    fresh := fresh
    started := s.started ++
      [⟨task, settings, attributed ctx s.shared.sessions task.request⟩] } task settings checks
  have hiff : s.Panics x (.poll settings checks) ↔ ¬task.request.Renderable := by
    unfold Panics
    rw [hfresh]
    simp
  by_cases hr : task.request.Renderable
  · exact ended_iff_of_still h (hstart.1 hr) (fun hpanics => hiff.1 hpanics hr) nofun
  · exact ended_iff_of_panic (hstart.2 hr) (hiff.2 hr)

/-- When a commit ends the loop. -/
theorem ended_iff_committed {id : ℕ} {ok : Bool} {now : DateTime} {instant : ℕ}
    (hs : s.step x ctx (.committed id ok now instant) = some t) (h : s.loop ≠ .ended) :
    t.loop = .ended ↔ s.loop = .draining ∧ (Op.committed id ok now instant = .giveUp ∨
      s.Panics x (.committed id ok now instant)) := by
  obtain ⟨task, f, entry, hfind, hpolls, hcase⟩ := step_committed hs
  rcases hcase with ⟨hok, rfl⟩ | ⟨-, rfl⟩
  · refine ended_iff_of_still h ?_ (fun h => h) nofun
    rcases handOver_cases x ctx (record { s with
      committing := s.committing.eraseP fun p => p.1.id = id } id entry) task (.forward f)
        f.preRead now instant with hhanded | hframe
    · rw [hhanded]
      rfl
    · exact hframe.loop
  · exact ended_iff_of_still h rfl (fun h => h) nofun

/-- When an answer ends the loop. -/
theorem ended_iff_answer {id : ℕ} {answer : Answer} {read : Option (List DataValue)}
    {checks : Except StatusCode Unit} {now : DateTime} {instant : ℕ}
    (hs : s.step x ctx (.answer id answer read checks now instant) = some t)
    (h : s.loop ≠ .ended) :
    t.loop = .ended ↔ s.loop = .draining ∧
      (Op.answer id answer read checks now instant = .giveUp ∨
        s.Panics x (.answer id answer read checks now instant)) := by
  obtain ⟨task, awaiting, hfind, hpolls, rfl⟩ := step_answer hs
  have hcomplete := loop_complete x ctx
    { s with awaiting := s.awaiting.eraseP fun p => p.1.id = id } task awaiting answer read
      checks now instant
  have hiff : s.Panics x (.answer id answer read checks now instant) ↔
      ∃ f, awaiting = .forward f ∧ f.applied x s.shared.names read = none := by
    unfold Panics
    dsimp only
    rw [hfind]
    simp
  by_cases happlied : ∃ f, awaiting = .forward f ∧ f.applied x s.shared.names read = none
  · exact ended_iff_of_panic (hcomplete.2 happlied) (hiff.2 happlied)
  · have hpanics : ¬s.Panics x (.answer id answer read checks now instant) := mt hiff.1 happlied
    exact ended_iff_of_still h (hcomplete.1 happlied) hpanics nofun

/-- **When a connection comes to its end**: when it was waited long enough for audited requests, or
when the task of one of them panics. -/
theorem loop_ended_iff (hs : s.step x ctx op = some t) (h : s.loop ≠ .ended) :
    t.loop = .ended ↔ s.loop = .draining ∧ (op = .giveUp ∨ s.Panics x op) := by
  cases op with
  | elsewhere shared =>
    cases hs
    exact ended_iff_of_still h rfl id nofun
  | receive message upstream =>
    rcases step_receive hs with ⟨hrunning, rfl⟩ | ⟨-, rfl⟩
    · refine iff_of_false (loop_receive s message upstream hrunning) fun h => ?_
      exact nomatch hrunning.symm.trans h.1
    · exact ended_iff_of_still h rfl id nofun
  | upstreamClosed =>
    cases hs
    exact ended_iff_of_still h rfl id nofun
  | close =>
    obtain ⟨hrunning, rfl⟩ := step_close hs
    exact iff_of_false nofun fun h => nomatch hrunning.symm.trans h.1
  | stop =>
    obtain ⟨hopen, rfl⟩ := step_stop hs
    refine iff_of_false nofun fun h => ?_
    rw [h.1] at hopen
    exact hopen.elim nofun nofun
  | finishAudited order =>
    obtain ⟨hstopped, rfl⟩ := step_finishAudited hs
    exact iff_of_false nofun fun h => nomatch hstopped.1.symm.trans h.1
  | giveUp =>
    obtain ⟨hdraining, rfl⟩ := step_giveUp hs
    exact iff_of_true rfl ⟨hdraining, .inl rfl⟩
  | poll settings checks => exact ended_iff_poll hs h
  | committed id ok now instant => exact ended_iff_committed hs h
  | answer id answer read checks now instant => exact ended_iff_answer hs h

end Connection

/-! ## What a task does to the count -/

namespace Phase

variable {x : Texts} {p q : Phase} {op : TaskOp}

/-- A connection that is served has not come to its end. -/
def Open : Phase → Prop
  | serving _ conn => conn.loop ≠ .ended
  | _ => True

/-- A panic that nobody catches. -/
def Falls (x : Texts) : Phase → TaskOp → Prop
  | _, .panics => True
  | serving _ conn, .serve op => conn.loop = .draining ∧ conn.Panics x op
  | _, _ => False

/-- A task that has not ended holds its place and has not panicked. -/
theorem of_alive (h : p.alive) : p.holds = true ∧ p.hasPanicked = false := by
  cases p with
  | released => cases h
  | panicked => cases h
  | _ => exact ⟨rfl, rfl⟩

/-- A task that has returned has not given back its place yet. -/
theorem alive_of_hasReturned (h : p.hasReturned) : p.alive := by
  cases p with
  | returned => rfl
  | _ => cases h

/-- What a step of a task does that has not ended. -/
structure Steps (x : Texts) (p q : Phase) (op : TaskOp) : Prop where
  opened : q.Open
  alive : p.alive
  holds : q.holds
  panicked : q.hasPanicked ↔ p.Falls x op

/-- A step of a connection is one of its task. -/
theorem served_steps {ctx : Ctx} {conn conn' : Connection} {op : Connection.Op}
    (h : conn.loop ≠ .ended) (hstep : conn.step x ctx op = some conn') :
    Steps x (serving ctx conn) (served ctx op conn') (.serve op) := by
  have hiff := Connection.loop_ended_iff hstep h
  by_cases hended : conn'.loop = .ended
  · obtain ⟨hdraining, hop⟩ := hiff.1 hended
    by_cases hgive : op = .giveUp
    · subst hgive
      have hserved : served ctx .giveUp conn' = leaving := by
        unfold served
        rw [hended]
      rw [hserved]
      exact ⟨trivial, rfl, rfl, iff_of_false nofun fun h => h.2⟩
    · have hserved : served ctx op conn' = panicked := by
        unfold served
        rw [hended]
        cases op <;> first | rfl | exact absurd rfl hgive
      rw [hserved]
      exact ⟨trivial, rfl, rfl, iff_of_true rfl ⟨hdraining, hop.resolve_left hgive⟩⟩
  · have hserved : served ctx op conn' = serving ctx conn' := by
      unfold served
      split
      · next hend => exact absurd hend hended
      · next hend _ => exact absurd hend hended
      · rfl
    rw [hserved]
    refine ⟨hended, rfl, rfl, iff_of_false nofun fun hfalls => ?_⟩
    exact hended (hiff.2 ⟨hfalls.1, .inr hfalls.2⟩)

/-- **What a step of a task does**: it keeps its place, and falls if nobody catches its panic. -/
theorem step_steps (h : p.Open) (hstep : p.step x op = some q) : Steps x p q op := by
  unfold step at hstep
  split at hstep
  · cases hstep
    exact ⟨trivial, rfl, rfl, iff_of_false nofun id⟩
  · cases hstep
    exact ⟨nofun, rfl, rfl, iff_of_false nofun id⟩
  · obtain ⟨conn', hconn, rfl⟩ := Option.map_eq_some_iff.1 hstep
    exact served_steps h hconn
  · next conn =>
    split_ifs at hstep with hopen
    cases hstep
    refine ⟨?_, rfl, rfl, iff_of_false nofun id⟩
    unfold Open
    dsimp only
    rw [Connection.loop_panic, if_neg]
    · exact nofun
    · rintro hdraining
      rw [hdraining] at hopen
      exact hopen.elim nofun nofun
  · split_ifs at hstep
    cases hstep
    exact ⟨trivial, rfl, rfl, iff_of_true rfl trivial⟩
  · cases hstep
    exact ⟨trivial, rfl, rfl, iff_of_true rfl trivial⟩
  · cases hstep
    exact ⟨trivial, rfl, rfl, iff_of_true rfl trivial⟩
  · cases hstep
    exact ⟨trivial, rfl, rfl, iff_of_false nofun id⟩
  · cases hstep

end Phase

/-! ## What is counted, place by place -/

namespace Admission

variable {Ip : Type} [DecidableEq Ip]

/-- A report says of an address what was counted of it. -/
theorem reportedOf_takeRefused (a : Admission Ip) (now : ℚ) (ip : Ip) :
    Serve.reportedOf (a.takeRefused now).2 ip = a.refusedOf ip := by
  have hrows : (a.addresses.rows.filter fun s => 0 < s.refused).filter (fun s => s.ip = ip) =
      (a.addresses.get ip).toList.filter fun s => 0 < s.refused := by
    rw [← UniqueTable.filter_rows, List.filter_comm]
  unfold Serve.reportedOf takeRefused refusedOf
  dsimp only
  rw [List.filter_map, List.map_map]
  simp only [Function.comp_def]
  rw [hrows]
  cases a.addresses.get ip with
  | none => rfl
  | some s =>
    rw [Option.toList_some, Option.elim_some]
    by_cases hrefused : 0 < s.refused
    · simp [hrefused]
    · have hzero : s.refused = 0 := Nat.eq_zero_of_not_pos hrefused
      simp [hzero]

end Admission

namespace Serve

variable {Ip : Type} [DecidableEq Ip] {x : Texts} {text : Ip → String} {target : String}
  {s t : Serve Ip}

/-- The step makes no place vanish: no task panics outside of the connection loop, and the audit
returns no error for a record of refused connections. -/
def Safe (x : Texts) (s : Serve Ip) : Op Ip → Prop
  | .task i op => ∀ task ∈ s.tasks[i]?, ¬task.phase.Falls x op
  | .record _ result => result = .ok ()
  | _ => True

/-- What is lost: the places of tasks that have panicked, and the refusals in failed records. -/
def lost (s : Serve Ip) : ℕ :=
  s.tasks.countP (·.phase.hasPanicked) + (s.failed.map (·.2.event.refusedCount)).sum

/-- What is counted in every run. -/
structure Inv (s : Serve Ip) : Prop where
  opened : ∀ task ∈ s.tasks, task.phase.Open
  active : s.admission.active = s.tasks.countP (·.phase.holds)
  activeOf : ∀ ip, s.admission.activeOf ip = s.tasks.countP fun t => t.ip = ip ∧ t.phase.holds
  addresses : s.admission.active = s.admission.total
  bound : s.admission.active ≤ s.admission.maxTotal
  boundOf : ∀ ip, s.admission.activeOf ip ≤ s.admission.maxPerAddress
  reporting : ∀ r ∈ s.reporting, 0 < r.2.1
  refused : ∀ ip,
    s.refused.count ip = countedOf s.recorded ip + countedOf s.failed ip + s.pendingOf ip

/-- The invariant holds before the first connection. -/
theorem inv_start (maxConnections maxConnectionsPerAddress : ℕ) :
    (start Ip maxConnections maxConnectionsPerAddress).Inv where
  opened := nofun
  active := rfl
  activeOf _ := rfl
  addresses := rfl
  bound := Nat.zero_le _
  boundOf _ := Nat.zero_le _
  reporting := nofun
  refused _ := rfl

omit [DecidableEq Ip] in
/-- A task that changes counts in the place of what it was. -/
theorem countP_set {tasks : List (ClientTask Ip)} {i : ℕ} {a b : ClientTask Ip}
    (h : tasks[i]? = some a) (P : ClientTask Ip → Bool) :
    (tasks.set i b).countP P + (P a).toNat = tasks.countP P + (P b).toNat := by
  induction tasks generalizing i with
  | nil => cases h
  | cons c tasks ih =>
    cases i with
    | zero =>
      obtain rfl : c = a := Option.some.inj h
      rw [List.set_cons_zero, List.countP_cons, List.countP_cons]
      cases P c <;> cases P b <;> simp
    | succ i =>
      have ih := ih (i := i) h
      rw [List.set_cons_succ, List.countP_cons, List.countP_cons]
      omega

omit [DecidableEq Ip] in
/-- What holds of all tasks and of a changed one holds behind the change. -/
theorem forall_mem_set {tasks : List (ClientTask Ip)} {i : ℕ} {b : ClientTask Ip}
    {P : ClientTask Ip → Prop} (h : ∀ t ∈ tasks, P t) (hb : P b) : ∀ t ∈ tasks.set i b, P t := by
  intro t ht
  rcases List.mem_or_eq_of_mem_set ht with ht | rfl
  · exact h t ht
  · exact hb

/-- The refused connections that one more record counts. -/
theorem countedOf_append (records : List (Ip × AuditEntry)) (k : Ip) (e : AuditEntry) (ip : Ip) :
    countedOf (records ++ [(k, e)]) ip =
      countedOf records ip + if k = ip then e.event.refusedCount else 0 := by
  unfold countedOf
  rw [List.filter_append, List.map_append, List.sum_append]
  split_ifs with h <;> simp [h]

/-- The refused connections that one more report counts. -/
theorem reportedOf_cons (reports : List (Ip × ℕ × String)) (r : Ip × ℕ × String) (ip : Ip) :
    reportedOf (r :: reports) ip = (if r.1 = ip then r.2.1 else 0) + reportedOf reports ip := by
  unfold reportedOf
  split_ifs with h <;> simp [h]

omit [DecidableEq Ip] in
/-- The event of a report counts its connections. -/
@[simp] theorem refusedCount_entry (now : DateTime) (r : Ip × ℕ × String) :
    (entry text target now r).event.refusedCount = r.2.1 :=
  rfl

/-- What a step keeps, and what it loses. -/
structure Steps (x : Texts) (s t : Serve Ip) (op : Op Ip) : Prop where
  inv : t.Inv
  le : s.lost ≤ t.lost
  lost : t.lost = s.lost ↔ s.Safe x op

/-- A step that loses nothing. -/
theorem Steps.of_safe {op : Op Ip} (hinv : t.Inv) (hsafe : s.Safe x op) (hlost : t.lost = s.lost) :
    Steps x s t op :=
  ⟨hinv, hlost.ge, iff_of_true hlost hsafe⟩

/-- A connection that is admitted has a task. -/
theorem Inv.admitted (h : s.Inv) {admission : Admission Ip} {ip : Ip}
    (ha : Admission.Admitted s.admission admission ip) :
    Inv { s with admission := admission, tasks := s.tasks ++ [⟨ip, .handshake⟩] } := by
  constructor
  · intro task htask
    rcases List.mem_append.1 htask with htask | htask
    · exact h.opened task htask
    · obtain rfl := List.mem_singleton.1 htask
      trivial
  · rw [ha.active, h.active, List.countP_append]
    rfl
  · intro k
    rw [ha.activeOf, h.activeOf, List.countP_append, List.countP_singleton]
    simp only [decide_eq_true_eq]
    by_cases hk : k = ip
    · rw [if_pos hk, if_pos ⟨hk.symm, rfl⟩]
    · rw [if_neg hk, if_neg fun h => hk h.1.symm]
  · rw [ha.active, ha.total, h.addresses]
  · rw [ha.active, ha.maxTotal]
    exact ha.room
  · intro k
    have hroom := ha.roomOf
    have hbound := h.boundOf k
    rw [ha.activeOf, ha.maxPerAddress]
    split_ifs with hk
    · rw [hk]
      exact hroom
    · exact hbound
  · exact h.reporting
  · intro k
    have hrefused := h.refused k
    unfold pendingOf at hrefused ⊢
    rw [ha.refusedOf]
    exact hrefused

/-- A connection that is refused is pending. -/
theorem Inv.refuse (h : s.Inv) {admission : Admission Ip} {ip : Ip}
    (hr : Admission.Refused s.admission admission ip) :
    Inv { s with admission := admission, refused := s.refused ++ [ip] } := by
  constructor
  · exact h.opened
  · rw [hr.active, h.active]
  · intro k
    rw [hr.activeOf, h.activeOf]
  · rw [hr.active, hr.total, h.addresses]
  · rw [hr.active, hr.maxTotal]
    exact h.bound
  · intro k
    rw [hr.activeOf, hr.maxPerAddress]
    exact h.boundOf k
  · exact h.reporting
  · intro k
    have hrefused := h.refused k
    unfold pendingOf at hrefused ⊢
    rw [hr.refusedOf, List.count_append, hrefused, List.count_singleton]
    by_cases hk : k = ip
    · simp [hk]
      omega
    · simp [hk, Ne.symm hk]

/-- What accepting a connection does. -/
theorem steps_accept (h : s.Inv) {now : ℚ} {ip : Ip}
    (hstep : s.step x text target (.accept now ip) = some t) : Steps x s t (.accept now ip) := by
  unfold step at hstep
  dsimp only at hstep
  split_ifs at hstep with hidle
  have hcases := Admission.admitIp_cases s.admission now ip
  split at hstep
  · next admission hadmits =>
    rw [hadmits] at hcases
    obtain ⟨-, ha⟩ := hcases.resolve_right fun h => by cases h.1
    cases hstep
    exact .of_safe (h.admitted ha) trivial (by simp [lost, Phase.hasPanicked])
  · next admission hadmits =>
    rw [hadmits] at hcases
    obtain ⟨-, hr⟩ := hcases.resolve_left fun h => by cases h.1
    cases hstep
    exact .of_safe (h.refuse hr) trivial rfl

/-- What reporting refused connections does. -/
theorem steps_report (h : s.Inv) {now : ℚ}
    (hstep : s.step x text target (.report now) = some t) : Steps x s t (.report now) := by
  unfold step at hstep
  dsimp only at hstep
  split_ifs at hstep with hidle
  cases hstep
  refine Steps.of_safe ?_ trivial rfl
  constructor
  · exact h.opened
  · exact h.active
  · intro k
    rw [Admission.activeOf_takeRefused]
    exact h.activeOf k
  · rw [Admission.total_takeRefused]
    exact h.addresses
  · exact h.bound
  · intro k
    rw [Admission.activeOf_takeRefused]
    exact h.boundOf k
  · intro r hr
    have hr : (r.1, r.2.1, r.2.2) ∈ (s.admission.takeRefused now).2 := hr
    exact (Admission.mem_takeRefused hr).2
  · intro k
    have hrefused := h.refused k
    have hnone : reportedOf s.reporting k = 0 := by
      rw [List.isEmpty_iff.1 hidle]
      rfl
    unfold pendingOf at hrefused ⊢
    dsimp only
    rw [Admission.refusedOf_takeRefused, Admission.reportedOf_takeRefused, hrefused, hnone]
    omega

/-- What recording a report does. -/
theorem steps_record (h : s.Inv) {now : DateTime} {result : Except Unit Unit}
    (hstep : s.step x text target (.record now result) = some t) :
    Steps x s t (.record now result) := by
  unfold step at hstep
  dsimp only at hstep
  split at hstep
  · cases hstep
  · next r reporting hreporting =>
    have hcount : 0 < r.2.1 := h.reporting r (by rw [hreporting]; exact List.mem_cons_self ..)
    have hrest : ∀ r ∈ reporting, 0 < r.2.1 := by
      intro r hr
      exact h.reporting r (by rw [hreporting]; exact List.mem_cons_of_mem _ hr)
    have hrefused : ∀ k, s.refused.count k = countedOf s.recorded k + countedOf s.failed k +
        (s.admission.refusedOf k + ((if r.1 = k then r.2.1 else 0) + reportedOf reporting k)) := by
      intro k
      rw [← reportedOf_cons, ← hreporting]
      exact h.refused k
    cases result with
    | ok _ =>
      cases hstep
      refine Steps.of_safe ?_ rfl rfl
      refine ⟨h.opened, h.active, h.activeOf, h.addresses, h.bound, h.boundOf, hrest, fun k => ?_⟩
      unfold pendingOf
      dsimp only
      rw [hrefused, countedOf_append, refusedCount_entry]
      omega
    | error _ =>
      cases hstep
      have hlost : lost { s with
          reporting := reporting
          failed := s.failed ++ [(r.1, entry text target now r)] } = s.lost + r.2.1 := by
        simp [lost, Nat.add_assoc]
      refine ⟨?_, by rw [hlost]; omega, iff_of_false (by rw [hlost]; omega) (fun h => nomatch h)⟩
      refine ⟨h.opened, h.active, h.activeOf, h.addresses, h.bound, h.boundOf, hrest, fun k => ?_⟩
      unfold pendingOf
      dsimp only
      rw [hrefused, countedOf_append, refusedCount_entry]
      omega

/-- What a step of a task does. -/
theorem steps_task (h : s.Inv) {i : ℕ} {op : TaskOp}
    (hstep : s.step x text target (.task i op) = some t) : Steps x s t (.task i op) := by
  unfold step at hstep
  dsimp only at hstep
  split at hstep
  · next task htask =>
    obtain ⟨phase, hphase, rfl⟩ := Option.map_eq_some_iff.1 hstep
    have hsteps := Phase.step_steps (h.opened task (List.mem_of_getElem? htask)) hphase
    have hset := fun P => countP_set (b := { task with phase }) htask P
    obtain ⟨hholds, hfallen⟩ := Phase.of_alive hsteps.alive
    have hlost : lost { s with tasks := s.tasks.set i { task with phase } } =
        s.lost + phase.hasPanicked.toNat := by
      have hcount := hset (·.phase.hasPanicked)
      dsimp only at hcount
      rw [hfallen, Bool.toNat_false, Nat.add_zero] at hcount
      unfold lost
      dsimp only
      omega
    have hsafe : s.Safe x (.task i op) ↔ ¬task.phase.Falls x op := by
      unfold Safe
      dsimp only
      rw [htask]
      simp
    refine ⟨?_, by rw [hlost]; omega, ?_⟩
    · constructor
      · exact forall_mem_set h.opened hsteps.opened
      · have hcount := hset (·.phase.holds)
        dsimp only at hcount
        rw [hholds, hsteps.holds] at hcount
        dsimp only
        rw [h.active]
        omega
      · intro k
        have hcount := hset fun t => t.ip = k ∧ t.phase.holds
        dsimp only at hcount
        rw [hholds, hsteps.holds] at hcount
        dsimp only
        rw [h.activeOf]
        omega
      · exact h.addresses
      · exact h.bound
      · exact h.boundOf
      · exact h.reporting
      · exact h.refused
    · rw [hlost, hsafe, ← hsteps.panicked]
      cases phase.hasPanicked <;> simp
  · cases hstep

omit [DecidableEq Ip] in
/-- A task that has given its place back holds one place less than before. -/
theorem countP_released {tasks : List (ClientTask Ip)} {i : ℕ} {task : ClientTask Ip}
    (htask : tasks[i]? = some task) (hholds : task.phase.holds = true) (P : Ip → Bool) :
    (tasks.set i { task with phase := .released }).countP (fun t => P t.ip && t.phase.holds) +
      (P task.ip).toNat = tasks.countP fun t => P t.ip && t.phase.holds := by
  have hcount := countP_set (b := { task with phase := .released }) htask
    fun t => P t.ip && t.phase.holds
  have hreleased : Phase.released.holds = false := rfl
  simpa [hholds, hreleased] using hcount

/-- The last line of a task gives back the place of the task, and of its address. -/
theorem Inv.release (h : s.Inv) {i : ℕ} {task : ClientTask Ip} (htask : s.tasks[i]? = some task)
    (hholds : task.phase.holds = true) :
    Inv { s with
      admission := s.admission.release task.ip
      tasks := s.tasks.set i { task with phase := .released } } := by
  have hactive := countP_released htask hholds fun _ => true
  simp only [Bool.true_and, Bool.toNat_true] at hactive
  have hactiveOf : ∀ k, (s.tasks.set i { task with phase := .released }).countP
      (fun t => t.ip = k ∧ t.phase.holds) + (if k = task.ip then 1 else 0) =
        s.tasks.countP fun t => t.ip = k ∧ t.phase.holds := by
    intro k
    have hcount := countP_released htask hholds fun ip => decide (ip = k)
    by_cases hk : k = task.ip
    · subst hk
      simpa using hcount
    · simpa [hk, Ne.symm hk] using hcount
  have hpos : 0 < s.admission.activeOf task.ip := by
    have hcount := hactiveOf task.ip
    rw [if_pos rfl] at hcount
    rw [h.activeOf]
    omega
  have htotal := Admission.total_release s.admission hpos
  have hrelease : (s.admission.release task.ip).active = s.admission.active - 1 := rfl
  constructor
  · exact forall_mem_set h.opened trivial
  · dsimp only
    rw [hrelease, h.active]
    omega
  · intro k
    have hcount := hactiveOf k
    dsimp only
    rw [Admission.activeOf_release, h.activeOf]
    omega
  · dsimp only
    rw [hrelease, h.addresses]
    omega
  · have hbound := h.bound
    exact (Nat.sub_le _ _).trans hbound
  · intro k
    have hbound := h.boundOf k
    dsimp only
    rw [Admission.activeOf_release]
    exact (Nat.sub_le _ _).trans hbound
  · exact h.reporting
  · intro k
    have hrefused := h.refused k
    unfold pendingOf at hrefused ⊢
    dsimp only
    rw [Admission.refusedOf_release]
    exact hrefused

/-- What releasing a slot does. -/
theorem steps_release (h : s.Inv) {i : ℕ}
    (hstep : s.step x text target (.release i) = some t) : Steps x s t (.release i) := by
  unfold step at hstep
  dsimp only at hstep
  split at hstep
  · next task htask =>
    split_ifs at hstep with hreturned
    cases hstep
    obtain ⟨hholds, hfallen⟩ := Phase.of_alive (Phase.alive_of_hasReturned hreturned)
    refine Steps.of_safe (h.release htask hholds) trivial ?_
    have hcount := countP_set (b := { task with phase := .released }) htask (·.phase.hasPanicked)
    dsimp only at hcount
    rw [hfallen, show Phase.released.hasPanicked = false from rfl] at hcount
    unfold lost
    dsimp only
    omega
  · cases hstep

/-- **One step**: every place is held by a task that has not given it back, and what is lost grows
exactly in the steps that are not safe. -/
theorem inv_step (h : s.Inv) {op : Op Ip} (hstep : s.step x text target op = some t) :
    Steps x s t op := by
  cases op with
  | accept now ip => exact steps_accept h hstep
  | report now => exact steps_report h hstep
  | record now result => exact steps_record h hstep
  | task i op => exact steps_task h hstep
  | release i => exact steps_release h hstep

/-- Nothing is lost exactly if every place is held by a task that has not ended and every refusal
is recorded or pending. -/
theorem Inv.kept_iff (h : s.Inv) : s.Kept ↔ s.lost = 0 := by
  have hcount : s.tasks.countP (·.phase.holds) =
      s.tasks.countP (·.phase.alive) + s.tasks.countP (·.phase.hasPanicked) := by
    induction s.tasks with
    | nil => rfl
    | cons task tasks ih =>
      rw [List.countP_cons, List.countP_cons, List.countP_cons, ih]
      cases task.phase <;> simp [Phase.holds, Phase.alive, Phase.hasPanicked] <;> omega
  have hactive := h.active
  unfold lost
  rw [Nat.add_eq_zero_iff, List.sum_eq_zero_iff_forall_eq_nat]
  constructor
  · intro hkept
    have htasks := hkept.tasks
    refine ⟨by omega, fun n hn => ?_⟩
    obtain ⟨r, hr, rfl⟩ := List.mem_map.1 hn
    have hrefused := h.refused r.1
    rw [hkept.refused r.1] at hrefused
    have hzero : countedOf s.failed r.1 = 0 := by omega
    unfold countedOf at hzero
    rw [List.sum_eq_zero_iff_forall_eq_nat] at hzero
    exact hzero _ (List.mem_map_of_mem (List.mem_filter.2 ⟨hr, decide_eq_true rfl⟩))
  · rintro ⟨hpanicked, hfailed⟩
    refine ⟨h.addresses, by omega, h.bound, h.boundOf, fun ip => ?_⟩
    have hzero : countedOf s.failed ip = 0 := by
      unfold countedOf
      rw [List.sum_eq_zero_iff_forall_eq_nat]
      intro n hn
      obtain ⟨r, hr, rfl⟩ := List.mem_map.1 hn
      exact hfailed _ (List.mem_map_of_mem (List.mem_filter.1 hr).1)
    have hrefused := h.refused ip
    omega

end Serve

/-- **No connection slot is leaked** exactly as long as no task panics outside of the connection
loop and the audit returns no error for a record of refused connections: in every run, what is
counted is what the addresses have, every place is held by a task that has not ended, there are not
too many of them, and every refused connection is counted in one record or still pending.

**Proof sketch.** Every step keeps that the places are those of the tasks that have not given theirs
back, so that what is lost can be counted: the places of tasks that have panicked, and the refusals
in records that failed. It never shrinks, and grows exactly in the steps that are not safe. -/
theorem slotsKept_iff {Ip : Type} [DecidableEq Ip] {x : Texts} {text : Ip → String}
    {target : String} {maxConnections maxConnectionsPerAddress : ℕ} {ops : List (Serve.Op Ip)}
    {s : Serve Ip}
    (h : Machine.run (Serve.step x text target)
      (.start Ip maxConnections maxConnectionsPerAddress) ops = some s) :
    s.Kept ↔ Machine.Meets (Serve.step x text target) (Serve.Safe x)
      (.start Ip maxConnections maxConnectionsPerAddress) ops := by
  have hstart : (Serve.start Ip maxConnections maxConnectionsPerAddress).lost = 0 := rfl
  have hrule : ∀ s op t, s.Inv → Serve.step x text target s op = some t →
      t.Inv ∧ s.lost ≤ t.lost ∧ (t.lost = s.lost ↔ s.Safe x op) := by
    intro s op t hinv hstep
    have hsteps := Serve.inv_step hinv hstep
    exact ⟨hsteps.inv, hsteps.le, hsteps.lost⟩
  have hinv : s.Inv := Machine.run_invariant
    (fun s op t hinv hstep => (hrule s op t hinv hstep).1) (Serve.inv_start _ _) h
  rw [hinv.kept_iff, ← hstart]
  exact (Machine.meets_iff_of_monotone hrule (Serve.inv_start _ _) h).2

namespace Serve

/-- A client comes and goes, another of its connections is refused, and that is reported. -/
def visitedRun : List (Op String) :=
  [.accept 0 "192.0.2.7", .accept 0 "192.0.2.7", .report 10, .record ⟨0⟩ (.ok ()),
    .task 0 (.connected Connection.plainCtx Connection.noSessions), .task 0 (.serve .stop),
    .task 0 (.serve (.finishAudited [])), .task 0 (.serve .giveUp), .task 0 .leave, .release 0]

end Serve

/-- A visit to the gateway after which its slot is free. -/
theorem slotsKept_iff_visitedRun : ∃ s,
    Machine.run (Serve.step Connection.plainTexts id "plc") (.start String 50 1)
      Serve.visitedRun = some s ∧ s.admission.active = 0 ∧ s.Kept := by
  have hrun : (Machine.run (Serve.step Connection.plainTexts id "plc") (.start String 50 1)
      Serve.visitedRun).map (·.admission.active) = some 0 := by
    decide +kernel
  obtain ⟨s, hs, hactive⟩ := Option.map_eq_some_iff.1 hrun
  refine ⟨s, hs, hactive, (slotsKept_iff hs).2 ?_⟩
  refine Machine.meets_of_forall_mem _ (fun op hop s => ?_) _
  have htask : ∀ phase : Phase, ∀ op ∈ [TaskOp.connected Connection.plainCtx Connection.noSessions,
      .serve .stop, .serve (.finishAudited []), .serve .giveUp, .leave],
      ¬phase.Falls Connection.plainTexts op := by
    intro phase op hop hfalls
    simp only [List.mem_cons, List.not_mem_nil, or_false] at hop
    rcases hop with rfl | rfl | rfl | rfl | rfl
    all_goals cases phase <;> first | exact hfalls | exact hfalls.2
  simp only [Serve.visitedRun, List.mem_cons, List.not_mem_nil, or_false] at hop
  rcases hop with rfl | rfl | rfl | rfl | rfl | rfl | rfl | rfl | rfl | rfl
  all_goals first
    | trivial
    | rfl
    | exact fun task _ => htask task.phase _ (by simp)

namespace Serve

/-- A client writes a value that cannot be rendered, and is gone before the task of the request has
run. -/
def lateRun : List (Op String) :=
  [.accept 0 "192.0.2.7", .task 0 (.connected Connection.plainCtx Connection.noSessions),
    .task 0 (.serve (.receive (Connection.structureWrite wideArgument) (.ok ()))),
    .task 0 (.serve .stop), .task 0 (.serve (.finishAudited [0])),
    .task 0 (.serve (.poll (Connection.plainSettings .failOpen) (.ok .anonymous)))]

end Serve

/-- Its place is never given back: the next connection is refused, although there is none. -/
theorem not_slotsKept_lateRun : ∃ s,
    Machine.run (Serve.step Connection.plainTexts id "plc") (.start String 50 1)
      Serve.lateRun = some s ∧
    s.tasks.countP (·.phase.alive) = 0 ∧
    s.admission.refusal 3600 "192.0.2.7" = some "too many connections from this address" ∧
    ¬s.Kept := by
  set a := ((Admission.new String 50 1).admitIp 0 "192.0.2.7").1 with ha
  have hadmits : (Admission.new String 50 1).admitIp 0 "192.0.2.7" = (a, .ok ()) := by
    have hok : ((Admission.new String 50 1).admitIp 0 "192.0.2.7").2.toBool = true := by
      decide +kernel
    refine Prod.ext rfl ?_
    cases hresult : ((Admission.new String 50 1).admitIp 0 "192.0.2.7").2 with
    | ok _ => rfl
    | error _ =>
      rw [hresult] at hok
      cases hok
  have hactive : a.active = 1 := by decide +kernel
  have hrefusal : a.refusal 3600 "192.0.2.7" = some "too many connections from this address" := by
    decide +kernel
  -- the task of the write has not run when the client is gone
  let conn : Connection :=
    { shared := Connection.noSessions
      loop := .draining
      fresh := [⟨0, Connection.structureWrite wideArgument, true⟩]
      received := [Connection.structureWrite wideArgument] }
  let s : Serve String := { admission := a, tasks := [⟨"192.0.2.7", .panicked⟩] }
  have hdrained : Machine.run (Serve.step Connection.plainTexts id "plc") (.start String 50 1)
      (Serve.lateRun.take 5) =
        some { s with tasks := [⟨"192.0.2.7", .serving Connection.plainCtx conn⟩] } := by
    have haccept : Serve.step Connection.plainTexts id "plc" (.start String 50 1)
        (.accept 0 "192.0.2.7") = some { s with tasks := [⟨"192.0.2.7", .handshake⟩] } := by
      have hidle : (Serve.start String 50 1).reporting.isEmpty = true := rfl
      unfold Serve.step
      dsimp only
      rw [if_pos hidle, show (Serve.start String 50 1).admission = .new String 50 1 from rfl,
        hadmits]
      rfl
    refine (Machine.run_cons_eq_some _).2 ⟨_, haccept, rfl⟩
  have hpanics : (Connection.step Connection.plainTexts Connection.plainCtx conn
      (.poll (Connection.plainSettings .failOpen) (.ok .anonymous))).map
        (Phase.served Connection.plainCtx
          (.poll (Connection.plainSettings .failOpen) (.ok .anonymous))) = some .panicked := by
    obtain ⟨t, ht⟩ : ∃ t, Connection.step Connection.plainTexts Connection.plainCtx conn
      (.poll (Connection.plainSettings .failOpen) (.ok .anonymous)) = some t := ⟨_, rfl⟩
    have hended : t.loop = .ended := by
      refine (Connection.loop_ended_iff ht nofun).2 ⟨rfl, .inr ⟨_, rfl, fun h => ?_⟩⟩
      exact not_renderable_wideArgument (h (.extensionObject wideArgument)
        (List.mem_singleton_self _))
    rw [ht, Option.map_some]
    simp only [Phase.served, hended]
  refine ⟨s, ?_, rfl, hrefusal, fun hkept => ?_⟩
  · rw [show Serve.lateRun = Serve.lateRun.take 5 ++ [.task 0 (.serve (.poll
      (Connection.plainSettings .failOpen) (.ok .anonymous)))] from rfl,
      Machine.run_concat_eq_some]
    refine ⟨_, hdrained, ?_⟩
    unfold Serve.step Phase.step
    simp only [List.getElem?_cons_zero]
    rw [hpanics]
    rfl
  · have htasks : a.active = 0 := hkept.tasks
    rw [hactive] at htasks
    cases htasks

end AuditGateway
