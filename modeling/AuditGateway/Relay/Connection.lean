import AuditGateway.Relay.AuditMap
import AuditGateway.Relay.Session
import AuditGateway.Audit.Writer

set_option relaxedAutoImplicit false
set_option autoImplicit false

/-!
# One client connection

The connection loop takes the client's requests one after the other and starts a task for each of
them. A task runs from one point where it waits to the next without interruption: new tasks are
polled first in the order they were pushed, a change in fail-closed mode waits for the commit of
its intent, and a request handed over to the upstream connection waits for its answer. When the
client is gone, the audited tasks are seen through; the order in which they are then collected
is not specified. Everything else that acts (other connections of the target, the upstream
connection, the audit trail) comes in through the labels of the steps.

The last fields of the state record what happened, for the statements only: requests are numbered
in the order the client sent them.

## Main definitions

* `Forward`, `prepare` — what a forwarding task keeps, and how it is computed.
* `Connection`, `Connection.Op`, `Connection.step` — the state of a connection and its steps.
-/

namespace AuditGateway

/-! ## What tasks know -/

/-- What the connections of a target share. -/
structure Shared where
  sessions : SessionRegistry
  names : NameCache
  ignored : IgnoredWrites

/-! ## Tasks -/

/-- What a task knows of its connection. -/
structure Ctx where
  target : String
  connectionId : ℕ
  remoteAddr : String
  certificateThumbprint : Option String
  /-- The downstream channel. -/
  channel : Channel

/-- The client as the connection knows it, without a session. -/
def Ctx.client (ctx : Ctx) : ClientContext :=
  { remoteAddr := ctx.remoteAddr, certificateThumbprint := ctx.certificateThumbprint }

/-- The settings a task reads when it starts, and the time. -/
structure Settings where
  failMode : FailMode
  recordOldValue : Bool
  summarise : Lookup
  now : DateTime
  instant : ℕ

/-- A request in progress, with its number. -/
structure Task where
  id : ℕ
  request : RequestMessage
  /-- Seen through to the end when the client disconnects. -/
  audited : Bool

/-- What a forwarding task keeps while it waits. -/
structure Forward where
  client : ClientContext
  plan : Option AuditPlan
  ignored : Option (List WriteItem)
  preRead : Option PreRead
  failClosed : Bool

/-- The client a request is attributed to: that of its session if the session belongs to this
connection; a borrowed token proves nothing. -/
def attributed (ctx : Ctx) (sessions : SessionRegistry) (request : RequestMessage) :
    ClientContext :=
  ((sessions.clientOf request.requestHeader.authenticationToken ctx.connectionId).map fun c =>
    { c with remoteAddr := ctx.remoteAddr }).getD ctx.client

/-- The part of forwarding a request that comes before everything that waits. -/
def prepare (x : Texts) (settings : Settings) (names : NameCache) (client : ClientContext)
    (request : RequestMessage) : Option Forward :=
  (AuditMap.plan x request).map fun plan =>
    let (plan, ignored) :=
      match plan with
      | some plan =>
        if settings.summarise.isEmpty then (some plan, none)
        else
          let (plan, ignored) :=
            plan.takeIgnored fun node => settings.summarise.matches node client
          (some plan, ignored)
      | none => (none, none)
    let plan := plan.filter fun plan => !plan.isEmpty
    let (plan, preRead) :=
      match plan with
      | some plan =>
        let (plan, preRead) := plan.preRead settings.recordOldValue names
        (some plan, preRead)
      | none => (none, none)
    ⟨client, plan, ignored, preRead, settings.failMode = .failClosed⟩

/-- An entry about the target and a client. -/
def Ctx.entry (ctx : Ctx) (now : DateTime) (client : ClientContext) (event : AuditEvent) :
    AuditEntry :=
  ((AuditEntry.new now event).withTarget ctx.target).withClient client

/-- The record that has to be committed before the request is handed over. -/
def Forward.intent (f : Forward) (ctx : Ctx) (now : DateTime) : Option AuditEntry :=
  if f.failClosed then f.plan.map fun plan => ctx.entry now f.client plan.intent else none

/-- The record that a request waits for when its task runs for the first time. -/
def intentOf (x : Texts) (ctx : Ctx) (settings : Settings) (names : NameCache)
    (client : ClientContext) (request : RequestMessage) : Option AuditEntry :=
  (prepare x settings names client request).bind fun f => f.intent ctx settings.now

/-- What is left of a plan behind its reads; `none` is a panic. -/
def Forward.applied (x : Texts) (names : NameCache) (f : Forward)
    (read : Option (List DataValue)) : Option (Option AuditPlan × NameCache) :=
  match f.plan, f.preRead, read with
  | some plan, some pre, some results =>
    (plan.applyPreRead x names pre results).map fun (plan, names) => (some plan, names)
  | plan, _, _ => some (plan, names)

/-- A task that waits for the answer of the server. -/
inductive Awaiting
  /-- The client's description of itself. -/
  | createSession (applicationUri applicationName : String)
  /-- The client with the identity it asked for. -/
  | activateSession (client : ClientContext)
  | closeSession
  | forward (f : Forward)

/-- What is handed over to the upstream connection for a request. -/
inductive Sent
  | read (id : ℕ) (pre : PreRead)
  | request (id : ℕ) (message : RequestMessage)

/-- What a request that was handed over gets. -/
inductive Answer
  | response (message : ResponseMessage)
  /-- No response; the request may have reached the server. -/
  | error (status : StatusCode) (maybeSent : Bool)

/-- The response that reports an error to a request. -/
def fault (request : RequestMessage) (status : StatusCode) : ResponseMessage :=
  .serviceFault ⟨request.requestHeader.requestHandle, status⟩

/-! ## The state -/

/-- Where the connection stands. -/
inductive Loop
  | running
  /-- Nothing new is started, but what is in progress goes on. -/
  | closing
  /-- The loop has ended, normally or by a panic. -/
  | stopped
  /-- Audited requests are seen through although the client is gone. -/
  | draining
  | ended
  deriving DecidableEq

/-- Tasks make progress. -/
def Loop.polls : Loop → Bool
  | running => true
  | closing => true
  | draining => true
  | _ => false

/-- A request whose task has run for the first time, with what it read then. -/
structure Started where
  task : Task
  settings : Settings
  client : ClientContext

/-- A connection with its tasks, what it has sent and answered, and what it shares with others. -/
structure Connection where
  shared : Shared
  loop : Loop := .running
  upstreamOpen : Bool := true
  /-- Tasks that were not polled yet, in the order they will be. -/
  fresh : List Task := []
  /-- Tasks that wait for the commit of the entry. -/
  committing : List (Task × Forward × AuditEntry) := []
  awaiting : List (Task × Awaiting) := []
  /-- The requests of the client, in the order it sent them. -/
  received : List RequestMessage := []
  /-- The requests whose task has run. -/
  started : List Started := []
  /-- What was handed over to the upstream connection, in that order. -/
  sent : List Sent := []
  /-- What the tasks answer the client. -/
  responses : List (ℕ × ResponseMessage) := []
  /-- The records of changes that were handed to the audit, by request. -/
  recorded : List (ℕ × AuditEntry) := []
  /-- Summarised writes, by request, with the client they are counted for. -/
  summarised : List (ℕ × ClientContext) := []
  /-- The tasks that were dropped when the client was gone: those that are not audited, and, if
  a task panics while the others are seen through, these. -/
  dropped : List Task := []

namespace Connection

/-- What can happen. -/
inductive Op
  /-- Other connections of the target act. -/
  | elsewhere (shared : Shared)
  /-- The client's next request; there may be no upstream connection for it. -/
  | receive (message : RequestMessage) (upstream : Except StatusCode Unit)
  /-- The upstream connection is lost. -/
  | upstreamClosed
  /-- The connection is closed by the gateway. -/
  | close
  /-- The loop ends: the client is gone. -/
  | stop
  /-- The audited tasks are collected, the new ones in the given order. -/
  | finishAudited (order : List ℕ)
  /-- The tasks that are left are dropped. -/
  | giveUp
  /-- The next new task runs. `checks` is what a session service makes of certificates,
  signatures and user tokens. -/
  | poll (settings : Settings) (checks : Except StatusCode UserIdentity)
  /-- The commit of an intent succeeds or fails. -/
  | committed (id : ℕ) (ok : Bool) (now : DateTime) (instant : ℕ)
  /-- The answer to a request, with the results of its read, and what the checks make of the
  answer to a CreateSession request. -/
  | answer (id : ℕ) (answer : Answer) (read : Option (List DataValue))
      (checks : Except StatusCode Unit) (now : DateTime) (instant : ℕ)

/-- Requests that the gateway answers itself. -/
def answeredLocally : RequestMessage → Bool
  | .openSecureChannel _ => true
  | .closeSecureChannel _ => true
  | .getEndpoints _ => true
  | .findServers _ => true
  | .findServersOnNetwork _ => true
  | .registerServer _ => true
  | .registerServer2 _ => true
  | _ => false

/-- The services that manage sessions. -/
def isSessionService : RequestMessage → Bool
  | .createSession .. => true
  | .activateSession _ => true
  | .closeSession _ => true
  | _ => false

/-! ## One step -/

/-- A response goes to the client. -/
def respond (s : Connection) (id : ℕ) (response : ResponseMessage) : Connection :=
  { s with responses := s.responses ++ [(id, response)] }

/-- The tasks in progress. -/
def tasks (s : Connection) : List Task :=
  s.fresh ++ (s.committing.map (·.1) ++ s.awaiting.map (·.1))

/-- A task panics: the loop ends, or nobody is left to see the others through. -/
def panic (s : Connection) : Connection :=
  if s.loop = .draining then
    { s with
      loop := .ended
      fresh := []
      committing := []
      awaiting := []
      dropped := s.dropped ++ s.tasks }
  else { s with loop := .stopped }

/-- The sessions have changed. -/
def withSessions (s : Connection) (sessions : SessionRegistry) : Connection :=
  { s with shared := { s.shared with sessions := sessions } }

/-- An entry is handed to the audit. -/
def record (s : Connection) (id : ℕ) (entry : AuditEntry) : Connection :=
  { s with recorded := s.recorded ++ [(id, entry)] }

/-- The event for a summarised write that does not fit into the summary. -/
def overflowEvent (requestHandle : ℕ) (w : IgnoredWrite) : AuditEvent :=
  .write requestHandle w.nodeId w.displayName "Value" none none w.value none none none w.status

/-- Counts a summarised write, or records it as usual if too many nodes are pending. -/
def countIgnored (ctx : Ctx) (task : Task) (client : ClientContext) (now : DateTime)
    (s : Connection) (w : IgnoredWrite) : Connection :=
  match s.shared.ignored.add now w.nodeId w.displayName w.value w.status client with
  | some ignored =>
    { s with
      shared := { s.shared with ignored := ignored }
      summarised := s.summarised ++ [(task.id, client)] }
  | none =>
    s.record task.id
      (ctx.entry now client (overflowEvent task.request.requestHeader.requestHandle w))

/-- An event is recorded for the client. -/
def recordEvent (ctx : Ctx) (task : Task) (client : ClientContext) (now : DateTime)
    (s : Connection) (event : AuditEvent) : Connection :=
  s.record task.id (ctx.entry now client event)

/-- The end of forwarding a request, when its answer is there. -/
def completeForward (x : Texts) (ctx : Ctx) (s : Connection) (task : Task) (f : Forward)
    (answer : Answer) (read : Option (List DataValue)) (now : DateTime) : Connection :=
  match f.applied x s.shared.names read with
  | none => s.panic
  | some (plan, names) =>
    let s := { s with shared := { s.shared with names := names } }
    let (response, unknown) :=
      match answer with
      | .response response => (response, none)
      | .error status maybeSent =>
        (fault task.request status, if maybeSent then some status else none)
    let s :=
      match f.ignored with
      | some items =>
        (ignoredOutcomes x items response unknown s.shared.names).foldl
          (countIgnored ctx task f.client now) s
      | none => s
    let events :=
      match plan, unknown with
      | some plan, some status => plan.eventsUnknown x response status
      | some plan, none => plan.events x response
      | none, _ => []
    let s := events.foldl (recordEvent ctx task f.client now) s
    s.respond task.id response

/-- A task goes on with its answer. -/
def complete (x : Texts) (ctx : Ctx) (s : Connection) (task : Task) (awaiting : Awaiting)
    (answer : Answer) (read : Option (List DataValue)) (checks : Except StatusCode Unit)
    (now : DateTime) (instant : ℕ) : Connection :=
  let token := task.request.requestHeader.authenticationToken
  match awaiting, answer with
  | .forward f, answer => completeForward x ctx s task f answer read now
  | .createSession applicationUri applicationName,
      .response (.createSession header sessionId newToken timeout) =>
    match checks with
    | .ok () =>
      let client :=
        { ctx.client with
          applicationUri := some (clip applicationUri maxText)
          applicationName := some (clip applicationName maxName)
          sessionId := some sessionId }
      (s.withSessions (s.shared.sessions.insert instant newToken
        (SessionEntry.create ctx.channel ctx.connectionId client timeout instant))).respond task.id
          (.createSession header sessionId newToken timeout)
    | .error status => s.respond task.id (fault task.request status)
  | .activateSession client, .response (.activateSession header) =>
    if header.serviceResult.isGood then
      (s.withSessions (s.shared.sessions.modify instant token
        (SessionEntry.activate ctx.connectionId client))).respond task.id
          (.activateSession header)
    else s.respond task.id (.activateSession header)
  | .closeSession, .response response =>
    (s.withSessions (s.shared.sessions.removeOwned token ctx.connectionId)).respond task.id
      response
  | .closeSession, .error status _ =>
    (s.withSessions (s.shared.sessions.removeOwned token ctx.connectionId)).respond task.id
      (fault task.request status)
  | _, .response response => s.respond task.id response
  | _, .error status _ => s.respond task.id (fault task.request status)

/-- A request is queued upstream, right behind its read. -/
def handed (s : Connection) (task : Task) (awaiting : Awaiting) (preRead : Option PreRead) :
    Connection :=
  { s with
    sent := s.sent ++ (preRead.map (Sent.read task.id)).toList ++ [.request task.id task.request]
    awaiting := s.awaiting ++ [(task, awaiting)] }

/-- A request is handed over to the upstream connection, if it is still there. -/
def handOver (x : Texts) (ctx : Ctx) (s : Connection) (task : Task) (awaiting : Awaiting)
    (preRead : Option PreRead) (now : DateTime) (instant : ℕ) : Connection :=
  if s.upstreamOpen then s.handed task awaiting preRead
  else
    complete x ctx s task awaiting (.error .badServerNotConnected false) none (.ok ()) now instant

/-- A forwarding task runs for the first time. -/
def forward (x : Texts) (ctx : Ctx) (s : Connection) (task : Task) (settings : Settings) :
    Connection :=
  let client := attributed ctx s.shared.sessions task.request
  let s := s.withSessions (s.shared.sessions.modify settings.instant
    task.request.requestHeader.authenticationToken id)
  match prepare x settings s.shared.names client task.request with
  | none => s.panic
  | some f =>
    match f.intent ctx settings.now with
    | some entry => { s with committing := s.committing ++ [(task, f, entry)] }
    | none => handOver x ctx s task (.forward f) f.preRead settings.now settings.instant

/-- A task runs for the first time. -/
def start (x : Texts) (ctx : Ctx) (s : Connection) (task : Task) (settings : Settings)
    (checks : Except StatusCode UserIdentity) : Connection :=
  let token := task.request.requestHeader.authenticationToken
  match task.request, checks with
  | .createSession .., .error status => s.respond task.id (fault task.request status)
  | .createSession _ applicationUri applicationName, .ok _ =>
    handOver x ctx s task (.createSession applicationUri applicationName) none settings.now
      settings.instant
  | .activateSession _, checks =>
    match s.shared.sessions token with
    | none => s.respond task.id (fault task.request .badSessionIdInvalid)
    | some entry =>
      match entry.admits ctx.channel checks with
      | .error status =>
        (s.withSessions (s.shared.sessions.modify settings.instant token id)).respond task.id
          (fault task.request status)
      | .ok user =>
        handOver x ctx (s.withSessions (s.shared.sessions.modify settings.instant token id)) task
          (.activateSession { entry.client with remoteAddr := ctx.remoteAddr, user := some user })
          none settings.now settings.instant
  | .closeSession _, _ =>
    handOver x ctx (s.withSessions (s.shared.sessions.modify settings.instant token id)) task
      .closeSession none settings.now settings.instant
  | _, _ => forward x ctx s task settings

/-- The client's next request. -/
def receive (s : Connection) (message : RequestMessage) (upstream : Except StatusCode Unit) :
    Connection :=
  let id := s.received.length
  let s := { s with received := s.received ++ [message] }
  if answeredLocally message then
    match message with
    | .closeSecureChannel _ => { s with loop := .closing }
    | _ => s
  else
    match upstream with
    | .error status => s.respond id (fault message status)
    | .ok () =>
      { s with fresh := s.fresh ++ [⟨id, message, isAudited message || isSessionService message⟩] }

/-- One step. -/
def step (x : Texts) (ctx : Ctx) (s : Connection) : Op → Option Connection
  | .elsewhere shared => some { s with shared := shared }
  | .receive message upstream =>
    match s.loop with
    | .running => some (s.receive message upstream)
    -- nothing new is started on a connection that is going away
    | .closing => some { s with received := s.received ++ [message] }
    | _ => none
  | .upstreamClosed => some { s with upstreamOpen := false }
  | .close => if s.loop = .running then some { s with loop := .closing } else none
  | .stop =>
    if s.loop = .running ∨ s.loop = .closing then some { s with loop := .stopped } else none
  | .finishAudited order =>
    let kept := s.fresh.filter (·.audited)
    if s.loop = .stopped ∧ order.Perm (kept.map (·.id)) then
      some { s with
        loop := .draining
        fresh := order.filterMap fun id => kept.find? fun task => task.id = id
        committing := s.committing.filter fun p => p.1.audited
        awaiting := s.awaiting.filter fun p => p.1.audited
        dropped := s.dropped ++ s.tasks.filter fun task => !task.audited }
    else none
  | .giveUp =>
    if s.loop = .draining then
      some { s with loop := .ended, fresh := [], committing := [], awaiting := [] }
    else none
  | .poll settings checks =>
    match s.fresh with
    | [] => none
    | task :: fresh =>
      if s.loop.polls then
        some (start x ctx
          { s with
            fresh := fresh
            started := s.started ++
              [⟨task, settings, attributed ctx s.shared.sessions task.request⟩] }
          task settings checks)
      else none
  | .committed id ok now instant =>
    match s.committing.find? fun p => p.1.id = id with
    | some (task, f, entry) =>
      if s.loop.polls then
        let s := { s with committing := s.committing.eraseP fun p => p.1.id = id }
        if ok then
          some (handOver x ctx (s.record id entry) task (.forward f) f.preRead now instant)
        else some (s.respond id (fault task.request .badInternalError))
      else none
    | none => none
  | .answer id answer read checks now instant =>
    match s.awaiting.find? fun p => p.1.id = id with
    | some (task, awaiting) =>
      if s.loop.polls then
        some (complete x ctx { s with awaiting := s.awaiting.eraseP fun p => p.1.id = id } task
          awaiting answer read checks now instant)
      else none
    | none => none

/-! ## What a step is -/

variable {x : Texts} {ctx : Ctx} {s t u : Connection} {task : Task}

/-- What happens when a request arrives. -/
theorem step_receive {message : RequestMessage} {upstream : Except StatusCode Unit}
    (hs : step x ctx s (.receive message upstream) = some t) :
    s.loop = .running ∧ t = s.receive message upstream ∨
      s.loop = .closing ∧ t = { s with received := s.received ++ [message] } := by
  simp only [step] at hs
  split at hs
  · next hloop => exact .inl ⟨hloop, (Option.some.inj hs).symm⟩
  · next hloop => exact .inr ⟨hloop, (Option.some.inj hs).symm⟩
  · cases hs

/-- What happens when the client closes its channel. -/
theorem step_close (hs : step x ctx s .close = some t) :
    s.loop = .running ∧ t = { s with loop := .closing } := by
  simp only [step] at hs
  split_ifs at hs with hloop
  exact ⟨hloop, (Option.some.inj hs).symm⟩

/-- What happens when the loop is told to stop. -/
theorem step_stop (hs : step x ctx s .stop = some t) :
    (s.loop = .running ∨ s.loop = .closing) ∧ t = { s with loop := .stopped } := by
  simp only [step] at hs
  split_ifs at hs with hloop
  exact ⟨hloop, (Option.some.inj hs).symm⟩

/-- What happens when audited requests are to be seen through. -/
theorem step_finishAudited {order : List ℕ} (hs : step x ctx s (.finishAudited order) = some t) :
    (s.loop = .stopped ∧ order.Perm ((s.fresh.filter (·.audited)).map (·.id))) ∧
      t = { s with
        loop := .draining
        fresh := order.filterMap fun id =>
          (s.fresh.filter (·.audited)).find? fun task => task.id = id
        committing := s.committing.filter fun p => p.1.audited
        awaiting := s.awaiting.filter fun p => p.1.audited
        dropped := s.dropped ++ s.tasks.filter fun task => !task.audited } := by
  simp only [step] at hs
  split_ifs at hs with hguard
  exact ⟨hguard, (Option.some.inj hs).symm⟩

/-- What happens when waiting is given up. -/
theorem step_giveUp (hs : step x ctx s .giveUp = some t) :
    s.loop = .draining ∧
      t = { s with loop := .ended, fresh := [], committing := [], awaiting := [] } := by
  simp only [step] at hs
  split_ifs at hs with hloop
  exact ⟨hloop, (Option.some.inj hs).symm⟩

/-- What happens when a task runs for the first time. -/
theorem step_poll {settings : Settings} {checks : Except StatusCode UserIdentity}
    (hs : step x ctx s (.poll settings checks) = some t) :
    ∃ task fresh, s.fresh = task :: fresh ∧ s.loop.polls ∧ t = start x ctx
      { s with
        fresh := fresh
        started := s.started ++ [⟨task, settings, attributed ctx s.shared.sessions task.request⟩] }
      task settings checks := by
  simp only [step] at hs
  split at hs
  · cases hs
  · next task fresh hfresh =>
    split_ifs at hs with hpolls
    exact ⟨task, fresh, hfresh, hpolls, (Option.some.inj hs).symm⟩

/-- What happens when an intent was committed, or was not. -/
theorem step_committed {id instant : ℕ} {ok : Bool} {now : DateTime}
    (hs : step x ctx s (.committed id ok now instant) = some t) :
    ∃ task f entry, (s.committing.find? fun p => p.1.id = id) = some (task, f, entry) ∧
      s.loop.polls ∧
      (ok = true ∧ t = handOver x ctx
        (record { s with committing := s.committing.eraseP fun p => p.1.id = id } id entry) task
        (.forward f) f.preRead now instant ∨
      ok = false ∧ t = respond { s with committing := s.committing.eraseP fun p => p.1.id = id } id
        (fault task.request .badInternalError)) := by
  simp only [step] at hs
  split at hs
  · next task f entry hfind =>
    split_ifs at hs with hpolls hok
    · exact ⟨task, f, entry, hfind, hpolls, .inl ⟨hok, (Option.some.inj hs).symm⟩⟩
    · exact ⟨task, f, entry, hfind, hpolls,
        .inr ⟨Bool.eq_false_of_not_eq_true hok, (Option.some.inj hs).symm⟩⟩
  · cases hs

/-- What happens when an answer arrives. -/
theorem step_answer {id instant : ℕ} {answer : Answer} {read : Option (List DataValue)}
    {checks : Except StatusCode Unit} {now : DateTime}
    (hs : step x ctx s (.answer id answer read checks now instant) = some t) :
    ∃ task awaiting, (s.awaiting.find? fun p => p.1.id = id) = some (task, awaiting) ∧
      s.loop.polls ∧
      t = complete x ctx { s with awaiting := s.awaiting.eraseP fun p => p.1.id = id } task
        awaiting answer read checks now instant := by
  simp only [step] at hs
  split at hs
  · next task awaiting hfind =>
    split_ifs at hs with hpolls
    exact ⟨task, awaiting, hfind, hpolls, (Option.some.inj hs).symm⟩
  · cases hs

/-! ## What a step changes -/

/-- Only what tasks answer, record and remember about sessions and nodes has changed. -/
structure Frame (s t : Connection) : Prop where
  responses : s.responses <+: t.responses
  loop : t.loop = s.loop
  upstreamOpen : t.upstreamOpen = s.upstreamOpen
  fresh : t.fresh = s.fresh
  committing : t.committing = s.committing
  awaiting : t.awaiting = s.awaiting
  received : t.received = s.received
  started : t.started = s.started
  sent : t.sent = s.sent
  dropped : t.dropped = s.dropped

namespace Frame

/-- Nothing has happened. -/
theorem refl (s : Connection) : Frame s s :=
  ⟨List.prefix_refl _, rfl, rfl, rfl, rfl, rfl, rfl, rfl, rfl, rfl⟩

/-- What is left alone twice is left alone. -/
theorem trans (h : Frame s t) (h' : Frame t u) : Frame s u where
  responses := h.responses.trans h'.responses
  loop := h'.loop.trans h.loop
  upstreamOpen := h'.upstreamOpen.trans h.upstreamOpen
  fresh := h'.fresh.trans h.fresh
  committing := h'.committing.trans h.committing
  awaiting := h'.awaiting.trans h.awaiting
  received := h'.received.trans h.received
  started := h'.started.trans h.started
  sent := h'.sent.trans h.sent
  dropped := h'.dropped.trans h.dropped

/-- What is left alone by every step of a loop is left alone by the loop. -/
theorem foldl {α : Type*} {f : Connection → α → Connection} (h : ∀ s a, Frame s (f s a))
    (l : List α) (s : Connection) : Frame s (l.foldl f s) := by
  induction l generalizing s with
  | nil => exact refl s
  | cons a l ih => exact (h s a).trans (ih (f s a))

end Frame

/-- A response leaves the tasks alone. -/
theorem frame_respond (s : Connection) (id : ℕ) (response : ResponseMessage) :
    Frame s (s.respond id response) :=
  ⟨List.prefix_append .., rfl, rfl, rfl, rfl, rfl, rfl, rfl, rfl, rfl⟩

/-- A record leaves the tasks alone. -/
theorem frame_record (s : Connection) (id : ℕ) (entry : AuditEntry) :
    Frame s (s.record id entry) :=
  ⟨List.prefix_refl _, rfl, rfl, rfl, rfl, rfl, rfl, rfl, rfl, rfl⟩

/-- A change of the sessions leaves the tasks alone. -/
theorem frame_withSessions (s : Connection) (sessions : SessionRegistry) :
    Frame s (s.withSessions sessions) :=
  ⟨List.prefix_refl _, rfl, rfl, rfl, rfl, rfl, rfl, rfl, rfl, rfl⟩

/-- A change of the names leaves the tasks alone. -/
theorem frame_withNames (s : Connection) (names : NameCache) :
    Frame s { s with shared := { s.shared with names := names } } :=
  ⟨List.prefix_refl _, rfl, rfl, rfl, rfl, rfl, rfl, rfl, rfl, rfl⟩

/-- A write that is counted leaves the tasks alone. -/
theorem frame_countIgnored (client : ClientContext) (now : DateTime) (s : Connection)
    (w : IgnoredWrite) : Frame s (countIgnored ctx task client now s w) := by
  unfold countIgnored
  split
  · exact ⟨List.prefix_refl _, rfl, rfl, rfl, rfl, rfl, rfl, rfl, rfl, rfl⟩
  · exact frame_record ..

/-- A forwarding task that goes on with its answer only answers and records, or panics. -/
theorem frame_completeForward (s : Connection) (f : Forward) (answer : Answer)
    (read : Option (List DataValue)) (now : DateTime) :
    Frame s (completeForward x ctx s task f answer read now) ∨
      completeForward x ctx s task f answer read now = s.panic ∧
        f.applied x s.shared.names read = none := by
  unfold completeForward
  dsimp only
  split
  · next hnone => exact .inr ⟨rfl, hnone⟩
  · left
    refine Frame.trans ?_ (frame_respond ..)
    refine Frame.trans ?_ (Frame.foldl (fun s e => frame_record ..) _ _)
    split
    · exact (frame_withNames s _).trans (Frame.foldl (frame_countIgnored f.client now) _ _)
    · exact frame_withNames s _

/-- A task that goes on with its answer only answers and records, or panics over its reads. -/
theorem frame_complete (x : Texts) (ctx : Ctx) (s : Connection) (task : Task)
    (awaiting : Awaiting) (answer : Answer) (read : Option (List DataValue))
    (checks : Except StatusCode Unit) (now : DateTime) (instant : ℕ) :
    Frame s (complete x ctx s task awaiting answer read checks now instant) ∨
      complete x ctx s task awaiting answer read checks now instant = s.panic ∧
        ∃ f, awaiting = .forward f ∧ f.applied x s.shared.names read = none := by
  have hsession : ∀ sessions response,
      Frame s ((s.withSessions sessions).respond task.id response) :=
    fun sessions response => (frame_withSessions s sessions).trans (frame_respond ..)
  unfold complete
  dsimp only
  split
  · exact (frame_completeForward ..).imp_right fun h => ⟨h.1, _, rfl, h.2⟩
  · left
    split
    · exact hsession ..
    · exact frame_respond ..
  · left
    split_ifs
    · exact hsession ..
    · exact frame_respond ..
  · exact .inl (hsession ..)
  · exact .inl (hsession ..)
  · exact .inl (frame_respond ..)
  · exact .inl (frame_respond ..)

/-- Without the results of its read a plan is used as it is. -/
theorem applied_none (names : NameCache) (f : Forward) :
    f.applied x names none = some (f.plan, names) := by
  rw [Forward.applied]
  exact fun _ _ _ _ _ hnone => nomatch hnone

/-- A request that is handed over is queued, or its task goes on at once. -/
theorem handOver_cases (x : Texts) (ctx : Ctx) (s : Connection) (task : Task)
    (awaiting : Awaiting) (preRead : Option PreRead) (now : DateTime) (instant : ℕ) :
    handOver x ctx s task awaiting preRead now instant = s.handed task awaiting preRead ∨
      Frame s (handOver x ctx s task awaiting preRead now instant) := by
  unfold handOver
  split_ifs
  · exact .inl rfl
  · refine .inr ((frame_complete ..).resolve_right ?_)
    rintro ⟨-, f, -, happlied⟩
    rw [applied_none] at happlied
    cases happlied

/-- What a task does that runs for the first time. -/
inductive StartCase (x : Texts) (ctx : Ctx) (settings : Settings) (task : Task)
    (s t : Connection) : Prop
  /-- It answers at once. -/
  | answered (h : Frame s t)
  /-- Its request cannot be planned. -/
  | panicked (u : Connection) (h : Frame s u)
      (hf : prepare x settings s.shared.names
        (attributed ctx s.shared.sessions task.request) task.request = none)
      (ht : t = u.panic)
  /-- It waits for the commit of its intent. -/
  | held (u : Connection) (f : Forward) (entry : AuditEntry) (h : Frame s u)
      (hf : prepare x settings s.shared.names
        (attributed ctx s.shared.sessions task.request) task.request = some f)
      (hentry : f.intent ctx settings.now = some entry)
      (ht : t = { u with committing := u.committing ++ [(task, f, entry)] })
  /-- It hands the request over. -/
  | sent (u : Connection) (f : Forward) (awaiting : Awaiting) (preRead : Option PreRead)
      (h : Frame s u)
      (hf : prepare x settings s.shared.names
        (attributed ctx s.shared.sessions task.request) task.request = some f)
      (hintent : f.intent ctx settings.now = none)
      (hawaiting : ∀ g, awaiting = .forward g → g = f)
      (ht : t = u.handed task awaiting preRead)

/-- A request that is handed over without an intent has been started. -/
theorem StartCase.of_handOver {settings : Settings} {f : Forward} (hu : Frame s u)
    (hf : prepare x settings s.shared.names
      (attributed ctx s.shared.sessions task.request) task.request = some f)
    (hintent : f.intent ctx settings.now = none) (awaiting : Awaiting)
    (hawaiting : ∀ g, awaiting = .forward g → g = f) (preRead : Option PreRead) (now : DateTime)
    (instant : ℕ) :
    StartCase x ctx settings task s (handOver x ctx u task awaiting preRead now instant) := by
  rcases handOver_cases x ctx u task awaiting preRead now instant with h | h
  · exact .sent u f awaiting preRead hu hf hintent hawaiting h
  · exact .answered (hu.trans h)

/-- A request without a plan waits for no commit. -/
theorem prepare_of_plan_eq (ctx : Ctx) {settings : Settings} {names : NameCache}
    {client : ClientContext} {request : RequestMessage}
    (h : AuditMap.plan x request = some none) :
    ∃ f, prepare x settings names client request = some f ∧ f.intent ctx settings.now = none := by
  refine ⟨_, by rw [prepare, h, Option.map_some], ?_⟩
  simp [Forward.intent]

/-- What a request that is forwarded comes to. -/
theorem forward_cases (s : Connection) (settings : Settings) :
    StartCase x ctx settings task s (forward x ctx s task settings) := by
  unfold forward
  dsimp only
  have hframe := frame_withSessions s (s.shared.sessions.modify settings.instant
    task.request.requestHeader.authenticationToken id)
  split
  · next hf => exact .panicked _ hframe hf rfl
  · next f hf =>
    split
    · next entry hentry => exact .held _ f entry hframe hf hentry rfl
    · next hentry =>
      refine StartCase.of_handOver hframe hf hentry _ (fun g hg => ?_) _ _ _
      exact (Awaiting.forward.inj hg).symm

/-- What a task does that runs for the first time. -/
theorem start_cases (s : Connection) (settings : Settings)
    (checks : Except StatusCode UserIdentity) :
    StartCase x ctx settings task s (start x ctx s task settings checks) := by
  -- a session service is handed over without a plan
  have hservice : ∀ {u : Connection} {awaiting : Awaiting}, Frame s u →
      AuditMap.plan x task.request = some none → (∀ g, awaiting ≠ .forward g) →
      StartCase x ctx settings task s
        (handOver x ctx u task awaiting none settings.now settings.instant) := by
    intro u awaiting hu hplan hawaiting
    obtain ⟨f, hf, hintent⟩ := prepare_of_plan_eq ctx hplan
    exact StartCase.of_handOver hu hf hintent _ (fun g hg => absurd hg (hawaiting g)) _ _ _
  unfold start
  dsimp only
  split
  · exact .answered (frame_respond ..)
  · next hrequest =>
    exact hservice (Frame.refl s) (by rw [hrequest]; rfl) fun _ hg => nomatch hg
  · next hrequest =>
    split
    · exact .answered (frame_respond ..)
    · split
      · exact .answered ((frame_withSessions ..).trans (frame_respond ..))
      · exact hservice (frame_withSessions ..) (by rw [hrequest]; rfl) fun _ hg => nomatch hg
  · next hrequest =>
    exact hservice (frame_withSessions ..) (by rw [hrequest]; rfl) fun _ hg => nomatch hg
  · exact forward_cases ..

/-- The record a started request waits for is that of its task. -/
theorem intentOf_eq {settings : Settings} {names : NameCache} {client : ClientContext}
    {request : RequestMessage} {f : Forward}
    (h : prepare x settings names client request = some f) :
    intentOf x ctx settings names client request = f.intent ctx settings.now := by
  rw [intentOf, h, Option.bind_some]

/-! ## A small connection -/

/-- The texts of the values below. -/
def plainTexts : Texts where
  json
    | .null => "null"
    | .string s => "\"" ++ s ++ "\""
    | _ => ""
  nodeId node :=
    match node.identifier with
    | .numeric value => "ns=" ++ toString node.namespace ++ ";i=" ++ toString value
    | _ => ""
  statusCode status := if status = .good then "Good" else "Bad"
  scalarType _ := "String"
  attributeId id := if id = AuditMap.valueAttribute then some "Value" else none

/-- The context of the example. -/
def plainCtx : Ctx := ⟨"plc", 1, "10.0.0.5:50000", none, Channel.open⟩

/-- Nobody has a session, and nothing is known. -/
def noSessions : Shared := ⟨fun _ => none, [], []⟩

/-- The settings of the example. -/
def plainSettings (failMode : FailMode) : Settings := ⟨failMode, false, ⟨[], []⟩, ⟨0⟩, 0⟩

/-- The session of the requests below. -/
def plainToken : NodeId := ⟨1, .numeric 7⟩

/-- A header with the token of the example. -/
def plainHeader (requestHandle : ℕ) : RequestHeader := ⟨plainToken, requestHandle, 0⟩

/-- A write of no value to a node. -/
def plainWrite : RequestMessage :=
  .write (plainHeader 1) (some [⟨⟨3, .numeric 2⟩, AuditMap.valueAttribute, none, {}⟩])

/-- A request that is not audited. -/
def plainRead : RequestMessage := .other (plainHeader 2)

/-- Writes a structure to a node. -/
def structureWrite (e : ExtensionObject) : RequestMessage :=
  .write (plainHeader 1) (some [⟨⟨3, .numeric 2⟩, AuditMap.valueAttribute, none,
    { value := some (.extensionObject e) }⟩])

/-- A structure that cannot be rendered stops its task. -/
theorem plan_structureWrite (x : Texts) {e : ExtensionObject} (he : ¬ e.Renderable) :
    AuditMap.plan x (structureWrite e) = none := by
  rw [← Option.not_isSome_iff_eq_none, AuditMap.plan_isSome_iff]
  exact fun h => he (h (.extensionObject e) (List.mem_singleton_self _))

end Connection

end AuditGateway
