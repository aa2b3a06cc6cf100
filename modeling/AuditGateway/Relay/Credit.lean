import AuditGateway.Relay.RequestOrder
import AuditGateway.Relay.Ownership

set_option relaxedAutoImplicit false
set_option autoImplicit false

/-!
# Who a change is recorded for

The client of a change is looked up once, when its task runs for the first time, and all records
of the change are for that client, however long the task waits. What the tasks do to the table of
sessions is told apart here by what they wait for.

## Main definitions

* `Connection.Credits` — only records of one request, for one client, were added.
* `Connection.CompleteCase` — what a task does with its answer.
* `Connection.TaskCase` — what a task does that does not wait any more.
* `Connection.Credited` — every record is for the client its request was started for.

## Main results

* `Connection.credited_step` — every step keeps this.
-/

namespace AuditGateway

/-! ## The holders of sessions -/

/-- Who the session is looked up for: its client, and the connection it belongs to. -/
def SessionEntry.holder (e : SessionEntry) : ClientContext × ℕ := (e.client, e.connectionId)

namespace SessionRegistry

variable {s : SessionRegistry} {token : NodeId} {client : ClientContext} {c : ℕ}

/-- The client and the connection of a session. -/
def holder (s : SessionRegistry) (token : NodeId) : Option (ClientContext × ℕ) :=
  (s token).map SessionEntry.holder

/-- A client is found on its own connection only. -/
theorem clientOf_eq_some_iff :
    s.clientOf token c = some client ↔ s.holder token = some (client, c) := by
  unfold clientOf holder ownedBy
  cases s token with
  | none => simp
  | some e => simp [SessionEntry.holder, Option.filter_eq_some_iff, Prod.ext_iff]

/-- A session is owned by the connection that holds it. -/
theorem ownedBy_iff_holder : s.ownedBy token c ↔ ∃ client, s.holder token = some (client, c) := by
  rw [ownedBy_iff]
  constructor
  · rintro ⟨e, he, rfl⟩
    exact ⟨e.client, by rw [holder, he]; rfl⟩
  · rintro ⟨client, h⟩
    obtain ⟨e, he, heq⟩ := Option.map_eq_some_iff.1 h
    exact ⟨e, he, (Prod.mk.inj heq).2⟩

/-- Nobody is found on a connection that does not own the session. -/
theorem clientOf_eq_none_iff : s.clientOf token c = none ↔ ¬ s.ownedBy token c := by
  rw [ownedBy_iff_holder, Option.eq_none_iff_forall_ne_some]
  simp only [ne_eq, clientOf_eq_some_iff, not_exists]

/-- A session that is only used keeps its holder. -/
theorem holder_touch (s : SessionRegistry) (now : ℕ) (token : NodeId) :
    (s.modify now token id).holder = s.holder := by
  funext t
  unfold holder modify
  by_cases ht : t = token
  · subst ht
    rw [Function.update_self, Option.map_map]
    rfl
  · rw [Function.update_of_ne ht]

/-- An activation moves a session to its connection. -/
theorem holder_activate (s : SessionRegistry) (now c : ℕ) (token t : NodeId)
    (client : ClientContext) :
    (s.modify now token (SessionEntry.activate c client)).holder t =
      if t = token then (s.holder token).map fun _ => (client, c) else s.holder t := by
  unfold holder modify
  split_ifs with ht
  · subst ht
    rw [Function.update_self, Option.map_map, Option.map_map]
    rfl
  · rw [Function.update_of_ne ht]

/-- A session is removed by its owner only. -/
theorem holder_removeOwned (s : SessionRegistry) (token t : NodeId) (c : ℕ) :
    (s.removeOwned token c).holder t =
      if t = token ∧ s.ownedBy token c then none else s.holder t := by
  unfold holder removeOwned
  by_cases howned : s.ownedBy token c = true
  · rw [if_pos howned]
    by_cases ht : t = token
    · rw [ht, Function.update_self, if_pos ⟨rfl, howned⟩]
      rfl
    · rw [Function.update_of_ne ht, if_neg fun h => ht h.1]
  · rw [if_neg howned, if_neg fun h => howned h.2]

/-- A session that was not used for twice its timeout is forgotten when one is added. -/
def Forgotten (s : SessionRegistry) (now : ℕ) (token : NodeId) : Prop :=
  ∃ e, s token = some e ∧ 2 * e.timeout ≤ now - e.lastUsed

/-- A new session is held by who created it. -/
theorem holder_insert_self (s : SessionRegistry) (now : ℕ) (token : NodeId)
    (entry : SessionEntry) : (s.insert now token entry).holder token = some entry.holder := by
  rw [holder, insert, Function.update_self]
  rfl

/-- Other sessions are as before, or were forgotten. -/
theorem holder_insert_of_ne (s : SessionRegistry) (now : ℕ) {token t : NodeId}
    (entry : SessionEntry) (ht : t ≠ token) :
    (s.insert now token entry).holder t = s.holder t ∨
      (s.insert now token entry).holder t = none ∧ s.Forgotten now t := by
  rw [holder, insert, Function.update_of_ne ht, holder]
  cases he : s t with
  | none => exact .inl rfl
  | some e =>
    rw [Option.filter_some]
    split_ifs with hlt
    · exact .inl rfl
    · exact .inr ⟨rfl, e, he, by simpa using hlt⟩

end SessionRegistry

/-! ## What a task keeps -/

/-- A plan or summarised writes are only kept for a request that is audited. -/
def Forward.Audits (f : Forward) (request : RequestMessage) : Prop :=
  f.plan.isSome ∨ f.ignored.isSome → isAudited request

/-- A plan that is prepared is for its request and its client. -/
theorem audits_of_prepare {x : Texts} {settings : Settings} {names : NameCache}
    {client : ClientContext} {request : RequestMessage} {f : Forward}
    (h : prepare x settings names client request = some f) :
    f.Audits request ∧ f.client = client := by
  rw [prepare, Option.map_eq_some_iff] at h
  obtain ⟨p, hp, rfl⟩ := h
  refine ⟨fun hsome => ?_, rfl⟩
  rw [← AuditMap.isSome_of_plan_eq hp]
  cases p with
  | some plan => rfl
  | none => simp at hsome

/-- A plan that reads were applied to is still there, and no other comes in. -/
theorem Forward.isSome_of_applied {x : Texts} {names names' : NameCache} {f : Forward}
    {read : Option (List DataValue)} {plan : Option AuditPlan}
    (h : f.applied x names read = some (plan, names')) : plan.isSome = f.plan.isSome := by
  unfold applied at h
  split at h
  · next p pre results hplan hpre =>
    obtain ⟨⟨p', names''⟩, -, heq⟩ := Option.map_eq_some_iff.1 h
    obtain ⟨rfl, -⟩ := Prod.mk.inj heq
    rw [hplan]
    rfl
  · obtain ⟨rfl, -⟩ := Prod.mk.inj (Option.some.inj h)
    rfl

namespace Connection

variable {x : Texts} {ctx : Ctx} {s t u : Connection} {task : Task} {client : ClientContext}

/-! ## The records of one request -/

/-- Only records of the request were added, for the client, and the table is as it was. -/
structure Credits (task : Task) (client : ClientContext) (s t : Connection) : Prop where
  recorded : ∀ r ∈ t.recorded, r ∈ s.recorded ∨
    isAudited task.request ∧ r.1 = task.id ∧ r.2.client = some client
  summarised : ∀ r ∈ t.summarised, r ∈ s.summarised ∨
    isAudited task.request ∧ r = (task.id, client)
  sessions : t.shared.sessions = s.shared.sessions

namespace Credits

/-- A step that records nothing credits nobody. -/
theorem of_eq (hrecorded : t.recorded = s.recorded) (hsummarised : t.summarised = s.summarised)
    (hsessions : t.shared.sessions = s.shared.sessions) : Credits task client s t := by
  refine ⟨fun r hr => ?_, fun r hr => ?_, hsessions⟩
  · rw [hrecorded] at hr
    exact .inl hr
  · rw [hsummarised] at hr
    exact .inl hr

/-- Nothing has happened. -/
theorem refl (s : Connection) : Credits task client s s := of_eq rfl rfl rfl

/-- Two steps for one client are for this client. -/
theorem trans (h : Credits task client s t) (h' : Credits task client t u) :
    Credits task client s u where
  recorded := fun r hr => (h'.recorded r hr).elim (h.recorded r) .inr
  summarised := fun r hr => (h'.summarised r hr).elim (h.summarised r) .inr
  sessions := h'.sessions.trans h.sessions

/-- A loop is for a client if all its steps are. -/
theorem foldl {α : Type*} {f : Connection → α → Connection}
    (h : ∀ s a, Credits task client s (f s a)) (l : List α) (s : Connection) :
    Credits task client s (l.foldl f s) := by
  induction l generalizing s with
  | nil => exact refl s
  | cons a l ih => exact (h s a).trans (ih (f s a))

end Credits

/-- A record is credited to its client. -/
theorem credits_record (haudited : isAudited task.request) (s : Connection) {entry : AuditEntry}
    (hentry : entry.client = some client) :
    Credits task client s (s.record task.id entry) := by
  refine ⟨fun r hr => ?_, fun r hr => .inl hr, rfl⟩
  rcases List.mem_append.1 hr with hr | hr
  · exact .inl hr
  · obtain rfl := List.mem_singleton.1 hr
    exact .inr ⟨haudited, rfl, hentry⟩

/-- A write that is counted is credited to its client. -/
theorem credits_countIgnored (haudited : isAudited task.request) (now : DateTime)
    (s : Connection) (w : IgnoredWrite) :
    Credits task client s (countIgnored ctx task client now s w) := by
  unfold countIgnored
  split
  · refine ⟨fun r hr => .inl hr, fun r hr => ?_, rfl⟩
    rcases List.mem_append.1 hr with hr | hr
    · exact .inl hr
    · exact .inr ⟨haudited, List.mem_singleton.1 hr⟩
  · exact credits_record haudited s rfl

/-- A panic credits nobody. -/
theorem credits_panic (s : Connection) : Credits task client s s.panic := by
  unfold panic
  split_ifs
  · exact Credits.of_eq rfl rfl rfl
  · exact Credits.of_eq rfl rfl rfl

/-- Records of events are credited to their client. -/
theorem credits_recordEvents {now : DateTime} (s : Connection) (events : List AuditEvent)
    (h : events ≠ [] → isAudited task.request) :
    Credits task client s (events.foldl (recordEvent ctx task client now) s) := by
  cases events with
  | nil => exact Credits.refl s
  | cons event events =>
    have haudited := h (List.cons_ne_nil _ _)
    exact Credits.foldl (fun s event => credits_record haudited s rfl) _ _

/-- The end of a forwarding task only adds records of its request. -/
theorem credits_completeForward (s : Connection) {f : Forward} (hf : f.Audits task.request)
    (answer : Answer) (read : Option (List DataValue)) (now : DateTime) :
    Credits task f.client s (completeForward x ctx s task f answer read now) := by
  unfold completeForward
  dsimp only
  split
  · exact credits_panic s
  · next plan names happlied =>
    have hplan := Forward.isSome_of_applied happlied
    have hnames : Credits task f.client s { s with shared := { s.shared with names := names } } :=
      Credits.of_eq rfl rfl rfl
    refine Credits.trans (Credits.trans ?_ (credits_recordEvents _ _ ?_))
      (Credits.of_eq rfl rfl rfl)
    · split
      · next items hitems =>
        have haudited := hf (.inr (by rw [hitems]; rfl))
        exact hnames.trans (Credits.foldl (credits_countIgnored haudited now) _ _)
      · exact hnames
    · -- events come of a plan
      intro hevents
      refine hf (.inl ?_)
      rw [← hplan]
      split at hevents
      · rfl
      · rfl
      · exact absurd rfl hevents

/-! ## What a task does -/

/-- Nothing was handed over, and tasks have only left. -/
structure Leaves (s t : Connection) : Prop where
  started : t.started = s.started
  sent : t.sent = s.sent
  upstreamOpen : t.upstreamOpen → s.upstreamOpen
  committing : t.committing ⊆ s.committing
  awaiting : t.awaiting ⊆ s.awaiting

/-- A step that leaves the tasks alone leaves the sessions alone. -/
theorem Frame.leaves (h : Frame s t) : Leaves s t where
  started := h.started
  sent := h.sent
  upstreamOpen := by rw [h.upstreamOpen]; exact id
  committing := by rw [h.committing]; exact List.Subset.refl _
  awaiting := by rw [h.awaiting]; exact List.Subset.refl _

/-- A panic leaves the sessions alone. -/
theorem leaves_panic (s : Connection) : Leaves s s.panic := by
  unfold panic
  split_ifs
  · exact ⟨rfl, rfl, id, List.nil_subset _, List.nil_subset _⟩
  · exact ⟨rfl, rfl, id, List.Subset.refl _, List.Subset.refl _⟩

/-- An answer that is no activation leaves the sessions alone. -/
theorem leaves_complete (x : Texts) (ctx : Ctx) (s : Connection) (task : Task)
    (awaiting : Awaiting) (answer : Answer) (read : Option (List DataValue))
    (checks : Except StatusCode Unit) (now : DateTime) (instant : ℕ) :
    Leaves s (complete x ctx s task awaiting answer read checks now instant) := by
  rcases frame_complete x ctx s task awaiting answer read checks now instant with
    hframe | ⟨heq, -⟩
  · exact hframe.leaves
  · rw [heq]
    exact leaves_panic s

/-- No change was recorded. -/
structure Unrecorded (s t : Connection) : Prop where
  recorded : t.recorded = s.recorded
  summarised : t.summarised = s.summarised

/-- What a task does with its answer, by what it waited for. -/
inductive CompleteCase (ctx : Ctx) (task : Task) (answer : Answer)
    (checks : Except StatusCode Unit) (instant : ℕ) (s t : Connection) : Awaiting → Prop
  | forwarded (f : Forward) (h : f.Audits task.request → Credits task f.client s t) :
      CompleteCase ctx task answer checks instant s t (.forward f)
  | created (applicationUri applicationName : String) (header : ResponseHeader)
      (sessionId : String) (newToken : NodeId) (timeout : ℕ) (client : ClientContext)
      (hanswer : answer = .response (.createSession header sessionId newToken timeout))
      (hchecks : checks = .ok ())
      (hclient : client.user = none ∧ client.sessionId = some sessionId)
      (hsessions : t.shared.sessions = s.shared.sessions.insert instant newToken
        (SessionEntry.create ctx.channel ctx.connectionId client timeout instant))
      (h : Unrecorded s t) :
      CompleteCase ctx task answer checks instant s t
        (.createSession applicationUri applicationName)
  | activated (client : ClientContext) (header : ResponseHeader)
      (hanswer : answer = .response (.activateSession header))
      (hgood : header.serviceResult.isGood)
      (hsessions : t.shared.sessions = s.shared.sessions.modify instant
        task.request.requestHeader.authenticationToken
        (SessionEntry.activate ctx.connectionId client))
      (h : Unrecorded s t) :
      CompleteCase ctx task answer checks instant s t (.activateSession client)
  | closed
      (hsessions : t.shared.sessions = s.shared.sessions.removeOwned
        task.request.requestHeader.authenticationToken ctx.connectionId)
      (h : Unrecorded s t) :
      CompleteCase ctx task answer checks instant s t .closeSession
  /-- Nothing comes of the answer. -/
  | answered (awaiting : Awaiting)
      (hcreate : ∀ applicationUri applicationName header sessionId newToken timeout,
        awaiting = .createSession applicationUri applicationName → checks = .ok () →
          answer ≠ .response (.createSession header sessionId newToken timeout))
      (hactivate : ∀ client header, awaiting = .activateSession client →
        header.serviceResult.isGood → answer ≠ .response (.activateSession header))
      (hclose : awaiting ≠ .closeSession)
      (hsessions : t.shared.sessions = s.shared.sessions) (h : Unrecorded s t) :
      CompleteCase ctx task answer checks instant s t awaiting

/-- What becomes of a request when its answer arrives. -/
theorem complete_cases (x : Texts) (ctx : Ctx) (s : Connection) (task : Task)
    (awaiting : Awaiting) (answer : Answer) (read : Option (List DataValue))
    (checks : Except StatusCode Unit) (now : DateTime) (instant : ℕ) :
    CompleteCase ctx task answer checks instant s
      (complete x ctx s task awaiting answer read checks now instant) awaiting := by
  unfold complete
  dsimp only
  split
  · next f =>
    exact .forwarded f fun hf => credits_completeForward s hf answer read now
  · next applicationUri applicationName header sessionId newToken timeout =>
    split
    · exact .created _ _ header sessionId newToken timeout _ rfl rfl ⟨rfl, rfl⟩ rfl ⟨rfl, rfl⟩
    · exact .answered _ (fun _ _ _ _ _ _ _ hok => nomatch hok) (fun _ _ hne => nomatch hne)
        (fun hne => nomatch hne) rfl ⟨rfl, rfl⟩
  · next client header =>
    split_ifs with hgood
    · exact .activated client header rfl hgood rfl ⟨rfl, rfl⟩
    · refine .answered _ (fun _ _ _ _ _ _ hne => nomatch hne) (fun c header' _ hgood' heq => ?_)
        (fun hne => nomatch hne) rfl ⟨rfl, rfl⟩
      obtain rfl := ResponseMessage.activateSession.inj (Answer.response.inj heq)
      exact hgood hgood'
  · exact .closed rfl ⟨rfl, rfl⟩
  · exact .closed rfl ⟨rfl, rfl⟩
  · next response hforward hcreate hactivate hclose =>
    refine .answered awaiting ?_ ?_ hclose rfl ⟨rfl, rfl⟩
    · intro uri name header sessionId newToken timeout hawaiting _ heq
      exact hcreate uri name header sessionId newToken timeout hawaiting (Answer.response.inj heq)
    · intro client header hawaiting _ heq
      exact hactivate client header hawaiting (Answer.response.inj heq)
  · next hforward hclose =>
    exact .answered awaiting (fun _ _ _ _ _ _ _ _ heq => nomatch heq)
      (fun _ _ _ _ heq => nomatch heq) hclose rfl ⟨rfl, rfl⟩

/-- What a task that hands over a request may wait for. -/
def Suits (client : ClientContext) (asks : ClientContext → Prop) (request : RequestMessage) :
    Awaiting → Prop
  | .createSession .. => ∃ header uri name, request = .createSession header uri name
  | .activateSession c => (∃ header, request = .activateSession header) ∧ asks c
  | .closeSession => ∃ header, request = .closeSession header
  | .forward f => f.client = client ∧ f.Audits request

/-- What a task that runs can do, if it acts for the client and asks for the activation of a
session only for a client that `asks` admits. -/
structure TaskCase (task : Task) (client : ClientContext) (asks : ClientContext → Prop)
    (s t : Connection) : Prop where
  started : t.started = s.started
  upstreamOpen : t.upstreamOpen → s.upstreamOpen
  recorded : ∀ r ∈ t.recorded, r ∈ s.recorded ∨
    isAudited task.request ∧ r.1 = task.id ∧ r.2.client = some client
  summarised : ∀ r ∈ t.summarised, r ∈ s.summarised ∨
    isAudited task.request ∧ r = (task.id, client)
  holders : ∀ token h, t.shared.sessions.holder token = some h →
    s.shared.sessions.holder token = some h
  kept : s.upstreamOpen → t.shared.sessions.holder = s.shared.sessions.holder
  sent : requests t.sent = requests s.sent ∨
    s.upstreamOpen ∧ requests t.sent = requests s.sent ++ [task.tag]
  committing : ∀ p ∈ t.committing, p ∈ s.committing ∨ p.1 = task ∧ p.2.1.client = client ∧
    p.2.1.Audits task.request ∧ isAudited task.request ∧ p.2.2.client = some client
  awaiting : ∀ p ∈ t.awaiting, p ∈ s.awaiting ∨
    p.1 = task ∧ Suits client asks task.request p.2

namespace TaskCase

variable {asks : ClientContext → Prop}

/-- A task that adds nothing but records. -/
theorem of_leaves (h : Leaves s t) (hcredits : Credits task client s t) :
    TaskCase task client asks s t where
  started := h.started
  upstreamOpen := h.upstreamOpen
  recorded := hcredits.recorded
  summarised := hcredits.summarised
  holders := fun token held hheld => by rwa [hcredits.sessions] at hheld
  kept := fun _ => by rw [hcredits.sessions]
  sent := .inl (by rw [h.sent])
  committing := fun _ hp => .inl (h.committing hp)
  awaiting := fun _ hp => .inl (h.awaiting hp)

/-- The task has used a session before. -/
theorem touch (instant : ℕ) (token : NodeId)
    (h : TaskCase task client asks (s.withSessions (s.shared.sessions.modify instant token id)) t) :
    TaskCase task client asks s t := by
  have hholder := SessionRegistry.holder_touch s.shared.sessions instant token
  refine ⟨h.started, h.upstreamOpen, h.recorded, h.summarised, fun token' held hheld => ?_,
    fun hopen => ?_, h.sent, h.committing, h.awaiting⟩
  · rw [← hholder]
    exact h.holders token' held hheld
  · rw [← hholder]
    exact h.kept hopen

end TaskCase

/-- A request is handed over, or its task goes on without an answer. -/
theorem taskCase_handOver {asks : ClientContext → Prop} (s : Connection) {awaiting : Awaiting}
    (hsuits : Suits client asks task.request awaiting) (preRead : Option PreRead)
    (now : DateTime) (instant : ℕ) :
    TaskCase task client asks s (handOver x ctx s task awaiting preRead now instant) := by
  unfold handOver
  split_ifs with hopen
  · refine ⟨rfl, id, fun _ hr => .inl hr, fun _ hr => .inl hr, fun _ _ hheld => hheld,
      fun _ => rfl, .inr ⟨hopen, requests_handed ..⟩, fun _ hp => .inl hp, fun p hp => ?_⟩
    rcases List.mem_append.1 hp with hp | hp
    · exact .inl hp
    · obtain rfl := List.mem_singleton.1 hp
      exact .inr ⟨rfl, hsuits⟩
  · have hleaves := leaves_complete x ctx s task awaiting
      (.error .badServerNotConnected false) none (.ok ()) now instant
    have hcase := complete_cases x ctx s task awaiting (.error .badServerNotConnected false) none
      (.ok ()) now instant
    cases hcase with
    | forwarded f h =>
      obtain ⟨rfl, hf⟩ := hsuits
      exact TaskCase.of_leaves hleaves (h hf)
    | created _ _ _ _ _ _ _ hanswer => cases hanswer
    | activated _ _ hanswer => cases hanswer
    | closed hsessions h =>
      refine ⟨hleaves.started, hleaves.upstreamOpen, ?_, ?_, fun token held hheld => ?_,
        fun hopen' => absurd hopen' hopen, .inl (by rw [hleaves.sent]),
        fun _ hp => .inl (hleaves.committing hp), fun _ hp => .inl (hleaves.awaiting hp)⟩
      · rw [h.recorded]
        exact fun _ hr => .inl hr
      · rw [h.summarised]
        exact fun _ hr => .inl hr
      · rw [hsessions, SessionRegistry.holder_removeOwned] at hheld
        split_ifs at hheld
        exact hheld
    | answered _ _ _ _ hsessions h =>
      exact TaskCase.of_leaves hleaves (Credits.of_eq h.recorded h.summarised hsessions)

/-- The activations that a task may ask for: of a session in the table, for the identity that the
checks admit. -/
def Asks (ctx : Ctx) (sessions : SessionRegistry) (task : Task)
    (checks : Except StatusCode UserIdentity) (client : ClientContext) : Prop :=
  ∃ old owner user, sessions.holder task.request.requestHeader.authenticationToken =
      some (old, owner) ∧ checks = .ok user ∧
    client = { old with remoteAddr := ctx.remoteAddr, user := some user }

/-- What becomes of a request that is forwarded. -/
theorem taskCase_forward {asks : ClientContext → Prop} (s : Connection) (settings : Settings) :
    TaskCase task (attributed ctx s.shared.sessions task.request) asks s
      (forward x ctx s task settings) := by
  unfold forward
  dsimp only
  refine TaskCase.touch settings.instant task.request.requestHeader.authenticationToken ?_
  split
  · exact TaskCase.of_leaves (leaves_panic _) (credits_panic _)
  · next f hf =>
    obtain ⟨haudits, hclient⟩ := audits_of_prepare hf
    split
    · next entry hentry =>
      -- an intent is that of a plan
      unfold Forward.intent at hentry
      split_ifs at hentry
      obtain ⟨plan, hplan, rfl⟩ := Option.map_eq_some_iff.1 hentry
      refine ⟨rfl, id, fun _ hr => .inl hr, fun _ hr => .inl hr, fun _ _ hheld => hheld,
        fun _ => rfl, .inl rfl, fun p hp => ?_, fun _ hp => .inl hp⟩
      rcases List.mem_append.1 hp with hp | hp
      · exact .inl hp
      · obtain rfl := List.mem_singleton.1 hp
        refine .inr ⟨rfl, hclient, haudits, haudits (.inl (by rw [hplan]; rfl)), ?_⟩
        rw [hclient]
        rfl
    · refine taskCase_handOver _ ?_ ..
      exact ⟨hclient, haudits⟩

/-- A session that admits a client was checked. -/
theorem SessionEntry.eq_ok_of_admits {α : Type*} {e : SessionEntry} {channel : Channel}
    {checks : Except StatusCode α} {a : α} (h : e.admits channel checks = .ok a) :
    checks = .ok a := by
  unfold SessionEntry.admits at h
  split_ifs at h
  exact h

/-- What a task does that runs for the first time. -/
theorem taskCase_start (s : Connection) (settings : Settings)
    (checks : Except StatusCode UserIdentity) :
    TaskCase task (attributed ctx s.shared.sessions task.request)
      (Asks ctx s.shared.sessions task checks) s (start x ctx s task settings checks) := by
  have hrespond : ∀ {u : Connection} {response : ResponseMessage},
      TaskCase task (attributed ctx s.shared.sessions task.request)
        (Asks ctx s.shared.sessions task checks) u (u.respond task.id response) :=
    fun {u} {response} => TaskCase.of_leaves (frame_respond u task.id response).leaves
      (Credits.of_eq rfl rfl rfl)
  unfold start
  dsimp only
  split
  · exact hrespond
  · next header uri name _ hrequest =>
    refine taskCase_handOver _ ?_ ..
    exact ⟨header, uri, name, hrequest⟩
  · next header hrequest =>
    split
    · exact hrespond
    · next entry hentry =>
      split
      · exact TaskCase.touch settings.instant _ hrespond
      · next user hadmits =>
        refine TaskCase.touch settings.instant _ (taskCase_handOver _ ?_ ..)
        refine ⟨⟨header, hrequest⟩, entry.client, entry.connectionId, user, ?_,
          SessionEntry.eq_ok_of_admits hadmits, rfl⟩
        rw [SessionRegistry.holder, hentry]
        rfl
  · next header hrequest =>
    refine TaskCase.touch settings.instant _ (taskCase_handOver _ ?_ ..)
    exact ⟨header, hrequest⟩
  · exact taskCase_forward ..

/-! ## What a step does -/

/-- What a step does, by the task that moves. -/
inductive StepCase (ctx : Ctx) (s t : Connection) : Op → Prop
  /-- No task moves, or one leaves. -/
  | left (op : Op) (h : Leaves s t) (hunrecorded : Unrecorded s t)
      (hsessions : t.shared.sessions = s.shared.sessions)
      (hop : ∀ settings checks, op ≠ .poll settings checks)
      (hop' : ∀ id answer read checks now instant, op ≠ .answer id answer read checks now instant) :
      StepCase ctx s t op
  | elsewhere (shared : Shared) (ht : t = { s with shared := shared }) :
      StepCase ctx s t (.elsewhere shared)
  | polled (settings : Settings) (checks : Except StatusCode UserIdentity) (task : Task)
      (fresh : List Task) (u : Connection) (hfresh : s.fresh = task :: fresh)
      (hu : u = { s with
        fresh := fresh
        started := s.started ++ [⟨task, settings, attributed ctx s.shared.sessions task.request⟩] })
      (h : TaskCase task (attributed ctx s.shared.sessions task.request)
        (Asks ctx s.shared.sessions task checks) u t) :
      StepCase ctx s t (.poll settings checks)
  | committed (id : ℕ) (now : DateTime) (instant : ℕ) (task : Task) (f : Forward)
      (entry : AuditEntry) (u : Connection) (hid : task.id = id)
      (hmem : (task, f, entry) ∈ s.committing)
      (hu : u = record { s with committing := s.committing.eraseP fun p => p.1.id = id } id entry)
      (h : f.Audits task.request → TaskCase task f.client (fun _ => False) u t) :
      StepCase ctx s t (.committed id true now instant)
  | answered (id : ℕ) (answer : Answer) (read : Option (List DataValue))
      (checks : Except StatusCode Unit) (now : DateTime) (instant : ℕ) (task : Task)
      (awaiting : Awaiting) (u : Connection) (hfind : s.awaiting.find? (fun p => p.1.id = id) =
        some (task, awaiting))
      (hu : u = { s with awaiting := s.awaiting.eraseP fun p => p.1.id = id })
      (hleaves : Leaves u t) (h : CompleteCase ctx task answer checks instant u t awaiting) :
      StepCase ctx s t (.answer id answer read checks now instant)

/-- What every step of a connection does. -/
theorem step_cases {op : Op} (hs : step x ctx s op = some t) : StepCase ctx s t op := by
  have hleft : ∀ {fresh : List Task} {received : List RequestMessage} {loop : Loop}
      {dropped : List Task} {committing : List (Task × Forward × AuditEntry)}
      {awaiting : List (Task × Awaiting)} {upstreamOpen : Bool}
      {responses : List (ℕ × ResponseMessage)}, committing ⊆ s.committing →
      awaiting ⊆ s.awaiting → (upstreamOpen → s.upstreamOpen) →
      Leaves s { s with
        fresh := fresh, received := received, loop := loop, dropped := dropped
        committing := committing, awaiting := awaiting, upstreamOpen := upstreamOpen
        responses := responses } :=
    fun hcommitting hawaiting hopen => ⟨rfl, rfl, hopen, hcommitting, hawaiting⟩
  cases op with
  | elsewhere shared =>
    cases hs
    exact .elsewhere shared rfl
  | receive message upstream =>
    have hreceive : Leaves s (s.receive message upstream) ∧
        Unrecorded s (s.receive message upstream) ∧
        (s.receive message upstream).shared.sessions = s.shared.sessions := by
      unfold receive
      dsimp only
      split_ifs
      · split
        · exact ⟨hleft (List.Subset.refl _) (List.Subset.refl _) id, ⟨rfl, rfl⟩, rfl⟩
        · exact ⟨hleft (List.Subset.refl _) (List.Subset.refl _) id, ⟨rfl, rfl⟩, rfl⟩
      · split
        · exact ⟨hleft (List.Subset.refl _) (List.Subset.refl _) id, ⟨rfl, rfl⟩, rfl⟩
        · exact ⟨hleft (List.Subset.refl _) (List.Subset.refl _) id, ⟨rfl, rfl⟩, rfl⟩
    simp only [step] at hs
    split at hs
    · cases hs
      exact .left _ hreceive.1 hreceive.2.1 hreceive.2.2 (by simp) (by simp)
    · cases hs
      exact .left _ (hleft (List.Subset.refl _) (List.Subset.refl _) id) ⟨rfl, rfl⟩ rfl (by simp)
        (by simp)
    · cases hs
  | upstreamClosed =>
    cases hs
    exact .left _ (hleft (List.Subset.refl _) (List.Subset.refl _) (fun h => by cases h))
      ⟨rfl, rfl⟩ rfl (by simp) (by simp)
  | close =>
    obtain ⟨-, rfl⟩ := step_close hs
    exact .left _ (hleft (List.Subset.refl _) (List.Subset.refl _) id) ⟨rfl, rfl⟩ rfl (by simp)
      (by simp)
  | stop =>
    obtain ⟨-, rfl⟩ := step_stop hs
    exact .left _ (hleft (List.Subset.refl _) (List.Subset.refl _) id) ⟨rfl, rfl⟩ rfl (by simp)
      (by simp)
  | finishAudited order =>
    obtain ⟨-, rfl⟩ := step_finishAudited hs
    exact .left _ (hleft List.filter_sublist.subset List.filter_sublist.subset id) ⟨rfl, rfl⟩ rfl
      (by simp) (by simp)
  | giveUp =>
    obtain ⟨-, rfl⟩ := step_giveUp hs
    exact .left _ (hleft (List.nil_subset _) (List.nil_subset _) id) ⟨rfl, rfl⟩ rfl (by simp)
      (by simp)
  | poll settings checks =>
    obtain ⟨task, fresh, hfresh, -, rfl⟩ := step_poll hs
    let u : Connection := { s with
      fresh := fresh
      started := s.started ++ [⟨task, settings, attributed ctx s.shared.sessions task.request⟩] }
    exact .polled settings checks task fresh u hfresh rfl (taskCase_start u settings checks)
  | committed id ok now instant =>
    obtain ⟨task, f, entry, hfind, -, hcase⟩ := step_committed hs
    have hid : task.id = id := by simpa using List.find?_some hfind
    have hmem := List.mem_of_find?_eq_some hfind
    rcases hcase with ⟨hok, rfl⟩ | ⟨-, rfl⟩
    · subst hok
      refine .committed id now instant task f entry _ hid hmem rfl fun hf => ?_
      refine taskCase_handOver _ ?_ ..
      exact ⟨rfl, hf⟩
    · exact .left _ (hleft List.eraseP_subset (List.Subset.refl _) fun h => h) ⟨rfl, rfl⟩ rfl
        (by simp) (by simp)
  | answer id answer read checks now instant =>
    obtain ⟨task, awaiting, hfind, -, rfl⟩ := step_answer hs
    exact .answered id answer read checks now instant task awaiting _ hfind rfl
      (leaves_complete ..) (complete_cases ..)

/-! ## Every record is for the client of its request -/

/-- What waits for a commit or an answer, and what was recorded, is for the client that its request
was started for. -/
structure Credited (s : Connection) : Prop where
  held : ∀ p ∈ s.committing, isAudited p.1.request ∧ p.2.1.Audits p.1.request ∧
    p.2.2.client = some p.2.1.client ∧ ∃ st ∈ s.started, st.task = p.1 ∧ st.client = p.2.1.client
  waiting : ∀ p ∈ s.awaiting, ∃ st ∈ s.started, st.task = p.1 ∧
    Suits st.client (fun _ => True) p.1.request p.2
  recorded : ∀ r ∈ s.recorded, ∃ st ∈ s.started, isAudited st.task.request ∧
    r.1 = st.task.id ∧ r.2.client = some st.client
  summarised : ∀ r ∈ s.summarised, ∃ st ∈ s.started, isAudited st.task.request ∧
    r = (st.task.id, st.client)

/-- What suits a client suits it also with more who asked. -/
theorem Suits.mono {asks asks' : ClientContext → Prop} (h : ∀ c, asks c → asks' c)
    {request : RequestMessage} {awaiting : Awaiting}
    (hsuits : Suits client asks request awaiting) : Suits client asks' request awaiting := by
  cases awaiting with
  | activateSession c => exact ⟨hsuits.1, h c hsuits.2⟩
  | _ => exact hsuits

namespace Credited

/-- Tasks may leave. -/
theorem leave (h : Credited s) (hleaves : Leaves s t) (hunrecorded : Unrecorded s t) :
    Credited t := by
  refine ⟨fun p hp => ?_, fun p hp => ?_, fun r hr => ?_, fun r hr => ?_⟩
  · rw [hleaves.started]
    exact h.held p (hleaves.committing hp)
  · rw [hleaves.started]
    exact h.waiting p (hleaves.awaiting hp)
  · rw [hleaves.started]
    rw [hunrecorded.recorded] at hr
    exact h.recorded r hr
  · rw [hleaves.started]
    rw [hunrecorded.summarised] at hr
    exact h.summarised r hr

/-- The next task starts. -/
theorem begin (h : Credited s) (fresh : List Task) (st : Started) :
    Credited { s with fresh := fresh, started := s.started ++ [st] } := by
  have hsub : s.started ⊆ s.started ++ [st] := List.subset_append_left ..
  refine ⟨fun p hp => ?_, fun p hp => ?_, fun r hr => ?_, fun r hr => ?_⟩
  · obtain ⟨haudited, hplan, hentry, st, hst, heq⟩ := h.held p hp
    exact ⟨haudited, hplan, hentry, st, hsub hst, heq⟩
  · obtain ⟨st, hst, heq⟩ := h.waiting p hp
    exact ⟨st, hsub hst, heq⟩
  · obtain ⟨st, hst, heq⟩ := h.recorded r hr
    exact ⟨st, hsub hst, heq⟩
  · obtain ⟨st, hst, heq⟩ := h.summarised r hr
    exact ⟨st, hsub hst, heq⟩

/-- The intent of a request is committed. -/
theorem commit (h : Credited s) {id : ℕ} {task : Task} {f : Forward} {entry : AuditEntry}
    (hmem : (task, f, entry) ∈ s.committing) (hid : task.id = id) :
    Credited
      (record { s with committing := s.committing.eraseP fun p => p.1.id = id } id entry) := by
  obtain ⟨haudited, -, hentry, st, hst, htask, hclient⟩ := h.held _ hmem
  have herase : Credited { s with committing := s.committing.eraseP fun p => p.1.id = id } :=
    h.leave ⟨rfl, rfl, fun hopen => hopen, List.eraseP_subset, List.Subset.refl _⟩ ⟨rfl, rfl⟩
  refine ⟨herase.held, herase.waiting, fun r hr => ?_, herase.summarised⟩
  rcases List.mem_append.1 hr with hr | hr
  · exact herase.recorded r hr
  · obtain rfl := List.mem_singleton.1 hr
    dsimp only at htask
    subst htask
    exact ⟨st, hst, haudited, hid.symm, by rw [hclient]; exact hentry⟩

/-- A task that has started goes on. -/
theorem run (h : Credited s) {asks : ClientContext → Prop} {st : Started} (hst : st ∈ s.started)
    (hcase : TaskCase st.task st.client asks s t) : Credited t := by
  refine ⟨fun p hp => ?_, fun p hp => ?_, fun r hr => ?_, fun r hr => ?_⟩
  · rw [hcase.started]
    rcases hcase.committing p hp with hp | ⟨htask, hclient, hplan, haudited, hentry⟩
    · exact h.held p hp
    · rw [htask, hclient]
      exact ⟨haudited, hplan, hentry, st, hst, rfl, rfl⟩
  · rw [hcase.started]
    rcases hcase.awaiting p hp with hp | ⟨htask, hsuits⟩
    · exact h.waiting p hp
    · rw [htask]
      exact ⟨st, hst, rfl, hsuits.mono fun _ _ => trivial⟩
  · rw [hcase.started]
    rcases hcase.recorded r hr with hr | ⟨haudited, hid, hclient⟩
    · exact h.recorded r hr
    · exact ⟨st, hst, haudited, hid, hclient⟩
  · rw [hcase.started]
    rcases hcase.summarised r hr with hr | ⟨haudited, hr⟩
    · exact h.summarised r hr
    · exact ⟨st, hst, haudited, hr⟩

end Credited

/-- **Step lemma**: every step records changes for the clients of their requests. -/
theorem credited_step (h : Credited s) {op : Op} (hs : step x ctx s op = some t) :
    Credited t := by
  cases step_cases hs with
  | left _ hleaves hunrecorded => exact h.leave hleaves hunrecorded
  | elsewhere shared ht =>
    rw [ht]
    exact ⟨h.held, h.waiting, h.recorded, h.summarised⟩
  | polled settings checks task fresh u hfresh hu hcase =>
    set st : Started := ⟨task, settings, attributed ctx s.shared.sessions task.request⟩ with hst
    have hbegin := h.begin fresh st
    rw [← hu] at hbegin
    have hmem : st ∈ u.started := by
      rw [hu]
      simp
    exact hbegin.run hmem hcase
  | committed id now instant task f entry u hid hmem hu hcase =>
    obtain ⟨-, hplan, -, st, hst, htask, hclient⟩ := h.held _ hmem
    dsimp only at hplan htask hclient
    have hrecord := h.commit hmem hid
    rw [← hu] at hrecord
    have hcase := hcase hplan
    rw [← htask, ← hclient] at hcase
    have hmem : st ∈ u.started := by
      rw [hu]
      exact hst
    exact hrecord.run hmem hcase
  | answered id answer read checks now instant task awaiting u hfind hu hleaves hcase =>
    obtain ⟨st, hst, htask, hsuits⟩ := h.waiting _ (List.mem_of_find?_eq_some hfind)
    dsimp only at htask hsuits
    have herase : Credited u := by
      rw [hu]
      exact h.leave ⟨rfl, rfl, fun hopen => hopen, List.Subset.refl _, List.eraseP_subset⟩
        ⟨rfl, rfl⟩
    have hst' : st ∈ u.started := by
      rw [hu]
      exact hst
    cases hcase with
    | forwarded f hcredits =>
      obtain ⟨hclient, hplan⟩ := hsuits
      have hcase : TaskCase task f.client (fun _ => False) u t :=
        TaskCase.of_leaves hleaves (hcredits hplan)
      rw [← htask, hclient] at hcase
      exact herase.run hst' hcase
    | created _ _ _ _ _ _ _ _ _ _ _ hunrecorded => exact herase.leave hleaves hunrecorded
    | activated _ _ _ _ _ hunrecorded => exact herase.leave hleaves hunrecorded
    | closed _ hunrecorded => exact herase.leave hleaves hunrecorded
    | answered _ _ _ _ _ hunrecorded => exact herase.leave hleaves hunrecorded

/-- Nothing is credited at the start. -/
theorem credited_start (shared : Shared) : Credited { shared := shared } where
  held := fun _ hp => nomatch hp
  waiting := fun _ hp => nomatch hp
  recorded := fun _ hr => nomatch hr
  summarised := fun _ hr => nomatch hr

/-! ## Every request is handed over once -/

/-- The requests among what was sent. -/
theorem mem_requests {sent : List Sent} {message : RequestMessage} {id : ℕ} :
    (message, id) ∈ requests sent ↔ .request id message ∈ sent := by
  unfold requests
  rw [List.mem_filterMap]
  constructor
  · rintro ⟨m, hm, heq⟩
    cases m with
    | read id' pre => cases heq
    | request id' message' =>
      obtain ⟨rfl, rfl⟩ := Prod.mk.inj (Option.some.inj heq)
      exact hm
  · exact fun hm => ⟨_, hm, rfl⟩

/-- The requests that were handed over have different numbers. -/
def Distinct (s : Connection) : Prop := ((requests s.sent).map Prod.snd).Nodup

/-- What was sent stays different when a task sends one request more. -/
theorem Distinct.run (h : Distinct s) {asks : ClientContext → Prop}
    (hnew : ∀ m ∈ s.sent, m.id ≠ task.id) (hcase : TaskCase task client asks s t) :
    Distinct t := by
  unfold Distinct
  rcases hcase.sent with hsent | ⟨-, hsent⟩
  · rw [hsent]
    exact h
  · rw [hsent, List.map_append, List.nodup_append]
    refine ⟨h, List.nodup_singleton _, fun a ha b hb hab => ?_⟩
    obtain ⟨⟨message, id⟩, hmem, rfl⟩ := List.mem_map.1 ha
    refine hnew _ (mem_requests.1 hmem) ?_
    rw [List.mem_singleton.1 hb] at hab
    exact hab

/-- Every step keeps what was sent different. -/
theorem distinct_step (htracked : Tracked s) (hcredited : Credited s) (h : Distinct s) {op : Op}
    (hs : step x ctx s op = some t) : Distinct t := by
  have hsame : ∀ {u : Connection}, u.sent = s.sent → Distinct u := by
    intro u hsent
    rw [Distinct, hsent]
    exact h
  cases step_cases hs with
  | left _ hleaves => exact hsame hleaves.sent
  | elsewhere shared ht =>
    rw [ht]
    exact h
  | polled settings checks task fresh u hfresh hu hcase =>
    obtain ⟨-, -, hnew⟩ := htracked.begin hfresh
      ⟨task, settings, attributed ctx s.shared.sessions task.request⟩ rfl
    refine Distinct.run (hsame ?_) ?_ hcase
    · rw [hu]
    · rw [hu]
      exact hnew
  | committed id now instant task f entry u hid hmem hu hcase =>
    refine Distinct.run (hsame ?_) ?_ (hcase (hcredited.held _ hmem).2.1)
    · rw [hu]
      rfl
    · rw [hu]
      exact fun m hm => htracked.sent_not_committing m hm _ hmem
  | answered id answer read checks now instant task awaiting u hfind hu hleaves hcase =>
    refine hsame ?_
    rw [hleaves.sent, hu]

end Connection

end AuditGateway
