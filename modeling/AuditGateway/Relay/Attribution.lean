import AuditGateway.Relay.Credit

set_option relaxedAutoImplicit false
set_option autoImplicit false

/-!
# The user of a change

The gateway looks up who a change is for when its task runs for the first time, and stores who a
session is for when the answer to its activation is there. The server, which processes the requests
of a connection in the order they were handed over, may have accepted the activation long before.
A change is recorded for the user that the server knows if the table is up to date when its task
starts, and the session does not change hands before the server gets to it.

The last fields of the state record what happened, for the statements only.

## Main definitions

* `UpstreamSession`, `Verdict` — a session at the server, and what it makes of a request.
* `Attribution`, `Attribution.step` — a connection, the other connections of the target, and the
  server.
* `Attribution.Attributed` — every change is recorded for the user that the server knows.
* `Attribution.Safe` — the steps in which the table keeps up with the server.

## Main results

* `Attribution.attributed_of_run` — changes are recorded for the user that the server knows, in
  every run of these steps.
* `Attribution.loses_user` — a change behind an unanswered activation, and one behind a refused
  CloseSession.
-/

namespace AuditGateway

/-! ## The server -/

/-- A session at the server. -/
structure UpstreamSession where
  sessionId : String
  /-- The user of the last activation that the server accepted. -/
  user : Option UserIdentity := none
  /-- It was created or last activated over the connection. -/
  here : Bool
  alive : Bool := true
  /-- The last request of the connection that created or activated it. -/
  latest : Option ℕ := none

/-- What the server makes of a request. -/
inductive Verdict
  /-- The request does not reach it. -/
  | lost
  | created (token : NodeId) (sessionId : String)
  | accepted
  | refused

/-- The server answers a request in this way. -/
def Verdict.answers (request : RequestMessage) (response : ResponseMessage) : Verdict → Bool
  | lost => false
  | created token sessionId =>
    match response with
    | .createSession _ sessionId' newToken _ => sessionId' = sessionId ∧ newToken = token
    | _ => false
  | accepted =>
    match request with
    | .createSession .. => false
    | .activateSession _ => response.responseHeader.serviceResult.isGood
    | .closeSession _ => response.responseHeader.serviceResult.isGood
    | _ => true
  | refused =>
    match request, response with
    | .createSession .., .createSession .. => false
    | .activateSession _, response => !response.responseHeader.serviceResult.isGood
    | .closeSession _, response => !response.responseHeader.serviceResult.isGood
    | _, _ => true

/-- The sessions of the server behind a request of the connection. It issues fresh tokens, and
activates and closes only sessions it has. -/
def served (asked : ℕ → Option UserIdentity) (sessions : NodeId → Option UpstreamSession)
    (message : RequestMessage) (id : ℕ) (verdict : Verdict) :
    Option (NodeId → Option UpstreamSession) :=
  let token := message.requestHeader.authenticationToken
  match verdict, message with
  | .created newToken sessionId, .createSession .. =>
    if (sessions newToken).isNone then
      some (Function.update sessions newToken
        (some { sessionId := sessionId, here := true, latest := some id }))
    else none
  | .created .., _ => none
  | .accepted, .createSession .. => none
  | .accepted, .activateSession _ =>
    ((sessions token).filter (·.alive)).map fun u =>
      Function.update sessions token
        (some { u with user := asked id, here := true, latest := some id })
  | .accepted, .closeSession _ =>
    ((sessions token).filter fun u => u.here ∧ u.alive).map fun u =>
      Function.update sessions token (some { u with alive := false })
  | _, _ => some sessions

/-- The client is the user and the session as the server has them; and nobody, only if the session
is not one of the connection. -/
def ClientContext.IsOf (client : ClientContext) : Option UpstreamSession → Prop
  | none => client.user = none ∧ client.sessionId = none
  | some u => u.here ∧ client.user = u.user ∧ client.sessionId = some u.sessionId ∨
      ¬ (u.here ∧ u.alive) ∧ client.user = none ∧ client.sessionId = none

/-! ## Other connections -/

/-- What a locked section of a connection does to the table. -/
def Sessions.Section.applied (channel : Channel) (c now : ℕ) (s : SessionRegistry) :
    Section → SessionRegistry
  | .insert token client timeout =>
    s.insert now token (SessionEntry.create channel c client timeout now)
  | .begin token _ => s.modify now token id
  | .activate token client => s.modify now token (SessionEntry.activate c client)
  | .removeOwned token => s.removeOwned token c
  | .lookup token => s.modify now token id
  | .refuse _ => s
  | .check => s

/-! ## The system -/

/-- A connection, the table it shares with others, and the server. -/
structure Attribution where
  conn : Connection := { shared := ⟨fun _ => none, [], []⟩ }
  /-- The sessions that the server has issued, by their authentication tokens. -/
  sessions : NodeId → Option UpstreamSession := fun _ => none
  /-- The number of requests that the server is through with. -/
  processed : ℕ := 0
  /-- What the server made of the requests, by number, with the session as it found it. -/
  verdicts : ℕ → Option (Verdict × Option UpstreamSession) := fun _ => none
  /-- The identities that activations asked for, by request. -/
  asked : ℕ → Option UserIdentity := fun _ => none
  /-- The last request whose outcome the connection stored, by session. -/
  stored : NodeId → Option ℕ := fun _ => none

namespace Attribution

/-- What can happen. -/
inductive Op
  /-- The connection makes a step of its own. -/
  | connection (op : Connection.Op)
  /-- Another connection of the target uses the table, and what else they share. -/
  | elsewhere (c now : ℕ) (channel : Channel) (act : Sessions.Section) (names : NameCache)
      (ignored : IgnoredWrites)
  /-- The server gets to the next request of the connection. -/
  | serve (verdict : Verdict)
  /-- The server creates a session for another connection. -/
  | createdElsewhere (token : NodeId) (sessionId : String)
  /-- The server accepts an activation over another connection. -/
  | activatedElsewhere (token : NodeId) (user : UserIdentity)
  /-- A session ends in another way. -/
  | ended (token : NodeId)

/-! ## One step -/

/-- The server answers what it has decided. Other connections have steps of their own. -/
def admits (s : Attribution) : Connection.Op → Bool
  | .elsewhere _ => false
  | .answer id (.response response) _ _ _ _ =>
    match s.conn.awaiting.find? fun p => p.1.id = id, s.verdicts id with
    | some (task, _), some (verdict, _) => verdict.answers task.request response
    | _, _ => false
  | _ => true

/-- The identities that activations asked for behind a step of the connection. -/
def asks (s : Attribution) : Connection.Op → ℕ → Option UserIdentity
  | .poll _ checks =>
    match s.conn.fresh with
    | task :: _ => Function.update s.asked task.id checks.toOption
    | [] => s.asked
  | _ => s.asked

/-- The requests whose outcomes were stored last behind a step of the connection. -/
def stores (s : Attribution) : Connection.Op → NodeId → Option ℕ
  | .answer id (.response response) _ checks _ _ =>
    match s.conn.awaiting.find? fun p => p.1.id = id with
    | some (task, awaiting) =>
      let token := task.request.requestHeader.authenticationToken
      match awaiting, response, checks with
      | .createSession .., .createSession _ _ newToken _, .ok () =>
        Function.update s.stored newToken (some id)
      | .activateSession _, .activateSession header, _ =>
        if header.serviceResult.isGood ∧ (s.conn.shared.sessions token).isSome then
          Function.update s.stored token (some id)
        else s.stored
      | _, _, _ => s.stored
    | none => s.stored
  | _ => s.stored

/-- Another connection only stores clients of sessions that the server has issued. -/
def knows (s : Attribution) : Sessions.Section → Bool
  | .insert token client _ => ((s.sessions token).map (·.sessionId)).isSome ∧
      client.sessionId = (s.sessions token).map (·.sessionId)
  | .activate token client => ((s.sessions token).map (·.sessionId)).isSome ∧
      client.sessionId = (s.sessions token).map (·.sessionId)
  | _ => true

/-- One step. -/
def step (x : Texts) (ctx : Ctx) (s : Attribution) : Op → Option Attribution
  | .connection op =>
    if s.admits op then
      (s.conn.step x ctx op).map fun conn =>
        { s with conn := conn, asked := s.asks op, stored := s.stores op }
    else none
  | .elsewhere c now channel act names ignored =>
    if c ≠ ctx.connectionId ∧ s.knows act then
      some { s with
        conn := { s.conn with
          shared := ⟨act.applied channel c now s.conn.shared.sessions, names, ignored⟩ } }
    else none
  | .serve verdict =>
    match (requests s.conn.sent)[s.processed]? with
    | some (message, id) =>
      (served s.asked s.sessions message id verdict).map fun sessions =>
        { s with
          sessions := sessions
          processed := s.processed + 1
          verdicts := Function.update s.verdicts id
            (some (verdict, s.sessions message.requestHeader.authenticationToken)) }
    | none => none
  | .createdElsewhere token sessionId =>
    if (s.sessions token).isNone then
      some { s with
        sessions := Function.update s.sessions token
          (some { sessionId := sessionId, here := false }) }
    else none
  | .activatedElsewhere token user =>
    ((s.sessions token).filter (·.alive)).map fun u =>
      { s with
        sessions := Function.update s.sessions token
          (some { u with user := some user, here := false }) }
  | .ended token =>
    (s.sessions token).map fun u =>
      { s with sessions := Function.update s.sessions token (some { u with alive := false }) }

/-! ## What is promised, and when -/

/-- Every change that the server got to is recorded for the user and the session as the server had
them then. -/
def Attributed (s : Attribution) : Prop :=
  ∀ id verdict found, s.verdicts id = some (verdict, found) →
    (∀ r ∈ s.conn.recorded, r.1 = id → ∃ client, r.2.client = some client ∧ client.IsOf found) ∧
      ∀ r ∈ s.conn.summarised, r.1 = id → r.2.IsOf found

/-- The requests that the server may still get to. -/
def ahead (s : Attribution) : List (RequestMessage × ℕ) :=
  (if s.conn.upstreamOpen then s.conn.committing.map (fun p => p.1.tag) else []) ++
    (requests s.conn.sent).drop s.processed

/-- The task of a change of the session has started, and the server may still get to it. -/
def UnderWay (s : Attribution) (token : NodeId) : Prop :=
  ∃ p ∈ s.ahead, isAudited p.1 ∧ p.1.requestHeader.authenticationToken = token

/-- What the connection stored last about the session is of the last request that created or
activated it, and if another connection activated it since then, the table says so. -/
def UpToDate (ctx : Ctx) (s : Attribution) (token : NodeId) : Prop :=
  ∀ u, s.sessions token = some u → s.stored token = u.latest ∧
    (s.conn.shared.sessions.ownedBy token ctx.connectionId → u.here)

/-- The session is one of the connection, for the table and for the server, and the table is up
to date. -/
def Lives (ctx : Ctx) (s : Attribution) (token : NodeId) : Prop :=
  s.conn.upstreamOpen ∧ s.conn.shared.sessions.ownedBy token ctx.connectionId ∧
    ∃ u, s.sessions token = some u ∧ u.here ∧ u.alive ∧ s.stored token = u.latest

/-- The sessions that the table loses to a locked section of another connection. -/
def lostTo (s : Attribution) (now : ℕ) : Sessions.Section → NodeId → Prop
  | .insert newToken _ _, token =>
    token = newToken ∨ s.conn.shared.sessions.Forgotten now token
  | .activate token' _, token => token = token'
  | _, _ => False

/-- The sessions that the table loses to an answer. -/
def lostBy (s : Attribution) : Connection.Op → NodeId → Prop
  | .answer id answer _ checks _ instant, token => ∃ p ∈ s.conn.awaiting, p.1.id = id ∧
    match p.2 with
    | .closeSession => token = p.1.request.requestHeader.authenticationToken
    | .createSession .. => checks = .ok () ∧ s.conn.shared.sessions.Forgotten instant token ∧
        ∃ header sessionId newToken timeout, token ≠ newToken ∧
          answer = .response (.createSession header sessionId newToken timeout)
    | _ => False
  | _, _ => False

/-- The steps in which the table keeps up with the server: the task of a change starts only when
what the server has accepted about the session is in the table; no session is created or activated
while a change of it is under way; and the table only loses sessions that have ended or changed
hands: a CloseSession is answered when the server has closed the session, and sessions that were
not used for long have timed out. -/
def Safe (ctx : Ctx) (s : Attribution) : Op → Prop
  | .connection (.poll _ _) => s.conn.upstreamOpen → ∀ task ∈ s.conn.fresh.head?,
      isAudited task.request → s.UpToDate ctx task.request.requestHeader.authenticationToken
  | .connection op => ∀ token, s.lostBy op token → ¬ s.Lives ctx token
  | .elsewhere _ now _ act _ _ => ∀ token, s.lostTo now act token → ¬ s.Lives ctx token
  | .serve (.created token _) => ¬ s.UnderWay token
  | .serve .accepted => ∀ p, (requests s.conn.sent)[s.processed]? = some p →
      (∃ header, p.1 = .activateSession header) →
        ¬ s.UnderWay p.1.requestHeader.authenticationToken
  | .activatedElsewhere token _ => ∀ u, s.sessions token = some u → u.here →
      ¬ s.UnderWay token
  | _ => True

/-! ## The invariant -/

variable {x : Texts} {ctx : Ctx} {s t : Attribution}

/-- The table is right about a session of the server. -/
structure Agrees (ctx : Ctx) (sessions : SessionRegistry) (token : NodeId)
    (u : UpstreamSession) : Prop where
  user : ∀ client, sessions.holder token = some (client, ctx.connectionId) → u.here →
    client.user = u.user
  owned : u.here → u.alive → sessions.ownedBy token ctx.connectionId

/-- Who has a session does not change with other sessions. -/
theorem Agrees.congr {sessions sessions' : SessionRegistry} {token : NodeId} {u : UpstreamSession}
    (h : Agrees ctx sessions token u) (hholder : sessions'.holder token = sessions.holder token) :
    Agrees ctx sessions' token u := by
  refine ⟨?_, fun hhere halive => ?_⟩
  · rw [hholder]
    exact h.user
  · have howned := h.owned hhere halive
    rw [SessionRegistry.ownedBy_iff_holder] at howned ⊢
    rwa [hholder]

/-- The connection holds a session with the user that the server knows. -/
theorem agrees_of_holder {sessions : SessionRegistry} {token : NodeId} {u : UpstreamSession}
    {client : ClientContext} (hself : sessions.holder token = some (client, ctx.connectionId))
    (huser : u.here → client.user = u.user) : Agrees ctx sessions token u := by
  refine ⟨fun client' hheld hhere => ?_, fun _ _ => ?_⟩
  · rw [hself] at hheld
    obtain ⟨rfl, -⟩ := Prod.mk.inj (Option.some.inj hheld)
    exact huser hhere
  · exact SessionRegistry.ownedBy_iff_holder.2 ⟨client, hself⟩

/-- What is known of the table and the server in every run of safe steps. -/
structure Inv (ctx : Ctx) (s : Attribution) : Prop where
  tracked : s.conn.Tracked
  credited : s.conn.Credited
  distinct : s.conn.Distinct
  /-- Only what the server is through with has a verdict. -/
  decided : ∀ id, (s.verdicts id).isSome → ∃ i < s.processed, ∃ p,
    (requests s.conn.sent)[i]? = some p ∧ p.2 = id
  latest : ∀ token u id, s.sessions token = some u → u.latest = some id →
    (s.verdicts id).isSome
  stored : ∀ token id, s.stored token = some id → (s.verdicts id).isSome
  /-- The table has clients of sessions that the server has issued. -/
  known : ∀ token client c, s.conn.shared.sessions.holder token = some (client, c) →
    ∃ u, s.sessions token = some u ∧ client.sessionId = some u.sessionId
  asking : ∀ p ∈ s.conn.awaiting, ∀ client, p.2 = .activateSession client →
    client.user = s.asked p.1.id ∧ ∃ u,
      s.sessions p.1.request.requestHeader.authenticationToken = some u ∧
        client.sessionId = some u.sessionId
  created : ∀ id token sessionId found, s.verdicts id = some (.created token sessionId, found) →
    ∃ u, s.sessions token = some u ∧ u.sessionId = sessionId ∧
      (u.latest = some id → u.here → u.user = none)
  accepted : ∀ id found, s.verdicts id = some (.accepted, found) →
    ∀ header, (RequestMessage.activateSession header, id) ∈ requests s.conn.sent →
      ∀ u, s.sessions header.authenticationToken = some u → u.latest = some id → u.here →
        u.user = s.asked id
  agrees : s.conn.upstreamOpen → ∀ token u, s.sessions token = some u →
    s.stored token = u.latest → Agrees ctx s.conn.shared.sessions token u
  /-- What the server may still get to is for the client that it would find now. -/
  coming : ∀ p ∈ s.ahead, isAudited p.1 → ∀ st ∈ s.conn.started, st.task.id = p.2 →
    st.client.IsOf (s.sessions p.1.requestHeader.authenticationToken)
  found : ∀ id verdict found, s.verdicts id = some (verdict, found) → ∀ st ∈ s.conn.started,
    st.task.id = id → isAudited st.task.request → st.client.IsOf found

/-- Records are for the clients of their requests. -/
theorem attributed_of_inv (h : Inv ctx s) : s.Attributed := by
  intro id verdict found hverdict
  refine ⟨fun r hr hid => ?_, fun r hr hid => ?_⟩
  · obtain ⟨st, hst, haudited, hid', hclient⟩ := h.credited.recorded r hr
    exact ⟨st.client, hclient, h.found id verdict found hverdict st hst (hid'.symm.trans hid)
      haudited⟩
  · obtain ⟨st, hst, haudited, rfl⟩ := h.credited.summarised r hr
    exact h.found id verdict found hverdict st hst hid haudited

/-- The invariant holds at the start. -/
theorem inv_start (ctx : Ctx) : Inv ctx {} where
  tracked := Connection.tracked_start _
  credited := Connection.credited_start _
  distinct := List.nodup_nil
  decided := fun _ hid => nomatch hid
  latest := fun _ _ _ hu => nomatch hu
  stored := fun _ _ hid => nomatch hid
  known := fun _ _ _ hheld => nomatch hheld
  asking := fun _ hp => nomatch hp
  created := fun _ _ _ _ hv => nomatch hv
  accepted := fun _ _ hv => nomatch hv
  agrees := fun _ _ _ hu => nomatch hu
  coming := fun _ hp => nomatch hp
  found := fun _ _ _ hv => nomatch hv

/-! ## Requests and tasks -/

/-- What the server may still get to is the request of a task that has started. -/
theorem Inv.started_of_ahead (h : Inv ctx s) {p : RequestMessage × ℕ} (hp : p ∈ s.ahead) :
    ∃ st ∈ s.conn.started, st.task.id = p.2 ∧ st.task.request = p.1 := by
  rcases List.mem_append.1 hp with hp | hp
  · split_ifs at hp
    · obtain ⟨q, hq, rfl⟩ := List.mem_map.1 hp
      have htask := h.tracked.waiting_started q.1
        (List.mem_append_left _ (List.mem_map_of_mem hq))
      obtain ⟨st, hst, heq⟩ := List.mem_map.1 htask
      exact ⟨st, hst, by rw [heq]; rfl, by rw [heq]; rfl⟩
    · cases hp
  · have hmem := Connection.mem_requests.1 (List.mem_of_mem_drop hp)
    obtain ⟨task, htask, hfor⟩ := h.tracked.sent_started _ hmem
    obtain ⟨st, hst, heq⟩ := List.mem_map.1 htask
    exact ⟨st, hst, by rw [heq]; exact hfor.1.symm, by rw [heq]; exact hfor.2.symm⟩

/-- Only the request of a task that has started has a verdict. -/
theorem Inv.started_of_decided (h : Inv ctx s) {id : ℕ} (hid : (s.verdicts id).isSome) :
    ∃ st ∈ s.conn.started, st.task.id = id := by
  obtain ⟨i, -, ⟨message, id'⟩, hi, rfl⟩ := h.decided id hid
  have hmem := Connection.mem_requests.1 (List.mem_of_getElem? hi)
  obtain ⟨task, htask, hfor⟩ := h.tracked.sent_started _ hmem
  obtain ⟨st, hst, heq⟩ := List.mem_map.1 htask
  exact ⟨st, hst, by rw [heq]; exact hfor.1.symm⟩

/-- Requests with the same number are the same. -/
theorem eq_of_mem_requests {conn : Connection} (h : conn.Distinct) {p q : RequestMessage × ℕ}
    (hp : p ∈ requests conn.sent) (hq : q ∈ requests conn.sent) (heq : p.2 = q.2) : p = q :=
  List.inj_on_of_nodup_map h hp hq heq

/-- A request with a verdict was handed over before. -/
theorem Inv.mem_of_decided (h : Inv ctx s) {conn : Connection}
    (hsent : requests s.conn.sent <+: requests conn.sent) (hdistinct : conn.Distinct)
    {p : RequestMessage × ℕ} (hp : p ∈ requests conn.sent) (hid : (s.verdicts p.2).isSome) :
    p ∈ requests s.conn.sent := by
  obtain ⟨i, -, q, hi, hq⟩ := h.decided p.2 hid
  have hmem := List.mem_of_getElem? hi
  rw [eq_of_mem_requests hdistinct hp (hsent.subset hmem) hq.symm]
  exact hmem

/-! ## The connection moves -/

/-- A step of the connection in which no task starts. -/
theorem Inv.move (h : Inv ctx s) {conn : Connection} {stored : NodeId → Option ℕ}
    (htracked : conn.Tracked) (hcredited : conn.Credited) (hdistinct : conn.Distinct)
    (hstarted : conn.started = s.conn.started)
    (hsent : requests s.conn.sent <+: requests conn.sent)
    (hstored : ∀ token id, stored token = some id → (s.verdicts id).isSome)
    (hknown : ∀ token client c, conn.shared.sessions.holder token = some (client, c) →
      ∃ u, s.sessions token = some u ∧ client.sessionId = some u.sessionId)
    (hasking : ∀ p ∈ conn.awaiting, ∀ client, p.2 = .activateSession client →
      client.user = s.asked p.1.id ∧ ∃ u,
        s.sessions p.1.request.requestHeader.authenticationToken = some u ∧
          client.sessionId = some u.sessionId)
    (hagrees : conn.upstreamOpen → ∀ token u, s.sessions token = some u →
      stored token = u.latest → Agrees ctx conn.shared.sessions token u)
    (hcoming : ∀ p ∈ ({ s with conn := conn } : Attribution).ahead, isAudited p.1 →
      ∀ st ∈ s.conn.started, st.task.id = p.2 →
        st.client.IsOf (s.sessions p.1.requestHeader.authenticationToken)) :
    Inv ctx { s with conn := conn, stored := stored } where
  tracked := htracked
  credited := hcredited
  distinct := hdistinct
  decided := fun id hid => by
    obtain ⟨i, hi, p, hp, hpid⟩ := h.decided id hid
    refine ⟨i, hi, p, ?_, hpid⟩
    obtain ⟨l, hl⟩ := hsent
    rw [← hl, List.getElem?_append_left (List.getElem?_eq_some_iff.1 hp).1]
    exact hp
  latest := h.latest
  stored := hstored
  known := hknown
  asking := hasking
  created := h.created
  accepted := fun id found hv header hmem => by
    refine h.accepted id found hv header (h.mem_of_decided hsent hdistinct hmem ?_)
    rw [hv]
    rfl
  agrees := hagrees
  coming := fun p hp haudited st hst => by
    rw [hstarted] at hst
    exact hcoming p hp haudited st hst
  found := fun id verdict found hv st hst => by
    rw [hstarted] at hst
    exact h.found id verdict found hv st hst

/-- Tasks leave, and the table may change. -/
theorem Inv.leave (h : Inv ctx s) {conn : Connection} {stored : NodeId → Option ℕ}
    (htracked : conn.Tracked) (hcredited : conn.Credited) (hleaves : s.conn.Leaves conn)
    (hstored : ∀ token id, stored token = some id → (s.verdicts id).isSome)
    (hknown : ∀ token client c, conn.shared.sessions.holder token = some (client, c) →
      ∃ u, s.sessions token = some u ∧ client.sessionId = some u.sessionId)
    (hagrees : s.conn.upstreamOpen → ∀ token u, s.sessions token = some u →
      stored token = u.latest → Agrees ctx conn.shared.sessions token u) :
    Inv ctx { s with conn := conn, stored := stored } := by
  refine h.move htracked hcredited ?_ hleaves.started ?_ hstored hknown
    (fun p hp => h.asking p (hleaves.awaiting hp))
    (fun hopen => hagrees (hleaves.upstreamOpen hopen))
    fun p hp => h.coming p ?_
  · rw [Connection.Distinct, hleaves.sent]
    exact h.distinct
  · rw [hleaves.sent]
  · refine List.mem_append.2 ((List.mem_append.1 hp).imp (fun hp => ?_) fun hp => ?_)
    · dsimp only at hp
      split_ifs at hp with hopen
      · rw [if_pos (hleaves.upstreamOpen hopen)]
        exact List.map_subset _ hleaves.committing hp
      · cases hp
    · rwa [hleaves.sent] at hp

/-- Tasks leave, and the table stays as it is. -/
theorem Inv.leave_same (h : Inv ctx s) {conn : Connection} (htracked : conn.Tracked)
    (hcredited : conn.Credited) (hleaves : s.conn.Leaves conn)
    (hholder : conn.shared.sessions.holder = s.conn.shared.sessions.holder) :
    Inv ctx { s with conn := conn } := by
  refine h.leave htracked hcredited hleaves h.stored ?_ fun hopen token u hu heq => ?_
  · rw [hholder]
    exact h.known
  · exact (h.agrees hopen token u hu heq).congr (by rw [hholder])

/-- The next task starts. -/
theorem Inv.begin (h : Inv ctx s) {task : Task} {fresh : List Task}
    (hfresh : s.conn.fresh = task :: fresh) (st : Started) (hst : st.task = task)
    (user : Option UserIdentity) :
    Inv ctx { s with
      conn := { s.conn with fresh := fresh, started := s.conn.started ++ [st] }
      asked := Function.update s.asked task.id user } := by
  have hnew := h.tracked.new_of_fresh hfresh
  -- what has started before has another number
  have hold : ∀ {id : ℕ}, (∃ st' ∈ s.conn.started, st'.task.id = id) → id ≠ task.id := by
    rintro id ⟨st', hst', rfl⟩
    exact hnew st' hst'
  have hstarted : ∀ {id : ℕ}, (∃ st' ∈ s.conn.started, st'.task.id = id) →
      ∀ st' ∈ s.conn.started ++ [st], st'.task.id = id → st' ∈ s.conn.started := by
    intro id hid st' hst' heq
    rcases List.mem_append.1 hst' with hst' | hst'
    · exact hst'
    · obtain rfl := List.mem_singleton.1 hst'
      rw [hst] at heq
      exact absurd heq.symm (hold hid)
  have hasked : ∀ {id : ℕ}, (∃ st' ∈ s.conn.started, st'.task.id = id) →
      Function.update s.asked task.id user id = s.asked id :=
    fun hid => Function.update_of_ne (hold hid) _ _
  refine ⟨(h.tracked.begin hfresh st hst).1, h.credited.begin fresh st, h.distinct, h.decided,
    h.latest, h.stored, h.known, fun p hp client hclient => ?_, h.created,
    fun id found hv header hmem u hu => ?_, h.agrees, fun p hp haudited st' hst' hid => ?_,
    fun id verdict found hv st' hst' hid => ?_⟩
  · have htask := h.tracked.waiting_started p.1
      (List.mem_append_right _ (List.mem_map_of_mem hp))
    obtain ⟨st', hst', heq⟩ := List.mem_map.1 htask
    dsimp only
    rw [hasked ⟨st', hst', by rw [heq]⟩]
    exact h.asking p hp client hclient
  · dsimp only
    rw [hasked (h.started_of_decided (by rw [hv]; rfl))]
    exact h.accepted id found hv header hmem u hu
  · obtain ⟨st₀, hst₀, hid₀, -⟩ := h.started_of_ahead hp
    exact h.coming p hp haudited st' (hstarted ⟨st₀, hst₀, hid₀⟩ st' hst' hid) hid
  · have hdecided := h.started_of_decided (by rw [hv]; rfl)
    exact h.found id verdict found hv st' (hstarted hdecided st' hst' hid) hid

/-- A task that has started goes on. -/
theorem Inv.run (h : Inv ctx s) {conn : Connection} {st : Started}
    {asks : ClientContext → Prop} (hst : st ∈ s.conn.started)
    (hcase : s.conn.TaskCase st.task st.client asks conn) (htracked : conn.Tracked)
    (hdistinct : conn.Distinct)
    (hasks : ∀ client, asks client → client.user = s.asked st.task.id ∧ ∃ u,
      s.sessions st.task.request.requestHeader.authenticationToken = some u ∧
        client.sessionId = some u.sessionId)
    (hclient : s.conn.upstreamOpen → isAudited st.task.request →
      st.client.IsOf (s.sessions st.task.request.requestHeader.authenticationToken)) :
    Inv ctx { s with conn := conn } := by
  have hcoming : ∀ p ∈ ({ s with conn := conn } : Attribution).ahead,
      p ∈ s.ahead ∨ s.conn.upstreamOpen ∧ p = st.task.tag := by
    intro p hp
    rcases List.mem_append.1 hp with hp | hp
    · dsimp only at hp
      split_ifs at hp with hopen
      · have hopen := hcase.upstreamOpen hopen
        obtain ⟨q, hq, rfl⟩ := List.mem_map.1 hp
        rcases hcase.committing q hq with hq | ⟨htask, -⟩
        · refine .inl (List.mem_append_left _ ?_)
          rw [if_pos hopen]
          exact List.mem_map_of_mem hq
        · exact .inr ⟨hopen, by rw [htask]⟩
      · cases hp
    · rcases hcase.sent with hsent | ⟨hopen, hsent⟩
      · rw [hsent] at hp
        exact .inl (List.mem_append_right _ hp)
      · rw [hsent, List.drop_append] at hp
        rcases List.mem_append.1 hp with hp | hp
        · exact .inl (List.mem_append_right _ hp)
        · exact .inr ⟨hopen, List.mem_singleton.1 (List.mem_of_mem_drop hp)⟩
  refine h.move htracked (h.credited.run hst hcase) hdistinct hcase.started ?_ h.stored
    (fun token client c hheld => h.known token client c (hcase.holders _ _ hheld))
    (fun p hp client heq => ?_) (fun hopen token u hu heq => ?_)
    fun p hp haudited st' hst' hid => ?_
  · rcases hcase.sent with hsent | ⟨-, hsent⟩
    · rw [hsent]
    · rw [hsent]
      exact List.prefix_append ..
  · rcases hcase.awaiting p hp with hp | ⟨htask, hsuits⟩
    · exact h.asking p hp client heq
    · rw [heq] at hsuits
      rw [htask]
      exact hasks client hsuits.2
  · have hopen := hcase.upstreamOpen hopen
    exact (h.agrees hopen token u hu heq).congr (by rw [hcase.kept hopen])
  · rcases hcoming p hp with hp | ⟨hopen, rfl⟩
    · exact h.coming p hp haudited st' hst' hid
    · obtain rfl := h.tracked.started_eq hst' hst hid
      exact hclient hopen haudited

/-- The client that a lookup finds in a table that is up to date. -/
theorem Inv.isOf_attributed (h : Inv ctx s) (hopen : s.conn.upstreamOpen)
    (request : RequestMessage)
    (hup : s.UpToDate ctx request.requestHeader.authenticationToken) :
    (attributed ctx s.conn.shared.sessions request).IsOf
      (s.sessions request.requestHeader.authenticationToken) := by
  unfold attributed
  cases hclient : s.conn.shared.sessions.clientOf request.requestHeader.authenticationToken
      ctx.connectionId with
  | none =>
    have hnot := SessionRegistry.clientOf_eq_none_iff.1 hclient
    cases hu : s.sessions request.requestHeader.authenticationToken with
    | none => exact ⟨rfl, rfl⟩
    | some u =>
      refine .inr ⟨fun hlive => hnot ?_, rfl, rfl⟩
      exact (h.agrees hopen _ u hu (hup u hu).1).owned hlive.1 hlive.2
  | some client =>
    have hheld := SessionRegistry.clientOf_eq_some_iff.1 hclient
    obtain ⟨u, hu, hsession⟩ := h.known _ _ _ hheld
    have hhere := (hup u hu).2 (SessionRegistry.ownedBy_iff_holder.2 ⟨client, hheld⟩)
    rw [hu]
    exact .inl ⟨hhere, (h.agrees hopen _ u hu (hup u hu).1).user client hheld hhere, hsession⟩

/-- The request that a verdict is about. -/
theorem Inv.request_of_decided (h : Inv ctx s) {st : Started} (hst : st ∈ s.conn.started)
    (hid : (s.verdicts st.task.id).isSome) :
    (st.task.request, st.task.id) ∈ requests s.conn.sent := by
  obtain ⟨i, -, ⟨message, id⟩, hi, heq⟩ := h.decided _ hid
  have hmem := List.mem_of_getElem? hi
  obtain ⟨task, htask, hfor⟩ := h.tracked.sent_started _ (Connection.mem_requests.1 hmem)
  obtain ⟨st', hst', rfl⟩ := List.mem_map.1 htask
  obtain rfl := h.tracked.started_eq hst' hst (hfor.1.symm.trans heq)
  rw [← hfor.2]
  exact heq ▸ hmem

/-- Who asked for what changes with polls only. -/
theorem asks_eq (s : Attribution) {op : Connection.Op}
    (hop : ∀ settings checks, op ≠ .poll settings checks) : s.asks op = s.asked := by
  cases op with
  | poll settings checks => exact absurd rfl (hop settings checks)
  | _ => rfl

/-- Who is stored changes with answers only. -/
theorem stores_eq (s : Attribution) {op : Connection.Op}
    (hop : ∀ id answer read checks now instant, op ≠ .answer id answer read checks now instant) :
    s.stores op = s.stored := by
  cases op with
  | answer id answer read checks now instant =>
    exact absurd rfl (hop id answer read checks now instant)
  | _ => rfl

/-- The table may hold what the server has decided. -/
theorem Inv.stored_update (h : Inv ctx s) {id id' : ℕ} {token t : NodeId}
    (hverdict : (s.verdicts id).isSome)
    (hstored : Function.update s.stored token (some id) t = some id') :
    (s.verdicts id').isSome := by
  by_cases ht : t = token
  · rw [ht, Function.update_self] at hstored
    rwa [← Option.some.inj hstored]
  · rw [Function.update_of_ne ht] at hstored
    exact h.stored t id' hstored

/-- A session is created, and the server has decided so. -/
theorem Inv.insert (h : Inv ctx s) {conn : Connection} (htracked : conn.Tracked)
    (hcredited : conn.Credited) (hleaves : s.conn.Leaves conn) {id instant timeout : ℕ}
    {token : NodeId} {sessionId : String} {found : Option UpstreamSession}
    {client : ClientContext} (hverdict : s.verdicts id = some (.created token sessionId, found))
    (hclient : client.user = none ∧ client.sessionId = some sessionId)
    (hsessions : conn.shared.sessions = s.conn.shared.sessions.insert instant token
      (SessionEntry.create ctx.channel ctx.connectionId client timeout instant))
    (hlost : ∀ t, t ≠ token → s.conn.shared.sessions.Forgotten instant t → ¬ s.Lives ctx t) :
    Inv ctx { s with conn := conn, stored := Function.update s.stored token (some id) } := by
  obtain ⟨u, hu, hsession, huser⟩ := h.created id token sessionId found hverdict
  have hself : conn.shared.sessions.holder token = some (client, ctx.connectionId) := by
    rw [hsessions, SessionRegistry.holder_insert_self]
    rfl
  refine h.leave htracked hcredited hleaves
    (fun t id' => h.stored_update (by rw [hverdict]; rfl)) (fun t client' c hheld => ?_)
    fun hopen t u' hu' heq => ?_
  · by_cases ht : t = token
    · rw [ht, hself] at hheld
      obtain ⟨rfl, -⟩ := Prod.mk.inj (Option.some.inj hheld)
      rw [ht]
      exact ⟨u, hu, by rw [hclient.2, hsession]⟩
    · rw [hsessions] at hheld
      rcases SessionRegistry.holder_insert_of_ne s.conn.shared.sessions instant
        (SessionEntry.create ctx.channel ctx.connectionId client timeout instant) ht with
        hsame | ⟨hnone, -⟩
      · rw [hsame] at hheld
        exact h.known t client' c hheld
      · rw [hnone] at hheld
        cases hheld
  · by_cases ht : t = token
    · rw [ht] at hu' heq ⊢
      rw [Function.update_self] at heq
      obtain rfl := Option.some.inj (hu.symm.trans hu')
      exact agrees_of_holder hself fun hhere => by rw [hclient.1, huser heq.symm hhere]
    · rw [Function.update_of_ne ht] at heq
      have hagrees := h.agrees hopen t u' hu' heq
      rcases SessionRegistry.holder_insert_of_ne s.conn.shared.sessions instant
        (SessionEntry.create ctx.channel ctx.connectionId client timeout instant) ht with
        hsame | ⟨hnone, hforgotten⟩
      · exact hagrees.congr (by rw [hsessions, hsame])
      · rw [← hsessions] at hnone
        refine ⟨fun client' hheld => ?_, fun hhere halive => ?_⟩
        · rw [hnone] at hheld
          cases hheld
        · exact absurd ⟨hopen, hagrees.owned hhere halive, u', hu', hhere, halive, heq⟩
            (hlost t ht hforgotten)

/-- A session is activated, and the server has decided so. -/
theorem Inv.activate (h : Inv ctx s) {conn : Connection} (htracked : conn.Tracked)
    (hcredited : conn.Credited) (hleaves : s.conn.Leaves conn) {id instant : ℕ}
    {token : NodeId} {found : Option UpstreamSession} {client : ClientContext}
    (hverdict : s.verdicts id = some (.accepted, found))
    (huser : ∀ u, s.sessions token = some u → u.latest = some id → u.here →
      client.user = u.user)
    (hclient : ∃ u, s.sessions token = some u ∧ client.sessionId = some u.sessionId)
    (hsessions : conn.shared.sessions = s.conn.shared.sessions.modify instant token
      (SessionEntry.activate ctx.connectionId client)) :
    Inv ctx { s with
      conn := conn
      stored := if (s.conn.shared.sessions token).isSome then
        Function.update s.stored token (some id) else s.stored } := by
  have hholder : ∀ t, conn.shared.sessions.holder t = if t = token then
      (s.conn.shared.sessions.holder token).map fun _ => (client, ctx.connectionId)
      else s.conn.shared.sessions.holder t := by
    intro t
    rw [hsessions, SessionRegistry.holder_activate]
  have hother : ∀ t, t ≠ token → conn.shared.sessions.holder t =
      s.conn.shared.sessions.holder t := by
    intro t ht
    rw [hholder, if_neg ht]
  have hknown : ∀ t client' c, conn.shared.sessions.holder t = some (client', c) →
      ∃ u, s.sessions t = some u ∧ client'.sessionId = some u.sessionId := by
    intro t client' c hheld
    by_cases ht : t = token
    · rw [hholder, if_pos ht] at hheld
      obtain ⟨-, -, heq⟩ := Option.map_eq_some_iff.1 hheld
      obtain ⟨rfl, -⟩ := Prod.mk.inj heq
      rw [ht]
      exact hclient
    · rw [hother t ht] at hheld
      exact h.known t client' c hheld
  by_cases hentry : (s.conn.shared.sessions token).isSome
  · rw [if_pos hentry]
    have hself : conn.shared.sessions.holder token = some (client, ctx.connectionId) := by
      obtain ⟨e, he⟩ := Option.isSome_iff_exists.1 hentry
      rw [hholder, if_pos rfl, SessionRegistry.holder, he]
      rfl
    refine h.leave htracked hcredited hleaves
      (fun t id' => h.stored_update (by rw [hverdict]; rfl)) hknown fun hopen t u hu heq => ?_
    by_cases ht : t = token
    · rw [ht] at hu heq ⊢
      rw [Function.update_self] at heq
      exact agrees_of_holder hself fun hhere => huser u hu heq.symm hhere
    · rw [Function.update_of_ne ht] at heq
      exact (h.agrees hopen t u hu heq).congr (hother t ht)
  · -- there is nothing to store it in
    rw [if_neg hentry]
    refine h.leave htracked hcredited hleaves h.stored hknown fun hopen t u hu heq => ?_
    refine (h.agrees hopen t u hu heq).congr ?_
    by_cases ht : t = token
    · rw [ht, hholder, if_pos rfl, SessionRegistry.holder, Option.not_isSome_iff_eq_none.1 hentry]
      rfl
    · exact hother t ht

/-- A session is closed, unless it is still one of the connection. -/
theorem Inv.close (h : Inv ctx s) {conn : Connection} (htracked : conn.Tracked)
    (hcredited : conn.Credited) (hleaves : s.conn.Leaves conn) {token : NodeId}
    (hsessions : conn.shared.sessions =
      s.conn.shared.sessions.removeOwned token ctx.connectionId)
    (hlost : ¬ s.Lives ctx token) : Inv ctx { s with conn := conn } := by
  have hholder : ∀ t, conn.shared.sessions.holder t =
      if t = token ∧ s.conn.shared.sessions.ownedBy token ctx.connectionId then none
      else s.conn.shared.sessions.holder t := by
    intro t
    rw [hsessions, SessionRegistry.holder_removeOwned]
  refine h.leave htracked hcredited hleaves h.stored (fun t client c hheld => ?_)
    fun hopen t u hu heq => ?_
  · rw [hholder] at hheld
    split_ifs at hheld
    exact h.known t client c hheld
  · have hagrees := h.agrees hopen t u hu heq
    by_cases ht : t = token ∧ s.conn.shared.sessions.ownedBy token ctx.connectionId
    · refine ⟨fun client hheld => ?_, fun hhere halive => ?_⟩
      · rw [hholder, if_pos ht] at hheld
        cases hheld
      · rw [ht.1] at hu heq
        exact absurd ⟨hopen, ht.2, u, hu, hhere, halive, heq⟩ hlost
    · exact hagrees.congr (by rw [hholder, if_neg ht])

/-- A task goes on with its answer. -/
theorem inv_answer (h : Inv ctx s) {id instant : ℕ} {answer : Answer}
    {read : Option (List DataValue)} {checks : Except StatusCode Unit} {now : DateTime}
    {task : Task} {awaiting : Awaiting} {u conn : Connection}
    (hadmits : s.admits (.answer id answer read checks now instant))
    (hlost : ∀ token, s.lostBy (.answer id answer read checks now instant) token →
      ¬ s.Lives ctx token)
    (hfind : s.conn.awaiting.find? (fun p => p.1.id = id) = some (task, awaiting))
    (hu : u = { s.conn with awaiting := s.conn.awaiting.eraseP fun p => p.1.id = id })
    (hleaves : u.Leaves conn) (htracked : conn.Tracked) (hcredited : conn.Credited)
    (hcase : Connection.CompleteCase ctx task answer checks instant u conn awaiting) :
    Inv ctx { s with
      conn := conn
      stored := s.stores (.answer id answer read checks now instant) } := by
  have hmem := List.mem_of_find?_eq_some hfind
  have hid : task.id = id := by simpa using List.find?_some hfind
  obtain ⟨st, hst, htask, hsuits⟩ := h.credited.waiting _ hmem
  dsimp only at htask hsuits
  have hleaves' : s.conn.Leaves conn := by
    rw [hu] at hleaves
    exact ⟨hleaves.started, hleaves.sent, hleaves.upstreamOpen, hleaves.committing,
      fun p hp => List.mem_of_mem_eraseP (hleaves.awaiting hp)⟩
  have hsessions' : u.shared.sessions = s.conn.shared.sessions := by rw [hu]
  cases hcase with
  | forwarded f hcredits =>
    have hstores : s.stores (.answer id answer read checks now instant) = s.stored := by
      cases answer with
      | response response => simp [stores, hfind]
      | error status maybeSent => rfl
    rw [hstores]
    refine h.leave_same htracked hcredited hleaves' ?_
    rw [(hcredits hsuits.2).sessions, hsessions']
  | created uri name header sessionId newToken timeout client hanswer hchecks hclient hsessions =>
    subst hanswer hchecks
    simp only [admits, hfind] at hadmits
    cases hverdict : s.verdicts id with
    | none => simp [hverdict] at hadmits
    | some v =>
      obtain ⟨verdict, found⟩ := v
      obtain ⟨header', uri', name', hrequest⟩ := hsuits
      rw [hverdict] at hadmits
      cases verdict with
      | created token sessionId' =>
        simp only [Verdict.answers, decide_eq_true_eq] at hadmits
        obtain ⟨rfl, rfl⟩ := hadmits
        have hstores : s.stores (.answer id
            (.response (.createSession header sessionId newToken timeout)) read (.ok ()) now
              instant) = Function.update s.stored newToken (some id) := by
          simp [stores, hfind]
        rw [hstores]
        rw [hsessions'] at hsessions
        refine h.insert htracked hcredited hleaves' hverdict hclient hsessions ?_
        intro t ht hforgotten
        exact hlost t ⟨_, hmem, hid, rfl, hforgotten, header, sessionId, newToken, timeout, ht, rfl⟩
      | lost => simp [Verdict.answers] at hadmits
      | accepted => simp [Verdict.answers, hrequest] at hadmits
      | refused => simp [Verdict.answers, hrequest] at hadmits
  | activated client header hanswer hgood hsessions =>
    subst hanswer
    simp only [admits, hfind] at hadmits
    cases hverdict : s.verdicts id with
    | none => simp [hverdict] at hadmits
    | some v =>
      obtain ⟨verdict, found⟩ := v
      obtain ⟨⟨header', hrequest⟩, -⟩ := hsuits
      rw [hverdict] at hadmits
      cases verdict with
      | accepted =>
        have hstores : s.stores (.answer id (.response (.activateSession header)) read checks now
            instant) = if (s.conn.shared.sessions
              task.request.requestHeader.authenticationToken).isSome then
                Function.update s.stored task.request.requestHeader.authenticationToken (some id)
              else s.stored := by
          simp [stores, hfind, hgood]
        rw [hstores]
        obtain ⟨huser, hclient⟩ := h.asking _ hmem client rfl
        rw [hsessions'] at hsessions
        refine h.activate htracked hcredited hleaves' hverdict (fun v hv hlatest hhere => ?_)
          hclient hsessions
        -- the server has the identity that this activation asked for
        have hsent := h.request_of_decided hst (by rw [htask, hid, hverdict]; rfl)
        rw [htask, hrequest, hid] at hsent
        rw [hrequest] at hv
        rw [huser, h.accepted id found hverdict header' hsent v hv hlatest hhere, ← hid]
      | lost => simp [Verdict.answers] at hadmits
      | created token sessionId' => simp [Verdict.answers] at hadmits
      | refused =>
        simp only [Verdict.answers, hrequest, ResponseMessage.responseHeader, hgood,
          Bool.not_true] at hadmits
        cases hadmits
  | closed hsessions =>
    have hstores : s.stores (.answer id answer read checks now instant) = s.stored := by
      cases answer with
      | response response => simp [stores, hfind]
      | error status maybeSent => rfl
    rw [hstores]
    rw [hsessions'] at hsessions
    exact h.close htracked hcredited hleaves' hsessions (hlost _ ⟨_, hmem, hid, rfl⟩)
  | answered _ hcreate hactivate hclose hsessions =>
    have hstores : s.stores (.answer id answer read checks now instant) = s.stored := by
      cases answer with
      | error status maybeSent => rfl
      | response response =>
        simp only [stores, hfind]
        split
        · exact absurd rfl (hcreate _ _ _ _ _ _ rfl rfl)
        · next _ client header =>
          by_cases hgood : header.serviceResult.isGood
          · exact absurd rfl (hactivate _ _ rfl hgood)
          · rw [if_neg fun hstore => hgood hstore.1]
        · rfl
    rw [hstores]
    refine h.leave_same htracked hcredited hleaves' ?_
    rw [hsessions, hsessions']

/-- **Step lemma** for the connection. -/
theorem inv_connection (h : Inv ctx s) {op : Connection.Op} (hsafe : Safe ctx s (.connection op))
    (hs : step x ctx s (.connection op) = some t) : Inv ctx t := by
  simp only [step] at hs
  split_ifs at hs with hadmits
  obtain ⟨conn, hconn, rfl⟩ := Option.map_eq_some_iff.1 hs
  have htracked := Connection.tracked_step h.tracked hconn
  have hcredited := Connection.credited_step h.credited hconn
  have hdistinct := Connection.distinct_step h.tracked h.credited h.distinct hconn
  cases Connection.step_cases hconn with
  | left op hleaves hunrecorded hsessions hpoll hanswer =>
    rw [s.asks_eq hpoll, s.stores_eq hanswer]
    exact h.leave_same htracked hcredited hleaves (by rw [hsessions])
  | elsewhere shared => cases hadmits
  | polled settings checks task fresh u hfresh hu hcase =>
    have hasks : s.asks (.poll settings checks) =
        Function.update s.asked task.id checks.toOption := by
      simp [asks, hfresh]
    have hstores : s.stores (.poll settings checks) = s.stored := rfl
    rw [hasks, hstores]
    set st : Started := ⟨task, settings, attributed ctx s.conn.shared.sessions task.request⟩
    have hbegin := h.begin hfresh st rfl checks.toOption
    rw [← hu] at hbegin
    have hmem : st ∈ u.started := by
      rw [hu]
      simp
    refine hbegin.run hmem hcase htracked hdistinct ?_ fun hopen haudited => ?_
    · rintro client ⟨old, owner, user, hheld, rfl, rfl⟩
      obtain ⟨v, hv, hsession⟩ := h.known _ _ _ hheld
      refine ⟨?_, v, hv, hsession⟩
      show some user = Function.update s.asked task.id (some user) task.id
      rw [Function.update_self]
    · rw [hu] at hopen
      refine h.isOf_attributed hopen task.request (hsafe hopen task ?_ haudited)
      rw [hfresh]
      rfl
  | committed id now instant task f entry u hid hmem hu hcase =>
    have hasks : s.asks (.committed id true now instant) = s.asked := rfl
    have hstores : s.stores (.committed id true now instant) = s.stored := rfl
    rw [hasks, hstores]
    obtain ⟨haudited, hplan, -, st, hst, htask, hclient⟩ := h.credited.held _ hmem
    dsimp only at haudited hplan htask hclient
    have hcommit : Inv ctx { s with conn := u } := by
      have hleaves : s.conn.Leaves u := by
        rw [hu]
        exact ⟨rfl, rfl, fun hopen => hopen, List.eraseP_subset, List.Subset.refl _⟩
      refine h.leave_same ?_ ?_ hleaves ?_
      · have hrelease : Connection.Tracked { s.conn with
            committing := s.conn.committing.eraseP fun p => p.1.id = id } :=
          h.tracked.shrink le_rfl rfl rfl (List.Subperm.refl _) List.eraseP_sublist
            (List.Sublist.refl _)
        rw [hu]
        exact hrelease.frame (Connection.frame_record ..)
      · rw [hu]
        exact h.credited.commit hmem hid
      · rw [hu]
        rfl
    have hcase := hcase hplan
    rw [← htask, ← hclient] at hcase
    have hmem' : st ∈ u.started := by
      rw [hu]
      exact hst
    refine hcommit.run hmem' hcase htracked hdistinct (fun _ hno => hno.elim)
      fun hopen haudited => ?_
    rw [hu] at hopen
    have hopen : s.conn.upstreamOpen := hopen
    refine h.coming st.task.tag (List.mem_append_left _ ?_) haudited st hst rfl
    rw [if_pos hopen]
    exact List.mem_map.2 ⟨_, hmem, by rw [htask]⟩
  | answered id answer read checks now instant task awaiting u hfind hu hleaves hcase =>
    have hasks : s.asks (.answer id answer read checks now instant) = s.asked := rfl
    rw [hasks]
    exact inv_answer h hadmits hsafe hfind hu hleaves htracked hcredited hcase

/-! ## The server moves -/

/-- The next request has no verdict yet. -/
theorem Inv.undecided (h : Inv ctx s) {p : RequestMessage × ℕ}
    (hp : (requests s.conn.sent)[s.processed]? = some p) : s.verdicts p.2 = none := by
  rw [← Option.not_isSome_iff_eq_none]
  intro hdecided
  obtain ⟨i, hi, q, hq, hid⟩ := h.decided p.2 hdecided
  -- the two have the same number, but not the same place
  have hi' := (List.getElem?_eq_some_iff.1 hq).1
  have hlt := (List.getElem?_eq_some_iff.1 hp).1
  have hnodup := h.distinct
  rw [Connection.Distinct, List.nodup_iff_injective_getElem] at hnodup
  have heq : i = s.processed := by
    have hsame := @hnodup ⟨i, by simpa using hi'⟩ ⟨s.processed, by simpa using hlt⟩ ?_
    · simpa using hsame
    · simp only [List.getElem_map]
      rw [(List.getElem?_eq_some_iff.1 hq).2, (List.getElem?_eq_some_iff.1 hp).2, hid]
  omega

/-- A request that the server is through with stays decided. -/
theorem isSome_update {verdicts : ℕ → Option (Verdict × Option UpstreamSession)} {id id' : ℕ}
    (verdict : Verdict × Option UpstreamSession) (h : (verdicts id').isSome) :
    (Function.update verdicts id (some verdict) id').isSome := by
  by_cases heq : id' = id
  · rw [heq, Function.update_self]
    rfl
  · rwa [Function.update_of_ne heq]

/-- The server gives its verdicts in order. -/
theorem Inv.decided_next (h : Inv ctx s) {p : RequestMessage × ℕ}
    (hp : (requests s.conn.sent)[s.processed]? = some p)
    {verdict : Verdict × Option UpstreamSession} {id : ℕ}
    (hid : (Function.update s.verdicts p.2 (some verdict) id).isSome) :
    ∃ i < s.processed + 1, ∃ q, (requests s.conn.sent)[i]? = some q ∧ q.2 = id := by
  by_cases heq : id = p.2
  · exact ⟨s.processed, Nat.lt_succ_self _, p, hp, heq.symm⟩
  · rw [Function.update_of_ne heq] at hid
    obtain ⟨i, hi, hmem⟩ := h.decided id hid
    exact ⟨i, Nat.lt_succ_of_lt hi, hmem⟩

/-- The server has less ahead of it after the next request. -/
theorem ahead_of_next {p : RequestMessage × ℕ}
    (hp : p ∈ { s with processed := s.processed + 1 }.ahead) : p ∈ s.ahead := by
  refine List.mem_append.2 ((List.mem_append.1 hp).imp_right fun hp => ?_)
  dsimp only at hp
  rw [← List.drop_drop] at hp
  exact List.mem_of_mem_drop hp

/-- No session gets another id. -/
theorem sessionId_of_update {sessions : NodeId → Option UpstreamSession} {token t : NodeId}
    {u' : UpstreamSession} (hsession : ∀ u, sessions token = some u → u'.sessionId = u.sessionId)
    {sessionId : Option String} (h : ∃ u, sessions t = some u ∧ sessionId = some u.sessionId) :
    ∃ u, Function.update sessions token (some u') t = some u ∧ sessionId = some u.sessionId := by
  obtain ⟨u, hu, heq⟩ := h
  by_cases ht : t = token
  · rw [ht] at hu ⊢
    exact ⟨u', Function.update_self .., by rw [hsession u hu]; exact heq⟩
  · exact ⟨u, by rw [Function.update_of_ne ht]; exact hu, heq⟩

/-- The server gets to a request that its session does not depend on. -/
theorem Inv.decide (h : Inv ctx s) {p : RequestMessage × ℕ}
    (hp : (requests s.conn.sent)[s.processed]? = some p) {verdict : Verdict}
    {found : Option UpstreamSession}
    (hcreated : ∀ token sessionId, verdict ≠ .created token sessionId)
    (haccepted : verdict = .accepted → ∀ header, p.1 ≠ .activateSession header)
    (hfound : ∀ st ∈ s.conn.started, st.task.id = p.2 → isAudited st.task.request →
      st.client.IsOf found) :
    Inv ctx { s with
      processed := s.processed + 1
      verdicts := Function.update s.verdicts p.2 (some (verdict, found)) } := by
  refine ⟨h.tracked, h.credited, h.distinct, fun id hid => h.decided_next hp hid,
    fun token u id hu hlatest => isSome_update _ (h.latest token u id hu hlatest),
    fun token id hstored => isSome_update _ (h.stored token id hstored), h.known, h.asking,
    fun id token sessionId found' hv => ?_, fun id found' hv header hmem => ?_, h.agrees,
    fun q hq => h.coming q (ahead_of_next hq),
    fun id verdict' found' hv st hst hid haudited => ?_⟩
  · dsimp only at hv
    by_cases heq : id = p.2
    · rw [heq, Function.update_self] at hv
      exact absurd (Prod.mk.inj (Option.some.inj hv)).1 (hcreated token sessionId)
    · rw [Function.update_of_ne heq] at hv
      exact h.created id token sessionId found' hv
  · dsimp only at hv
    by_cases heq : id = p.2
    · rw [heq, Function.update_self] at hv
      have hmessage := eq_of_mem_requests h.distinct hmem (List.mem_of_getElem? hp) heq
      exact absurd (by rw [← hmessage]) (haccepted (Prod.mk.inj (Option.some.inj hv)).1 header)
    · rw [Function.update_of_ne heq] at hv
      exact h.accepted id found' hv header hmem
  · dsimp only at hv
    by_cases heq : id = p.2
    · rw [heq, Function.update_self] at hv
      rw [← (Prod.mk.inj (Option.some.inj hv)).2]
      exact hfound st hst (hid.trans heq) haudited
    · rw [Function.update_of_ne heq] at hv
      exact h.found id verdict' found' hv st hst hid haudited

/-- Something else happens to a session of the server. -/
theorem Inv.update (h : Inv ctx s) {token : NodeId} {u' : UpstreamSession}
    (hsession : ∀ u, s.sessions token = some u → u'.sessionId = u.sessionId)
    (hlatest : ∀ id, u'.latest = some id → ∃ u, s.sessions token = some u ∧
      u.latest = some id ∧ (u'.here → u.here ∧ u'.user = u.user))
    (hagrees : s.conn.upstreamOpen → s.stored token = u'.latest →
      Agrees ctx s.conn.shared.sessions token u')
    (hcoming : s.UnderWay token → ∀ client : ClientContext, client.IsOf (s.sessions token) →
      client.IsOf (some u')) :
    Inv ctx { s with sessions := Function.update s.sessions token (some u') } := by
  have hself : Function.update s.sessions token (some u') token = some u' :=
    Function.update_self ..
  have hother : ∀ {t : NodeId}, t ≠ token →
      Function.update s.sessions token (some u') t = s.sessions t :=
    fun ht => Function.update_of_ne ht _ _
  refine ⟨h.tracked, h.credited, h.distinct, h.decided, fun t u id hu hid => ?_, h.stored,
    fun t client c hheld => sessionId_of_update hsession (h.known t client c hheld),
    fun p hp client hclient => ⟨(h.asking p hp client hclient).1,
      sessionId_of_update hsession (h.asking p hp client hclient).2⟩,
    fun id t sessionId found hv => ?_, fun id found hv header hmem u hu hid hhere => ?_,
    fun hopen t u hu heq => ?_, fun p hp haudited st hst hid => ?_, h.found⟩
  · dsimp only at hu
    by_cases ht : t = token
    · rw [ht, hself] at hu
      obtain rfl := Option.some.inj hu
      obtain ⟨u, hu, hlatest, -⟩ := hlatest id hid
      exact h.latest token u id hu hlatest
    · rw [hother ht] at hu
      exact h.latest t u id hu hid
  · obtain ⟨u, hu, hid, huser⟩ := h.created id t sessionId found hv
    by_cases ht : t = token
    · rw [ht] at hu ⊢
      refine ⟨u', hself, by rw [hsession u hu]; exact hid, fun hlatest' hhere => ?_⟩
      obtain ⟨v, hv, hlatest, hsame⟩ := hlatest id hlatest'
      obtain rfl := Option.some.inj (hu.symm.trans hv)
      rw [(hsame hhere).2]
      exact huser hlatest (hsame hhere).1
    · exact ⟨u, (hother ht).trans hu, hid, huser⟩
  · dsimp only at hu
    by_cases ht : header.authenticationToken = token
    · rw [ht, hself] at hu
      obtain rfl := Option.some.inj hu
      obtain ⟨v, hv', hlatest, hsame⟩ := hlatest id hid
      rw [← ht] at hv'
      rw [(hsame hhere).2]
      exact h.accepted id found hv header hmem v hv' hlatest (hsame hhere).1
    · rw [hother ht] at hu
      exact h.accepted id found hv header hmem u hu hid hhere
  · dsimp only at hu
    by_cases ht : t = token
    · rw [ht] at hu heq ⊢
      rw [hself] at hu
      obtain rfl := Option.some.inj hu
      exact hagrees hopen heq
    · rw [hother ht] at hu
      exact h.agrees hopen t u hu heq
  · have hclient := h.coming p hp haudited st hst hid
    by_cases ht : p.1.requestHeader.authenticationToken = token
    · rw [ht] at hclient
      dsimp only
      rw [ht, hself]
      exact hcoming ⟨p, hp, haudited, ht⟩ st.client hclient
    · dsimp only
      rw [hother ht]
      exact hclient

/-- The server creates or activates a session for the connection. -/
theorem Inv.grant (h : Inv ctx s) {message : RequestMessage} {id : ℕ}
    (hp : (requests s.conn.sent)[s.processed]? = some (message, id)) {token : NodeId}
    {u' : UpstreamSession} {verdict : Verdict} {found : Option UpstreamSession}
    (hnot : ¬ s.UnderWay token) (haudited : ¬ isAudited message)
    (hsession : ∀ u, s.sessions token = some u → u'.sessionId = u.sessionId)
    (hlatest : u'.latest = some id)
    (hcreated : ∀ token' sessionId, verdict = .created token' sessionId →
      token' = token ∧ u'.sessionId = sessionId ∧ u'.user = none)
    (haccepted : verdict = .accepted →
      message.requestHeader.authenticationToken = token ∧ u'.user = s.asked id) :
    Inv ctx { s with
      sessions := Function.update s.sessions token (some u')
      processed := s.processed + 1
      verdicts := Function.update s.verdicts id (some (verdict, found)) } := by
  have hnew : s.verdicts id = none := h.undecided hp
  have hself : Function.update s.sessions token (some u') token = some u' :=
    Function.update_self ..
  have hother : ∀ {t : NodeId}, t ≠ token →
      Function.update s.sessions token (some u') t = s.sessions t :=
    fun ht => Function.update_of_ne ht _ _
  have hold : ∀ {id' : ℕ}, (s.verdicts id').isSome → id' ≠ id := by
    rintro id' hid' rfl
    rw [hnew] at hid'
    cases hid'
  refine ⟨h.tracked, h.credited, h.distinct, fun id' hid' => h.decided_next hp hid',
    fun t u id' hu hid' => ?_, fun t id' hid' => isSome_update _ (h.stored t id' hid'),
    fun t client c hheld => sessionId_of_update hsession (h.known t client c hheld),
    fun p hp client hclient => ⟨(h.asking p hp client hclient).1,
      sessionId_of_update hsession (h.asking p hp client hclient).2⟩,
    fun id' t sessionId found' hv => ?_, fun id' found' hv header hmem u hu hid' hhere => ?_,
    fun hopen t u hu heq => ?_, fun p hp' haudited' st hst hid' => ?_,
    fun id' verdict' found' hv st hst hid' haudited' => ?_⟩
  · dsimp only at hu
    by_cases ht : t = token
    · rw [ht, hself] at hu
      obtain rfl := Option.some.inj hu
      obtain rfl := Option.some.inj (hlatest.symm.trans hid')
      dsimp only
      rw [Function.update_self]
      rfl
    · rw [hother ht] at hu
      exact isSome_update _ (h.latest t u id' hu hid')
  · dsimp only at hv
    by_cases heq : id' = id
    · rw [heq, Function.update_self] at hv
      obtain ⟨rfl, hid, huser⟩ := hcreated t sessionId (Prod.mk.inj (Option.some.inj hv)).1
      exact ⟨u', hself, hid, fun _ _ => huser⟩
    · rw [Function.update_of_ne heq] at hv
      obtain ⟨u, hu, hid, huser⟩ := h.created id' t sessionId found' hv
      by_cases ht : t = token
      · rw [ht] at hu ⊢
        refine ⟨u', hself, by rw [hsession u hu]; exact hid, fun hlatest' => ?_⟩
        exact absurd (Option.some.inj (hlatest'.symm.trans hlatest)) heq
      · exact ⟨u, (hother ht).trans hu, hid, huser⟩
  · dsimp only at hv hu
    by_cases heq : id' = id
    · rw [heq, Function.update_self] at hv
      obtain ⟨htoken, huser⟩ := haccepted (Prod.mk.inj (Option.some.inj hv)).1
      have hmessage := eq_of_mem_requests h.distinct hmem (List.mem_of_getElem? hp) heq
      obtain ⟨rfl, -⟩ := Prod.mk.inj hmessage
      have htoken : header.authenticationToken = token := htoken
      rw [htoken, hself] at hu
      obtain rfl := Option.some.inj hu
      rw [huser, heq]
    · rw [Function.update_of_ne heq] at hv
      by_cases ht : header.authenticationToken = token
      · rw [ht, hself] at hu
        obtain rfl := Option.some.inj hu
        exact absurd (Option.some.inj (hid'.symm.trans hlatest)) heq
      · rw [hother ht] at hu
        exact h.accepted id' found' hv header hmem u hu hid' hhere
  · dsimp only at hu
    by_cases ht : t = token
    · -- what the server has just accepted is not in the table
      rw [ht, hself] at hu
      obtain rfl := Option.some.inj hu
      rw [ht, hlatest] at heq
      exact absurd rfl (hold (h.stored token id heq))
    · rw [hother ht] at hu
      exact h.agrees hopen t u hu heq
  · have hahead : p ∈ s.ahead := ahead_of_next hp'
    by_cases ht : p.1.requestHeader.authenticationToken = token
    · exact absurd ⟨p, hahead, haudited', ht⟩ hnot
    · dsimp only
      rw [hother ht]
      exact h.coming p hahead haudited' st hst hid'
  · dsimp only at hv
    by_cases heq : id' = id
    · -- such a request is no change
      obtain ⟨task, htask, hfor⟩ := h.tracked.sent_started _
        (Connection.mem_requests.1 (List.mem_of_getElem? hp))
      obtain ⟨st', hst', rfl⟩ := List.mem_map.1 htask
      obtain rfl := h.tracked.started_eq hst' hst (hfor.1.symm.trans (heq.symm.trans hid'.symm))
      rw [← hfor.2] at haudited'
      exact absurd haudited' haudited
    · rw [Function.update_of_ne heq] at hv
      exact h.found id' verdict' found' hv st hst hid' haudited'

/-- The table changes by a section of another connection. -/
theorem Inv.elsewhere (h : Inv ctx s) {sessions : SessionRegistry} {names : NameCache}
    {ignored : IgnoredWrites}
    (hknown : ∀ token client c, sessions.holder token = some (client, c) →
      ∃ u, s.sessions token = some u ∧ client.sessionId = some u.sessionId)
    (hheld : ∀ token client, sessions.holder token = some (client, ctx.connectionId) →
      s.conn.shared.sessions.holder token = some (client, ctx.connectionId))
    (hlost : ∀ token, s.conn.shared.sessions.ownedBy token ctx.connectionId →
      ¬ sessions.ownedBy token ctx.connectionId → ¬ s.Lives ctx token) :
    Inv ctx { s with conn := { s.conn with shared := ⟨sessions, names, ignored⟩ } } := by
  have htracked : Connection.Tracked { s.conn with shared := ⟨sessions, names, ignored⟩ } :=
    h.tracked.shrink le_rfl rfl rfl (List.Subperm.refl _) (List.Sublist.refl _)
      (List.Sublist.refl _)
  have hcredited : Connection.Credited { s.conn with shared := ⟨sessions, names, ignored⟩ } :=
    h.credited.leave ⟨rfl, rfl, id, List.Subset.refl _, List.Subset.refl _⟩ ⟨rfl, rfl⟩
  refine h.leave htracked hcredited ⟨rfl, rfl, id, List.Subset.refl _, List.Subset.refl _⟩
    h.stored hknown fun hopen token u hu heq => ?_
  have hagrees := h.agrees hopen token u hu heq
  refine ⟨fun client hclient => hagrees.user client (hheld token client hclient),
    fun hhere halive => ?_⟩
  have howned := hagrees.owned hhere halive
  by_contra hnot
  exact hlost token howned hnot ⟨hopen, howned, u, hu, hhere, halive, heq⟩

/-- The client of a session is the one it was made for. -/
theorem knows_iff {client : ClientContext} {token : NodeId} :
    ((s.sessions token).map (·.sessionId)).isSome ∧
        client.sessionId = (s.sessions token).map (·.sessionId) ↔
      ∃ u, s.sessions token = some u ∧ client.sessionId = some u.sessionId := by
  cases s.sessions token with
  | none => simp
  | some u => simp

/-- **Step lemma** for the other connections. -/
theorem inv_elsewhere (h : Inv ctx s) {c now : ℕ} {channel : Channel} {act : Sessions.Section}
    {names : NameCache} {ignored : IgnoredWrites}
    (hsafe : Safe ctx s (.elsewhere c now channel act names ignored))
    (hs : step x ctx s (.elsewhere c now channel act names ignored) = some t) : Inv ctx t := by
  simp only [step] at hs
  split_ifs at hs with hguard
  obtain ⟨hc, hknows⟩ := hguard
  cases hs
  have hsame : ∀ {sessions : SessionRegistry},
      sessions.holder = s.conn.shared.sessions.holder →
      Inv ctx { s with conn := { s.conn with shared := ⟨sessions, names, ignored⟩ } } := by
    intro sessions hholder
    refine h.elsewhere ?_ ?_ fun token howned hnot => ?_
    · rw [hholder]
      exact h.known
    · rw [hholder]
      exact fun _ _ hheld => hheld
    · rw [SessionRegistry.ownedBy_iff_holder, hholder,
        ← SessionRegistry.ownedBy_iff_holder] at hnot
      exact absurd howned hnot
  cases act with
  | insert newToken client timeout =>
    have hclient := knows_iff.1 (by simpa [knows] using hknows)
    have hself : (Sessions.Section.applied channel c now s.conn.shared.sessions
        (.insert newToken client timeout)).holder newToken = some (client, c) :=
      SessionRegistry.holder_insert_self ..
    have hother := fun {token : NodeId} (ht : token ≠ newToken) =>
      SessionRegistry.holder_insert_of_ne s.conn.shared.sessions now
        (SessionEntry.create channel c client timeout now) ht
    refine h.elsewhere (fun token client' c' hheld => ?_) (fun token client' hheld => ?_)
      fun token howned hnot => ?_
    · by_cases ht : token = newToken
      · rw [ht, hself] at hheld
        obtain ⟨rfl, -⟩ := Prod.mk.inj (Option.some.inj hheld)
        rw [ht]
        exact hclient
      · rcases hother ht with hsame | ⟨hnone, -⟩
        · exact h.known token client' c' (hsame.symm.trans hheld)
        · exact nomatch hnone.symm.trans hheld
    · by_cases ht : token = newToken
      · rw [ht, hself] at hheld
        exact absurd (Prod.mk.inj (Option.some.inj hheld)).2 hc
      · rcases hother ht with hsame | ⟨hnone, -⟩
        · exact hsame.symm.trans hheld
        · exact nomatch hnone.symm.trans hheld
    · by_cases ht : token = newToken
      · exact hsafe token (.inl ht)
      · rcases hother ht with hsame | ⟨-, hforgotten⟩
        · obtain ⟨client', hheld⟩ := SessionRegistry.ownedBy_iff_holder.1 howned
          exact absurd (SessionRegistry.ownedBy_iff_holder.2 ⟨client', hsame.trans hheld⟩) hnot
        · exact hsafe token (.inr hforgotten)
  | activate token' client =>
    have hclient := knows_iff.1 (by simpa [knows] using hknows)
    have hholder : ∀ token, (Sessions.Section.applied channel c now s.conn.shared.sessions
        (.activate token' client)).holder token = if token = token' then
          (s.conn.shared.sessions.holder token').map fun _ => (client, c)
          else s.conn.shared.sessions.holder token :=
      fun token => SessionRegistry.holder_activate ..
    refine h.elsewhere (fun token client' c' hheld => ?_) (fun token client' hheld => ?_)
      fun token howned hnot => ?_
    · rw [hholder] at hheld
      split_ifs at hheld with ht
      · obtain ⟨-, -, heq⟩ := Option.map_eq_some_iff.1 hheld
        obtain ⟨rfl, -⟩ := Prod.mk.inj heq
        rw [ht]
        exact hclient
      · exact h.known token client' c' hheld
    · rw [hholder] at hheld
      split_ifs at hheld with ht
      · obtain ⟨-, -, heq⟩ := Option.map_eq_some_iff.1 hheld
        exact absurd (Prod.mk.inj heq).2 hc
      · exact hheld
    · by_cases ht : token = token'
      · exact hsafe token ht
      · rw [SessionRegistry.ownedBy_iff_holder, hholder, if_neg ht,
          ← SessionRegistry.ownedBy_iff_holder] at hnot
        exact absurd howned hnot
  | removeOwned token' =>
    have hholder : ∀ token, (Sessions.Section.applied channel c now s.conn.shared.sessions
        (.removeOwned token')).holder token =
          if token = token' ∧ s.conn.shared.sessions.ownedBy token' c then none
          else s.conn.shared.sessions.holder token :=
      fun token => SessionRegistry.holder_removeOwned ..
    refine h.elsewhere (fun token client' c' hheld => ?_) (fun token client' hheld => ?_)
      fun token howned hnot => ?_
    · rw [hholder] at hheld
      split_ifs at hheld
      exact h.known token client' c' hheld
    · rw [hholder] at hheld
      split_ifs at hheld
      exact hheld
    · -- a session of this connection is not one of the other
      obtain ⟨client, hheld⟩ := SessionRegistry.ownedBy_iff_holder.1 howned
      have hkept : ¬ (token = token' ∧ s.conn.shared.sessions.ownedBy token' c) := by
        rintro ⟨rfl, hother⟩
        obtain ⟨client', hheld'⟩ := SessionRegistry.ownedBy_iff_holder.1 hother
        exact hc (Prod.mk.inj (Option.some.inj (hheld'.symm.trans hheld))).2
      rw [SessionRegistry.ownedBy_iff_holder, hholder, if_neg hkept] at hnot
      exact absurd ⟨client, hheld⟩ hnot
  | begin token checks => exact hsame (SessionRegistry.holder_touch ..)
  | lookup token => exact hsame (SessionRegistry.holder_touch ..)
  | refuse token => exact hsame rfl
  | check => exact hsame rfl

/-- What the server makes of a request, by what becomes of its sessions. -/
inductive ServedCase (asked : ℕ → Option UserIdentity)
    (sessions sessions' : NodeId → Option UpstreamSession) (message : RequestMessage) (id : ℕ) :
    Verdict → Prop
  | same (verdict : Verdict) (h : sessions' = sessions)
      (hcreated : ∀ token sessionId, verdict ≠ .created token sessionId)
      (haccepted : verdict = .accepted → ∀ header, message ≠ .activateSession header) :
      ServedCase asked sessions sessions' message id verdict
  | created (token : NodeId) (sessionId : String) (haudited : ¬ isAudited message)
      (hnew : sessions token = none)
      (h : sessions' = Function.update sessions token
        (some { sessionId := sessionId, here := true, latest := some id })) :
      ServedCase asked sessions sessions' message id (.created token sessionId)
  | activated (header : RequestHeader) (u : UpstreamSession)
      (hmessage : message = .activateSession header)
      (hu : sessions header.authenticationToken = some u)
      (h : sessions' = Function.update sessions header.authenticationToken
        (some { u with user := asked id, here := true, latest := some id })) :
      ServedCase asked sessions sessions' message id .accepted
  | closed (header : RequestHeader) (u : UpstreamSession)
      (hmessage : message = .closeSession header)
      (hu : sessions header.authenticationToken = some u)
      (h : sessions' = Function.update sessions header.authenticationToken
        (some { u with alive := false })) :
      ServedCase asked sessions sessions' message id .accepted

/-- What an answer does to the sessions at the server, by the kind of the request. -/
theorem served_cases {asked : ℕ → Option UserIdentity}
    {sessions sessions' : NodeId → Option UpstreamSession} {message : RequestMessage} {id : ℕ}
    {verdict : Verdict} (h : served asked sessions message id verdict = some sessions') :
    ServedCase asked sessions sessions' message id verdict := by
  unfold served at h
  dsimp only at h
  split at h
  · next newToken sessionId header uri name =>
    split_ifs at h with hnew
    cases h
    exact .created newToken sessionId (by simp [isAudited]) (Option.isNone_iff_eq_none.1 hnew) rfl
  · cases h
  · cases h
  · next header =>
    obtain ⟨u, hu, rfl⟩ := Option.map_eq_some_iff.1 h
    exact .activated header u rfl (Option.filter_eq_some_iff.1 hu).1 rfl
  · next header =>
    obtain ⟨u, hu, rfl⟩ := Option.map_eq_some_iff.1 h
    exact .closed header u rfl (Option.filter_eq_some_iff.1 hu).1 rfl
  · next hother _ _ hactivate _ =>
    cases h
    exact .same verdict rfl hother fun haccepted header hmessage =>
      hactivate header haccepted hmessage

/-- A client is still that of a session that has ended. -/
theorem isOf_ended {client : ClientContext} {u : UpstreamSession} (h : client.IsOf (some u)) :
    client.IsOf (some { u with alive := false }) := by
  rcases h with ⟨hhere, hclient⟩ | ⟨-, hnobody⟩
  · exact .inl ⟨hhere, hclient⟩
  · exact .inr ⟨fun hlive => (nomatch hlive.2), hnobody⟩

/-- A session ends. -/
theorem Inv.ended (h : Inv ctx s) {token : NodeId} {u : UpstreamSession}
    (hu : s.sessions token = some u) :
    Inv ctx { s with
      sessions := Function.update s.sessions token (some { u with alive := false }) } := by
  refine h.update (fun v hv => ?_) (fun id hid => ⟨u, hu, hid, fun hhere => ⟨hhere, rfl⟩⟩)
    (fun hopen heq => ⟨(h.agrees hopen token u hu heq).user, fun _ halive => nomatch halive⟩)
    fun _ client hclient => ?_
  · rw [Option.some.inj (hv.symm.trans hu)]
  · rw [hu] at hclient
    exact isOf_ended hclient

/-- **Step lemma** for the server. -/
theorem inv_serve (h : Inv ctx s) {verdict : Verdict} (hsafe : Safe ctx s (.serve verdict))
    (hs : step x ctx s (.serve verdict) = some t) : Inv ctx t := by
  simp only [step] at hs
  split at hs
  · next message id hp =>
    obtain ⟨sessions, hserved, rfl⟩ := Option.map_eq_some_iff.1 hs
    -- the request of a change is that of its task
    have hfound : ∀ st ∈ s.conn.started, st.task.id = id → isAudited st.task.request →
        st.task.request = message ∧ st.client.IsOf
          (s.sessions message.requestHeader.authenticationToken) := by
      intro st hst hid haudited
      have hmem := List.mem_of_getElem? hp
      obtain ⟨task, htask, hfor⟩ := h.tracked.sent_started _ (Connection.mem_requests.1 hmem)
      obtain ⟨st', hst', rfl⟩ := List.mem_map.1 htask
      obtain rfl := h.tracked.started_eq hst' hst (hfor.1.symm.trans hid.symm)
      have hahead : (message, id) ∈ s.ahead := by
        refine List.mem_append_right _ ?_
        rw [List.drop_eq_getElem_cons (List.getElem?_eq_some_iff.1 hp).1,
          (List.getElem?_eq_some_iff.1 hp).2]
        exact List.mem_cons_self ..
      rw [← hfor.2] at haudited
      exact ⟨hfor.2.symm, h.coming _ hahead haudited st' hst' hid⟩
    cases served_cases hserved with
    | same _ hsessions hcreated haccepted =>
      subst hsessions
      exact h.decide hp hcreated haccepted fun st hst hid haudited =>
        (hfound st hst hid haudited).2
    | created token sessionId haudited hnew hsessions =>
      rw [hsessions]
      refine h.grant hp hsafe haudited (fun u hu => ?_) rfl (fun token' sessionId' heq => ?_)
        fun heq => by cases heq
      · rw [hnew] at hu
        cases hu
      · obtain ⟨rfl, rfl⟩ := Verdict.created.inj heq
        exact ⟨rfl, rfl, rfl⟩
    | activated header u hmessage hu hsessions =>
      rw [hsessions]
      subst hmessage
      refine h.grant hp (hsafe _ hp ⟨header, rfl⟩) (by simp [isAudited]) (fun v hv => ?_) rfl
        (fun _ _ heq => by cases heq) fun _ => ⟨rfl, rfl⟩
      rw [Option.some.inj (hv.symm.trans hu)]
    | closed header u hmessage hu hsessions =>
      rw [hsessions]
      subst hmessage
      refine (h.ended hu).decide hp (fun _ _ heq => by cases heq) (fun _ _ heq => by cases heq)
        fun st hst hid haudited => ?_
      exact (hfound st hst hid haudited).2
  · cases hs

/-- **Step lemma**: every safe step keeps the invariant. -/
theorem inv_step (h : Inv ctx s) {op : Op} (hsafe : Safe ctx s op)
    (hs : step x ctx s op = some t) : Inv ctx t := by
  cases op with
  | connection op => exact inv_connection h hsafe hs
  | elsewhere c now channel act names ignored => exact inv_elsewhere h hsafe hs
  | serve verdict => exact inv_serve h hsafe hs
  | createdElsewhere token sessionId =>
    simp only [step] at hs
    split_ifs at hs with hnew
    cases hs
    have hnew := Option.isNone_iff_eq_none.1 hnew
    refine h.update (fun u hu => ?_) (fun _ hid => nomatch hid)
      (fun _ _ => ⟨fun _ _ hhere => (nomatch hhere), fun hhere => (nomatch hhere)⟩)
      fun _ client hclient => ?_
    · rw [hnew] at hu
      cases hu
    · rw [hnew] at hclient
      exact .inr ⟨fun hlive => (nomatch hlive.1), hclient⟩
  | activatedElsewhere token user =>
    obtain ⟨u, hu, rfl⟩ := Option.map_eq_some_iff.1 hs
    have hu := (Option.filter_eq_some_iff.1 hu).1
    refine h.update (fun v hv => ?_)
      (fun id hid => ⟨u, hu, hid, fun hhere => (nomatch hhere)⟩)
      (fun _ _ => ⟨fun _ _ hhere => (nomatch hhere), fun hhere => (nomatch hhere)⟩)
      fun hunder client hclient => ?_
    · rw [Option.some.inj (hv.symm.trans hu)]
    · rw [hu] at hclient
      rcases hclient with ⟨hhere, -⟩ | ⟨-, hnobody⟩
      · exact absurd hunder (hsafe u hu hhere)
      · exact .inr ⟨fun hlive => (nomatch hlive.1), hnobody⟩
  | ended token =>
    obtain ⟨u, hu, rfl⟩ := Option.map_eq_some_iff.1 hs
    exact h.ended hu

/-! ## Three runs -/

/-- The user of the example. -/
def alice : UserIdentity := .userName "alice"

/-- A session is created. -/
def createRequest : RequestMessage :=
  .createSession (Connection.plainHeader 1) "urn:client" "client"

/-- The session is activated. -/
def activateRequest : RequestMessage := .activateSession (Connection.plainHeader 2)

/-- A session is created. -/
def createOps : List Op :=
  [.connection (.receive createRequest (.ok ())),
    .connection (.poll (Connection.plainSettings .failOpen) (.ok .anonymous)),
    .serve (.created Connection.plainToken "s1"),
    .connection (.answer 0 (.response (.createSession ⟨1, .good⟩ "s1" Connection.plainToken 60000))
      none (.ok ()) ⟨0⟩ 0)]

/-- The server accepts the activation of the session for alice. -/
def activateOps : List Op :=
  [.connection (.receive activateRequest (.ok ())),
    .connection (.poll (Connection.plainSettings .failOpen) (.ok alice)),
    .serve .accepted]

/-- The activation is answered. -/
def activateAnswer : Op :=
  .connection (.answer 1 (.response (.activateSession ⟨2, .good⟩)) none (.ok ()) ⟨0⟩ 0)

/-- The server refuses to close the session. -/
def closeOps : List Op :=
  [.connection (.receive (.closeSession (Connection.plainHeader 3)) (.ok ())),
    .connection (.poll (Connection.plainSettings .failOpen) (.ok .anonymous)),
    .serve .refused,
    .connection (.answer 2 (.response (.serviceFault ⟨3, .badSessionIdInvalid⟩)) none (.ok ())
      ⟨0⟩ 0)]

/-- A write that the server applies. -/
def writeOps (id : ℕ) : List Op :=
  [.connection (.receive Connection.plainWrite (.ok ())),
    .connection (.poll (Connection.plainSettings .failOpen) (.ok .anonymous)),
    .serve .accepted,
    .connection (.answer id (.response (.write ⟨1, .good⟩ (some [.good]))) none (.ok ()) ⟨0⟩ 0)]

/-- The client of the session, before it is activated. -/
def sessionClient : ClientContext :=
  { Connection.plainCtx.client with
    applicationUri := some (clip "urn:client" maxText)
    applicationName := some (clip "client" maxName)
    sessionId := some "s1" }

/-- The system with the session created. -/
def created : Attribution where
  conn :=
    { shared := ⟨SessionRegistry.insert (fun _ => none) 0 Connection.plainToken
        (SessionEntry.create Channel.open 1 sessionClient 60000 0), [], []⟩
      received := [createRequest]
      started := [⟨⟨0, createRequest, true⟩, Connection.plainSettings .failOpen,
        Connection.plainCtx.client⟩]
      sent := [.request 0 createRequest]
      responses := [(0, .createSession ⟨1, .good⟩ "s1" Connection.plainToken 60000)] }
  sessions := Function.update (fun _ => none) Connection.plainToken
    (some { sessionId := "s1", here := true, latest := some 0 })
  processed := 1
  verdicts := Function.update (fun _ => none) 0
    (some (.created Connection.plainToken "s1", none))
  asked := Function.update (fun _ => none) 0 (some .anonymous)
  stored := Function.update (fun _ => none) Connection.plainToken (some 0)

/-- The run up to the created session. -/
theorem run_createOps : Machine.run (step Connection.plainTexts Connection.plainCtx) {} createOps =
    some created := rfl

/-- The system with the session activated for alice, and the answer dealt with. -/
def activated : Attribution where
  conn :=
    { created.conn with
      shared := ⟨(created.conn.shared.sessions.modify 0 Connection.plainToken id).modify 0
        Connection.plainToken (SessionEntry.activate 1
          { sessionClient with remoteAddr := "10.0.0.5:50000", user := some alice }), [], []⟩
      received := [createRequest, activateRequest]
      started := created.conn.started ++
        [⟨⟨1, activateRequest, true⟩, Connection.plainSettings .failOpen,
          { sessionClient with remoteAddr := "10.0.0.5:50000" }⟩]
      sent := [.request 0 createRequest, .request 1 activateRequest]
      responses := created.conn.responses ++ [(1, .activateSession ⟨2, .good⟩)] }
  sessions := Function.update created.sessions Connection.plainToken
    (some { sessionId := "s1", user := some alice, here := true, latest := some 1 })
  processed := 2
  verdicts :=
    Function.update created.verdicts 1 (some (.accepted, created.sessions Connection.plainToken))
  asked := Function.update created.asked 1 (some alice)
  stored := Function.update created.stored Connection.plainToken (some 1)

/-- The run up to the activated session. -/
theorem run_activateOps : Machine.run (step Connection.plainTexts Connection.plainCtx) created
    (activateOps ++ [activateAnswer]) = some activated := rfl

/-- Nothing stands in the way of creating a session. -/
theorem safe_createOps : Machine.Meets (step Connection.plainTexts Connection.plainCtx)
    (Safe Connection.plainCtx) {} createOps := by
  refine ⟨fun _ hlost => False.elim hlost, fun s₁ h₁ => ?_⟩
  obtain rfl := Option.some.inj h₁
  refine ⟨fun _ task htask haudited => ?_, fun s₂ h₂ => ?_⟩
  · obtain rfl := Option.some.inj htask
    cases haudited
  obtain rfl := Option.some.inj h₂
  refine ⟨?_, fun s₃ h₃ => ?_⟩
  · rintro ⟨p, hp, haudited, -⟩
    obtain rfl := List.mem_singleton.1 hp
    cases haudited
  obtain rfl := Option.some.inj h₃
  refine ⟨fun token hlost => ?_, fun _ _ => trivial⟩
  -- no session is forgotten
  obtain ⟨p, hp, -, hmatch⟩ := hlost
  obtain rfl := List.mem_singleton.1 hp
  obtain ⟨-, ⟨e, he, -⟩, -⟩ := hmatch
  cases he

/-- The steps of the activation are safe. -/
theorem safe_activateOps : Machine.Meets (step Connection.plainTexts Connection.plainCtx)
    (Safe Connection.plainCtx) created (activateOps ++ [activateAnswer]) := by
  refine ⟨fun _ hlost => False.elim hlost, fun s₁ h₁ => ?_⟩
  obtain rfl := Option.some.inj h₁
  refine ⟨fun _ task htask haudited => ?_, fun s₂ h₂ => ?_⟩
  · obtain rfl := Option.some.inj htask
    cases haudited
  obtain rfl := Option.some.inj h₂
  refine ⟨fun _ hp _ => ?_, fun s₃ h₃ => ?_⟩
  · rintro ⟨p, hp, haudited, -⟩
    obtain rfl := List.mem_singleton.1 hp
    cases haudited
  obtain rfl := Option.some.inj h₃
  refine ⟨fun token hlost => ?_, fun _ _ => trivial⟩
  obtain ⟨p, hp, -, hmatch⟩ := hlost
  obtain rfl := List.mem_singleton.1 hp
  exact False.elim hmatch

/-- The steps of a write behind the activation are safe. -/
theorem safe_writeOps : Machine.Meets (step Connection.plainTexts Connection.plainCtx)
    (Safe Connection.plainCtx) activated (writeOps 2) := by
  refine ⟨fun _ hlost => False.elim hlost, fun s₁ h₁ => ?_⟩
  obtain rfl := Option.some.inj h₁
  refine ⟨fun _ task htask _ u hu => ?_, fun s₂ h₂ => ?_⟩
  · -- the activation was answered
    obtain rfl := Option.some.inj htask
    obtain rfl := Option.some.inj hu
    exact ⟨rfl, fun _ => rfl⟩
  obtain rfl := Option.some.inj h₂
  refine ⟨fun p hp hactivate => ?_, fun s₃ h₃ => ?_⟩
  · obtain rfl := Option.some.inj hp
    obtain ⟨header, hmessage⟩ := hactivate
    cases hmessage
  obtain rfl := Option.some.inj h₃
  refine ⟨fun token hlost => ?_, fun _ _ => trivial⟩
  obtain ⟨p, hp, -, hmatch⟩ := hlost
  obtain rfl := List.mem_singleton.1 hp
  exact False.elim hmatch

/-- The users and sessions of the records, and the session that the server found for a request. -/
def view (id : ℕ) (s : Attribution) : List (ℕ × Option (Option UserIdentity × Option String)) ×
    Option (Option UserIdentity × String × Bool) :=
  (s.conn.recorded.map fun r => (r.1, r.2.client.map fun c => (c.user, c.sessionId)),
    ((s.verdicts id).bind (·.2)).map fun u => (u.user, u.sessionId, u.here && u.alive))

/-- **Changes are recorded for the user that the server knows**, in every run of safe steps, with
any pipelining of requests and any answers: all records of a change that the server got to are for
the user of the last activation of its session that the server had accepted by then, and for its
session; and for nobody only if the session was not one of the connection. -/
theorem attributed_of_run {ops : List Op}
    (hsafe : Machine.Meets (step x ctx) (Safe ctx) {} ops)
    (hr : Machine.run (step x ctx) {} ops = some t) : t.Attributed :=
  attributed_of_inv (Machine.run_invariant_of_meets
    (fun _ _ _ h hop hs => inv_step h hop hs) (inv_start ctx) hsafe hr)

/-- The write is recorded for alice. -/
theorem attributed_of_run_aliceWrites : ∃ t,
    Machine.run (step Connection.plainTexts Connection.plainCtx) {}
      (createOps ++ (activateOps ++ [activateAnswer]) ++ writeOps 2) = some t ∧
        view 2 t = ([(2, some (some alice, some "s1"))], some (some alice, "s1", true)) ∧
          t.Attributed := by
  obtain ⟨t, ht, hview⟩ := Option.map_eq_some_iff.1
    (show (Machine.run (step Connection.plainTexts Connection.plainCtx) {}
      (createOps ++ (activateOps ++ [activateAnswer]) ++ writeOps 2)).map (view 2) =
        some ([(2, some (some alice, some "s1"))], some (some alice, "s1", true)) from rfl)
  have hcreated : Machine.run (step Connection.plainTexts Connection.plainCtx) {}
      (createOps ++ (activateOps ++ [activateAnswer])) = some activated := by
    rw [Machine.run_append, run_createOps, Option.bind_some, run_activateOps]
  refine ⟨t, ht, hview, attributed_of_run ?_ ht⟩
  refine (Machine.meets_append _).2 ⟨(Machine.meets_append _).2
    ⟨safe_createOps, fun s hs => ?_⟩, fun s hs => ?_⟩
  · obtain rfl := Option.some.inj (run_createOps.symm.trans hs)
    exact safe_activateOps
  · obtain rfl := Option.some.inj (hcreated.symm.trans hs)
    exact safe_writeOps

/-- Nobody's change, and yet the session of the connection has a user. -/
theorem not_attributed_of_view {id : ℕ} {session : Option String} {sessionId : String}
    (h : view id s = ([(id, some (none, session))], some (some alice, sessionId, true))) :
    ¬ s.Attributed := by
  obtain ⟨hrecorded, hfound⟩ := Prod.mk.inj h
  obtain ⟨r, rest, hr, heq, -⟩ := List.map_eq_cons_iff.1 hrecorded
  obtain ⟨hid, hclient⟩ := Prod.mk.inj heq
  obtain ⟨client, hclient, hnobody⟩ := Option.map_eq_some_iff.1 hclient
  obtain ⟨u, hu, hsession⟩ := Option.map_eq_some_iff.1 hfound
  obtain ⟨⟨verdict, found⟩, hverdict, hbind⟩ := Option.bind_eq_some_iff.1 hu
  obtain ⟨huser, -⟩ := Prod.mk.inj hsession
  have hlive : (u.here && u.alive) = true :=
    (Prod.mk.inj (Prod.mk.inj hsession).2).2
  intro hattributed
  obtain ⟨hrecords, -⟩ := hattributed id verdict found hverdict
  obtain ⟨client', hclient', hisOf⟩ := hrecords r (by rw [hr]; exact List.mem_cons_self ..) hid
  obtain rfl := Option.some.inj (hclient.symm.trans hclient')
  dsimp only at hbind
  rw [hbind] at hisOf
  rw [Bool.and_eq_true] at hlive
  rcases hisOf with ⟨-, hsame, -⟩ | ⟨hnot, -⟩
  · rw [(Prod.mk.inj hnobody).1, huser] at hsame
    cases hsame
  · exact hnot hlive

/-- **A change without its user**: the server has accepted the activation of the session for alice,
but the connection has not dealt with the answer when the task of the write starts; or it has, but
then the server refuses to close the session, and the gateway forgets it all the same. The write is
recorded for nobody. -/
theorem loses_user :
    (∃ t, Machine.run (step Connection.plainTexts Connection.plainCtx) {}
      (createOps ++ activateOps ++ writeOps 2) = some t ∧ ¬ t.Attributed) ∧
    ∃ t, Machine.run (step Connection.plainTexts Connection.plainCtx) {}
      (createOps ++ activateOps ++ activateAnswer :: closeOps ++ writeOps 3) = some t ∧
        ¬ t.Attributed := by
  constructor
  · obtain ⟨t, ht, hview⟩ := Option.map_eq_some_iff.1
      (show (Machine.run (step Connection.plainTexts Connection.plainCtx) {}
        (createOps ++ activateOps ++ writeOps 2)).map (view 2) =
          some ([(2, some (none, some "s1"))], some (some alice, "s1", true)) from rfl)
    exact ⟨t, ht, not_attributed_of_view hview⟩
  · obtain ⟨t, ht, hview⟩ := Option.map_eq_some_iff.1
      (show (Machine.run (step Connection.plainTexts Connection.plainCtx) {}
        (createOps ++ activateOps ++ activateAnswer :: closeOps ++ writeOps 3)).map (view 3) =
          some ([(3, some (none, none))], some (some alice, "s1", true)) from rfl)
    exact ⟨t, ht, not_attributed_of_view hview⟩

end Attribution

end AuditGateway
