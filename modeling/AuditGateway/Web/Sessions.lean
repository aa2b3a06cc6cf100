import AuditGateway.Users.Processes

set_option relaxedAutoImplicit false
set_option autoImplicit false

/-!
# Web sessions

A session is under the name of its user, with the session epoch of the row at login. A request is
authenticated when the row has that epoch still. The epoch is bumped by every change of password or
role, but a login reads it after the password was checked, in a statement of its own, and it starts
over when a user is created again under the name.

So a session that was based on something outdated is accepted if the epoch is read after the change,
or if the new row comes to the epoch of the old one. In all other runs sessions end with what they
were based on.

Each session and login notes whether its user was deleted, or the password or role changed, since
the password was checked. This is for the statements only.

## Main definitions

* `Held` — a user name and an epoch, as a session and a request hold them.
* `WebSessions`, `WebSessions.Op`, `WebSessions.step` — the sessions of the gateway over the
  database.
* `WebSessions.Authenticates` — a request whose session is accepted.
* `WebSessions.Timely` — the steps that keep sessions to what they were based on.

## Main results

* `WebSessions.current_of_run` — in runs of such steps no outdated session authenticates a request.
* `WebSessions.outdated_authenticates` — runs in which one does.
-/

namespace AuditGateway

/-- What is compared with the row of the user. -/
structure Held where
  username : String
  epoch : ℕ
  /-- The user was deleted, or its password or role changed, since the password was checked. -/
  outdated : Bool := false
  deriving DecidableEq

/-- A session of the web interface. -/
structure WebSession where
  id : ℕ
  held : Held
  deriving DecidableEq

/-- A request in progress. -/
inductive SessionTask
  /-- A login has checked the password, or a user has written a new one. -/
  | verified (username : String) (outdated : Bool)
  /-- The epoch is read. -/
  | stateRead (held : Held)
  /-- A request has found its session. -/
  | asked (session : ℕ) (held : Held)
  | done
  deriving DecidableEq

/-- What a task holds of a row. -/
def SessionTask.held : SessionTask → Option Held
  | .verified .. | .done => none
  | .stateRead held | .asked _ held => some held

/-- A statement has deleted the row of a user, or changed its password or role. -/
def UserDb.changes (db db' : UserDb) (username : String) : Bool :=
  (db.users.get username).map (fun u => (u.passwordHash, u.role)) ≠
    (db'.users.get username).map fun u => (u.passwordHash, u.role)

/-- The sessions of the web interface beside the users. -/
structure WebSessions where
  users : Processes := {}
  sessions : List WebSession := []
  tasks : List SessionTask := []
  /-- The session that is made next. -/
  nextSession : ℕ := 0

namespace WebSessions

/-- The number of the process with the web server. -/
def gateway : ℕ := 0

/-- The steps of the gateway, and those of all processes on the database. -/
inductive Op
  /-- A statement on the database. -/
  | db (op : Processes.Op)
  /-- A login verifies the password. -/
  | login (username password : String)
  /-- A user's own new password is written. -/
  | ownChange (call : ℕ)
  /-- The epoch for a new session is read. -/
  | readState (task : ℕ)
  | createSession (task : ℕ)
  /-- A request looks up its session. -/
  | ask (session : ℕ)
  /-- It compares the epochs. -/
  | check (task : ℕ)
  /-- A logout, or a session that expired. -/
  | remove (session : ℕ)
  | removeUser (username : String)

/-- A held row is noted as outdated. -/
def note (db db' : UserDb) (held : Held) : Held :=
  { held with outdated := held.outdated || db.changes db' held.username }

/-- A task of a session notes that its user has changed. -/
def noteTask (db db' : UserDb) : SessionTask → SessionTask
  | .verified username outdated => .verified username (outdated || db.changes db' username)
  | .stateRead held => .stateRead (note db db' held)
  | .asked session held => .asked session (note db db' held)
  | .done => .done

/-- A statement on the database is executed. -/
def setUsers (s : WebSessions) (users : Processes) : WebSessions :=
  { s with
    users := users
    sessions := s.sessions.map fun session =>
      { session with held := note s.users.db users.db session.held }
    tasks := s.tasks.map (noteTask s.users.db users.db) }

/-- A task with a new state. -/
def put (s : WebSessions) (i : ℕ) (task : SessionTask) : WebSessions :=
  { s with tasks := s.tasks.set i task }

/-- The row of a user, if it still has the epoch of a session. -/
def authUser (db : UserDb) (held : Held) : Option SessionState :=
  (db.sessionState held.username).filter (·.epoch = held.epoch)

/-- Whether the next statement of a call writes a user's own password. -/
def writesOwnPassword (users : Processes) (i : ℕ) : Option String := do
  match ← users.calls[i]? with
  | ⟨_, .ownChecked username hash epoch⟩ =>
    if (users.db.writeOwnPassword username hash epoch).isOk then some username else none
  | _ => none

/-- One step of the sessions. -/
def step (x : AuthCrates) (s : WebSessions) : Op → Option WebSessions
  | .db op => (Processes.step x s.users op).map s.setUsers
  | .login username password =>
    if s.users.free gateway ∧ (s.users.db.verify x username password).isSome then
      some { s with tasks := s.tasks ++ [.verified username false] }
    else none
  | .ownChange i => do
    let username ← writesOwnPassword s.users i
    let users ← Processes.step x s.users (.next i)
    let s := s.setUsers users
    some { s with tasks := s.tasks ++ [.verified username false] }
  | .readState i => do
    match ← s.tasks[i]? with
    | .verified username outdated =>
      if s.users.free gateway then
        some (s.put i (match s.users.db.sessionState username with
          | some state => .stateRead ⟨username, state.epoch, outdated⟩
          | none => .done))
      else none
    | _ => none
  | .createSession i => do
    match ← s.tasks[i]? with
    | .stateRead held =>
      let s := s.put i .done
      some { s with
        sessions := s.sessions ++ [⟨s.nextSession, held⟩]
        nextSession := s.nextSession + 1 }
    | _ => none
  | .ask id => do
    let session ← s.sessions.find? (·.id = id)
    some { s with tasks := s.tasks ++ [.asked id session.held] }
  | .check i => do
    match ← s.tasks[i]? with
    | .asked id held =>
      if s.users.free gateway then
        let s := s.put i .done
        some (if (authUser s.users.db held).isSome then s
          else { s with sessions := s.sessions.filter (·.id ≠ id) })
      else none
    | _ => none
  | .remove id => some { s with sessions := s.sessions.filter (·.id ≠ id) }
  | .removeUser username =>
    some { s with sessions := s.sessions.filter (·.held.username ≠ username) }

/-- A request of which the session is accepted. -/
def Authenticates (s : WebSessions) (i : ℕ) (held : Held) : Prop :=
  ∃ id, s.tasks[i]? = some (.asked id held) ∧ (authUser s.users.db held).isSome

/-- A request is authenticated only by what is not outdated. -/
def Current (s : WebSessions) (op : Op) : Prop :=
  ∀ i held, op = .check i → s.Authenticates i held → held.outdated = false

/-- A session, login or request holds this. -/
def Holds (s : WebSessions) (held : Held) : Prop :=
  (∃ session ∈ s.sessions, session.held = held) ∨ ∃ task ∈ s.tasks, task.held = some held

/-- The epoch for a session is read before anything changes that the session is based on, and a user
is created under a name only when nothing holds an epoch of it. -/
def Timely (s : WebSessions) : Op → Prop
  | .db op => ∀ username, s.users.Creates op username → ∀ held, s.Holds held →
      held.username ≠ username
  | .readState i => ∀ username outdated, s.tasks[i]? = some (.verified username outdated) →
      (s.users.db.sessionState username).isSome → outdated = false
  | _ => True

variable {x : AuthCrates} {s t : WebSessions}

/-- The row that is held has an epoch of the past, and a former one if it is outdated. -/
def Past (db : UserDb) (held : Held) : Prop :=
  ∀ user, db.users.get held.username = some user →
    held.epoch ≤ user.sessionEpoch ∧ (held.outdated = true → held.epoch < user.sessionEpoch)

/-- What is held is of the past. -/
def Inv (s : WebSessions) : Prop := ∀ held, s.Holds held → Past s.users.db held

/-- What is of the past and not outdated is not accepted. -/
theorem outdated_eq_false_of_authUser {db : UserDb} {held : Held} (h : Past db held)
    (ha : (authUser db held).isSome) : held.outdated = false := by
  obtain ⟨state, hstate⟩ := Option.isSome_iff_exists.1 ha
  simp only [authUser, UserDb.sessionState, Option.filter_eq_some_iff, Option.map_eq_some_iff,
    decide_eq_true_eq] at hstate
  obtain ⟨⟨user, huser, rfl⟩, hepoch⟩ := hstate
  have hepoch : user.sessionEpoch = held.epoch := hepoch
  by_contra hout
  have hlt := (h user huser).2 (by simpa using hout)
  omega

/-- A statement keeps what is held in the past, unless it creates the user. -/
theorem past_note {users users' : Processes} {op : Processes.Op} {held : Held}
    (hs : Processes.step x users op = some users') (h : Past users.db held)
    (hcreates : ¬users.Creates op held.username) :
    Past users'.db (note users.db users'.db held) := by
  intro user huser
  have huser : users'.db.users.get held.username = some user := huser
  have hrow := Processes.rowStep_of_step hs held.username
  rw [huser] at hrow
  cases hold : users.db.users.get held.username with
  | none =>
    rw [hold] at hrow
    cases hrow with
    | created hc => exact absurd hc hcreates
  | some old =>
    obtain ⟨hle, hlt⟩ := h old hold
    rw [hold] at hrow
    cases hrow with
    | same =>
      -- the row is the same, so nothing is noted
      have hnote : note users.db users'.db held = held := by
        simp [note, UserDb.changes, hold, huser]
      rw [hnote]
      exact ⟨hle, hlt⟩
    | changed hepoch =>
      have hlt : held.epoch < user.sessionEpoch := by omega
      exact ⟨hlt.le, fun _ => hlt⟩

/-- What is held after a statement was held before it. -/
theorem holds_setUsers {users : Processes} {held : Held} (h : (s.setUsers users).Holds held) :
    ∃ old, s.Holds old ∧ held = note s.users.db users.db old := by
  rcases h with ⟨session, hsession, rfl⟩ | ⟨task, htask, hheld⟩
  · obtain ⟨old, hold, rfl⟩ := List.mem_map.1 hsession
    exact ⟨old.held, .inl ⟨old, hold, rfl⟩, rfl⟩
  · obtain ⟨old, hold, rfl⟩ := List.mem_map.1 htask
    cases old with
    | verified username outdated => cases hheld
    | stateRead old =>
      obtain rfl := Option.some.inj hheld
      exact ⟨old, .inr ⟨.stateRead old, hold, rfl⟩, rfl⟩
    | asked session old =>
      obtain rfl := Option.some.inj hheld
      exact ⟨old, .inr ⟨.asked session old, hold, rfl⟩, rfl⟩
    | done => cases hheld

/-- A statement on the users keeps the invariant. -/
theorem inv_setUsers {users : Processes} {op : Processes.Op} (h : Inv s)
    (hs : Processes.step x s.users op = some users)
    (hcreates : ∀ username, s.users.Creates op username → ∀ held, s.Holds held →
      held.username ≠ username) : Inv (s.setUsers users) := by
  intro held hheld
  obtain ⟨old, hold, rfl⟩ := holds_setUsers hheld
  exact past_note hs (h old hold) fun hc => hcreates _ hc old hold rfl

/-- Nothing else is held than before. -/
theorem inv_of_holds (h : Inv s) (husers : t.users = s.users)
    (hholds : ∀ held, t.Holds held → s.Holds held) : Inv t := by
  intro held hheld
  rw [husers]
  exact h held (hholds held hheld)

/-- What is held behind a change of a task. -/
theorem holds_put {i : ℕ} {task : SessionTask} {held : Held} (h : (s.put i task).Holds held) :
    s.Holds held ∨ task.held = some held := by
  rcases h with h | ⟨task', htask', hheld⟩
  · exact .inl (.inl h)
  · rcases List.mem_or_eq_of_mem_set htask' with hmem | rfl
    · exact .inl (.inr ⟨task', hmem, hheld⟩)
    · exact .inr hheld

/-- What a task holds is held. -/
theorem holds_of_getElem? {i : ℕ} {task : SessionTask} {held : Held} (hi : s.tasks[i]? = some task)
    (h : task.held = some held) : s.Holds held :=
  .inr ⟨task, List.mem_of_getElem? hi, h⟩

/-- What is held behind a new task. -/
theorem holds_append {task : SessionTask} {held : Held}
    (h : Holds { s with tasks := s.tasks ++ [task] } held) :
    s.Holds held ∨ task.held = some held := by
  rcases h with h | ⟨task', htask', hheld⟩
  · exact .inl (.inl h)
  · rcases List.mem_append.1 htask' with hmem | hnew
    · exact .inl (.inr ⟨task', hmem, hheld⟩)
    · obtain rfl := List.mem_singleton.1 hnew
      exact .inr hheld

/-- Less is held behind the end of a session. -/
theorem holds_filter {p : WebSession → Bool} {held : Held}
    (h : Holds { s with sessions := s.sessions.filter p } held) : s.Holds held := by
  rcases h with ⟨session, hsession, hheld⟩ | h
  · exact .inl ⟨session, (List.mem_filter.1 hsession).1, hheld⟩
  · exact .inr h

/-- The epoch that a login reads is the one of the row. -/
theorem past_readState {db : UserDb} {username : String} {state : SessionState}
    (h : db.sessionState username = some state) : Past db ⟨username, state.epoch, false⟩ := by
  obtain ⟨user, huser, rfl⟩ := Option.map_eq_some_iff.1 h
  intro u hu
  obtain rfl := Option.some.inj (huser.symm.trans hu)
  exact ⟨le_rfl, fun hout => (nomatch hout)⟩

/-- Every timely step keeps the invariant. -/
theorem inv_step {op : Op} (h : Inv s) (hop : Timely s op) (hs : step x s op = some t) :
    Inv t := by
  cases op with
  | db op =>
    obtain ⟨users, husers, rfl⟩ := Option.map_eq_some_iff.1 hs
    exact inv_setUsers h husers hop
  | login username password =>
    simp only [step] at hs
    split_ifs at hs
    cases hs
    refine inv_of_holds h rfl fun held hheld => ?_
    rcases holds_append hheld with hold | hnew
    · exact hold
    · cases hnew
  | ownChange i =>
    simp only [step, Option.bind_eq_bind, Option.bind_eq_some_iff] at hs
    obtain ⟨username, -, users, husers, hs⟩ := hs
    cases hs
    have hinv : Inv (s.setUsers users) := by
      refine inv_setUsers h husers ?_
      rintro name ⟨-, process, password, hash, role, must, hcreate, -⟩
      cases hcreate
    refine inv_of_holds hinv rfl fun held hheld => ?_
    rcases holds_append hheld with hold | hnew
    · exact hold
    · cases hnew
  | readState i =>
    simp only [step, Option.bind_eq_bind, Option.bind_eq_some_iff] at hs
    obtain ⟨task, hi, hs⟩ := hs
    cases task with
    | verified username outdated =>
      dsimp only at hs
      split_ifs at hs
      cases hs
      intro held hheld
      rcases holds_put hheld with hold | hnew
      · exact h held hold
      · cases hstate : s.users.db.sessionState username with
        | none =>
          rw [hstate] at hnew
          cases hnew
        | some state =>
          rw [hstate] at hnew
          obtain rfl := Option.some.inj hnew
          obtain rfl := hop username outdated hi (by rw [hstate]; rfl)
          exact past_readState hstate
    | _ => cases hs
  | createSession i =>
    simp only [step, Option.bind_eq_bind, Option.bind_eq_some_iff] at hs
    obtain ⟨task, hi, hs⟩ := hs
    cases task with
    | stateRead old =>
      cases hs
      refine inv_of_holds h rfl fun held hheld => ?_
      rcases hheld with ⟨session, hsession, hheld⟩ | htask
      · rcases List.mem_append.1 hsession with hmem | hnew
        · exact .inl ⟨session, hmem, hheld⟩
        · obtain rfl := List.mem_singleton.1 hnew
          exact hheld ▸ holds_of_getElem? hi rfl
      · rcases holds_put (.inr htask) with hold | hnew
        · exact hold
        · cases hnew
    | _ => cases hs
  | ask id =>
    simp only [step, Option.bind_eq_bind, Option.bind_eq_some_iff] at hs
    obtain ⟨session, hfind, hs⟩ := hs
    cases hs
    refine inv_of_holds h rfl fun held hheld => ?_
    rcases holds_append hheld with hold | hnew
    · exact hold
    · exact .inl ⟨session, List.mem_of_find?_eq_some hfind, Option.some.inj hnew⟩
  | check i =>
    simp only [step, Option.bind_eq_bind, Option.bind_eq_some_iff] at hs
    obtain ⟨task, hi, hs⟩ := hs
    cases task with
    | asked id old =>
      dsimp only at hs
      split_ifs at hs
      · cases hs
        refine inv_of_holds h rfl fun held hheld => ?_
        rcases holds_put hheld with hold | hnew
        · exact hold
        · cases hnew
      · cases hs
        refine inv_of_holds h rfl fun held hheld => ?_
        rcases holds_put (holds_filter hheld) with hold | hnew
        · exact hold
        · cases hnew
    | _ => cases hs
  | remove id =>
    cases hs
    exact inv_of_holds h rfl fun held hheld => holds_filter hheld
  | removeUser username =>
    cases hs
    exact inv_of_holds h rfl fun held hheld => holds_filter hheld

/-- The gateway starts without sessions. -/
def start (users : Processes) : WebSessions := { users := users }

/-- **Sessions end with what they were based on**: in every run of timely steps from the start of
the gateway, with any statements of any processes in between, a request is authenticated only if
its user was not deleted, and neither password nor role changed, since the password was checked. -/
theorem current_of_run {users : Processes} {ops : List Op}
    (hops : Machine.Meets (step x) Timely (start users) ops) :
    Machine.Meets (step x) Current (start users) ops := by
  refine hops.of_invariant (I := Inv) (fun s op t hs hop ht => inv_step hs hop ht) ?_ ?_
  · rintro s op hs - i held rfl ⟨id, hi, hauth⟩
    exact outdated_eq_false_of_authUser (hs held (holds_of_getElem? hi rfl)) hauth
  · rintro held (⟨session, hsession, -⟩ | ⟨task, htask, -⟩)
    · cases hsession
    · cases htask

/-- Whether a request is authenticated can be decided. -/
instance (s : WebSessions) (i : ℕ) (held : Held) : Decidable (s.Authenticates i held) :=
  match h : s.tasks[i]? with
  | some (.asked id other) =>
    if hsame : other = held ∧ (authUser s.users.db held).isSome then
      .isTrue ⟨id, by rw [h, hsame.1], hsame.2⟩
    else .isFalse fun ⟨_, hi, hauth⟩ => hsame ⟨by rw [h] at hi; cases hi; rfl, hauth⟩
  | some (.verified ..) | some (.stateRead _) | some .done | none =>
    .isFalse fun ⟨_, hi, _⟩ => by rw [h] at hi; cases hi

/-- Bob logs in, and a request looks up his session. -/
def bobLogsIn : List Op :=
  [.login "bob" "bob's", .readState 0, .createSession 0, .ask 0, .check 1]

/-- The run in which a user logs in, and the cookie counts. -/
theorem current_of_run_bobLogsIn :
    Machine.Meets (step Processes.plainCrates) Current (start Processes.twoAdmins) bobLogsIn := by
  refine current_of_run ⟨trivial, fun t ht => ⟨?_, fun u _ => ?_⟩⟩
  · obtain rfl := Option.some.inj ht
    intro username outdated hi _
    cases hi
    rfl
  · exact Machine.meets_of_forall_mem _ (by simp [Timely]) u

/-- The password is reset after it was checked, and before the epoch is read. -/
def passwordReset : List Op :=
  [.login "bob" "bob's", .db (.update 1 "bob" none (some ("password", "password")) true),
    .readState 0, .createSession 0, .ask 0]

/-- The command line deletes the user and creates another under the name. -/
def userReplaced : List Op :=
  [.login "bob" "bob's", .readState 0, .createSession 0, .db (.delete 1 "bob"), .db (.next 0),
    .db (.next 0), .db (.next 0), .db (.create 1 "bob" "password" "password" .admin false),
    .ask 0]

/-- Requests with a session of the old password, and of the old account, are authenticated. -/
theorem outdated_authenticates :
    (∃ t, Machine.run (step Processes.plainCrates) (start Processes.twoAdmins) passwordReset =
        some t ∧ t.Authenticates 1 ⟨"bob", 1, true⟩) ∧
      ∃ t, Machine.run (step Processes.plainCrates) (start Processes.twoAdmins) userReplaced =
        some t ∧ t.Authenticates 1 ⟨"bob", 0, true⟩ := by
  have hreset : (Machine.run (step Processes.plainCrates) (start Processes.twoAdmins)
      passwordReset).map (fun t => decide (t.Authenticates 1 ⟨"bob", 1, true⟩)) = some true := by
    decide +kernel
  have hreplaced : (Machine.run (step Processes.plainCrates) (start Processes.twoAdmins)
      userReplaced).map (fun t => decide (t.Authenticates 1 ⟨"bob", 0, true⟩)) = some true := by
    decide +kernel
  obtain ⟨t, ht, hauth⟩ := Option.map_eq_some_iff.1 hreset
  obtain ⟨u, hu, hauth'⟩ := Option.map_eq_some_iff.1 hreplaced
  exact ⟨⟨t, ht, of_decide_eq_true hauth⟩, u, hu, of_decide_eq_true hauth'⟩

end WebSessions

end AuditGateway
