import AuditGateway.Lib.Machine
import AuditGateway.Users.Database

set_option relaxedAutoImplicit false
set_option autoImplicit false

/-!
# Processes on the user database

The gateway and commands on the command line open the same database. Each process has a lock on its
connection, that a call holds from its first statement to its last, but the statements of other
processes come in between. `update` is one transaction. `delete` counts the other admins, looks at
the user, deletes the row and deletes the tokens in a statement each. The role for the scopes of a
token is checked when the request arrives, and the token is inserted later.

So an admin remains, and no token outlives the role it needs, in those runs in which what a call has
found is still so when it writes.

## Main definitions

* `UserStage`, `UserCall` — the calls that take several statements, and how far one is.
* `Processes`, `Processes.Op`, `Processes.step` — the database, and the statements.
* `Processes.AdminRemains` — what a deletion has found still holds when it deletes.
* `Processes.Lawful`, `Processes.Lasting` — the law for tokens, and the steps that keep it.

## Main results

* `Processes.hasAdmin_iff` — the runs in which an admin remains.
* `Processes.lawful_of_run` — runs in which the tokens keep the law.
* `Processes.mcpScopeRole_le_of_authenticate` — what the law says about requests.
* `Processes.admins_delete_each_other`, `Processes.tokens_outlive_role` — the runs that break them.
-/

namespace AuditGateway

/-- How far a call is that takes several statements. -/
inductive UserStage
  /-- A `delete` has counted the other admins. -/
  | counted (username : String) (otherAdmins : ℕ)
  /-- It has found that an admin remains. -/
  | checked (username : String)
  /-- It has deleted the row of the user. -/
  | deleted (username : String)
  /-- A `change_own_password` has read the row and hashed the new password. -/
  | ownChecked (username hash : String) (epoch : ℕ)
  /-- A request for a token passed the check of the role. -/
  | granted (username name : String) (scopes : List String)
  /-- `create_token` has found the user. -/
  | found (username name : String) (scopes : List String)
  | done
  deriving DecidableEq

/-- Whether the connection of the process is locked. -/
def UserStage.locks : UserStage → Bool
  | .granted .. | .done => false
  | _ => true

/-- A call on the users, and how far it is. -/
structure UserCall where
  process : ℕ
  stage : UserStage
  deriving DecidableEq

/-- The next statement of a call, and how far it is then. The insertion of a token is not here. -/
def UserDb.advance (db : UserDb) : UserStage → Option (UserDb × UserStage)
  | .counted username otherAdmins =>
    some (db, match adminCheck username otherAdmins (db.isAdmin username) with
      | .ok _ => .checked username
      | .error _ => .done)
  | .checked username =>
    some (db.deleteUser username,
      if (db.users.get username).isSome then .deleted username else .done)
  | .deleted username => some (db.deleteTokens username, .done)
  | .ownChecked username hash epoch =>
    some (match db.writeOwnPassword username hash epoch with
      | .ok db => (db, .done)
      | .error _ => (db, .done))
  | .granted username name scopes =>
    some (db, match checkToken name scopes with
      | .ok scopes =>
        if (db.users.get username).isSome then .found username name scopes else .done
      | .error _ => .done)
  | .found .. | .done => none

/-- The database of users with the calls of all processes. -/
structure Processes where
  db : UserDb := {}
  /-- The number of the next account. -/
  accounts : ℕ := 0
  calls : List UserCall := []

namespace Processes

/-- The calls and statements on the users. -/
inductive Op
  | create (process : ℕ) (username password hash : String) (role : Role)
      (mustChangePassword : Bool)
  /-- `password` is the new password and its hash. -/
  | update (process : ℕ) (username : String) (role : Option Role)
      (password : Option (String × String)) (mustChangePassword : Bool)
  | delete (process : ℕ) (username : String)
  /-- `new` is the new password and its hash. -/
  | changeOwnPassword (process : ℕ) (username : String) (current : Option String)
      (new : String × String)
  /-- A request for a token; the role of its user is read. -/
  | requestToken (process : ℕ) (username name : String) (scopes : List String)
  | deleteToken (process : ℕ) (username id : String)
  /-- The next statement of a call. -/
  | next (call : ℕ)
  /-- The insertion of a token. -/
  | insertToken (call : ℕ) (id secret : String)
  /-- A statement fails, or the process of the call ends. -/
  | abort (call : ℕ)

/-- No call holds the lock of a process. -/
def free (s : Processes) (process : ℕ) : Bool :=
  s.calls.all fun call => call.process ≠ process ∨ ¬call.stage.locks

/-- A call begins. -/
def begin (s : Processes) (process : ℕ) (stage : UserStage) : Processes :=
  { s with calls := s.calls ++ [⟨process, stage⟩] }

/-- A call is further. -/
def put (s : Processes) (i : ℕ) (call : UserCall) (stage : UserStage) : Processes :=
  { s with calls := s.calls.set i { call with stage := stage } }

/-- A user is created. -/
def create (s : Processes) (username password hash : String) (role : Role)
    (mustChangePassword : Bool) : Except UserError Processes := do
  validateUser username password
  let db ← s.db.insertUser username hash role mustChangePassword s.accounts
  .ok { s with db := db, accounts := s.accounts + 1 }

/-- The check of the current password, and of the new one. -/
def ownChecked (x : AuthCrates) (db : UserDb) (username : String) (current : Option String)
    (new : String × String) : Except UserError UserStage := do
  validateUser username new.1
  match db.users.get username with
  | none => .error (.noUser username)
  | some user =>
    UserDb.checkOwnPassword x user current new.1
    .ok (.ownChecked username new.2 user.sessionEpoch)

/-- Whether the user of a request has the role for scopes. -/
def mayGrant (db : UserDb) (username : String) (scopes : List String) : Bool :=
  (db.sessionState username).any fun state =>
    scopes.all fun scope => mcpScopeRole scope ≤ state.role

/-- What one statement or transaction does; an error leaves the database as it is. -/
def step (x : AuthCrates) (s : Processes) : Op → Option Processes
  | .create process username password hash role mustChangePassword =>
    if s.free process then
      some (match s.create username password hash role mustChangePassword with
        | .ok s => s
        | .error _ => s)
    else none
  | .update process username role password mustChangePassword =>
    if s.free process then
      some (match s.db.update username role password mustChangePassword with
        | .ok (db, _) => { s with db := db }
        | .error _ => s)
    else none
  | .delete process username =>
    if s.free process then
      some (s.begin process (.counted username (s.db.otherAdmins username)))
    else none
  | .changeOwnPassword process username current new =>
    if s.free process then
      some (match ownChecked x s.db username current new with
        | .ok stage => s.begin process stage
        | .error _ => s)
    else none
  | .requestToken process username name scopes =>
    if s.free process ∧ mayGrant s.db username scopes then
      some (s.begin process (.granted username name scopes))
    else none
  | .deleteToken process username id =>
    if s.free process then
      some (match s.db.deleteToken username id with
        | .ok db => { s with db := db }
        | .error _ => s)
    else none
  | .next i => do
    let call ← s.calls[i]?
    if call.stage.locks ∨ s.free call.process then
      let (db, stage) ← s.db.advance call.stage
      some ({ s with db := db }.put i call stage)
    else none
  | .insertToken i id secret => do
    match ← s.calls[i]? with
    | ⟨process, .found username name scopes⟩ =>
      let s := s.put i ⟨process, .found username name scopes⟩ .done
      some (match s.db.insertToken id username name (x.tokenHash secret) scopes with
        | some db => { s with db := db }
        | none => s)
    | _ => none
  | .abort i => do
    let call ← s.calls[i]?
    some (s.put i call .done)

variable {x : AuthCrates} {s t : Processes}

/-- What a creation does when it goes well. -/
theorem create_eq_ok {username password hash : String} {role : Role} {must : Bool}
    (h : s.create username password hash role must = .ok t) :
    validateUser username password = .ok () ∧ t.calls = s.calls ∧
      s.db.insertUser username hash role must s.accounts = .ok t.db := by
  unfold create at h
  cases hvalid : validateUser username password with
  | error e =>
    rw [hvalid] at h
    cases h
  | ok _ =>
    rw [hvalid] at h
    cases hinsert : s.db.insertUser username hash role must s.accounts with
    | error e =>
      simp only [bind, Except.bind, hinsert] at h
      cases h
    | ok db =>
      simp only [bind, Except.bind, hinsert] at h
      cases h
      exact ⟨rfl, rfl, rfl⟩

/-! ## An admin remains -/

/-- When a deletion deletes the row, it would still find that an admin remains. -/
def AdminRemains (s : Processes) (op : Op) : Prop :=
  ∀ i call username, op = .next i → s.calls[i]? = some call → call.stage = .checked username →
    s.db.ensureAdminRemains username none = .ok ()

/-- What the next statement of a call leaves, unless it is the one that deletes the row. -/
theorem hasAdmin_advance {db db' : UserDb} {stage stage' : UserStage} (h : db.HasAdmin)
    (hstage : ∀ username, stage ≠ .checked username)
    (ha : db.advance stage = some (db', stage')) : db'.HasAdmin := by
  cases stage with
  | counted username others =>
    cases ha
    exact h
  | checked username => exact absurd rfl (hstage username)
  | deleted username =>
    cases ha
    exact h
  | ownChecked username hash epoch =>
    simp only [UserDb.advance] at ha
    cases hw : db.writeOwnPassword username hash epoch with
    | error e =>
      rw [hw] at ha
      cases ha
      exact h
    | ok db₁ =>
      rw [hw] at ha
      cases ha
      exact UserDb.hasAdmin_writeOwnPassword h hw
  | granted username name scopes =>
    cases ha
    exact h
  | found username name scopes => cases ha
  | done => cases ha

/-- What the next statement of a call does. -/
theorem step_next_eq_some {i : ℕ} (h : step x s (.next i) = some t) :
    ∃ call db stage, s.calls[i]? = some call ∧ s.db.advance call.stage = some (db, stage) ∧
      t = { s with db := db }.put i call stage := by
  simp only [step, Option.bind_eq_bind, Option.bind_eq_some_iff] at h
  obtain ⟨call, hcall, h⟩ := h
  split_ifs at h
  obtain ⟨⟨db, stage⟩, hadvance, h⟩ := Option.bind_eq_some_iff.1 h
  exact ⟨call, db, stage, hcall, hadvance, (Option.some.inj h).symm⟩

/-- What the statement that stores a token does. -/
theorem step_insertToken_eq_some {i : ℕ} {id secret : String}
    (h : step x s (.insertToken i id secret) = some t) :
    ∃ call username name scopes, s.calls[i]? = some call ∧
      call.stage = .found username name scopes ∧
      ((s.db.insertToken id username name (x.tokenHash secret) scopes = none ∧
          t = s.put i call .done) ∨
        ∃ db, s.db.insertToken id username name (x.tokenHash secret) scopes = some db ∧
          t = { s.put i call .done with db := db }) := by
  simp only [step, Option.bind_eq_bind, Option.bind_eq_some_iff] at h
  obtain ⟨⟨process, stage⟩, hcall, h⟩ := h
  cases stage with
  | found username name scopes =>
    refine ⟨_, username, name, scopes, hcall, rfl, ?_⟩
    simp only [put] at h
    cases hinsert : s.db.insertToken id username name (x.tokenHash secret) scopes with
    | none =>
      rw [hinsert] at h
      exact .inl ⟨rfl, (Option.some.inj h).symm⟩
    | some db =>
      rw [hinsert] at h
      exact .inr ⟨db, rfl, (Option.some.inj h).symm⟩
  | _ => cases h

/-- A step that meets the condition leaves an administrator. -/
theorem hasAdmin_step {op : Op} (h : s.db.HasAdmin) (hop : AdminRemains s op)
    (hs : step x s op = some t) : t.db.HasAdmin := by
  cases op with
  | create process username password hash role must =>
    simp only [step] at hs
    split_ifs at hs
    obtain rfl := Option.some.inj hs
    cases hcreate : s.create username password hash role must with
    | error e => exact h
    | ok u => exact UserDb.hasAdmin_insertUser h (create_eq_ok hcreate).2.2
  | update process username role password must =>
    simp only [step] at hs
    split_ifs at hs
    obtain rfl := Option.some.inj hs
    cases hupdate : s.db.update username role password must with
    | error e => exact h
    | ok r => exact UserDb.hasAdmin_update h hupdate
  | delete process username =>
    simp only [step] at hs
    split_ifs at hs
    cases hs
    exact h
  | changeOwnPassword process username current new =>
    simp only [step] at hs
    split_ifs at hs
    obtain rfl := Option.some.inj hs
    cases ownChecked x s.db username current new with
    | error e => exact h
    | ok stage => exact h
  | requestToken process username name scopes =>
    simp only [step] at hs
    split_ifs at hs
    cases hs
    exact h
  | deleteToken process username id =>
    simp only [step] at hs
    split_ifs at hs
    obtain rfl := Option.some.inj hs
    cases hdelete : s.db.deleteToken username id with
    | error e => exact h
    | ok db =>
      obtain ⟨u, hu, hadmin⟩ := h
      exact ⟨u, by rwa [(UserDb.deleteToken_eq_ok hdelete).1], hadmin⟩
  | next i =>
    obtain ⟨call, db, stage, hcall, hadvance, rfl⟩ := step_next_eq_some hs
    by_cases hchecked : ∃ username, call.stage = .checked username
    · obtain ⟨username, hstage⟩ := hchecked
      rw [hstage] at hadvance
      cases hadvance
      exact (UserDb.hasAdmin_deleteUser_iff h).2 (hop i call username rfl hcall hstage)
    · exact hasAdmin_advance h (fun username hu => hchecked ⟨username, hu⟩) hadvance
  | insertToken i id secret =>
    obtain ⟨call, username, name, scopes, -, -, ⟨-, rfl⟩ | ⟨db, hinsert, rfl⟩⟩ :=
      step_insertToken_eq_some hs
    · exact h
    · obtain ⟨u, hu, hadmin⟩ := h
      exact ⟨u, by rwa [(UserDb.insertToken_eq_some hinsert).2.1], hadmin⟩
  | abort i =>
    simp only [step, Option.bind_eq_bind, Option.bind_eq_some_iff] at hs
    obtain ⟨call, -, hs⟩ := hs
    cases hs
    exact h

/-- A statement leaves an admin exactly if it is not a deletion whose check is out of date. -/
theorem hasAdmin_step_iff {op : Op} (h : s.db.HasAdmin) :
    (∀ t, step x s op = some t → t.db.HasAdmin) ↔ AdminRemains s op := by
  constructor
  · rintro hall i ⟨process, stage⟩ username rfl hcall rfl
    rw [← UserDb.hasAdmin_deleteUser_iff h]
    refine hall ({ s with db := s.db.deleteUser username }.put i ⟨process, .checked username⟩
      (if (s.db.users.get username).isSome then .deleted username else .done)) ?_
    simp only [step, hcall, Option.bind_eq_bind, Option.bind_some]
    rfl
  · intro hop t hs
    exact hasAdmin_step h hop hs

/-- **An admin remains**: from any database with an admin, and with any calls in progress, there is
an admin at every moment exactly if every deletion would find, at the moment at which it deletes the
row, that one remains. -/
theorem hasAdmin_iff (x : AuthCrates) {s : Processes} (h : s.db.HasAdmin) (ops : List Op) :
    Machine.Meets (step x) (fun s op => ∀ t, step x s op = some t → t.db.HasAdmin) s ops ↔
      Machine.Meets (step x) AdminRemains s ops :=
  Machine.meets_iff_of_invariant (I := fun s => s.db.HasAdmin) (P := fun _ => True)
    (fun _ _ hs _ => hasAdmin_step_iff hs) (fun _ _ t _ _ hC hstep => hC t hstep)
    (fun _ _ => trivial) h

/-- The crates of the examples. -/
def plainCrates : AuthCrates := ⟨fun hash password => hash = password, id⟩

/-- Two admins, and no calls. -/
def twoAdmins : Processes where
  db := { users := ⟨[
    { username := "alice", passwordHash := "alice's", role := .admin, account := 0 },
                     { username := "bob", passwordHash := "bob's", role := .admin, account := 1 }],
                    by decide⟩ }
  accounts := 2

/-- The gateway deletes one admin, the command line the other. -/
def bothDeleted : List Op :=
  [.delete 0 "alice", .delete 1 "bob", .next 0, .next 1, .next 0, .next 1]

/-- Whether there is an administrator can be decided. -/
instance (db : UserDb) : Decidable db.HasAdmin :=
  inferInstanceAs (Decidable (∃ u ∈ db.users.rows, u.role = .admin))

/-- The equivalence for two administrators who are deleted at once. -/
theorem hasAdmin_iff_twoAdmins :
    Machine.Meets (step plainCrates) (fun s op => ∀ t, step plainCrates s op = some t →
        t.db.HasAdmin) twoAdmins bothDeleted ↔
      Machine.Meets (step plainCrates) AdminRemains twoAdmins bothDeleted :=
  hasAdmin_iff plainCrates (s := twoAdmins) (by decide) bothDeleted

/-- Both deletions find that the other admin remains, and then nobody is left. -/
theorem admins_delete_each_other :
    twoAdmins.db.HasAdmin ∧ ∃ t, Machine.run (step plainCrates) twoAdmins bothDeleted = some t ∧
      ¬t.db.HasAdmin := by
  refine ⟨by decide, ?_⟩
  have hrun : (Machine.run (step plainCrates) twoAdmins bothDeleted).map
      (fun t => decide t.db.HasAdmin) = some false := by decide +kernel
  obtain ⟨t, ht, hnone⟩ := Option.map_eq_some_iff.1 hrun
  exact ⟨t, ht, of_decide_eq_false hnone⟩

/-! ## Tokens and roles -/

/-- The user of a token exists, as the account it was made for, and has had at every moment since
the role that each of its scopes needs. -/
def Sound (db : UserDb) (token : ApiToken) : Prop :=
  ∃ user, db.users.get token.username = some user ∧ token.account = some user.account ∧
    token.least ≤ user.role ∧ ∀ scope ∈ token.scopes, mcpScopeRole scope ≤ token.least

/-- A user is gone, and the call that deleted the row is about to delete the tokens. -/
def Leaving (s : Processes) (username : String) : Prop :=
  s.db.users.get username = none ∧ ∃ call ∈ s.calls, call.stage = .deleted username

/-- A token is sound, or about to be deleted with its user. -/
def LawfulToken (s : Processes) (token : ApiToken) : Prop :=
  Sound s.db token ∨ s.Leaving token.username

/-- All tokens are lawful. -/
def Lawful (s : Processes) : Prop := ∀ token ∈ s.db.tokens.rows, s.LawfulToken token

/-- The steps that keep the law: a user is created when no token of the name is left, a token is
inserted when its user has the role for its scopes, and a deletion does not end between its last two
statements with a token left. -/
def Lasting (s : Processes) : Op → Prop
  | .create process username password _ _ _ =>
    s.free process → validateUser username password = .ok () → s.db.users.get username = none →
      ∀ token ∈ s.db.tokens.rows, token.username ≠ username
  | .insertToken i id _ =>
    ∀ call username name scopes, s.calls[i]? = some call →
      call.stage = .found username name scopes → s.db.tokens.get id = none →
        mayGrant s.db username scopes ∨ s.Leaving username
  | .abort i =>
    ∀ call username, s.calls[i]? = some call → call.stage = .deleted username →
      s.db.users.get username = none → (∃ token ∈ s.db.tokens.rows, token.username = username) →
        Machine.Others s.calls i (·.stage = .deleted username)
  | _ => True

/-- What does not touch the user of a token keeps the law for it. -/
theorem lawfulToken_of {token : ApiToken} (h : s.LawfulToken token)
    (hrow : (t.db.users.get token.username).map (fun u => (u.account, u.role)) =
      (s.db.users.get token.username).map fun u => (u.account, u.role))
    (hcalls : (∃ call ∈ s.calls, call.stage = .deleted token.username) →
      ∃ call ∈ t.calls, call.stage = .deleted token.username) : t.LawfulToken token := by
  rcases h with ⟨user, huser, haccount, hleast, hscopes⟩ | ⟨hnone, hcall⟩
  · rw [huser, Option.map_some, Option.map_eq_some_iff] at hrow
    obtain ⟨u, hu, heq⟩ := hrow
    obtain ⟨hacc, hrole⟩ := Prod.mk.inj heq
    exact .inl ⟨u, hu, hacc ▸ haccount, hrole ▸ hleast, hscopes⟩
  · rw [hnone, Option.map_none, Option.map_eq_none_iff] at hrow
    exact .inr ⟨hrow, hcalls hcall⟩

/-- A call that begins changes nothing for the tokens. -/
theorem lawful_begin {process : ℕ} {stage : UserStage} (h : s.Lawful) :
    (s.begin process stage).Lawful := by
  intro token ht
  refine lawfulToken_of (h token ht) rfl ?_
  rintro ⟨call, hcall, hstage⟩
  exact ⟨call, List.mem_append_left _ hcall, hstage⟩

/-- Deletions in progress, when another call is further. -/
theorem exists_deleted_put {i : ℕ} {call : UserCall} {stage : UserStage} {username : String}
    (hi : s.calls[i]? = some call)
    (hstage : call.stage = .deleted username → stage = .deleted username)
    (h : ∃ c ∈ s.calls, c.stage = .deleted username) :
    ∃ c ∈ (s.put i call stage).calls, c.stage = .deleted username := by
  refine (Machine.exists_mem_set_iff hi { call with stage := stage }
    (·.stage = .deleted username)).2 ?_
  rcases (Machine.exists_mem_iff hi _).1 h with h | h
  · exact .inl (hstage h)
  · exact .inr h

/-- A new user keeps the tokens lawful. -/
theorem lawful_create {username password hash : String} {role : Role} {must : Bool} (h : s.Lawful)
    (hleft : ∀ token ∈ s.db.tokens.rows, token.username ≠ username)
    (hc : s.create username password hash role must = .ok t) : t.Lawful := by
  obtain ⟨-, hcalls, hinsert⟩ := create_eq_ok hc
  obtain ⟨-, htokens, hrows⟩ := UserDb.insertUser_eq_ok hinsert
  intro token ht
  rw [htokens] at ht
  refine lawfulToken_of (h token ht) ?_ fun hcall => by rwa [hcalls]
  rw [hrows, if_neg (hleft token ht)]

/-- A change of a user keeps them lawful. -/
theorem lawful_update {username : String} {role : Option Role}
    {password : Option (String × String)} {must : Bool} {db : UserDb} {changes : List String}
    (h : s.Lawful) (hu : s.db.update username role password must = .ok (db, changes)) :
    Lawful { s with db := db } := by
  obtain ⟨user, huser, -, hrows, htokens⟩ := UserDb.update_eq_ok hu
  obtain ⟨-, hname⟩ := UniqueTable.get_eq_some_iff.1 huser
  intro token ht
  obtain ⟨old, hold, rfl⟩ := htokens token ht
  by_cases hown : old.username = username
  · -- the user exists, so the token was sound
    rcases h old hold with ⟨u, hu, haccount, hleast, hscopes⟩ | ⟨hnone, -⟩
    · rw [hown, huser] at hu
      obtain rfl := Option.some.inj hu
      have hrow := hrows username
      rw [huser, Option.map_some, if_pos hname, ← hown] at hrow
      refine .inl ?_
      cases role with
      | none => exact ⟨_, hrow, haccount, hleast, hscopes⟩
      | some r =>
        simp only [UserDb.aged, if_pos (hown.trans hname.symm), if_pos haccount]
        refine ⟨_, hrow, haccount, min_le_right old.least r, ?_⟩
        dsimp only
        split_ifs with hr
        · intro scope hscope
          cases hscope
        · intro scope hscope
          have hr : Role.admin ≤ r := not_lt.1 hr
          exact le_min (hscopes scope hscope) ((Role.le_admin _).trans hr)
    · rw [hown, huser] at hnone
      cases hnone
  · have hsame : UserDb.aged user role old = old := by
      cases role with
      | none => rfl
      | some r => exact if_neg fun heq => hown (heq.trans hname)
    rw [hsame]
    refine lawfulToken_of (h old hold) ?_ id
    have hrow := hrows old.username
    cases hget : s.db.users.get old.username with
    | none =>
      rw [hget] at hrow
      exact congrArg _ hrow
    | some u =>
      obtain ⟨-, hu⟩ := UniqueTable.get_eq_some_iff.1 hget
      rw [hget, Option.map_some, if_neg (hu ▸ hown)] at hrow
      exact congrArg _ hrow

/-- Where a deletion was, it is after it deleted the row. -/
theorem lawful_deleteUser {i : ℕ} {call : UserCall} {username : String} (h : s.Lawful)
    (hi : s.calls[i]? = some call) (hstage : call.stage = .checked username) :
    ({ s with db := s.db.deleteUser username }.put i call
      (if (s.db.users.get username).isSome then .deleted username else .done)).Lawful := by
  intro token ht
  have hkeep : ∀ name stage, (∃ c ∈ s.calls, c.stage = .deleted name) →
      ∃ c ∈ (s.put i call stage).calls, c.stage = .deleted name := fun name stage hcall =>
    exists_deleted_put hi (fun hdel => by rw [hstage] at hdel; cases hdel) hcall
  by_cases hown : token.username = username
  · refine .inr ⟨?_, ?_⟩
    · exact (UserDb.get_deleteUser s.db username token.username).trans (if_pos hown)
    · rcases h token ht with ⟨user, huser, -⟩ | ⟨-, hcall⟩
      · rw [← hown, huser]
        refine (Machine.exists_mem_set_iff hi _ (·.stage = .deleted token.username)).2 (.inl ?_)
        rfl
      · exact hkeep _ _ hcall
  · refine lawfulToken_of (h token ht) ?_ (hkeep _ _)
    exact congrArg _ ((UserDb.get_deleteUser s.db username token.username).trans (if_neg hown))

/-- The deletion of a user's tokens keeps them lawful. -/
theorem lawful_deleteTokens {i : ℕ} {call : UserCall} {username : String} (h : s.Lawful)
    (hi : s.calls[i]? = some call) (hstage : call.stage = .deleted username) :
    ({ s with db := s.db.deleteTokens username }.put i call .done).Lawful := by
  intro token ht
  obtain ⟨ht, hother⟩ := UserDb.mem_deleteTokens.1 ht
  refine lawfulToken_of (h token ht) rfl fun hcall => ?_
  refine exists_deleted_put hi (fun hdel => ?_) hcall
  rw [hstage] at hdel
  exact absurd (UserStage.deleted.inj hdel).symm hother

/-- A user's own change of password keeps them lawful. -/
theorem lawful_writeOwnPassword {username hash : String} {epoch : ℕ} {db : UserDb} (h : s.Lawful)
    (hw : s.db.writeOwnPassword username hash epoch = .ok db) : Lawful { s with db := db } := by
  obtain ⟨-, htokens, hrows⟩ := UserDb.writeOwnPassword_eq_ok hw
  intro token ht
  rw [htokens] at ht
  refine lawfulToken_of (h token ht) ?_ id
  rw [hrows, Option.map_map]
  congr 1
  funext u
  simp only [Function.comp_apply]
  split_ifs
  · rfl
  · rfl

/-- A call that is further, and was not between the last two statements of a deletion. -/
theorem lawful_put {i : ℕ} {call : UserCall} {stage : UserStage} (h : s.Lawful)
    (hi : s.calls[i]? = some call) (hstage : ∀ username, call.stage ≠ .deleted username) :
    (s.put i call stage).Lawful := fun token ht =>
  lawfulToken_of (h token ht) rfl
    (exists_deleted_put hi fun hdel => absurd hdel (hstage token.username))

/-- The next statement of a call keeps them lawful. -/
theorem lawful_next {i : ℕ} (h : s.Lawful) (hs : step x s (.next i) = some t) : t.Lawful := by
  obtain ⟨⟨process, stage⟩, db, stage', hi, hadvance, rfl⟩ := step_next_eq_some hs
  cases stage with
  | counted username others =>
    cases hadvance
    exact lawful_put h hi fun _ hdel => (nomatch hdel)
  | checked username =>
    cases hadvance
    exact lawful_deleteUser h hi rfl
  | deleted username =>
    cases hadvance
    exact lawful_deleteTokens h hi rfl
  | ownChecked username hash epoch =>
    simp only [UserDb.advance] at hadvance
    cases hw : s.db.writeOwnPassword username hash epoch with
    | error e =>
      rw [hw] at hadvance
      cases hadvance
      exact lawful_put h hi fun _ hdel => (nomatch hdel)
    | ok db₁ =>
      rw [hw] at hadvance
      cases hadvance
      exact lawful_put (lawful_writeOwnPassword h hw) hi fun _ hdel => (nomatch hdel)
  | granted username name scopes =>
    cases hadvance
    exact lawful_put h hi fun _ hdel => (nomatch hdel)
  | found username name scopes => cases hadvance
  | done => cases hadvance

/-- An inserted token is lawful exactly if its user has the role for its scopes, or is about to
leave with it. -/
theorem lawful_insertToken_iff {i : ℕ} {call : UserCall} {id username name hash : String}
    {scopes : List String} {db : UserDb} (h : s.Lawful) (hi : s.calls[i]? = some call)
    (hstage : call.stage = .found username name scopes)
    (hinsert : s.db.insertToken id username name hash scopes = some db) :
    Lawful { s.put i call .done with db := db } ↔
      mayGrant s.db username scopes ∨ s.Leaving username := by
  obtain ⟨-, husers, htokens⟩ := UserDb.insertToken_eq_some hinsert
  have hdeleted : ∀ u, (∃ c ∈ (s.put i call .done).calls, c.stage = .deleted u) ↔
      ∃ c ∈ s.calls, c.stage = .deleted u := by
    intro u
    refine ((Machine.exists_mem_set_iff hi { call with stage := .done }
      (·.stage = .deleted u)).trans ?_).trans (Machine.exists_mem_iff hi _).symm
    refine or_congr_left ⟨fun hdel => (nomatch hdel), fun hdel => ?_⟩
    rw [hstage] at hdel
    cases hdel
  have hnew : ∀ token : ApiToken, token.username = username → token.scopes = scopes →
      token.account = (s.db.users.get username).map (·.account) →
      token.least = ((s.db.users.get username).map (·.role)).getD .auditor →
      (LawfulToken { s.put i call .done with db := db } token ↔
        mayGrant s.db username scopes ∨ s.Leaving username) := by
    intro token hname hscopes haccount hleast
    subst hname hscopes
    unfold LawfulToken Sound Leaving mayGrant UserDb.sessionState
    rw [husers]
    refine or_congr ?_ (and_congr_right fun _ => hdeleted _)
    cases hget : s.db.users.get token.username with
    | none => simp
    | some user =>
      rw [hget] at haccount hleast
      have haccount : token.account = some user.account := haccount
      have hleast : token.least = user.role := hleast
      simp [haccount, hleast]
  constructor
  · intro hlawful
    exact (hnew _ rfl rfl rfl rfl).1 (hlawful _ ((htokens _).2 (.inr rfl)))
  · rintro hgranted token ht
    rcases (htokens token).1 ht with hold | rfl
    · refine lawfulToken_of (h token hold) ?_ (hdeleted _).2
      exact congrArg _ (by rw [husers])
    · exact (hnew _ rfl rfl rfl rfl).2 hgranted

/-- A call that ends is lawful exactly if it leaves no token of a user it deleted. -/
theorem lawful_abort_iff {i : ℕ} {call : UserCall} (h : s.Lawful) (hi : s.calls[i]? = some call) :
    (s.put i call .done).Lawful ↔ ∀ username, call.stage = .deleted username →
      s.db.users.get username = none → (∃ token ∈ s.db.tokens.rows, token.username = username) →
        Machine.Others s.calls i (·.stage = .deleted username) := by
  have hdeleted : ∀ u, (∃ c ∈ (s.put i call .done).calls, c.stage = .deleted u) ↔
      Machine.Others s.calls i (·.stage = .deleted u) := by
    intro u
    refine (Machine.exists_mem_set_iff hi { call with stage := .done } (·.stage = .deleted u)).trans
      ⟨fun hdel => ?_, .inr⟩
    rcases hdel with hdel | hdel
    · cases hdel
    · exact hdel
  constructor
  · rintro hlawful username - hnone ⟨token, ht, rfl⟩
    rcases hlawful token ht with ⟨user, huser, -⟩ | ⟨-, hcall⟩
    · have huser : s.db.users.get token.username = some user := huser
      rw [hnone] at huser
      cases huser
    · exact (hdeleted _).1 hcall
  · intro hothers token ht
    rcases h token ht with hsound | ⟨hnone, hcall⟩
    · exact .inl hsound
    · refine .inr ⟨hnone, (hdeleted _).2 ?_⟩
      rcases (Machine.exists_mem_iff hi _).1 hcall with hdel | hdel
      · exact hothers token.username hdel hnone ⟨token, ht, rfl⟩
      · exact hdel

/-- Every step keeps the tokens lawful. -/
theorem lawful_step {op : Op} (h : s.Lawful) (hop : Lasting s op) (hs : step x s op = some t) :
    t.Lawful := by
  cases op with
  | create process username password hash role must =>
    simp only [step] at hs
    split_ifs at hs with hfree
    obtain rfl := Option.some.inj hs
    cases hcreate : s.create username password hash role must with
    | error e => exact h
    | ok u =>
      obtain ⟨hvalid, -, hinsert⟩ := create_eq_ok hcreate
      exact lawful_create h (hop hfree hvalid (UserDb.insertUser_eq_ok hinsert).1) hcreate
  | update process username role password must =>
    simp only [step] at hs
    split_ifs at hs
    obtain rfl := Option.some.inj hs
    cases hupdate : s.db.update username role password must with
    | error e => exact h
    | ok r => exact lawful_update h hupdate
  | delete process username =>
    simp only [step] at hs
    split_ifs at hs
    cases hs
    exact lawful_begin h
  | changeOwnPassword process username current new =>
    simp only [step] at hs
    split_ifs at hs
    obtain rfl := Option.some.inj hs
    cases ownChecked x s.db username current new with
    | error e => exact h
    | ok stage => exact lawful_begin h
  | requestToken process username name scopes =>
    simp only [step] at hs
    split_ifs at hs
    cases hs
    exact lawful_begin h
  | deleteToken process username id =>
    simp only [step] at hs
    split_ifs at hs
    obtain rfl := Option.some.inj hs
    cases hdelete : s.db.deleteToken username id with
    | error e => exact h
    | ok db =>
      obtain ⟨husers, htokens⟩ := UserDb.deleteToken_eq_ok hdelete
      intro token ht
      refine lawfulToken_of (h token (htokens token ht)) ?_ fun hcall => hcall
      exact congrArg _ (by rw [husers])
  | next i => exact lawful_next h hs
  | insertToken i id secret =>
    obtain ⟨call, username, name, scopes, hi, hstage, ⟨-, rfl⟩ | ⟨db, hinsert, rfl⟩⟩ :=
      step_insertToken_eq_some hs
    · exact lawful_put h hi fun _ hdel => (nomatch hstage.symm.trans hdel)
    · refine (lawful_insertToken_iff h hi hstage hinsert).2 ?_
      exact hop call username name scopes hi hstage (UserDb.insertToken_eq_some hinsert).1
  | abort i =>
    simp only [step, Option.bind_eq_bind, Option.bind_eq_some_iff] at hs
    obtain ⟨call, hi, hs⟩ := hs
    cases hs
    exact (lawful_abort_iff h hi).2 fun username => hop call username hi

/-- **Scopes do not outlive the role**: in every run whose steps last, every token is sound in every
state that is reached, or its user is gone and the deletion is about to delete the token. -/
theorem lawful_of_run {ops : List Op} (h : s.Lawful) (hops : Machine.Meets (step x) Lasting s ops)
    (hr : Machine.run (step x) s ops = some t) : t.Lawful :=
  Machine.run_invariant_of_meets (I := Lawful) (fun _ _ _ hs hop ht => lawful_step hs hop ht) h
    hops hr

/-- A request through MCP has only scopes that its user has the role for. -/
theorem mcpScopeRole_le_of_authenticate {secret : String} {user : TokenUser} (h : s.Lawful)
    (hu : s.db.authenticate x secret = some user) :
    ∀ scope ∈ user.scopes, mcpScopeRole scope ≤ user.role := by
  simp only [UserDb.authenticate, UserDb.verifyToken, UserDb.sessionState, Option.bind_eq_bind,
    Option.bind_eq_some_iff, Option.map_eq_some_iff, Option.filter_eq_some_iff] at hu
  obtain ⟨⟨username, scopes⟩, ⟨token, ⟨⟨id, -, hget⟩, -⟩, heq⟩, state, ⟨row, hrow, rfl⟩, hu⟩ := hu
  obtain ⟨rfl, rfl⟩ := Prod.mk.inj heq
  split_ifs at hu
  obtain rfl := Option.some.inj hu
  have ht := (UniqueTable.get_eq_some_iff.1 hget).1
  intro scope hscope
  rcases h token ht with ⟨u, huser, -, hleast, hscopes⟩ | ⟨hnone, -⟩
  · rw [huser] at hrow
    obtain rfl := Option.some.inj hrow
    exact (hscopes scope (List.mem_filter.1 hscope).1).trans hleast
  · rw [hnone] at hrow
    cases hrow

/-- Bob makes a token. -/
def tokenMade : List Op :=
  [.requestToken 0 "bob" "script" ["targets"], .next 0, .insertToken 0 "1" "gwt_1_secret"]

/-- A run in which a token is made. -/
theorem lawful_of_run_twoAdmins :
    ∃ t, Machine.run (step plainCrates) twoAdmins tokenMade = some t ∧ t.Lawful := by
  have hlawful : twoAdmins.Lawful := fun token ht => (nomatch ht)
  have hmeets : Machine.Meets (step plainCrates) Lasting twoAdmins tokenMade := by
    refine ⟨trivial, fun u hu => ⟨trivial, fun v hv => ⟨?_, fun _ _ => trivial⟩⟩⟩
    obtain rfl := Option.some.inj hu
    obtain rfl := Option.some.inj hv
    intro call username name scopes hi hstage _
    obtain rfl := Option.some.inj hi
    cases hstage
    exact .inl (by decide +kernel)
  have hsome : (Machine.run (step plainCrates) twoAdmins tokenMade).isSome = true := by
    decide +kernel
  obtain ⟨t, hr⟩ := Option.isSome_iff_exists.1 hsome
  exact ⟨t, hr, lawful_of_run hlawful hmeets hr⟩

/-- The scopes with which a request acts, and the role of its user. -/
def grants (t : Processes) (secret : String) : Option (Role × List String) :=
  (t.db.authenticate plainCrates secret).map fun user => (user.role, user.scopes)

/-- A token that is inserted after its user was demoted has a scope that the user may not use. A
token that was left when the process of a deletion ended is the next account's of that name. -/
theorem tokens_outlive_role :
    (∃ t, Machine.run (step plainCrates) twoAdmins
        [.requestToken 0 "bob" "script" ["targets"],
          .update 0 "bob" (some .auditor) none false, .next 0,
          .insertToken 0 "1" "gwt_1_secret"] = some t ∧
      t.grants "gwt_1_secret" = some (.auditor, ["targets"])) ∧
    ∃ t, Machine.run (step plainCrates) twoAdmins
        (tokenMade ++ [.delete 1 "bob", .next 1, .next 1, .abort 1,
          .create 2 "bob" "password" "password" .auditor false]) = some t ∧
      t.grants "gwt_1_secret" = some (.auditor, ["targets"]) := by
  have hdemoted : (Machine.run (step plainCrates) twoAdmins
      [.requestToken 0 "bob" "script" ["targets"], .update 0 "bob" (some .auditor) none false,
        .next 0, .insertToken 0 "1" "gwt_1_secret"]).map (grants · "gwt_1_secret") =
      some (some (.auditor, ["targets"])) := by decide +kernel
  have hrecreated : (Machine.run (step plainCrates) twoAdmins
      (tokenMade ++ [.delete 1 "bob", .next 1, .next 1, .abort 1,
        .create 2 "bob" "password" "password" .auditor false])).map (grants · "gwt_1_secret") =
      some (some (.auditor, ["targets"])) := by decide +kernel
  exact ⟨Option.map_eq_some_iff.1 hdemoted, Option.map_eq_some_iff.1 hrecreated⟩

/-! ## The row of a user -/

/-- What a statement may do to the row of a user: leave it as it is, delete it, change it with a
later epoch, or insert it if `Created`. -/
inductive RowStep (Created : Prop) : Option User → Option User → Prop
  | same (row) : RowStep Created row row
  | deleted (row) : RowStep Created row none
  | changed {u v : User} (epoch : u.sessionEpoch < v.sessionEpoch) :
    RowStep Created (some u) (some v)
  | created (created : Created) (u) : RowStep Created none (some u)

/-- A user is created of whom there is no row. -/
def Creates (s : Processes) (op : Op) (name : String) : Prop :=
  s.db.users.get name = none ∧ ∃ process password hash role must,
    op = .create process name password hash role must ∧ s.free process ∧
      validateUser name password = .ok ()

/-- What the next statement of a call does to one row. -/
theorem rowStep_advance {Created : Prop} {db db' : UserDb} {stage stage' : UserStage}
    (h : db.advance stage = some (db', stage')) (name : String) :
    RowStep Created (db.users.get name) (db'.users.get name) := by
  cases stage with
  | counted username others =>
    cases h
    exact .same _
  | checked username =>
    cases h
    rw [UserDb.get_deleteUser]
    split_ifs
    · exact .deleted _
    · exact .same _
  | deleted username =>
    cases h
    exact .same _
  | ownChecked username hash epoch =>
    simp only [UserDb.advance] at h
    cases hw : db.writeOwnPassword username hash epoch with
    | error e =>
      rw [hw] at h
      cases h
      exact .same _
    | ok db₁ =>
      rw [hw] at h
      cases h
      rw [(UserDb.writeOwnPassword_eq_ok hw).2.2]
      cases db.users.get name with
      | none => exact .same _
      | some u =>
        rw [Option.map_some]
        split_ifs
        · exact .changed (Nat.lt_succ_self u.sessionEpoch)
        · exact .same _
  | granted username name scopes =>
    cases h
    exact .same _
  | found username name scopes => cases h
  | done => cases h

/-- Only `create` inserts a row, and what changes a row ends the sessions of its user. -/
theorem rowStep_of_step {op : Op} (hs : step x s op = some t) (name : String) :
    RowStep (Creates s op name) (s.db.users.get name) (t.db.users.get name) := by
  cases op with
  | create process username password hash role must =>
    simp only [step] at hs
    split_ifs at hs with hfree
    obtain rfl := Option.some.inj hs
    cases hcreate : s.create username password hash role must with
    | error e => exact .same _
    | ok u =>
      obtain ⟨hvalid, -, hinsert⟩ := create_eq_ok hcreate
      obtain ⟨hnone, -, hrows⟩ := UserDb.insertUser_eq_ok hinsert
      dsimp only
      rw [hrows]
      split_ifs with hname
      · subst hname
        rw [hnone]
        exact .created ⟨hnone, process, password, hash, role, must, rfl, hfree, hvalid⟩ _
      · exact .same _
  | update process username role password must =>
    simp only [step] at hs
    split_ifs at hs
    obtain rfl := Option.some.inj hs
    cases hupdate : s.db.update username role password must with
    | error e => exact .same _
    | ok r =>
      obtain ⟨user, huser, -, hrows, -⟩ := UserDb.update_eq_ok hupdate
      dsimp only
      rw [hrows]
      cases s.db.users.get name with
      | none => exact .same _
      | some u =>
        rw [Option.map_some]
        split_ifs
        · exact .changed (Nat.lt_succ_self u.sessionEpoch)
        · exact .same _
  | delete process username =>
    simp only [step] at hs
    split_ifs at hs
    cases hs
    exact .same _
  | changeOwnPassword process username current new =>
    simp only [step] at hs
    split_ifs at hs
    obtain rfl := Option.some.inj hs
    cases ownChecked x s.db username current new with
    | error e => exact .same _
    | ok stage => exact .same _
  | requestToken process username name' scopes =>
    simp only [step] at hs
    split_ifs at hs
    cases hs
    exact .same _
  | deleteToken process username id =>
    simp only [step] at hs
    split_ifs at hs
    obtain rfl := Option.some.inj hs
    cases hdelete : s.db.deleteToken username id with
    | error e => exact .same _
    | ok db =>
      dsimp only
      rw [(UserDb.deleteToken_eq_ok hdelete).1]
      exact .same _
  | next i =>
    obtain ⟨call, db, stage, -, hadvance, rfl⟩ := step_next_eq_some hs
    exact rowStep_advance hadvance name
  | insertToken i id secret =>
    obtain ⟨call, username, name', scopes, -, -, ⟨-, rfl⟩ | ⟨db, hinsert, rfl⟩⟩ :=
      step_insertToken_eq_some hs
    · exact .same _
    · dsimp only
      rw [(UserDb.insertToken_eq_some hinsert).2.1]
      exact .same _
  | abort i =>
    simp only [step, Option.bind_eq_bind, Option.bind_eq_some_iff] at hs
    obtain ⟨call, -, hs⟩ := hs
    cases hs
    exact .same _

end Processes

end AuditGateway
