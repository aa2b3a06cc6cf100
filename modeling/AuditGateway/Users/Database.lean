import Mathlib.Data.List.Dedup
import Mathlib.Order.Basic
import AuditGateway.Config.Target
import AuditGateway.Lib.UniqueTable

set_option relaxedAutoImplicit false
set_option autoImplicit false

/-!
# The user database

Users with their roles and passwords, and the API tokens that act for them through MCP. The
functions here are the statements and transactions on the database; what a call does in several
statements is put together elsewhere, since other processes come in between.

A user carries the number of its account, which is not used again when the name is, and a token the
account it was made for and the least role that this has had since; these are for the statements
only.

## Main definitions

* `Role`, `User`, `ApiToken`, `UserDb` — the two tables.
* `UserDb.ensureAdminRemains`, `UserDb.update` — the check for the last admin, and the transaction
  that changes role and password.
* `UserDb.verify`, `UserDb.sessionState`, `UserDb.verifyToken` — what logins and requests read.

## Main results

* `UserDb.update_eq_ok` — what the transaction leaves behind.
* `UserDb.hasAdmin_update`, `UserDb.hasAdmin_deleteUser_iff` — when an admin remains.
-/

namespace AuditGateway

/-- Roles are cumulative: an admin can do everything an operator can, and an operator everything an
auditor can. -/
inductive Role
  | auditor
  | operator
  | admin
  deriving DecidableEq

namespace Role

/-- The rank of a role. -/
def rank : Role → ℕ
  | .auditor => 0
  | .operator => 1
  | .admin => 2

/-- Roles are told apart by their ranks. -/
theorem rank_injective : Function.Injective rank := by
  intro a b h
  cases a <;> cases b <;> first | rfl | cases h

/-- Roles in the order of their ranks. -/
instance : LinearOrder Role := LinearOrder.lift' rank rank_injective

/-- A role is at most another one if its rank is. -/
theorem le_def {a b : Role} : a ≤ b ↔ a.rank ≤ b.rank := Iff.rfl

/-- No role is above the administrator. -/
theorem le_admin (role : Role) : role ≤ .admin := by
  cases role <;> decide

/-- The name of a role. -/
def asStr : Role → String
  | .auditor => "auditor"
  | .operator => "operator"
  | .admin => "admin"

end Role

/-- What a token may change through MCP. -/
def mcpScopes : List String := ["targets", "certificates", "settings", "alarms"]

/-- The role a token's user needs for a scope: the same as in the web UI (operators acknowledge
alarms; the rest is configuration, for admins). -/
def mcpScopeRole (scope : String) : Role := if scope = "alarms" then .operator else .admin

/-- A row of the table of users. -/
structure User where
  username : String
  passwordHash : String
  role : Role
  /-- Bumped by every change of password or role: older sessions end. -/
  sessionEpoch : ℕ := 0
  /-- Set for passwords someone else chose: the user must choose a new one before doing anything
  else. -/
  mustChangePassword : Bool := false
  account : ℕ
  deriving DecidableEq

/-- A row of the table of tokens. -/
structure ApiToken where
  id : String
  username : String
  name : String
  hash : String
  scopes : List String := []
  /-- The account that had the user name when the token was made. -/
  account : Option ℕ
  /-- The least role that this account has had since. -/
  least : Role
  deriving DecidableEq

/-- What a web session needs to know about its user on every request. -/
structure SessionState where
  role : Role
  epoch : ℕ
  mustChangePassword : Bool

/-- The database of users. -/
structure UserDb where
  users : UniqueTable User (·.username) := .empty _
  tokens : UniqueTable ApiToken (·.id) := .empty _

/-- The functions of other crates for passwords and secrets. -/
structure AuthCrates where
  /-- Whether a password is the one of a hash. -/
  verifyPassword : String → String → Bool
  tokenHash : String → String

/-- Why a change is refused. -/
inductive UserError
  | badName
  | passwordLength
  | alreadyExists (username : String)
  | noUser (username : String)
  | lastAdmin (username : String)
  | nothingToChange
  | wrongPassword
  | passwordNeeded
  | samePassword
  | changedMeanwhile
  | tokenName
  | unknownScope (scope : String)
  | noToken
  deriving DecidableEq

/-- The text of an error. -/
def UserError.message : UserError → String
  | .badName => "user names use letters, digits and . _ - @ (max. 64)"
  | .passwordLength => "passwords need at least 8 characters"
  | .alreadyExists username => "user '" ++ username ++ "' already exists"
  | .noUser username => "no user '" ++ username ++ "'"
  | .lastAdmin username => "'" ++ username ++ "' is the last admin"
  | .nothingToChange => "nothing to change"
  | .wrongPassword => "the current password is wrong"
  | .passwordNeeded => "the current password is needed"
  | .samePassword => "choose a password other than the current one"
  | .changedMeanwhile => "the password was changed meanwhile; log in again"
  | .tokenName => "a token needs a name of 1 to 64 characters"
  | .unknownScope scope => "unknown scope '" ++ scope ++ "'"
  | .noToken => "no such token"

/-- Characters of user names. -/
def isNameChar (c : Char) : Bool := c.isAlphanum || c ∈ ['.', '_', '-', '@']

/-- The least number of characters of a password. -/
def minPasswordLength : ℕ := 8

/-- What is demanded of a user name and a password. -/
def validateUser (username password : String) : Except UserError Unit :=
  if username = "" ∨ 64 < username.utf8ByteSize ∨ ¬username.toList.all isNameChar then
    .error .badName
  else if password.length < minPasswordLength then .error .passwordLength
  else .ok ()

namespace UserDb

/-! ## Users -/

/-- `INSERT OR IGNORE` of a user. -/
def insertUser (db : UserDb) (username hash : String) (role : Role) (mustChangePassword : Bool)
    (account : ℕ) : Except UserError UserDb :=
  match db.users.insert? { username, passwordHash := hash, role, mustChangePassword, account } with
  | some users => .ok { db with users := users }
  | none => .error (.alreadyExists username)

/-- How many other users are admins. -/
def otherAdmins (db : UserDb) (username : String) : ℕ :=
  (db.users.rows.filter fun u => u.role = .admin ∧ u.username ≠ username).length

/-- The user is an administrator. -/
def isAdmin (db : UserDb) (username : String) : Bool :=
  (db.users.get username).any fun u => u.role = .admin

/-- What the two answers of the database say. -/
def adminCheck (username : String) (otherAdmins : ℕ) (isAdmin : Bool) : Except UserError Unit :=
  if isAdmin ∧ otherAdmins = 0 then .error (.lastAdmin username) else .ok ()

/-- Refuses changes that would leave nobody able to administer the gateway. -/
def ensureAdminRemains (db : UserDb) (username : String) (newRole : Option Role) :
    Except UserError Unit :=
  if newRole = some .admin then .ok ()
  else adminCheck username (db.otherAdmins username) (db.isAdmin username)

/-- The tokens of a user that have a scope. -/
def hasScopes (username : String) (token : ApiToken) : Bool :=
  token.username = username ∧ token.scopes ≠ []

/-- The tokens of a user's account note its new role. -/
def noteRole (db : UserDb) (user : User) (role : Role) : UserDb :=
  { db with
    tokens := db.tokens.modify
      (fun token => token.username = user.username ∧ token.account = some user.account)
      (fun token => { token with least := min token.least role }) fun _ => rfl }

/-- The scopes of a user's tokens are cleared. -/
def clearScopes (db : UserDb) (username : String) : UserDb :=
  { db with tokens := db.tokens.modify (hasScopes username) ({ · with scopes := [] }) fun _ => rfl }

/-- The role of a user is set, and below admin the scopes of the tokens are cleared, so a later
promotion does not silently bring them back. -/
def setRole (db : UserDb) (user : User) (role : Role) : UserDb :=
  let db := { db with
    users := db.users.modify (·.username = user.username) ({ · with role := role }) fun _ => rfl }
  let db := db.noteRole user role
  if role < .admin then db.clearScopes user.username else db

/-- The password of a user is set. A reset by an admin also ends the user's API tokens: a
compromised account keeps none. -/
def setPassword (db : UserDb) (username hash : String) (mustChangePassword : Bool) : UserDb :=
  let users := db.users.modify (·.username = username)
    (fun u => { u with passwordHash := hash, mustChangePassword := mustChangePassword })
    fun _ => rfl
  if mustChangePassword then
    { users := users, tokens := db.tokens.deleteWhere (·.username = username) }
  else { db with users := users }

/-- Every session of a user ends. -/
def bumpEpoch (db : UserDb) (username : String) : UserDb :=
  { db with
    users := db.users.modify (·.username = username)
      (fun u => { u with sessionEpoch := u.sessionEpoch + 1 }) fun _ => rfl }

/-- The part of `update` that changes the role, and what changed. -/
def updateRole (db : UserDb) (user : User) :
    Option Role → Except UserError (UserDb × List String)
  | none => .ok (db, [])
  | some role =>
    (db.ensureAdminRemains user.username (some role)).map fun _ =>
      let n := (db.tokens.rows.filter (hasScopes user.username)).length
      (db.setRole user role, ["role " ++ role.asStr] ++
        if role < .admin ∧ 0 < n then [toString n ++ " API token(s) now read only"] else [])

/-- The part of `update` that changes the password, and what changed. -/
def updatePassword (db : UserDb) (username : String) (mustChangePassword : Bool) :
    Option String → UserDb × List String
  | none => (db, [])
  | some hash =>
    let n := (db.tokens.rows.filter fun token => token.username = username).length
    (db.setPassword username hash mustChangePassword, ["password"] ++
      if mustChangePassword ∧ 0 < n then [toString n ++ " API token(s) deleted"] else [])

/-- Changes role and/or password in one step: either all of it is applied or none. `password` is the
new password and its hash. -/
def update (db : UserDb) (username : String) (role : Option Role)
    (password : Option (String × String)) (mustChangePassword : Bool) :
    Except UserError (UserDb × List String) :=
  if role.isNone ∧ password.isNone then .error .nothingToChange
  else do
    (password.map fun p => validateUser username p.1).getD (.ok ())
    match db.users.get username with
    | none => .error (.noUser username)
    | some user =>
      let (db, roleChanges) ← db.updateRole user role
      let (db, passwordChanges) :=
        db.updatePassword username mustChangePassword (password.map (·.2))
      .ok (db.bumpEpoch username, roleChanges ++ passwordChanges)

/-- The second statement of `delete`: the row. -/
def deleteUser (db : UserDb) (username : String) : UserDb :=
  { db with users := db.users.deleteWhere (·.username = username) }

/-- The last statement of `delete`: the tokens. -/
def deleteTokens (db : UserDb) (username : String) : UserDb :=
  { db with tokens := db.tokens.deleteWhere (·.username = username) }

/-! ## What is read -/

/-- The user of a name, if the password is right. -/
def verify (x : AuthCrates) (db : UserDb) (username password : String) : Option User :=
  (db.users.get username).filter fun u => x.verifyPassword u.passwordHash password

/-- The user's current role and session epoch; `none` if the user is gone. -/
def sessionState (db : UserDb) (username : String) : Option SessionState :=
  (db.users.get username).map fun u => ⟨u.role, u.sessionEpoch, u.mustChangePassword⟩

/-- What a user is asked for who changes their own password. -/
def checkOwnPassword (x : AuthCrates) (user : User) (current : Option String) (new : String) :
    Except UserError Unit :=
  let matches_ := x.verifyPassword user.passwordHash
  if current.any fun password => ¬matches_ password then .error .wrongPassword
  else if current = none ∧ ¬user.mustChangePassword then .error .passwordNeeded
  else if matches_ new then .error .samePassword
  else .ok ()

/-- A user's own new password is written, if nothing changed meanwhile. -/
def writeOwnPassword (db : UserDb) (username hash : String) (epoch : ℕ) :
    Except UserError UserDb :=
  if (db.users.get username).any fun u => u.sessionEpoch = epoch then
    .ok { db with
      users := db.users.modify (fun u => u.username = username ∧ u.sessionEpoch = epoch)
        (fun u => { u with
          passwordHash := hash
          mustChangePassword := false
          sessionEpoch := u.sessionEpoch + 1 }) fun _ => rfl }
  else .error .changedMeanwhile

/-! ## Tokens -/

/-- What is demanded of a token, and its scopes in order. -/
def checkToken (name : String) (scopes : List String) : Except UserError (List String) :=
  if trim name = "" ∨ 64 < (trim name).length then .error .tokenName
  else
    match scopes.find? (· ∉ mcpScopes) with
    | some bad => .error (.unknownScope bad)
    | none => .ok (scopes.mergeSort (· ≤ ·)).dedup

/-- A token is inserted. -/
def insertToken (db : UserDb) (id username name hash : String) (scopes : List String) :
    Option UserDb :=
  let user := db.users.get username
  (db.tokens.insert? {
      id, username, name := trim name, hash, scopes
      account := user.map (·.account)
      least := (user.map (·.role)).getD .auditor }).map fun tokens => { db with tokens := tokens }

/-- Deletes one of a user's tokens. -/
def deleteToken (db : UserDb) (username id : String) : Except UserError UserDb :=
  if (db.tokens.get id).any (·.username = username) then
    .ok { db with tokens := db.tokens.deleteWhere (·.id = id) }
  else .error .noToken

/-- The id of a secret of the form `gwt_<id>_<secret>`. -/
def tokenId (secret : String) : Option String :=
  if "gwt_".toList.isPrefixOf secret.toList then
    let rest := secret.toList.drop 4
    if '_' ∈ rest then some (String.ofList (rest.takeWhile (· ≠ '_'))) else none
  else none

/-- The user a token belongs to and its scopes, if it is valid. -/
def verifyToken (x : AuthCrates) (db : UserDb) (secret : String) :
    Option (String × List String) :=
  (((tokenId secret).bind db.tokens.get).filter fun token => token.hash = x.tokenHash secret).map
    fun token => (token.username, token.scopes.filter (· ∈ mcpScopes))

end UserDb

/-- The user for whom a request through MCP acts. -/
structure TokenUser where
  username : String
  role : Role
  scopes : List String

/-- The token's user, if the token is valid and the user may read the trail. -/
def UserDb.authenticate (x : AuthCrates) (db : UserDb) (secret : String) : Option TokenUser := do
  let (username, scopes) ← db.verifyToken x secret
  let state ← db.sessionState username
  if state.role < .auditor ∨ state.mustChangePassword then none
  else some ⟨username, state.role, scopes⟩

namespace UserDb

variable {db db' : UserDb}

/-! ## What the transaction leaves behind -/

/-- The row of a user behind an update. -/
def updated (role : Option Role) (hash : Option String) (mustChangePassword : Bool) (u : User) :
    User :=
  { u with
    role := role.getD u.role
    passwordHash := hash.getD u.passwordHash
    mustChangePassword := if hash.isSome then mustChangePassword else u.mustChangePassword
    sessionEpoch := u.sessionEpoch + 1 }

/-- What an update makes of a token. -/
def aged (user : User) (role : Option Role) (token : ApiToken) : ApiToken :=
  match role with
  | none => token
  | some role =>
    if token.username = user.username then
      { token with
        least := if token.account = some user.account then min token.least role else token.least
        scopes := if role < .admin then [] else token.scopes }
    else token

variable {username : String} {user : User} {role : Option Role} {must : Bool}

/-- The users behind a change of role. -/
theorem get_setRole (db : UserDb) (user : User) (role : Role) (name : String) :
    (db.setRole user role).users.get name = (db.users.get name).map fun u =>
      if u.username = user.username then { u with role := role } else u := by
  unfold setRole
  split_ifs
  · simp [clearScopes, noteRole, UniqueTable.get_modify]
  · simp [noteRole, UniqueTable.get_modify]

/-- The users behind a new password. -/
theorem get_setPassword (db : UserDb) (username hash : String) (must : Bool) (name : String) :
    (db.setPassword username hash must).users.get name = (db.users.get name).map fun u =>
      if u.username = username then
        { u with passwordHash := hash, mustChangePassword := must }
      else u := by
  unfold setPassword
  split_ifs
  · simp [UniqueTable.get_modify]
  · simp [UniqueTable.get_modify]

/-- The users behind a new epoch. -/
theorem get_bumpEpoch (db : UserDb) (username name : String) :
    (db.bumpEpoch username).users.get name = (db.users.get name).map fun u =>
      if u.username = username then { u with sessionEpoch := u.sessionEpoch + 1 } else u := by
  simp [bumpEpoch, UniqueTable.get_modify]

/-- The tokens behind a note of the role. -/
theorem mem_noteRole {role : Role} {token : ApiToken}
    (h : token ∈ (db.noteRole user role).tokens.rows) :
    ∃ old ∈ db.tokens.rows,
      token = if old.username = user.username ∧ old.account = some user.account then
        { old with least := min old.least role } else old := by
  simp only [noteRole, UniqueTable.mem_modify] at h
  obtain ⟨old, hold, rfl⟩ := h
  refine ⟨old, hold, ?_⟩
  simp only [decide_eq_true_eq]

/-- The tokens behind the end of their scopes. -/
theorem mem_clearScopes {token : ApiToken} (h : token ∈ (db.clearScopes username).tokens.rows) :
    ∃ old ∈ db.tokens.rows,
      token = if old.username = username then { old with scopes := [] } else old := by
  simp only [clearScopes, UniqueTable.mem_modify] at h
  obtain ⟨old, hold, rfl⟩ := h
  refine ⟨old, hold, ?_⟩
  unfold hasScopes
  by_cases hname : old.username = username
  · by_cases hscopes : old.scopes = []
    · -- no scopes to clear: the statement leaves the row out
      rw [if_pos hname, if_neg (by simp [hscopes]), ← hscopes]
    · rw [if_pos hname, if_pos (by simp [hname, hscopes])]
  · rw [if_neg hname, if_neg (by simp [hname])]

/-- The tokens behind a change of role. -/
theorem mem_setRole {role : Role} {token : ApiToken}
    (h : token ∈ (db.setRole user role).tokens.rows) :
    ∃ old ∈ db.tokens.rows, token = aged user (some role) old := by
  unfold setRole at h
  by_cases hrole : role < .admin
  · rw [if_pos hrole] at h
    obtain ⟨noted, hnoted, rfl⟩ := mem_clearScopes h
    obtain ⟨old, hold, rfl⟩ := mem_noteRole hnoted
    refine ⟨old, hold, ?_⟩
    by_cases hname : old.username = user.username
    · by_cases haccount : old.account = some user.account <;> simp [aged, hname, haccount, hrole]
    · simp [aged, hname]
  · rw [if_neg hrole] at h
    obtain ⟨old, hold, rfl⟩ := mem_noteRole h
    refine ⟨old, hold, ?_⟩
    by_cases hname : old.username = user.username
    · by_cases haccount : old.account = some user.account
      · simp [aged, hname, haccount, if_neg hrole]
      · rw [aged, if_pos hname, if_neg haccount, if_neg hrole, if_neg fun h => haccount h.2]
    · simp [aged, hname]

/-- What a change of role does when it goes well. -/
theorem updateRole_eq_ok {changes : List String}
    (h : db.updateRole user role = .ok (db', changes)) :
    (∀ r, role = some r → db.ensureAdminRemains user.username (some r) = .ok ()) ∧
      (∀ name, db'.users.get name = (db.users.get name).map fun u =>
        if u.username = user.username then { u with role := role.getD u.role } else u) ∧
      ∀ token ∈ db'.tokens.rows, ∃ old ∈ db.tokens.rows, token = aged user role old := by
  cases role with
  | none =>
    cases h
    refine ⟨fun r hr => (nomatch hr), fun name => ?_, fun token ht => ⟨token, ht, rfl⟩⟩
    simp
  | some role =>
    simp only [updateRole] at h
    cases hensure : db.ensureAdminRemains user.username (some role) with
    | error e =>
      rw [hensure] at h
      cases h
    | ok _ =>
      rw [hensure] at h
      cases h
      refine ⟨fun r hr => ?_, fun name => ?_, fun token ht => mem_setRole ht⟩
      · cases hr
        exact hensure
      · exact get_setRole db user role name

/-- The users behind a change of password. -/
theorem get_updatePassword (db : UserDb) (username : String) (must : Bool)
    (hash : Option String) (name : String) :
    (db.updatePassword username must hash).1.users.get name = (db.users.get name).map fun u =>
      if u.username = username then
        { u with
          passwordHash := hash.getD u.passwordHash
          mustChangePassword := if hash.isSome then must else u.mustChangePassword }
      else u := by
  cases hash with
  | none => simp [updatePassword]
  | some hash => simp [updatePassword, get_setPassword]

/-- A change of password makes no token. -/
theorem mem_updatePassword {hash : Option String} {token : ApiToken}
    (h : token ∈ (db.updatePassword username must hash).1.tokens.rows) :
    token ∈ db.tokens.rows := by
  cases hash with
  | none => exact h
  | some hash =>
    unfold updatePassword setPassword at h
    dsimp only at h
    split_ifs at h
    · exact (UniqueTable.mem_deleteWhere.1 h).1
    · exact h

/-- **What an update leaves behind**: the user exists, the check for the last admin passed if a role
was given, the row of the user is replaced and no other, and every token is one that was there, with
the new role noted. -/
theorem update_eq_ok {password : Option (String × String)} {changes : List String}
    (h : db.update username role password must = .ok (db', changes)) :
    ∃ user, db.users.get username = some user ∧
      (∀ r, role = some r → db.ensureAdminRemains username (some r) = .ok ()) ∧
      (∀ name, db'.users.get name = (db.users.get name).map fun u =>
        if u.username = username then updated role (password.map (·.2)) must u else u) ∧
      ∀ token ∈ db'.tokens.rows, ∃ old ∈ db.tokens.rows, token = aged user role old := by
  unfold update at h
  split_ifs at h
  cases hvalid : (password.map fun p => validateUser username p.1).getD (.ok ()) with
  | error e =>
    rw [hvalid] at h
    cases h
  | ok _ =>
    rw [hvalid] at h
    cases huser : db.users.get username with
    | none =>
      rw [huser] at h
      cases h
    | some user =>
      obtain ⟨-, hname⟩ := UniqueTable.get_eq_some_iff.1 huser
      rw [huser] at h
      simp only [bind, Except.bind] at h
      cases hrole : db.updateRole user role with
      | error e =>
        rw [hrole] at h
        cases h
      | ok r =>
        obtain ⟨db₁, roleChanges⟩ := r
        obtain ⟨hensure, hrows, htokens⟩ := updateRole_eq_ok hrole
        rw [hrole] at h
        cases h
        refine ⟨user, rfl, hname ▸ hensure, fun name => ?_, fun token ht => ?_⟩
        · rw [get_bumpEpoch, get_updatePassword, hrows, hname, Option.map_map, Option.map_map]
          congr 1
          funext u
          by_cases hu : u.username = username
          · simp [updated, hu]
          · simp [hu]
        · exact htokens token (mem_updatePassword ht)

/-- What a new user changes. -/
theorem insertUser_eq_ok {hash : String} {role : Role} {account : ℕ}
    (h : db.insertUser username hash role must account = .ok db') :
    db.users.get username = none ∧ db'.tokens = db.tokens ∧
      ∀ name, db'.users.get name = if name = username then
        some { username, passwordHash := hash, role, mustChangePassword := must, account }
      else db.users.get name := by
  unfold insertUser at h
  cases hinsert : db.users.insert? { username, passwordHash := hash, role
                                     mustChangePassword := must, account } with
  | none =>
    rw [hinsert] at h
    cases h
  | some users =>
    rw [hinsert] at h
    cases h
    exact ⟨(UniqueTable.insert?_eq_some hinsert).1, rfl, UniqueTable.get_insert? hinsert⟩

/-- What a user's own change of password does. -/
theorem writeOwnPassword_eq_ok {hash : String} {epoch : ℕ}
    (h : db.writeOwnPassword username hash epoch = .ok db') :
    (∃ u, db.users.get username = some u ∧ u.sessionEpoch = epoch) ∧ db'.tokens = db.tokens ∧
      ∀ name, db'.users.get name = (db.users.get name).map fun u =>
        if u.username = username then
          { u with
            passwordHash := hash
            mustChangePassword := false
            sessionEpoch := u.sessionEpoch + 1 }
        else u := by
  unfold writeOwnPassword at h
  split_ifs at h with hmatch
  cases h
  obtain ⟨user, huser, hepoch⟩ := (Option.any_eq_true _ _).1 hmatch
  have hepoch : user.sessionEpoch = epoch := by simpa using hepoch
  refine ⟨⟨user, huser, hepoch⟩, rfl, fun name => ?_⟩
  simp only [UniqueTable.get_modify, decide_eq_true_eq]
  cases hget : db.users.get name with
  | none => rfl
  | some u =>
    obtain ⟨hu, rfl⟩ := UniqueTable.get_eq_some_iff.1 hget
    rw [Option.map_some, Option.map_some]
    by_cases hname : u.username = username
    · rw [hname, huser] at hget
      obtain rfl := Option.some.inj hget
      rw [if_pos ⟨hname, hepoch⟩, if_pos hname]
    · rw [if_neg fun h => hname h.1, if_neg hname]

/-- The users behind the deletion of one. -/
theorem get_deleteUser (db : UserDb) (username name : String) :
    (db.deleteUser username).users.get name =
      if name = username then none else db.users.get name := by
  unfold deleteUser
  rw [UniqueTable.get_deleteWhere]
  cases hget : db.users.get name with
  | none => simp
  | some u =>
    obtain ⟨-, rfl⟩ := UniqueTable.get_eq_some_iff.1 hget
    by_cases hname : u.username = username
    · simp [hname]
    · simp [hname]

/-- What a new token changes. -/
theorem insertToken_eq_some {id name hash : String} {scopes : List String}
    (h : db.insertToken id username name hash scopes = some db') :
    db.tokens.get id = none ∧ db'.users = db.users ∧
      ∀ token, token ∈ db'.tokens.rows ↔ token ∈ db.tokens.rows ∨
        token = { id, username, name := trim name, hash, scopes
                  account := (db.users.get username).map (·.account)
                  least := ((db.users.get username).map (·.role)).getD .auditor } := by
  simp only [insertToken, Option.map_eq_some_iff] at h
  obtain ⟨tokens, hinsert, rfl⟩ := h
  exact ⟨(UniqueTable.insert?_eq_some hinsert).1, rfl, fun token => UniqueTable.mem_insert? hinsert⟩

/-- The deletion of a token makes no token. -/
theorem deleteToken_eq_ok {id : String} (h : db.deleteToken username id = .ok db') :
    db'.users = db.users ∧ ∀ token ∈ db'.tokens.rows, token ∈ db.tokens.rows := by
  unfold deleteToken at h
  split_ifs at h
  cases h
  exact ⟨rfl, fun token ht => (UniqueTable.mem_deleteWhere.1 ht).1⟩

/-- The tokens behind the deletion of a user's tokens. -/
theorem mem_deleteTokens {token : ApiToken} :
    token ∈ (db.deleteTokens username).tokens.rows ↔
      token ∈ db.tokens.rows ∧ token.username ≠ username := by
  simp [deleteTokens]

/-! ## The last admin -/

/-- Somebody can administer the gateway. -/
def HasAdmin (db : UserDb) : Prop := ∃ u ∈ db.users.rows, u.role = .admin

/-- A user who is an administrator is one. -/
theorem hasAdmin_of_get {u : User} (h : db.users.get username = some u) (hrole : u.role = .admin) :
    db.HasAdmin :=
  ⟨u, (UniqueTable.get_eq_some_iff.1 h).1, hrole⟩

/-- A row is found under its name. -/
theorem get_of_mem {u : User} (h : u ∈ db.users.rows) : db.users.get u.username = some u :=
  UniqueTable.get_eq_some_iff.2 ⟨h, rfl⟩

/-- Another administrator is counted iff there is one. -/
theorem otherAdmins_pos_iff :
    0 < db.otherAdmins username ↔
      ∃ u ∈ db.users.rows, u.role = .admin ∧ u.username ≠ username := by
  simp only [otherAdmins, List.length_pos_iff_exists_mem, List.mem_filter, decide_eq_true_eq]

/-- A user is an administrator iff a row says so. -/
theorem isAdmin_iff :
    db.isAdmin username = true ↔
      ∃ u ∈ db.users.rows, u.role = .admin ∧ u.username = username := by
  simp only [isAdmin, Option.any_eq_true, UniqueTable.get_eq_some_iff, decide_eq_true_eq]
  constructor
  · rintro ⟨u, ⟨hu, hname⟩, hrole⟩
    exact ⟨u, hu, hrole, hname⟩
  · rintro ⟨u, hu, hrole, hname⟩
    exact ⟨u, ⟨hu, hname⟩, hrole⟩

/-- The check for a deletion passes exactly if another user is an admin. -/
theorem ensureAdminRemains_eq_ok_iff (h : db.HasAdmin) (hrole : role ≠ some .admin) :
    db.ensureAdminRemains username role = .ok () ↔
      ∃ u ∈ db.users.rows, u.role = .admin ∧ u.username ≠ username := by
  rw [← otherAdmins_pos_iff, ensureAdminRemains, if_neg hrole, adminCheck]
  constructor
  · intro hok
    by_contra hnone
    have hadmin : db.isAdmin username = true := by
      obtain ⟨u, hu, hrole⟩ := h
      refine isAdmin_iff.2 ⟨u, hu, hrole, ?_⟩
      by_contra hname
      exact hnone (otherAdmins_pos_iff.2 ⟨u, hu, hrole, hname⟩)
    rw [if_pos ⟨hadmin, by omega⟩] at hok
    cases hok
  · intro hpos
    rw [if_neg]
    omega

/-- Deleting the row of a user leaves an admin exactly if the check still passes. -/
theorem hasAdmin_deleteUser_iff (h : db.HasAdmin) :
    (db.deleteUser username).HasAdmin ↔ db.ensureAdminRemains username none = .ok () := by
  rw [ensureAdminRemains_eq_ok_iff h (by simp)]
  unfold HasAdmin deleteUser
  constructor
  · rintro ⟨u, hu, hrole⟩
    obtain ⟨hu, hname⟩ := UniqueTable.mem_deleteWhere.1 hu
    exact ⟨u, hu, hrole, by simpa using hname⟩
  · rintro ⟨u, hu, hrole, hname⟩
    exact ⟨u, UniqueTable.mem_deleteWhere.2 ⟨hu, by simpa using hname⟩, hrole⟩

/-- The transaction contains its check, so an admin remains. -/
theorem hasAdmin_update {password : Option (String × String)} {changes : List String}
    (h : db.HasAdmin) (hu : db.update username role password must = .ok (db', changes)) :
    db'.HasAdmin := by
  obtain ⟨user, huser, hensure, hrows, -⟩ := update_eq_ok hu
  obtain ⟨-, hname⟩ := UniqueTable.get_eq_some_iff.1 huser
  -- an admin that the role is not taken from
  have hkeep : ∀ u ∈ db.users.rows, u.role = .admin →
      (u.username = username → ∀ r, role = some r → r = .admin) → db'.HasAdmin := by
    intro u hu hadmin hsame
    have hget := hrows u.username
    rw [get_of_mem hu, Option.map_some] at hget
    refine hasAdmin_of_get hget ?_
    split_ifs with hname'
    · cases role with
      | none => exact hadmin
      | some r => exact hsame hname' r rfl
    · exact hadmin
  cases role with
  | none =>
    obtain ⟨u, hu, hadmin⟩ := h
    exact hkeep u hu hadmin fun _ r hr => (nomatch hr)
  | some r =>
    by_cases hr : r = .admin
    · have hget := hrows username
      rw [huser, Option.map_some, if_pos hname] at hget
      exact hasAdmin_of_get hget hr
    · have hother := hensure r rfl
      rw [ensureAdminRemains_eq_ok_iff h (by simpa using hr)] at hother
      obtain ⟨u, hu, hadmin, hne⟩ := hother
      exact hkeep u hu hadmin fun h => absurd h hne

/-- A user's own change of password leaves an administrator. -/
theorem hasAdmin_writeOwnPassword {hash : String} {epoch : ℕ} (h : db.HasAdmin)
    (hw : db.writeOwnPassword username hash epoch = .ok db') : db'.HasAdmin := by
  obtain ⟨-, -, hrows⟩ := writeOwnPassword_eq_ok hw
  obtain ⟨u, hu, hadmin⟩ := h
  have hget := hrows u.username
  rw [get_of_mem hu, Option.map_some] at hget
  refine hasAdmin_of_get hget ?_
  split_ifs
  · exact hadmin
  · exact hadmin

/-- A new user leaves an administrator. -/
theorem hasAdmin_insertUser {hash : String} {role : Role} {account : ℕ} (h : db.HasAdmin)
    (hi : db.insertUser username hash role must account = .ok db') : db'.HasAdmin := by
  obtain ⟨hfree, -, hrows⟩ := insertUser_eq_ok hi
  obtain ⟨u, hu, hadmin⟩ := h
  have hget := hrows u.username
  rw [if_neg, get_of_mem hu] at hget
  · exact hasAdmin_of_get hget hadmin
  · rintro rfl
    rw [get_of_mem hu] at hfree
    cases hfree

end UserDb

end AuditGateway
