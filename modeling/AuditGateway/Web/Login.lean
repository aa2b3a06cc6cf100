import AuditGateway.Lib.Machine
import AuditGateway.Users.Database
import Mathlib.Algebra.Group.Nat.Defs

set_option relaxedAutoImplicit false
set_option autoImplicit false

/-!
# The limit on failed logins

A login from an address is refused while the address is blocked: after five failures, until fifteen
minutes have passed since the last one. The block is looked up when the request arrives. Then the
request waits for one of the four permits to check a password, the password is checked, and the
failure is counted. A request can also be given up by its client on the way.

So the limit holds in those runs in which what is checked and not counted yet is not too much, and
in which nobody waits when a block starts.

How many wrong passwords of an address were checked since its count was reset is noted for the
statements only. Times are in nanoseconds.

## Main definitions

* `Failures`, `FailureMap` — the failures of an address or a user, and all of them.
* `LoginLimits.failed`, `LoginLimits.succeeded` — the outcomes as they are counted.
* `Logins`, `Logins.Op`, `Logins.step` — logins in progress.
* `Logins.Limited`, `Logins.Orderly` — the limit, and the steps that keep it.

## Main results

* `Logins.limited_of_run` — in runs of such steps the limit holds.
* `Logins.burst_exceeds` — a burst of logins that exceeds it.
-/

namespace AuditGateway

/-- Failed logins from one address before it is blocked. -/
def maxFailuresPerAddress : ℕ := 5

/-- Failed logins for one user name before it is blocked. -/
def maxFailuresPerUser : ℕ := 20

/-- For how long. -/
def blockTime : ℕ := 15 * 60 * 10 ^ 9

/-- Password checks at once. -/
def concurrentChecks : ℕ := 4

/-- Failed logins, and when the last one was. -/
structure Failures where
  count : ℕ := 0
  last : Option ℕ := none
  /-- Every failure has a time. -/
  count_of_last : last = none → count = 0 := by intro h; first | rfl | cases h

namespace Failures

/-- The last failure is not long ago. -/
def live (f : Failures) (now : ℕ) : Bool := f.last.any fun last => now - last < blockTime

/-- How long to wait, if the failures are too many. -/
def blocked (f : Failures) (now max : ℕ) : Option ℕ :=
  f.last.bind fun last =>
    if max ≤ f.count ∧ now - last < blockTime then some (blockTime - (now - last)) else none

/-- One more failure. -/
def add (f : Failures) (now : ℕ) : Failures where
  count := ((if f.last.any (blockTime ≤ now - ·) then 0 else f.count) + 1) % 2 ^ 32
  last := some now

end Failures

/-- The failures under each key. -/
abbrev FailureMap (κ : Type*) := UniqueTable (κ × Failures) Prod.fst

namespace FailureMap

variable {κ : Type*} [DecidableEq κ]

/-- How long to wait, if the failures of a key are too many. -/
def blocked (map : FailureMap κ) (k : κ) (now max : ℕ) : Option ℕ :=
  (map.get k).bind fun e => e.2.blocked now max

/-- A large map loses what is long ago. -/
def prune (map : FailureMap κ) (now : ℕ) : FailureMap κ :=
  if 10000 < map.rows.length then map.deleteWhere fun e : κ × Failures => !e.2.live now else map

/-- One more failure of a key. -/
def fail (map : FailureMap κ) (k : κ) (now : ℕ) : FailureMap κ × Failures :=
  let map := map.prune now
  let f := Failures.add ((map.get k).elim {} Prod.snd) now
  (map.put (k, f), f)

/-- The failures of a key that count: those that are not long ago. -/
def counted (map : FailureMap κ) (k : κ) (now : ℕ) : ℕ :=
  ((map.get k).filter (·.2.live now)).elim 0 (·.2.count)

/-- The failures that count are those of a live entry. -/
theorem counted_eq (map : FailureMap κ) (k : κ) (now : ℕ) :
    map.counted k now = match map.get k with
      | some e => if e.2.live now then e.2.count else 0
      | none => 0 := by
  unfold counted
  cases map.get k with
  | none => rfl
  | some e =>
    dsimp only
    split_ifs with hlive
    · rw [Option.filter_some, if_pos hlive]
      rfl
    · rw [Option.filter_some, if_neg hlive]
      rfl

/-- What blocks is the count. -/
theorem blocked_eq_none_iff {map : FailureMap κ} {k : κ} {now max : ℕ} (hmax : 0 < max) :
    map.blocked k now max = none ↔ map.counted k now < max := by
  rw [counted_eq, blocked]
  cases map.get k with
  | none => simpa using hmax
  | some e =>
    obtain ⟨k, ⟨count, last, hlast⟩⟩ := e
    simp only [Option.bind_some, Failures.blocked, Failures.live]
    cases last with
    | none => simpa using hmax
    | some last =>
      simp only [Option.bind_some, Option.any_some, decide_eq_true_eq]
      by_cases hlive : now - last < blockTime
      · simp [hlive]
      · simpa [hlive] using hmax

/-- A failure adds one to those that count. -/
theorem add_count {f : Failures} {now : ℕ} :
    (f.add now).count = ((if f.live now then f.count else 0) + 1) % 2 ^ 32 := by
  obtain ⟨count, last, hlast⟩ := f
  unfold Failures.add Failures.live
  cases last with
  | none => simp [hlast rfl]
  | some last =>
    by_cases hlive : now - last < blockTime
    · simp [hlive, not_le.2 hlive]
    · simp [hlive, not_lt.1 hlive]

/-- An entry with a new failure is live. -/
theorem live_add (f : Failures) (now : ℕ) : (f.add now).live now = true := by
  simp [Failures.add, Failures.live, blockTime]

/-- A failure adds one to the count of its key, and to no other. -/
theorem counted_fail (map : FailureMap κ) (k k' : κ) (now : ℕ) :
    (map.fail k now).1.counted k' now =
      if k' = k then (map.counted k now + 1) % 2 ^ 32 else map.counted k' now := by
  -- what a large map loses does not count
  have hprune : ∀ j, (map.prune now).counted j now = map.counted j now := by
    intro j
    unfold prune
    split_ifs
    · rw [counted_eq, counted_eq, UniqueTable.get_deleteWhere]
      cases map.get j with
      | none => rfl
      | some e => cases hlive : e.2.live now <;> simp [hlive, Option.filter]
    · rfl
  rw [counted_eq, fail, UniqueTable.get_put]
  by_cases hk : k' = k
  · rw [if_pos hk, if_pos hk]
    dsimp only
    rw [live_add, if_pos rfl, add_count, ← hprune k, counted_eq]
    cases (map.prune now).get k with
    | none => rfl
    | some e => rfl
  · rw [if_neg hk, if_neg hk, ← hprune k', counted_eq]

/-- What is deleted does not count. -/
theorem counted_deleteWhere (map : FailureMap κ) (p : κ → Bool) (k : κ) (now : ℕ) :
    counted (map.deleteWhere fun e => p e.1) k now = if p k then 0 else map.counted k now := by
  rw [counted_eq, counted_eq, UniqueTable.get_deleteWhere]
  cases hget : map.get k with
  | none => simp
  | some e =>
    obtain ⟨-, rfl⟩ := UniqueTable.get_eq_some_iff.1 hget
    cases hp : p e.1 <;> simp [hp, Option.filter]

/-- Nothing counts again that once was too long ago. -/
theorem counted_add_eq (map : FailureMap κ) (k : κ) (now duration : ℕ) :
    map.counted k (now + duration) = map.counted k now ∨ map.counted k (now + duration) = 0 := by
  rw [counted_eq, counted_eq]
  cases map.get k with
  | none => exact .inr rfl
  | some e =>
    obtain ⟨k, ⟨count, last, hlast⟩⟩ := e
    dsimp only
    by_cases hlive : Failures.live ⟨count, last, hlast⟩ (now + duration) = true
    · have hbefore : Failures.live ⟨count, last, hlast⟩ now = true := by
        unfold Failures.live at hlive ⊢
        cases last with
        | none => cases hlive
        | some last =>
          simp only [Option.any_some, decide_eq_true_eq] at hlive ⊢
          omega
      rw [if_pos hlive, if_pos hbefore]
      exact .inl rfl
    · rw [if_neg hlive]
      exact .inr rfl

end FailureMap

/-- The failed logins per address and per user. -/
structure LoginLimits (IpAddr : Type*) where
  byAddress : FailureMap IpAddr := .empty _
  byUser : FailureMap String := .empty _

namespace LoginLimits

variable {IpAddr : Type*} [DecidableEq IpAddr]

/-- How long logins from this address must wait, if they must. -/
def blockedAddress (limits : LoginLimits IpAddr) (address : Option IpAddr) (now : ℕ) : Option ℕ :=
  address.bind fun a => limits.byAddress.blocked a now maxFailuresPerAddress

/-- How long wrong passwords for this user are refused without counting, if they are. -/
def blockedUser (limits : LoginLimits IpAddr) (username : String) (now : ℕ) : Option ℕ :=
  limits.byUser.blocked username now maxFailuresPerUser

/-- Counts a failed login, and whether it starts a block. -/
def failed (limits : LoginLimits IpAddr) (address : Option IpAddr) (username : String) (now : ℕ) :
    LoginLimits IpAddr × Bool :=
  let (byAddress, ofAddress) := match address with
    | some a =>
      let (map, f) := limits.byAddress.fail a now
      (map, f.count == maxFailuresPerAddress)
    | none => (limits.byAddress, false)
  let (byUser, ofUser) :=
    if username.utf8ByteSize ≤ 64 then
      let (map, f) := limits.byUser.fail username now
      (map, f.count == maxFailuresPerUser)
    else (limits.byUser, false)
  (⟨byAddress, byUser⟩, ofAddress || ofUser)

/-- A login that went well is counted. -/
def succeeded (limits : LoginLimits IpAddr) (address : Option IpAddr) (username : String) :
    LoginLimits IpAddr where
  byAddress := limits.byAddress.deleteWhere (some ·.1 = address)
  byUser := limits.byUser.deleteWhere (·.1 = username)

/-- The failures of an address behind a failed login. -/
theorem counted_failed (limits : LoginLimits IpAddr) (address : Option IpAddr) (username : String)
    (now : ℕ) (a : IpAddr) :
    (limits.failed address username now).1.byAddress.counted a now =
      if address = some a then (limits.byAddress.counted a now + 1) % 2 ^ 32
      else limits.byAddress.counted a now := by
  cases address with
  | none => simp [failed]
  | some b =>
    have hfail := FailureMap.counted_fail limits.byAddress b a now
    by_cases hab : a = b
    · subst hab
      simpa [failed] using hfail
    · rw [if_neg hab] at hfail
      rw [if_neg fun h => hab (Option.some.inj h).symm]
      exact hfail

/-- The failures of an address behind a login that went well. -/
theorem counted_succeeded (limits : LoginLimits IpAddr) (address : Option IpAddr)
    (username : String) (now : ℕ) (a : IpAddr) :
    (limits.succeeded address username).byAddress.counted a now =
      if address = some a then 0 else limits.byAddress.counted a now := by
  refine (FailureMap.counted_deleteWhere limits.byAddress (some · = address) a now).trans ?_
  simp only [decide_eq_true_eq]
  exact if_congr eq_comm rfl rfl

/-- An address is not blocked iff its failures are below the limit. -/
theorem blockedAddress_eq_none_iff {limits : LoginLimits IpAddr} {address : Option IpAddr}
    {now : ℕ} : limits.blockedAddress address now = none ↔
      ∀ a, address = some a → limits.byAddress.counted a now < maxFailuresPerAddress := by
  cases address with
  | none => simp [blockedAddress]
  | some a =>
    simp only [blockedAddress, Option.bind_some]
    rw [FailureMap.blocked_eq_none_iff (by decide)]
    simp

end LoginLimits

/-- Why a login is refused. -/
inductive LoginError
  | tooManyFailed (wait : ℕ)
  | tooManyAtOnce
  | wrong
  deriving DecidableEq

/-- The text of an error. -/
def LoginError.message : LoginError → String
  | .tooManyFailed wait =>
    "too many failed logins; try again in " ++ toString ((wait / 10 ^ 9 + 59) / 60) ++ " minutes"
  | .tooManyAtOnce => "too many logins at once; try again"
  | .wrong => "wrong user name or password"

/-- The stages of a login. -/
inductive LoginStage
  /-- The address is not blocked, and the request waits for a permit. -/
  | waiting
  | permitted
  /-- The password is checked. -/
  | checked (right : Bool)
  /-- The outcome is counted. -/
  | settled (refusal : Option LoginError)
  /-- The request is answered and has given back its permit. -/
  | answered (refusal : Option LoginError)
  /-- The client has given up. -/
  | dropped
  deriving DecidableEq

/-- Whether a request has one of the permits. -/
def LoginStage.permit : LoginStage → Bool
  | .permitted | .checked _ | .settled _ => true
  | .waiting | .answered _ | .dropped => false

/-- Whether a request has passed the block, and its password is not checked. -/
def LoginStage.pending : LoginStage → Bool
  | .waiting | .permitted => true
  | _ => false

/-- A login, and how far it is. -/
structure LoginTask (IpAddr : Type*) where
  address : Option IpAddr
  username : String
  password : String
  stage : LoginStage
  deriving DecidableEq

/-- The logins of the web interface. -/
structure Logins (IpAddr : Type*) where
  now : ℕ := 0
  users : UserDb := {}
  limits : LoginLimits IpAddr := {}
  tasks : List (LoginTask IpAddr) := []
  /-- The wrong passwords that were checked since the count of an address was reset. -/
  wrong : IpAddr → ℕ := fun _ => 0

namespace Logins

variable {IpAddr : Type*} [DecidableEq IpAddr]

/-- The requests and their steps. -/
inductive Op (IpAddr : Type*)
  | tick (duration : ℕ)
  /-- Any statement on the users. -/
  | setUsers (users : UserDb)
  | arrive (address : Option IpAddr) (username password : String)
  | acquire (task : ℕ)
  /-- No permit was free for five seconds. -/
  | timeout (task : ℕ)
  | verify (task : ℕ)
  | settle (task : ℕ)
  /-- What is left of the request, with its permit. -/
  | answer (task : ℕ)
  | drop (task : ℕ)

/-- A request with a new stage. -/
def put (s : Logins IpAddr) (i : ℕ) (task : LoginTask IpAddr) (stage : LoginStage) :
    Logins IpAddr :=
  { s with tasks := s.tasks.set i { task with stage := stage } }

/-- Time passes. The count of an address ends with its block, or when its last failure is as long
ago. -/
def tick (s : Logins IpAddr) (duration : ℕ) : Logins IpAddr :=
  let now := s.now + duration
  { s with
    now := now
    wrong := fun a =>
      if 0 < s.limits.byAddress.counted a s.now ∧ s.limits.byAddress.counted a now = 0 then 0
      else s.wrong a }

/-- A request arrives, and is refused if its address is blocked. -/
def arrive (s : Logins IpAddr) (address : Option IpAddr) (username password : String) :
    Logins IpAddr :=
  let stage := match s.limits.blockedAddress address s.now with
    | some wait => .answered (some (.tooManyFailed wait))
    | none => .waiting
  { s with tasks := s.tasks ++ [⟨address, username, password, stage⟩] }

/-- The password is checked. -/
def verify (x : AuthCrates) (s : Logins IpAddr) (i : ℕ) (task : LoginTask IpAddr) :
    Logins IpAddr :=
  let right := (s.users.verify x task.username task.password).isSome
  { s.put i task (.checked right) with
    wrong := fun a => if task.address = some a ∧ right = false then s.wrong a + 1 else s.wrong a }

/-- The outcome is counted. -/
def settle (s : Logins IpAddr) (i : ℕ) (task : LoginTask IpAddr) (right : Bool) :
    Logins IpAddr :=
  if right then
    { s.put i task (.settled none) with
      limits := s.limits.succeeded task.address task.username
      wrong := fun a => if task.address = some a then 0 else s.wrong a }
  else
    { s.put i task (.settled (some (match s.limits.blockedUser task.username s.now with
        | some wait => .tooManyFailed wait
        | none => .wrong))) with
      limits := (s.limits.failed task.address task.username s.now).1 }

/-- One step of the logins. -/
def step (x : AuthCrates) (s : Logins IpAddr) : Op IpAddr → Option (Logins IpAddr)
  | .tick duration => some (s.tick duration)
  | .setUsers users => some { s with users := users }
  | .arrive address username password => some (s.arrive address username password)
  | .acquire i => do
    let task ← s.tasks[i]?
    if task.stage = .waiting ∧ s.tasks.countP (·.stage.permit) < concurrentChecks then
      some (s.put i task .permitted)
    else none
  | .timeout i => do
    let task ← s.tasks[i]?
    if task.stage = .waiting then some (s.put i task (.answered (some .tooManyAtOnce))) else none
  | .verify i => do
    let task ← s.tasks[i]?
    if task.stage = .permitted then some (s.verify x i task) else none
  | .settle i => do
    let task ← s.tasks[i]?
    match task.stage with
    | .checked right => some (s.settle i task right)
    | _ => none
  | .answer i => do
    let task ← s.tasks[i]?
    match task.stage with
    | .settled refusal => some (s.put i task (.answered refusal))
    | _ => none
  | .drop i => do
    let task ← s.tasks[i]?
    match task.stage with
    | .answered _ => none
    | _ => some (s.put i task .dropped)

/-- The failures of an address that count. -/
def counted (s : Logins IpAddr) (a : IpAddr) : ℕ := s.limits.byAddress.counted a s.now

/-- The wrong passwords of an address that are checked and not counted. -/
def uncounted (s : Logins IpAddr) (a : IpAddr) : ℕ :=
  s.tasks.countP fun task => task.address = some a ∧ task.stage = .checked false

/-- The wrong passwords that are checked since a reset are at most those that start a block, and no
password is checked while the address is blocked. -/
def Limited (x : AuthCrates) (s : Logins IpAddr) (op : Op IpAddr) : Prop :=
  (∀ t, step x s op = some t → ∀ a, t.wrong a ≤ maxFailuresPerAddress) ∧
    ∀ i task, op = .verify i → s.tasks[i]? = some task → task.stage = .permitted →
      s.limits.blockedAddress task.address s.now = none

/-- The steps that keep the limit: a wrong password is checked when fewer than five of its address
are counted or still to be counted, no request of the address is pending when its fifth failure is
counted, and no request is given up between the check of a wrong password and the count. -/
def Orderly (x : AuthCrates) (s : Logins IpAddr) : Op IpAddr → Prop
  | .verify i => ∀ task a, s.tasks[i]? = some task → task.address = some a →
      s.users.verify x task.username task.password = none →
        s.counted a + s.uncounted a < maxFailuresPerAddress
  | .settle i => ∀ task a, s.tasks[i]? = some task → task.address = some a →
      task.stage = .checked false → s.counted a + 1 = maxFailuresPerAddress →
        ∀ other ∈ s.tasks, other.address = some a → other.stage.pending = false
  | .drop i => ∀ task, s.tasks[i]? = some task → task.address ≠ none →
      task.stage ≠ .checked false
  | _ => True

variable {x : AuthCrates} {s t : Logins IpAddr}

/-- Whether a step is orderly can be decided. -/
instance (s : Logins IpAddr) : (op : Op IpAddr) → Decidable (Orderly x s op)
  | .verify i => decidable_of_iff (∀ task ∈ s.tasks[i]?, ∀ a ∈ task.address,
      s.users.verify x task.username task.password = none →
        s.counted a + s.uncounted a < maxFailuresPerAddress)
      ⟨fun h task a hi ha => h task hi a ha, fun h task hi a ha => h task a hi ha⟩
  | .settle i => decidable_of_iff (∀ task ∈ s.tasks[i]?, ∀ a ∈ task.address,
      task.stage = .checked false → s.counted a + 1 = maxFailuresPerAddress →
        ∀ other ∈ s.tasks, other.address = some a → other.stage.pending = false)
      ⟨fun h task a hi ha => h task hi a ha, fun h task hi a ha => h task a hi ha⟩
  | .drop i => inferInstanceAs (Decidable (∀ task ∈ s.tasks[i]?, task.address ≠ none →
      task.stage ≠ .checked false))
  | .tick _ | .setUsers _ | .arrive _ _ _ | .acquire _ | .timeout _ | .answer _ => isTrue trivial

/-- The wrong passwords of an address are counted or still to be counted, which together are at most
those that start a block; and nothing is pending of an address that is blocked. -/
structure Inv (s : Logins IpAddr) : Prop where
  wrong : ∀ a, s.wrong a ≤ s.counted a + s.uncounted a
  bound : ∀ a, s.counted a + s.uncounted a ≤ maxFailuresPerAddress
  pending : ∀ a, s.counted a = maxFailuresPerAddress →
    ∀ task ∈ s.tasks, task.address = some a → task.stage.pending = false

/-- What a request in another stage does to the number of those that are not counted. -/
theorem uncounted_put {i : ℕ} {task : LoginTask IpAddr} (hi : s.tasks[i]? = some task)
    (stage : LoginStage) (a : IpAddr) :
    (s.put i task stage).uncounted a +
        (if task.address = some a ∧ task.stage = .checked false then 1 else 0) =
      s.uncounted a + if task.address = some a ∧ stage = .checked false then 1 else 0 := by
  obtain ⟨hlt, rfl⟩ := List.getElem?_eq_some_iff.1 hi
  have hpos : (if s.tasks[i].address = some a ∧ s.tasks[i].stage = .checked false then 1 else 0) ≤
      s.tasks.countP fun task => task.address = some a ∧ task.stage = .checked false := by
    split_ifs with h
    · exact List.countP_pos_iff.2 ⟨_, List.getElem_mem hlt, by simpa using h⟩
    · exact Nat.zero_le _
  unfold uncounted put
  rw [List.countP_set hlt]
  simp only [decide_eq_true_eq] at hpos ⊢
  omega

/-- A request whose password is not being counted goes on. -/
theorem inv_put {i : ℕ} {task : LoginTask IpAddr} {stage : LoginStage} (h : Inv s)
    (hi : s.tasks[i]? = some task)
    (hold : task.address ≠ none → task.stage ≠ .checked false) (hnew : stage ≠ .checked false)
    (hpending : stage.pending = true → task.stage.pending = true) : Inv (s.put i task stage) := by
  have huncounted : ∀ a, (s.put i task stage).uncounted a = s.uncounted a := by
    intro a
    have hput := uncounted_put hi stage a
    rw [if_neg fun h => hold (by rw [h.1]; simp) h.2, if_neg fun h => hnew h.2] at hput
    exact hput
  refine ⟨fun a => ?_, fun a => ?_, fun a hfull task' ht haddress => ?_⟩
  · rw [huncounted]
    exact h.wrong a
  · rw [huncounted]
    exact h.bound a
  · rcases List.mem_or_eq_of_mem_set ht with hmem | rfl
    · exact h.pending a hfull task' hmem haddress
    · have htask := h.pending a hfull task (List.mem_of_getElem? hi) haddress
      by_contra hp
      have := hpending (by simpa using hp)
      rw [htask] at this
      cases this

/-- Time passing keeps the invariant. -/
theorem inv_tick {duration : ℕ} (h : Inv s) : Inv (s.tick duration) := by
  have hcounted : ∀ a, (s.tick duration).counted a = s.counted a ∨
      (s.tick duration).counted a = 0 := fun a =>
    FailureMap.counted_add_eq s.limits.byAddress a s.now duration
  refine ⟨fun a => ?_, fun a => ?_, fun a hfull => ?_⟩
  · have hwrong := h.wrong a
    have hw : (s.tick duration).wrong a =
        if 0 < s.counted a ∧ (s.tick duration).counted a = 0 then 0 else s.wrong a := rfl
    have hu : (s.tick duration).uncounted a = s.uncounted a := rfl
    rw [hw, hu]
    rcases hcounted a with heq | heq
    · split_ifs <;> omega
    · split_ifs <;> omega
  · have hbound := h.bound a
    have hu : (s.tick duration).uncounted a = s.uncounted a := rfl
    rcases hcounted a with heq | heq <;> omega
  · rcases hcounted a with heq | heq
    · exact h.pending a (heq.symm.trans hfull)
    · rw [heq] at hfull
      cases hfull

/-- A new request keeps the invariant. -/
theorem inv_arrive {address : Option IpAddr} {username password : String} (h : Inv s) :
    Inv (s.arrive address username password) := by
  have hnew : ∀ stage : LoginStage, stage ≠ .checked false →
      (∀ a, address = some a → s.counted a = maxFailuresPerAddress → stage.pending = false) →
      Inv { s with tasks := s.tasks ++ [⟨address, username, password, stage⟩] } := by
    intro stage hstage hpending
    have huncounted : ∀ a, uncounted { s with
        tasks := s.tasks ++ [⟨address, username, password, stage⟩] } a = s.uncounted a := by
      intro a
      simp [uncounted, hstage]
    refine ⟨fun a => ?_, fun a => ?_, fun a hfull task ht haddress => ?_⟩
    · rw [huncounted]
      exact h.wrong a
    · rw [huncounted]
      exact h.bound a
    · rcases List.mem_append.1 ht with hmem | hnew
      · exact h.pending a hfull task hmem haddress
      · obtain rfl := List.mem_singleton.1 hnew
        exact hpending a haddress hfull
  unfold arrive
  cases hblocked : s.limits.blockedAddress address s.now with
  | some wait => exact hnew _ (by simp) fun _ _ _ => rfl
  | none =>
    refine hnew .waiting (by simp) fun a haddress hfull => ?_
    have hlt := LoginLimits.blockedAddress_eq_none_iff.1 hblocked a haddress
    exact absurd hfull (Nat.ne_of_lt hlt)

omit [DecidableEq IpAddr] in
/-- A request in another stage, of which nothing is pending that was not before. -/
theorem pending_put {i : ℕ} {task task' : LoginTask IpAddr} {stage : LoginStage} {a : IpAddr}
    (hstage : stage.pending = false)
    (h : ∀ other ∈ s.tasks, other.address = some a → other.stage.pending = false)
    (ht : task' ∈ (s.put i task stage).tasks) (haddress : task'.address = some a) :
    task'.stage.pending = false := by
  rcases List.mem_or_eq_of_mem_set ht with hmem | rfl
  · exact h task' hmem haddress
  · exact hstage

/-- A password that is checked while there is room keeps the invariant. -/
theorem inv_verify {i : ℕ} {task : LoginTask IpAddr} (h : Inv s) (hi : s.tasks[i]? = some task)
    (hstage : task.stage = .permitted)
    (hroom : ∀ a, task.address = some a → s.users.verify x task.username task.password = none →
      s.counted a + s.uncounted a < maxFailuresPerAddress) : Inv (s.verify x i task) := by
  set right := (s.users.verify x task.username task.password).isSome with hright
  have hcounted : ∀ a, (s.verify x i task).counted a = s.counted a := fun _ => rfl
  have huncounted : ∀ a, (s.verify x i task).uncounted a =
      s.uncounted a + if task.address = some a ∧ right = false then 1 else 0 := by
    intro a
    have hput := uncounted_put hi (.checked right) a
    have hu : (s.verify x i task).uncounted a = (s.put i task (.checked right)).uncounted a := rfl
    rw [hstage, if_neg (by simp)] at hput
    rw [hu]
    simpa using hput
  have hwrong : ∀ a, (s.verify x i task).wrong a =
      s.wrong a + if task.address = some a ∧ right = false then 1 else 0 := by
    intro a
    show (if task.address = some a ∧ right = false then s.wrong a + 1 else s.wrong a) = _
    split_ifs <;> rfl
  refine ⟨fun a => ?_, fun a => ?_, fun a hfull task' ht haddress => ?_⟩
  · have := h.wrong a
    rw [hcounted, huncounted, hwrong]
    omega
  · rw [hcounted, huncounted]
    split_ifs with hw
    · have := hroom a hw.1 (by simpa [hright] using hw.2)
      omega
    · exact h.bound a
  · exact pending_put rfl (h.pending a hfull) ht haddress

/-- A right password that is counted keeps the invariant. -/
theorem inv_settle_right {i : ℕ} {task : LoginTask IpAddr} (h : Inv s)
    (hi : s.tasks[i]? = some task) (hstage : task.stage = .checked true) :
    Inv (s.settle i task true) := by
  have hcounted : ∀ a, (s.settle i task true).counted a =
      if task.address = some a then 0 else s.counted a := fun a =>
    LoginLimits.counted_succeeded s.limits task.address task.username s.now a
  have huncounted : ∀ a, (s.settle i task true).uncounted a = s.uncounted a := by
    intro a
    have hput := uncounted_put hi (.settled none) a
    rw [hstage, if_neg (by simp), if_neg (by simp)] at hput
    exact hput
  have hwrong : ∀ a, (s.settle i task true).wrong a =
      if task.address = some a then 0 else s.wrong a := fun _ => rfl
  refine ⟨fun a => ?_, fun a => ?_, fun a hfull task' ht haddress => ?_⟩
  · have := h.wrong a
    rw [hcounted, huncounted, hwrong]
    split_ifs <;> omega
  · have := h.bound a
    rw [hcounted, huncounted]
    split_ifs <;> omega
  · rw [hcounted] at hfull
    split_ifs at hfull
    · cases hfull
    · exact pending_put rfl (h.pending a hfull) ht haddress

/-- A wrong password that is counted keeps the invariant, unless others wait behind it. -/
theorem inv_settle_wrong {i : ℕ} {task : LoginTask IpAddr} (h : Inv s)
    (hi : s.tasks[i]? = some task) (hstage : task.stage = .checked false)
    (hlast : ∀ a, task.address = some a → s.counted a + 1 = maxFailuresPerAddress →
      ∀ other ∈ s.tasks, other.address = some a → other.stage.pending = false) :
    Inv (s.settle i task false) := by
  have hfail : ∀ a, (s.settle i task false).counted a =
      if task.address = some a then (s.counted a + 1) % 2 ^ 32 else s.counted a := fun a =>
    LoginLimits.counted_failed s.limits task.address task.username s.now a
  -- the failure was still to be counted
  have huncounted : ∀ a, (s.settle i task false).uncounted a +
      (if task.address = some a then 1 else 0) = s.uncounted a := by
    intro a
    obtain ⟨refusal, hu⟩ : ∃ refusal, (s.settle i task false).uncounted a =
        (s.put i task (.settled refusal)).uncounted a := ⟨_, rfl⟩
    have hput := uncounted_put hi (.settled refusal) a
    rw [hstage, ← hu] at hput
    simpa using hput
  have hcounted : ∀ a, (s.settle i task false).counted a =
      s.counted a + if task.address = some a then 1 else 0 := by
    intro a
    have hu := huncounted a
    have hb := h.bound a
    unfold maxFailuresPerAddress at hb
    rw [hfail]
    split_ifs at hu ⊢
    · rw [Nat.mod_eq_of_lt (by omega)]
    · rfl
  have hwrong : ∀ a, (s.settle i task false).wrong a = s.wrong a := fun _ => rfl
  refine ⟨fun a => ?_, fun a => ?_, fun a hfull task' ht haddress => ?_⟩
  · have := h.wrong a
    have := huncounted a
    rw [hcounted, hwrong]
    omega
  · have := h.bound a
    have := huncounted a
    rw [hcounted]
    omega
  · refine pending_put rfl ?_ ht haddress
    rw [hcounted] at hfull
    split_ifs at hfull with ha
    · exact hlast a ha hfull
    · exact h.pending a hfull

/-- Every orderly step keeps the invariant. -/
theorem inv_step {op : Op IpAddr} (h : Inv s) (hop : Orderly x s op)
    (hs : step x s op = some t) : Inv t := by
  cases op with
  | tick duration =>
    cases hs
    exact inv_tick h
  | setUsers users =>
    cases hs
    exact ⟨h.wrong, h.bound, h.pending⟩
  | arrive address username password =>
    cases hs
    exact inv_arrive h
  | acquire i =>
    simp only [step, Option.bind_eq_bind, Option.bind_eq_some_iff] at hs
    obtain ⟨task, hi, hs⟩ := hs
    split_ifs at hs with hstage
    cases hs
    exact inv_put h hi (fun _ => by simp [hstage.1]) (by simp) fun _ => by rw [hstage.1]; rfl
  | timeout i =>
    simp only [step, Option.bind_eq_bind, Option.bind_eq_some_iff] at hs
    obtain ⟨task, hi, hs⟩ := hs
    split_ifs at hs with hstage
    cases hs
    exact inv_put h hi (fun _ => by simp [hstage]) (by simp) fun hp => (nomatch hp)
  | verify i =>
    simp only [step, Option.bind_eq_bind, Option.bind_eq_some_iff] at hs
    obtain ⟨task, hi, hs⟩ := hs
    split_ifs at hs with hstage
    cases hs
    exact inv_verify h hi hstage fun a => hop task a hi
  | settle i =>
    simp only [step, Option.bind_eq_bind, Option.bind_eq_some_iff] at hs
    obtain ⟨task, hi, hs⟩ := hs
    split at hs
    next right hstage =>
      cases hs
      cases right with
      | true => exact inv_settle_right h hi hstage
      | false => exact inv_settle_wrong h hi hstage fun a ha => hop task a hi ha hstage
    next => cases hs
  | answer i =>
    simp only [step, Option.bind_eq_bind, Option.bind_eq_some_iff] at hs
    obtain ⟨task, hi, hs⟩ := hs
    split at hs
    next refusal hstage =>
      cases hs
      exact inv_put h hi (fun _ => by simp [hstage]) (by simp) fun hp => (nomatch hp)
    next => cases hs
  | drop i =>
    simp only [step, Option.bind_eq_bind, Option.bind_eq_some_iff] at hs
    obtain ⟨task, hi, hs⟩ := hs
    split at hs
    next => cases hs
    next =>
      cases hs
      exact inv_put h hi (hop task hi) (by simp) fun hp => (nomatch hp)

/-- What the steps keep is the limit. -/
theorem limited_of_inv {op : Op IpAddr} (h : Inv s) (hop : Orderly x s op) : Limited x s op := by
  constructor
  · intro t hs a
    have hinv := inv_step h hop hs
    exact (hinv.wrong a).trans (hinv.bound a)
  · rintro i task rfl hi hstage
    refine LoginLimits.blockedAddress_eq_none_iff.2 fun a ha => ?_
    have hle : s.counted a ≤ maxFailuresPerAddress := (Nat.le_add_right _ _).trans (h.bound a)
    refine lt_of_le_of_ne hle fun hfull => ?_
    have hpending := h.pending a hfull task (List.mem_of_getElem? hi) ha
    rw [hstage] at hpending
    cases hpending

/-- The web server starts without failures and requests. -/
def start (users : UserDb) : Logins IpAddr := { users := users }

/-- The invariant holds at the start. -/
theorem inv_start (users : UserDb) : Inv (start users : Logins IpAddr) := by
  refine ⟨fun a => ?_, fun a => ?_, fun a _ task ht => ?_⟩
  · exact Nat.zero_le _
  · exact Nat.zero_le _
  · cases ht

/-- **The limit on failed logins**: in every run of orderly steps from the start, at most as many
wrong passwords of an address are checked between two resets as start a block, and no request is
checked while its address is blocked. -/
theorem limited_of_run {users : UserDb} {ops : List (Op IpAddr)}
    (hops : Machine.Meets (step x) (Orderly x) (start users) ops) :
    Machine.Meets (step x) (Limited x) (start users) ops :=
  hops.of_invariant (I := Inv) (fun _ _ _ hs hop ht => inv_step hs hop ht)
    (fun _ _ hs hop => limited_of_inv hs hop) (inv_start users)

/-- Nobody's password is right. -/
def noPassword : AuthCrates := ⟨fun _ _ => false, id⟩

/-- Five logins from an address, one after the other, a sixth one that is blocked, one from another
address, and another one when the block is over. -/
def patientLogins : List (Op ℕ) :=
  ((List.range 5).flatMap fun i =>
    [.arrive (some 1) "admin" "guess", .acquire i, .verify i, .settle i, .answer i]) ++
  [.arrive (some 1) "admin" "guess", .arrive (some 2) "admin" "guess", .acquire 6, .verify 6,
    .settle 6, .answer 6, .tick blockTime, .arrive (some 1) "admin" "guess", .acquire 7, .verify 7,
    .settle 7, .answer 7]

/-- Five wrong passwords in turn: the sixth login has to wait, and one behind the block does not. -/
theorem limited_of_run_patientLogins : ∃ t,
    Machine.run (step noPassword) (start {}) patientLogins = some t ∧
      (t.tasks.map (·.stage))[5]? = some (.answered (some (.tooManyFailed blockTime))) ∧
      Machine.Meets (step noPassword) (Limited noPassword) (start {}) patientLogins := by
  have hrun : (Machine.run (step noPassword) (start {}) patientLogins).map
      (fun t => (t.tasks.map (·.stage))[5]?) =
        some (some (.answered (some (.tooManyFailed blockTime)))) := by decide +kernel
  obtain ⟨t, ht, hblocked⟩ := Option.map_eq_some_iff.1 hrun
  exact ⟨t, ht, hblocked, limited_of_run (by decide +kernel)⟩

/-- Six logins from one address arrive at once, and then one after the other gets a permit. -/
def burst : List (Op ℕ) :=
  List.replicate 6 (.arrive (some 1) "admin" "guess") ++
    (List.range 6).flatMap fun i => [.acquire i, .verify i, .settle i, .answer i]

/-- All six passwords are checked: the sixth waited for its permit when the block began. -/
theorem burst_exceeds :
    ∃ t, Machine.run (step noPassword) (start {}) burst = some t ∧
      maxFailuresPerAddress < t.wrong 1 := by
  have hrun : (Machine.run (step noPassword) (start {}) burst).map (fun t => t.wrong 1) =
      some 6 := by decide +kernel
  obtain ⟨t, ht, hwrong⟩ := Option.map_eq_some_iff.1 hrun
  exact ⟨t, ht, by rw [hwrong]; decide⟩

end Logins

end AuditGateway
