import AuditGateway.Lib.UniqueTable
import Mathlib.Algebra.BigOperators.Group.List.Basic
import Mathlib.Data.Rat.Defs
import Mathlib.Algebra.Order.Field.Rat

set_option relaxedAutoImplicit false
set_option autoImplicit false

/-!
# Which connections a target accepts

A target has room for so many connections, in all and from each address, and an address may open so
many in a second. What was refused is counted per address until it is reported, and a report forgets
the addresses that are idle.

## Main definitions

* `Admission`, `AddressState` — the connections that were accepted, in all and per address.
* `Admission.admitIp`, `Admission.release`, `Admission.takeRefused` — the operations.
* `Admission.activeOf`, `Admission.refusedOf`, `Admission.total` — what is counted.

## Main results

* `Admission.admitIp_cases` — what an attempt does.
* `Admission.get_release`, `Admission.get_takeRefused` — what the others do to an address.
-/

namespace AuditGateway

/-- New connections per second one address may open (with a burst of twice that). -/
def connectionRate : ℚ := 5

/-- How long an idle address is remembered, in seconds. -/
def idleSecs : ℚ := 60

/-- The connections of an address. Instants are in seconds. -/
structure AddressState (Ip : Type) where
  ip : Ip
  active : ℕ
  tokens : ℚ
  last : ℚ
  refused : ℕ
  reason : String

/-- Decides which new connections a target accepts. -/
structure Admission (Ip : Type) where
  maxTotal : ℕ
  maxPerAddress : ℕ
  active : ℕ
  addresses : UniqueTable (AddressState Ip) AddressState.ip

variable {Ip : Type}

/-- Seconds since an earlier instant; none since a later one. -/
def secsSince (now last : ℚ) : ℚ := max (now - last) 0

namespace Admission

/-- A target that accepts its first connections. -/
def new (Ip : Type) (maxTotal maxPerAddress : ℕ) : Admission Ip :=
  ⟨maxTotal, maxPerAddress, 0, .empty _⟩

section Operations

variable [DecidableEq Ip] (a : Admission Ip)

/-- The state of an address with its tokens of now. -/
def entry (now : ℚ) (ip : Ip) : AddressState Ip :=
  let state := (a.addresses.get ip).getD ⟨ip, 0, 2 * connectionRate, now, 0, ""⟩
  { state with
    tokens := min (state.tokens + secsSince now state.last * connectionRate) (2 * connectionRate)
    last := now }

/-- Why a connection is refused. -/
def refusal (now : ℚ) (ip : Ip) : Option String :=
  let state := a.entry now ip
  if a.maxTotal ≤ a.active then some "too many connections to this target"
  else if a.maxPerAddress ≤ state.active then some "too many connections from this address"
  else if state.tokens < 1 then some "too many new connections per second from this address"
  else none

/-- Admits a connection, or counts its refusal. -/
def admitIp (now : ℚ) (ip : Ip) : Admission Ip × Except Unit Unit :=
  let state := a.entry now ip
  match a.refusal now ip with
  | none =>
    ({ a with
        active := a.active + 1
        addresses :=
          a.addresses.put { state with tokens := state.tokens - 1, active := state.active + 1 } },
      .ok ())
  | some reason =>
    ({ a with addresses := a.addresses.put { state with refused := state.refused + 1, reason } },
      .error ())

/-- A connection of an address ends. -/
def release (ip : Ip) : Admission Ip :=
  { a with
    active := a.active - 1
    addresses := a.addresses.modify (fun s => s.ip = ip)
      (fun s => { s with active := s.active - 1 }) fun _ => rfl }

/-- Refusals since the last call, per address; forgets idle addresses. -/
def takeRefused (now : ℚ) : Admission Ip × List (Ip × ℕ × String) :=
  ({ a with
      addresses := (a.addresses.modify (fun s => 0 < s.refused)
        (fun s => { s with refused := 0 }) fun _ => rfl).deleteWhere fun s =>
          ¬(0 < s.active ∨ secsSince now s.last < idleSecs) },
    (a.addresses.rows.filter fun s => 0 < s.refused).map fun s => (s.ip, s.refused, s.reason))

/-! ## What is counted -/

/-- The connections of an address. -/
def activeOf (ip : Ip) : ℕ := (a.addresses.get ip).elim 0 (·.active)

/-- The refusals of an address that were not reported yet. -/
def refusedOf (ip : Ip) : ℕ := (a.addresses.get ip).elim 0 (·.refused)

end Operations

/-- The connections of all addresses. -/
def total (a : Admission Ip) : ℕ := (a.addresses.rows.map (·.active)).sum

variable [DecidableEq Ip] {a : Admission Ip}

/-! ## An attempt -/

/-- An entry is that of its address. -/
@[simp] theorem entry_ip (a : Admission Ip) (now : ℚ) (ip : Ip) : (a.entry now ip).ip = ip := by
  unfold entry
  cases h : a.addresses.get ip with
  | none => rfl
  | some s => exact (UniqueTable.get_eq_some_iff.1 h).2

/-- The entry of an address has its connections. -/
@[simp] theorem entry_active (a : Admission Ip) (now : ℚ) (ip : Ip) :
    (a.entry now ip).active = a.activeOf ip := by
  unfold entry activeOf
  cases a.addresses.get ip <;> rfl

/-- The entry of an address has those that were refused. -/
@[simp] theorem entry_refused (a : Admission Ip) (now : ℚ) (ip : Ip) :
    (a.entry now ip).refused = a.refusedOf ip := by
  unfold entry refusedOf
  cases a.addresses.get ip <;> rfl

/-- A state is stored for the address of an attempt; the others keep theirs. -/
theorem get_admitIp (a : Admission Ip) (now : ℚ) (ip k : Ip) :
    (a.admitIp now ip).1.addresses.get k = if k = ip then
      some (match a.refusal now ip with
        | none =>
          let state := a.entry now ip
          { state with tokens := state.tokens - 1, active := state.active + 1 }
        | some reason =>
          let state := a.entry now ip
          { state with refused := state.refused + 1, reason })
    else a.addresses.get k := by
  unfold admitIp
  cases a.refusal now ip with
  | none =>
    dsimp only
    rw [UniqueTable.get_put, entry_ip]
  | some reason =>
    dsimp only
    rw [UniqueTable.get_put, entry_ip]

/-- What an attempt does that is not refused. -/
structure Admitted (a b : Admission Ip) (ip : Ip) : Prop where
  maxTotal : b.maxTotal = a.maxTotal
  maxPerAddress : b.maxPerAddress = a.maxPerAddress
  active : b.active = a.active + 1
  activeOf : ∀ k, b.activeOf k = a.activeOf k + if k = ip then 1 else 0
  refusedOf : ∀ k, b.refusedOf k = a.refusedOf k
  total : b.total = a.total + 1
  room : a.active < a.maxTotal
  roomOf : a.activeOf ip < a.maxPerAddress

/-- What a refused attempt does. -/
structure Refused (a b : Admission Ip) (ip : Ip) : Prop where
  maxTotal : b.maxTotal = a.maxTotal
  maxPerAddress : b.maxPerAddress = a.maxPerAddress
  active : b.active = a.active
  activeOf : ∀ k, b.activeOf k = a.activeOf k
  refusedOf : ∀ k, b.refusedOf k = a.refusedOf k + if k = ip then 1 else 0
  total : b.total = a.total

section Put

variable {b : Admission Ip} {state : AddressState Ip}
  (h : b.addresses = a.addresses.put state)

include h

/-- What is put changes the connections of its address only. -/
theorem activeOf_of_put (k : Ip) :
    b.activeOf k = if k = state.ip then state.active else a.activeOf k := by
  unfold activeOf
  rw [h, UniqueTable.get_put]
  split_ifs <;> rfl

/-- What is put changes what was refused to its address only. -/
theorem refusedOf_of_put (k : Ip) :
    b.refusedOf k = if k = state.ip then state.refused else a.refusedOf k := by
  unfold refusedOf
  rw [h, UniqueTable.get_put]
  split_ifs <;> rfl

/-- The connections in all are those that were put in place of the old ones. -/
theorem total_of_put : b.total + a.activeOf state.ip = a.total + state.active := by
  unfold total
  rw [h]
  exact UniqueTable.sum_put a.addresses (·.active) state

end Put

/-- An address that is not refused gets a connection. -/
theorem admitted_admitIp {now : ℚ} {ip : Ip} (h : a.refusal now ip = none) :
    (a.admitIp now ip).2 = .ok () ∧ Admitted a (a.admitIp now ip).1 ip := by
  have hroom : a.active < a.maxTotal ∧ a.activeOf ip < a.maxPerAddress := by
    unfold refusal at h
    simp only [entry_active] at h
    split_ifs at h with hfull hfullOf
    omega
  obtain ⟨state, rfl, hactive, hrefused, hadmits⟩ : ∃ state : AddressState Ip, state.ip = ip ∧
      state.active = a.activeOf ip + 1 ∧ state.refused = a.refusedOf ip ∧ a.admitIp now ip =
        ({ a with active := a.active + 1, addresses := a.addresses.put state }, .ok ()) := by
    refine ⟨{ a.entry now ip with
      tokens := (a.entry now ip).tokens - 1
      active := (a.entry now ip).active + 1 }, by simp, by simp, by simp, ?_⟩
    unfold admitIp
    rw [h]
  rw [hadmits]
  refine ⟨rfl, rfl, rfl, rfl, fun k => ?_, fun k => ?_, ?_, hroom.1, hroom.2⟩
  · rw [activeOf_of_put rfl, hactive]
    split_ifs with hk
    · rw [hk]
    · rfl
  · rw [refusedOf_of_put rfl, hrefused]
    split_ifs with hk
    · rw [hk]
    · rfl
  · have htotal := total_of_put (a := a)
      (b := { a with active := a.active + 1, addresses := a.addresses.put state }) rfl
    dsimp only
    omega

/-- One that is refused does not, and this is counted. -/
theorem refused_admitIp {now : ℚ} {ip : Ip} {reason : String}
    (h : a.refusal now ip = some reason) :
    (a.admitIp now ip).2 = .error () ∧ Refused a (a.admitIp now ip).1 ip := by
  obtain ⟨state, rfl, hactive, hrefused, hadmits⟩ : ∃ state : AddressState Ip, state.ip = ip ∧
      state.active = a.activeOf ip ∧ state.refused = a.refusedOf ip + 1 ∧ a.admitIp now ip =
        ({ a with addresses := a.addresses.put state }, .error ()) := by
    refine ⟨{ a.entry now ip with refused := (a.entry now ip).refused + 1, reason },
      by simp, by simp, by simp, ?_⟩
    unfold admitIp
    rw [h]
  rw [hadmits]
  refine ⟨rfl, rfl, rfl, rfl, fun k => ?_, fun k => ?_, ?_⟩
  · rw [activeOf_of_put rfl, hactive]
    split_ifs with hk
    · rw [hk]
    · rfl
  · rw [refusedOf_of_put rfl, hrefused]
    split_ifs with hk
    · rw [hk]
    · rfl
  · have htotal := total_of_put (a := a) (b := { a with addresses := a.addresses.put state }) rfl
    dsimp only
    omega

/-- **What an attempt does**: it is counted as a connection, or as a refusal. -/
theorem admitIp_cases (a : Admission Ip) (now : ℚ) (ip : Ip) :
    (a.admitIp now ip).2 = .ok () ∧ Admitted a (a.admitIp now ip).1 ip ∨
      (a.admitIp now ip).2 = .error () ∧ Refused a (a.admitIp now ip).1 ip := by
  cases hrefusal : a.refusal now ip with
  | none => exact .inl (admitted_admitIp hrefusal)
  | some reason => exact .inr (refused_admitIp hrefusal)

/-! ## The end of a connection, and a report -/

/-- The entries behind the end of a connection. -/
theorem get_release (a : Admission Ip) (ip k : Ip) :
    (a.release ip).addresses.get k = (a.addresses.get k).map fun s =>
      if s.ip = ip then { s with active := s.active - 1 } else s := by
  unfold release
  rw [UniqueTable.get_modify]
  simp only [decide_eq_true_eq]

/-- The entries behind a report of refused connections. -/
theorem get_takeRefused (a : Admission Ip) (now : ℚ) (k : Ip) :
    (a.takeRefused now).1.addresses.get k = ((a.addresses.get k).map fun s =>
      { s with refused := 0 }).filter fun s =>
        0 < s.active ∨ secsSince now s.last < idleSecs := by
  unfold takeRefused
  rw [UniqueTable.get_deleteWhere, UniqueTable.get_modify]
  simp only [decide_not, Bool.not_not]
  cases a.addresses.get k with
  | none => rfl
  | some s =>
    by_cases hrefused : 0 < s.refused
    · simp [hrefused]
    · have hs : { s with refused := 0 } = s := by
        obtain ⟨ip, active, tokens, last, refused, reason⟩ := s
        obtain rfl : refused = 0 := by simpa using hrefused
        rfl
      simp [hrefused, hs]

/-- The end of a connection of the address. -/
theorem activeOf_release (a : Admission Ip) (ip k : Ip) :
    (a.release ip).activeOf k = a.activeOf k - if k = ip then 1 else 0 := by
  unfold activeOf
  rw [get_release]
  cases h : a.addresses.get k with
  | none => simp
  | some s =>
    have hkey : s.ip = k := (UniqueTable.get_eq_some_iff.1 h).2
    by_cases hk : k = ip
    · simp [hkey, hk]
    · simp [hkey, hk]

/-- The end of a connection changes nothing of what was refused. -/
theorem refusedOf_release (a : Admission Ip) (ip k : Ip) :
    (a.release ip).refusedOf k = a.refusedOf k := by
  unfold refusedOf
  rw [get_release]
  cases a.addresses.get k with
  | none => rfl
  | some s => simp only [Option.map_some, Option.elim_some]; split_ifs <;> rfl

/-- The end of a connection is one connection less. -/
theorem total_release (a : Admission Ip) {ip : Ip} (h : 0 < a.activeOf ip) :
    (a.release ip).total + 1 = a.total := by
  have hsum := UniqueTable.sum_modify a.addresses (·.active) ip
    (fun s => { s with active := s.active - 1 }) fun _ => rfl
  have hold : (a.addresses.get ip).elim 0 (fun s => s.active - 1) = a.activeOf ip - 1 := by
    unfold activeOf
    cases a.addresses.get ip <;> rfl
  have htotal : (a.release ip).total + a.activeOf ip = a.total + (a.activeOf ip - 1) := by
    rw [← hold]
    exact hsum
  omega

/-- A report forgets no connection. -/
theorem activeOf_takeRefused (a : Admission Ip) (now : ℚ) (k : Ip) :
    (a.takeRefused now).1.activeOf k = a.activeOf k := by
  unfold activeOf
  rw [get_takeRefused]
  cases a.addresses.get k with
  | none => rfl
  | some s =>
    rw [Option.map_some, Option.filter_some]
    split_ifs with hkeep
    · rfl
    · simp only [decide_eq_true_eq, not_or, not_lt, Nat.le_zero] at hkeep
      exact hkeep.1.symm

/-- Behind a report nothing is refused that is not reported. -/
theorem refusedOf_takeRefused (a : Admission Ip) (now : ℚ) (k : Ip) :
    (a.takeRefused now).1.refusedOf k = 0 := by
  unfold refusedOf
  rw [get_takeRefused]
  cases a.addresses.get k with
  | none => rfl
  | some s =>
    rw [Option.map_some, Option.filter_some]
    split_ifs <;> rfl

omit [DecidableEq Ip] in
/-- A report changes no number of connections. -/
theorem total_takeRefused (a : Admission Ip) (now : ℚ) :
    (a.takeRefused now).1.total = a.total := by
  unfold total takeRefused
  rw [UniqueTable.sum_deleteWhere]
  · rw [UniqueTable.modify, List.map_map]
    congr 1
    refine List.map_congr_left fun s _ => ?_
    simp only [Function.comp_apply]
    split_ifs <;> rfl
  · intro s _ hidle
    simp only [not_or, decide_eq_true_eq, not_lt, Nat.le_zero] at hidle
    exact hidle.1

/-- What is reported of an address is what was counted of it. -/
theorem mem_takeRefused {now : ℚ} {ip : Ip} {count : ℕ} {reason : String} :
    (ip, count, reason) ∈ (a.takeRefused now).2 → count = a.refusedOf ip ∧ 0 < count := by
  intro h
  obtain ⟨s, hs, heq⟩ := List.mem_map.1 h
  obtain ⟨hs, hrefused⟩ := List.mem_filter.1 hs
  cases heq
  have hget := UniqueTable.get_eq_some_iff.2 ⟨hs, rfl⟩
  refine ⟨?_, of_decide_eq_true hrefused⟩
  unfold refusedOf
  rw [hget]
  rfl

end Admission

end AuditGateway
