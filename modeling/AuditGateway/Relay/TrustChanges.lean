import AuditGateway.Lib.Machine
import Mathlib.Data.List.Basic
import Mathlib.Order.Nat

set_option relaxedAutoImplicit false
set_option autoImplicit false

/-!
# Trust that is revoked

An administrator can take the trust from a certificate while clients are connected with it. Its file
leaves the trusted directory first, and then a number goes up in every relay of the map, under the
lock of the map. A connection looks at the directory when a channel is opened or renewed, when it
connects to the target, and again when it finds that the number is not the one it has seen last.

## Main definitions

* `TrustChanges` — the directory, the relays with their numbers, the connections and the calls.
* `TrustChanges.Excused` — why a connection can still rest on a certificate.

## Main results

* `TrustChanges.excused_of_run` — a connection takes no request on a certificate without trust,
  unless it has not looked since, or the call is not through.
* `TrustChanges.not_handled_of_revoked` — once the calls are through, a connection that has looked
  takes no request on a certificate whose trust is revoked.

## Design

`validate_or_reject_application_instance_cert` can refuse for more reasons than the directory, so a
check that fails is a step that is always possible. A relay that is no longer in the map is not
told, as it is being stopped; but one whose place in the map was given to another runs on.
-/

namespace AuditGateway

/-- What a connection does, between two looks at the directory. -/
inductive TrustStage (C : Type*)
  | idle
  /-- `check_client_certificate` has passed, and the channel does not hold the certificate yet. -/
  | issuing (certificate : C)
  /-- `Upstream::connect` has checked the certificate of the server. -/
  | connecting (certificate : Option C)
  /-- `still_trusted` has not checked the certificate of the client yet. -/
  | checkingClient
  | checkingUpstream
  | closing

/-- A connection: what it has seen of the trust, and the certificates behind it. -/
structure TrustConnection (C : Type*) where
  relay : ℕ
  /-- The version of `trust_changed` that it has seen. -/
  seen : ℕ
  /-- The certificate of the client, on a secured channel. -/
  client : Option C := none
  /-- The server it is connected to, with its certificate if that channel is secured. -/
  upstream : Option (Option C) := none
  stage : TrustStage C := .idle

/-- A relay: the version of its trust, and whether it is in the map. -/
structure TrustRelay where
  /-- The version of `trust_changed`. -/
  version : ℕ := 0
  inMap : Bool := false

/-- A call of the handler `untrust`, whose file is moved. -/
structure Untrust (C : Type*) where
  certificate : C
  /-- The relays it has still to tell, once it has the lock of the map. -/
  remaining : Option (List ℕ) := none

/-- Who holds the lock of the map. -/
inductive MapLock
  | recheck (call : ℕ)
  /-- A change of the targets, with the relay that it has started and not put into the map yet. -/
  | manager (starting : Option ℕ)
  deriving DecidableEq

/-- The gateway as changes of trust see it. -/
structure TrustChanges (C : Type*) where
  /-- The trusted directory. -/
  trusted : List C
  relays : List TrustRelay := []
  lock : Option MapLock := none
  connections : List (TrustConnection C) := []
  untrusts : List (Untrust C) := []

namespace TrustChanges

variable {C : Type*}

/-- What can happen to the trust of a client and to its connections. -/
inductive Op (C : Type*)
  | trust (certificate : C)
  | untrust (certificate : C)
  /-- `recheck_trust` gets the lock. -/
  | recheck (call : ℕ)
  | tell (call : ℕ)
  | told (call : ℕ)
  | lockMap
  | start
  | insert
  | remove (relay : ℕ)
  | unlockMap
  | accept (relay : ℕ)
  /-- A channel is opened or renewed, and the certificate is trusted. -/
  | checked (i : ℕ) (certificate : C)
  | issued (i : ℕ)
  | connect (i : ℕ) (certificate : Option C)
  | connected (i : ℕ)
  /-- A request is taken on. -/
  | handle (i : ℕ)
  | changed (i : ℕ)
  | checkClient (i : ℕ)
  | checkUpstream (i : ℕ)
  | close (i : ℕ)

/-- A connection with a new state. -/
def put (s : TrustChanges C) (i : ℕ) (c : TrustConnection C) : TrustChanges C :=
  { s with connections := s.connections.set i c }

/-- A relay with a new state. -/
def putRelay (s : TrustChanges C) (r : ℕ) (relay : TrustRelay) : TrustChanges C :=
  { s with relays := s.relays.set r relay }

/-- The relays in the map. -/
def inMap (s : TrustChanges C) : List ℕ :=
  (List.range s.relays.length).filter fun r => (s.relays[r]?).any TrustRelay.inMap

section Steps

variable [DecidableEq C]

/-- A check of a certificate, if there is one. -/
def passes (s : TrustChanges C) (certificate : Option C) : Bool :=
  certificate.all fun c => c ∈ s.trusted

/-- One step of the gateway. -/
def step (s : TrustChanges C) : Op C → Option (TrustChanges C)
  | .trust certificate => some { s with trusted := certificate :: s.trusted }
  | .untrust certificate =>
    if certificate ∈ s.trusted then
      some { s with
        trusted := s.trusted.filter (· ≠ certificate)
        untrusts := s.untrusts ++ [⟨certificate, none⟩] }
    else none
  | .recheck call =>
    match s.lock, s.untrusts[call]? with
    | none, some ⟨certificate, none⟩ =>
      some { s with
        lock := some (.recheck call)
        untrusts := s.untrusts.set call ⟨certificate, some s.inMap⟩ }
    | _, _ => none
  | .tell call =>
    match s.untrusts[call]? with
    | some ⟨certificate, some (r :: rs)⟩ =>
      match s.relays[r]? with
      | some relay =>
        some { s.putRelay r { relay with version := relay.version + 1 } with
          untrusts := s.untrusts.set call ⟨certificate, some rs⟩ }
      | none => none
    | _ => none
  | .told call =>
    match s.lock, s.untrusts[call]? with
    | some (.recheck call'), some ⟨_, some []⟩ =>
      if call' = call then some { s with lock := none } else none
    | _, _ => none
  | .lockMap => if s.lock = none then some { s with lock := some (.manager none) } else none
  | .start =>
    if s.lock = some (.manager none) then
      some { s with lock := some (.manager (some s.relays.length)), relays := s.relays ++ [{}] }
    else none
  | .insert =>
    match s.lock with
    | some (.manager (some r)) =>
      match s.relays[r]? with
      | some relay =>
        some { s.putRelay r { relay with inMap := true } with lock := some (.manager none) }
      | none => none
    | _ => none
  | .remove r =>
    match s.lock, s.relays[r]? with
    | some (.manager _), some relay => some (s.putRelay r { relay with inMap := false })
    | _, _ => none
  | .unlockMap =>
    match s.lock with
    | some (.manager _) => some { s with lock := none }
    | _ => none
  | .accept r =>
    match s.relays[r]? with
    | some relay =>
      some { s with connections := s.connections ++ [{ relay := r, seen := relay.version }] }
    | none => none
  | .checked i certificate =>
    match s.connections[i]? with
    | some c =>
      match c.stage with
      | .idle =>
        if s.passes (some certificate) then some (s.put i { c with stage := .issuing certificate })
        else none
      | _ => none
    | none => none
  | .issued i =>
    match s.connections[i]? with
    | some c =>
      match c.stage with
      | .issuing certificate => some (s.put i { c with client := some certificate, stage := .idle })
      | _ => none
    | none => none
  | .connect i certificate =>
    match s.connections[i]? with
    | some c =>
      match c.stage with
      | .idle =>
        if c.upstream = none ∧ s.passes certificate then
          some (s.put i { c with stage := .connecting certificate })
        else none
      | _ => none
    | none => none
  | .connected i =>
    match s.connections[i]? with
    | some c =>
      match c.stage with
      | .connecting certificate =>
        some (s.put i { c with upstream := some certificate, stage := .idle })
      | _ => none
    | none => none
  | .handle i =>
    match s.connections[i]? with
    | some c =>
      match c.stage with
      | .idle => if c.upstream = none then none else some s
      | _ => none
    | none => none
  | .changed i =>
    match s.connections[i]? with
    | some c =>
      match c.stage, s.relays[c.relay]? with
      | .idle, some relay =>
        if c.seen < relay.version then
          some (s.put i { c with seen := relay.version, stage := .checkingClient })
        else none
      | _, _ => none
    | none => none
  | .checkClient i =>
    match s.connections[i]? with
    | some c =>
      match c.stage with
      | .checkingClient =>
        some (s.put i { c with stage := if s.passes c.client then .checkingUpstream else .closing })
      | _ => none
    | none => none
  | .checkUpstream i =>
    match s.connections[i]? with
    | some c =>
      match c.stage with
      | .checkingUpstream =>
        some (s.put i { c with stage := if s.passes c.upstream.join then .idle else .closing })
      | _ => none
    | none => none
  | .close i =>
    match s.connections[i]? with
    | some c => some (s.put i { c with stage := .closing })
    | none => none

end Steps

/-! ## What a connection rests on -/

/-- The certificates on which a connection takes its requests. -/
def certificates (c : TrustConnection C) : List C := c.client.toList ++ c.upstream.join.toList

/-- What a connection has checked, and does not look at again before it takes a request. -/
def relied (c : TrustConnection C) : List C :=
  match c.stage with
  | .idle => certificates c
  | .issuing certificate => certificate :: certificates c
  | .connecting certificate => certificate.toList ++ certificates c
  | .checkingClient => []
  | .checkingUpstream => c.client.toList
  | .closing => []

/-- The relay is in the map, or is put into it before the lock is free. -/
def Known (s : TrustChanges C) (r : ℕ) : Prop :=
  (∃ relay, s.relays[r]? = some relay ∧ relay.inMap = true) ∨ s.lock = some (.manager (some r))

/-- The call has still to tell the relay. -/
def Reaches (u : Untrust C) (r : ℕ) : Prop := ∀ rs, u.remaining = some rs → r ∈ rs

/-- The certificate is trusted, the connection has not looked since trust in one was revoked, or a
call for this one is not through. -/
def Excused (s : TrustChanges C) (c : TrustConnection C) (certificate : C) : Prop :=
  certificate ∈ s.trusted ∨ (∃ relay, s.relays[c.relay]? = some relay ∧ c.seen < relay.version) ∨
    ∃ u ∈ s.untrusts, u.certificate = certificate ∧ Reaches u c.relay

/-- What holds in every reachable state. -/
structure Inv (s : TrustChanges C) : Prop where
  seen : ∀ c ∈ s.connections, ∃ relay, s.relays[c.relay]? = some relay ∧ c.seen ≤ relay.version
  excused : ∀ c ∈ s.connections, s.Known c.relay → ∀ certificate ∈ relied c,
    s.Excused c certificate

variable {s t : TrustChanges C} {op : Op C} {i : ℕ} {c c' : TrustConnection C}

/-- The certificates that a connection was checked with are its certificates. -/
lemma mem_certificates {x : C} (h : c.client = some x ∨ c.upstream = some (some x)) :
    x ∈ certificates c := by
  rcases h with h | h
  · exact List.mem_append_left _ (by simp [h])
  · exact List.mem_append_right _ (by simp [h])

/-- A step that leaves the connections as they are. -/
lemma Inv.of_connections (h : s.Inv) (hc : t.connections = s.connections)
    (hversion : ∀ (r : ℕ) (relay : TrustRelay), s.relays[r]? = some relay →
      ∃ relay', t.relays[r]? = some relay' ∧ relay.version ≤ relay'.version)
    (hknown : ∀ r, r < s.relays.length → t.Known r → s.Known r)
    (hexcused : ∀ c ∈ s.connections, t.Known c.relay → ∀ x,
      (x ∈ s.trusted ∨ ∃ u ∈ s.untrusts, u.certificate = x ∧ Reaches u c.relay) →
        t.Excused c x) : t.Inv where
  seen c hmem := by
    obtain ⟨relay, hrelay, hseen⟩ := h.seen c (hc ▸ hmem)
    obtain ⟨relay', hrelay', hle⟩ := hversion _ relay hrelay
    exact ⟨relay', hrelay', hseen.trans hle⟩
  excused c hmem hk x hx := by
    rw [hc] at hmem
    obtain ⟨relay, hrelay, -⟩ := h.seen c hmem
    have hlt := (List.getElem?_eq_some_iff.1 hrelay).1
    rcases h.excused c hmem (hknown _ hlt hk) x hx with hx | ⟨relay, hrelay, hseen⟩ | hx
    · exact hexcused c hmem hk x (.inl hx)
    · obtain ⟨relay', hrelay', hle⟩ := hversion _ relay hrelay
      exact .inr (.inl ⟨relay', hrelay', hseen.trans_le hle⟩)
    · exact hexcused c hmem hk x (.inr hx)

/-- A step of one connection. -/
lemma Inv.put (h : s.Inv) (hrelay : c'.relay = c.relay)
    (hseen : ∃ relay, s.relays[c.relay]? = some relay ∧ c'.seen ≤ relay.version)
    (hrelied : s.Known c.relay → ∀ certificate ∈ relied c', s.Excused c' certificate) :
    (s.put i c').Inv where
  seen d hd := by
    rcases List.mem_or_eq_of_mem_set hd with hd | rfl
    · exact h.seen d hd
    · rw [hrelay]
      exact hseen
  excused d hd hk certificate hcert := by
    rcases List.mem_or_eq_of_mem_set hd with hd | rfl
    · exact h.excused d hd hk certificate hcert
    · rw [hrelay] at hk
      exact hrelied hk certificate hcert

/-- A connection that has seen what it had seen, and rests on what it did and on what is trusted. -/
lemma Inv.put_of_relied (h : s.Inv) (hc : s.connections[i]? = some c) (hrelay : c'.relay = c.relay)
    (hseen : c'.seen = c.seen)
    (hrelied : ∀ certificate ∈ relied c', certificate ∈ relied c ∨ certificate ∈ s.trusted) :
    (s.put i c').Inv := by
  have hmem := List.mem_of_getElem? hc
  obtain ⟨relay, hr, hle⟩ := h.seen c hmem
  refine h.put hrelay ⟨relay, hr, hseen ▸ hle⟩ fun hk certificate hcert => ?_
  rcases hrelied certificate hcert with hcert | hcert
  · have hexcused := h.excused c hmem hk certificate hcert
    rwa [Excused, ← hrelay, ← hseen] at hexcused
  · exact .inl hcert

/-- A certificate that passes is trusted. -/
lemma mem_trusted_of_passes [DecidableEq C] {certificate : Option C}
    (h : s.passes certificate = true) {x : C} (hx : x ∈ certificate.toList) : x ∈ s.trusted := by
  obtain rfl := Option.mem_toList.1 hx
  simpa [passes] using h

/-- A relay that is in the map is found in it. -/
lemma mem_inMap {r : ℕ} {relay : TrustRelay} (hr : s.relays[r]? = some relay)
    (hin : relay.inMap = true) : r ∈ s.inMap := by
  simp only [inMap, List.mem_filter, List.mem_range, hr, Option.any_some, hin, and_true]
  exact (List.getElem?_eq_some_iff.1 hr).1

/-- The gateway before the first relay. -/
def start (trusted : List C) : TrustChanges C := { trusted := trusted }

/-- The invariant holds at the start. -/
lemma inv_empty (trusted : List C) : (TrustChanges.start trusted).Inv where
  seen c hc := by cases hc
  excused c hc := by cases hc

/-! ### The calls of `untrust` -/

/-- Trusting a certificate keeps the invariant. -/
lemma inv_trust (h : s.Inv) (certificate : C) :
    Inv { s with trusted := certificate :: s.trusted } := by
  refine h.of_connections rfl (fun r relay hr => ⟨relay, hr, le_rfl⟩) (fun r _ hk => hk) ?_
  rintro c - - x (hx | hx)
  · exact .inl (List.mem_cons_of_mem _ hx)
  · exact .inr (.inr hx)

/-- What is no longer trusted is what the call is for. -/
lemma inv_untrust [DecidableEq C] (h : s.Inv) (certificate : C) :
    Inv { s with
      trusted := s.trusted.filter (· ≠ certificate)
      untrusts := s.untrusts ++ [⟨certificate, none⟩] } := by
  refine h.of_connections rfl (fun r relay hr => ⟨relay, hr, le_rfl⟩) (fun r _ hk => hk) ?_
  rintro c - - x (hx | ⟨u, hu, hux⟩)
  · by_cases hxc : x = certificate
    · exact .inr (.inr ⟨⟨certificate, none⟩, by simp, hxc.symm, fun rs hrs => by cases hrs⟩)
    · exact .inl (by simpa [hxc] using hx)
  · exact .inr (.inr ⟨u, List.mem_append_left _ hu, hux⟩)

/-- A call that goes on reaches whom it reached. -/
lemma exists_reaches_set {call : ℕ} {certificate x : C} {before after : Option (List ℕ)} {r : ℕ}
    (hu : s.untrusts[call]? = some ⟨certificate, before⟩)
    (hafter : Reaches (Untrust.mk certificate before) r → Reaches (Untrust.mk certificate after) r)
    (h : ∃ u ∈ s.untrusts, u.certificate = x ∧ Reaches u r) :
    ∃ u ∈ s.untrusts.set call ⟨certificate, after⟩, u.certificate = x ∧ Reaches u r := by
  rw [Machine.exists_mem_set_iff hu]
  rcases (Machine.exists_mem_iff hu _).1 h with ⟨hx, hr⟩ | h
  · exact .inl ⟨hx, hafter hr⟩
  · exact .inr h

/-- The call has the lock of the map, so every relay that is known is in it. -/
lemma inv_recheck (h : s.Inv) {call : ℕ} {certificate : C}
    (hu : s.untrusts[call]? = some ⟨certificate, none⟩) :
    Inv { s with
      lock := some (.recheck call)
      untrusts := s.untrusts.set call ⟨certificate, some s.inMap⟩ } := by
  have hknown : ∀ r, Known { s with
      lock := some (.recheck call)
      untrusts := s.untrusts.set call ⟨certificate, some s.inMap⟩ } r →
        r ∈ s.inMap ∧ s.Known r := by
    rintro r (⟨relay, hr, hin⟩ | hlock')
    · exact ⟨mem_inMap hr hin, .inl ⟨relay, hr, hin⟩⟩
    · cases hlock'
  refine h.of_connections rfl (fun r relay hr => ⟨relay, hr, le_rfl⟩)
    (fun r _ hk => (hknown r hk).2) ?_
  rintro c - hk x (hx | hx)
  · exact .inl hx
  · refine .inr (.inr (exists_reaches_set hu (fun _ rs hrs => ?_) hx))
    obtain rfl := Option.some.inj hrs
    exact (hknown _ hk).1

/-- A relay behind a change is the changed one, or another one that stays. -/
lemma getElem?_set_of_eq {r r' : ℕ} {relay relay' q : TrustRelay} (hr : s.relays[r]? = some relay)
    (hq : (s.relays.set r relay')[r']? = some q) :
    r' = r ∧ q = relay' ∨ r' ≠ r ∧ s.relays[r']? = some q := by
  by_cases hrr : r' = r
  · subst hrr
    rw [List.getElem?_set_self', hr] at hq
    exact .inl ⟨rfl, (Option.some.inj hq).symm⟩
  · rw [List.getElem?_set_ne (Ne.symm hrr)] at hq
    exact .inr ⟨hrr, hq⟩

/-- A change that does not lower a version lowers no version. -/
lemma version_le_set {r : ℕ} {relay relay' : TrustRelay} (hr : s.relays[r]? = some relay)
    (hle : relay.version ≤ relay'.version) (r' : ℕ) (q : TrustRelay) (hq : s.relays[r']? = some q) :
    ∃ q', (s.relays.set r relay')[r']? = some q' ∧ q.version ≤ q'.version := by
  by_cases hrr : r' = r
  · subst hrr
    obtain rfl := Option.some.inj (hr.symm.trans hq)
    refine ⟨relay', ?_, hle⟩
    rw [List.getElem?_set_self', hr]
    rfl
  · exact ⟨q, by rwa [List.getElem?_set_ne (Ne.symm hrr)], le_rfl⟩

/-- The relay that is told has a version that no connection has seen. -/
lemma inv_tell (h : s.Inv) {call r : ℕ} {rs : List ℕ} {certificate : C} {relay : TrustRelay}
    (hu : s.untrusts[call]? = some ⟨certificate, some (r :: rs)⟩)
    (hr : s.relays[r]? = some relay) :
    Inv { s.putRelay r { relay with version := relay.version + 1 } with
      untrusts := s.untrusts.set call ⟨certificate, some rs⟩ } := by
  refine h.of_connections rfl (version_le_set hr (Nat.le_succ _)) ?_ ?_
  · rintro r' - (⟨q, hq, hin⟩ | hlock)
    · rcases getElem?_set_of_eq hr hq with ⟨rfl, rfl⟩ | ⟨-, hq⟩
      · exact .inl ⟨relay, hr, hin⟩
      · exact .inl ⟨q, hq, hin⟩
    · exact .inr hlock
  · rintro c hc - x (hx | hx)
    · exact .inl hx
    by_cases hrc : c.relay = r
    · obtain ⟨relay₀, hr₀, hseen⟩ := h.seen c hc
      rw [hrc, hr] at hr₀
      obtain rfl := Option.some.inj hr₀
      refine .inr (.inl ⟨{ relay with version := relay.version + 1 }, ?_, Nat.lt_succ_of_le hseen⟩)
      rw [hrc, putRelay, List.getElem?_set_self', hr]
      rfl
    · refine .inr (.inr (exists_reaches_set hu (fun hreaches rs' hrs => ?_) hx))
      obtain rfl := Option.some.inj hrs
      exact (List.mem_cons.1 (hreaches _ rfl)).resolve_left hrc

/-! ### The map -/

/-- Only the lock changes, and no relay becomes known by it. -/
lemma inv_lock (h : s.Inv) {lock : Option MapLock}
    (hlock : ∀ r, lock = some (.manager (some r)) → s.lock = some (.manager (some r))) :
    Inv { s with lock := lock } := by
  refine h.of_connections rfl (fun r relay hr => ⟨relay, hr, le_rfl⟩) ?_ ?_
  · rintro r - (hr | hr)
    · exact .inl hr
    · exact .inr (hlock r hr)
  · rintro c - - x (hx | hx)
    · exact .inl hx
    · exact .inr (.inr hx)

/-- Starting a relay keeps the invariant. -/
lemma inv_start (h : s.Inv) :
    Inv { s with lock := some (.manager (some s.relays.length)), relays := s.relays ++ [{}] } := by
  refine h.of_connections rfl (fun r relay hr => ⟨relay, ?_, le_rfl⟩) ?_ ?_
  · exact (List.getElem?_append_left (List.getElem?_eq_some_iff.1 hr).1).trans hr
  · rintro r hlt (⟨relay, hr, hin⟩ | hr)
    · exact .inl ⟨relay, (List.getElem?_append_left hlt).symm.trans hr, hin⟩
    · have heq : s.relays.length = r := by simpa using hr
      omega
  · rintro c - - x (hx | hx)
    · exact .inl hx
    · exact .inr (.inr hx)

/-- Putting a relay into the map keeps the invariant. -/
lemma inv_insert (h : s.Inv) {r : ℕ} {relay : TrustRelay}
    (hlock : s.lock = some (.manager (some r))) (hr : s.relays[r]? = some relay) :
    Inv { s.putRelay r { relay with inMap := true } with lock := some (.manager none) } := by
  refine h.of_connections rfl (version_le_set hr le_rfl) ?_ ?_
  · rintro r' - (⟨q, hq, hin⟩ | hlock')
    · rcases getElem?_set_of_eq hr hq with ⟨rfl, -⟩ | ⟨-, hq⟩
      · exact .inr hlock
      · exact .inl ⟨q, hq, hin⟩
    · cases hlock'
  · rintro c - - x (hx | hx)
    · exact .inl hx
    · exact .inr (.inr hx)

/-- Taking a relay out of the map keeps the invariant. -/
lemma inv_remove (h : s.Inv) {r : ℕ} {relay : TrustRelay} (hr : s.relays[r]? = some relay) :
    Inv (s.putRelay r { relay with inMap := false }) := by
  refine h.of_connections rfl (version_le_set hr le_rfl) ?_ ?_
  · rintro r' - (⟨q, hq, hin⟩ | hlock)
    · rcases getElem?_set_of_eq hr hq with ⟨-, rfl⟩ | ⟨-, hq⟩
      · cases hin
      · exact .inl ⟨q, hq, hin⟩
    · exact .inr hlock
  · rintro c - - x (hx | hx)
    · exact .inl hx
    · exact .inr (.inr hx)

/-! ### The connections -/

/-- A new connection rests on nothing. -/
lemma inv_accept (h : s.Inv) {r : ℕ} {relay : TrustRelay} (hr : s.relays[r]? = some relay) :
    Inv { s with connections := s.connections ++ [{ relay := r, seen := relay.version }] } where
  seen c hc := by
    rcases List.mem_append.1 hc with hc | hc
    · exact h.seen c hc
    · obtain rfl := List.mem_singleton.1 hc
      exact ⟨relay, hr, le_rfl⟩
  excused c hc hk x hx := by
    rcases List.mem_append.1 hc with hc | hc
    · exact h.excused c hc hk x hx
    · obtain rfl := List.mem_singleton.1 hc
      simp [relied, certificates] at hx

variable [DecidableEq C]

/-- **The step lemma**: however the steps lie between each other, what a connection rests on is
trusted, or it will look again. -/
theorem inv_step (h : s.Inv) (hs : s.step op = some t) : t.Inv := by
  cases op with
  | trust certificate =>
    obtain rfl := Option.some.inj hs
    exact inv_trust h certificate
  | untrust certificate =>
    simp only [step] at hs
    split_ifs at hs
    obtain rfl := Option.some.inj hs
    exact inv_untrust h certificate
  | recheck call =>
    simp only [step] at hs
    split at hs
    · next hu =>
      obtain rfl := Option.some.inj hs
      exact inv_recheck h hu
    · cases hs
  | tell call =>
    simp only [step] at hs
    split at hs
    · next hu =>
      split at hs
      · next hr =>
        obtain rfl := Option.some.inj hs
        exact inv_tell h hu hr
      · cases hs
    · cases hs
  | told call =>
    simp only [step] at hs
    split at hs
    · split_ifs at hs
      obtain rfl := Option.some.inj hs
      exact inv_lock h fun r hr => by cases hr
    · cases hs
  | lockMap =>
    simp only [step] at hs
    split_ifs at hs
    obtain rfl := Option.some.inj hs
    exact inv_lock h fun r hr => by cases hr
  | start =>
    simp only [step] at hs
    split_ifs at hs
    obtain rfl := Option.some.inj hs
    exact inv_start h
  | insert =>
    simp only [step] at hs
    split at hs
    · next hlock =>
      split at hs
      · next hr =>
        obtain rfl := Option.some.inj hs
        exact inv_insert h hlock hr
      · cases hs
    · cases hs
  | remove r =>
    simp only [step] at hs
    split at hs
    · next hr =>
      obtain rfl := Option.some.inj hs
      exact inv_remove h hr
    · cases hs
  | unlockMap =>
    simp only [step] at hs
    split at hs
    · obtain rfl := Option.some.inj hs
      exact inv_lock h fun r hr => by cases hr
    · cases hs
  | accept r =>
    simp only [step] at hs
    split at hs
    · next hr =>
      obtain rfl := Option.some.inj hs
      exact inv_accept h hr
    · cases hs
  | checked i certificate =>
    simp only [step] at hs
    split at hs
    · next c hc =>
      split at hs
      · next hstage =>
        split_ifs at hs with hpass
        obtain rfl := Option.some.inj hs
        refine h.put_of_relied hc rfl rfl fun x hx => ?_
        rcases List.mem_cons.1 hx with rfl | hx
        · exact .inr (mem_trusted_of_passes hpass (by simp))
        · exact .inl (by simpa only [relied, certificates, hstage] using hx)
      · cases hs
    · cases hs
  | issued i =>
    simp only [step] at hs
    split at hs
    · next c hc =>
      split at hs
      · next certificate hstage =>
        obtain rfl := Option.some.inj hs
        refine h.put_of_relied hc rfl rfl fun x hx => .inl ?_
        simp only [relied, certificates, hstage, Option.toList_some, List.singleton_append,
          List.mem_cons, List.mem_append] at hx ⊢
        tauto
      · cases hs
    · cases hs
  | connect i certificate =>
    simp only [step] at hs
    split at hs
    · next c hc =>
      split at hs
      · next hstage =>
        split_ifs at hs with hpass
        obtain rfl := Option.some.inj hs
        refine h.put_of_relied hc rfl rfl fun x hx => ?_
        rcases List.mem_append.1 hx with hx | hx
        · exact .inr (mem_trusted_of_passes hpass.2 hx)
        · exact .inl (by simpa only [relied, certificates, hstage] using hx)
      · cases hs
    · cases hs
  | connected i =>
    simp only [step] at hs
    split at hs
    · next c hc =>
      split at hs
      · next certificate hstage =>
        obtain rfl := Option.some.inj hs
        refine h.put_of_relied hc rfl rfl fun x hx => .inl ?_
        simp only [relied, certificates, hstage, Option.join_some, List.mem_append] at hx ⊢
        tauto
      · cases hs
    · cases hs
  | handle i =>
    simp only [step] at hs
    split at hs
    · split at hs
      · split_ifs at hs
        obtain rfl := Option.some.inj hs
        exact h
      · cases hs
    · cases hs
  | changed i =>
    simp only [step] at hs
    split at hs
    · next c hc =>
      split at hs
      · next relay _ hr =>
        split_ifs at hs
        obtain rfl := Option.some.inj hs
        refine h.put rfl ⟨relay, hr, le_rfl⟩ fun _ x hx => ?_
        simp [relied] at hx
      · cases hs
    · cases hs
  | checkClient i =>
    simp only [step] at hs
    split at hs
    · next c hc =>
      split at hs
      · next hstage =>
        obtain rfl := Option.some.inj hs
        refine h.put_of_relied hc rfl rfl fun x hx => .inr ?_
        by_cases hpass : s.passes c.client = true
        · rw [if_pos hpass] at hx
          exact mem_trusted_of_passes hpass hx
        · rw [if_neg hpass] at hx
          simp [relied] at hx
      · cases hs
    · cases hs
  | checkUpstream i =>
    simp only [step] at hs
    split at hs
    · next c hc =>
      split at hs
      · next hstage =>
        obtain rfl := Option.some.inj hs
        refine h.put_of_relied hc rfl rfl fun x hx => ?_
        by_cases hpass : s.passes c.upstream.join = true
        · rw [if_pos hpass] at hx
          rcases List.mem_append.1 hx with hx | hx
          · exact .inl (by simpa only [relied, hstage] using hx)
          · exact .inr (mem_trusted_of_passes hpass hx)
        · rw [if_neg hpass] at hx
          simp [relied] at hx
      · cases hs
    · cases hs
  | close i =>
    simp only [step] at hs
    split at hs
    · next c hc =>
      obtain rfl := Option.some.inj hs
      exact h.put_of_relied hc rfl rfl fun x hx => by simp [relied] at hx
    · cases hs

/-! ## Main results -/

/-- The invariant holds in every reachable state. -/
lemma inv_of_run {trusted : List C} {ops : List (Op C)}
    (hr : Machine.run step (TrustChanges.start trusted) ops = some s) : s.Inv :=
  Machine.run_invariant (fun _ _ _ => inv_step) (inv_empty trusted) hr

/-- A request is taken on by a connection that is connected to the target. -/
lemma stage_of_handle (hs : s.step (.handle i) = some t) (hc : s.connections[i]? = some c) :
    c.stage = .idle := by
  simp only [step, hc] at hs
  split at hs
  · next hstage => exact hstage
  · cases hs

/-- **No request on a certificate without trust**: in every run, when a connection of a relay in the
map takes a request, the certificates of its client and of its server are trusted, or it has not
looked since trust was revoked, or the call that does so has still to tell its relay. -/
theorem excused_of_run {trusted : List C} {ops : List (Op C)}
    (hr : Machine.run step (TrustChanges.start trusted) ops = some s)
    (hs : s.step (.handle i) = some t) (hc : s.connections[i]? = some c) {relay : TrustRelay}
    (hrelay : s.relays[c.relay]? = some relay) (hmap : relay.inMap = true) {certificate : C}
    (hcert : c.client = some certificate ∨ c.upstream = some (some certificate)) :
    certificate ∈ s.trusted ∨ c.seen < relay.version ∨
      ∃ u ∈ s.untrusts, u.certificate = certificate ∧
        ∀ rs, u.remaining = some rs → c.relay ∈ rs := by
  have hrelied : certificate ∈ relied c := by
    simpa only [relied, stage_of_handle hs hc] using mem_certificates hcert
  rcases (inv_of_run hr).excused c (List.mem_of_getElem? hc) (.inl ⟨relay, hrelay, hmap⟩)
    certificate hrelied with h | ⟨relay', hrelay', hseen⟩ | h
  · exact .inl h
  · obtain rfl := Option.some.inj (hrelay.symm.trans hrelay')
    exact .inr (.inl hseen)
  · exact .inr (.inr h)

/-- Trust in a certificate is revoked: its file is gone, and every call for it is through. -/
structure Revoked (s : TrustChanges C) (certificate : C) : Prop where
  gone : certificate ∉ s.trusted
  told : ∀ u ∈ s.untrusts, u.certificate = certificate → u.remaining = some []

omit [DecidableEq C] in
/-- A certificate stays revoked when a call for another one goes on. -/
lemma revoked_set {certificate : C} {call : ℕ} {u u' : Untrust C} (h : s.Revoked certificate)
    (hu : s.untrusts[call]? = some u) (hcert : u'.certificate = u.certificate)
    (hopen : u.remaining ≠ some []) :
    ∀ v ∈ s.untrusts.set call u', v.certificate = certificate → v.remaining = some [] := by
  intro v hv hvc
  rcases List.mem_or_eq_of_mem_set hv with hv | rfl
  · exact h.told v hv hvc
  · exact absurd (h.told u (List.mem_of_getElem? hu) (hcert ▸ hvc)) hopen

/-- It stays so until the certificate is trusted again. -/
lemma revoked_step {certificate : C} (h : s.Revoked certificate) (hop : op ≠ .trust certificate)
    (hs : s.step op = some t) : t.Revoked certificate := by
  have hsame : t.trusted = s.trusted → t.untrusts = s.untrusts → t.Revoked certificate :=
    fun htrusted huntrusts => ⟨htrusted ▸ h.gone, huntrusts ▸ h.told⟩
  cases op with
  | trust other =>
    obtain rfl := Option.some.inj hs
    have hne : certificate ≠ other := fun heq => hop (heq ▸ rfl)
    exact ⟨by simpa [hne] using h.gone, h.told⟩
  | untrust other =>
    simp only [step] at hs
    split_ifs at hs with hmem
    obtain rfl := Option.some.inj hs
    have hne : other ≠ certificate := fun heq => h.gone (heq ▸ hmem)
    refine ⟨fun hin => h.gone (List.mem_filter.1 hin).1, fun u hu huc => ?_⟩
    rcases List.mem_append.1 hu with hu | hu
    · exact h.told u hu huc
    · obtain rfl := List.mem_singleton.1 hu
      exact absurd huc hne
  | recheck call =>
    simp only [step] at hs
    split at hs
    · next hu =>
      obtain rfl := Option.some.inj hs
      exact ⟨h.gone, revoked_set h hu rfl (by simp)⟩
    · cases hs
  | tell call =>
    simp only [step] at hs
    split at hs
    · next hu =>
      split at hs
      · obtain rfl := Option.some.inj hs
        exact ⟨h.gone, revoked_set h hu rfl (by simp)⟩
      · cases hs
    · cases hs
  | told | lockMap | start | insert | remove | unlockMap | accept | checked | issued | connect
  | connected | handle | changed | checkClient | checkUpstream | close =>
    -- the directory and the calls are left alone
    simp only [step] at hs
    refine hsame ?_ ?_
    · grind [put, putRelay]
    · grind [put, putRelay]

/-- A certificate stays revoked unless it is trusted again. -/
lemma revoked_run {certificate : C} {ops : List (Op C)} (h : s.Revoked certificate)
    (hops : .trust certificate ∉ ops) (hr : Machine.run step s ops = some t) :
    t.Revoked certificate := by
  refine Machine.run_invariant_of_meets (fun _ _ _ h hop hs => revoked_step h hop hs) h
    (Machine.meets_of_forall_mem step (C := fun _ op => op ≠ .trust certificate) ?_ s) hr
  rintro op hop - rfl
  exact hops hop

/-- **Revoked is revoked**: once trust in a certificate is revoked and the calls are through, a
connection of a relay in the map that has looked since takes no request on it, until it is trusted
again. -/
theorem not_handled_of_revoked {trusted : List C} {before after : List (Op C)} {certificate : C}
    (hr : Machine.run step (start trusted) before = some s) (hrevoked : s.Revoked certificate)
    (hafter : .trust certificate ∉ after) {u v : TrustChanges C}
    (hrun : Machine.run step s after = some u) (hs : u.step (.handle i) = some v)
    (hc : u.connections[i]? = some c) {relay : TrustRelay}
    (hrelay : u.relays[c.relay]? = some relay) (hmap : relay.inMap = true)
    (hseen : relay.version ≤ c.seen) :
    c.client ≠ some certificate ∧ c.upstream ≠ some (some certificate) := by
  have hall : Machine.run step (start trusted) (before ++ after) = some u := by
    rw [Machine.run_append, hr, Option.bind_some, hrun]
  have hgone := revoked_run hrevoked hafter hrun
  refine not_or.1 fun hcert => ?_
  have hrelied : certificate ∈ relied c := by
    simpa only [relied, stage_of_handle hs hc] using mem_certificates hcert
  rcases (inv_of_run hall).excused c (List.mem_of_getElem? hc) (.inl ⟨relay, hrelay, hmap⟩)
    certificate hrelied with h | ⟨relay', hrelay', hlt⟩ | ⟨w, hw, hwc, hreaches⟩
  · exact hgone.gone h
  · obtain rfl := Option.some.inj (hrelay.symm.trans hrelay')
    exact absurd hlt (Nat.not_lt.2 hseen)
  · exact List.not_mem_nil (hreaches [] (hgone.told w hw hwc))

/-! ### A run -/

/-- A relay with two clients, whose certificates are 1 and 2; the certificate of the server is 9. -/
def twoClients : List (Op ℕ) :=
  [.lockMap, .start, .insert, .unlockMap, .accept 0, .accept 0, .checked 0 1, .checked 1 2,
    .issued 0, .issued 1, .connect 0 (some 9), .connect 1 (some 9), .connected 0, .connected 1]

/-- The trust in the certificate of the first client is revoked, and the second one has looked. -/
def firstRevoked : List (Op ℕ) :=
  [.untrust 1, .handle 0, .recheck 0, .tell 0, .changed 0, .told 0, .checkClient 0, .changed 1,
    .checkClient 1, .checkUpstream 1]

/-- A run with two clients, of which the first one loses its trust. -/
lemma exists_firstRevoked : ∃ s c relay t,
    Machine.run step (start [1, 2, 9]) (twoClients ++ firstRevoked) = some s ∧
      s.step (.handle 1) = some t ∧ s.connections[1]? = some c ∧
      s.relays[c.relay]? = some relay ∧ relay.inMap = true ∧ relay.version ≤ c.seen ∧
      c.client = some 2 ∧ s.Revoked 1 := by
  refine ⟨_, _, _, _, rfl, rfl, rfl, rfl, rfl, le_rfl, rfl, ?_, ?_⟩
  · decide
  · intro u hu _
    obtain rfl := List.mem_singleton.1 hu
    rfl

/-- The request of the second client that is handled in that run. -/
theorem excused_of_run_firstRevoked : ∃ s c relay t,
    Machine.run step (start [1, 2, 9]) (twoClients ++ firstRevoked) = some s ∧
      s.step (.handle 1) = some t ∧ s.connections[1]? = some c ∧
      s.relays[c.relay]? = some relay ∧
      (2 ∈ s.trusted ∨ c.seen < relay.version ∨
        ∃ u ∈ s.untrusts, u.certificate = 2 ∧ ∀ rs, u.remaining = some rs → c.relay ∈ rs) := by
  obtain ⟨s, c, relay, t, hr, hs, hc, hrelay, hmap, -, hclient, -⟩ := exists_firstRevoked
  exact ⟨s, c, relay, t, hr, hs, hc, hrelay, excused_of_run hr hs hc hrelay hmap (.inl hclient)⟩

/-- In that run no request of the first client is handled. -/
theorem not_handled_of_revoked_firstRevoked : ∃ s c relay t,
    Machine.run step (start [1, 2, 9]) (twoClients ++ firstRevoked) = some s ∧
      s.Revoked 1 ∧ s.step (.handle 1) = some t ∧ s.connections[1]? = some c ∧
      s.relays[c.relay]? = some relay ∧ c.client ≠ some 1 ∧ c.upstream ≠ some (some 1) := by
  obtain ⟨s, c, relay, t, hr, hs, hc, hrelay, hmap, hseen, -, hrevoked⟩ := exists_firstRevoked
  exact ⟨s, c, relay, t, hr, hrevoked, hs, hc, hrelay,
    not_handled_of_revoked hr hrevoked List.not_mem_nil rfl hs hc hrelay hmap hseen⟩

end TrustChanges

end AuditGateway
