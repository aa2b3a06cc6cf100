import AuditGateway.Relay.Session

set_option relaxedAutoImplicit false
set_option autoImplicit false

/-!
# Who a session belongs to

The client of a session and the connection it belongs to are stored together, by the connection
that creates or activates the session. A lookup reads the client first and checks the owner in a
second locked section. Nothing that the lookup's own connection stores lies between the two, so
if the session belongs to the connection at the second, it did at the first, and nobody has taken
it over in between.

## Main definitions

* `Sessions.Owned` — the newest stored context is that of the entry, and what a lookup has read is
  newer than anything its connection has stored since.

## Main results

* `Sessions.owned_step` — every section keeps the invariant.
* `Sessions.session_ownership` — removal, change and lookup of sessions.
* `Sessions.checked_eq_clientOf` — a lookup in two sections finds what one section would find.
-/

namespace AuditGateway

/-! ## The operations of the table -/

namespace SessionRegistry

variable {s : SessionRegistry} {now c : ℕ} {token t : NodeId} {entry e : SessionEntry}
  {f : SessionEntry → SessionEntry}

/-- What is under a token behind an insertion. -/
theorem insert_eq_some (h : s.insert now token entry t = some e) :
    t = token ∧ e = entry ∨ t ≠ token ∧ s t = some e := by
  unfold insert at h
  by_cases ht : t = token
  · rw [ht, Function.update_self] at h
    exact .inl ⟨ht, (Option.some.inj h).symm⟩
  · rw [Function.update_of_ne ht] at h
    exact .inr ⟨ht, (Option.filter_eq_some_iff.1 h).1⟩

/-- A session is forgotten only if it was not used for twice its timeout. -/
theorem insert_eq_none (h : s.insert now token entry t = none) (ht : s t = some e) :
    2 * e.timeout ≤ now - e.lastUsed := by
  unfold insert at h
  by_cases heq : t = token
  · rw [heq, Function.update_self] at h
    cases h
  · rw [Function.update_of_ne heq, ht, Option.filter_some] at h
    split_ifs at h with hlt
    simpa using hlt

/-- What is under a token behind a change. -/
theorem modify_eq_some (h : s.modify now token f t = some e) :
    (t = token ∧ ∃ e₀, s t = some e₀ ∧ e = f { e₀ with lastUsed := now }) ∨
      t ≠ token ∧ s t = some e := by
  unfold modify at h
  by_cases ht : t = token
  · rw [ht, Function.update_self, Option.map_eq_some_iff] at h
    obtain ⟨e₀, he₀, rfl⟩ := h
    exact .inl ⟨ht, e₀, by rw [ht]; exact he₀, rfl⟩
  · rw [Function.update_of_ne ht] at h
    exact .inr ⟨ht, h⟩

/-- Nothing was there if nothing is there behind a change. -/
theorem modify_eq_none (h : s.modify now token f t = none) : s t = none := by
  unfold modify at h
  by_cases ht : t = token
  · rw [ht, Function.update_self, Option.map_eq_none_iff] at h
    rw [ht]
    exact h
  · rwa [Function.update_of_ne ht] at h

/-- The owner of a session. -/
theorem ownedBy_iff : s.ownedBy token c ↔ ∃ e, s token = some e ∧ e.connectionId = c := by
  unfold ownedBy
  cases s token with
  | none => simp
  | some e => simp

/-- What is there behind a removal was there. -/
theorem removeOwned_eq_some (h : s.removeOwned token c t = some e) : s t = some e := by
  unfold removeOwned at h
  split_ifs at h
  · by_cases ht : t = token
    · rw [ht, Function.update_self] at h
      cases h
    · rwa [Function.update_of_ne ht] at h
  · exact h

/-- A session is removed only if it belongs to the connection. -/
theorem removeOwned_eq_none (h : s.removeOwned token c t = none) (ht : s t = some e) :
    t = token ∧ e.connectionId = c := by
  unfold removeOwned at h
  split_ifs at h with howned
  · by_cases heq : t = token
    · obtain ⟨e', he', hc⟩ := ownedBy_iff.1 howned
      rw [← heq, ht] at he'
      obtain rfl := Option.some.inj he'
      exact ⟨heq, hc⟩
    · rw [Function.update_of_ne heq, ht] at h
      cases h
  · rw [ht] at h
    cases h

end SessionRegistry

namespace Sessions

variable {channels : ℕ → Channel} {s t : Sessions} {c now : ℕ} {act : Section}

/-! ## What a section does -/

/-- Everything that a section can do to the table, to the lookups and to the stored contexts. -/
inductive Change (s t : Sessions) (c now : ℕ) : Section → Prop
  | checked (token : NodeId) (client : ClientContext) (hl : s.lookups c = some (token, client))
      (hlookups : t.lookups = Function.update s.lookups c none)
      (hfound : t.found = s.found ++ [(c, token, s.checked c token client)])
      (hregistry : t.registry = s.registry) (hstores : t.stores = s.stores) :
      Change s t c now .check
  | inserted (token : NodeId) (client : ClientContext) (timeout : ℕ) (entry : SessionEntry)
      (hentry : entry.connectionId = c ∧ entry.client = client)
      (hfree : s.lookups c = none) (hlookups : t.lookups = s.lookups) (hnew : s.stores token = [])
      (hregistry : t.registry = s.registry.insert now token entry)
      (hfound : t.found = s.found)
      (hstores : t.stores = Function.update s.stores token [(c, client)]) :
      Change s t c now (.insert token client timeout)
  | begun (token : NodeId) (checks : Except StatusCode UserIdentity)
      (hfree : s.lookups c = none) (hlookups : t.lookups = s.lookups)
      (hregistry : t.registry = s.registry ∨ t.registry = s.registry.modify now token id)
      (hfound : t.found = s.found) (hstores : t.stores = s.stores) :
      Change s t c now (.begin token checks)
  | activated (token : NodeId) (client : ClientContext) (hfree : s.lookups c = none)
      (hlookups : t.lookups = s.lookups)
      (hregistry : t.registry = s.registry.modify now token (SessionEntry.activate c client))
      (hfound : t.found = s.found) (hstores : t.stores = Function.update s.stores token
        (if (s.registry token).isSome then (c, client) :: s.stores token else s.stores token)) :
      Change s t c now (.activate token client)
  | refused (token : NodeId) (hlookups : t.lookups = s.lookups)
      (hregistry : t.registry = s.registry) (hfound : t.found = s.found)
      (hstores : t.stores = s.stores) :
      Change s t c now (.refuse token)
  | removed (token : NodeId) (hlookups : t.lookups = s.lookups)
      (hregistry : t.registry = s.registry.removeOwned token c) (hfound : t.found = s.found)
      (hstores : t.stores = s.stores) :
      Change s t c now (.removeOwned token)
  | looked (token : NodeId)
      (hlookups : t.lookups = Function.update s.lookups c
        ((s.registry token).map fun e => (token, e.client)))
      (hregistry : t.registry = s.registry.modify now token id) (hfound : t.found = s.found)
      (hstores : t.stores = s.stores) :
      Change s t c now (.lookup token)

/-- What every step does to a session. -/
theorem change (hs : step channels s (c, now, act) = some t) : Change s t c now act := by
  simp only [step] at hs
  split at hs
  · next token client hl =>
    cases hs
    exact .checked token client hl rfl rfl rfl rfl
  · cases hs
  · cases hs
  · next token client timeout hfree =>
    split_ifs at hs with hnew
    cases hs
    exact .inserted token client timeout _ ⟨rfl, rfl⟩ hfree rfl hnew rfl rfl rfl
  · next token checks hfree =>
    split at hs
    · cases hs
      exact .begun token checks hfree rfl (.inl rfl) rfl rfl
    · split at hs
      · cases hs
        exact .begun token checks hfree rfl (.inr rfl) rfl rfl
      · cases hs
        exact .begun token checks hfree rfl (.inr rfl) rfl rfl
  · next token client hfree =>
    split at hs
    · cases hs
      exact .activated token client hfree rfl rfl rfl rfl
    · cases hs
  · next token hfree =>
    split_ifs at hs
    cases hs
    exact .refused token rfl rfl rfl rfl
  · next token hfree =>
    cases hs
    exact .removed token rfl rfl rfl rfl
  · next token hfree =>
    cases hs
    exact .looked token rfl rfl rfl rfl

/-! ## The invariant of every run -/

/-- The newest context stored for a session is that of its entry, with the connection it belongs
to; and behind what a lookup has read, its connection has stored nothing. -/
structure Owned (s : Sessions) : Prop where
  newest : ∀ token e, s.registry token = some e →
    ∃ older, s.stores token = (e.connectionId, e.client) :: older
  unmoved : ∀ c token client, s.lookups c = some (token, client) →
    ∃ newer c' older, s.stores token = newer ++ (c', client) :: older ∧ ∀ st ∈ newer, st.1 ≠ c

/-- Nothing is owned at the start. -/
theorem owned_init : Owned {} :=
  ⟨fun _ _ he => (nomatch he), fun _ _ _ hl => (nomatch hl)⟩

/-- The entry of a session that is only used keeps its client and its connection. -/
theorem Owned.newest_of_touch (h : Owned s) {token token' : NodeId} {e : SessionEntry}
    (he : s.registry.modify now token id token' = some e) :
    ∃ older, s.stores token' = (e.connectionId, e.client) :: older := by
  rcases SessionRegistry.modify_eq_some he with ⟨-, e₀, he₀, rfl⟩ | ⟨-, he⟩
  · exact h.newest token' e₀ he₀
  · exact h.newest token' e he

/-- Another connection stores a context in front of what a lookup has read. -/
theorem Owned.unmoved_store (h : Owned s) (hfree : s.lookups c = none) {token : NodeId}
    {stores : List (ℕ × ClientContext)}
    (hstores : stores = s.stores token ∨ ∃ client, stores = (c, client) :: s.stores token) :
    ∀ d token' client, s.lookups d = some (token', client) →
      ∃ newer c' older, Function.update s.stores token stores token' =
        newer ++ (c', client) :: older ∧ ∀ st ∈ newer, st.1 ≠ d := by
  intro d token' client hl
  obtain ⟨newer, c', older, heq, hne⟩ := h.unmoved d token' client hl
  by_cases htoken : token' = token
  · rw [htoken, Function.update_self]
    rw [htoken] at heq
    rcases hstores with hsame | ⟨client', hcons⟩
    · exact ⟨newer, c', older, by rw [hsame, heq], hne⟩
    · refine ⟨(c, client') :: newer, c', older, by rw [hcons, heq, List.cons_append], ?_⟩
      intro st hst
      rcases List.mem_cons.1 hst with rfl | hst
      · -- the connection of the lookup is in the middle of it
        rintro rfl
        have hd : s.lookups c = some (token', client) := hl
        rw [hfree] at hd
        cases hd
      · exact hne st hst
  · rw [Function.update_of_ne htoken]
    exact ⟨newer, c', older, heq, hne⟩

/-- **Step lemma**: every locked section keeps the invariant. -/
theorem owned_step (h : Owned s) (hs : step channels s (c, now, act) = some t) : Owned t := by
  cases change hs with
  | checked token client hl hlookups hfound hregistry hstores =>
    refine ⟨?_, fun d token' client' hd => ?_⟩
    · rw [hregistry, hstores]
      exact h.newest
    · rw [hlookups] at hd
      rw [hstores]
      by_cases hdc : d = c
      · rw [hdc, Function.update_self] at hd
        cases hd
      · rw [Function.update_of_ne hdc] at hd
        exact h.unmoved d token' client' hd
  | inserted token client timeout entry hentry hfree hlookups hnew hregistry hfound hstores =>
    refine ⟨fun token' e he => ?_, ?_⟩
    · rw [hregistry] at he
      rw [hstores]
      rcases SessionRegistry.insert_eq_some he with ⟨rfl, rfl⟩ | ⟨hne, he⟩
      · rw [Function.update_self, hentry.1, hentry.2]
        exact ⟨[], rfl⟩
      · rw [Function.update_of_ne hne]
        exact h.newest token' e he
    · rw [hlookups, hstores]
      exact h.unmoved_store hfree (.inr ⟨client, by rw [hnew]⟩)
  | begun token checks hfree hlookups hregistry hfound hstores =>
    refine ⟨fun token' e he => ?_, ?_⟩
    · rw [hstores]
      rcases hregistry with hregistry | hregistry
      · rw [hregistry] at he
        exact h.newest token' e he
      · rw [hregistry] at he
        exact h.newest_of_touch he
    · rw [hlookups, hstores]
      exact h.unmoved
  | activated token client hfree hlookups hregistry hfound hstores =>
    refine ⟨fun token' e he => ?_, ?_⟩
    · rw [hregistry] at he
      rw [hstores]
      rcases SessionRegistry.modify_eq_some he with ⟨rfl, e₀, he₀, rfl⟩ | ⟨hne, he⟩
      · rw [Function.update_self, he₀, Option.isSome_some, if_pos rfl]
        exact ⟨s.stores token', rfl⟩
      · rw [Function.update_of_ne hne]
        exact h.newest token' e he
    · rw [hlookups, hstores]
      refine h.unmoved_store hfree ?_
      split_ifs
      · exact .inr ⟨client, rfl⟩
      · exact .inl rfl
  | refused token hlookups hregistry hfound hstores =>
    refine ⟨?_, ?_⟩
    · rw [hregistry, hstores]
      exact h.newest
    · rw [hlookups, hstores]
      exact h.unmoved
  | removed token hlookups hregistry hfound hstores =>
    refine ⟨fun token' e he => ?_, ?_⟩
    · rw [hregistry] at he
      rw [hstores]
      exact h.newest token' e (SessionRegistry.removeOwned_eq_some he)
    · rw [hlookups, hstores]
      exact h.unmoved
  | looked token hlookups hregistry hfound hstores =>
    refine ⟨fun token' e he => ?_, fun d token' client hd => ?_⟩
    · rw [hregistry] at he
      rw [hstores]
      exact h.newest_of_touch he
    · rw [hlookups] at hd
      rw [hstores]
      by_cases hdc : d = c
      · -- what is read is what was stored last
        rw [hdc, Function.update_self, Option.map_eq_some_iff] at hd
        obtain ⟨e, he, heq⟩ := hd
        obtain ⟨rfl, rfl⟩ := Prod.mk.inj heq
        obtain ⟨older, hstored⟩ := h.newest token e he
        exact ⟨[], e.connectionId, older, hstored, fun st hst => nomatch hst⟩
      · rw [Function.update_of_ne hdc] at hd
        exact h.unmoved d token' client hd

/-- **Run lemma**: the invariant holds after every run. -/
theorem owned_of_run {ops : List (ℕ × ℕ × Section)}
    (hr : Machine.run (step channels) {} ops = some t) : Owned t :=
  Machine.run_invariant (fun _ _ _ h hs => owned_step h hs) owned_init hr

/-! ## Removal, change and lookup -/

/-- A session of a connection was stored last by this connection. -/
theorem Owned.newest_of_ownedBy (h : Owned s) {token : NodeId} {client : ClientContext}
    (hl : s.lookups c = some (token, client)) (howned : s.registry.ownedBy token c) :
    s.registry.clientOf token c = some client ∧ ∃ older, s.stores token = (c, client) :: older := by
  obtain ⟨e, he, hc⟩ := SessionRegistry.ownedBy_iff.1 howned
  obtain ⟨older, hnewest⟩ := h.newest token e he
  obtain ⟨newer, c', older', hread, hne⟩ := h.unmoved c token client hl
  rw [hnewest] at hread
  cases newer with
  | nil =>
    obtain ⟨heq, rfl⟩ := List.cons.inj hread
    obtain ⟨rfl, rfl⟩ := Prod.mk.inj heq
    rw [hc] at hnewest
    refine ⟨?_, older, hnewest⟩
    rw [SessionRegistry.clientOf, he, Option.map_some, Option.filter_some, if_pos howned]
  | cons st newer =>
    -- the newest context would be one of the connection, stored during its lookup
    obtain ⟨rfl, -⟩ := List.cons.inj hread
    exact absurd hc (hne _ (List.mem_cons_self ..))

/-- **A lookup in two sections finds what one section would find** at the time of its second. -/
theorem checked_eq_clientOf {ops : List (ℕ × ℕ × Section)}
    (hr : Machine.run (step channels) {} ops = some t) {token : NodeId} {client : ClientContext}
    (hl : t.lookups c = some (token, client)) :
    t.checked c token client = t.registry.clientOf token c := by
  have h := owned_of_run hr
  unfold checked
  split_ifs with howned
  · exact (h.newest_of_ownedBy hl howned).1.symm
  · rw [SessionRegistry.clientOf, Option.filter_eq_none_iff.2 fun _ _ => howned]

/-- An entry goes away only with the connection it belongs to, or unused. -/
theorem removed_of_change {token : NodeId} {e : SessionEntry} (hc : Change s t c now act)
    (he : s.registry token = some e) (hnone : t.registry token = none) :
    (act = .removeOwned token ∧ e.connectionId = c) ∨
      (∃ token' client timeout, act = .insert token' client timeout) ∧
        2 * e.timeout ≤ now - e.lastUsed := by
  have hsame : t.registry ≠ s.registry := by
    intro heq
    rw [heq, he] at hnone
    cases hnone
  have hmodify : ∀ {token' f}, t.registry ≠ s.registry.modify now token' f := by
    intro token' f heq
    rw [heq] at hnone
    rw [SessionRegistry.modify_eq_none hnone] at he
    cases he
  cases hc with
  | checked token' client hl hlookups hfound hregistry hstores => exact absurd hregistry hsame
  | inserted token' client timeout entry hentry hfree hlookups hnew hregistry hfound hstores =>
    rw [hregistry] at hnone
    exact .inr ⟨⟨token', client, timeout, rfl⟩, SessionRegistry.insert_eq_none hnone he⟩
  | begun token' checks hfree hlookups hregistry hfound hstores =>
    exact (hregistry.elim hsame hmodify).elim
  | activated token' client hfree hlookups hregistry hfound hstores =>
    exact absurd hregistry hmodify
  | refused token' hlookups hregistry hfound hstores => exact absurd hregistry hsame
  | removed token' hlookups hregistry hfound hstores =>
    rw [hregistry] at hnone
    obtain ⟨rfl, hc⟩ := SessionRegistry.removeOwned_eq_none hnone he
    exact .inl ⟨rfl, hc⟩
  | looked token' hlookups hregistry hfound hstores => exact absurd hregistry hmodify

/-- Client and connection of an entry change together, when the session is activated. -/
theorem moved_of_change {token : NodeId} {e e' : SessionEntry} (h : Owned s)
    (hc : Change s t c now act) (he : s.registry token = some e)
    (he' : t.registry token = some e')
    (hne : e'.connectionId ≠ e.connectionId ∨ e'.client ≠ e.client) :
    act = .activate token e'.client ∧ e'.connectionId = c := by
  have hsame : e ≠ e' := by
    rintro rfl
    exact hne.elim (absurd rfl) (absurd rfl)
  have hregistry_ne : t.registry ≠ s.registry := by
    intro heq
    rw [heq, he] at he'
    exact hsame (Option.some.inj he')
  have htouch : ∀ {token'}, t.registry ≠ s.registry.modify now token' id := by
    intro token' heq
    rw [heq] at he'
    rcases SessionRegistry.modify_eq_some he' with ⟨-, e₀, he₀, rfl⟩ | ⟨-, he'⟩
    · rw [he] at he₀
      obtain rfl := Option.some.inj he₀
      exact hne.elim (absurd rfl) (absurd rfl)
    · rw [he] at he'
      exact hsame (Option.some.inj he')
  cases hc with
  | checked token' client hl hlookups hfound hregistry hstores =>
    exact absurd hregistry hregistry_ne
  | inserted token' client timeout entry hentry hfree hlookups hnew hregistry hfound hstores =>
    rw [hregistry] at he'
    rcases SessionRegistry.insert_eq_some he' with ⟨rfl, -⟩ | ⟨-, he'⟩
    · -- the token would not be fresh
      obtain ⟨older, hstored⟩ := h.newest token e he
      rw [hnew] at hstored
      cases hstored
    · rw [he] at he'
      exact absurd (Option.some.inj he') hsame
  | begun token' checks hfree hlookups hregistry hfound hstores =>
    exact (hregistry.elim hregistry_ne htouch).elim
  | activated token' client hfree hlookups hregistry hfound hstores =>
    rw [hregistry] at he'
    rcases SessionRegistry.modify_eq_some he' with ⟨rfl, e₀, -, rfl⟩ | ⟨-, he'⟩
    · exact ⟨rfl, rfl⟩
    · rw [he] at he'
      exact absurd (Option.some.inj he') hsame
  | refused token' hlookups hregistry hfound hstores => exact absurd hregistry hregistry_ne
  | removed token' hlookups hregistry hfound hstores =>
    rw [hregistry] at he'
    have he'' := SessionRegistry.removeOwned_eq_some he'
    rw [he] at he''
    exact absurd (Option.some.inj he'') hsame
  | looked token' hlookups hregistry hfound hstores => exact absurd hregistry htouch

/-- A lookup finds a context that its own connection has stored last. -/
theorem Owned.stored_of_found (h : Owned s) {token : NodeId} {client : ClientContext}
    (hc : Change s t c now act) (hfound : t.found = s.found ++ [(c, token, some client)]) :
    ∃ older, s.stores token = (c, client) :: older := by
  have hmore : t.found ≠ s.found := by
    intro heq
    rw [heq] at hfound
    simpa using congrArg List.length hfound
  cases hc with
  | checked token' client' hl hlookups hchecked hregistry hstores =>
    rw [hchecked] at hfound
    obtain ⟨heq, -⟩ := List.cons.inj (List.append_cancel_left hfound)
    obtain ⟨-, hrest⟩ := Prod.mk.inj heq
    obtain ⟨rfl, hclient⟩ := Prod.mk.inj hrest
    unfold checked at hclient
    split_ifs at hclient with howned
    obtain rfl := Option.some.inj hclient
    exact (h.newest_of_ownedBy hl howned).2
  | inserted token' client timeout entry hentry hfree hlookups hnew hregistry hsame hstores =>
    exact absurd hsame hmore
  | begun token' checks hfree hlookups hregistry hsame hstores => exact absurd hsame hmore
  | activated token' client hfree hlookups hregistry hsame hstores => exact absurd hsame hmore
  | refused token' hlookups hregistry hsame hstores => exact absurd hsame hmore
  | removed token' hlookups hregistry hsame hstores => exact absurd hsame hmore
  | looked token' hlookups hregistry hsame hstores => exact absurd hsame hmore

/-- **Session ownership**, for every interleaving of the locked sections of any number of
connections. A session is removed only by the connection it belongs to, or when another one is
created and it was not used for twice its timeout. Its client and its connection change only
together, to those of the activation that does it. A lookup that finds a context finds the one that
its own connection has stored, and no other connection has stored one since. -/
theorem session_ownership {ops : List (ℕ × ℕ × Section)}
    (hr : Machine.run (step channels) {} ops = some t) {u : Sessions}
    (hs : step channels t (c, now, act) = some u) :
    (∀ token e, t.registry token = some e → u.registry token = none →
      (act = .removeOwned token ∧ e.connectionId = c) ∨
        (∃ token' client timeout, act = .insert token' client timeout) ∧
          2 * e.timeout ≤ now - e.lastUsed) ∧
    (∀ token e e', t.registry token = some e → u.registry token = some e' →
      e'.connectionId ≠ e.connectionId ∨ e'.client ≠ e.client →
        act = .activate token e'.client ∧ e'.connectionId = c) ∧
    ∀ token client, u.found = t.found ++ [(c, token, some client)] →
      ∃ older, t.stores token = (c, client) :: older := by
  have h := owned_of_run hr
  have hc := change hs
  refine ⟨fun token e he hnone => removed_of_change hc he hnone,
    fun token e e' he he' hne => moved_of_change h hc he he' hne, fun token client hfound => ?_⟩
  exact h.stored_of_found hc hfound

/-- Connection 1 creates and activates a session and looks it up; connection 2 begins to take it
over while the lookup is between its two sections. -/
def lookupRun : List (ℕ × ℕ × Section) :=
  [(1, 0, .insert ⟨1, .numeric 7⟩ { remoteAddr := "10.0.0.5:50000" } 60),
    (1, 1, .begin ⟨1, .numeric 7⟩ (.ok .anonymous)),
    (1, 2, .activate ⟨1, .numeric 7⟩ { remoteAddr := "10.0.0.5:50000", user := some .anonymous }),
    (1, 3, .lookup ⟨1, .numeric 7⟩), (2, 3, .begin ⟨1, .numeric 7⟩ (.ok .anonymous))]

/-- The run in which a client uses its session, and what is stored then. -/
theorem session_ownership_lookupRun : ∃ t u,
    Machine.run (step fun _ => Channel.open) {} lookupRun = some t ∧
      step (fun _ => Channel.open) t (1, 3, .check) = some u ∧
      ∃ older, t.stores ⟨1, .numeric 7⟩ =
        (1, { remoteAddr := "10.0.0.5:50000", user := some .anonymous }) :: older := by
  obtain ⟨t, ht⟩ := Option.isSome_iff_exists.1
    (show (Machine.run (step fun _ => Channel.open) {} lookupRun).isSome = true from rfl)
  have hcheck : (Machine.run (step fun _ => Channel.open) {} lookupRun).bind (fun t =>
      (step (fun _ => Channel.open) t (1, 3, .check)).map fun u => (t.found, u.found)) =
        some ([], [(1, ⟨1, .numeric 7⟩,
          some { remoteAddr := "10.0.0.5:50000", user := some .anonymous })]) := rfl
  rw [ht, Option.bind_some, Option.map_eq_some_iff] at hcheck
  obtain ⟨u, hu, hfound⟩ := hcheck
  obtain ⟨hbefore, hafter⟩ := Prod.mk.inj hfound
  refine ⟨t, u, ht, hu, (session_ownership ht hu).2.2 _ _ ?_⟩
  rw [hbefore, hafter]
  rfl

end Sessions

end AuditGateway
