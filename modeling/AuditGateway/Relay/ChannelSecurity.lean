import AuditGateway.Relay.Ownership

set_option relaxedAutoImplicit false
set_option autoImplicit false

/-!
# The security of a session

A session keeps the security of the channel it was created on, and an activation over another
channel is compared with that. A session that was created on a channel without security has no
certificate, so it is never activated over a secure one; a session that was created on a channel
that signs may be activated over one that encrypts, and later over one that signs only.

## Main definitions

* `Sessions.Admitted` — what the checks of an activation have made sure of.
* `Sessions.Secured` — every session keeps the security it was created with.

## Main results

* `Sessions.secured_step` — every section keeps the invariant.
* `Sessions.security_of_activations` — no activation is below the security of the creation.
* `Sessions.security_decreases` — an activation below an earlier one.
-/

namespace AuditGateway

/-- An activation that is forwarded comes over a channel at least as secure as that of the
session, and over a secure channel only if that of the session is secure. -/
theorem SessionEntry.admits_eq_ok {α : Type*} {e : SessionEntry} {channel : Channel}
    {checks : Except StatusCode α} {a : α} (h : e.admits channel checks = .ok a) :
    securityRank e.securityPolicy e.securityMode ≤ channel.rank ∧
      (channel.policy ≠ .none → e.clientCertificate.isSome) := by
  unfold admits at h
  split_ifs at h with hrank hclient
  refine ⟨Nat.not_lt.1 hrank, fun hpolicy => ?_⟩
  have hsame : e.sameClient channel := by
    by_contra hnot
    exact hclient ⟨hpolicy, hnot⟩
  unfold sameClient at hsame
  split at hsame
  · next a b ha hb =>
    rw [ha]
    rfl
  · cases hsame

namespace Sessions

variable {channels : ℕ → Channel} {s t : Sessions} {c now : ℕ} {act : Section}

/-- The channel is at least as secure as the one the session was created on, and secure only if
that one is. -/
def Admitted (channels : ℕ → Channel) (s : Sessions) (c : ℕ) (token : NodeId) : Prop :=
  ∃ d, s.creators token = some d ∧ (channels d).rank ≤ (channels c).rank ∧
    ((channels c).policy ≠ .none → (channels d).policy ≠ .none)

/-- Every session keeps the security it was created with, and every activation that was forwarded
or accepted was compared with it. -/
structure Secured (channels : ℕ → Channel) (s : Sessions) : Prop where
  created : ∀ token e, s.registry token = some e → ∃ d, s.creators token = some d ∧
    e.securityPolicy = (channels d).policy ∧ e.securityMode = (channels d).mode ∧
    e.clientCertificate = (channels d).clientCertificate
  issued : ∀ token, s.stores token = [] → s.creators token = none
  forwarded : ∀ p ∈ s.activating, s.Admitted channels p.1 p.2
  accepted : ∀ token, ∀ c ∈ s.activations token, s.Admitted channels c token

/-- The start is secured. -/
theorem secured_init : Secured channels {} :=
  ⟨fun _ _ he => (nomatch he), fun _ _ => rfl, fun _ hp => (nomatch hp), fun _ _ hc => (nomatch hc)⟩

/-- What does not depend on when a session was used. -/
theorem Secured.created_modify (h : Secured channels s) {f : SessionEntry → SessionEntry}
    (hf : ∀ e, (f e).securityPolicy = e.securityPolicy ∧ (f e).securityMode = e.securityMode ∧
      (f e).clientCertificate = e.clientCertificate) {token token' : NodeId} {e : SessionEntry}
    (he : s.registry.modify now token f token' = some e) :
    ∃ d, s.creators token' = some d ∧ e.securityPolicy = (channels d).policy ∧
      e.securityMode = (channels d).mode ∧
      e.clientCertificate = (channels d).clientCertificate := by
  rcases SessionRegistry.modify_eq_some he with ⟨-, e₀, he₀, rfl⟩ | ⟨-, he⟩
  · obtain ⟨hpolicy, hmode, hcertificate⟩ := hf { e₀ with lastUsed := now }
    rw [hpolicy, hmode, hcertificate]
    exact h.created token' e₀ he₀
  · exact h.created token' e he

/-- A section of a connection that has not begun a lookup. -/
theorem lookups_eq_none (hact : act ≠ .check) (hs : step channels s (c, now, act) = some t) :
    s.lookups c = none := by
  cases hl : s.lookups c with
  | none => rfl
  | some p =>
    cases act with
    | check => exact absurd rfl hact
    | _ =>
      simp only [step, hl] at hs
      cases hs

/-- A session is created with a fresh token. -/
theorem secured_insert (h : Secured channels s) {token : NodeId} {client : ClientContext}
    {timeout : ℕ} (hs : step channels s (c, now, .insert token client timeout) = some t) :
    Secured channels t := by
  have hfree := lookups_eq_none (by simp) hs
  simp only [step, hfree] at hs
  split_ifs at hs with hnew
  cases hs
  have hnone := h.issued _ hnew
  have hkeep : ∀ {c' token'}, s.Admitted channels c' token' → ∃ d,
      Function.update s.creators token (some c) token' = some d ∧
        (channels d).rank ≤ (channels c').rank ∧
        ((channels c').policy ≠ .none → (channels d).policy ≠ .none) := by
    rintro c' token' ⟨d, hd, hrest⟩
    have hne : token' ≠ token := by
      rintro rfl
      rw [hnone] at hd
      cases hd
    exact ⟨d, by rw [Function.update_of_ne hne, hd], hrest⟩
  refine ⟨fun token' e he => ?_, fun token' hempty => ?_, fun p hp => hkeep (h.forwarded p hp),
    fun token' c' hc' => hkeep (h.accepted token' c' hc')⟩
  · show ∃ d, Function.update s.creators token (some c) token' = some d ∧ _
    rcases SessionRegistry.insert_eq_some he with ⟨rfl, rfl⟩ | ⟨hne, he⟩
    · exact ⟨c, Function.update_self .., rfl, rfl, rfl⟩
    · rw [Function.update_of_ne hne]
      exact h.created token' e he
  · show Function.update s.creators token (some c) token' = none
    have hempty' : Function.update s.stores token [(c, client)] token' = [] := hempty
    by_cases hne : token' = token
    · rw [hne, Function.update_self] at hempty'
      cases hempty'
    · rw [Function.update_of_ne hne] at hempty' ⊢
      exact h.issued token' hempty'

/-- An activation is compared with the security of the session. -/
theorem secured_begin (h : Secured channels s) {token : NodeId}
    {checks : Except StatusCode UserIdentity}
    (hs : step channels s (c, now, .begin token checks) = some t) : Secured channels t := by
  have hfree := lookups_eq_none (by simp) hs
  have htouch : Secured channels { s with registry := s.registry.modify now token id } :=
    ⟨fun token' e he => h.created_modify (fun _ => ⟨rfl, rfl, rfl⟩) he, h.issued, h.forwarded,
      h.accepted⟩
  simp only [step, hfree] at hs
  split at hs
  · cases hs
    exact h
  · next e he =>
    split at hs
    · next user hadmits =>
      cases hs
      refine { htouch with forwarded := fun p hp => ?_ }
      rcases List.mem_append.1 hp with hp | hp
      · exact h.forwarded p hp
      · obtain rfl := List.mem_singleton.1 hp
        obtain ⟨hrank, hcertificate⟩ := SessionEntry.admits_eq_ok hadmits
        obtain ⟨d, hd, hpolicy, hmode, hsame⟩ := h.created token e he
        refine ⟨d, hd, ?_, fun hsecure hnone => ?_⟩
        · rwa [hpolicy, hmode] at hrank
        · -- a channel without a policy has no certificate
          have hsome := hcertificate hsecure
          rw [hsame, (channels d).certificate_none hnone] at hsome
          cases hsome
    · cases hs
      exact htouch

/-- An activation that was forwarded is accepted. -/
theorem secured_activate (h : Secured channels s) {token : NodeId} {client : ClientContext}
    (hs : step channels s (c, now, .activate token client) = some t) : Secured channels t := by
  have hfree := lookups_eq_none (by simp) hs
  simp only [step, hfree] at hs
  split at hs
  · next hmem =>
    cases hs
    refine ⟨fun token' e he => ?_, fun token' hempty => ?_, fun p hp => ?_,
      fun token' c' hc' => ?_⟩
    · exact h.created_modify (f := SessionEntry.activate c client) (fun _ => ⟨rfl, rfl, rfl⟩) he
    · refine h.issued token' ?_
      have hempty' : Function.update s.stores token
          (if (s.registry token).isSome then (c, client) :: s.stores token else s.stores token)
          token' = [] := hempty
      by_cases hne : token' = token
      · rw [hne, Function.update_self] at hempty'
        rw [hne]
        split_ifs at hempty'
        exact hempty'
      · rwa [Function.update_of_ne hne] at hempty'
    · exact h.forwarded p (List.mem_of_mem_erase hp)
    · have hc'' : c' ∈ Function.update s.activations token (c :: s.activations token) token' := hc'
      by_cases hne : token' = token
      · rw [hne, Function.update_self] at hc''
        rw [hne]
        rcases List.mem_cons.1 hc'' with rfl | hc''
        · exact h.forwarded _ hmem
        · exact h.accepted token c' hc''
      · rw [Function.update_of_ne hne] at hc''
        exact h.accepted token' c' hc''
  · cases hs

/-- **Step lemma**: every locked section keeps the invariant. -/
theorem secured_step (h : Secured channels s) (hs : step channels s (c, now, act) = some t) :
    Secured channels t := by
  cases act with
  | insert token client timeout => exact secured_insert h hs
  | begin token checks => exact secured_begin h hs
  | activate token client => exact secured_activate h hs
  | refuse token =>
    have hfree := lookups_eq_none (by simp) hs
    simp only [step, hfree] at hs
    split_ifs at hs
    cases hs
    exact { h with forwarded := fun p hp => h.forwarded p (List.mem_of_mem_erase hp) }
  | removeOwned token =>
    have hfree := lookups_eq_none (by simp) hs
    simp only [step, hfree] at hs
    cases hs
    exact { h with
      created := fun token' e he => h.created token' e (SessionRegistry.removeOwned_eq_some he) }
  | lookup token =>
    have hfree := lookups_eq_none (by simp) hs
    simp only [step, hfree] at hs
    cases hs
    exact { h with created := fun token' e he => h.created_modify (fun _ => ⟨rfl, rfl, rfl⟩) he }
  | check =>
    cases hl : s.lookups c with
    | none => simp only [step, hl] at hs; cases hs
    | some p =>
      simp only [step, hl] at hs
      cases hs
      exact { h with }

/-- **Run lemma**: the invariant holds after every run. -/
theorem secured_of_run {ops : List (ℕ × ℕ × Section)}
    (hr : Machine.run (step channels) {} ops = some t) : Secured channels t :=
  Machine.run_invariant (fun _ _ _ h hs => secured_step h hs) secured_init hr

/-- **The security of a session**, for every interleaving of the locked sections of any number of
connections: an accepted activation comes over a channel at least as secure as the one the
session was created on, and it is below an earlier one only where a session that was created on a
channel that signs was activated over one that encrypts and then over one that signs. -/
theorem security_of_activations {ops : List (ℕ × ℕ × Section)}
    (hr : Machine.run (step channels) {} ops = some t) (token : NodeId) :
    (∀ c ∈ t.activations token, ∃ d, t.creators token = some d ∧
      (channels d).rank ≤ (channels c).rank) ∧
    ∀ newer c older, t.activations token = newer ++ c :: older → ∀ b ∈ older,
      (channels b).rank ≤ (channels c).rank ∨ ∃ d, t.creators token = some d ∧
        (channels d).rank = 1 ∧ (channels c).rank = 1 ∧ (channels b).rank = 2 := by
  have h := secured_of_run hr
  refine ⟨fun c hc => ?_, fun newer c older hsplit b hb => ?_⟩
  · obtain ⟨d, hd, hrank, -⟩ := h.accepted token c hc
    exact ⟨d, hd, hrank⟩
  · have hc : c ∈ t.activations token := by
      rw [hsplit]
      simp
    have hb : b ∈ t.activations token := by
      rw [hsplit]
      simp [hb]
    obtain ⟨d, hd, hrankc, hpolicyc⟩ := h.accepted token c hc
    obtain ⟨d', hd', hrankb, hpolicyb⟩ := h.accepted token b hb
    obtain rfl : d = d' := Option.some.inj (hd.symm.trans hd')
    have hle := (channels b).rank_le
    by_cases hnone : (channels d).policy = .none
    · -- no channel of the session is secure
      have hb0 : (channels b).rank = 0 := by
        rw [Channel.rank_eq_zero_iff]
        by_contra hsecure
        exact hpolicyb hsecure hnone
      exact .inl (by omega)
    · have hd0 : (channels d).rank ≠ 0 := fun h0 => hnone ((Channel.rank_eq_zero_iff _).1 h0)
      by_cases hlt : (channels b).rank ≤ (channels c).rank
      · exact .inl hlt
      · exact .inr ⟨d, hd, by omega, by omega, by omega⟩

/-! ### An activation below an earlier one -/

/-- A channel of a client that proves itself with a certificate. -/
def signed (mode : MessageSecurityMode) (h : mode = .sign ∨ mode = .signAndEncrypt) : Channel where
  policy := .basic256Sha256
  mode := mode
  clientCertificate := some "5f1d"
  consistent := by rcases h with rfl | rfl <;> simp
  certificate_none := fun h => nomatch h

/-- Connection 2 encrypts, the others only sign. -/
def mixedChannels (c : ℕ) : Channel :=
  if c = 2 then signed .signAndEncrypt (.inr rfl) else signed .sign (.inl rfl)

/-- The session is created and activated on connection 1, taken over by connection 2, and activated
on 1 again. -/
def weakerRun : List (ℕ × ℕ × Section) :=
  [(1, 0, .insert ⟨1, .numeric 7⟩ { remoteAddr := "10.0.0.5:50000" } 60),
    (1, 1, .begin ⟨1, .numeric 7⟩ (.ok .anonymous)),
    (1, 2, .activate ⟨1, .numeric 7⟩ { remoteAddr := "10.0.0.5:50000", user := some .anonymous }),
    (2, 3, .begin ⟨1, .numeric 7⟩ (.ok .anonymous)),
    (2, 4, .activate ⟨1, .numeric 7⟩ { remoteAddr := "10.0.0.5:50001", user := some .anonymous }),
    (1, 5, .begin ⟨1, .numeric 7⟩ (.ok .anonymous)),
    (1, 6, .activate ⟨1, .numeric 7⟩ { remoteAddr := "10.0.0.5:50000", user := some .anonymous })]

/-- A session that is taken over on a channel that is less secure than another. -/
theorem security_of_activations_weakerRun : ∃ t,
    Machine.run (step mixedChannels) {} weakerRun = some t ∧
      t.activations ⟨1, .numeric 7⟩ = [1, 2, 1] ∧ t.creators ⟨1, .numeric 7⟩ = some 1 ∧
      ∀ c ∈ t.activations ⟨1, .numeric 7⟩, 1 ≤ (mixedChannels c).rank := by
  obtain ⟨t, ht⟩ := Option.isSome_iff_exists.1
    (show (Machine.run (step mixedChannels) {} weakerRun).isSome = true from rfl)
  have hread : (Machine.run (step mixedChannels) {} weakerRun).map (fun t =>
      (t.activations ⟨1, .numeric 7⟩, t.creators ⟨1, .numeric 7⟩)) = some ([1, 2, 1], some 1) := rfl
  rw [ht, Option.map_some, Option.some.injEq, Prod.mk.injEq] at hread
  refine ⟨t, ht, hread.1, hread.2, fun c hc => ?_⟩
  obtain ⟨d, hd, hrank⟩ := (security_of_activations ht _).1 c hc
  rw [hread.2] at hd
  obtain rfl := Option.some.inj hd
  exact hrank

/-- The last activation is below the one before it. -/
theorem security_decreases : ∃ t,
    Machine.run (step mixedChannels) {} weakerRun = some t ∧
      t.activations ⟨1, .numeric 7⟩ = [1, 2, 1] ∧
      (mixedChannels 1).rank < (mixedChannels 2).rank := by
  obtain ⟨t, ht⟩ := Option.isSome_iff_exists.1
    (show (Machine.run (step mixedChannels) {} weakerRun).isSome = true from rfl)
  have hread : (Machine.run (step mixedChannels) {} weakerRun).map (fun t =>
      t.activations ⟨1, .numeric 7⟩) = some [1, 2, 1] := rfl
  rw [ht, Option.map_some, Option.some.injEq] at hread
  exact ⟨t, ht, hread, by decide⟩

end Sessions

end AuditGateway
