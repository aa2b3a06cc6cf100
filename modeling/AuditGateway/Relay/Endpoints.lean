import AuditGateway.Config.Target
import AuditGateway.Relay.Session

set_option relaxedAutoImplicit false
set_option autoImplicit false

/-!
# The endpoints of a target

The endpoints that clients are offered follow those of the target, without the ones below its least
security. A connection keeps the list it has read last. It issues a secure channel only with a
policy and mode of that list, except without a policy, and connects to the target over the endpoint
that has the policy and mode of the channel.

## Main definitions

* `gatewayEndpoints`, `securityOf`, `atLeast`, `matchingUpstream` — what is done with a list.
* `RelayChannel` — a connection, with a function for everything that happens on it.
* `Output.Safe` — what the security floor says about an answer or a request.

## Main results

* `rank_securityOf` — the security of an endpoint is that of a channel with its policy and mode.
* `RelayChannel.inv_openSecureChannel`, `RelayChannel.inv_request` — what keeps the floor, as long
  as the policy of an issued channel is that of its header.
-/

namespace AuditGateway

/-- What the OPC UA crate says about security policies. -/
structure PolicyCrate where
  fromUri : String → SecurityPolicy
  isSupported : SecurityPolicy → Bool

/-- How a user can log in. -/
inductive UserTokenType
  | anonymous
  | userName
  | certificate
  | issuedToken
  deriving DecidableEq

/-- A way in which users log in at an endpoint. -/
structure UserTokenPolicy where
  policyId : String
  tokenType : UserTokenType
  deriving DecidableEq

/-- Who the server is. -/
structure ApplicationDescription where
  applicationUri : String
  productUri : String
  applicationName : String
  discoveryUrls : Option (List String)
  deriving DecidableEq

/-- An endpoint of a server. -/
structure EndpointDescription where
  endpointUrl : String
  server : ApplicationDescription
  serverCertificate : List UInt8
  securityMode : MessageSecurityMode
  securityPolicyUri : String
  userIdentityTokens : Option (List UserTokenPolicy)
  transportProfileUri : String
  securityLevel : ℕ
  deriving DecidableEq

/-- Who the gateway is. -/
structure GatewayIdentity where
  certificateBytes : List UInt8
  applicationUri : String
  serverName : String

namespace MinSecurity

/-- The place of a minimum security in their order. -/
def rank : MinSecurity → ℕ
  | .none => 0
  | .sign => 1
  | .signAndEncrypt => 2

/-- Different ones have different places. -/
theorem rank_injective : Function.Injective rank := by
  intro a b h
  cases a <;> cases b <;> first | rfl | cases h

/-- They are ordered by what they demand. -/
instance : LinearOrder MinSecurity := LinearOrder.lift' rank rank_injective

end MinSecurity

/-! ## Lists of endpoints -/

/-- User token types the gateway can pass through to the upstream server. X509 and issued tokens are
signed with keys the gateway does not have. -/
def isRelayableToken (policy : UserTokenPolicy) : Bool :=
  policy.tokenType = .anonymous ∨ policy.tokenType = .userName

/-- The gateway as a server, at a URL. -/
def serverDescription (gateway : GatewayIdentity) (url : String) : ApplicationDescription where
  applicationUri := gateway.applicationUri
  productUri := "urn:opcua-audit-gateway"
  applicationName := gateway.serverName
  discoveryUrls := some [url]

/-- The endpoints offered to clients: one per upstream endpoint with a security policy the gateway
supports, with the gateway's URL, identity and certificate, and only the user token types that can
be relayed. -/
def gatewayEndpoints (x : PolicyCrate) (upstream : List EndpointDescription)
    (gateway : GatewayIdentity) (url : String) : List EndpointDescription :=
  (upstream.filter fun e =>
    x.fromUri e.securityPolicyUri ≠ .unknown ∧ x.isSupported (x.fromUri e.securityPolicyUri)).map
    fun e => { e with
      endpointUrl := url
      server := serverDescription gateway url
      serverCertificate := gateway.certificateBytes
      userIdentityTokens := some ((e.userIdentityTokens.getD []).filter isRelayableToken) }

/-- The security level of an endpoint, comparable with `MinSecurity`. -/
def securityOf (x : PolicyCrate) (endpoint : EndpointDescription) : MinSecurity :=
  match x.fromUri endpoint.securityPolicyUri, endpoint.securityMode with
  | .none, _ => .none
  | _, .signAndEncrypt => .signAndEncrypt
  | _, .sign => .sign
  | _, _ => .none

/-- Drops the endpoints below the target's minimum security. -/
def atLeast (x : PolicyCrate) (endpoints : List EndpointDescription) (min : MinSecurity) :
    List EndpointDescription :=
  endpoints.filter fun e => min ≤ securityOf x e

/-- The upstream endpoint to use for a client channel with this policy and mode. -/
def matchingUpstream (x : PolicyCrate) (upstream : List EndpointDescription)
    (policy : SecurityPolicy) (mode : MessageSecurityMode) : Option EndpointDescription :=
  upstream.find? fun e => e.securityMode = mode ∧ x.fromUri e.securityPolicyUri = policy

/-- The endpoints of the monitor's last answer, and the answer to asking the server now. -/
structure Discovery where
  rawEndpoints : List EndpointDescription
  discovered : Except StatusCode (List EndpointDescription)

/-- Upstream endpoints from the target monitor's cache, or discovered now, without those below the
target's minimum security. -/
def upstreamEndpoints (x : PolicyCrate) (min : MinSecurity) (discovery : Discovery) :
    Except StatusCode (List EndpointDescription) :=
  if discovery.rawEndpoints ≠ [] then .ok (atLeast x discovery.rawEndpoints min)
  else discovery.discovered.map (atLeast x · min)

/-- The security of an endpoint is that of a channel with its policy and mode. -/
theorem rank_securityOf (x : PolicyCrate) (e : EndpointDescription) :
    (securityOf x e).rank = securityRank (x.fromUri e.securityPolicyUri) e.securityMode := by
  unfold securityOf securityRank
  cases x.fromUri e.securityPolicyUri <;> cases e.securityMode <;> rfl

/-- What is offered has the security of the target's own endpoint. -/
theorem mem_gatewayEndpoints {x : PolicyCrate} {upstream : List EndpointDescription}
    {gateway : GatewayIdentity} {url : String} {e : EndpointDescription}
    (h : e ∈ gatewayEndpoints x upstream gateway url) :
    ∃ own ∈ upstream, securityOf x e = securityOf x own := by
  obtain ⟨own, hown, rfl⟩ := List.mem_map.1 h
  exact ⟨own, (List.mem_filter.1 hown).1, rfl⟩

/-- The endpoints that are kept demand what they must. -/
theorem le_of_mem_atLeast {x : PolicyCrate} {endpoints : List EndpointDescription}
    {min : MinSecurity} {e : EndpointDescription} (h : e ∈ atLeast x endpoints min) :
    min ≤ securityOf x e := by
  simpa using (List.mem_filter.1 h).2

/-- No list that is read has an endpoint below the floor. -/
theorem le_of_upstreamEndpoints {x : PolicyCrate} {min : MinSecurity} {discovery : Discovery}
    {endpoints : List EndpointDescription}
    (h : upstreamEndpoints x min discovery = .ok endpoints) :
    ∀ e ∈ endpoints, min ≤ securityOf x e := by
  intro e he
  unfold upstreamEndpoints at h
  split_ifs at h
  · cases h
    exact le_of_mem_atLeast he
  · cases hd : discovery.discovered with
    | error status =>
      rw [hd] at h
      cases h
    | ok found =>
      rw [hd] at h
      cases h
      exact le_of_mem_atLeast he

/-- The endpoint that is found has the policy and the mode. -/
theorem matchingUpstream_eq_some {x : PolicyCrate} {upstream : List EndpointDescription}
    {policy : SecurityPolicy} {mode : MessageSecurityMode} {e : EndpointDescription}
    (h : matchingUpstream x upstream policy mode = some e) :
    e ∈ upstream ∧ e.securityMode = mode ∧ x.fromUri e.securityPolicyUri = policy := by
  exact ⟨List.mem_of_find?_eq_some h, by simpa using List.find?_some h⟩

/-! ## A connection -/

namespace StatusCode

/-- A check of the security has failed. -/
def badSecurityChecksFailed : StatusCode := ⟨0x80130000⟩

/-- The version of the protocol is another. -/
def badProtocolVersionUnsupported : StatusCode := ⟨0x80be0000⟩

/-- The channel is not known. -/
def badSecureChannelIdInvalid : StatusCode := ⟨0x80220000⟩

/-- The nonce has a wrong length. -/
def badNonceInvalid : StatusCode := ⟨0x80240000⟩

/-- The mode is not allowed. -/
def badSecurityModeRejected : StatusCode := ⟨0x80540000⟩

/-- The policy is not allowed. -/
def badSecurityPolicyRejected : StatusCode := ⟨0x80550000⟩

end StatusCode

/-- What of a target does not change while its relay runs. -/
structure EndpointTarget where
  minSecurity : MinSecurity
  gateway : GatewayIdentity

/-- The security header of an OpenSecureChannel. -/
structure AsymmetricHeader where
  securityPolicyUri : String
  /-- None if it is null. -/
  senderCertificate : Option (List UInt8)
  deriving DecidableEq

/-- What a client asks for when it opens or renews its channel. -/
structure OpenSecureChannelRequest where
  clientProtocolVersion : ℕ
  renew : Bool
  securityMode : MessageSecurityMode
  clientNonce : List UInt8

/-- What the trust list and the library say about an OpenSecureChannel. -/
structure OpenChecks where
  certificate : Except StatusCode Unit
  setup : Except StatusCode Unit

/-- What a request future has of the connection. -/
structure EndpointCtx where
  upstream : EndpointDescription
  policy : SecurityPolicy
  mode : MessageSecurityMode
  upstreamEndpoints : List EndpointDescription

/-- What a connection answers and sends. -/
inductive Output
  | fault (status : StatusCode)
  /-- A secure channel is issued; `offered` are the endpoints offered at that time. -/
  | issued (policy : SecurityPolicy) (mode : MessageSecurityMode)
      (offered : List EndpointDescription)
  | renewed
  /-- The endpoints in an answer to GetEndpoints or CreateSession. -/
  | offered (endpoints : List EndpointDescription)
  /-- A request is sent to the target over a connection to an endpoint, for a client on a channel
  with this policy and mode. -/
  | forwarded (upstream : EndpointDescription) (policy : SecurityPolicy)
      (mode : MessageSecurityMode)

/-- The channel of a client, with the endpoints of its target and what it was answered. -/
structure RelayChannel where
  protocolVersion : ℕ := 0
  policy : SecurityPolicy := .none
  mode : MessageSecurityMode := .none
  remoteNonce : List UInt8 := []
  issued : Bool := false
  /-- Policy and certificate of the issued channel. -/
  binding : Option AsymmetricHeader := none
  upstreamEndpoints : List EndpointDescription := []
  upstream : Option EndpointDescription := none
  pending : List EndpointCtx := []
  closeReason : Option String := none
  outputs : List Output := []

namespace RelayChannel

/-- Something is sent to the client. -/
def respond (s : RelayChannel) (output : Output) : RelayChannel :=
  { s with outputs := s.outputs ++ [output] }

/-- The connection ends. -/
def close (s : RelayChannel) (reason : String) : RelayChannel :=
  { s with closeReason := some (s.closeReason.getD reason) }

/-- The channel is refused, and the connection ends. -/
def reject (s : RelayChannel) (status : StatusCode) (reason : String) : RelayChannel :=
  (s.respond (.fault status)).close reason

/-- The list is read again; a failure is one only if there is no older list. -/
def refreshUpstreamEndpoints (x : PolicyCrate) (target : EndpointTarget) (s : RelayChannel)
    (discovery : Discovery) : RelayChannel × Except StatusCode Unit :=
  match AuditGateway.upstreamEndpoints x target.minSecurity discovery with
  | .ok endpoints => ({ s with upstreamEndpoints := endpoints }, .ok ())
  | .error status => (s, if s.upstreamEndpoints = [] then .error status else .ok ())

/-- The connection to the target; `connected` is the outcome of a new one. -/
def ensureUpstream (x : PolicyCrate) (target : EndpointTarget) (s : RelayChannel)
    (discovery : Discovery) (connected : Bool) :
    RelayChannel × Except StatusCode EndpointDescription :=
  match s.upstream with
  | some upstream => (s, .ok upstream)
  | none =>
    let (s, refreshed) :=
      if s.upstreamEndpoints = [] then s.refreshUpstreamEndpoints x target discovery
      else (s, .ok ())
    match refreshed with
    | .error status => (s, .error status)
    | .ok () =>
      match matchingUpstream x s.upstreamEndpoints s.policy s.mode with
      | none => (s, .error .badSecurityPolicyRejected)
      | some endpoint =>
        if connected then ({ s with upstream := some endpoint }, .ok endpoint)
        else (s, .error .badServerNotConnected)

/-- Whether a mode fits a policy. -/
def consistent (policy : SecurityPolicy) : MessageSecurityMode → Bool
  | .none => policy = .none
  | .sign | .signAndEncrypt => policy ≠ .none
  | .invalid => false

/-- The endpoints that a secure channel can have. -/
def offeredNow (x : PolicyCrate) (target : EndpointTarget) (s : RelayChannel) :
    List EndpointDescription :=
  gatewayEndpoints x s.upstreamEndpoints target.gateway ""

/-- The checks of a renewal. -/
def checkRenew (s : RelayChannel) (request : OpenSecureChannelRequest) (checks : OpenChecks) :
    Except (StatusCode × String) Unit :=
  if ¬s.issued then .error (.badSecureChannelIdInvalid, "renew before issue")
  else if request.securityMode ≠ s.mode then
    .error (.badSecurityModeRejected, "renewal with a different security mode")
  else if s.policy ≠ .none ∧ request.clientNonce = s.remoteNonce then
    .error (.badNonceInvalid, "nonce reused on renew")
  else if s.policy ≠ .none then
    checks.certificate.mapError (·, "client certificate no longer trusted")
  else .ok ()

/-- The checks of an issue, of which the last ones follow the list that was just read. -/
def checkIssue (x : PolicyCrate) (target : EndpointTarget) (s : RelayChannel)
    (request : OpenSecureChannelRequest) (checks : OpenChecks) (discovery : Discovery) :
    RelayChannel × Except (StatusCode × String) Unit :=
  if s.issued then (s, .error (.badSecureChannelIdInvalid, "second issue"))
  else if ¬consistent s.policy request.securityMode then
    (s, .error (.badSecurityModeRejected, "invalid security mode"))
  else
    let s := (s.refreshUpstreamEndpoints x target discovery).1
    let offered := (s.offeredNow x target).any fun e =>
      e.securityMode = request.securityMode ∧ x.fromUri e.securityPolicyUri = s.policy
    (s,
      if ¬offered ∧ s.policy ≠ .none then
        .error (.badSecurityPolicyRejected, "security policy not offered by the target")
      else if s.policy ≠ .none then
        checks.certificate.mapError (·, "client certificate rejected")
      else .ok ())

/-- The channel is set up with the mode and nonce of a request, and the request answered. -/
def setUp (s : RelayChannel) (request : OpenSecureChannelRequest) (checks : OpenChecks)
    (answer : RelayChannel → RelayChannel) : RelayChannel :=
  let s := { s with mode := request.securityMode }
  match checks.setup with
  | .error status => s.reject status "invalid OpenSecureChannel request"
  | .ok () => answer { s with remoteNonce := request.clientNonce }

/-- A channel is opened or renewed. -/
def openSecureChannel (x : PolicyCrate) (target : EndpointTarget) (s : RelayChannel)
    (header : AsymmetricHeader) (request : OpenSecureChannelRequest) (checks : OpenChecks)
    (discovery : Discovery) : RelayChannel :=
  if request.clientProtocolVersion ≠ s.protocolVersion then
    s.reject .badProtocolVersionUnsupported "protocol version mismatch"
  else if request.renew then
    match s.checkRenew request checks with
    | .error (status, reason) => s.reject status reason
    | .ok () => s.setUp request checks (·.respond .renewed)
  else
    let (s, checked) := s.checkIssue x target request checks discovery
    match checked with
    | .error (status, reason) => s.reject status reason
    | .ok () => s.setUp request checks fun s =>
      { s.respond (.issued s.policy s.mode (s.offeredNow x target)) with
        issued := true
        binding := some header }

/-- A request of a client, on a connection that is not going away and has a channel. -/
def handle (s : RelayChannel) (f : RelayChannel → RelayChannel) : RelayChannel :=
  if s.closeReason.isSome then s
  else if ¬s.issued then s.close "request before OpenSecureChannel"
  else f s

/-- The endpoints of the gateway, by those of the target. -/
def getEndpoints (x : PolicyCrate) (target : EndpointTarget) (s : RelayChannel) (url : String)
    (discovery : Discovery) : RelayChannel :=
  let (s, refreshed) := s.refreshUpstreamEndpoints x target discovery
  s.respond (match refreshed with
    | .ok () => .offered (gatewayEndpoints x s.upstreamEndpoints target.gateway url)
    | .error status => .fault status)

/-- A request future begins. -/
def request (x : PolicyCrate) (target : EndpointTarget) (s : RelayChannel)
    (discovery : Discovery) (connected : Bool) : RelayChannel :=
  let (s, ensured) := s.ensureUpstream x target discovery connected
  match ensured with
  | .error status => s.respond (.fault status)
  | .ok upstream =>
    { s with pending := s.pending ++ [⟨upstream, s.policy, s.mode, s.upstreamEndpoints⟩] }

/-- A request future sends a request to the target. -/
def send (s : RelayChannel) (i : ℕ) : Option RelayChannel := do
  let ctx ← s.pending[i]?
  some (s.respond (.forwarded ctx.upstream s.policy s.mode))

/-- A request future answers CreateSession. -/
def answer (x : PolicyCrate) (target : EndpointTarget) (s : RelayChannel) (i : ℕ) (url : String) :
    Option RelayChannel := do
  let ctx ← s.pending[i]?
  some (s.respond (.offered (gatewayEndpoints x ctx.upstreamEndpoints target.gateway url)))

/-- The upstream connection has ended. -/
def upstreamClosed (s : RelayChannel) : RelayChannel :=
  { s with upstream := none }.close "upstream connection lost"

/-! ## The security floor -/

end RelayChannel

/-- What the floor says: no endpoint below it is offered or used, a request goes over an endpoint
that has policy and mode of the client's channel, and a policy other than None is issued only with a
mode with which it is offered. -/
def Output.Safe (x : PolicyCrate) (min : MinSecurity) : Output → Prop
  | .issued policy mode endpoints => (∀ e ∈ endpoints, min ≤ securityOf x e) ∧
    (policy ≠ .none →
      ∃ e ∈ endpoints, e.securityMode = mode ∧ x.fromUri e.securityPolicyUri = policy)
  | .offered endpoints => ∀ e ∈ endpoints, min ≤ securityOf x e
  | .forwarded upstream policy mode => min ≤ securityOf x upstream ∧
    upstream.securityMode = mode ∧ x.fromUri upstream.securityPolicyUri = policy
  | .fault _ | .renewed => True

namespace RelayChannel

variable {x : PolicyCrate} {target : EndpointTarget} {s t : RelayChannel}

/-- An endpoint that the channel may be relayed to. -/
def Fits (x : PolicyCrate) (target : EndpointTarget) (s : RelayChannel) (e : EndpointDescription) :
    Prop :=
  target.minSecurity ≤ securityOf x e ∧ e.securityMode = s.mode ∧
    x.fromUri e.securityPolicyUri = s.policy

/-- What every step keeps: the endpoints are those that may be used, and everything answered is
safe. -/
structure Inv (x : PolicyCrate) (target : EndpointTarget) (s : RelayChannel) : Prop where
  floor : ∀ e ∈ s.upstreamEndpoints, target.minSecurity ≤ securityOf x e
  upstream : ∀ e, s.upstream = some e → Fits x target s e
  pending : ∀ ctx ∈ s.pending, Fits x target s ctx.upstream ∧
    ∀ e ∈ ctx.upstreamEndpoints, target.minSecurity ≤ securityOf x e
  binding : ∀ b, s.binding = some b → x.fromUri b.securityPolicyUri = s.policy
  issued : s.issued = s.binding.isSome
  idle : s.issued = false → s.upstream = none ∧ s.pending = []
  outputs : ∀ o ∈ s.outputs, o.Safe x target.minSecurity

/-- Sending something safe keeps the invariant. -/
theorem inv_respond (h : Inv x target s) {o : Output} (ho : o.Safe x target.minSecurity) :
    Inv x target (s.respond o) := by
  refine { h with outputs := fun o' ho' => ?_ }
  rcases List.mem_append.1 ho' with hmem | hnew
  · exact h.outputs o' hmem
  · obtain rfl := List.mem_singleton.1 hnew
    exact ho

/-- The end of the connection keeps the invariant. -/
theorem inv_close (h : Inv x target s) (reason : String) : Inv x target (s.close reason) :=
  { h with }

/-- A refusal keeps the invariant. -/
theorem inv_reject (h : Inv x target s) (status : StatusCode) (reason : String) :
    Inv x target (s.reject status reason) :=
  inv_close (inv_respond h (o := .fault status) trivial) reason

/-- A discovery keeps the invariant. -/
theorem inv_refresh (h : Inv x target s) (discovery : Discovery) :
    Inv x target (s.refreshUpstreamEndpoints x target discovery).1 := by
  unfold refreshUpstreamEndpoints
  cases hread : AuditGateway.upstreamEndpoints x target.minSecurity discovery with
  | error status => exact h
  | ok endpoints => exact { h with floor := le_of_upstreamEndpoints hread }

/-- What reading the list leaves alone. -/
theorem refresh_fst (x : PolicyCrate) (target : EndpointTarget) (s : RelayChannel)
    (discovery : Discovery) :
    ∃ endpoints, (s.refreshUpstreamEndpoints x target discovery).1 =
      { s with upstreamEndpoints := endpoints } := by
  unfold refreshUpstreamEndpoints
  cases AuditGateway.upstreamEndpoints x target.minSecurity discovery with
  | error status => exact ⟨s.upstreamEndpoints, rfl⟩
  | ok endpoints => exact ⟨endpoints, rfl⟩

/-- What is offered is not below the floor. -/
theorem le_of_mem_gatewayEndpoints {endpoints : List EndpointDescription}
    {gateway : GatewayIdentity}
    {min : MinSecurity} (h : ∀ e ∈ endpoints, min ≤ securityOf x e) (url : String) :
    ∀ e ∈ gatewayEndpoints x endpoints gateway url, min ≤ securityOf x e := by
  intro e he
  obtain ⟨own, hown, hsame⟩ := mem_gatewayEndpoints he
  exact hsame ▸ h own hown

/-- The connection to the target is over an endpoint that fits. -/
theorem inv_ensureUpstream (h : Inv x target s) (hissued : s.issued = true)
    (discovery : Discovery) (connected : Bool) :
    Inv x target (s.ensureUpstream x target discovery connected).1 ∧
      (s.ensureUpstream x target discovery connected).1.issued = true ∧
      ∀ e, (s.ensureUpstream x target discovery connected).2 = .ok e →
        Fits x target (s.ensureUpstream x target discovery connected).1 e := by
  unfold ensureUpstream
  cases hupstream : s.upstream with
  | some upstream =>
    refine ⟨h, hissued, fun e he => ?_⟩
    obtain rfl := Except.ok.inj he
    exact h.upstream _ hupstream
  | none =>
    have hrefresh : Inv x target (if s.upstreamEndpoints = [] then
          s.refreshUpstreamEndpoints x target discovery else (s, .ok ())).1 ∧
        (if s.upstreamEndpoints = [] then s.refreshUpstreamEndpoints x target discovery
          else (s, .ok ())).1.issued = true := by
      split_ifs
      · obtain ⟨endpoints, heq⟩ := refresh_fst x target s discovery
        exact ⟨inv_refresh h discovery, by rw [heq]; exact hissued⟩
      · exact ⟨h, hissued⟩
    dsimp only
    generalize (if s.upstreamEndpoints = [] then s.refreshUpstreamEndpoints x target discovery
      else (s, .ok ())) = r at hrefresh ⊢
    obtain ⟨s₁, refreshed⟩ := r
    obtain ⟨hinv, hiss⟩ := hrefresh
    cases refreshed with
    | error status => exact ⟨hinv, hiss, fun e he => (nomatch he)⟩
    | ok _ =>
      dsimp only at hinv hiss ⊢
      cases hmatch : matchingUpstream x s₁.upstreamEndpoints s₁.policy s₁.mode with
      | none => exact ⟨hinv, hiss, fun e he => (nomatch he)⟩
      | some endpoint =>
        obtain ⟨hmem, hmode, hpolicy⟩ := matchingUpstream_eq_some hmatch
        have hfits : Fits x target s₁ endpoint := ⟨hinv.floor _ hmem, hmode, hpolicy⟩
        cases connected with
        | false => exact ⟨hinv, hiss, fun e he => (nomatch he)⟩
        | true =>
          refine ⟨{ hinv with
            upstream := fun e he => ?_
            idle := fun hno => ?_ }, hiss, fun e he => ?_⟩
          · obtain rfl := Option.some.inj he
            exact hfits
          · exact absurd (hiss.symm.trans hno) (by simp)
          · obtain rfl := Except.ok.inj he
            exact hfits

/-- Before a channel is issued nothing is connected, so its security is free. -/
theorem inv_of_not_issued (h : Inv x target s) (hissued : s.issued = false)
    (policy : SecurityPolicy)
    (mode : MessageSecurityMode) : Inv x target { s with policy := policy, mode := mode } := by
  obtain ⟨hupstream, hpending⟩ := h.idle hissued
  have hbinding : s.binding = none := by
    have := h.issued
    rw [hissued] at this
    simpa using this.symm
  refine { h with
    upstream := fun e he => ?_
    pending := fun ctx hctx => ?_
    binding := fun b hb => ?_ }
  · exact (nomatch hupstream.symm.trans he)
  · rw [show s.pending = [] from hpending] at hctx
    cases hctx
  · exact (nomatch hbinding.symm.trans hb)

/-- Once a channel is issued, the library reads no policy but that of the channel. -/
theorem inv_policy (h : Inv x target s) {policy : SecurityPolicy}
    (hpolicy : s.issued = true → policy = s.policy) : Inv x target { s with policy := policy } := by
  by_cases hissued : s.issued = true
  · rw [hpolicy hissued]
    exact h
  · exact inv_of_not_issued h (by simpa using hissued) policy s.mode

/-- Only a channel that was issued is renewed, with the mode it has. -/
theorem checkRenew_eq_ok {request : OpenSecureChannelRequest} {checks : OpenChecks}
    (h : s.checkRenew request checks = .ok ()) :
    s.issued = true ∧ request.securityMode = s.mode := by
  unfold checkRenew at h
  split_ifs at h with hissued hmode
  · exact ⟨by simpa using hissued, not_not.1 hmode⟩
  · exact ⟨by simpa using hissued, not_not.1 hmode⟩

/-- The checks of an issue read the list, and pass only if the policy is offered with the mode. -/
theorem checkIssue_spec (h : Inv x target s) (request : OpenSecureChannelRequest)
    (checks : OpenChecks) (discovery : Discovery) :
    Inv x target (s.checkIssue x target request checks discovery).1 ∧
      (s.checkIssue x target request checks discovery).1.policy = s.policy ∧
      ((s.checkIssue x target request checks discovery).2 = .ok () →
        (s.checkIssue x target request checks discovery).1.issued = false ∧
        (s.policy ≠ .none → ∃ e ∈ (s.checkIssue x target request checks discovery).1.offeredNow x
          target, e.securityMode = request.securityMode ∧
            x.fromUri e.securityPolicyUri = s.policy)) := by
  unfold checkIssue
  by_cases hissued : s.issued = true
  · rw [if_pos hissued]
    exact ⟨h, rfl, fun hok => (nomatch hok)⟩
  · rw [if_neg hissued]
    by_cases hmode : consistent s.policy request.securityMode = true
    · rw [if_neg (by simpa using hmode)]
      obtain ⟨endpoints, heq⟩ := refresh_fst x target s discovery
      have hinv := inv_refresh h discovery
      rw [heq] at hinv
      simp only [heq]
      refine ⟨hinv, trivial, fun hok => ⟨by simpa using hissued, fun hpolicy => ?_⟩⟩
      by_contra hnone
      rw [if_pos] at hok
      · cases hok
      · refine ⟨fun hany => hnone ?_, hpolicy⟩
        obtain ⟨e, he, hfit⟩ := List.any_eq_true.1 hany
        exact ⟨e, he, by simpa using hfit⟩
    · rw [if_pos (by simpa using hmode)]
      exact ⟨h, rfl, fun hok => (nomatch hok)⟩

/-- The invariant behind a renewal. -/
theorem inv_renew (h : Inv x target s) (request : OpenSecureChannelRequest) (checks : OpenChecks)
    (hmode : request.securityMode = s.mode) :
    Inv x target (s.setUp request checks (·.respond .renewed)) := by
  unfold setUp
  rw [hmode]
  cases checks.setup with
  | error status => exact inv_reject h _ _
  | ok _ =>
    have hnonce : Inv x target { s with remoteNonce := request.clientNonce } := { h with }
    exact inv_respond hnonce (o := .renewed) trivial

/-- A channel is issued with the policy of its header, and with what is offered. -/
theorem inv_issue (h : Inv x target s) (hissued : s.issued = false) (header : AsymmetricHeader)
    (hpolicy : x.fromUri header.securityPolicyUri = s.policy) (request : OpenSecureChannelRequest)
    (checks : OpenChecks)
    (hoffered : s.policy ≠ .none → ∃ e ∈ s.offeredNow x target,
      e.securityMode = request.securityMode ∧ x.fromUri e.securityPolicyUri = s.policy) :
    Inv x target (s.setUp request checks fun s =>
      { s.respond (.issued s.policy s.mode (s.offeredNow x target)) with
        issued := true
        binding := some header }) := by
  have hmode := inv_of_not_issued h hissued s.policy request.securityMode
  unfold setUp
  cases checks.setup with
  | error status => exact inv_reject hmode _ _
  | ok _ =>
    have hsafe : (Output.issued s.policy request.securityMode (s.offeredNow x target)).Safe x
        target.minSecurity := ⟨le_of_mem_gatewayEndpoints h.floor "", hoffered⟩
    have hanswer := inv_respond hmode hsafe
    refine { hanswer with
      binding := fun b hb => ?_
      issued := rfl
      idle := fun hno => (nomatch hno) }
    obtain rfl := Option.some.inj hb
    exact hpolicy

/-- The invariant behind a request for a channel. -/
theorem inv_openSecureChannel (h : Inv x target s) (header : AsymmetricHeader)
    (request : OpenSecureChannelRequest)
    (hpolicy : request.renew = false → x.fromUri header.securityPolicyUri = s.policy)
    (checks : OpenChecks) (discovery : Discovery) :
    Inv x target (s.openSecureChannel x target header request checks discovery) := by
  unfold openSecureChannel
  split_ifs with hversion hrenew
  · exact inv_reject h _ _
  · cases hcheck : s.checkRenew request checks with
    | error e => exact inv_reject h _ _
    | ok _ => exact inv_renew h request checks (checkRenew_eq_ok hcheck).2
  · obtain ⟨hinv, hsame, hoffered⟩ := checkIssue_spec h request checks discovery
    generalize s.checkIssue x target request checks discovery = r at hinv hsame hoffered ⊢
    obtain ⟨s₁, checked⟩ := r
    cases checked with
    | error e => exact inv_reject hinv _ _
    | ok _ =>
      obtain ⟨hissued, hoffered⟩ := hoffered rfl
      have hpolicy := hpolicy (by simpa using hrenew)
      have hsame : s₁.policy = s.policy := hsame
      rw [← hsame] at hoffered hpolicy
      exact inv_issue hinv hissued header hpolicy request checks hoffered

/-- The invariant behind a request that is handled on an issued channel. -/
theorem inv_handle (h : Inv x target s) {f : RelayChannel → RelayChannel}
    (hf : s.issued = true → Inv x target (f s)) : Inv x target (s.handle f) := by
  unfold handle
  split_ifs with hclose hissued
  · exact h
  · exact hf hissued
  · exact inv_close h _

/-- The invariant behind a request for endpoints. -/
theorem inv_getEndpoints (h : Inv x target s) (url : String) (discovery : Discovery) :
    Inv x target (s.getEndpoints x target url discovery) := by
  have hrefresh := inv_refresh h discovery
  unfold getEndpoints
  generalize s.refreshUpstreamEndpoints x target discovery = r at hrefresh ⊢
  obtain ⟨s₁, refreshed⟩ := r
  cases refreshed with
  | error status => exact inv_respond hrefresh (o := .fault status) trivial
  | ok _ =>
    exact inv_respond hrefresh (o := .offered _) (le_of_mem_gatewayEndpoints hrefresh.floor url)

/-- The invariant behind a request for the target. -/
theorem inv_request (h : Inv x target s) (hissued : s.issued = true) (discovery : Discovery)
    (connected : Bool) : Inv x target (s.request x target discovery connected) := by
  obtain ⟨hinv, hissued, hfits⟩ := inv_ensureUpstream h hissued discovery connected
  unfold request
  generalize s.ensureUpstream x target discovery connected = r at hinv hissued hfits ⊢
  obtain ⟨s₁, ensured⟩ := r
  cases ensured with
  | error status => exact inv_respond hinv (o := .fault status) trivial
  | ok e =>
    have hfits := hfits e rfl
    refine { hinv with
      pending := fun ctx hctx => ?_
      idle := fun hno => ?_ }
    · rcases List.mem_append.1 hctx with hmem | hnew
      · exact hinv.pending ctx hmem
      · obtain rfl := List.mem_singleton.1 hnew
        exact ⟨hfits, hinv.floor⟩
    · exact absurd (hissued.symm.trans hno) (by simp)

/-- An intent to send keeps the invariant. -/
theorem inv_send (h : Inv x target s) {i : ℕ} (hs : s.send i = some t) : Inv x target t := by
  simp only [send, Option.bind_eq_bind, Option.bind_eq_some_iff] at hs
  obtain ⟨ctx, hctx, hs⟩ := hs
  cases hs
  obtain ⟨hle, hmode, hpolicy⟩ := (h.pending ctx (List.mem_of_getElem? hctx)).1
  exact inv_respond h (o := .forwarded _ _ _) ⟨hle, hmode, hpolicy⟩

/-- An answer keeps the invariant. -/
theorem inv_answer (h : Inv x target s) {i : ℕ} {url : String}
    (hs : s.answer x target i url = some t) : Inv x target t := by
  simp only [answer, Option.bind_eq_bind, Option.bind_eq_some_iff] at hs
  obtain ⟨ctx, hctx, hs⟩ := hs
  cases hs
  have hfloor := (h.pending ctx (List.mem_of_getElem? hctx)).2
  exact inv_respond h (o := .offered _) (le_of_mem_gatewayEndpoints hfloor url)

/-- The end of the upstream connection keeps the invariant. -/
theorem inv_upstreamClosed (h : Inv x target s) : Inv x target s.upstreamClosed := by
  have hnone : Inv x target { s with upstream := none } :=
    { h with
      upstream := fun e he => (nomatch he)
      idle := fun hno => ⟨rfl, (h.idle hno).2⟩ }
  exact inv_close hnone _

/-- A new connection, with the protocol version of its Hello. -/
def start (protocolVersion : ℕ) : RelayChannel := { protocolVersion := protocolVersion }

/-- The invariant holds at the start. -/
theorem inv_start (protocolVersion : ℕ) : Inv x target (start protocolVersion) :=
  ⟨fun _ he => (nomatch he), fun _ he => (nomatch he), fun _ hctx => (nomatch hctx),
    fun _ hb => (nomatch hb), rfl, fun _ => ⟨rfl, rfl⟩, fun _ ho => (nomatch ho)⟩

end RelayChannel

end AuditGateway
