import AuditGateway.Relay.ChannelSecurity
import AuditGateway.Relay.Endpoints
import AuditGateway.Relay.Ownership
import Mathlib.Data.List.Perm.Basic

set_option relaxedAutoImplicit false
set_option autoImplicit false

/-!
# Creating and activating sessions

The gateway is the server of its client and the client of the target's server. It proves itself to
both with its own key, so each side signs a nonce of the gateway's: the server in its answer to
CreateSession, the client in ActivateSession. The user token is decrypted with the gateway's key and
encrypted again for the server. Both requests wait for the server between two locked sections of the
session table, and the requests of all connections interleave.

Nobody can sign for another, and random nonces are new: these are the assumptions `Unforged` and
`Fresh` on a run. The last fields of the state record what happened, for the statements only.

## Main definitions

* `createChecks`, `answerChecks` — what is checked before and behind the server's answer to
  CreateSession.
* `translateIdentity`, `buildActivation` — what of an activation goes to the server.
* `Handshake`, `Handshake.step` — the handshakes of all connections of a target, and the server.
* `SealedFor` — an activation is signed and encrypted for a nonce of the server.

## Main results

* `Handshake.creation_agreement` — a session comes from the server that is trusted, for the request
  that it answers, and with nothing hidden from the client.
* `Handshake.activation_agreement` — an activation comes from the client that created the session,
  and no signature counts again.
* `Handshake.latest_nonce` — what the server gets is signed and encrypted for its latest nonce, if
  the activations of a session do not overlap.
-/

namespace AuditGateway

namespace StatusCode

/-- The certificate is not valid. -/
def badCertificateInvalid : StatusCode := ⟨0x80120000⟩

/-- The URI of the application is not that of the certificate. -/
def badCertificateUriInvalid : StatusCode := ⟨0x80170000⟩

/-- The identity token is not valid. -/
def badIdentityTokenInvalid : StatusCode := ⟨0x80200000⟩

/-- The identity token is not accepted. -/
def badIdentityTokenRejected : StatusCode := ⟨0x80210000⟩

end StatusCode

/-- How long a nonce is. -/
def nonceLength : ℕ := 32

/-! ## Requests and answers -/

/-- What a client asks for when it creates a session. -/
structure CreateSessionRequest where
  clientCertificate : List UInt8
  clientNonce : List UInt8
  applicationUri : String
  applicationName : String
  sessionName : String

/-- The server's answer to CreateSession. -/
structure CreateSessionResponse where
  authenticationToken : NodeId
  sessionId : String
  revisedSessionTimeout : ℕ
  serverNonce : List UInt8
  serverCertificate : List UInt8
  serverSignature : List UInt8
  serverEndpoints : List EndpointDescription

/-- A name and a password, which may be encrypted. -/
structure UserNameIdentityToken where
  policyId : String
  userName : String
  password : List UInt8
  encryptionAlgorithm : String
  deriving DecidableEq

/-- The user identity token of a client. -/
inductive IdentityToken
  | null
  | anonymous
  | userName (token : UserNameIdentityToken)
  | x509 (certificateData : List UInt8)
  | issued
  | other

/-- The user identity token that goes to the server. -/
inductive UpstreamToken
  | anonymous (policyId : String)
  | userName (token : UserNameIdentityToken)
  deriving DecidableEq

/-- The user that the server knows behind it. -/
def UpstreamToken.user : UpstreamToken → UserIdentity
  | anonymous _ => .anonymous
  | userName token => .userName (clip token.userName maxName)

/-- What a client sends to activate a session. -/
structure ActivateSessionRequest where
  authenticationToken : NodeId
  clientSignature : List UInt8
  userIdentityToken : IdentityToken

/-- What of an activation goes to the server. -/
structure UpstreamActivation where
  clientSignature : List UInt8
  userIdentityToken : UpstreamToken
  deriving DecidableEq

/-- The nonces of a session: the last one the gateway gave the client, and the last one the server
gave the gateway. -/
structure Nonces where
  downstream : List UInt8
  upstream : List UInt8
  deriving DecidableEq

/-- What the handshake uses of the library. Certificates are named by their thumbprints. -/
structure SessionCrates where
  policies : PolicyCrate
  /-- Thumbprint and subject of an encoded certificate. -/
  parse : List UInt8 → Option (String × String)
  isApplicationUriValid : String → String → Bool
  /-- Whether the owner of a certificate has signed the gateway's certificate with a nonce. -/
  verifySignatureData : SecurityPolicy → List UInt8 → String → List UInt8 → Bool
  /-- The gateway's signature for a certificate and a nonce. -/
  createSignatureData : SecurityPolicy → List UInt8 → List UInt8 → Except StatusCode (List UInt8)
  /-- `none` is a panic. -/
  decryptSecret : UserNameIdentityToken → List UInt8 → Option (Except StatusCode (List UInt8))
  /-- The secret, and the algorithm it is encrypted with. -/
  encryptSecret : SecurityPolicy → MessageSecurityMode → UserTokenPolicy → List UInt8 →
    List UInt8 → List UInt8 → Except StatusCode (List UInt8 × String)
  statusText : StatusCode → String
  policyText : SecurityPolicy → String
  modeText : MessageSecurityMode → String

/-- What a request has of its connection. -/
structure SessionCtx where
  channel : Channel
  client : ClientContext
  /-- The endpoint over which the server is connected. -/
  upstream : EndpointDescription
  minSecurity : MinSecurity

/-- The policy of the upstream connection. -/
def SessionCtx.upstreamPolicy (x : SessionCrates) (ctx : SessionCtx) : SecurityPolicy :=
  x.policies.fromUri ctx.upstream.securityPolicyUri

/-! ## CreateSession -/

/-- What is checked before the request goes to the server. -/
def createChecks (x : SessionCrates) (ctx : SessionCtx) (request : CreateSessionRequest) :
    Except StatusCode Unit :=
  if ctx.channel.policy = .none then .ok ()
  else
    match ctx.channel.clientCertificate with
    | none => .error .badCertificateInvalid
    | some certificate =>
      if (x.parse request.clientCertificate).map Prod.fst ≠ some certificate then
        .error .badCertificateInvalid
      else if request.clientNonce.length < nonceLength then .error .badNonceInvalid
      else if !x.isApplicationUriValid certificate request.applicationUri then
        .error .badCertificateUriInvalid
      else .ok ()

/-- Security settings the server lists in its CreateSession response (which arrives over the secured
channel) that discovery did not return. -/
def missingFromDiscovery (x : SessionCrates) (server discovered : List EndpointDescription)
    (min : MinSecurity) : Option String :=
  let missing := (server.filter fun e => min ≤ securityOf x.policies e).filter fun e =>
    !discovered.any fun d =>
      d.securityMode = e.securityMode ∧ d.securityPolicyUri = e.securityPolicyUri
  if missing = [] then none
  else some (", ".intercalate (missing.map fun e =>
    x.policyText (x.policies.fromUri e.securityPolicyUri) ++ " " ++ x.modeText e.securityMode))

/-- The answer is signed by the server whose endpoint is trusted. -/
def verified (x : SessionCrates) (ctx : SessionCtx) (clientNonce : List UInt8)
    (response : CreateSessionResponse) : Bool :=
  match (x.parse response.serverCertificate).map Prod.fst,
      (x.parse ctx.upstream.serverCertificate).map Prod.fst with
  | some certificate, some trusted =>
    trusted = certificate &&
      x.verifySignatureData (ctx.upstreamPolicy x) response.serverSignature certificate clientNonce
  | _, _ => false

/-- What is checked behind the server's answer; the gateway's signature for the client. An error
comes with the event that is recorded. -/
def answerChecks (x : SessionCrates) (ctx : SessionCtx) (discovered : List EndpointDescription)
    (request : CreateSessionRequest) (clientNonce : List UInt8) (response : CreateSessionResponse) :
    Except (StatusCode × Option AuditEvent) (Option (List UInt8)) :=
  let signature := if ctx.channel.policy = .none then .ok none
    else
      match x.createSignatureData ctx.channel.policy request.clientCertificate
          request.clientNonce with
      | .ok signature => .ok (some signature)
      | .error status => .error (status, none)
  if ctx.upstreamPolicy x = .none then signature
  else if !verified x ctx clientNonce response then .error (.badApplicationSignatureInvalid, none)
  else
    match missingFromDiscovery x response.serverEndpoints discovered ctx.minSecurity with
    | some missing =>
      .error (.badSecurityChecksFailed, some (.authenticationFailed
        ("BadSecurityChecksFailed: the upstream server offers " ++ missing ++
          ", which discovery did not return")))
    | none => signature

/-- The name a session is recorded under. -/
def recordedName (request : CreateSessionRequest) : String :=
  clip (if request.sessionName = "" then request.applicationName else request.sessionName) maxName

/-- The client of a new session. -/
def sessionClient (ctx : SessionCtx) (request : CreateSessionRequest)
    (response : CreateSessionResponse) : ClientContext :=
  { ctx.client with
    applicationUri := some (clip request.applicationUri maxText)
    applicationName := some (clip request.applicationName maxName)
    sessionId := some response.sessionId }

/-! ## ActivateSession -/

/-- The policy of an endpoint with an id. -/
def tokenPolicy (endpoint : EndpointDescription) (policyId : String) : Option UserTokenPolicy :=
  (endpoint.userIdentityTokens.getD []).find? fun policy => policy.policyId = policyId

/-- The first policy of an endpoint for a kind of users. -/
def tokenPolicyOfType (endpoint : EndpointDescription) (tokenType : UserTokenType) :
    Option UserTokenPolicy :=
  (endpoint.userIdentityTokens.getD []).find? fun policy => policy.tokenType = tokenType

/-- The password of a user name token, decrypted with the gateway's key. -/
def decryptPassword (x : SessionCrates) (token : UserNameIdentityToken) (nonce : List UInt8) :
    Except StatusCode (List UInt8) :=
  if token.encryptionAlgorithm = "" then .ok token.password
  else (x.decryptSecret token nonce).getD (.error .badIdentityTokenInvalid)

/-- The token of a user name for the server. -/
def translateUserName (x : SessionCrates) (ctx : SessionCtx) (token : UserNameIdentityToken)
    (nonces : Nonces) : Except StatusCode UserNameIdentityToken := do
  let password ← decryptPassword x token nonces.downstream
  let policy ← match (tokenPolicy ctx.upstream token.policyId).or
      (tokenPolicyOfType ctx.upstream .userName) with
    | some policy => .ok policy
    | none => .error .badIdentityTokenRejected
  let (secret, algorithm) ← x.encryptSecret (ctx.upstreamPolicy x) ctx.upstream.securityMode policy
    nonces.upstream ctx.upstream.serverCertificate password
  return ⟨policy.policyId, token.userName, secret, algorithm⟩

/-- The user token for the server. An error names the user that was refused. -/
def translateIdentity (x : SessionCrates) (ctx : SessionCtx) (token : IdentityToken)
    (nonces : Nonces) : Except (StatusCode × UserIdentity) UpstreamToken :=
  match token with
  | .null | .anonymous =>
    match tokenPolicyOfType ctx.upstream .anonymous with
    | some policy => .ok (.anonymous policy.policyId)
    | none => .error (.badIdentityTokenRejected, .anonymous)
  | .userName token =>
    match translateUserName x ctx token nonces with
    | .ok token => .ok (.userName token)
    | .error status => .error (status, .userName (clip token.userName maxName))
  | .x509 certificateData =>
    .error (.badIdentityTokenRejected,
      match x.parse certificateData with
      | some (thumbprint, subject) => .certificate (clip subject maxText) thumbprint
      | none => .certificate "invalid certificate" "")
  | .issued => .error (.badIdentityTokenRejected, .issuedToken)
  | .other => .error (.badIdentityTokenInvalid, .anonymous)

/-- The client has signed the nonce with the key of the session's certificate. -/
def signatureOk (x : SessionCrates) (ctx : SessionCtx) (e : SessionEntry) (nonce : List UInt8)
    (request : ActivateSessionRequest) : Bool :=
  match e.clientCertificate with
  | some certificate =>
    e.sameClient ctx.channel &&
      x.verifySignatureData ctx.channel.policy request.clientSignature certificate nonce
  | none => false

/-- What of an activation goes to the server. An error comes with the client and the event that are
recorded. -/
def buildActivation (x : SessionCrates) (ctx : SessionCtx) (e : SessionEntry) (nonces : Nonces)
    (request : ActivateSessionRequest) :
    Except (StatusCode × Option (ClientContext × AuditEvent)) UpstreamActivation :=
  let client := { e.client with remoteAddr := ctx.client.remoteAddr }
  let failed (status : StatusCode) : AuditEvent := .authenticationFailed (x.statusText status)
  if ctx.channel.rank < securityRank e.securityPolicy e.securityMode then
    .error (.badSecurityModeInsufficient, some (client, .authenticationFailed
      (x.statusText .badSecurityModeInsufficient ++
        ": session re-activation over a less secure channel")))
  else if ctx.channel.policy ≠ .none ∧ ¬ signatureOk x ctx e nonces.downstream request then
    .error (.badApplicationSignatureInvalid, some (client, failed .badApplicationSignatureInvalid))
  else
    match translateIdentity x ctx request.userIdentityToken nonces with
    | .error (status, user) =>
      .error (status, some ({ client with user := some user }, failed status))
    | .ok token =>
      if ctx.upstreamPolicy x = .none then .ok ⟨[], token⟩
      else
        match x.createSignatureData (ctx.upstreamPolicy x) ctx.upstream.serverCertificate
            nonces.upstream with
        | .ok signature => .ok ⟨signature, token⟩
        | .error status => .error (status, none)

/-! ## All handshakes of a target -/

/-- A CreateSession that waits for the server. -/
structure Creation where
  connectionId : ℕ
  /-- The gateway's nonce for the server. -/
  clientNonce : List UInt8
  request : CreateSessionRequest
  /-- The endpoints of the server that the connection has read last. -/
  discovered : List EndpointDescription
  /-- The number of the step that has sent it. -/
  began : ℕ

/-- An ActivateSession that waits for the server. -/
structure Activation where
  connectionId : ℕ
  request : ActivateSessionRequest
  /-- The session as it was read. -/
  entry : SessionEntry
  nonces : Nonces
  upstream : UpstreamActivation
  /-- The number of the step that has sent it. -/
  began : ℕ

/-- The handshakes of all connections of a target. -/
structure Handshake where
  sessions : Sessions := {}
  /-- The nonces in the table. -/
  nonces : NodeId → Nonces := fun _ => ⟨[], []⟩
  creating : List Creation := []
  activating : List Activation := []
  /-- What is recorded. -/
  records : List (ClientContext × AuditEvent) := []
  /-- The nonce that the server expects to be signed next. -/
  server : NodeId → List UInt8 := fun _ => []
  /-- The nonces in the answers to the activations that the server has accepted. -/
  answers : ℕ → Option (List UInt8) := fun _ => none
  /-- The number of steps so far. -/
  time : ℕ := 0
  /-- What the owners of certificates have signed, with the gateway's certificate, and when. -/
  signed : List (String × List UInt8 × ℕ) := []
  /-- The nonces given to the server, and when. -/
  made : List (List UInt8 × ℕ) := []
  /-- The nonces given to clients, with their sessions, and when. -/
  issued : List (List UInt8 × NodeId × ℕ) := []
  /-- The creations that were completed, with the answers. -/
  created : List (Creation × CreateSessionResponse) := []
  /-- The activations that were completed, and when. -/
  activated : List (Activation × ℕ) := []

namespace Handshake

/-- What can happen. -/
inductive Op
  /-- The owner of a certificate signs the gateway's certificate with a nonce. -/
  | sign (certificate : String) (nonce : List UInt8)
  /-- A connection gets a CreateSession. -/
  | create (c : ℕ) (request : CreateSessionRequest) (discovered : List EndpointDescription)
      (clientNonce : List UInt8)
  /-- The server's answer to one is there. -/
  | created (i now : ℕ) (response : CreateSessionResponse) (serverNonce : List UInt8)
  /-- There is none, or another one. -/
  | notCreated (i : ℕ)
  /-- A connection gets an ActivateSession. -/
  | activate (c now : ℕ) (request : ActivateSessionRequest)
  /-- The server accepts one. -/
  | accept (i : ℕ) (nonce : List UInt8)
  /-- Its answer is there. -/
  | accepted (i now : ℕ) (serverNonce : List UInt8)
  /-- It has refused, with this status, or its answer does not arrive. -/
  | refused (i now : ℕ) (status : Option StatusCode)
  /-- A lookup, or the end of a session. -/
  | table (c now : ℕ) (act : Sessions.Section)

/-- The sections that are no part of a handshake. -/
def isOther : Sessions.Section → Bool
  | .removeOwned _ | .lookup _ | .check => true
  | _ => false

/-- The client of an activation, as it is recorded. -/
def activatedClient (ctx : SessionCtx) (a : Activation) (user : Option UserIdentity) :
    ClientContext :=
  { a.entry.client with remoteAddr := ctx.client.remoteAddr, user := user }

/-- One step. -/
def step (x : SessionCrates) (ctxs : ℕ → SessionCtx) (s : Handshake) (op : Op) :
    Option Handshake :=
  let locked := Sessions.step fun c => (ctxs c).channel
  let s' := { s with time := s.time + 1 }
  match op with
  | .sign certificate nonce =>
    some { s' with signed := (certificate, nonce, s.time) :: s.signed }
  | .create c request discovered clientNonce =>
    match createChecks x (ctxs c) request with
    | .error _ => some s'
    | .ok () => some { s' with
        creating := s.creating ++ [⟨c, clientNonce, request, discovered, s.time⟩]
        made := (clientNonce, s.time) :: s.made }
  | .created i now response serverNonce => do
    let creation ← s.creating[i]?
    let ctx := ctxs creation.connectionId
    match answerChecks x ctx creation.discovered creation.request creation.clientNonce
        response with
    | .error (_, event) => some { s' with
        creating := s.creating.eraseIdx i
        records := s.records ++ (event.map fun event => (ctx.client, event)).toList }
    | .ok _ =>
      let client := sessionClient ctx creation.request response
      let sessions ← locked s.sessions (creation.connectionId, now,
        .insert response.authenticationToken client response.revisedSessionTimeout)
      some { s' with
        sessions := sessions
        nonces := Function.update s.nonces response.authenticationToken
          ⟨serverNonce, response.serverNonce⟩
        creating := s.creating.eraseIdx i
        records := s.records ++ [(client, .sessionCreated (recordedName creation.request))]
        server := Function.update s.server response.authenticationToken response.serverNonce
        issued := (serverNonce, response.authenticationToken, s.time) :: s.issued
        created := (creation, response) :: s.created }
  | .notCreated i =>
    s.creating[i]?.map fun _ => { s' with creating := s.creating.eraseIdx i }
  | .activate c now request => do
    let token := request.authenticationToken
    match s.sessions.registry token with
    | none =>
      let sessions ← locked s.sessions (c, now, .begin token (.error .badSessionIdInvalid))
      some { s' with sessions := sessions }
    | some e =>
      match buildActivation x (ctxs c) e (s.nonces token) request with
      | .error (status, event) =>
        let sessions ← locked s.sessions (c, now, .begin token (.error status))
        some { s' with sessions := sessions, records := s.records ++ event.toList }
      | .ok upstream =>
        let sessions ← locked s.sessions
          (c, now, .begin token (.ok upstream.userIdentityToken.user))
        some { s' with
          sessions := sessions
          activating := s.activating ++
            [{ connectionId := c, request := request, entry := e, nonces := s.nonces token,
               upstream := upstream, began := s.time }] }
  | .accept i nonce => do
    let a ← s.activating[i]?
    match s.answers a.began with
    | some _ => none
    | none => some { s' with
        answers := Function.update s.answers a.began (some nonce)
        server := Function.update s.server a.request.authenticationToken nonce }
  | .accepted i now serverNonce => do
    let a ← s.activating[i]?
    let nonce ← s.answers a.began
    let token := a.request.authenticationToken
    let client := activatedClient (ctxs a.connectionId) a (some a.upstream.userIdentityToken.user)
    let sessions ← locked s.sessions (a.connectionId, now, .activate token client)
    some { s' with
      sessions := sessions
      nonces := if (s.sessions.registry token).isSome then
        Function.update s.nonces token ⟨serverNonce, nonce⟩ else s.nonces
      activating := s.activating.eraseIdx i
      records := s.records ++ [(client, .sessionActivated)]
      issued := (serverNonce, token, s.time) :: s.issued
      activated := (a, s.time) :: s.activated }
  | .refused i now status => do
    let a ← s.activating[i]?
    let client := activatedClient (ctxs a.connectionId) a (some a.upstream.userIdentityToken.user)
    let sessions ← locked s.sessions
      (a.connectionId, now, .refuse a.request.authenticationToken)
    some { s' with
      sessions := sessions
      activating := s.activating.eraseIdx i
      records := s.records ++ (status.map fun status =>
        (client, AuditEvent.authenticationFailed (x.statusText status))).toList }
  | .table c now act =>
    if isOther act then
      (locked s.sessions (c, now, act)).map fun sessions => { s' with sessions := sessions }
    else none

variable {x : SessionCrates} {ctxs : ℕ → SessionCtx} {s t : Handshake} {op : Op}

/-- The channels of the connections. -/
abbrev channels (ctxs : ℕ → SessionCtx) (c : ℕ) : Channel := (ctxs c).channel

/-! ## What a step does -/

/-- What happens when a session is asked for. -/
theorem step_create {c : ℕ} {request : CreateSessionRequest}
    {discovered : List EndpointDescription} {clientNonce : List UInt8}
    (hs : step x ctxs s (.create c request discovered clientNonce) = some t) :
    t = { s with time := s.time + 1 } ∨
      t = { s with
        time := s.time + 1
        creating := s.creating ++ [⟨c, clientNonce, request, discovered, s.time⟩]
        made := (clientNonce, s.time) :: s.made } := by
  simp only [step] at hs
  split at hs
  · exact .inl (Option.some.inj hs).symm
  · exact .inr (Option.some.inj hs).symm

/-- What happens when the server has created a session. -/
theorem step_created {i now : ℕ} {response : CreateSessionResponse} {serverNonce : List UInt8}
    (hs : step x ctxs s (.created i now response serverNonce) = some t) :
    ∃ creation, s.creating[i]? = some creation ∧
      ((∃ records, t = { s with
          time := s.time + 1, creating := s.creating.eraseIdx i, records := records }) ∨
        ∃ signature sessions,
          answerChecks x (ctxs creation.connectionId) creation.discovered creation.request
            creation.clientNonce response = .ok signature ∧
          Sessions.step (channels ctxs) s.sessions (creation.connectionId, now,
            .insert response.authenticationToken
              (sessionClient (ctxs creation.connectionId) creation.request response)
              response.revisedSessionTimeout) = some sessions ∧
          t = { s with
            time := s.time + 1
            sessions := sessions
            nonces := Function.update s.nonces response.authenticationToken
              ⟨serverNonce, response.serverNonce⟩
            creating := s.creating.eraseIdx i
            records := t.records
            server := Function.update s.server response.authenticationToken response.serverNonce
            issued := (serverNonce, response.authenticationToken, s.time) :: s.issued
            created := (creation, response) :: s.created }) := by
  simp only [step] at hs
  obtain ⟨creation, hcreation, hs⟩ := Option.bind_eq_some_iff.1 hs
  refine ⟨creation, hcreation, ?_⟩
  split at hs
  · cases hs
    exact .inl ⟨_, rfl⟩
  · next signature hchecks =>
    obtain ⟨sessions, hsessions, hs⟩ := Option.bind_eq_some_iff.1 hs
    cases hs
    exact .inr ⟨signature, sessions, hchecks, hsessions, rfl⟩

/-- What happens when it has not. -/
theorem step_notCreated {i : ℕ} (hs : step x ctxs s (.notCreated i) = some t) :
    t = { s with time := s.time + 1, creating := s.creating.eraseIdx i } := by
  simp only [step] at hs
  obtain ⟨creation, -, rfl⟩ := Option.map_eq_some_iff.1 hs
  rfl

/-- What happens when an activation arrives. -/
theorem step_activate {c now : ℕ} {request : ActivateSessionRequest}
    (hs : step x ctxs s (.activate c now request) = some t) :
    ∃ checks sessions, Sessions.step (channels ctxs) s.sessions
        (c, now, .begin request.authenticationToken checks) = some sessions ∧
      ((∃ records, t = { s with
          time := s.time + 1, sessions := sessions, records := records }) ∨
        ∃ e upstream, s.sessions.registry request.authenticationToken = some e ∧
          buildActivation x (ctxs c) e (s.nonces request.authenticationToken) request =
            .ok upstream ∧
          t = { s with
            time := s.time + 1
            sessions := sessions
            activating := s.activating ++
              [{ connectionId := c, request := request, entry := e,
                 nonces := s.nonces request.authenticationToken,
                 upstream := upstream, began := s.time }] }) := by
  simp only [step] at hs
  split at hs
  · obtain ⟨sessions, hsessions, hs⟩ := Option.bind_eq_some_iff.1 hs
    cases hs
    exact ⟨_, sessions, hsessions, .inl ⟨_, rfl⟩⟩
  · next e he =>
    split at hs
    · obtain ⟨sessions, hsessions, hs⟩ := Option.bind_eq_some_iff.1 hs
      cases hs
      exact ⟨_, sessions, hsessions, .inl ⟨_, rfl⟩⟩
    · next upstream hbuild =>
      obtain ⟨sessions, hsessions, hs⟩ := Option.bind_eq_some_iff.1 hs
      cases hs
      exact ⟨_, sessions, hsessions, .inr ⟨e, upstream, he, hbuild, rfl⟩⟩

/-- What happens when the server accepts one. -/
theorem step_accept {i : ℕ} {nonce : List UInt8} (hs : step x ctxs s (.accept i nonce) = some t) :
    ∃ a, s.activating[i]? = some a ∧ s.answers a.began = none ∧
      t = { s with
        time := s.time + 1
        answers := Function.update s.answers a.began (some nonce)
        server := Function.update s.server a.request.authenticationToken nonce } := by
  simp only [step] at hs
  obtain ⟨a, ha, hs⟩ := Option.bind_eq_some_iff.1 hs
  split at hs
  · cases hs
  · next hanswer =>
    cases hs
    exact ⟨a, ha, hanswer, rfl⟩

/-- What happens when its answer arrives. -/
theorem step_accepted {i now : ℕ} {serverNonce : List UInt8}
    (hs : step x ctxs s (.accepted i now serverNonce) = some t) :
    ∃ a nonce client sessions, s.activating[i]? = some a ∧
      s.answers a.began = some nonce ∧
      Sessions.step (channels ctxs) s.sessions
        (a.connectionId, now, .activate a.request.authenticationToken client) = some sessions ∧
      t = { s with
        time := s.time + 1
        sessions := sessions
        nonces := if (s.sessions.registry a.request.authenticationToken).isSome then
          Function.update s.nonces a.request.authenticationToken ⟨serverNonce, nonce⟩ else s.nonces
        activating := s.activating.eraseIdx i
        records := s.records ++ [(client, .sessionActivated)]
        issued := (serverNonce, a.request.authenticationToken, s.time) :: s.issued
        activated := (a, s.time) :: s.activated } := by
  simp only [step] at hs
  obtain ⟨a, ha, hs⟩ := Option.bind_eq_some_iff.1 hs
  obtain ⟨nonce, hnonce, hs⟩ := Option.bind_eq_some_iff.1 hs
  obtain ⟨sessions, hsessions, hs⟩ := Option.bind_eq_some_iff.1 hs
  cases hs
  exact ⟨a, nonce, _, sessions, ha, hnonce, hsessions, rfl⟩

/-- What happens when the server refuses one. -/
theorem step_refused {i now : ℕ} {status : Option StatusCode}
    (hs : step x ctxs s (.refused i now status) = some t) :
    ∃ a sessions records, s.activating[i]? = some a ∧
      Sessions.step (channels ctxs) s.sessions
        (a.connectionId, now, .refuse a.request.authenticationToken) = some sessions ∧
      t = { s with
        time := s.time + 1
        sessions := sessions
        activating := s.activating.eraseIdx i
        records := records } := by
  simp only [step] at hs
  obtain ⟨a, ha, hs⟩ := Option.bind_eq_some_iff.1 hs
  obtain ⟨sessions, hsessions, hs⟩ := Option.bind_eq_some_iff.1 hs
  cases hs
  exact ⟨a, sessions, _, ha, hsessions, rfl⟩

/-- What happens when the table of sessions is used for something else. -/
theorem step_table {c now : ℕ} {act : Sessions.Section}
    (hs : step x ctxs s (.table c now act) = some t) :
    isOther act = true ∧ ∃ sessions,
      Sessions.step (channels ctxs) s.sessions (c, now, act) = some sessions ∧
      t = { s with time := s.time + 1, sessions := sessions } := by
  simp only [step] at hs
  split_ifs at hs with hother
  obtain ⟨sessions, hsessions, rfl⟩ := Option.map_eq_some_iff.1 hs
  exact ⟨hother, sessions, hsessions, rfl⟩

/-! ## Nonces are new -/

/-- Somebody has signed the nonce, or the gateway has given it to somebody. -/
def Known (s : Handshake) (nonce : List UInt8) : Prop :=
  (∃ p ∈ s.signed, p.2.1 = nonce) ∨ (∃ p ∈ s.made, p.1 = nonce) ∨ ∃ p ∈ s.issued, p.1 = nonce

/-- The nonces that the gateway makes are new. -/
def Fresh (s : Handshake) : Op → Prop
  | .create _ _ _ clientNonce => ¬ s.Known clientNonce
  | .created _ _ _ serverNonce => ¬ s.Known serverNonce
  | .accepted _ _ serverNonce => ¬ s.Known serverNonce
  | _ => True

/-- What a step adds to the signatures and nonces. -/
inductive Logged (s t : Handshake) : Prop
  | none (hsigned : t.signed = s.signed) (hmade : t.made = s.made) (hissued : t.issued = s.issued)
  | signed (certificate : String) (nonce : List UInt8)
      (hsigned : t.signed = (certificate, nonce, s.time) :: s.signed) (hmade : t.made = s.made)
      (hissued : t.issued = s.issued)
  | made (nonce : List UInt8) (hnew : ¬ s.Known nonce) (hsigned : t.signed = s.signed)
      (hmade : t.made = (nonce, s.time) :: s.made) (hissued : t.issued = s.issued)
  | issued (nonce : List UInt8) (token : NodeId) (hnew : ¬ s.Known nonce)
      (hsigned : t.signed = s.signed) (hmade : t.made = s.made)
      (hissued : t.issued = (nonce, token, s.time) :: s.issued)

/-- Every step with new nonces and signatures that were made adds to what was made. -/
theorem logged_step (hop : Fresh s op) (hs : step x ctxs s op = some t) :
    t.time = s.time + 1 ∧ Logged s t := by
  cases op with
  | sign certificate nonce =>
    cases hs
    exact ⟨rfl, .signed certificate nonce rfl rfl rfl⟩
  | create c request discovered clientNonce =>
    rcases step_create hs with rfl | rfl
    · exact ⟨rfl, .none rfl rfl rfl⟩
    · exact ⟨rfl, .made clientNonce hop rfl rfl rfl⟩
  | created i now response serverNonce =>
    obtain ⟨creation, -, ⟨records, rfl⟩ | ⟨signature, sessions, -, -, heq⟩⟩ := step_created hs
    · exact ⟨rfl, .none rfl rfl rfl⟩
    · rw [heq]
      exact ⟨rfl, .issued serverNonce response.authenticationToken hop rfl rfl rfl⟩
  | notCreated i =>
    obtain rfl := step_notCreated hs
    exact ⟨rfl, .none rfl rfl rfl⟩
  | activate c now request =>
    obtain ⟨checks, sessions, -, ⟨records, rfl⟩ | ⟨e, upstream, -, -, rfl⟩⟩ := step_activate hs
    · exact ⟨rfl, .none rfl rfl rfl⟩
    · exact ⟨rfl, .none rfl rfl rfl⟩
  | accept i nonce =>
    obtain ⟨a, -, -, rfl⟩ := step_accept hs
    exact ⟨rfl, .none rfl rfl rfl⟩
  | accepted i now serverNonce =>
    obtain ⟨a, nonce, client, sessions, -, -, -, rfl⟩ := step_accepted hs
    exact ⟨rfl, .issued serverNonce a.request.authenticationToken hop rfl rfl rfl⟩
  | refused i now status =>
    obtain ⟨a, sessions, records, -, -, rfl⟩ := step_refused hs
    exact ⟨rfl, .none rfl rfl rfl⟩
  | table c now act =>
    obtain ⟨-, sessions, -, rfl⟩ := step_table hs
    exact ⟨rfl, .none rfl rfl rfl⟩

/-- Nothing that was logged is forgotten. -/
theorem Logged.subset (h : Logged s t) :
    s.signed ⊆ t.signed ∧ s.made ⊆ t.made ∧ s.issued ⊆ t.issued := by
  cases h with
  | none hsigned hmade hissued =>
    rw [hsigned, hmade, hissued]
    exact ⟨List.Subset.refl _, List.Subset.refl _, List.Subset.refl _⟩
  | signed certificate nonce hsigned hmade hissued =>
    rw [hsigned, hmade, hissued]
    exact ⟨List.subset_cons_self .., List.Subset.refl _, List.Subset.refl _⟩
  | made nonce hnew hsigned hmade hissued =>
    rw [hsigned, hmade, hissued]
    exact ⟨List.Subset.refl _, List.subset_cons_self .., List.Subset.refl _⟩
  | issued nonce token hnew hsigned hmade hissued =>
    rw [hsigned, hmade, hissued]
    exact ⟨List.Subset.refl _, List.Subset.refl _, List.subset_cons_self ..⟩

/-- A nonce is given to somebody once, and signed only behind that. -/
structure Dated (s : Handshake) : Prop where
  signed_lt : ∀ q ∈ s.signed, q.2.2 < s.time
  made_lt : ∀ p ∈ s.made, p.2 < s.time
  issued_lt : ∀ p ∈ s.issued, p.2.2 < s.time
  made_signed : ∀ p ∈ s.made, ∀ q ∈ s.signed, q.2.1 = p.1 → p.2 < q.2.2
  issued_signed : ∀ p ∈ s.issued, ∀ q ∈ s.signed, q.2.1 = p.1 → p.2.2 < q.2.2
  issued_unique : ∀ p ∈ s.issued, ∀ p' ∈ s.issued, p.1 = p'.1 → p = p'

/-- Nothing was made before the start. -/
theorem dated_init : Dated {} :=
  ⟨by simp, by simp, by simp, by simp, by simp, by simp⟩

/-- A nonce that is not known is new to all logs. -/
theorem ne_of_not_known {nonce : List UInt8} (h : ¬ s.Known nonce) :
    (∀ q ∈ s.signed, q.2.1 ≠ nonce) ∧ (∀ p ∈ s.made, p.1 ≠ nonce) ∧
      ∀ p ∈ s.issued, p.1 ≠ nonce :=
  ⟨fun q hq heq => h (.inl ⟨q, hq, heq⟩), fun p hp heq => h (.inr (.inl ⟨p, hp, heq⟩)),
    fun p hp heq => h (.inr (.inr ⟨p, hp, heq⟩))⟩

/-- What was signed, made and issued before is older than what comes now. -/
theorem Dated.bounds (h : Dated s) (htime : t.time = s.time + 1) :
    (∀ q ∈ s.signed, q.2.2 < t.time) ∧ (∀ p ∈ s.made, p.2 < t.time) ∧
      ∀ p ∈ s.issued, p.2.2 < t.time := by
  rw [htime]
  exact ⟨fun q hq => (h.signed_lt q hq).trans (Nat.lt_succ_self _),
    fun p hp => (h.made_lt p hp).trans (Nat.lt_succ_self _),
    fun p hp => (h.issued_lt p hp).trans (Nat.lt_succ_self _)⟩

/-- **Step lemma**: nonces are given once, and signed later. -/
theorem dated_step (h : Dated s) (hop : Fresh s op) (hs : step x ctxs s op = some t) : Dated t := by
  obtain ⟨htime, hlogged⟩ := logged_step hop hs
  obtain ⟨hsigned_lt, hmade_lt, hissued_lt⟩ := h.bounds htime
  have hnow : s.time < t.time := by omega
  cases hlogged with
  | none hsigned hmade hissued =>
    constructor <;> simp only [hsigned, hmade, hissued]
    · exact hsigned_lt
    · exact hmade_lt
    · exact hissued_lt
    · exact h.made_signed
    · exact h.issued_signed
    · exact h.issued_unique
  | signed certificate nonce hsigned hmade hissued =>
    constructor <;> simp only [hsigned, hmade, hissued, List.forall_mem_cons]
    · exact ⟨hnow, hsigned_lt⟩
    · exact hmade_lt
    · exact hissued_lt
    · exact fun p hp => ⟨fun _ => h.made_lt p hp, h.made_signed p hp⟩
    · exact fun p hp => ⟨fun _ => h.issued_lt p hp, h.issued_signed p hp⟩
    · exact h.issued_unique
  | made nonce hnew hsigned hmade hissued =>
    obtain ⟨hne, -, -⟩ := ne_of_not_known hnew
    constructor <;> simp only [hsigned, hmade, hissued, List.forall_mem_cons]
    · exact hsigned_lt
    · exact ⟨hnow, hmade_lt⟩
    · exact hissued_lt
    · exact ⟨fun q hq heq => absurd heq (hne q hq), h.made_signed⟩
    · exact h.issued_signed
    · exact h.issued_unique
  | issued nonce token hnew hsigned hmade hissued =>
    obtain ⟨hne, -, hne'⟩ := ne_of_not_known hnew
    constructor <;> simp only [hsigned, hmade, hissued, List.forall_mem_cons]
    · exact hsigned_lt
    · exact hmade_lt
    · exact ⟨hnow, hissued_lt⟩
    · exact h.made_signed
    · exact ⟨fun q hq heq => absurd heq (hne q hq), h.issued_signed⟩
    · refine ⟨⟨fun _ => trivial, fun p hp heq => absurd heq.symm (hne' p hp)⟩, fun p hp => ?_⟩
      exact ⟨fun heq => absurd heq (hne' p hp), h.issued_unique p hp⟩

/-! ## The table behind a handshake -/

/-- A touched or changed session was there before. -/
theorem isSome_of_modify {registry : SessionRegistry} {now : ℕ} {token token' : NodeId}
    {f : SessionEntry → SessionEntry} (h : (registry.modify now token f token').isSome) :
    (registry token').isSome := by
  obtain ⟨e, he⟩ := Option.isSome_iff_exists.1 h
  rcases SessionRegistry.modify_eq_some he with ⟨-, e₀, he₀, -⟩ | ⟨-, he⟩
  · exact Option.isSome_iff_exists.2 ⟨e₀, he₀⟩
  · exact Option.isSome_iff_exists.2 ⟨e, he⟩

/-- A section that creates no session adds none. -/
theorem isSome_of_step {sessions sessions' : Sessions} {c now : ℕ} {act : Sessions.Section}
    (hact : ∀ token client timeout, act ≠ .insert token client timeout)
    (hs : Sessions.step (channels ctxs) sessions (c, now, act) = some sessions') (token : NodeId)
    (h : (sessions'.registry token).isSome) : (sessions.registry token).isSome := by
  cases Sessions.change hs with
  | checked _ _ _ _ _ hregistry => rwa [← hregistry]
  | inserted token client timeout => exact absurd rfl (hact token client timeout)
  | begun _ _ _ _ hregistry =>
    rcases hregistry with hregistry | hregistry
    · rwa [← hregistry]
    · exact isSome_of_modify (hregistry ▸ h)
  | activated _ _ _ _ hregistry => exact isSome_of_modify (hregistry ▸ h)
  | refused _ _ hregistry => rwa [← hregistry]
  | removed _ _ hregistry =>
    rw [hregistry] at h
    obtain ⟨e, he⟩ := Option.isSome_iff_exists.1 h
    exact Option.isSome_iff_exists.2 ⟨e, SessionRegistry.removeOwned_eq_some he⟩
  | looked _ _ hregistry => exact isSome_of_modify (hregistry ▸ h)

/-- Nor does it change who has created one. -/
theorem creators_of_step {sessions sessions' : Sessions} {c now : ℕ} {act : Sessions.Section}
    (hact : ∀ token client timeout, act ≠ .insert token client timeout)
    (hs : Sessions.step (channels ctxs) sessions (c, now, act) = some sessions') :
    sessions'.creators = sessions.creators := by
  simp only [Sessions.step] at hs
  split at hs
  · cases hs
    rfl
  · cases hs
  · cases hs
  · next token client timeout hfree => exact absurd rfl (hact token client timeout)
  · split at hs
    · cases hs
      rfl
    · split at hs
      · cases hs
        rfl
      · cases hs
        rfl
  · split at hs
    · cases hs
      rfl
    · cases hs
  · split_ifs at hs
    cases hs
    rfl
  · cases hs
    rfl
  · cases hs
    rfl

/-- A session is created with a fresh token. -/
theorem insert_of_step {sessions sessions' : Sessions} {c now : ℕ} {token : NodeId}
    {client : ClientContext} {timeout : ℕ} (h : Sessions.Secured (channels ctxs) sessions)
    (hs : Sessions.step (channels ctxs) sessions (c, now, .insert token client timeout) =
      some sessions') :
    sessions.creators token = none ∧
      sessions'.creators = Function.update sessions.creators token (some c) ∧
      ∀ token', token' ≠ token → (sessions'.registry token').isSome →
        (sessions.registry token').isSome := by
  have hfree := Sessions.lookups_eq_none (by simp) hs
  simp only [Sessions.step, hfree] at hs
  split_ifs at hs with hnew
  cases hs
  refine ⟨h.issued _ hnew, rfl, fun token' hne hsome => ?_⟩
  obtain ⟨e, he⟩ := Option.isSome_iff_exists.1 hsome
  rcases SessionRegistry.insert_eq_some he with ⟨heq, -⟩ | ⟨-, he⟩
  · exact absurd heq hne
  · exact Option.isSome_iff_exists.2 ⟨e, he⟩

/-! ## Who an activation comes from -/

/-- Nobody signs for another: who presents a signature has it from the owner of the certificate. -/
def Unforged (x : SessionCrates) (ctxs : ℕ → SessionCtx) (s : Handshake) : Op → Prop
  | .activate c _ request => ∀ certificate nonce, x.verifySignatureData (ctxs c).channel.policy
      request.clientSignature certificate nonce = true → ∃ j, (certificate, nonce, j) ∈ s.signed
  | .created i _ response _ => ∀ creation, s.creating[i]? = some creation →
      ∀ certificate nonce, x.verifySignatureData ((ctxs creation.connectionId).upstreamPolicy x)
        response.serverSignature certificate nonce = true → ∃ j, (certificate, nonce, j) ∈ s.signed
  | _ => True

/-- Over a channel with security, the owner of the certificate that the session was created with has
signed the nonce that the gateway gave it for the session. -/
structure Proven (x : SessionCrates) (ctxs : ℕ → SessionCtx) (s : Handshake) (a : Activation) :
    Prop where
  built : buildActivation x (ctxs a.connectionId) a.entry a.nonces a.request = .ok a.upstream
  issued : ∃ i < a.began,
    (a.nonces.downstream, a.request.authenticationToken, i) ∈ s.issued
  creator : ∃ d, s.sessions.creators a.request.authenticationToken = some d ∧
    ((channels ctxs a.connectionId).policy ≠ .none → ∃ certificate, ∃ j < a.began,
      (channels ctxs d).clientCertificate = some certificate ∧
        (certificate, a.nonces.downstream, j) ∈ s.signed)

/-- The activations that were sent to the server, completed or not. -/
def begun (s : Handshake) : List Activation := s.activating ++ s.activated.map Prod.fst

/-- The invariant of every run: activations are proven, and a nonce that was signed for one that is
completed is gone. -/
structure Authentic (x : SessionCrates) (ctxs : ℕ → SessionCtx) (s : Handshake) : Prop where
  secured : Sessions.Secured (channels ctxs) s.sessions
  current : ∀ token, (s.sessions.registry token).isSome →
    ∃ i, ((s.nonces token).downstream, token, i) ∈ s.issued
  proven : ∀ a ∈ s.begun, a.began < s.time ∧ Proven x ctxs s a
  used : ∀ p ∈ s.activated, p.2 < s.time ∧ ∀ token, (s.sessions.registry token).isSome →
    (s.nonces token).downstream ≠ p.1.nonces.downstream
  overlap : ∀ p ∈ s.activated, ∀ b ∈ s.begun,
    b.nonces.downstream = p.1.nonces.downstream → b.began < p.2

/-- Nothing was accepted before the start. -/
theorem authentic_init : Authentic x ctxs {} :=
  ⟨Sessions.secured_init, fun _ h => (by cases h), fun _ h => (by cases h),
    fun _ h => (by cases h), fun _ h => (by cases h)⟩

/-- More may have been signed and issued, and more sessions created. -/
theorem Proven.mono {a : Activation} (h : Proven x ctxs s a) (hsigned : s.signed ⊆ t.signed)
    (hissued : s.issued ⊆ t.issued)
    (hcreators : ∀ token d, s.sessions.creators token = some d →
      t.sessions.creators token = some d) : Proven x ctxs t a := by
  obtain ⟨i, hi, hmem⟩ := h.issued
  obtain ⟨d, hd, hproof⟩ := h.creator
  refine ⟨h.built, ⟨i, hi, hissued hmem⟩, d, hcreators _ d hd, fun hpolicy => ?_⟩
  obtain ⟨certificate, j, hj, hcertificate, hmem⟩ := hproof hpolicy
  exact ⟨certificate, j, hj, hcertificate, hsigned hmem⟩

/-- A step that adds no session, no nonce and no activation. -/
theorem Authentic.keep (h : Authentic x ctxs s) (htime : t.time = s.time + 1)
    (hlogged : Logged s t) (hsecured : Sessions.Secured (channels ctxs) t.sessions)
    (hcreators : t.sessions.creators = s.sessions.creators)
    (hregistry : ∀ token, (t.sessions.registry token).isSome → (s.sessions.registry token).isSome)
    (hnonces : t.nonces = s.nonces) (hbegun : t.begun ⊆ s.begun)
    (hactivated : t.activated = s.activated) : Authentic x ctxs t := by
  obtain ⟨hsigned, -, hissued⟩ := hlogged.subset
  refine ⟨hsecured, fun token htoken => ?_, fun a ha => ?_, fun p hp => ?_, fun p hp b hb => ?_⟩
  · obtain ⟨i, hi⟩ := h.current token (hregistry token htoken)
    rw [hnonces]
    exact ⟨i, hissued hi⟩
  · obtain ⟨hlt, hproven⟩ := h.proven a (hbegun ha)
    exact ⟨by omega, hproven.mono hsigned hissued fun token d hd => by rw [hcreators]; exact hd⟩
  · rw [hactivated] at hp
    obtain ⟨hlt, hused⟩ := h.used p hp
    rw [hnonces]
    exact ⟨by omega, fun token htoken => hused token (hregistry token htoken)⟩
  · rw [hactivated] at hp
    exact h.overlap p hp b (hbegun hb)

/-- What goes to the server over a channel with security was signed with the key of the session's
certificate. -/
theorem signed_of_buildActivation {ctx : SessionCtx} {e : SessionEntry} {nonces : Nonces}
    {request : ActivateSessionRequest} {upstream : UpstreamActivation}
    (h : buildActivation x ctx e nonces request = .ok upstream)
    (hpolicy : ctx.channel.policy ≠ .none) :
    ∃ certificate, e.clientCertificate = some certificate ∧
      x.verifySignatureData ctx.channel.policy request.clientSignature certificate
        nonces.downstream = true := by
  unfold buildActivation at h
  dsimp only at h
  have hok : signatureOk x ctx e nonces.downstream request = true := by
    by_contra hnot
    rw [if_pos (show _ ∧ _ from ⟨hpolicy, hnot⟩)] at h
    split_ifs at h
  unfold signatureOk at hok
  split at hok
  · next certificate hcertificate =>
    rw [Bool.and_eq_true] at hok
    exact ⟨certificate, hcertificate, hok.2⟩
  · cases hok

/-- A session is created. -/
theorem authentic_created (h : Authentic x ctxs s) {creation : Creation} {i now : ℕ}
    {response : CreateSessionResponse} {serverNonce : List UInt8} {client : ClientContext}
    {sessions : Sessions} (hnew : ¬ s.Known serverNonce)
    (hsessions : Sessions.step (channels ctxs) s.sessions (creation.connectionId, now,
      .insert response.authenticationToken client response.revisedSessionTimeout) = some sessions)
    (ht : t = { s with
      time := s.time + 1
      sessions := sessions
      nonces := Function.update s.nonces response.authenticationToken
        ⟨serverNonce, response.serverNonce⟩
      creating := s.creating.eraseIdx i
      records := t.records
      server := Function.update s.server response.authenticationToken response.serverNonce
      issued := (serverNonce, response.authenticationToken, s.time) :: s.issued
      created := (creation, response) :: s.created }) : Authentic x ctxs t := by
  obtain ⟨hnone, hcreators, hregistry⟩ := insert_of_step h.secured hsessions
  obtain ⟨-, -, hne⟩ := ne_of_not_known hnew
  rw [ht]
  refine ⟨Sessions.secured_step h.secured hsessions, fun token htoken => ?_, fun a ha => ?_,
    fun p hp => ⟨?_, fun token htoken => ?_⟩, h.overlap⟩
  · by_cases heq : token = response.authenticationToken
    · subst heq
      exact ⟨s.time, by simp⟩
    · obtain ⟨k, hk⟩ := h.current token (hregistry token heq htoken)
      exact ⟨k, by simp [heq, hk]⟩
  · obtain ⟨hlt, hproven⟩ := h.proven a ha
    refine ⟨Nat.lt_succ_of_lt hlt, hproven.mono (List.Subset.refl _) (List.subset_cons_self ..) ?_⟩
    intro token d hd
    rw [show _ = _ from congrFun hcreators token, Function.update_of_ne]
    · exact hd
    · rintro rfl
      rw [hnone] at hd
      cases hd
  · exact Nat.lt_succ_of_lt (h.used p hp).1
  · by_cases heq : token = response.authenticationToken
    · subst heq
      simp only [Function.update_self]
      have hmem : p.1 ∈ s.begun := List.mem_append_right _ (List.mem_map_of_mem hp)
      obtain ⟨k, -, hk⟩ := (h.proven p.1 hmem).2.issued
      exact fun heq => hne _ hk heq.symm
    · simp only [Function.update_of_ne heq]
      exact (h.used p hp).2 token (hregistry token heq htoken)

/-- An activation is sent to the server. -/
theorem authentic_activate (h : Authentic x ctxs s) (hdated : Dated s) {c now : ℕ}
    {request : ActivateSessionRequest} (hop : Unforged x ctxs s (.activate c now request))
    {checks : Except StatusCode UserIdentity} {sessions : Sessions}
    (hsessions : Sessions.step (channels ctxs) s.sessions
      (c, now, .begin request.authenticationToken checks) = some sessions) {e : SessionEntry}
    (he : s.sessions.registry request.authenticationToken = some e)
    {upstream : UpstreamActivation} (hbuild : buildActivation x (ctxs c) e
      (s.nonces request.authenticationToken) request = .ok upstream) :
    Authentic x ctxs { s with
      time := s.time + 1
      sessions := sessions
      activating := s.activating ++
        [{ connectionId := c, request := request, entry := e,
           nonces := s.nonces request.authenticationToken,
           upstream := upstream, began := s.time }] } := by
  have hcreators := creators_of_step (by simp) hsessions
  have hregistry := isSome_of_step (by simp) hsessions
  have hsome : (s.sessions.registry request.authenticationToken).isSome := by rw [he]; rfl
  set a : Activation :=
    { connectionId := c, request := request, entry := e,
      nonces := s.nonces request.authenticationToken,
      upstream := upstream, began := s.time } with ha
  have hproven : Proven x ctxs { s with
      time := s.time + 1, sessions := sessions, activating := s.activating ++ [a] } a := by
    obtain ⟨i, hi⟩ := h.current _ hsome
    obtain ⟨d, hd, -, -, hcertificate⟩ := h.secured.created _ e he
    refine ⟨hbuild, ⟨i, hdated.issued_lt _ hi, hi⟩, d, ?_, fun hpolicy => ?_⟩
    · show sessions.creators request.authenticationToken = some d
      rw [hcreators]
      exact hd
    · obtain ⟨certificate, hsame, hverified⟩ := signed_of_buildActivation hbuild hpolicy
      obtain ⟨j, hj⟩ := hop certificate _ hverified
      exact ⟨certificate, j, hdated.signed_lt _ hj, hcertificate.symm.trans hsame, hj⟩
  have hbegun : ∀ b ∈ begun { s with
      time := s.time + 1, sessions := sessions, activating := s.activating ++ [a] },
      b = a ∨ b ∈ s.begun := by
    intro b hb
    simp only [begun, List.mem_append, List.mem_singleton] at hb ⊢
    tauto
  refine ⟨Sessions.secured_step h.secured hsessions, fun token htoken => ?_, fun b hb => ?_,
    fun p hp => ⟨?_, fun token htoken => ?_⟩, fun p hp b hb heq => ?_⟩
  · exact h.current token (hregistry token htoken)
  · rcases hbegun b hb with rfl | hb
    · exact ⟨Nat.lt_succ_self _, hproven⟩
    · obtain ⟨hlt, hb⟩ := h.proven b hb
      refine ⟨Nat.lt_succ_of_lt hlt, hb.mono (List.Subset.refl _) (List.Subset.refl _) ?_⟩
      exact fun token d hd => by rw [show sessions.creators = _ from hcreators]; exact hd
  · exact Nat.lt_succ_of_lt (h.used p hp).1
  · exact (h.used p hp).2 token (hregistry token htoken)
  · rcases hbegun b hb with rfl | hb
    · exact absurd heq ((h.used p hp).2 _ hsome)
    · exact h.overlap p hp b hb heq

/-- The server's answer to an activation is there. -/
theorem authentic_accepted (h : Authentic x ctxs s) (hdated : Dated s) {i now : ℕ}
    {serverNonce nonce : List UInt8} {a : Activation} {client : ClientContext}
    {sessions : Sessions} {records : List (ClientContext × AuditEvent)}
    (hnew : ¬ s.Known serverNonce) (ha : s.activating[i]? = some a)
    (hsessions : Sessions.step (channels ctxs) s.sessions
      (a.connectionId, now, .activate a.request.authenticationToken client) = some sessions) :
    Authentic x ctxs { s with
      time := s.time + 1
      sessions := sessions
      nonces := if (s.sessions.registry a.request.authenticationToken).isSome then
        Function.update s.nonces a.request.authenticationToken ⟨serverNonce, nonce⟩ else s.nonces
      activating := s.activating.eraseIdx i
      records := records
      issued := (serverNonce, a.request.authenticationToken, s.time) :: s.issued
      activated := (a, s.time) :: s.activated } := by
  have hcreators := creators_of_step (by simp) hsessions
  have hregistry := isSome_of_step (by simp) hsessions
  obtain ⟨-, -, hne⟩ := ne_of_not_known hnew
  have hmem : a ∈ s.begun := List.mem_append_left _ (List.mem_of_getElem? ha)
  set nonces := if (s.sessions.registry a.request.authenticationToken).isSome then
    Function.update s.nonces a.request.authenticationToken ⟨serverNonce, nonce⟩ else s.nonces
    with hnonces
  have hself : (s.sessions.registry a.request.authenticationToken).isSome →
      nonces a.request.authenticationToken = ⟨serverNonce, nonce⟩ := fun hsome => by
    rw [hnonces, if_pos hsome, Function.update_self]
  have hother : ∀ token ≠ a.request.authenticationToken, nonces token = s.nonces token := by
    intro token hne
    rw [hnonces]
    split_ifs
    · rw [Function.update_of_ne hne]
    · rfl
  have hbegun : ∀ b ∈ s.activating.eraseIdx i ++ ((a, s.time) :: s.activated).map Prod.fst,
      b ∈ s.begun := by
    intro b hb
    simp only [List.map_cons, List.mem_append, List.mem_cons] at hb
    rcases hb with hb | rfl | hb
    · exact List.mem_append_left _ (List.mem_of_mem_eraseIdx hb)
    · exact hmem
    · exact List.mem_append_right _ hb
  refine ⟨Sessions.secured_step h.secured hsessions, fun token htoken => ?_, fun b hb => ?_,
    fun p hp => ?_, fun p hp b hb heq => ?_⟩
  · by_cases heq : token = a.request.authenticationToken
    · subst heq
      refine ⟨s.time, ?_⟩
      dsimp only
      rw [hself (hregistry _ htoken)]
      exact List.mem_cons_self ..
    · obtain ⟨k, hk⟩ := h.current token (hregistry token htoken)
      refine ⟨k, ?_⟩
      dsimp only
      rw [hother token heq]
      exact List.mem_cons_of_mem _ hk
  · obtain ⟨hlt, hb⟩ := h.proven b (hbegun b hb)
    refine ⟨Nat.lt_succ_of_lt hlt, hb.mono (List.Subset.refl _) (List.subset_cons_self ..) ?_⟩
    exact fun token d hd => by rw [show sessions.creators = _ from hcreators]; exact hd
  · -- the nonce that was signed is replaced, and no other session has it
    have hpmem : p.1 ∈ s.begun := hbegun p.1 (List.mem_append_right _ (List.mem_map_of_mem hp))
    obtain ⟨-, k, -, hk⟩ := (h.proven p.1 hpmem).imp_right Proven.issued
    refine ⟨?_, fun token htoken => ?_⟩
    · rcases List.mem_cons.1 hp with rfl | hp
      · exact Nat.lt_succ_self _
      · exact Nat.lt_succ_of_lt (h.used p hp).1
    · by_cases heq : token = a.request.authenticationToken
      · subst heq
        dsimp only
        rw [hself (hregistry _ htoken)]
        exact fun heq => hne _ hk heq.symm
      · dsimp only
        rw [hother token heq]
        rcases List.mem_cons.1 hp with rfl | hp
        · intro hsame
          obtain ⟨l, hl⟩ := h.current token (hregistry token htoken)
          exact heq (Prod.mk.inj (Prod.mk.inj (hdated.issued_unique _ hl _ hk hsame)).2).1
        · exact (h.used p hp).2 token (hregistry token htoken)
  · rcases List.mem_cons.1 hp with rfl | hp
    · exact (h.proven b (hbegun b hb)).1
    · exact h.overlap p hp b (hbegun b hb) heq

/-- **Step lemma**: whatever clients and server do, activations are proven, and signatures count
once. -/
theorem authentic_step (h : Authentic x ctxs s) (hdated : Dated s) (hfresh : Fresh s op)
    (hunforged : Unforged x ctxs s op) (hs : step x ctxs s op = some t) : Authentic x ctxs t := by
  obtain ⟨htime, hlogged⟩ := logged_step hfresh hs
  cases op with
  | sign certificate nonce =>
    cases hs
    exact h.keep htime hlogged h.secured rfl (fun _ => id) rfl (List.Subset.refl _) rfl
  | create c request discovered clientNonce =>
    rcases step_create hs with rfl | rfl
    · exact h.keep htime hlogged h.secured rfl (fun _ => id) rfl (List.Subset.refl _) rfl
    · exact h.keep htime hlogged h.secured rfl (fun _ => id) rfl (List.Subset.refl _) rfl
  | created i now response serverNonce =>
    obtain ⟨creation, -, ⟨records, rfl⟩ | ⟨signature, sessions, -, hsessions, heq⟩⟩ :=
      step_created hs
    · exact h.keep htime hlogged h.secured rfl (fun _ => id) rfl (List.Subset.refl _) rfl
    · exact authentic_created h hfresh hsessions heq
  | notCreated i =>
    obtain rfl := step_notCreated hs
    exact h.keep htime hlogged h.secured rfl (fun _ => id) rfl (List.Subset.refl _) rfl
  | activate c now request =>
    obtain ⟨checks, sessions, hsessions, ⟨records, rfl⟩ | ⟨e, upstream, he, hbuild, rfl⟩⟩ :=
      step_activate hs
    · exact h.keep htime hlogged (Sessions.secured_step h.secured hsessions)
        (creators_of_step (by simp) hsessions) (isSome_of_step (by simp) hsessions) rfl
        (List.Subset.refl _) rfl
    · exact authentic_activate h hdated hunforged hsessions he hbuild
  | accept i nonce =>
    obtain ⟨a, -, -, rfl⟩ := step_accept hs
    exact h.keep htime hlogged h.secured rfl (fun _ => id) rfl (List.Subset.refl _) rfl
  | accepted i now serverNonce =>
    obtain ⟨a, nonce, client, sessions, ha, -, hsessions, rfl⟩ := step_accepted hs
    exact authentic_accepted h hdated hfresh ha hsessions
  | refused i now status =>
    obtain ⟨a, sessions, records, -, hsessions, rfl⟩ := step_refused hs
    refine h.keep htime hlogged (Sessions.secured_step h.secured hsessions)
      (creators_of_step (by simp) hsessions) (isSome_of_step (by simp) hsessions) rfl ?_
      rfl
    intro b hb
    exact List.mem_append.2 ((List.mem_append.1 hb).imp_left List.mem_of_mem_eraseIdx)
  | table c now act =>
    obtain ⟨hother, sessions, hsessions, rfl⟩ := step_table hs
    have hact : ∀ token client timeout, act ≠ .insert token client timeout := by
      rintro token client timeout rfl
      cases hother
    exact h.keep htime hlogged (Sessions.secured_step h.secured hsessions)
      (creators_of_step hact hsessions) (isSome_of_step hact hsessions) rfl
      (List.Subset.refl _) rfl

/-- The assumptions on a run: nonces are new, and signatures are not forged. -/
def Sound (x : SessionCrates) (ctxs : ℕ → SessionCtx) (s : Handshake) (op : Op) : Prop :=
  Fresh s op ∧ Unforged x ctxs s op

/-- **Run lemma**: so does every run. -/
theorem authentic_of_run {ops : List Op} (hops : Machine.Meets (step x ctxs) (Sound x ctxs) {} ops)
    (hr : Machine.run (step x ctxs) {} ops = some t) : Dated t ∧ Authentic x ctxs t := by
  have hstep : ∀ s op t, (Dated s ∧ Authentic x ctxs s) → Sound x ctxs s op →
      step x ctxs s op = some t → Dated t ∧ Authentic x ctxs t := by
    rintro s op t ⟨hdated, h⟩ ⟨hfresh, hunforged⟩ hs
    exact ⟨dated_step hdated hfresh hs, authentic_step h hdated hfresh hunforged hs⟩
  exact Machine.run_invariant_of_meets hstep ⟨dated_init, authentic_init⟩ hops hr

/-! ## A run -/

/-- Certificates "5f1d" of the client and "beef" of the server, signatures that show the nonce. -/
def plainSessionCrates : SessionCrates where
  policies := ⟨fun uri => if uri = "sign" then .basic256Sha256 else .none, fun _ => true⟩
  parse := fun bytes => if bytes = [1] then some ("5f1d", "client")
    else if bytes = [2] then some ("beef", "server") else none
  isApplicationUriValid := fun _ _ => true
  verifySignatureData := fun _ signature certificate nonce =>
    (certificate = "5f1d" ∧ signature = 1 :: nonce) ∨
      (certificate = "beef" ∧ signature = 2 :: nonce)
  createSignatureData := fun _ _ nonce => .ok (3 :: nonce)
  decryptSecret := fun token _ => some (.ok token.password)
  encryptSecret := fun _ _ _ nonce _ password => .ok (nonce ++ password, "rsa")
  statusText := fun _ => ""
  policyText := fun _ => ""
  modeText := fun _ => ""

/-- An endpoint with signatures, where users log in with a password. -/
def signEndpoint : EndpointDescription where
  endpointUrl := "opc.tcp://plc:4840"
  server := ⟨"urn:plc", "", "plc", none⟩
  serverCertificate := [2]
  securityMode := .sign
  securityPolicyUri := "sign"
  userIdentityTokens := some [⟨"anon", .anonymous⟩, ⟨"user", .userName⟩]
  transportProfileUri := ""
  securityLevel := 1

/-- Its mode is one with signatures. -/
theorem sign_signs :
    MessageSecurityMode.sign = .sign ∨ MessageSecurityMode.sign = .signAndEncrypt :=
  .inl rfl

/-- The connections of the example, on both sides with signatures. -/
def signCtx (_ : ℕ) : SessionCtx where
  channel := Sessions.signed .sign sign_signs
  client := { remoteAddr := "10.0.0.5:50000" }
  upstream := signEndpoint
  minSecurity := .sign

/-- The token of the example. -/
def signToken : NodeId := ⟨1, .numeric 7⟩

/-- The request for the session of the example. -/
def signRequest : CreateSessionRequest := ⟨[1], List.replicate 32 0, "urn:client", "client", ""⟩

/-- The response of the server. -/
def signResponse : CreateSessionResponse :=
  ⟨signToken, "ns=1;i=8", 60, [20], [2], [2, 10], [signEndpoint]⟩

/-- The client activates its session with a signature for the gateway's nonce. -/
def activateRun : List Op :=
  [.create 1 signRequest [signEndpoint] [10], .sign "beef" [10], .created 0 0 signResponse [30],
    .sign "5f1d" [30], .activate 1 1 ⟨signToken, [1, 30], .anonymous⟩]

/-- The server accepts. -/
def acceptRun : List Op := [.accept 0 [21], .accepted 0 2 [31]]

/-- The steps of the run forge no signature and repeat no nonce. -/
theorem sound_acceptRun : Machine.Meets (step plainSessionCrates signCtx)
    (Sound plainSessionCrates signCtx) {} (activateRun ++ acceptRun) := by
  refine ⟨⟨?_, trivial⟩, fun s₁ h₁ => ?_⟩
  · simp [Fresh, Known]
  obtain rfl := Option.some.inj h₁
  refine ⟨⟨trivial, trivial⟩, fun s₂ h₂ => ?_⟩
  obtain rfl := Option.some.inj h₂
  refine ⟨⟨?_, ?_⟩, fun s₃ h₃ => ?_⟩
  · simp [Fresh, Known]
  · intro creation hcreation certificate nonce hverified
    simp [plainSessionCrates, signResponse] at hverified
    obtain ⟨rfl, rfl⟩ := hverified
    exact ⟨1, by simp⟩
  obtain rfl := Option.some.inj h₃
  refine ⟨⟨trivial, trivial⟩, fun s₄ h₄ => ?_⟩
  obtain rfl := Option.some.inj h₄
  refine ⟨⟨trivial, ?_⟩, fun s₅ h₅ => ?_⟩
  · intro certificate nonce hverified
    simp [plainSessionCrates] at hverified
    obtain ⟨rfl, rfl⟩ := hverified
    exact ⟨3, by simp⟩
  obtain rfl := Option.some.inj h₅
  refine ⟨⟨trivial, trivial⟩, fun s₆ h₆ => ?_⟩
  obtain rfl := Option.some.inj h₆
  refine ⟨⟨?_, trivial⟩, fun s₇ h₇ => trivial⟩
  simp [Fresh, Known]

/-! ## Every activation is proven -/

/-- **Activations come from the client that created the session, and no signature counts again.**
Behind an activation over a channel with security that the server has accepted, the owner of the
certificate that the session was created with has signed a nonce of the session, after the gateway
has given it out and before the activation was sent. Another activation with the same nonce is one
of the same session, and each of the two was sent before the other was completed. -/
theorem activation_agreement {ops : List Op}
    (hops : Machine.Meets (step x ctxs) (Sound x ctxs) {} ops)
    (hr : Machine.run (step x ctxs) {} ops = some t) {a : Activation} {done : ℕ}
    (ha : (a, done) ∈ t.activated) :
    ((ctxs a.connectionId).channel.policy ≠ .none → ∃ d certificate, ∃ i j,
      t.sessions.creators a.request.authenticationToken = some d ∧
        (ctxs d).channel.clientCertificate = some certificate ∧
        (a.nonces.downstream, a.request.authenticationToken, i) ∈ t.issued ∧
        (certificate, a.nonces.downstream, j) ∈ t.signed ∧ i < j ∧ j < a.began) ∧
    ∀ b done', (b, done') ∈ t.activated → b.nonces.downstream = a.nonces.downstream →
      b.request.authenticationToken = a.request.authenticationToken ∧
        a.began < done' ∧ b.began < done := by
  obtain ⟨hdated, h⟩ := authentic_of_run hops hr
  have hmem : ∀ p ∈ t.activated, p.1 ∈ t.begun := fun p hp =>
    List.mem_append_right _ (List.mem_map_of_mem hp)
  obtain ⟨-, hproven⟩ := h.proven a (hmem _ ha)
  obtain ⟨i, -, hi⟩ := hproven.issued
  refine ⟨fun hpolicy => ?_, fun b done' hb heq => ?_⟩
  · obtain ⟨d, hd, hproof⟩ := hproven.creator
    obtain ⟨certificate, j, hj, hcertificate, hsigned⟩ := hproof hpolicy
    exact ⟨d, certificate, i, j, hd, hcertificate, hi, hsigned,
      hdated.issued_signed _ hi _ hsigned rfl, hj⟩
  · obtain ⟨k, -, hk⟩ := (h.proven b (hmem _ hb)).2.issued
    refine ⟨?_, h.overlap _ hb a (hmem _ ha) heq.symm, h.overlap _ ha b (hmem _ hb) heq⟩
    exact (Prod.mk.inj (Prod.mk.inj (hdated.issued_unique _ hk _ hi heq)).2).1

/-- The activation of the run rests on a signature of the client. -/
theorem activation_agreement_acceptRun : ∃ t a,
    Machine.run (step plainSessionCrates signCtx) {} (activateRun ++ acceptRun) = some t ∧
      (a, 6) ∈ t.activated ∧ a.began = 4 ∧
      ∃ j < 4, ("5f1d", a.nonces.downstream, j) ∈ t.signed := by
  obtain ⟨t, ht⟩ := Option.isSome_iff_exists.1
    (show (Machine.run (step plainSessionCrates signCtx) {} (activateRun ++ acceptRun)).isSome =
      true from rfl)
  have hread : (Machine.run (step plainSessionCrates signCtx) {} (activateRun ++ acceptRun)).map
      (fun t => t.activated.map fun p => (p.1.connectionId, p.1.began, p.2)) = some [(1, 4, 6)] :=
    rfl
  rw [ht, Option.map_some, Option.some.injEq] at hread
  obtain ⟨⟨a, done⟩, ha, heq⟩ := List.mem_map.1
    (show (1, 4, 6) ∈ t.activated.map fun p => (p.1.connectionId, p.1.began, p.2) by simp [hread])
  simp only [Prod.mk.injEq] at heq
  obtain ⟨hconnection, hbegan, rfl⟩ := heq
  obtain ⟨d, certificate, i, j, -, hcertificate, -, hsigned, -, hj⟩ :=
    (activation_agreement sound_acceptRun ht ha).1 (by simp [signCtx, Sessions.signed])
  obtain rfl : "5f1d" = certificate := Option.some.inj hcertificate
  exact ⟨t, a, ht, ha, hbegan, j, hbegan ▸ hj, hsigned⟩

/-! ## Where a session comes from -/

/-- Nothing is missing exactly if every endpoint that is secure enough was discovered. -/
theorem missingFromDiscovery_eq_none_iff {server discovered : List EndpointDescription}
    {min : MinSecurity} : missingFromDiscovery x server discovered min = none ↔
      ∀ e ∈ server, min ≤ securityOf x.policies e →
        ∃ d ∈ discovered, d.securityMode = e.securityMode ∧
          d.securityPolicyUri = e.securityPolicyUri := by
  unfold missingFromDiscovery
  dsimp only
  constructor
  · intro h e he hmin
    by_contra hnone
    split_ifs at h with hempty
    have hmem : e ∈ (server.filter fun e => min ≤ securityOf x.policies e).filter fun e =>
        !discovered.any fun d =>
          d.securityMode = e.securityMode ∧ d.securityPolicyUri = e.securityPolicyUri := by
      refine List.mem_filter.2 ⟨List.mem_filter.2 ⟨he, by simpa using hmin⟩, ?_⟩
      simpa using hnone
    rw [hempty] at hmem
    cases hmem
  · intro h
    rw [if_pos]
    refine List.filter_eq_nil_iff.2 fun e he => ?_
    obtain ⟨he, hmin⟩ := List.mem_filter.1 he
    simpa using h e he (by simpa using hmin)

/-- What the checks behind the server's answer have made sure of. -/
theorem of_answerChecks {ctx : SessionCtx} {discovered : List EndpointDescription}
    {request : CreateSessionRequest} {clientNonce : List UInt8} {response : CreateSessionResponse}
    {signature : Option (List UInt8)}
    (h : answerChecks x ctx discovered request clientNonce response = .ok signature)
    (hpolicy : ctx.upstreamPolicy x ≠ .none) :
    (∃ certificate, (x.parse ctx.upstream.serverCertificate).map Prod.fst = some certificate ∧
      x.verifySignatureData (ctx.upstreamPolicy x) response.serverSignature certificate
        clientNonce = true) ∧
      missingFromDiscovery x response.serverEndpoints discovered ctx.minSecurity = none := by
  unfold answerChecks at h
  dsimp only at h
  rw [if_neg hpolicy] at h
  by_cases hverified : verified x ctx clientNonce response = true
  · rw [hverified] at h
    refine ⟨?_, ?_⟩
    · unfold verified at hverified
      split at hverified
      · next certificate trusted _ htrusted =>
        rw [Bool.and_eq_true, decide_eq_true_eq] at hverified
        exact ⟨certificate, htrusted.trans (congrArg some hverified.1), hverified.2⟩
      · cases hverified
    · cases hmissing : missingFromDiscovery x response.serverEndpoints discovered
          ctx.minSecurity with
      | none => rfl
      | some missing =>
        rw [hmissing] at h
        cases h
  · rw [Bool.eq_false_iff.2 hverified] at h
    cases h

/-- A creation that was completed. -/
structure Attested (x : SessionCrates) (ctxs : ℕ → SessionCtx) (s : Handshake) (creation : Creation)
    (response : CreateSessionResponse) : Prop where
  made : (creation.clientNonce, creation.began) ∈ s.made
  signed : (ctxs creation.connectionId).upstreamPolicy x ≠ .none → ∃ certificate j,
    (x.parse (ctxs creation.connectionId).upstream.serverCertificate).map Prod.fst =
      some certificate ∧ (certificate, creation.clientNonce, j) ∈ s.signed ∧
    ∀ e ∈ response.serverEndpoints, (ctxs creation.connectionId).minSecurity ≤
      securityOf x.policies e → ∃ d ∈ creation.discovered,
        d.securityMode = e.securityMode ∧ d.securityPolicyUri = e.securityPolicyUri

/-- What a creation rests on stays so. -/
theorem Attested.mono {creation : Creation} {response : CreateSessionResponse}
    (h : Attested x ctxs s creation response) (hlogged : Logged s t) :
    Attested x ctxs t creation response := by
  obtain ⟨hsigned, hmade, -⟩ := hlogged.subset
  refine ⟨hmade h.made, fun hpolicy => ?_⟩
  obtain ⟨certificate, j, hcertificate, hmem, hall⟩ := h.signed hpolicy
  exact ⟨certificate, j, hcertificate, hsigned hmem, hall⟩

/-- The creations that were sent to the server, completed or not. -/
def sent (s : Handshake) : List Creation := s.creating ++ s.created.map Prod.fst

/-- The invariant of every run: creations are attested, each by an answer of its own. -/
structure Trusted (x : SessionCrates) (ctxs : ℕ → SessionCtx) (s : Handshake) : Prop where
  made : ∀ creation ∈ s.creating, (creation.clientNonce, creation.began) ∈ s.made
  attested : ∀ p ∈ s.created, Attested x ctxs s p.1 p.2
  once : (s.sent.map (·.clientNonce)).Nodup

/-- Nothing was created before the start. -/
theorem trusted_init : Trusted x ctxs {} :=
  ⟨fun _ h => (by cases h), fun _ h => (by cases h), List.nodup_nil⟩

/-- A step that sends and completes no creation. -/
theorem Trusted.keep (h : Trusted x ctxs s) (hlogged : Logged s t)
    (hcreating : t.creating.Sublist s.creating) (hcreated : t.created = s.created) :
    Trusted x ctxs t := by
  refine ⟨fun creation hmem => hlogged.subset.2.1 (h.made creation (hcreating.subset hmem)),
    fun p hp => ?_, ?_⟩
  · rw [hcreated] at hp
    exact (h.attested p hp).mono hlogged
  · rw [sent, hcreated]
    exact ((hcreating.append (List.Sublist.refl _)).map _).nodup h.once

/-- The nonces of creations were made for them. -/
theorem Trusted.made_of_sent (h : Trusted x ctxs s) {creation : Creation}
    (hmem : creation ∈ s.sent) : ∃ i, (creation.clientNonce, i) ∈ s.made := by
  rcases List.mem_append.1 hmem with hmem | hmem
  · exact ⟨_, h.made creation hmem⟩
  · obtain ⟨p, hp, rfl⟩ := List.mem_map.1 hmem
    exact ⟨_, (h.attested p hp).made⟩

/-- **Step lemma**: creations are attested, each by an answer of its own. -/
theorem trusted_step (h : Trusted x ctxs s) (hfresh : Fresh s op)
    (hunforged : Unforged x ctxs s op) (hs : step x ctxs s op = some t) : Trusted x ctxs t := by
  obtain ⟨-, hlogged⟩ := logged_step hfresh hs
  cases op with
  | sign certificate nonce =>
    cases hs
    exact h.keep hlogged (List.Sublist.refl _) rfl
  | create c request discovered clientNonce =>
    rcases step_create hs with rfl | rfl
    · exact h.keep hlogged (List.Sublist.refl _) rfl
    · obtain ⟨-, hne, -⟩ := ne_of_not_known hfresh
      refine ⟨fun creation hmem => ?_, fun p hp => (h.attested p hp).mono hlogged, ?_⟩
      · rcases List.mem_append.1 hmem with hmem | hmem
        · exact List.mem_cons_of_mem _ (h.made creation hmem)
        · rw [List.mem_singleton.1 hmem]
          exact List.mem_cons_self ..
      · have hperm : (sent { s with
            time := s.time + 1
            creating := s.creating ++ [⟨c, clientNonce, request, discovered, s.time⟩]
            made := (clientNonce, s.time) :: s.made }).Perm
              (⟨c, clientNonce, request, discovered, s.time⟩ :: s.sent) := by
          simp only [sent, List.append_assoc, List.singleton_append]
          exact List.perm_middle
        rw [(hperm.map _).nodup_iff, List.map_cons, List.nodup_cons]
        refine ⟨fun hmem => ?_, h.once⟩
        obtain ⟨creation, hcreation, heq⟩ := List.mem_map.1 hmem
        obtain ⟨i, hi⟩ := h.made_of_sent hcreation
        exact hne _ hi heq
  | created i now response serverNonce =>
    obtain ⟨creation, hcreation, hcase⟩ := step_created hs
    rcases hcase with ⟨records, rfl⟩ | ⟨signature, sessions, hchecks, -, heq⟩
    · exact h.keep hlogged (List.eraseIdx_sublist ..) rfl
    · have hmem := List.mem_of_getElem? hcreation
      have hmade : t.made = s.made := by rw [heq]
      have hsigned : t.signed = s.signed := by rw [heq]
      have hcreating : t.creating = s.creating.eraseIdx i := by rw [heq]
      have hcreated : t.created = (creation, response) :: s.created := by rw [heq]
      refine ⟨fun creation' hmem' => ?_, fun p hp => ?_, ?_⟩
      · rw [hcreating] at hmem'
        rw [hmade]
        exact h.made creation' (List.mem_of_mem_eraseIdx hmem')
      · rw [hcreated] at hp
        rcases List.mem_cons.1 hp with rfl | hp
        · refine ⟨hmade ▸ h.made creation hmem, fun hpolicy => ?_⟩
          obtain ⟨⟨certificate, hcertificate, hverified⟩, hmissing⟩ :=
            of_answerChecks hchecks hpolicy
          obtain ⟨j, hj⟩ := hunforged creation hcreation certificate _ hverified
          exact ⟨certificate, j, hcertificate, hsigned ▸ hj,
            missingFromDiscovery_eq_none_iff.1 hmissing⟩
        · exact (h.attested p hp).mono hlogged
      · have hperm : t.sent.Perm s.sent := by
          rw [sent, hcreating, hcreated, List.map_cons]
          refine List.perm_middle.trans ?_
          rw [← List.cons_append]
          obtain ⟨hi, hget⟩ := List.getElem?_eq_some_iff.1 hcreation
          have hback := List.getElem_cons_eraseIdx_perm hi
          rw [hget] at hback
          exact hback.append_right _
        exact (hperm.map _).nodup_iff.2 h.once
  | notCreated i =>
    obtain rfl := step_notCreated hs
    exact h.keep hlogged (List.eraseIdx_sublist ..) rfl
  | activate c now request =>
    obtain ⟨checks, sessions, -, ⟨records, rfl⟩ | ⟨e, upstream, -, -, rfl⟩⟩ := step_activate hs
    · exact h.keep hlogged (List.Sublist.refl _) rfl
    · exact h.keep hlogged (List.Sublist.refl _) rfl
  | accept i nonce =>
    obtain ⟨a, -, -, rfl⟩ := step_accept hs
    exact h.keep hlogged (List.Sublist.refl _) rfl
  | accepted i now serverNonce =>
    obtain ⟨a, nonce, client, sessions, -, -, -, rfl⟩ := step_accepted hs
    exact h.keep hlogged (List.Sublist.refl _) rfl
  | refused i now status =>
    obtain ⟨a, sessions, records, -, -, rfl⟩ := step_refused hs
    exact h.keep hlogged (List.Sublist.refl _) rfl
  | table c now act =>
    obtain ⟨-, sessions, -, rfl⟩ := step_table hs
    exact h.keep hlogged (List.Sublist.refl _) rfl

/-- **A session comes from the server that is trusted, for its own request, with nothing hidden.**
If the server is connected with security, the owner of the certificate of its endpoint has signed
the nonce that the gateway made for this very request, after it was made; no answer counts for two
requests; and every endpoint that the server itself lists and that is secure enough for the target
is one that discovery has returned. -/
theorem creation_agreement {ops : List Op}
    (hops : Machine.Meets (step x ctxs) (Sound x ctxs) {} ops)
    (hr : Machine.run (step x ctxs) {} ops = some t) :
    (t.created.map (·.1.clientNonce)).Nodup ∧
    ∀ creation response, (creation, response) ∈ t.created →
      (ctxs creation.connectionId).upstreamPolicy x ≠ .none → ∃ certificate j,
        (x.parse (ctxs creation.connectionId).upstream.serverCertificate).map Prod.fst =
            some certificate ∧
          (certificate, creation.clientNonce, j) ∈ t.signed ∧ creation.began < j ∧
          ∀ e ∈ response.serverEndpoints, (ctxs creation.connectionId).minSecurity ≤
            securityOf x.policies e → ∃ d ∈ creation.discovered,
              d.securityMode = e.securityMode ∧ d.securityPolicyUri = e.securityPolicyUri := by
  have hstep : ∀ s op t, (Dated s ∧ Trusted x ctxs s) → Sound x ctxs s op →
      step x ctxs s op = some t → Dated t ∧ Trusted x ctxs t := by
    rintro s op t ⟨hdated, h⟩ ⟨hfresh, hunforged⟩ hs
    exact ⟨dated_step hdated hfresh hs, trusted_step h hfresh hunforged hs⟩
  obtain ⟨hdated, h⟩ := Machine.run_invariant_of_meets hstep ⟨dated_init, trusted_init⟩ hops hr
  refine ⟨?_, fun creation response hmem hpolicy => ?_⟩
  · have honce := (List.sublist_append_right t.creating (t.created.map Prod.fst)).map
      (·.clientNonce) |>.nodup h.once
    rwa [List.map_map] at honce
  · have hattested := h.attested _ hmem
    obtain ⟨certificate, j, hcertificate, hsigned, hall⟩ := hattested.signed hpolicy
    exact ⟨certificate, j, hcertificate, hsigned,
      hdated.made_signed _ hattested.made _ hsigned rfl, hall⟩

/-- The creation of the run rests on a signature of the server. -/
theorem creation_agreement_acceptRun : ∃ t creation,
    Machine.run (step plainSessionCrates signCtx) {} (activateRun ++ acceptRun) = some t ∧
      (creation, signResponse) ∈ t.created ∧ creation.began = 0 ∧
      ∃ j, 0 < j ∧ ("beef", creation.clientNonce, j) ∈ t.signed := by
  obtain ⟨t, ht⟩ := Option.isSome_iff_exists.1
    (show (Machine.run (step plainSessionCrates signCtx) {} (activateRun ++ acceptRun)).isSome =
      true from rfl)
  have hread : (Machine.run (step plainSessionCrates signCtx) {} (activateRun ++ acceptRun)).map
      (fun t => t.created.map fun p => (p.1.began, p.2)) = some [(0, signResponse)] := rfl
  rw [ht, Option.map_some, Option.some.injEq] at hread
  obtain ⟨⟨creation, response⟩, hmem, heq⟩ := List.mem_map.1
    (show (0, signResponse) ∈ t.created.map fun p => (p.1.began, p.2) by simp [hread])
  obtain ⟨hbegan, rfl⟩ := Prod.mk.inj heq
  obtain ⟨certificate, j, hcertificate, hsigned, hj, -⟩ :=
    (creation_agreement sound_acceptRun ht).2 creation _ hmem
      (by simp [SessionCtx.upstreamPolicy, signCtx, signEndpoint, plainSessionCrates])
  obtain rfl : "beef" = certificate := by
    simpa [plainSessionCrates, signCtx, signEndpoint] using hcertificate
  exact ⟨t, creation, ht, hmem, hbegan, j, hbegan ▸ hj, hsigned⟩

/-! ## What the server gets is for its latest nonce -/

/-- A session is activated only while no other activation of it is under way, and no answer of the
server that accepts one is lost. -/
def Sequential (s : Handshake) : Op → Prop
  | .activate _ _ request =>
    ∀ a ∈ s.activating, a.request.authenticationToken ≠ request.authenticationToken
  | .refused i _ _ => ∀ a, s.activating[i]? = some a → s.answers a.began = none
  | _ => True

/-- The table knows the nonce that the server expects, unless an activation is under way. -/
structure Current (x : SessionCrates) (ctxs : ℕ → SessionCtx) (s : Handshake) : Prop where
  secured : Sessions.Secured (channels ctxs) s.sessions
  idle : ∀ token, (s.sessions.registry token).isSome →
    (∀ a ∈ s.activating, a.request.authenticationToken ≠ token) →
    (s.nonces token).upstream = s.server token
  held : ∀ a ∈ s.activating, s.nonces a.request.authenticationToken = a.nonces
  waiting : ∀ a ∈ s.activating, s.answers a.began = none →
    a.nonces.upstream = s.server a.request.authenticationToken
  answered : ∀ a ∈ s.activating, ∀ nonce, s.answers a.began = some nonce →
    s.server a.request.authenticationToken = nonce
  single : (s.activating.map (·.request.authenticationToken)).Nodup
  numbered : ∀ a ∈ s.activating, a.began < s.time ∧
    ∀ b ∈ s.activating, a.began = b.began → a = b
  answers_lt : ∀ k, s.time ≤ k → s.answers k = none
  known : ∀ a ∈ s.activating, (s.sessions.creators a.request.authenticationToken).isSome ∧
    buildActivation x (ctxs a.connectionId) a.entry a.nonces a.request = .ok a.upstream

/-- No activation is on its way at the start. -/
theorem current_init : Current x ctxs {} where
  secured := Sessions.secured_init
  idle := fun _ h => (by cases h)
  held := fun _ h => (by cases h)
  waiting := fun _ h => (by cases h)
  answered := fun _ h => (by cases h)
  single := List.nodup_nil
  numbered := fun _ h => (by cases h)
  answers_lt := fun _ _ => rfl
  known := fun _ h => (by cases h)

/-- A step that leaves the activations alone. -/
theorem Current.keep (h : Current x ctxs s) (htime : t.time = s.time + 1)
    (hsecured : Sessions.Secured (channels ctxs) t.sessions)
    (hcreators : t.sessions.creators = s.sessions.creators)
    (hregistry : ∀ token, (t.sessions.registry token).isSome → (s.sessions.registry token).isSome)
    (hnonces : t.nonces = s.nonces) (hactivating : t.activating = s.activating)
    (hserver : t.server = s.server) (hanswers : t.answers = s.answers) : Current x ctxs t := by
  refine ⟨hsecured, ?_, ?_, ?_, ?_, ?_, ?_, ?_, ?_⟩
  · rw [hnonces, hactivating, hserver]
    exact fun token htoken => h.idle token (hregistry token htoken)
  · rw [hnonces, hactivating]
    exact h.held
  · rw [hactivating, hserver, hanswers]
    exact h.waiting
  · rw [hactivating, hserver, hanswers]
    exact h.answered
  · rw [hactivating]
    exact h.single
  · rw [hactivating, htime]
    exact fun a ha => ⟨Nat.lt_succ_of_lt (h.numbered a ha).1, (h.numbered a ha).2⟩
  · rw [htime, hanswers]
    exact fun k hk => h.answers_lt k (Nat.le_of_succ_le hk)
  · rw [hactivating, hcreators]
    exact h.known

/-- A session that is created is not being activated. -/
theorem current_created (h : Current x ctxs s) {creation : Creation} {i now : ℕ}
    {response : CreateSessionResponse} {serverNonce : List UInt8} {client : ClientContext}
    {sessions : Sessions}
    (hsessions : Sessions.step (channels ctxs) s.sessions (creation.connectionId, now,
      .insert response.authenticationToken client response.revisedSessionTimeout) = some sessions)
    (ht : t = { s with
      time := s.time + 1
      sessions := sessions
      nonces := Function.update s.nonces response.authenticationToken
        ⟨serverNonce, response.serverNonce⟩
      creating := s.creating.eraseIdx i
      records := t.records
      server := Function.update s.server response.authenticationToken response.serverNonce
      issued := (serverNonce, response.authenticationToken, s.time) :: s.issued
      created := (creation, response) :: s.created }) : Current x ctxs t := by
  obtain ⟨hnone, hcreators, hregistry⟩ := insert_of_step h.secured hsessions
  have hne : ∀ a ∈ s.activating,
      a.request.authenticationToken ≠ response.authenticationToken := by
    intro a ha heq
    have hknown := (h.known a ha).1
    rw [heq, hnone] at hknown
    cases hknown
  rw [ht]
  refine ⟨Sessions.secured_step h.secured hsessions, fun token htoken hidle => ?_,
    fun a ha => ?_, fun a ha hanswer => ?_, fun a ha nonce hanswer => ?_, h.single,
    fun a ha => ?_, fun k hk => h.answers_lt k (Nat.le_of_succ_le hk), fun a ha => ?_⟩
  · by_cases heq : token = response.authenticationToken
    · simp [heq]
    · simp only [Function.update_of_ne heq]
      exact h.idle token (hregistry token heq htoken) hidle
  · simp only [Function.update_of_ne (hne a ha)]
    exact h.held a ha
  · simp only [Function.update_of_ne (hne a ha)]
    exact h.waiting a ha hanswer
  · simp only [Function.update_of_ne (hne a ha)]
    exact h.answered a ha nonce hanswer
  · exact ⟨Nat.lt_succ_of_lt (h.numbered a ha).1, (h.numbered a ha).2⟩
  · simp only [hcreators, Function.update_of_ne (hne a ha)]
    exact h.known a ha

/-- An activation is sent with the nonce that the server expects. -/
theorem current_activate (h : Current x ctxs s) {c now : ℕ} {request : ActivateSessionRequest}
    (hop : Sequential s (.activate c now request)) {checks : Except StatusCode UserIdentity}
    {sessions : Sessions} (hsessions : Sessions.step (channels ctxs) s.sessions
      (c, now, .begin request.authenticationToken checks) = some sessions) {e : SessionEntry}
    (he : s.sessions.registry request.authenticationToken = some e)
    {upstream : UpstreamActivation} (hbuild : buildActivation x (ctxs c) e
      (s.nonces request.authenticationToken) request = .ok upstream) :
    Current x ctxs { s with
      time := s.time + 1
      sessions := sessions
      activating := s.activating ++
        [{ connectionId := c, request := request, entry := e,
           nonces := s.nonces request.authenticationToken,
           upstream := upstream, began := s.time }] } := by
  have hcreators := creators_of_step (by simp) hsessions
  have hregistry := isSome_of_step (by simp) hsessions
  have hsome : (s.sessions.registry request.authenticationToken).isSome := by rw [he]; rfl
  obtain ⟨d, hd, -⟩ := h.secured.created _ e he
  refine ⟨Sessions.secured_step h.secured hsessions, fun token htoken hidle => ?_,
    fun a ha => ?_, fun a ha hanswer => ?_, fun a ha nonce hanswer => ?_, ?_, fun a ha => ?_,
    fun k hk => h.answers_lt k (Nat.le_of_succ_le hk), fun a ha => ?_⟩
  · exact h.idle token (hregistry token htoken) fun a ha => hidle a (List.mem_append_left _ ha)
  · rcases List.mem_append.1 ha with ha | ha
    · exact h.held a ha
    · rw [List.mem_singleton.1 ha]
  · rcases List.mem_append.1 ha with ha | ha
    · exact h.waiting a ha hanswer
    · rw [List.mem_singleton.1 ha]
      exact h.idle _ hsome hop
  · rcases List.mem_append.1 ha with ha | ha
    · exact h.answered a ha nonce hanswer
    · rw [List.mem_singleton.1 ha] at hanswer
      rw [h.answers_lt _ le_rfl] at hanswer
      cases hanswer
  · rw [List.map_append, List.nodup_append]
    refine ⟨h.single, List.nodup_singleton _, ?_⟩
    intro token htoken token' htoken' heq
    obtain ⟨a, ha, rfl⟩ := List.mem_map.1 htoken
    rw [List.map_singleton, List.mem_singleton] at htoken'
    exact hop a ha (heq.trans htoken')
  · have hlt : ∀ b ∈ s.activating, b.began < s.time := fun b hb => (h.numbered b hb).1
    rcases List.mem_append.1 ha with ha | ha
    · refine ⟨Nat.lt_succ_of_lt (hlt a ha), fun b hb heq => ?_⟩
      rcases List.mem_append.1 hb with hb | hb
      · exact (h.numbered a ha).2 b hb heq
      · have := hlt a ha
        rw [List.mem_singleton.1 hb] at heq
        exact absurd heq this.ne
    · rw [List.mem_singleton.1 ha]
      refine ⟨Nat.lt_succ_self _, fun b hb heq => ?_⟩
      rcases List.mem_append.1 hb with hb | hb
      · exact absurd heq.symm (hlt b hb).ne
      · exact (List.mem_singleton.1 hb).symm
  · show (sessions.creators a.request.authenticationToken).isSome ∧ _
    rw [hcreators]
    rcases List.mem_append.1 ha with ha | ha
    · exact h.known a ha
    · rw [List.mem_singleton.1 ha]
      exact ⟨by rw [hd]; rfl, hbuild⟩

/-- No two activations of a session are under way. -/
theorem Current.eq_of_token (h : Current x ctxs s) {a b : Activation} (ha : a ∈ s.activating)
    (hb : b ∈ s.activating) (heq : a.request.authenticationToken = b.request.authenticationToken) :
    a = b :=
  List.inj_on_of_nodup_map h.single ha hb heq

/-- The server accepts an activation. -/
theorem current_accept (h : Current x ctxs s) {a : Activation} (ha : a ∈ s.activating)
    (nonce : List UInt8) :
    Current x ctxs { s with
      time := s.time + 1
      answers := Function.update s.answers a.began (some nonce)
      server := Function.update s.server a.request.authenticationToken nonce } := by
  have hother : ∀ b ∈ s.activating, b ≠ a →
      b.request.authenticationToken ≠ a.request.authenticationToken ∧ b.began ≠ a.began :=
    fun b hb hne => ⟨fun heq => hne (h.eq_of_token hb ha heq),
      fun heq => hne ((h.numbered b hb).2 a ha heq)⟩
  refine ⟨h.secured, fun token htoken hidle => ?_, h.held, fun b hb hanswer => ?_,
    fun b hb nonce' hanswer => ?_, h.single, fun b hb => ?_, fun k hk => ?_, h.known⟩
  · simp only [Function.update_of_ne (hidle a ha).symm]
    exact h.idle token htoken hidle
  · dsimp only at hanswer ⊢
    by_cases hne : b = a
    · rw [hne, Function.update_self] at hanswer
      cases hanswer
    · obtain ⟨htoken, hbegan⟩ := hother b hb hne
      rw [Function.update_of_ne hbegan] at hanswer
      rw [Function.update_of_ne htoken]
      exact h.waiting b hb hanswer
  · dsimp only at hanswer ⊢
    by_cases hne : b = a
    · rw [hne, Function.update_self] at hanswer
      rw [hne, Function.update_self]
      exact Option.some.inj hanswer
    · obtain ⟨htoken, hbegan⟩ := hother b hb hne
      rw [Function.update_of_ne hbegan] at hanswer
      rw [Function.update_of_ne htoken]
      exact h.answered b hb nonce' hanswer
  · exact ⟨Nat.lt_succ_of_lt (h.numbered b hb).1, (h.numbered b hb).2⟩
  · have hlt := (h.numbered a ha).1
    replace hk : s.time + 1 ≤ k := hk
    have hne : k ≠ a.began := by omega
    simp only [Function.update_of_ne hne]
    exact h.answers_lt k (by omega)

/-- An activation that is completed or refused leaves the others alone. -/
theorem Current.mem_eraseIdx (h : Current x ctxs s) {i : ℕ} {a b : Activation}
    (ha : s.activating[i]? = some a) (hb : b ∈ s.activating.eraseIdx i) :
    b ∈ s.activating ∧ b.request.authenticationToken ≠ a.request.authenticationToken := by
  refine ⟨List.mem_of_mem_eraseIdx hb, fun heq => ?_⟩
  obtain ⟨hi, hget⟩ := List.getElem?_eq_some_iff.1 ha
  have hnodup := ((List.getElem_cons_eraseIdx_perm hi).map
    (·.request.authenticationToken)).nodup_iff.2 h.single
  rw [hget, List.map_cons, List.nodup_cons] at hnodup
  exact hnodup.1 (heq ▸ List.mem_map_of_mem hb)

/-- An activation is over, and the table knows what the server expects. -/
theorem current_done (h : Current x ctxs s) {i : ℕ} {a : Activation}
    (ha : s.activating[i]? = some a) {sessions : Sessions} {nonces : NodeId → Nonces}
    {records : List (ClientContext × AuditEvent)} {issued : List (List UInt8 × NodeId × ℕ)}
    {activated : List (Activation × ℕ)}
    (hsecured : Sessions.Secured (channels ctxs) sessions)
    (hcreators : sessions.creators = s.sessions.creators)
    (hregistry : ∀ token, (sessions.registry token).isSome → (s.sessions.registry token).isSome)
    (hother : ∀ token ≠ a.request.authenticationToken, nonces token = s.nonces token)
    (hself : (s.sessions.registry a.request.authenticationToken).isSome →
      (nonces a.request.authenticationToken).upstream =
        s.server a.request.authenticationToken) :
    Current x ctxs { s with
      time := s.time + 1
      sessions := sessions
      nonces := nonces
      activating := s.activating.eraseIdx i
      records := records
      issued := issued
      activated := activated } := by
  refine ⟨hsecured, fun token htoken hidle => ?_, fun b hb => ?_,
    fun b hb => h.waiting b (h.mem_eraseIdx ha hb).1,
    fun b hb => h.answered b (h.mem_eraseIdx ha hb).1, ?_, fun b hb => ?_,
    fun k hk => h.answers_lt k (Nat.le_of_succ_le hk), fun b hb => ?_⟩
  · by_cases heq : token = a.request.authenticationToken
    · subst heq
      exact hself (hregistry _ htoken)
    · dsimp only
      rw [hother token heq]
      refine h.idle token (hregistry token htoken) fun b hb => ?_
      by_cases hne : b = a
      · exact hne ▸ fun h => heq h.symm
      · -- what is left is not over
        obtain ⟨k, hk⟩ := List.mem_iff_getElem?.1 hb
        refine hidle b (List.mem_eraseIdx_iff_getElem?.2 ⟨k, fun hki => ?_, hk⟩)
        rw [hki, ha] at hk
        exact hne (Option.some.inj hk).symm
  · obtain ⟨hb, hne⟩ := h.mem_eraseIdx ha hb
    exact (hother _ hne).trans (h.held b hb)
  · exact ((List.eraseIdx_sublist ..).map _).nodup h.single
  · have hb := (h.mem_eraseIdx ha hb).1
    exact ⟨Nat.lt_succ_of_lt (h.numbered b hb).1,
      fun b' hb' => (h.numbered b hb).2 b' (h.mem_eraseIdx ha hb').1⟩
  · show (sessions.creators b.request.authenticationToken).isSome ∧ _
    rw [hcreators]
    exact h.known b (h.mem_eraseIdx ha hb).1

/-- **Step lemma**: while activations do not overlap, the table knows the nonce that the server
expects. -/
theorem current_step (h : Current x ctxs s) (hop : Sequential s op)
    (hs : step x ctxs s op = some t) : Current x ctxs t := by
  cases op with
  | sign certificate nonce =>
    cases hs
    exact h.keep rfl h.secured rfl (fun _ => id) rfl rfl rfl rfl
  | create c request discovered clientNonce =>
    rcases step_create hs with rfl | rfl
    · exact h.keep rfl h.secured rfl (fun _ => id) rfl rfl rfl rfl
    · exact h.keep rfl h.secured rfl (fun _ => id) rfl rfl rfl rfl
  | created i now response serverNonce =>
    obtain ⟨creation, -, ⟨records, rfl⟩ | ⟨signature, sessions, -, hsessions, heq⟩⟩ :=
      step_created hs
    · exact h.keep rfl h.secured rfl (fun _ => id) rfl rfl rfl rfl
    · exact current_created h hsessions heq
  | notCreated i =>
    obtain rfl := step_notCreated hs
    exact h.keep rfl h.secured rfl (fun _ => id) rfl rfl rfl rfl
  | activate c now request =>
    obtain ⟨checks, sessions, hsessions, ⟨records, rfl⟩ | ⟨e, upstream, he, hbuild, rfl⟩⟩ :=
      step_activate hs
    · exact h.keep rfl (Sessions.secured_step h.secured hsessions)
        (creators_of_step (by simp) hsessions) (isSome_of_step (by simp) hsessions)
        rfl rfl rfl rfl
    · exact current_activate h hop hsessions he hbuild
  | accept i nonce =>
    obtain ⟨a, ha, -, rfl⟩ := step_accept hs
    exact current_accept h (List.mem_of_getElem? ha) nonce
  | accepted i now serverNonce =>
    obtain ⟨a, nonce, client, sessions, ha, hanswer, hsessions, rfl⟩ := step_accepted hs
    have hmem := List.mem_of_getElem? ha
    refine current_done h ha (Sessions.secured_step h.secured hsessions)
      (creators_of_step (by simp) hsessions) (isSome_of_step (by simp) hsessions)
      (fun token hne => ?_) fun hsome => ?_
    · split_ifs
      · rw [Function.update_of_ne hne]
      · rfl
    · rw [if_pos hsome, Function.update_self]
      exact (h.answered a hmem nonce hanswer).symm
  | refused i now status =>
    obtain ⟨a, sessions, records, ha, hsessions, rfl⟩ := step_refused hs
    have hmem := List.mem_of_getElem? ha
    refine current_done h ha (Sessions.secured_step h.secured hsessions)
      (creators_of_step (by simp) hsessions) (isSome_of_step (by simp) hsessions)
      (fun token _ => rfl) fun _ => ?_
    rw [h.held a hmem]
    exact h.waiting a hmem (hop a ha)
  | table c now act =>
    obtain ⟨hother, sessions, hsessions, rfl⟩ := step_table hs
    have hact : ∀ token client timeout, act ≠ .insert token client timeout := by
      rintro token client timeout rfl
      cases hother
    exact h.keep rfl (Sessions.secured_step h.secured hsessions)
      (creators_of_step hact hsessions) (isSome_of_step hact hsessions) rfl rfl rfl rfl

/-- An activation is signed for a nonce of the server, and the password of a user is encrypted for
it; what is encrypted is the password that the client has encrypted for the gateway's nonce, or
has sent as it is. Whoever sends no name is anonymous to the server. -/
structure SealedFor (x : SessionCrates) (ctx : SessionCtx) (identity : IdentityToken)
    (nonces : Nonces) (sent : UpstreamActivation) : Prop where
  unsigned : ctx.upstreamPolicy x = .none → sent.clientSignature = []
  signed : ctx.upstreamPolicy x ≠ .none →
    x.createSignatureData (ctx.upstreamPolicy x) ctx.upstream.serverCertificate nonces.upstream =
      .ok sent.clientSignature
  anonymous : ∀ policyId, sent.userIdentityToken = .anonymous policyId →
    identity = .null ∨ identity = .anonymous
  userName : ∀ token, sent.userIdentityToken = .userName token →
    ∃ given password, ∃ policy ∈ ctx.upstream.userIdentityTokens.getD [],
      identity = .userName given ∧ token.userName = given.userName ∧
      token.policyId = policy.policyId ∧
      (given.encryptionAlgorithm = "" → password = given.password) ∧
      (given.encryptionAlgorithm ≠ "" →
        x.decryptSecret given nonces.downstream = some (.ok password)) ∧
      x.encryptSecret (ctx.upstreamPolicy x) ctx.upstream.securityMode policy nonces.upstream
        ctx.upstream.serverCertificate password = .ok (token.password, token.encryptionAlgorithm)

/-- A password is sent as it is, or it is decrypted. -/
theorem decryptPassword_eq_ok {token : UserNameIdentityToken} {nonce password : List UInt8}
    (h : decryptPassword x token nonce = .ok password) :
    (token.encryptionAlgorithm = "" → password = token.password) ∧
      (token.encryptionAlgorithm ≠ "" → x.decryptSecret token nonce = some (.ok password)) := by
  unfold decryptPassword at h
  split_ifs at h with hplain
  · cases h
    exact ⟨fun _ => rfl, fun hne => absurd hplain hne⟩
  · refine ⟨fun heq => absurd heq hplain, fun _ => ?_⟩
    cases hsecret : x.decryptSecret token nonce with
    | none =>
      rw [hsecret] at h
      cases h
    | some result =>
      rw [hsecret, Option.getD_some] at h
      rw [h]

/-- A computation that goes on behind another one. -/
theorem exists_of_bind_eq_ok {ε α β : Type} {a : Except ε α} {f : α → Except ε β} {b : β}
    (h : a >>= f = .ok b) : ∃ v, a = .ok v ∧ f v = .ok b := by
  cases a with
  | error e => cases h
  | ok v => exact ⟨v, rfl, h⟩

/-- A token of a user name is encrypted for the nonce of the server. -/
theorem translateUserName_eq_ok {ctx : SessionCtx} {given token : UserNameIdentityToken}
    {nonces : Nonces} (h : translateUserName x ctx given nonces = .ok token) :
    ∃ password, ∃ policy ∈ ctx.upstream.userIdentityTokens.getD [],
      decryptPassword x given nonces.downstream = .ok password ∧
      token.userName = given.userName ∧ token.policyId = policy.policyId ∧
      x.encryptSecret (ctx.upstreamPolicy x) ctx.upstream.securityMode policy nonces.upstream
        ctx.upstream.serverCertificate password =
          .ok (token.password, token.encryptionAlgorithm) := by
  unfold translateUserName at h
  obtain ⟨password, hpassword, h⟩ := exists_of_bind_eq_ok h
  dsimp only at h
  split at h
  · next policy hfound =>
    obtain ⟨_, ⟨⟩, h⟩ := exists_of_bind_eq_ok h
    obtain ⟨⟨secret, algorithm⟩, hsecret, h⟩ := exists_of_bind_eq_ok h
    cases h
    refine ⟨password, policy, ?_, hpassword, rfl, rfl, hsecret⟩
    rcases Option.or_eq_some_iff.1 hfound with hfound | ⟨-, hfound⟩
    · exact List.mem_of_find?_eq_some hfound
    · exact List.mem_of_find?_eq_some hfound
  · cases h

/-- What goes to the server is sealed for the nonce that the table has from it. -/
theorem sealedFor_of_buildActivation {ctx : SessionCtx} {e : SessionEntry} {nonces : Nonces}
    {request : ActivateSessionRequest} {sent : UpstreamActivation}
    (h : buildActivation x ctx e nonces request = .ok sent) :
    SealedFor x ctx request.userIdentityToken nonces sent := by
  have hidentity : ∃ token, translateIdentity x ctx request.userIdentityToken nonces = .ok token ∧
      sent.userIdentityToken = token ∧
      (ctx.upstreamPolicy x = .none → sent.clientSignature = []) ∧
      (ctx.upstreamPolicy x ≠ .none → x.createSignatureData (ctx.upstreamPolicy x)
        ctx.upstream.serverCertificate nonces.upstream = .ok sent.clientSignature) := by
    unfold buildActivation at h
    dsimp only at h
    cases htoken : translateIdentity x ctx request.userIdentityToken nonces with
    | error refused =>
      rw [htoken] at h
      split_ifs at h
    | ok token =>
      refine ⟨token, rfl, ?_⟩
      rw [htoken] at h
      split_ifs at h with hweaker hproof hpolicy
      · cases h
        exact ⟨rfl, fun _ => rfl, fun hne => absurd hpolicy hne⟩
      · dsimp only at h
        split at h
        · next signature hsignature =>
          cases h
          exact ⟨rfl, fun heq => absurd heq hpolicy, fun _ => hsignature⟩
        · cases h
  obtain ⟨token, htoken, rfl, hunsigned, hsigned⟩ := hidentity
  refine ⟨hunsigned, hsigned, fun policyId heq => ?_, fun token heq => ?_⟩
  · rw [heq] at htoken
    unfold translateIdentity at htoken
    split at htoken
    · next hgiven => exact .inl hgiven
    · next hgiven => exact .inr hgiven
    · split at htoken
      · cases htoken
      · cases htoken
    · cases htoken
    · cases htoken
    · cases htoken
  · rw [heq] at htoken
    unfold translateIdentity at htoken
    split at htoken
    · split at htoken
      · cases htoken
      · cases htoken
    · split at htoken
      · cases htoken
      · cases htoken
    · next given hgiven =>
      split at htoken
      · next translated htranslated =>
        cases htoken
        obtain ⟨password, policy, hpolicy, hpassword, hname, hid, hsecret⟩ :=
          translateUserName_eq_ok htranslated
        obtain ⟨hplain, hencrypted⟩ := decryptPassword_eq_ok hpassword
        exact ⟨given, password, policy, hpolicy, hgiven, hname, hid, hplain, hencrypted, hsecret⟩
      · cases htoken
    · cases htoken
    · cases htoken
    · cases htoken

/-- **What the server gets is for its latest nonce.** As long as the activations of a session do not
overlap and no answer of the server that accepts one is lost, an activation that waits for the
server is signed, and its password encrypted, for the nonce that the server expects, and the
password was decrypted with the nonce that the client was given last. -/
theorem latest_nonce {ops : List Op} (hops : Machine.Meets (step x ctxs) Sequential {} ops)
    (hr : Machine.run (step x ctxs) {} ops = some t) {a : Activation} (ha : a ∈ t.activating)
    (hanswer : t.answers a.began = none) :
    SealedFor x (ctxs a.connectionId) a.request.userIdentityToken
      ⟨(t.nonces a.request.authenticationToken).downstream,
        t.server a.request.authenticationToken⟩ a.upstream := by
  have h := Machine.run_invariant_of_meets (fun _ _ _ h hop hs => current_step h hop hs)
    current_init hops hr
  rw [← h.waiting a ha hanswer, h.held a ha]
  exact sealedFor_of_buildActivation (h.known a ha).2

/-- A user activates the session with name and password. -/
def passwordRun : List Op :=
  activateRun.dropLast ++
    [.activate 1 1 ⟨signToken, [1, 30], .userName ⟨"user", "alice", [7], ""⟩⟩]

/-- The activation of the run is signed, and its password encrypted, for the nonce of the server. -/
theorem latest_nonce_passwordRun : ∃ t a,
    Machine.run (step plainSessionCrates signCtx) {} passwordRun = some t ∧ a ∈ t.activating ∧
      t.server signToken = [20] ∧ a.upstream.clientSignature = [3, 20] ∧
      a.upstream.userIdentityToken = .userName ⟨"user", "alice", [20, 7], "rsa"⟩ ∧
      SealedFor plainSessionCrates (signCtx a.connectionId) a.request.userIdentityToken
        ⟨(t.nonces a.request.authenticationToken).downstream,
          t.server a.request.authenticationToken⟩ a.upstream := by
  have hops : Machine.Meets (step plainSessionCrates signCtx) Sequential {} passwordRun := by
    refine ⟨trivial, fun s₁ h₁ => ⟨trivial, fun s₂ h₂ => ⟨trivial, fun s₃ h₃ => ⟨trivial,
      fun s₄ h₄ => ⟨?_, fun _ _ => trivial⟩⟩⟩⟩⟩
    obtain rfl := Option.some.inj h₁
    obtain rfl := Option.some.inj h₂
    obtain rfl := Option.some.inj h₃
    obtain rfl := Option.some.inj h₄
    simp [Sequential]
  have hread : (Machine.run (step plainSessionCrates signCtx) {} passwordRun).map
      (fun t => (t.activating.map fun a =>
        (t.answers a.began, a.upstream.clientSignature, a.upstream.userIdentityToken),
        t.server signToken)) =
      some ([(none, [3, 20], .userName ⟨"user", "alice", [20, 7], "rsa"⟩)], [20]) := rfl
  obtain ⟨t, ht, hview⟩ := Option.map_eq_some_iff.1 hread
  obtain ⟨hactivating, hserver⟩ := Prod.mk.inj hview
  obtain ⟨a, hactivating⟩ := List.map_eq_singleton_iff.1 hactivating
  obtain ⟨hone, hsent⟩ := hactivating
  obtain ⟨hanswer, hsent⟩ := Prod.mk.inj hsent
  obtain ⟨hsignature, htoken⟩ := Prod.mk.inj hsent
  have ha : a ∈ t.activating := by
    rw [hone]
    exact List.mem_singleton_self _
  exact ⟨t, a, ht, ha, hserver, hsignature, htoken, latest_nonce hops ht ha hanswer⟩

end Handshake

end AuditGateway
