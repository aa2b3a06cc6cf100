import AuditGateway.Lib.Machine
import AuditGateway.Relay.Endpoints
import AuditGateway.Relay.Value

set_option relaxedAutoImplicit false
set_option autoImplicit false

/-!
# The chunks of a connection

A client sends chunks, and the last one of a message makes it a request. Reading a chunk that opens
a secure channel switches the channel to the policy it names, so the transport compares such a chunk
with the issued channel before the library sees it. What it compares with is the header of the
first chunk of the message that issued the channel, and the policy of the channel is that of the
last one: the two are the same only if the message names one policy in both.

## Main definitions

* `Frame`, `Chunk`, `Message` — what a client sends, with what the library says about it.
* `Downstream` — a connection with its unfinished message.
* `Downstream.process`, `Downstream.receive`, `Downstream.step` — what is done with a chunk.
* `Downstream.Uniform` — the message that issues the channel names one policy.
* `Downstream.Inv` — the invariant.

## Main results

* `Downstream.inv_receive` — what a chunk keeps.
* `Downstream.keeps_of_run` — the security of an issued channel.
* `Downstream.safe_of_run` — the security floor of the target.
* `Downstream.rekeyed`, `Downstream.relayed_rekeyed` — a message that names two policies.
-/

namespace AuditGateway

/-! ## What a client sends -/

/-- The status of a message that cannot be decoded. -/
def StatusCode.badDecodingError : StatusCode := ⟨0x80070000⟩

/-- An error of the library; a request is known by both of its numbers. -/
structure LibraryError where
  status : StatusCode
  requestId : Option ℕ := none
  requestHandle : Option ℕ := none

namespace LibraryError

/-- The request that an error belongs to, if it is known. -/
def fullContext (e : LibraryError) : Option (ℕ × ℕ) := do
  let id ← e.requestId
  let handle ← e.requestHandle
  some (id, handle)

/-- An error that belongs to a request. -/
def withRequestId (e : LibraryError) (id : ℕ) : LibraryError := { e with requestId := some id }

end LibraryError

/-- What the library says about channels: the policies, the certificate of a channel that is set
from the bytes in a header, whether a nonce has the length that the policy wants, and the text of
a status. -/
structure ChannelCrate (Certificate : Type) extends PolicyCrate where
  remoteCert : Option (List UInt8) → Except StatusCode (Option Certificate)
  nonceLength : SecurityPolicy → List UInt8 → Except StatusCode Unit
  statusText : StatusCode → String

/-- A request, with what others say while it is handled. -/
inductive Message
  /-- `trusted` is what the trust list says about the certificate. -/
  | openSecureChannel (request : OpenSecureChannelRequest) (trusted : Except StatusCode Unit)
      (discovery : Discovery)
  | closeSecureChannel
  | getEndpoints (url : String) (discovery : Discovery)
  /-- A request that the gateway answers itself, without its list of endpoints. -/
  | answered
  /-- A request that goes to the target. -/
  | relayed (discovery : Discovery) (connected : Bool)

/-- The kinds of messages. -/
inductive MessageType
  /-- The chunk has a security header of its own, if that can be read. -/
  | openSecureChannel (header : Except LibraryError AsymmetricHeader)
  | message
  | closeSecureChannel

/-- Whether a chunk is the last one of its message. -/
inductive IsFinal
  | intermediate
  | final
  | finalError
  deriving DecidableEq

/-- A chunk, with what the library says about it. -/
structure Chunk where
  messageType : MessageType
  isFinal : IsFinal
  /-- The size without its security, or why that could not be taken off. -/
  verified : Except LibraryError ℕ
  /-- A chunk that could not be verified has switched the channel to its policy. -/
  switched : Bool := false
  /-- Whether its headers are read and its number is the next one. -/
  sequence : Except LibraryError Unit := .ok ()
  /-- Whether the chunks of the message belong together. -/
  validated : Except LibraryError Unit := .ok ()
  requestId : ℕ
  /-- The message, if the chunk is its last one. -/
  decoded : Except LibraryError Message

/-- What the client sends. -/
inductive Frame
  | chunk (c : Chunk)
  /-- A chunk whose header cannot be read. -/
  | unreadable (e : LibraryError)
  /-- A message that is no chunk. -/
  | other

namespace Chunk

/-- The chunk belongs to a message that opens a channel. -/
def opens (c : Chunk) : Bool :=
  match c.messageType with
  | .openSecureChannel _ => true
  | _ => false

/-- The security header, if it is that of an OpenSecureChannel. -/
def header (c : Chunk) : Option AsymmetricHeader :=
  match c.messageType with
  | .openSecureChannel (.ok header) => some header
  | _ => none

/-- Verifying a chunk begins with its header. -/
def verify (c : Chunk) : Except LibraryError ℕ :=
  match c.messageType with
  | .openSecureChannel (.error e) => .error e
  | _ => c.verified

end Chunk

/-! ## The connection -/

/-- What a message may be at most. -/
structure Limits where
  maxRequestSize : ℕ
  maxRequestChunks : ℕ

/-- Largest OpenSecureChannel request before a channel exists. -/
def maxOpenSize : ℕ := 64 * 1024

/-- What an issued channel is to keep. -/
structure Security (Certificate : Type) where
  policy : SecurityPolicy
  mode : MessageSecurityMode
  certificate : Option Certificate
  deriving DecidableEq

/-- A request that is complete. -/
structure Request where
  message : Message
  securityHeader : Option AsymmetricHeader

/-- The channel of a client, and what it relays. -/
structure Downstream (Certificate : Type) where
  conn : RelayChannel
  /-- The certificate of the client. -/
  remoteCert : Option Certificate := none
  /-- The headers of the chunks of an unfinished message. -/
  pendingChunks : List (Option AsymmetricHeader) := []
  pendingBytes : ℕ := 0
  /-- With which security the channel was issued. -/
  issue : Option (Security Certificate) := none
  /-- Number of requests that were handled. -/
  handled : ℕ := 0

namespace RelayChannel

/-- The checks of an OpenSecureChannel pass, so that the channel is set up. -/
def admits (x : PolicyCrate) (target : EndpointTarget) (s : RelayChannel)
    (request : OpenSecureChannelRequest) (checks : OpenChecks) (discovery : Discovery) : Bool :=
  request.clientProtocolVersion = s.protocolVersion &&
    if request.renew then (s.checkRenew request checks).isOk
    else (s.checkIssue x target request checks discovery).2.isOk

end RelayChannel

namespace Downstream

variable {Certificate : Type} (x : ChannelCrate Certificate) (target : EndpointTarget)
  (limits : Limits)

/-- The policy, mode and certificate of the channel. -/
def security (s : Downstream Certificate) : Security Certificate :=
  ⟨s.conn.policy, s.conn.mode, s.remoteCert⟩

/-- No chunk is kept. -/
def clear (s : Downstream Certificate) : Downstream Certificate :=
  { s with pendingChunks := [], pendingBytes := 0 }

/-- A renewal must keep the issued channel's security policy and certificate. Checked before the
library sees the chunk. -/
def checkRenewal (s : Downstream Certificate) (c : Chunk) : Except LibraryError Unit :=
  match c.messageType, s.conn.binding with
  | .openSecureChannel header, some binding =>
    match header with
    | .error e => .error e
    | .ok header =>
      if header = binding then .ok () else .error ⟨.badSecurityChecksFailed, none, none⟩
  | _, _ => .ok ()

/-- The library reads a chunk: one that opens a channel switches it to its policy. -/
def read (s : Downstream Certificate) (c : Chunk) : Downstream Certificate :=
  match c.header with
  | some header =>
    if c.verify.isOk ∨ c.switched then
      { s with conn := { s.conn with policy := x.fromUri header.securityPolicyUri } }
    else s
  | none => s

/-- The chunk is one more of the message. -/
def push (s : Downstream Certificate) (c : Chunk) (size : ℕ) : Downstream Certificate :=
  { s with pendingChunks := s.pendingChunks ++ [c.header], pendingBytes := s.pendingBytes + size }

/-- The limit for the bytes of a message. -/
def sizeLimit (s : Downstream Certificate) : ℕ :=
  if s.conn.binding = none then maxOpenSize else limits.maxRequestSize

/-- The end of a message. -/
def finish (s : Downstream Certificate) (c : Chunk) : Except LibraryError (Option Request) :=
  match c.validated with
  | .error e => .error e
  | .ok () =>
    match c.decoded with
    | .error e => .error (e.withRequestId c.requestId)
    | .ok message => .ok (some ⟨message, s.pendingChunks.head?.join⟩)

/-- A chunk is checked, and kept or put together with the others. -/
def processChunk (s : Downstream Certificate) (c : Chunk) :
    Downstream Certificate × Except LibraryError (Option Request) :=
  if s.conn.binding = none ∧ ¬c.opens then (s, .error ⟨.badSecureChannelIdInvalid, none, none⟩)
  else
    match s.checkRenewal c with
    | .error e => (s, .error e)
    | .ok () =>
      if c.isFinal = .finalError then (s.clear, .ok none)
      else
        let s := s.read x c
        match c.verify with
        | .error e => (s, .error e)
        | .ok size =>
          if limits.maxRequestChunks ≤ s.pendingChunks.length then
            (s, .error ⟨.badDecodingError, none, none⟩)
          else if s.sizeLimit limits < s.pendingBytes + size then
            (s, .error ⟨.badDecodingError, none, none⟩)
          else
            match c.sequence with
            | .error e => (s, .error e)
            | .ok () =>
              let s := s.push c size
              if c.isFinal = .intermediate then (s, .ok none) else (s, s.finish c)

/-- One message of the client is processed. -/
def process (s : Downstream Certificate) :
    Frame → Downstream Certificate × Except LibraryError (Option Request)
  | .other => (s, .error ⟨.badUnexpectedError, none, none⟩)
  | .unreadable e => (s, .error e)
  | .chunk c => s.processChunk x limits c

/-! ## Requests -/

/-- A channel is issued or renewed, or this is refused. -/
def openSecureChannel (s : Downstream Certificate) (header : AsymmetricHeader)
    (request : OpenSecureChannelRequest) (trusted : Except StatusCode Unit)
    (discovery : Discovery) : Downstream Certificate :=
  let setup : Except StatusCode Unit :=
    match x.remoteCert header.senderCertificate with
    | .error status => .error status
    | .ok _ => x.nonceLength s.conn.policy request.clientNonce
  let checks : OpenChecks := ⟨trusted, setup⟩
  let conn := s.conn.openSecureChannel x.toPolicyCrate target header request checks discovery
  let remoteCert :=
    if s.conn.admits x.toPolicyCrate target request checks discovery then
      match x.remoteCert header.senderCertificate with
      | .error _ => s.remoteCert
      | .ok certificate => certificate
    else s.remoteCert
  { s with
    conn
    remoteCert
    issue :=
      if conn.issued ∧ ¬s.conn.issued then some ⟨conn.policy, conn.mode, remoteCert⟩ else s.issue }

/-- A request of a client. Nothing new is started on a connection that is going away. -/
def handle (s : Downstream Certificate) (request : Request) : Downstream Certificate :=
  if s.conn.closeReason.isSome then s
  else
    match request.message with
    | .openSecureChannel r trusted discovery =>
      let s := { s with handled := s.handled + 1 }
      match request.securityHeader with
      | none => { s with conn := s.conn.close "OpenSecureChannel without asymmetric header" }
      | some header => s.openSecureChannel x target header r trusted discovery
    | message =>
      if ¬s.conn.issued then { s with conn := s.conn.close "request before OpenSecureChannel" }
      else
        let s := { s with handled := s.handled + 1 }
        match message with
        | .closeSecureChannel =>
          { s with conn := s.conn.close "client closed the secure channel" }
        | .getEndpoints url discovery =>
          { s with conn := s.conn.getEndpoints x.toPolicyCrate target url discovery }
        | .relayed discovery connected =>
          { s with conn := s.conn.request x.toPolicyCrate target discovery connected }
        | .answered | .openSecureChannel .. => s

/-- An error is answered if the request is known, else it closes the connection. -/
def fail (s : Downstream Certificate) (e : LibraryError) : Downstream Certificate :=
  let s := s.clear
  match e.fullContext with
  | some _ => { s with conn := s.conn.respond (.fault e.status) }
  | none => { s with conn := s.conn.close ("transport error: " ++ x.statusText e.status) }

/-- A frame on a connection that is not going away. -/
def receive (s : Downstream Certificate) (frame : Frame) : Downstream Certificate :=
  match s.process x limits frame with
  | (s, .ok none) => s
  | (s, .ok (some request)) => s.clear.handle x target request
  | (s, .error e) => s.fail x e

/-- What happens on a connection. -/
inductive Op
  | frame (f : Frame)
  /-- A request future sends a request to the target. -/
  | send (ctx : ℕ)
  /-- A request future answers CreateSession. -/
  | answer (ctx : ℕ) (url : String)
  | upstreamClosed
  | close (reason : String)

/-- Once the connection is closing, nothing more is read. -/
def step (s : Downstream Certificate) : Op → Option (Downstream Certificate)
  | .frame f =>
    if s.conn.closeReason.isSome then none else some (s.receive x target limits f)
  | .send i => (s.conn.send i).map fun conn => { s with conn := conn }
  | .answer i url =>
    (s.conn.answer x.toPolicyCrate target i url).map fun conn => { s with conn := conn }
  | .upstreamClosed => some { s with conn := s.conn.upstreamClosed }
  | .close reason => some { s with conn := s.conn.close reason }

/-- A new connection, with the protocol version of its Hello. -/
def start (protocolVersion : ℕ) : Downstream Certificate where
  conn := .start protocolVersion

end Downstream

/-! ## The security of a channel -/

namespace RelayChannel

variable {x : PolicyCrate} {target : EndpointTarget} {s t u : RelayChannel}

/-- The issued channel and its security are the same. -/
structure Same (s t : RelayChannel) : Prop where
  policy : t.policy = s.policy
  mode : t.mode = s.mode
  issued : t.issued = s.issued
  binding : t.binding = s.binding

/-- Nothing has happened. -/
theorem Same.refl (s : RelayChannel) : Same s s := ⟨rfl, rfl, rfl, rfl⟩

/-- What stays the same twice stays the same. -/
theorem Same.trans (h : Same s t) (h' : Same t u) : Same s u :=
  ⟨h'.policy.trans h.policy, h'.mode.trans h.mode, h'.issued.trans h.issued,
    h'.binding.trans h.binding⟩

/-- An answer leaves the channel as it was. -/
theorem same_respond (s : RelayChannel) (o : Output) : Same s (s.respond o) := ⟨rfl, rfl, rfl, rfl⟩

/-- The end of the connection leaves the channel as it was. -/
theorem same_close (s : RelayChannel) (reason : String) : Same s (s.close reason) :=
  ⟨rfl, rfl, rfl, rfl⟩

/-- A refusal leaves the channel as it was. -/
theorem same_reject (s : RelayChannel) (status : StatusCode) (reason : String) :
    Same s (s.reject status reason) :=
  ⟨rfl, rfl, rfl, rfl⟩

/-- A discovery leaves the channel as it was. -/
theorem same_refresh (s : RelayChannel) (discovery : Discovery) :
    Same s (s.refreshUpstreamEndpoints x target discovery).1 := by
  obtain ⟨endpoints, heq⟩ := refresh_fst x target s discovery
  rw [heq]
  exact ⟨rfl, rfl, rfl, rfl⟩

/-- An answer to a discovery leaves the channel as it was. -/
theorem same_getEndpoints (s : RelayChannel) (url : String) (discovery : Discovery) :
    Same s (s.getEndpoints x target url discovery) :=
  (same_refresh s discovery).trans (same_respond _ _)

/-- A connection to the target leaves the channel as it was. -/
theorem same_ensureUpstream (s : RelayChannel) (discovery : Discovery) (connected : Bool) :
    Same s (s.ensureUpstream x target discovery connected).1 := by
  unfold ensureUpstream
  cases hupstream : s.upstream with
  | some upstream => exact .refl s
  | none =>
    have hrefresh : Same s (if s.upstreamEndpoints = [] then
        s.refreshUpstreamEndpoints x target discovery else (s, .ok ())).1 := by
      split_ifs
      · exact same_refresh s discovery
      · exact .refl s
    dsimp only
    generalize (if s.upstreamEndpoints = [] then s.refreshUpstreamEndpoints x target discovery
      else (s, .ok ())) = r at hrefresh ⊢
    obtain ⟨s₁, refreshed⟩ := r
    cases refreshed with
    | error status => exact hrefresh
    | ok _ =>
      dsimp only at hrefresh ⊢
      cases matchingUpstream x s₁.upstreamEndpoints s₁.policy s₁.mode with
      | none => exact hrefresh
      | some endpoint =>
        cases connected with
        | false => exact hrefresh
        | true => exact hrefresh.trans ⟨rfl, rfl, rfl, rfl⟩

/-- A request leaves the channel as it was. -/
theorem same_request (s : RelayChannel) (discovery : Discovery) (connected : Bool) :
    Same s (s.request x target discovery connected) := by
  have hensure : Same s (s.ensureUpstream x target discovery connected).1 :=
    same_ensureUpstream s discovery connected
  unfold request
  generalize s.ensureUpstream x target discovery connected = r at hensure ⊢
  obtain ⟨s₁, ensured⟩ := r
  cases ensured with
  | error status => exact hensure.trans (same_respond _ _)
  | ok e => exact hensure.trans ⟨rfl, rfl, rfl, rfl⟩

/-- An intent to send leaves the channel as it was. -/
theorem same_send {i : ℕ} (hs : s.send i = some t) : Same s t := by
  simp only [send, Option.bind_eq_bind, Option.bind_eq_some_iff] at hs
  obtain ⟨ctx, -, hs⟩ := hs
  cases hs
  exact same_respond s _

/-- An answer that is sent leaves the channel as it was. -/
theorem same_answer {i : ℕ} {url : String} (hs : s.answer x target i url = some t) : Same s t := by
  simp only [answer, Option.bind_eq_bind, Option.bind_eq_some_iff] at hs
  obtain ⟨ctx, -, hs⟩ := hs
  cases hs
  exact same_respond s _

/-- What an issue reads leaves the channel as it is. -/
theorem same_checkIssue (s : RelayChannel) (request : OpenSecureChannelRequest)
    (checks : OpenChecks) (discovery : Discovery) :
    Same s (s.checkIssue x target request checks discovery).1 := by
  unfold checkIssue
  split_ifs
  · exact .refl s
  · exact same_refresh s discovery
  · exact .refl s

/-- An issue is admitted only before the channel is issued. -/
theorem issued_of_checkIssue {request : OpenSecureChannelRequest} {checks : OpenChecks}
    {discovery : Discovery} (h : (s.checkIssue x target request checks discovery).2 = .ok ()) :
    s.issued = false := by
  unfold checkIssue at h
  by_contra hissued
  rw [if_pos (by simpa using hissued)] at h
  cases h

/-- What the set-up of a channel does, for an answer that changes neither policy nor mode. -/
theorem setUp_cases (s : RelayChannel) (request : OpenSecureChannelRequest) (checks : OpenChecks)
    (answer : RelayChannel → RelayChannel) :
    (∃ status, checks.setup = .error status ∧
      Same { s with mode := request.securityMode } (s.setUp request checks answer) ∧
      (s.setUp request checks answer).closeReason.isSome) ∨
    checks.setup = .ok () ∧ s.setUp request checks answer =
      answer { s with mode := request.securityMode, remoteNonce := request.clientNonce } := by
  unfold setUp
  cases hsetup : checks.setup with
  | error status => exact .inl ⟨status, rfl, same_reject _ _ _, rfl⟩
  | ok _ => exact .inr ⟨rfl, rfl⟩

/-- **What an OpenSecureChannel does**: it is rejected and closes the connection, it renews the
channel and keeps its security, or it issues the channel. -/
theorem openSecureChannel_cases (s : RelayChannel) (header : AsymmetricHeader)
    (request : OpenSecureChannelRequest) (checks : OpenChecks) (discovery : Discovery) :
    (s.admits x target request checks discovery = false ∧
      Same s (s.openSecureChannel x target header request checks discovery) ∧
      (s.openSecureChannel x target header request checks discovery).closeReason.isSome) ∨
    (s.admits x target request checks discovery = true ∧ s.issued = true ∧
      request.securityMode = s.mode ∧
      Same s (s.openSecureChannel x target header request checks discovery)) ∨
    (s.admits x target request checks discovery = true ∧ s.issued = false ∧
      (s.openSecureChannel x target header request checks discovery).policy = s.policy ∧
      ((checks.setup ≠ .ok () ∧
        (s.openSecureChannel x target header request checks discovery).issued = false ∧
        (s.openSecureChannel x target header request checks discovery).binding = s.binding) ∨
      (checks.setup = .ok () ∧
        (s.openSecureChannel x target header request checks discovery).issued = true ∧
        (s.openSecureChannel x target header request checks discovery).binding =
          some header))) := by
  unfold openSecureChannel admits
  by_cases hversion : request.clientProtocolVersion = s.protocolVersion
  · rw [if_neg (not_not.2 hversion), decide_eq_true hversion, Bool.true_and]
    by_cases hrenew : request.renew = true
    · rw [if_pos hrenew, if_pos hrenew]
      cases hcheck : s.checkRenew request checks with
      | error e => exact .inl ⟨rfl, same_reject _ _ _, rfl⟩
      | ok _ =>
        obtain ⟨hissued, hmode⟩ := checkRenew_eq_ok hcheck
        refine .inr (.inl ⟨rfl, hissued, hmode, ?_⟩)
        rcases setUp_cases s request checks (·.respond .renewed) with ⟨-, -, hsame, -⟩ | ⟨-, heq⟩
        · exact ⟨hsame.policy, hsame.mode.trans hmode, hsame.issued, hsame.binding⟩
        · dsimp only
          rw [heq]
          exact ⟨rfl, hmode, rfl, rfl⟩
    · rw [if_neg hrenew, if_neg hrenew]
      have hsame : Same s (s.checkIssue x target request checks discovery).1 :=
        same_checkIssue s request checks discovery
      have hissued : (s.checkIssue x target request checks discovery).2 = .ok () →
          s.issued = false := issued_of_checkIssue
      generalize s.checkIssue x target request checks discovery = r at hsame hissued ⊢
      obtain ⟨s₁, checked⟩ := r
      cases checked with
      | error e => exact .inl ⟨rfl, hsame.trans (same_reject _ _ _), rfl⟩
      | ok _ =>
        have hissued := hissued rfl
        refine .inr (.inr ⟨rfl, hissued, ?_⟩)
        rcases setUp_cases s₁ request checks fun s =>
            { s.respond (.issued s.policy s.mode (s.offeredNow x target)) with
              issued := true
              binding := some header } with ⟨status, hsetup, hset, -⟩ | ⟨hsetup, heq⟩
        · refine ⟨hset.policy.trans hsame.policy, .inl ⟨?_, ?_, hset.binding.trans hsame.binding⟩⟩
          · rw [hsetup]
            exact fun h => nomatch h
          · exact hset.issued.trans (hsame.issued.trans hissued)
        · dsimp only
          rw [heq]
          exact ⟨hsame.policy, .inr ⟨hsetup, rfl, rfl⟩⟩
  · rw [if_pos hversion, decide_eq_false hversion, Bool.false_and]
    exact .inl ⟨rfl, same_reject _ _ _, rfl⟩

end RelayChannel

namespace Downstream

variable {Certificate : Type} {x : ChannelCrate Certificate} {target : EndpointTarget}
  {limits : Limits} {s t : Downstream Certificate}

/-- The message that issues the channel names one policy in its first chunk and its last. -/
def Uniform (x : ChannelCrate Certificate) (s : Downstream Certificate) : Op → Prop
  | .frame (.chunk c) => s.conn.issued = false → c.isFinal = .final →
    ∀ request trusted discovery, c.decoded = .ok (.openSecureChannel request trusted discovery) →
      request.renew = false →
      ∀ first last, s.pendingChunks.head?.join = some first → c.header = some last →
        x.fromUri first.securityPolicyUri = x.fromUri last.securityPolicyUri
  | _ => True

/-- The channel has the security it was issued with, which is that of the header that renewals are
compared with, and so are the chunks of an unfinished message. -/
structure Inv (x : ChannelCrate Certificate) (target : EndpointTarget)
    (s : Downstream Certificate) : Prop where
  conn : s.conn.Inv x.toPolicyCrate target
  remoteCert : ∀ b, s.conn.binding = some b → x.remoteCert b.senderCertificate = .ok s.remoteCert
  issue : s.issue = if s.conn.issued then some s.security else none
  pending : ∀ b, s.conn.binding = some b → ∀ h ∈ s.pendingChunks, ∀ header, h = some header →
    header = b

/-- The invariant holds at the start. -/
theorem inv_start (protocolVersion : ℕ) : Inv x target (start protocolVersion) :=
  ⟨RelayChannel.inv_start protocolVersion, fun _ hb => (nomatch hb), rfl,
    fun _ _ _ hmem => (nomatch hmem)⟩

/-- It holds behind chunks that are no longer kept. -/
theorem inv_clear (h : Inv x target s) : Inv x target s.clear :=
  { h with pending := fun _ _ _ hmem => (nomatch hmem) }

/-- What leaves the channel as it is. -/
theorem inv_of_same (h : Inv x target s) {conn : RelayChannel}
    (hconn : conn.Inv x.toPolicyCrate target) (hsame : s.conn.Same conn) (handled : ℕ) :
    Inv x target { s with conn := conn, handled := handled } where
  conn := hconn
  remoteCert b hb := h.remoteCert b (hsame.binding.symm.trans hb)
  issue := by
    show s.issue = if conn.issued then some ⟨conn.policy, conn.mode, s.remoteCert⟩ else none
    rw [hsame.issued, hsame.policy, hsame.mode]
    exact h.issue
  pending b hb := h.pending b (hsame.binding.symm.trans hb)

/-- It holds behind the end of the connection. -/
theorem inv_close (h : Inv x target s) (reason : String) (handled : ℕ) :
    Inv x target { s with conn := s.conn.close reason, handled := handled } :=
  inv_of_same h (RelayChannel.inv_close h.conn reason) (RelayChannel.same_close _ _) handled

/-! ## Chunks -/

/-- What reading a chunk leaves, once a channel is issued. -/
structure Read (s t : Downstream Certificate) : Prop where
  conn : t.conn = { s.conn with policy := t.conn.policy }
  policy : s.conn.issued = true → t.conn.policy = s.conn.policy
  remoteCert : t.remoteCert = s.remoteCert
  issue : t.issue = s.issue
  handled : t.handled = s.handled

/-- Nothing was read. -/
theorem Read.refl (s : Downstream Certificate) : Read s s := ⟨rfl, fun _ => rfl, rfl, rfl, rfl⟩

/-- A chunk that is read does not issue the channel. -/
theorem Read.issued (h : Read s t) : t.conn.issued = s.conn.issued := by
  rw [h.conn]

/-- A chunk that is read does not change what the channel is bound to. -/
theorem Read.binding (h : Read s t) : t.conn.binding = s.conn.binding := by
  rw [h.conn]

/-- A chunk that is read does not change the mode. -/
theorem Read.mode (h : Read s t) : t.conn.mode = s.conn.mode := by
  rw [h.conn]

/-- A chunk that is read does not end the connection. -/
theorem Read.closeReason (h : Read s t) : t.conn.closeReason = s.conn.closeReason := by
  rw [h.conn]

/-- A chunk that is not closed for its header names what the channel was issued with. -/
theorem header_eq_of_checkRenewal {c : Chunk} (h : s.checkRenewal c = .ok ()) {b : AsymmetricHeader}
    (hb : s.conn.binding = some b) {header : AsymmetricHeader} (hheader : c.header = some header) :
    header = b := by
  unfold checkRenewal at h
  unfold Chunk.header at hheader
  cases hc : c.messageType with
  | openSecureChannel read =>
    rw [hc, hb] at h
    rw [hc] at hheader
    cases read with
    | error e => cases hheader
    | ok found =>
      obtain rfl : found = header := Option.some.inj hheader
      by_contra hne
      dsimp only at h
      rw [if_neg hne] at h
      cases h
  | message =>
    rw [hc] at hheader
    cases hheader
  | closeSecureChannel =>
    rw [hc] at hheader
    cases hheader

/-- Reading a chunk that passed the check switches an issued channel to the policy it has. -/
theorem read_spec (h : Inv x target s) {c : Chunk} (hcheck : s.checkRenewal c = .ok ()) :
    Read s (s.read x c) ∧ (s.read x c).pendingChunks = s.pendingChunks ∧
      (c.verify.isOk → ∀ header, c.header = some header →
        (s.read x c).conn.policy = x.fromUri header.securityPolicyUri) := by
  unfold read
  cases hheader : c.header with
  | none => exact ⟨.refl s, rfl, fun _ _ hh => (nomatch hh)⟩
  | some header =>
    dsimp only
    split_ifs with hverify
    · refine ⟨⟨rfl, fun hissued => ?_, rfl, rfl, rfl⟩, rfl, fun _ _ hh => ?_⟩
      · obtain ⟨b, hb⟩ := Option.isSome_iff_exists.1 (h.conn.issued.symm.trans hissued)
        obtain rfl := header_eq_of_checkRenewal hcheck hb hheader
        exact h.conn.binding header hb
      · obtain rfl := Option.some.inj hh
        rfl
    · exact ⟨.refl s, rfl, fun hok => absurd (.inl hok) hverify⟩

/-- A verified chunk that opens a channel has a header. -/
theorem header_isSome {c : Chunk} (hopens : c.opens) (hverify : c.verify.isOk) :
    c.header.isSome := by
  unfold Chunk.opens at hopens
  unfold Chunk.verify at hverify
  unfold Chunk.header
  cases hc : c.messageType with
  | openSecureChannel read =>
    cases read with
    | error e =>
      rw [hc] at hverify
      cases hverify
    | ok header => rfl
  | message =>
    rw [hc] at hopens
    cases hopens
  | closeSecureChannel =>
    rw [hc] at hopens
    cases hopens

/-- Only chunks that name what the channel was issued with become part of a message. -/
theorem pending_push (h : Inv x target s) {c : Chunk} (hcheck : s.checkRenewal c = .ok ())
    {b : AsymmetricHeader} (hb : s.conn.binding = some b) :
    ∀ h' ∈ s.pendingChunks ++ [c.header], ∀ header, h' = some header → header = b := by
  intro h' hmem header hh'
  rcases List.mem_append.1 hmem with hmem | hmem
  · exact h.pending b hb h' hmem header hh'
  · obtain rfl := List.mem_singleton.1 hmem
    exact header_eq_of_checkRenewal hcheck hb hh'

/-- What completes a message. -/
structure Completes (x : ChannelCrate Certificate) (s t : Downstream Certificate) (c : Chunk)
    (request : Request) : Prop where
  isFinal : c.isFinal = .final
  decoded : c.decoded = .ok request.message
  securityHeader : request.securityHeader = (s.pendingChunks ++ [c.header]).head?.join
  policy : ∀ header, c.header = some header →
    t.conn.policy = x.fromUri header.securityPolicyUri
  header : s.conn.binding = none → c.header.isSome
  pending : ∀ b, s.conn.binding = some b → ∀ h' ∈ s.pendingChunks ++ [c.header],
    ∀ header, h' = some header → header = b

/-- A request is complete with the security header of its first chunk. -/
theorem finish_eq_ok {c : Chunk} {request : Request}
    (h : s.finish c = .ok (some request)) :
    c.decoded = .ok request.message ∧ request.securityHeader = s.pendingChunks.head?.join := by
  unfold finish at h
  cases hvalidated : c.validated with
  | error e =>
    rw [hvalidated] at h
    cases h
  | ok _ =>
    rw [hvalidated] at h
    cases hdecoded : c.decoded with
    | error e =>
      rw [hdecoded] at h
      cases h
    | ok message =>
      rw [hdecoded] at h
      obtain rfl := Option.some.inj (Except.ok.inj h)
      exact ⟨rfl, rfl⟩

/-- **What is done with a chunk**: nothing of an issued channel changes, and no chunk becomes part
of a message that names anything but what the channel was issued with. -/
theorem processChunk_spec (h : Inv x target s) (c : Chunk) :
    Read s (s.processChunk x limits c).1 ∧
      (∀ b, s.conn.binding = some b → ∀ h' ∈ (s.processChunk x limits c).1.pendingChunks,
        ∀ header, h' = some header → header = b) ∧
      ∀ request, (s.processChunk x limits c).2 = .ok (some request) →
        Completes x s (s.processChunk x limits c).1 c request := by
  unfold processChunk
  by_cases hopen : s.conn.binding = none ∧ ¬c.opens
  · rw [if_pos hopen]
    exact ⟨.refl s, h.pending, fun _ hr => (nomatch hr)⟩
  rw [if_neg hopen]
  cases hcheck : s.checkRenewal c with
  | error e => exact ⟨.refl s, h.pending, fun _ hr => (nomatch hr)⟩
  | ok _ =>
    dsimp only
    by_cases habort : c.isFinal = .finalError
    · rw [if_pos habort]
      exact ⟨⟨rfl, fun _ => rfl, rfl, rfl, rfl⟩, fun _ _ _ hmem => (nomatch hmem),
        fun _ hr => (nomatch hr)⟩
    rw [if_neg habort]
    obtain ⟨hread, hpending, hpolicy⟩ := read_spec h hcheck
    have hkeep : ∀ b, s.conn.binding = some b → ∀ h' ∈ (s.read x c).pendingChunks,
        ∀ header, h' = some header → header = b := by
      rw [hpending]
      exact h.pending
    cases hverify : c.verify with
    | error e => exact ⟨hread, hkeep, fun _ hr => (nomatch hr)⟩
    | ok size =>
      dsimp only
      by_cases hcount : limits.maxRequestChunks ≤ (s.read x c).pendingChunks.length
      · rw [if_pos hcount]
        exact ⟨hread, hkeep, fun _ hr => (nomatch hr)⟩
      rw [if_neg hcount]
      by_cases hsize : (s.read x c).sizeLimit limits < (s.read x c).pendingBytes + size
      · rw [if_pos hsize]
        exact ⟨hread, hkeep, fun _ hr => (nomatch hr)⟩
      rw [if_neg hsize]
      cases c.sequence with
      | error e => exact ⟨hread, hkeep, fun _ hr => (nomatch hr)⟩
      | ok _ =>
        have hpush : ((s.read x c).push c size).pendingChunks = s.pendingChunks ++ [c.header] := by
          rw [← hpending]
          rfl
        have hread' : Read s ((s.read x c).push c size) :=
          ⟨hread.conn, hread.policy, hread.remoteCert, hread.issue, hread.handled⟩
        have hkeep' : ∀ b, s.conn.binding = some b →
            ∀ h' ∈ ((s.read x c).push c size).pendingChunks,
              ∀ header, h' = some header → header = b := by
          rw [hpush]
          exact fun b hb => pending_push h hcheck hb
        dsimp only
        split_ifs with hlast
        · exact ⟨hread', hkeep', fun _ hr => (nomatch hr)⟩
        · refine ⟨hread', hkeep', fun request hr => ?_⟩
          obtain ⟨hdecoded, hheader⟩ := finish_eq_ok hr
          have hok : c.verify.isOk := by
            rw [hverify]
            rfl
          refine ⟨?_, hdecoded, hpush ▸ hheader, hpolicy hok, fun hnone => ?_,
            fun b hb => pending_push h hcheck hb⟩
          · cases hfinal : c.isFinal with
            | intermediate => exact absurd hfinal hlast
            | final => rfl
            | finalError => exact absurd hfinal habort
          · refine header_isSome ?_ hok
            by_contra hnot
            exact hopen ⟨hnone, hnot⟩

/-- The invariant behind a chunk that is read. -/
theorem inv_read (h : Inv x target s) (hread : Read s t)
    (hpending : ∀ b, s.conn.binding = some b → ∀ h' ∈ t.pendingChunks,
      ∀ header, h' = some header → header = b) : Inv x target t where
  conn := by
    rw [hread.conn]
    exact RelayChannel.inv_policy h.conn hread.policy
  remoteCert b hb := by
    rw [hread.remoteCert]
    exact h.remoteCert b (hread.binding.symm.trans hb)
  issue := by
    rw [hread.issue, hread.issued, h.issue]
    split_ifs with hissued
    · rw [security, security, hread.policy hissued, hread.mode, hread.remoteCert]
    · rfl
  pending b hb := hpending b (hread.binding.symm.trans hb)

/-! ## Requests -/

/-- An OpenSecureChannel issues the channel with the policy of its header, or leaves the security
of the channel as it is. -/
theorem inv_openSecureChannel (h : Inv x target s) {header : AsymmetricHeader}
    {request : OpenSecureChannelRequest} (trusted : Except StatusCode Unit) (discovery : Discovery)
    (hclear : s.pendingChunks = []) (hbound : ∀ b, s.conn.binding = some b → header = b)
    (hpolicy : s.conn.issued = false → request.renew = false →
      x.fromUri header.securityPolicyUri = s.conn.policy) :
    Inv x target (s.openSecureChannel x target header request trusted discovery) := by
  have hpolicy' : request.renew = false → x.fromUri header.securityPolicyUri = s.conn.policy := by
    intro hrenew
    cases hissued : s.conn.issued with
    | false => exact hpolicy hissued hrenew
    | true =>
      obtain ⟨b, hb⟩ := Option.isSome_iff_exists.1 (h.conn.issued.symm.trans hissued)
      exact hbound b hb ▸ h.conn.binding b hb
  unfold openSecureChannel
  generalize hsetup : (match x.remoteCert header.senderCertificate with
    | .error status => .error status
    | .ok _ => x.nonceLength s.conn.policy request.clientNonce : Except StatusCode Unit) = setup
  have hconn := RelayChannel.inv_openSecureChannel h.conn header request hpolicy'
    ⟨trusted, setup⟩ discovery
  have hcases := @RelayChannel.openSecureChannel_cases x.toPolicyCrate target
    s.conn header request ⟨trusted, setup⟩ discovery
  dsimp only
  generalize s.conn.openSecureChannel x.toPolicyCrate target header request ⟨trusted, setup⟩
    discovery = conn at hconn hcases ⊢
  rcases hcases with ⟨hadmits, hsame, -⟩ | ⟨hadmits, hissued, -, hsame⟩ |
    ⟨hadmits, hissued, -, ⟨-, hnot, hbinding⟩ | ⟨hok, hnow, hbinding⟩⟩
  · -- rejected
    have hold : ¬(conn.issued = true ∧ ¬s.conn.issued = true) := by simp [hsame.issued]
    rw [hadmits, if_neg Bool.false_ne_true, if_neg hold]
    exact inv_of_same h hconn hsame s.handled
  · -- renewed, with the certificate that the channel has
    obtain ⟨b, hb⟩ := Option.isSome_iff_exists.1 (h.conn.issued.symm.trans hissued)
    have hold : ¬(conn.issued = true ∧ ¬s.conn.issued = true) := by simp [hissued]
    rw [hadmits, if_pos rfl, hbound b hb, h.remoteCert b hb, if_neg hold]
    exact inv_of_same h hconn hsame s.handled
  · -- set up in part only, and closed
    have hnone : s.conn.binding = none := by
      have := h.conn.issued
      rw [hissued] at this
      simpa using this.symm
    have hold : ¬(conn.issued = true ∧ ¬s.conn.issued = true) := by simp [hnot]
    refine ⟨hconn, fun b hb => (nomatch hnone.symm.trans (hbinding.symm.trans hb)), ?_,
      fun b hb => (nomatch hnone.symm.trans (hbinding.symm.trans hb))⟩
    rw [if_neg hold, h.issue, hissued, hnot]
    rfl
  · -- issued
    cases hcert : x.remoteCert header.senderCertificate with
    | error status =>
      rw [hcert] at hsetup
      exact nomatch hsetup.trans hok
    | ok certificate =>
      rw [hadmits, if_pos rfl]
      refine ⟨hconn, fun b hb => ?_, ?_, fun b hb h' hmem header' hh' => ?_⟩
      · obtain rfl := Option.some.inj (hbinding.symm.trans hb)
        exact hcert
      · rw [if_pos ⟨hnow, by simp [hissued]⟩, hnow]
        rfl
      · rw [show s.pendingChunks = [] from hclear] at hmem
        cases hmem

/-- A whole message is handled after its chunks were read. -/
theorem inv_handle (h : Inv x target s) {request : Request} (hclear : s.pendingChunks = [])
    (hbound : ∀ b header, s.conn.binding = some b → request.securityHeader = some header →
      header = b)
    (hpolicy : s.conn.issued = false → ∀ r trusted discovery header,
      request.message = .openSecureChannel r trusted discovery → r.renew = false →
      request.securityHeader = some header →
      x.fromUri header.securityPolicyUri = s.conn.policy) :
    Inv x target (s.handle x target request) := by
  unfold handle
  by_cases hclose : s.conn.closeReason.isSome = true
  · rw [if_pos hclose]
    exact h
  rw [if_neg hclose]
  have hcounted : Inv x target { s with handled := s.handled + 1 } := { h with }
  cases hmessage : request.message with
  | openSecureChannel r trusted discovery =>
    cases hheader : request.securityHeader with
    | none => exact inv_close h _ _
    | some header =>
      exact inv_openSecureChannel hcounted trusted discovery hclear
        (fun b hb => hbound b header hb hheader)
        fun hissued hrenew => hpolicy hissued r trusted discovery header hmessage hrenew hheader
  | closeSecureChannel =>
    dsimp only
    split_ifs with hissued
    · exact inv_close h _ _
    · exact inv_close h _ _
  | getEndpoints url discovery =>
    dsimp only
    split_ifs with hissued
    · exact inv_of_same h (RelayChannel.inv_getEndpoints h.conn url discovery)
        (RelayChannel.same_getEndpoints _ url discovery) _
    · exact inv_close h _ _
  | answered =>
    dsimp only
    split_ifs with hissued
    · exact hcounted
    · exact inv_close h _ _
  | relayed discovery connected =>
    dsimp only
    split_ifs with hissued
    · exact inv_of_same h (RelayChannel.inv_request h.conn hissued discovery connected)
        (RelayChannel.same_request _ discovery connected) _
    · exact inv_close h _ _

/-- The invariant behind one that cannot be. -/
theorem inv_fail (h : Inv x target s) (e : LibraryError) : Inv x target (s.fail x e) := by
  unfold fail
  dsimp only
  cases e.fullContext with
  | some _ =>
    exact inv_of_same (inv_clear h) (RelayChannel.inv_respond h.conn (o := .fault _) trivial)
      (RelayChannel.same_respond _ _) _
  | none => exact inv_close (inv_clear h) _ _

/-- The header of a whole message is the one that the channel has, or was issued with. -/
theorem header_of_completes (h : Inv x target s) {c : Chunk} {request : Request}
    (hread : Read s t) (hdone : Completes x s t c request)
    (huniform : Uniform x s (.frame (.chunk c))) {header : AsymmetricHeader}
    (hheader : request.securityHeader = some header) :
    (∀ b, t.conn.binding = some b → header = b) ∧
      (t.conn.issued = false → ∀ r trusted discovery,
        request.message = .openSecureChannel r trusted discovery → r.renew = false →
        x.fromUri header.securityPolicyUri = t.conn.policy) := by
  rw [hdone.securityHeader] at hheader
  refine ⟨fun b hb => ?_, fun hissued r trusted discovery hmessage hrenew => ?_⟩
  · refine hdone.pending b (hread.binding.symm.trans hb) (some header) ?_ header rfl
    exact List.mem_of_mem_head? (Option.join_eq_some_iff.1 hheader)
  · rw [hread.issued] at hissued
    have hnone : s.conn.binding = none := by
      have := h.conn.issued
      rw [hissued] at this
      simpa using this.symm
    obtain ⟨last, hlast⟩ := Option.isSome_iff_exists.1 (hdone.header hnone)
    rw [hdone.policy last hlast]
    cases hchunks : s.pendingChunks with
    | nil =>
      rw [hchunks, hlast] at hheader
      obtain rfl : last = header := Option.some.inj hheader
      rfl
    | cons first rest =>
      refine huniform hissued hdone.isFinal r trusted discovery (hmessage ▸ hdone.decoded) hrenew
        header last ?_ hlast
      rw [hchunks] at hheader ⊢
      exact hheader

/-- **What a frame keeps**, if a message that issues the channel names one policy. -/
theorem inv_receive (h : Inv x target s) (frame : Frame) (huniform : Uniform x s (.frame frame)) :
    Inv x target (s.receive x target limits frame) := by
  unfold receive
  cases frame with
  | other => exact inv_fail h _
  | unreadable e => exact inv_fail h e
  | chunk c =>
    obtain ⟨hread, hpending, hcompletes⟩ := @processChunk_spec _ x target limits s h c
    have hinv := inv_read h hread hpending
    rw [process]
    cases hprocess : s.processChunk x limits c with
    | mk t result =>
      rw [hprocess] at hread hpending hcompletes hinv
      cases result with
      | error e => exact inv_fail hinv e
      | ok answer =>
        cases answer with
        | none => exact hinv
        | some request =>
          have hdone := hcompletes request rfl
          refine inv_handle (inv_clear hinv) rfl (fun b header hb hheader => ?_)
            fun hissued r trusted discovery header hmessage hrenew hheader => ?_
          · exact (header_of_completes h hread hdone huniform hheader).1 b hb
          · exact (header_of_completes h hread hdone huniform hheader).2 hissued r trusted discovery
              hmessage hrenew

/-- Every step with uniform messages keeps the invariant. -/
theorem inv_step {op : Op} (h : Inv x target s) (huniform : Uniform x s op)
    (hs : step x target limits s op = some t) : Inv x target t := by
  cases op with
  | frame f =>
    unfold step at hs
    split_ifs at hs
    cases hs
    exact inv_receive h f huniform
  | send i =>
    obtain ⟨conn, hconn, rfl⟩ := Option.map_eq_some_iff.1 hs
    exact inv_of_same h (RelayChannel.inv_send h.conn hconn) (RelayChannel.same_send hconn) _
  | answer i url =>
    obtain ⟨conn, hconn, rfl⟩ := Option.map_eq_some_iff.1 hs
    exact inv_of_same h (RelayChannel.inv_answer h.conn hconn) (RelayChannel.same_answer hconn) _
  | upstreamClosed =>
    cases hs
    exact inv_of_same h (RelayChannel.inv_upstreamClosed h.conn) ⟨rfl, rfl, rfl, rfl⟩ _
  | close reason =>
    cases hs
    exact inv_close h reason _

/-! ## Issued channels -/

/-- A chunk that names another policy or certificate than the channel has. -/
def NamesOther (x : ChannelCrate Certificate) (s : Downstream Certificate) (f : Frame) : Prop :=
  ∃ c header, f = .chunk c ∧ c.header = some header ∧
    (x.fromUri header.securityPolicyUri ≠ s.conn.policy ∨
      x.remoteCert header.senderCertificate ≠ .ok s.remoteCert)

/-- The end of an OpenSecureChannel that asks for another mode than the channel has. -/
def AsksOther (x : ChannelCrate Certificate) (limits : Limits) (s : Downstream Certificate)
    (f : Frame) : Prop :=
  ∃ request r trusted discovery, (s.process x limits f).2 = .ok (some request) ∧
    request.message = .openSecureChannel r trusted discovery ∧ r.securityMode ≠ s.conn.mode

/-- A chunk that names another policy or certificate is not read. -/
theorem receive_namesOther (h : Inv x target s) (hissued : s.conn.issued = true) {f : Frame}
    (hf : s.NamesOther x f) : (s.receive x target limits f).conn.closeReason.isSome ∧
      (s.receive x target limits f).handled = s.handled := by
  obtain ⟨c, header, rfl, hheader, hother⟩ := hf
  obtain ⟨b, hb⟩ := Option.isSome_iff_exists.1 (h.conn.issued.symm.trans hissued)
  have hne : header ≠ b := by
    rintro rfl
    rcases hother with hpolicy | hcert
    · exact hpolicy (h.conn.binding header hb)
    · exact hcert (h.remoteCert header hb)
  have hcheck : s.checkRenewal c = .error ⟨.badSecurityChecksFailed, none, none⟩ := by
    unfold Chunk.header at hheader
    unfold checkRenewal
    cases hc : c.messageType with
    | openSecureChannel read =>
      rw [hc] at hheader
      cases read with
      | error e => cases hheader
      | ok found =>
        obtain rfl : found = header := Option.some.inj hheader
        rw [hb]
        exact if_neg hne
    | message =>
      rw [hc] at hheader
      cases hheader
    | closeSecureChannel =>
      rw [hc] at hheader
      cases hheader
  have hprocess : s.process x limits (.chunk c) =
      (s, .error ⟨.badSecurityChecksFailed, none, none⟩) := by
    rw [process, processChunk, if_neg (by simp [hb]), hcheck]
  rw [receive, hprocess]
  exact ⟨rfl, rfl⟩

/-- A renewal with another mode closes the connection, and so does a second issue. -/
theorem receive_asksOther (h : Inv x target s) (hissued : s.conn.issued = true) {f : Frame}
    (hf : s.AsksOther x limits f) (hopen : s.conn.closeReason.isSome = false) :
    (s.receive x target limits f).conn.closeReason.isSome := by
  obtain ⟨request, r, trusted, discovery, hresult, hmessage, hmode⟩ := hf
  cases f with
  | other => cases hresult
  | unreadable e => cases hresult
  | chunk c =>
    obtain ⟨hread, -, -⟩ := @processChunk_spec _ x target limits s h c
    rw [receive]
    rw [process] at hresult ⊢
    cases hprocess : s.processChunk x limits c with
    | mk t result =>
      rw [hprocess] at hresult hread
      obtain rfl : result = .ok (some request) := hresult
      have hclose : ¬t.clear.conn.closeReason.isSome = true := by
        have hsame : t.clear.conn.closeReason = s.conn.closeReason := hread.closeReason
        rw [hsame, hopen]
        exact Bool.false_ne_true
      dsimp only
      rw [handle, if_neg hclose, hmessage]
      cases request.securityHeader with
      | none => rfl
      | some header =>
        dsimp only
        unfold openSecureChannel
        generalize (match x.remoteCert header.senderCertificate with
          | .error status => .error status
          | .ok _ => x.nonceLength t.clear.conn.policy r.clientNonce : Except StatusCode Unit) =
            setup
        rcases @RelayChannel.openSecureChannel_cases x.toPolicyCrate target
          t.clear.conn header r ⟨trusted, setup⟩ discovery with ⟨-, -, hclosed⟩ |
            ⟨-, -, hsame, -⟩ | ⟨-, hnot, -⟩
        · exact hclosed
        · exact absurd (hsame.trans hread.mode) hmode
        · exact nomatch (hread.issued.trans hissued).symm.trans hnot

/-- Nothing is handled on a connection that is going away. -/
theorem handled_of_closed (hclose : s.conn.closeReason.isSome) {ops : List Op}
    (hr : Machine.run (step x target limits) s ops = some t) : t.handled = s.handled := by
  refine (Machine.run_invariant (I := fun t : Downstream Certificate =>
    t.conn.closeReason.isSome ∧ t.handled = s.handled) ?_ ⟨hclose, rfl⟩ hr).2
  rintro u op v ⟨hu, hhandled⟩ hstep
  cases op with
  | frame f =>
    rw [step, if_pos hu] at hstep
    cases hstep
  | send i =>
    obtain ⟨conn, hconn, rfl⟩ := Option.map_eq_some_iff.1 hstep
    simp only [RelayChannel.send, Option.bind_eq_bind, Option.bind_eq_some_iff] at hconn
    obtain ⟨ctx, -, hconn⟩ := hconn
    cases hconn
    exact ⟨hu, hhandled⟩
  | answer i url =>
    obtain ⟨conn, hconn, rfl⟩ := Option.map_eq_some_iff.1 hstep
    simp only [RelayChannel.answer, Option.bind_eq_bind, Option.bind_eq_some_iff] at hconn
    obtain ⟨ctx, -, hconn⟩ := hconn
    cases hconn
    exact ⟨hu, hhandled⟩
  | upstreamClosed =>
    cases hstep
    exact ⟨rfl, hhandled⟩
  | close reason =>
    cases hstep
    exact ⟨rfl, hhandled⟩

/-- What every run keeps whose issue names one policy. -/
theorem inv_of_run {protocolVersion : ℕ} {ops : List Op}
    (huniform : Machine.Meets (step x target limits) (Uniform x) (start protocolVersion) ops)
    (hr : Machine.run (step x target limits) (start protocolVersion) ops = some t) :
    Inv x target t :=
  Machine.run_invariant_of_meets (I := Inv x target) (fun _ _ _ h hu hs => inv_step h hu hs)
    (inv_start protocolVersion) huniform hr

/-- **The security of an issued channel**: in every run in which a message that issues a channel
names one policy, the channel keeps the policy, mode and certificate it was issued with. A chunk
that names another policy or certificate, and a message that asks for another mode, close the
connection, and no request is handled after it. -/
theorem keeps_of_run {protocolVersion : ℕ} {ops : List Op}
    (huniform : Machine.Meets (step x target limits) (Uniform x) (start protocolVersion) ops)
    (hr : Machine.run (step x target limits) (start protocolVersion) ops = some t) :
    ∀ k, t.issue = some k → t.security = k ∧
      ∀ f u, step x target limits t (.frame f) = some u →
        t.NamesOther x f ∨ t.AsksOther x limits f →
        u.conn.closeReason.isSome ∧ (t.NamesOther x f → u.handled = t.handled) ∧
          ∀ ops' v, Machine.run (step x target limits) u ops' = some v →
            v.handled = u.handled := by
  intro k hk
  have hinv := inv_of_run huniform hr
  have hissue := hinv.issue
  have hissued : t.conn.issued = true := by
    by_contra hnot
    rw [if_neg hnot, hk] at hissue
    cases hissue
  rw [if_pos hissued, hk] at hissue
  refine ⟨(Option.some.inj hissue).symm, fun f u hs hf => ?_⟩
  unfold step at hs
  split_ifs at hs with hopen
  obtain rfl := Option.some.inj hs
  have hclosed : (t.receive x target limits f).conn.closeReason.isSome := by
    rcases hf with hf | hf
    · exact (receive_namesOther hinv hissued hf).1
    · exact receive_asksOther hinv hissued hf (by simpa using hopen)
  exact ⟨hclosed, fun hf => (receive_namesOther hinv hissued hf).2,
    fun _ _ hv => handled_of_closed hclosed hv⟩

/-- **The security floor of a target**, in every run in which a message that issues a channel names
one policy: nothing is forwarded over an endpoint below the floor or of another policy or mode than
the channel, no endpoint below the floor is offered, and a policy other than None is issued only if
it is offered with the mode. -/
theorem safe_of_run {protocolVersion : ℕ} {ops : List Op}
    (huniform : Machine.Meets (step x target limits) (Uniform x) (start protocolVersion) ops)
    (hr : Machine.run (step x target limits) (start protocolVersion) ops = some t) :
    ∀ o ∈ t.conn.outputs, o.Safe x.toPolicyCrate target.minSecurity :=
  (inv_of_run huniform hr).conn.outputs

/-- A library with one policy besides None, under short names. -/
def twoPolicies : ChannelCrate (List UInt8) where
  fromUri uri := if uri = "None" then .none else if uri = "Basic256Sha256" then .basic256Sha256
    else .unknown
  isSupported _ := true
  remoteCert bytes := .ok (bytes.filter (· ≠ []))
  nonceLength _ _ := .ok ()
  statusText _ := "BadSecurityChecksFailed"

/-- A target that offers both policies, of which only the one with encryption is wanted. -/
def encryptedTarget : EndpointTarget where
  minSecurity := .signAndEncrypt
  gateway := { certificateBytes := [1], applicationUri := "urn:gateway", serverName := "Gateway" }

/-- An endpoint with a mode and a policy. -/
def endpointOf (mode : MessageSecurityMode) (uri : String) : EndpointDescription where
  endpointUrl := "opc.tcp://plc"
  server := { applicationUri := "urn:plc", productUri := "", applicationName := "plc"
              discoveryUrls := none }
  serverCertificate := [2]
  securityMode := mode
  securityPolicyUri := uri
  userIdentityTokens := none
  transportProfileUri := ""
  securityLevel := 0

/-- The target offers an endpoint with and one without encryption. -/
def bothOffered : Discovery :=
  ⟨[endpointOf .none "None", endpointOf .signAndEncrypt "Basic256Sha256"], .ok []⟩

/-- The limits that are usual. -/
def usualLimits : Limits := ⟨8 * 1024 * 1024, 1024⟩

/-- A chunk of an OpenSecureChannel that encrypts, with a header of any policy. -/
def opening (uri : String) (isFinal : IsFinal) (renew : Bool) (nonce : UInt8) : Op :=
  .frame (.chunk {
    messageType := .openSecureChannel (.ok ⟨uri, some [3]⟩)
    isFinal := isFinal
    verified := .ok 1000
    requestId := 1
    decoded := .ok (.openSecureChannel ⟨0, renew, .signAndEncrypt, [nonce]⟩ (.ok ()) bothOffered) })

/-- A message of one chunk. -/
def whole (message : Message) : Op :=
  .frame (.chunk {
    messageType := .message
    isFinal := .final
    verified := .ok 1000
    requestId := 2
    decoded := .ok message })

/-- A client opens a channel that encrypts, asks for the endpoints, sends a request, and renews. -/
def encryptedRun : List Op :=
  [opening "Basic256Sha256" .final false 4, whole (.getEndpoints "opc.tcp://gateway" bothOffered),
    whole (.relayed bothOffered true), .send 0, opening "Basic256Sha256" .final true 5]

/-- The messages of the run are uniform. -/
theorem uniform_encryptedRun : Machine.Meets (step twoPolicies encryptedTarget usualLimits)
    (Uniform twoPolicies) (start 0) encryptedRun := by
  refine Machine.meets_cons_of_eq _ ?_ rfl (Machine.meets_cons_of_eq _ ?_ rfl
    (Machine.meets_cons_of_eq _ ?_ rfl (Machine.meets_cons_of_eq _ trivial rfl
      (Machine.meets_cons_of_eq _ ?_ rfl trivial))))
  · exact fun _ _ _ _ _ _ _ _ _ hfirst => nomatch hfirst
  · exact fun hissued => nomatch hissued
  · exact fun hissued => nomatch hissued
  · exact fun hissued => nomatch hissued

/-- The channel is issued with encryption, and its requests are answered. -/
theorem run_encryptedRun : (Machine.run (step twoPolicies encryptedTarget usualLimits) (start 0)
      encryptedRun).map (fun t => (t.issue, t.conn.outputs.length)) =
    some (some ⟨.basic256Sha256, .signAndEncrypt, some [3]⟩, 4) := by
  decide +kernel

/-- The channel of the run keeps its security. -/
theorem keeps_of_run_encryptedRun : ∃ t,
    Machine.run (step twoPolicies encryptedTarget usualLimits) (start 0) encryptedRun = some t ∧
      t.security = ⟨.basic256Sha256, .signAndEncrypt, some [3]⟩ := by
  obtain ⟨t, ht, hview⟩ := Option.map_eq_some_iff.1 run_encryptedRun
  exact ⟨t, ht, (keeps_of_run uniform_encryptedRun ht _ (Prod.mk.inj hview).1).1⟩

/-- Everything that the run answers is safe. -/
theorem safe_of_run_encryptedRun : ∃ t,
    Machine.run (step twoPolicies encryptedTarget usualLimits) (start 0) encryptedRun = some t ∧
      t.conn.outputs.length = 4 ∧
      ∀ o ∈ t.conn.outputs, o.Safe twoPolicies.toPolicyCrate .signAndEncrypt := by
  obtain ⟨t, ht, hview⟩ := Option.map_eq_some_iff.1 run_encryptedRun
  exact ⟨t, ht, (Prod.mk.inj hview).2, safe_of_run uniform_encryptedRun ht⟩

/-- A client names None in the first chunk of the message that issues its channel, renews the
channel with None, and sends a request after it. -/
def mixedRun : List Op :=
  [opening "None" .intermediate false 4, opening "Basic256Sha256" .final false 4,
    whole (.relayed bothOffered true), .send 0, opening "None" .final true 5,
    whole (.relayed bothOffered true), .send 1]

/-- The channel was issued with encryption, and goes on without. -/
theorem rekeyed : ∃ t k,
    Machine.run (step twoPolicies encryptedTarget usualLimits) (start 0) mixedRun = some t ∧
      t.issue = some k ∧ t.conn.closeReason = none ∧ t.security ≠ k := by
  have hrun : (Machine.run (step twoPolicies encryptedTarget usualLimits) (start 0) mixedRun).map
      (fun t => (t.issue, t.conn.closeReason, t.security)) =
        some (some ⟨.basic256Sha256, .signAndEncrypt, some [3]⟩, none,
          ⟨.none, .signAndEncrypt, some [3]⟩) := by
    decide +kernel
  obtain ⟨t, ht, hview⟩ := Option.map_eq_some_iff.1 hrun
  obtain ⟨hissue, hrest⟩ := Prod.mk.inj hview
  obtain ⟨hclose, hsecurity⟩ := Prod.mk.inj hrest
  refine ⟨t, _, ht, hissue, hclose, ?_⟩
  rw [hsecurity]
  decide

/-- A request of a channel without a policy goes to the target over an endpoint with one. -/
theorem relayed_rekeyed : ∃ t,
    Machine.run (step twoPolicies encryptedTarget usualLimits) (start 0) mixedRun = some t ∧
      ∃ o ∈ t.conn.outputs, ¬o.Safe twoPolicies.toPolicyCrate .signAndEncrypt := by
  have hrun : (Machine.run (step twoPolicies encryptedTarget usualLimits) (start 0) mixedRun).map
      (fun t => t.conn.outputs.filterMap fun o => match o with
        | .forwarded upstream policy _ => some (upstream.securityPolicyUri, policy)
        | _ => none) = some [("Basic256Sha256", .basic256Sha256), ("Basic256Sha256", .none)] := by
    decide +kernel
  obtain ⟨t, ht, hview⟩ := Option.map_eq_some_iff.1 hrun
  have hmem : ("Basic256Sha256", SecurityPolicy.none) ∈ t.conn.outputs.filterMap fun o =>
      match o with
      | .forwarded upstream policy _ => some (upstream.securityPolicyUri, policy)
      | _ => none := by
    rw [hview]
    exact List.mem_cons_of_mem _ (List.mem_cons_self ..)
  obtain ⟨o, ho, heq⟩ := List.mem_filterMap.1 hmem
  refine ⟨t, ht, o, ho, ?_⟩
  cases o with
  | forwarded upstream policy mode =>
    obtain ⟨huri, rfl⟩ := Prod.mk.inj (Option.some.inj heq)
    rintro ⟨-, -, hpolicy⟩
    rw [huri] at hpolicy
    exact absurd hpolicy (by decide)
  | fault status => cases heq
  | issued policy mode offered => cases heq
  | renewed => cases heq
  | offered endpoints => cases heq

end Downstream

end AuditGateway
