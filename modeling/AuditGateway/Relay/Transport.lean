import AuditGateway.Relay.Downstream
import Mathlib.Algebra.BigOperators.Group.List.Basic
import Mathlib.Algebra.GroupWithZero.Nat

set_option relaxedAutoImplicit false
set_option autoImplicit false

/-!
# How requests are put together from chunks

The chunks of a request are held until its last one is there. Before a channel is issued only chunks
that open one are held, and fewer bytes of them. What is held is given up when the client aborts the
request, when it is complete, and after every error.

The library reads chunks, takes their security off and checks their numbers; it stands here as a
parameter, and about the state of a channel nothing is said but what the library makes of it.

## Main definitions

* `Comms` — what the library does.
* `Transport`, `Transport.process`, `Transport.handleIncoming` — a connection with the chunks it
  holds, and what is done with what the client sends.
* `Transport.receive`, `Transport.receiveAll` — the same, when requests are handled as well.
* `Transport.Bounded` — the bounds of what is held.

## Main results

* `Transport.process_cases` — what a chunk does.
* `reassembly_bounded` — the bounds hold at all times.
-/

namespace AuditGateway

/-! ## The library -/

/-- The types of a chunk. -/
inductive MessageChunkType
  | message
  | openSecureChannel
  | closeSecureChannel
  deriving DecidableEq

/-- The header of a chunk. -/
structure MessageChunkHeader where
  messageType : MessageChunkType
  isFinal : IsFinal

/-- The sequence header of a chunk. -/
structure SequenceHeader where
  sequenceNumber : ℕ
  requestId : ℕ

/-- The headers of a chunk; that of its security is `none` if it is a symmetric one. -/
structure ChunkInfo where
  sequenceHeader : SequenceHeader
  securityHeader : Option AsymmetricHeader

/-- What the library does. A function that may change the state of a channel, or the numbers of its
chunks, returns the state behind it as well. -/
structure Comms (Channel Sequence Message : Type) where
  messageHeader : List UInt8 → Except LibraryError MessageChunkHeader
  securityHeader : List UInt8 → Except LibraryError (Option AsymmetricHeader)
  verifyAndRemoveSecurityServer : Channel → List UInt8 → Channel × Except LibraryError (List UInt8)
  chunkInfo : Channel → List UInt8 → Except LibraryError ChunkInfo
  validateAndIncrement : Sequence → ℕ → Sequence × Except LibraryError Unit
  validateChunks : Channel → List (List UInt8) → Except LibraryError Unit
  decode : Channel → List (List UInt8) → Except LibraryError Message

/-! ## The transport -/

/-- A request, complete. -/
structure Delivered (Message : Type) where
  message : Message
  requestId : ℕ
  securityHeader : Option AsymmetricHeader

/-- A chunk of an unfinished request, with the type that its header names. -/
structure HeldChunk where
  messageType : MessageChunkType
  data : List UInt8

/-- The client side of a connection: its channel, its numbers and the chunks that wait. -/
structure Transport (Channel Sequence Message : Type) where
  channel : Channel
  sequenceNumbers : Sequence
  pendingChunks : List HeldChunk := []
  /-- Size of `pendingChunks` in bytes. -/
  pendingBytes : ℕ := 0
  /-- Nothing more is read. -/
  closing : Bool := false
  /-- Set once the channel is issued. -/
  binding : Option AsymmetricHeader := none
  /-- The requests that were handed on. -/
  delivered : List (Delivered Message) := []

/-- What comes from a client. -/
inductive Incoming
  | closed
  | failed
  | chunk (data : List UInt8)
  /-- A message that is no chunk. -/
  | other

/-- What polling the client side returns. -/
inductive PollResult (Message : Type)
  | chunk
  | request (request : Delivered Message)
  /-- A request could not be decoded; answer it with a fault and carry on. -/
  | recoverable (status : StatusCode) (requestId requestHandle : ℕ)
  | error (status : StatusCode)
  | closed

/-- What handling a request does to the connection: the library may leave the channel in another
state, and the channel may be issued. -/
structure Handled (Channel : Type) where
  channel : Channel
  issues : Option AsymmetricHeader := none

namespace Transport

variable {Channel Sequence Message : Type} (lib : Comms Channel Sequence Message)
  (limits : Limits)

/-- The chunks that wait are dropped. -/
def clear (s : Transport Channel Sequence Message) : Transport Channel Sequence Message :=
  { s with pendingChunks := [], pendingBytes := 0 }

/-- A renewal must keep the issued channel's security policy and certificate. -/
def checkRenewal (data : List UInt8) (binding : AsymmetricHeader) : Except LibraryError Unit :=
  match lib.securityHeader data with
  | .error e => .error e
  | .ok none => .error ⟨.badSecurityChecksFailed, none, none⟩
  | .ok (some header) =>
    if header = binding then .ok () else .error ⟨.badSecurityChecksFailed, none, none⟩

/-- Checked before the library sees the chunk. -/
def checkOpen (s : Transport Channel Sequence Message) (header : MessageChunkHeader)
    (data : List UInt8) : Except LibraryError Unit :=
  if header.messageType = .openSecureChannel then
    match s.binding with
    | some binding => checkRenewal lib data binding
    | none => .ok ()
  else .ok ()

/-- The limit for the bytes of a request. -/
def sizeLimit (s : Transport Channel Sequence Message) : ℕ :=
  if s.binding = none then maxOpenSize else limits.maxRequestSize

/-- The last chunk of a request is there. -/
def finish (s : Transport Channel Sequence Message) :
    Except LibraryError (Option (Delivered Message)) :=
  let data := s.pendingChunks.map (·.data)
  match lib.chunkInfo s.channel (data.headD []) with
  | .error e => .error e
  | .ok first =>
    match lib.validateChunks s.channel data with
    | .error e => .error e
    | .ok () =>
      let requestId := first.sequenceHeader.requestId
      match lib.decode s.channel data with
      | .error e => .error (e.withRequestId requestId)
      | .ok message => .ok (some ⟨message, requestId, first.securityHeader⟩)

/-- A chunk without its security. -/
def append (s : Transport Channel Sequence Message) (header : MessageChunkHeader)
    (data : List UInt8) :
    Transport Channel Sequence Message × Except LibraryError (Option (Delivered Message)) :=
  if limits.maxRequestChunks ≤ s.pendingChunks.length then
    (s, .error ⟨.badDecodingError, none, none⟩)
  else
    let s := { s with pendingBytes := s.pendingBytes + data.length }
    if s.sizeLimit limits < s.pendingBytes then (s, .error ⟨.badDecodingError, none, none⟩)
    else
      match lib.chunkInfo s.channel data with
      | .error e => (s, .error e)
      | .ok info =>
        match lib.validateAndIncrement s.sequenceNumbers info.sequenceHeader.sequenceNumber with
        | (sequenceNumbers, .error e) => ({ s with sequenceNumbers }, .error e)
        | (sequenceNumbers, .ok ()) =>
          let s := { s with
            sequenceNumbers
            pendingChunks := s.pendingChunks ++ [⟨header.messageType, data⟩] }
          if header.isFinal = .intermediate then (s, .ok none) else (s, s.finish lib)

/-- A chunk is verified, checked and held, and the last one of a message gives the request. -/
def processChunk (s : Transport Channel Sequence Message) (data : List UInt8) :
    Transport Channel Sequence Message × Except LibraryError (Option (Delivered Message)) :=
  match lib.messageHeader data with
  | .error e => (s, .error e)
  | .ok header =>
    -- nothing but OpenSecureChannel is accepted, let alone held, before a channel exists
    if s.binding = none ∧ header.messageType ≠ .openSecureChannel then
      (s, .error ⟨.badSecureChannelIdInvalid, none, none⟩)
    else
      match s.checkOpen lib header data with
      | .error e => (s, .error e)
      | .ok () =>
        -- the client aborted the request
        if header.isFinal = .finalError then (s.clear, .ok none)
        else
          match lib.verifyAndRemoveSecurityServer s.channel data with
          | (channel, .error e) => ({ s with channel }, .error e)
          | (channel, .ok data) => append lib limits { s with channel } header data

/-- A read error comes before everything else, so `process` is given messages only. -/
def process (s : Transport Channel Sequence Message) (data : Option (List UInt8)) :
    Transport Channel Sequence Message × Except LibraryError (Option (Delivered Message)) :=
  match data with
  | none => (s, .error ⟨.badUnexpectedError, none, none⟩)
  | some data => s.processChunk lib limits data

/-- Behind `process`. -/
def conclude :
    Transport Channel Sequence Message × Except LibraryError (Option (Delivered Message)) →
      Transport Channel Sequence Message × PollResult Message
  | (s, .ok none) => (s, .chunk)
  | (s, .ok (some request)) => (s.clear, .request request)
  | (s, .error e) =>
    (s.clear,
      match e.fullContext with
      | some (id, handle) => .recoverable e.status id handle
      | none => .error e.status)

/-- What comes in is processed, and an error is turned into what the connection does with it. -/
def handleIncoming (s : Transport Channel Sequence Message) :
    Incoming → Transport Channel Sequence Message × PollResult Message
  | .closed => (s, .closed)
  | .failed => (s, .error .badConnectionClosed)
  | .chunk data => conclude (s.process lib limits (some data))
  | .other => conclude (s.process lib limits none)

/-- What comes from a client is read unless the connection is closing. A request is handled at once,
and an error closes the connection. -/
def receive (s : Transport Channel Sequence Message) (i : Incoming × Handled Channel) :
    Transport Channel Sequence Message :=
  if s.closing then s
  else
    match s.handleIncoming lib limits i.1 with
    | (s, .request request) =>
      { s with
        channel := i.2.channel
        binding := i.2.issues <|> s.binding
        delivered := s.delivered ++ [request] }
    | (s, .error _) => { s with closing := true }
    | (s, .closed) => { s with closing := true }
    | (s, _) => s

/-- All that comes in, one after the other. -/
def receiveAll (s : Transport Channel Sequence Message) (l : List (Incoming × Handled Channel)) :
    Transport Channel Sequence Message :=
  l.foldl (receive lib limits) s

/-- The bounds of what is held. -/
structure Bounded (s : Transport Channel Sequence Message) : Prop where
  bytes : s.pendingBytes = (s.pendingChunks.map (·.data.length)).sum
  size : s.pendingBytes ≤ s.sizeLimit limits
  count : s.pendingChunks.length ≤ limits.maxRequestChunks
  opens : s.binding = none → ∀ c ∈ s.pendingChunks, c.messageType = .openSecureChannel

/-! ## What a chunk does -/

variable {lib : Comms Channel Sequence Message} {limits : Limits}
  {s t : Transport Channel Sequence Message}

/-- A chunk that is held: nothing spoke against it. -/
structure Pushed (lib : Comms Channel Sequence Message) (limits : Limits)
    (s t : Transport Channel Sequence Message) (c : HeldChunk) : Prop where
  binding : t.binding = s.binding
  delivered : t.delivered = s.delivered
  closing : t.closing = s.closing
  pendingChunks : t.pendingChunks = s.pendingChunks ++ [c]
  pendingBytes : t.pendingBytes = s.pendingBytes + c.data.length
  size : t.pendingBytes ≤ s.sizeLimit limits
  count : s.pendingChunks.length < limits.maxRequestChunks
  opens : s.binding = none → c.messageType = .openSecureChannel

/-- What was held is given up. -/
structure Cleared (s t : Transport Channel Sequence Message) : Prop where
  binding : t.binding = s.binding
  delivered : t.delivered = s.delivered
  closing : t.closing = s.closing
  pendingChunks : t.pendingChunks = []
  pendingBytes : t.pendingBytes = 0

/-- **What a chunk does**: it is refused, or gives up what is held, or is held as one more. -/
inductive ProcessCase (lib : Comms Channel Sequence Message) (limits : Limits)
    (s t : Transport Channel Sequence Message) :
    Except LibraryError (Option (Delivered Message)) → Prop
  | refused (e : LibraryError) (hbinding : t.binding = s.binding)
      (hdelivered : t.delivered = s.delivered) (hclosing : t.closing = s.closing) :
      ProcessCase lib limits s t (.error e)
  | aborted (h : Cleared s t) : ProcessCase lib limits s t (.ok none)
  | held (c : HeldChunk) (h : Pushed lib limits s t c) : ProcessCase lib limits s t (.ok none)
  | complete (c : HeldChunk) (h : Pushed lib limits s t c) (request : Delivered Message) :
      ProcessCase lib limits s t (.ok (some request))

/-- A finished message is a request or an error. -/
theorem finish_ne_none : s.finish lib ≠ .ok none := by
  unfold finish
  dsimp only
  split
  · exact nofun
  · split
    · exact nofun
    · split <;> exact nofun

/-- What adding a chunk can do. -/
theorem append_cases (lib : Comms Channel Sequence Message) (limits : Limits)
    {header : MessageChunkHeader} {data : List UInt8}
    (hopens : s.binding = none → header.messageType = .openSecureChannel) :
    ProcessCase lib limits s (s.append lib limits header data).1
      (s.append lib limits header data).2 := by
  unfold append
  by_cases hcount : limits.maxRequestChunks ≤ s.pendingChunks.length
  · rw [if_pos hcount]
    exact .refused _ rfl rfl rfl
  · rw [if_neg hcount]
    dsimp only
    by_cases hsize : sizeLimit limits { s with pendingBytes := s.pendingBytes + data.length } <
        s.pendingBytes + data.length
    · rw [if_pos hsize]
      exact .refused _ rfl rfl rfl
    · rw [if_neg hsize]
      split
      · exact .refused _ rfl rfl rfl
      · split
        · exact .refused _ rfl rfl rfl
        · next sequenceNumbers _ =>
          have hpushed : Pushed lib limits s { s with
              pendingBytes := s.pendingBytes + data.length
              sequenceNumbers := sequenceNumbers
              pendingChunks := s.pendingChunks ++ [⟨header.messageType, data⟩] }
              ⟨header.messageType, data⟩ :=
            ⟨rfl, rfl, rfl, rfl, rfl, not_lt.1 hsize, not_le.1 hcount, hopens⟩
          split_ifs
          · exact .held _ hpushed
          · cases hfinish : finish lib { s with
              pendingBytes := s.pendingBytes + data.length
              sequenceNumbers := sequenceNumbers
              pendingChunks := s.pendingChunks ++ [⟨header.messageType, data⟩] } with
            | error e => exact .refused e rfl rfl rfl
            | ok request =>
              cases request with
              | none => exact absurd hfinish finish_ne_none
              | some request => exact .complete _ hpushed request

/-- What processing a chunk can do. -/
theorem process_cases (lib : Comms Channel Sequence Message) (limits : Limits)
    (s : Transport Channel Sequence Message) (data : Option (List UInt8)) :
    ProcessCase lib limits s (s.process lib limits data).1 (s.process lib limits data).2 := by
  unfold process
  cases data with
  | none => exact .refused _ rfl rfl rfl
  | some data =>
    dsimp only
    unfold processChunk
    split
    · exact .refused _ rfl rfl rfl
    · next header _ =>
      by_cases hbefore : s.binding = none ∧ header.messageType ≠ .openSecureChannel
      · rw [if_pos hbefore]
        exact .refused _ rfl rfl rfl
      · rw [if_neg hbefore]
        have hopens : s.binding = none → header.messageType = .openSecureChannel := by
          intro hbinding
          exact not_not.1 fun h => hbefore ⟨hbinding, h⟩
        split
        · exact .refused _ rfl rfl rfl
        · split_ifs
          · exact .aborted ⟨rfl, rfl, rfl, rfl, rfl⟩
          · split
            · exact .refused _ rfl rfl rfl
            · next channel data _ =>
              -- the state of the channel is no part of what is said
              have happend := @append_cases _ _ _ { s with channel := channel } lib limits
                header data hopens
              revert happend
              generalize append lib limits { s with channel := channel } header data = r
              obtain ⟨t, result⟩ := r
              rintro (⟨e, h₁, h₂, h₃⟩ | h | ⟨c, h⟩ | ⟨c, h, request⟩)
              · exact .refused e h₁ h₂ h₃
              · exact .aborted ⟨h.1, h.2, h.3, h.4, h.5⟩
              · exact .held c ⟨h.1, h.2, h.3, h.4, h.5, h.6, h.7, h.8⟩
              · exact .complete (s := s) c ⟨h.1, h.2, h.3, h.4, h.5, h.6, h.7, h.8⟩ request

/-! ## What is held at all times -/

/-- Without chunks the bounds hold. -/
theorem bounded_clear (s : Transport Channel Sequence Message) : s.clear.Bounded limits where
  bytes := rfl
  size := Nat.zero_le _
  count := Nat.zero_le _
  opens := fun _ _ hc => nomatch hc

/-- One more chunk within the limits keeps the bounds. -/
theorem Bounded.pushed (h : s.Bounded limits) {c : HeldChunk}
    (hpushed : Pushed lib limits s t c) : t.Bounded limits where
  bytes := by
    rw [hpushed.pendingBytes, hpushed.pendingChunks, h.bytes, List.map_append, List.sum_append,
      List.map_singleton, List.sum_singleton]
  size := by
    have hlimit : t.sizeLimit limits = s.sizeLimit limits := by
      unfold sizeLimit
      rw [hpushed.binding]
    rw [hlimit]
    exact hpushed.size
  count := by
    rw [hpushed.pendingChunks, List.length_append, List.length_singleton]
    exact hpushed.count
  opens := by
    rw [hpushed.binding, hpushed.pendingChunks]
    intro hbinding d hd
    rcases List.mem_append.1 hd with hd | hd
    · exact h.opens hbinding d hd
    · rw [List.mem_singleton.1 hd]
      exact hpushed.opens hbinding

/-- Dropping the chunks keeps the bounds. -/
theorem Bounded.cleared (hcleared : Cleared s t) : t.Bounded limits where
  bytes := by
    rw [hcleared.pendingBytes, hcleared.pendingChunks]
    rfl
  size := by
    rw [hcleared.pendingBytes]
    exact Nat.zero_le _
  count := by
    rw [hcleared.pendingChunks]
    exact Nat.zero_le _
  opens := by
    rw [hcleared.pendingChunks]
    exact fun _ _ hc => nomatch hc

/-- What is behind `process` is within the bounds; behind a request nothing is held. -/
theorem bounded_conclude (lib : Comms Channel Sequence Message) (h : s.Bounded limits)
    (data : Option (List UInt8)) :
    (conclude (s.process lib limits data)).1.Bounded limits ∧
      ∀ request, (conclude (s.process lib limits data)).2 = .request request →
        (conclude (s.process lib limits data)).1.pendingChunks = [] ∧
          (conclude (s.process lib limits data)).1.pendingBytes = 0 := by
  have hcases := process_cases lib limits s data
  revert hcases
  generalize s.process lib limits data = r
  obtain ⟨t, result⟩ := r
  rintro (⟨e, -, -, -⟩ | hcleared | ⟨c, hpushed⟩ | ⟨c, hpushed, request⟩)
  · exact ⟨bounded_clear t, fun _ _ => ⟨rfl, rfl⟩⟩
  · exact ⟨.cleared hcleared, nofun⟩
  · exact ⟨h.pushed hpushed, nofun⟩
  · exact ⟨bounded_clear t, fun _ _ => ⟨rfl, rfl⟩⟩

/-- The bounds hold behind whatever comes in, and a request leaves no chunk behind. -/
theorem bounded_handleIncoming (lib : Comms Channel Sequence Message) (h : s.Bounded limits)
    (i : Incoming) :
    (s.handleIncoming lib limits i).1.Bounded limits ∧
      ∀ request, (s.handleIncoming lib limits i).2 = .request request →
        (s.handleIncoming lib limits i).1.pendingChunks = [] ∧
          (s.handleIncoming lib limits i).1.pendingBytes = 0 := by
  cases i with
  | closed => exact ⟨h, nofun⟩
  | failed => exact ⟨h, nofun⟩
  | chunk data => exact bounded_conclude lib h (some data)
  | other => exact bounded_conclude lib h none

/-- The channel is issued when a request was handled, and then nothing is held. -/
theorem bounded_receive (lib : Comms Channel Sequence Message) (h : s.Bounded limits)
    (i : Incoming × Handled Channel) : (s.receive lib limits i).Bounded limits := by
  unfold receive
  split_ifs
  · exact h
  · have hincoming := bounded_handleIncoming lib h i.1
    revert hincoming
    generalize s.handleIncoming lib limits i.1 = r
    obtain ⟨t, result⟩ := r
    rintro ⟨hbounded, hrequest⟩
    cases result with
    | request request =>
      obtain ⟨hchunks, hbytes⟩ := hrequest request rfl
      dsimp only at hchunks hbytes ⊢
      constructor
      · rw [hbytes, hchunks]
        rfl
      · rw [hbytes]
        exact Nat.zero_le _
      · rw [hchunks]
        exact Nat.zero_le _
      · rw [hchunks]
        exact fun _ _ hc => nomatch hc
    | chunk => exact hbounded
    | recoverable status id handle => exact hbounded
    | error status => exact ⟨hbounded.1, hbounded.2, hbounded.3, hbounded.4⟩
    | closed => exact ⟨hbounded.1, hbounded.2, hbounded.3, hbounded.4⟩

/-- The bounds hold behind all that comes in. -/
theorem bounded_receiveAll (lib : Comms Channel Sequence Message) (h : s.Bounded limits)
    (l : List (Incoming × Handled Channel)) : (s.receiveAll lib limits l).Bounded limits := by
  induction l generalizing s with
  | nil => exact h
  | cons i l ih => exact ih (bounded_receive lib h i)

end Transport

/-- **Reassembly stays within its bounds**: whatever a client sends, what the library makes of it
and what handling its requests does, between two frames the bytes that are counted are those of the
chunks that are held, they are within the limit before and after the channel is issued, there are
not too many chunks, and before the channel is issued all of them open one. -/
theorem reassembly_bounded {Channel Sequence Message : Type} (lib : Comms Channel Sequence Message)
    (limits : Limits) (channel : Channel) (sequenceNumbers : Sequence)
    (l : List (Incoming × Handled Channel)) :
    (Transport.receiveAll lib limits { channel, sequenceNumbers } l).Bounded limits :=
  Transport.bounded_receiveAll lib
    ⟨rfl, Nat.zero_le _, Nat.zero_le _, fun _ _ hc => absurd hc List.not_mem_nil⟩ l

end AuditGateway
