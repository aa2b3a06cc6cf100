import AuditGateway.Relay.Transport

set_option relaxedAutoImplicit false
set_option autoImplicit false

/-!
# The requests of a conforming client

A client cuts a request into chunks and numbers all chunks it sends one after the other, also the
one with which it aborts a request. The transport drops what it holds when a request is aborted, but
it does not count the chunk that says so, and so refuses the next one for its number.

## Main definitions

* `ClientMessage` — a request as a client sends it, complete or aborted.
* `NextOnly` — the library accepts exactly the next number.
* `Client.Conforms`, `Client.ConformsAll` — the client keeps to the rules, and the library reads
  what it sends.
* `Reassembled` — the complete requests were delivered, and no others.

## Main results

* `Transport.receiveAll_init` — the chunks of an unfinished request are held.
* `Transport.delivered_receiveAll` — what is delivered are the requests before the first that is
  aborted.
* `reassembled_iff` — when that is all of them.
-/

namespace AuditGateway

/-! ## What a client sends -/

/-- A chunk, on the wire and without its security. -/
structure WireChunk where
  wire : List UInt8
  data : List UInt8

/-- A request in chunks. -/
structure ClientMessage (Message : Type) where
  messageType : MessageChunkType
  requestId : ℕ
  /-- All chunks but the last. -/
  init : List WireChunk
  last : WireChunk
  /-- The last chunk aborts the request. -/
  aborted : Bool
  message : Message

namespace ClientMessage

variable {Channel Message : Type}

/-- The chunks of a message, each with its flag. -/
def chunks (m : ClientMessage Message) : List (WireChunk × IsFinal) :=
  m.init.map (fun c => (c, .intermediate)) ++ [(m.last, if m.aborted then .finalError else .final)]

/-- The chunks that hold the request; that of an abort is none of them. -/
def held (m : ClientMessage Message) : List WireChunk :=
  if m.aborted then m.init else m.init ++ [m.last]

/-- What is read, and what handling the request does if it is complete. -/
def frames (m : ClientMessage Message) (h : Handled Channel) :
    List (Incoming × Handled Channel) :=
  m.chunks.map fun c => (.chunk c.1.wire, h)

end ClientMessage

variable {Channel Sequence Message : Type}

/-- The library accepts exactly the next number. -/
structure NextOnly (lib : Comms Channel Sequence Message) (next : Sequence → ℕ) : Prop where
  accepts : ∀ q, ∃ r, lib.validateAndIncrement q (next q) = (r, .ok ()) ∧ next r = next q + 1
  rejects : ∀ q n, n ≠ next q →
    ∃ r e, lib.validateAndIncrement q n = (r, .error e) ∧ next r = next q

/-- The library reads a chunk, with the channel in the state `ch`, as it was sent. -/
structure Reads (lib : Comms Channel Sequence Message) (binding : Option AsymmetricHeader)
    (messageType : MessageChunkType) (requestId : ℕ) (ch : Channel) (n : ℕ) (c : WireChunk)
    (isFinal : IsFinal) : Prop where
  header : lib.messageHeader c.wire = .ok ⟨messageType, isFinal⟩
  /-- A renewal keeps the policy and the certificate. -/
  renewal : messageType = .openSecureChannel → ∀ b ∈ binding,
    lib.securityHeader c.wire = .ok (some b)
  verified : (lib.verifyAndRemoveSecurityServer ch c.wire).2 = .ok c.data
  info : ∃ header, lib.chunkInfo (lib.verifyAndRemoveSecurityServer ch c.wire).1 c.data =
    .ok ⟨⟨n, requestId⟩, header⟩
  /-- In no state is it taken for a chunk with another number. -/
  number : ∀ ch data info, (lib.verifyAndRemoveSecurityServer ch c.wire).2 = .ok data →
    lib.chunkInfo (lib.verifyAndRemoveSecurityServer ch c.wire).1 data = .ok info →
      info.sequenceHeader.sequenceNumber = n

/-- The library reads chunks that are numbered one after the other. -/
def ReadsAll (lib : Comms Channel Sequence Message) (binding : Option AsymmetricHeader)
    (messageType : MessageChunkType) (requestId : ℕ) :
    Channel → ℕ → List (WireChunk × IsFinal) → Prop
  | _, _, [] => True
  | ch, n, c :: cs =>
    Reads lib binding messageType requestId ch n c.1 c.2 ∧
      ReadsAll lib binding messageType requestId
        (lib.verifyAndRemoveSecurityServer ch c.1.wire).1 (n + 1) cs

/-- The state of the channel behind chunks. -/
def channelAfter (lib : Comms Channel Sequence Message) (ch : Channel) (cs : List WireChunk) :
    Channel :=
  cs.foldl (fun ch c => (lib.verifyAndRemoveSecurityServer ch c.wire).1) ch

/-- The connection as the client knows it. -/
structure Client (Channel : Type) where
  channel : Channel
  binding : Option AsymmetricHeader
  /-- The number of its next chunk. -/
  next : ℕ

namespace Client

variable (lib : Comms Channel Sequence Message) (limits : Limits)

/-- The client keeps to the rules with a request, and the library reads it. -/
structure Conforms (k : Client Channel) (m : ClientMessage Message) : Prop where
  opens : k.binding = none → m.messageType = .openSecureChannel
  reads : ReadsAll lib k.binding m.messageType m.requestId k.channel k.next m.chunks
  count : m.held.length ≤ limits.maxRequestChunks
  size : (m.held.map (·.data.length)).sum ≤
    if k.binding = none then maxOpenSize else limits.maxRequestSize
  first : ¬m.aborted → ∃ header,
    lib.chunkInfo (channelAfter lib k.channel m.held) ((m.held.map (·.data)).headD []) =
      .ok ⟨⟨k.next, m.requestId⟩, header⟩
  validated : ¬m.aborted →
    lib.validateChunks (channelAfter lib k.channel m.held) (m.held.map (·.data)) = .ok ()
  decoded : ¬m.aborted →
    lib.decode (channelAfter lib k.channel m.held) (m.held.map (·.data)) = .ok m.message

/-- The connection behind a request. -/
def after (k : Client Channel) (m : ClientMessage Message) (h : Handled Channel) : Client Channel :=
  if m.aborted then
    { k with
      channel := channelAfter lib k.channel (m.init ++ [m.last])
      next := k.next + m.chunks.length }
  else ⟨h.channel, h.issues <|> k.binding, k.next + m.chunks.length⟩

/-- The client keeps to the rules with all its requests. -/
def ConformsAll : Client Channel → List (ClientMessage Message × Handled Channel) → Prop
  | _, [] => True
  | k, p :: ms => k.Conforms lib limits p.1 ∧ ConformsAll (k.after lib p.1 p.2) ms

end Client

/-- What is read. -/
def framesAll (ms : List (ClientMessage Message × Handled Channel)) :
    List (Incoming × Handled Channel) :=
  ms.flatMap fun p => p.1.frames p.2

/-- The delivered requests are the complete ones, in order, each with its message and number. -/
def Reassembled (s : Transport Channel Sequence Message)
    (ms : List (ClientMessage Message × Handled Channel)) : Prop :=
  s.delivered.map (fun r => (r.message, r.requestId)) =
    (ms.filter fun p => !p.1.aborted).map fun p => (p.1.message, p.1.requestId)

/-! ## The chunks of an unfinished request -/

namespace Transport

variable {lib : Comms Channel Sequence Message} {limits : Limits} {next : Sequence → ℕ}
  {s t : Transport Channel Sequence Message} {k : Client Channel}

/-- The transport is where the client takes it to be, and holds the chunks `cs`. -/
structure Holds (next : Sequence → ℕ) (s : Transport Channel Sequence Message) (k : Client Channel)
    (messageType : MessageChunkType) (cs : List WireChunk)
    (delivered : List (Delivered Message)) : Prop where
  channel : s.channel = k.channel
  binding : s.binding = k.binding
  next : next s.sequenceNumbers = k.next
  pendingChunks : s.pendingChunks = cs.map fun c => ⟨messageType, c.data⟩
  pendingBytes : s.pendingBytes = (cs.map (·.data.length)).sum
  closing : s.closing = false
  delivered : s.delivered = delivered

/-- Receiving a list is receiving its head, then the rest. -/
theorem receiveAll_cons (s : Transport Channel Sequence Message) (i : Incoming × Handled Channel)
    (l : List (Incoming × Handled Channel)) :
    s.receiveAll lib limits (i :: l) = (s.receive lib limits i).receiveAll lib limits l :=
  rfl

/-- Two lists are received one after the other. -/
theorem receiveAll_append (s : Transport Channel Sequence Message)
    (l m : List (Incoming × Handled Channel)) :
    s.receiveAll lib limits (l ++ m) = (s.receiveAll lib limits l).receiveAll lib limits m :=
  List.foldl_append

/-- Nothing speaks against the type of a chunk. -/
theorem processChunk_eq {messageType : MessageChunkType} {requestId n : ℕ} {ch : Channel}
    {c : WireChunk} {isFinal : IsFinal}
    (hr : Reads lib s.binding messageType requestId ch n c isFinal)
    (hopens : s.binding = none → messageType = .openSecureChannel) :
    s.processChunk lib limits c.wire =
      if isFinal = .finalError then (s.clear, .ok none)
      else
        match lib.verifyAndRemoveSecurityServer s.channel c.wire with
        | (channel, .error e) => ({ s with channel }, .error e)
        | (channel, .ok data) =>
          append lib limits { s with channel } ⟨messageType, isFinal⟩ data := by
  have hcheck : s.checkOpen lib ⟨messageType, isFinal⟩ c.wire = .ok () := by
    unfold checkOpen
    dsimp only
    by_cases htype : messageType = .openSecureChannel
    · rw [if_pos htype]
      cases hbinding : s.binding with
      | none => rfl
      | some b =>
        dsimp only
        unfold checkRenewal
        rw [hr.renewal htype b hbinding]
        exact if_pos rfl
    · rw [if_neg htype]
  have hbefore : ¬(s.binding = none ∧ messageType ≠ .openSecureChannel) :=
    fun h => h.2 (hopens h.1)
  unfold processChunk
  rw [hr.header]
  dsimp only
  revert hcheck
  generalize s.checkOpen lib ⟨messageType, isFinal⟩ c.wire = result
  rintro rfl
  exact if_neg hbefore

/-- A chunk of a conforming client is held. -/
theorem append_eq (hnext : NextOnly lib next) {messageType : MessageChunkType}
    {cs : List WireChunk} {d : List (Delivered Message)} (h : s.Holds next k messageType cs d)
    {requestId : ℕ} {c : WireChunk} (isFinal : IsFinal)
    (hinfo : ∃ header, lib.chunkInfo s.channel c.data = .ok ⟨⟨k.next, requestId⟩, header⟩)
    (hcount : cs.length < limits.maxRequestChunks)
    (hsize : ((cs ++ [c]).map (·.data.length)).sum ≤ s.sizeLimit limits) :
    ∃ u : Transport Channel Sequence Message,
      s.append lib limits ⟨messageType, isFinal⟩ c.data =
        (if isFinal = .intermediate then (u, .ok none) else (u, u.finish lib)) ∧
      u.Holds next { k with next := k.next + 1 } messageType (cs ++ [c]) d := by
  obtain ⟨header, hinfo⟩ := hinfo
  obtain ⟨r, hvalidate, hr⟩ := hnext.accepts s.sequenceNumbers
  rw [h.next] at hvalidate hr
  have hsum : ((cs ++ [c]).map (·.data.length)).sum = s.pendingBytes + c.data.length := by
    rw [List.map_append, List.sum_append, h.pendingBytes, List.map_singleton, List.sum_singleton]
  rw [hsum] at hsize
  refine ⟨{ s with
    pendingBytes := s.pendingBytes + c.data.length
    sequenceNumbers := r
    pendingChunks := s.pendingChunks ++ [⟨messageType, c.data⟩] }, ?_, ?_⟩
  · have hlength : ¬limits.maxRequestChunks ≤ s.pendingChunks.length := by
      rw [h.pendingChunks, List.length_map]
      exact not_le.2 hcount
    have hlimit : ¬sizeLimit limits { s with pendingBytes := s.pendingBytes + c.data.length } <
        s.pendingBytes + c.data.length := not_lt.2 hsize
    unfold append
    rw [if_neg hlength]
    dsimp only
    rw [if_neg hlimit, hinfo]
    dsimp only
    rw [hvalidate]
  · refine ⟨h.channel, h.binding, hr, ?_, hsum.symm, h.closing, h.delivered⟩
    rw [h.pendingChunks, List.map_append]
    rfl

/-- A chunk of a conforming client is verified. -/
theorem processChunk_verified {messageType : MessageChunkType} {requestId n : ℕ} {c : WireChunk}
    {isFinal : IsFinal}
    (hr : Reads lib s.binding messageType requestId s.channel n c isFinal)
    (hopens : s.binding = none → messageType = .openSecureChannel)
    (hfinal : isFinal ≠ .finalError) :
    s.processChunk lib limits c.wire =
      append lib limits
        { s with channel := (lib.verifyAndRemoveSecurityServer s.channel c.wire).1 }
        ⟨messageType, isFinal⟩ c.data := by
  rw [processChunk_eq hr hopens, if_neg hfinal]
  have hverified := hr.verified
  revert hverified
  generalize lib.verifyAndRemoveSecurityServer s.channel c.wire = r
  obtain ⟨channel, result⟩ := r
  rintro rfl
  rfl

/-- What a chunk does that is read. -/
theorem receive_chunk (h : s.closing = false) (data : List UInt8) (handled : Handled Channel) :
    s.receive lib limits (.chunk data, handled) =
      match conclude (s.processChunk lib limits data) with
      | (s, .request request) =>
        { s with
          channel := handled.channel
          binding := handled.issues <|> s.binding
          delivered := s.delivered ++ [request] }
      | (s, .error _) => { s with closing := true }
      | (s, .closed) => { s with closing := true }
      | (s, _) => s := by
  unfold receive
  rw [h]
  rfl

/-- Verifying a chunk changes the channel only. -/
theorem Holds.verified {messageType : MessageChunkType} {cs : List WireChunk}
    {d : List (Delivered Message)} (h : s.Holds next k messageType cs d) (ch : Channel) :
    Holds next { s with channel := ch } { k with channel := ch } messageType cs d :=
  ⟨rfl, h.binding, h.next, h.pendingChunks, h.pendingBytes, h.closing, h.delivered⟩

/-- One chunk more of an unfinished request. -/
theorem receive_intermediate (hnext : NextOnly lib next) {messageType : MessageChunkType}
    {cs : List WireChunk} {d : List (Delivered Message)} (h : s.Holds next k messageType cs d)
    {requestId : ℕ} {c : WireChunk}
    (hr : Reads lib k.binding messageType requestId k.channel k.next c .intermediate)
    (hopens : k.binding = none → messageType = .openSecureChannel)
    (hcount : cs.length < limits.maxRequestChunks)
    (hsize : ((cs ++ [c]).map (·.data.length)).sum ≤
      if k.binding = none then maxOpenSize else limits.maxRequestSize)
    (handled : Handled Channel) :
    (s.receive lib limits (.chunk c.wire, handled)).Holds next
      { k with
        channel := (lib.verifyAndRemoveSecurityServer k.channel c.wire).1
        next := k.next + 1 } messageType (cs ++ [c]) d := by
  have hinfo := hr.info
  rw [← h.binding] at hr hopens hsize
  rw [← h.channel] at hr hinfo ⊢
  obtain ⟨u, happend, hu⟩ := append_eq hnext (h.verified _) .intermediate hinfo hcount hsize
  rw [receive_chunk h.closing, processChunk_verified hr hopens nofun, happend, if_pos rfl]
  exact hu

/-- **The chunks of an unfinished request** are held. -/
theorem receiveAll_init (hnext : NextOnly lib next) {messageType : MessageChunkType}
    {requestId : ℕ} {d : List (Delivered Message)} (handled : Handled Channel)
    (rest : List WireChunk) {k : Client Channel} {cs : List WireChunk}
    (h : s.Holds next k messageType cs d)
    (hr : ReadsAll lib k.binding messageType requestId k.channel k.next
      (rest.map fun c => (c, .intermediate)))
    (hopens : k.binding = none → messageType = .openSecureChannel)
    (hcount : (cs ++ rest).length ≤ limits.maxRequestChunks)
    (hsize : ((cs ++ rest).map (·.data.length)).sum ≤
      if k.binding = none then maxOpenSize else limits.maxRequestSize) :
    (s.receiveAll lib limits (rest.map fun c => (.chunk c.wire, handled))).Holds next
      { k with channel := channelAfter lib k.channel rest, next := k.next + rest.length }
      messageType (cs ++ rest) d := by
  induction rest generalizing s k cs with
  | nil =>
    rw [List.append_nil]
    exact h
  | cons c rest ih =>
    obtain ⟨hc, hrest⟩ := hr
    have happend : cs ++ c :: rest = (cs ++ [c]) ++ rest := by rw [List.append_assoc]; rfl
    rw [happend] at hcount hsize ⊢
    have hone : cs.length < limits.maxRequestChunks := by
      rw [List.length_append, List.length_append, List.length_singleton] at hcount
      omega
    have hpart : ((cs ++ [c]).map (·.data.length)).sum ≤
        if k.binding = none then maxOpenSize else limits.maxRequestSize := by
      rw [List.map_append, List.sum_append] at hsize
      exact (Nat.le_add_right _ _).trans hsize
    have hstep := receive_intermediate hnext h hc hopens hone hpart handled
    have hall := ih hstep hrest hopens hcount hsize
    rw [List.length_cons, Nat.add_comm rest.length 1, ← Nat.add_assoc]
    exact hall

/-- Two lists are read one after the other. -/
theorem readsAll_append {binding : Option AsymmetricHeader} {messageType : MessageChunkType}
    {requestId : ℕ} (as bs : List (WireChunk × IsFinal)) (ch : Channel) (n : ℕ) :
    ReadsAll lib binding messageType requestId ch n (as ++ bs) ↔
      ReadsAll lib binding messageType requestId ch n as ∧
        ReadsAll lib binding messageType requestId (channelAfter lib ch (as.map (·.1)))
          (n + as.length) bs := by
  induction as generalizing ch n with
  | nil => exact (iff_of_eq (true_and _)).symm
  | cons a as ih =>
    have hlength : n + (a :: as).length = n + 1 + as.length := by
      rw [List.length_cons]
      omega
    rw [List.cons_append, ReadsAll, ReadsAll, ih, and_assoc, hlength]
    rfl

/-- The channel after one more chunk. -/
theorem channelAfter_concat (ch : Channel) (cs : List WireChunk) (c : WireChunk) :
    channelAfter lib ch (cs ++ [c]) =
      (lib.verifyAndRemoveSecurityServer (channelAfter lib ch cs) c.wire).1 :=
  List.foldl_append

/-! ## A request -/

/-- Between two requests. -/
def Idle (next : Sequence → ℕ) (s : Transport Channel Sequence Message) (k : Client Channel)
    (delivered : List (Delivered Message)) : Prop :=
  s.Holds next k .message [] delivered

/-- Between messages nothing is held. -/
theorem Idle.holds {d : List (Delivered Message)} (h : s.Idle next k d)
    (messageType : MessageChunkType) : s.Holds next k messageType [] d :=
  ⟨h.channel, h.binding, h.next, h.pendingChunks, h.pendingBytes, h.closing, h.delivered⟩

/-- The frames of a message are those of its first chunks and that of its last. -/
theorem frames_eq (m : ClientMessage Message) (h : Handled Channel) :
    m.frames h = (m.init.map fun c => (.chunk c.wire, h)) ++ [(.chunk m.last.wire, h)] := by
  unfold ClientMessage.frames ClientMessage.chunks
  rw [List.map_append, List.map_map]
  rfl

/-- A message has one chunk more than its first ones. -/
theorem length_chunks (m : ClientMessage Message) : m.chunks.length = m.init.length + 1 := by
  unfold ClientMessage.chunks
  rw [List.length_append, List.length_map]
  rfl

/-- What is there before the last chunk of a request. -/
theorem holds_init (hnext : NextOnly lib next) {d : List (Delivered Message)}
    (h : s.Idle next k d) {m : ClientMessage Message} (hm : k.Conforms lib limits m)
    (handled : Handled Channel) :
    (s.receiveAll lib limits (m.init.map fun c => (.chunk c.wire, handled))).Holds next
      { k with channel := channelAfter lib k.channel m.init, next := k.next + m.init.length }
      m.messageType m.init d ∧
    Reads lib k.binding m.messageType m.requestId (channelAfter lib k.channel m.init)
      (k.next + m.init.length) m.last (if m.aborted then .finalError else .final) := by
  have hreads := hm.reads
  unfold ClientMessage.chunks at hreads
  rw [readsAll_append, List.map_map, List.length_map] at hreads
  have hid : m.init.map ((fun c => c.1) ∘ fun c => (c, IsFinal.intermediate)) = m.init :=
    List.map_id m.init
  rw [hid] at hreads
  have hcount := hm.count
  have hsize := hm.size
  obtain ⟨last, hheld⟩ : m.init <+: m.held := by
    unfold ClientMessage.held
    split_ifs
    · exact List.prefix_refl _
    · exact List.prefix_append _ _
  rw [← hheld, List.length_append] at hcount
  rw [← hheld, List.map_append, List.sum_append] at hsize
  exact ⟨receiveAll_init hnext handled m.init (h.holds m.messageType) hreads.1 hm.opens
    ((Nat.le_add_right _ _).trans hcount) ((Nat.le_add_right _ _).trans hsize), hreads.2.1⟩

/-- **A complete request** is delivered. -/
theorem receiveAll_complete (hnext : NextOnly lib next) {d : List (Delivered Message)}
    (h : s.Idle next k d) {m : ClientMessage Message} (hm : k.Conforms lib limits m)
    (hcomplete : m.aborted = false) (handled : Handled Channel) :
    ∃ header, (s.receiveAll lib limits (m.frames handled)).Idle next (k.after lib m handled)
      (d ++ [⟨m.message, m.requestId, header⟩]) := by
  obtain ⟨hinit, hr⟩ := holds_init hnext h hm handled
  rw [frames_eq, receiveAll_append]
  generalize s.receiveAll lib limits (m.init.map fun c => (.chunk c.wire, handled)) = t at hinit
  have hheld : m.held = m.init ++ [m.last] := by
    unfold ClientMessage.held
    rw [hcomplete]
    rfl
  have hfinal : ¬m.aborted = true := by
    rw [hcomplete]
    exact Bool.false_ne_true
  rw [if_neg hfinal] at hr
  have hinfo := hr.info
  have hopens := hm.opens
  have hcount := hm.count
  have hsize := hm.size
  obtain ⟨header, hfirst⟩ := hm.first hfinal
  have hvalidated := hm.validated hfinal
  have hdecoded := hm.decoded hfinal
  rw [hheld] at hcount hsize hfirst hvalidated hdecoded
  rw [channelAfter_concat] at hfirst hvalidated hdecoded
  rw [List.length_append, List.length_singleton] at hcount
  have hbinding : t.binding = k.binding := hinit.binding
  have hchannel : t.channel = channelAfter lib k.channel m.init := hinit.channel
  rw [← hbinding] at hr hopens hsize
  rw [← hchannel] at hr hinfo hfirst hvalidated hdecoded
  obtain ⟨u, happend, hu⟩ := append_eq hnext (hinit.verified _) .final hinfo
    (Nat.lt_of_succ_le hcount) hsize
  rw [if_neg nofun] at happend
  have hdata : u.pendingChunks.map (·.data) = (m.init ++ [m.last]).map (·.data) := by
    rw [hu.pendingChunks, List.map_map]
    rfl
  have hfinish : u.finish lib = .ok (some ⟨m.message, m.requestId, header⟩) := by
    unfold finish
    dsimp only
    rw [hdata, hu.channel, hfirst]
    dsimp only
    rw [hvalidated]
    dsimp only
    rw [hdecoded]
  refine ⟨header, ?_⟩
  rw [receiveAll_cons, receive_chunk hinit.closing, processChunk_verified hr hopens nofun, happend,
    hfinish]
  have hafter : k.after lib m handled =
      ⟨handled.channel, handled.issues <|> k.binding, k.next + m.chunks.length⟩ := by
    unfold Client.after
    rw [if_neg hfinal]
  rw [hafter, length_chunks]
  refine ⟨rfl, ?_, ?_, rfl, rfl, hu.closing, ?_⟩
  · show (handled.issues <|> u.binding) = _
    rw [hu.binding]
  · exact hu.next
  · show u.delivered ++ _ = _
    rw [hu.delivered]

/-! ## Behind an abort -/

/-- The transport has not counted all the chunks that the client has. -/
def Behind (next : Sequence → ℕ) (s : Transport Channel Sequence Message) (n : ℕ) : Prop :=
  s.closing = true ∨ next s.sequenceNumbers < n

/-- **A request that is aborted** is dropped, but the chunk that says so is not counted. -/
theorem receiveAll_aborted (hnext : NextOnly lib next) {d : List (Delivered Message)}
    (h : s.Idle next k d) {m : ClientMessage Message} (hm : k.Conforms lib limits m)
    (haborted : m.aborted = true) (handled : Handled Channel) :
    (s.receiveAll lib limits (m.frames handled)).delivered = d ∧
      (s.receiveAll lib limits (m.frames handled)).Behind next (k.after lib m handled).next := by
  obtain ⟨hinit, hr⟩ := holds_init hnext h hm handled
  rw [frames_eq, receiveAll_append]
  generalize s.receiveAll lib limits (m.init.map fun c => (.chunk c.wire, handled)) = t at hinit
  have hopens := hm.opens
  have hbinding : t.binding = k.binding := hinit.binding
  rw [if_pos haborted, ← hbinding] at hr
  rw [← hbinding] at hopens
  have hprocess : t.processChunk lib limits _ = _ := processChunk_eq hr hopens
  rw [if_pos rfl] at hprocess
  have hafter : (k.after lib m handled).next = k.next + m.init.length + 1 := by
    unfold Client.after
    rw [if_pos haborted, length_chunks]
    rfl
  rw [receiveAll_cons, receive_chunk hinit.closing, hprocess, hafter]
  refine ⟨hinit.delivered, .inr ?_⟩
  show next t.sequenceNumbers < _
  rw [hinit.next]
  exact Nat.lt_succ_self _

/-- A chunk that is not the next one is not held. -/
structure Skips (next : Sequence → ℕ) (s : Transport Channel Sequence Message)
    (r : Transport Channel Sequence Message × Except LibraryError (Option (Delivered Message))) :
    Prop where
  next : next r.1.sequenceNumbers = next s.sequenceNumbers
  delivered : r.1.delivered = s.delivered
  closing : r.1.closing = s.closing
  result : ∀ request, r.2 ≠ .ok (some request)

/-- A chunk with a number that is not expected is skipped. -/
theorem append_skips (hnext : NextOnly lib next) {header : MessageChunkHeader} {data : List UInt8}
    (hnumber : ∀ info, lib.chunkInfo s.channel data = .ok info →
      info.sequenceHeader.sequenceNumber ≠ next s.sequenceNumbers) :
    Skips next s (s.append lib limits header data) := by
  unfold append
  by_cases hcount : limits.maxRequestChunks ≤ s.pendingChunks.length
  · rw [if_pos hcount]
    exact ⟨rfl, rfl, rfl, nofun⟩
  · rw [if_neg hcount]
    dsimp only
    by_cases hsize : sizeLimit limits { s with pendingBytes := s.pendingBytes + data.length } <
        s.pendingBytes + data.length
    · rw [if_pos hsize]
      exact ⟨rfl, rfl, rfl, nofun⟩
    · rw [if_neg hsize]
      split
      · exact ⟨rfl, rfl, rfl, nofun⟩
      · next info hinfo =>
        obtain ⟨r, e, hvalidate, hr⟩ := hnext.rejects _ _ (hnumber info hinfo)
        rw [hvalidate]
        exact ⟨hr, rfl, rfl, nofun⟩

/-- A chunk is skipped, behind its checks or by them, if its number is not expected yet. -/
theorem processChunk_skips (hnext : NextOnly lib next) {c : WireChunk} {n : ℕ}
    (hnumber : ∀ ch data info, (lib.verifyAndRemoveSecurityServer ch c.wire).2 = .ok data →
      lib.chunkInfo (lib.verifyAndRemoveSecurityServer ch c.wire).1 data = .ok info →
        info.sequenceHeader.sequenceNumber = n)
    (hn : next s.sequenceNumbers < n) : Skips next s (s.processChunk lib limits c.wire) := by
  have hnumber := hnumber s.channel
  unfold processChunk
  split
  · exact ⟨rfl, rfl, rfl, nofun⟩
  · next header _ =>
    by_cases hbefore : s.binding = none ∧ header.messageType ≠ .openSecureChannel
    · rw [if_pos hbefore]
      exact ⟨rfl, rfl, rfl, nofun⟩
    · rw [if_neg hbefore]
      split
      · exact ⟨rfl, rfl, rfl, nofun⟩
      · split_ifs
        · exact ⟨rfl, rfl, rfl, nofun⟩
        · split
          · exact ⟨rfl, rfl, rfl, nofun⟩
          · next channel data hverify =>
            rw [hverify] at hnumber
            have hskips : Skips next { s with channel }
                (append lib limits { s with channel } header data) :=
              append_skips hnext fun info hinfo => by
                rw [hnumber data info rfl hinfo]
                exact hn.ne'
            exact ⟨hskips.1, hskips.2, hskips.3, hskips.4⟩

/-- A chunk behind an abort delivers nothing. -/
theorem receive_behind (hnext : NextOnly lib next) {c : WireChunk} {n : ℕ}
    (hnumber : ∀ ch data info, (lib.verifyAndRemoveSecurityServer ch c.wire).2 = .ok data →
      lib.chunkInfo (lib.verifyAndRemoveSecurityServer ch c.wire).1 data = .ok info →
        info.sequenceHeader.sequenceNumber = n)
    (h : s.Behind next n) (handled : Handled Channel) :
    (s.receive lib limits (.chunk c.wire, handled)).Behind next (n + 1) ∧
      (s.receive lib limits (.chunk c.wire, handled)).delivered = s.delivered := by
  by_cases hclosing : s.closing = true
  · unfold receive
    rw [if_pos hclosing]
    exact ⟨.inl hclosing, rfl⟩
  · have hn := h.resolve_left hclosing
    have hskips : Skips next s (s.processChunk lib limits c.wire) :=
      processChunk_skips hnext hnumber hn
    rw [receive_chunk (by simpa using hclosing)]
    revert hskips
    generalize s.processChunk lib limits c.wire = r
    obtain ⟨t, result⟩ := r
    intro hskips
    have hnt : next t.sequenceNumbers < n + 1 := by
      rw [show next t.sequenceNumbers = next s.sequenceNumbers from hskips.next]
      omega
    cases result with
    | ok request =>
      cases request with
      | none => exact ⟨.inr hnt, hskips.delivered⟩
      | some request => exact absurd rfl (hskips.result request)
    | error e =>
      cases hcontext : e.fullContext with
      | none =>
        simp only [conclude, hcontext]
        exact ⟨.inl rfl, hskips.delivered⟩
      | some p =>
        simp only [conclude, hcontext]
        exact ⟨.inr hnt, hskips.delivered⟩

/-- Behind the expected number all chunks are skipped. -/
theorem receiveAll_behind (hnext : NextOnly lib next) (handled : Handled Channel)
    {binding : Option AsymmetricHeader} {messageType : MessageChunkType} {requestId : ℕ}
    (cs : List (WireChunk × IsFinal)) {ch : Channel} {n : ℕ} (h : s.Behind next n)
    (hr : ReadsAll lib binding messageType requestId ch n cs) :
    (s.receiveAll lib limits (cs.map fun c => (.chunk c.1.wire, handled))).Behind next
        (n + cs.length) ∧
      (s.receiveAll lib limits (cs.map fun c => (.chunk c.1.wire, handled))).delivered =
        s.delivered := by
  induction cs generalizing s ch n with
  | nil => exact ⟨h, rfl⟩
  | cons c cs ih =>
    have hstep : (s.receive lib limits (.chunk c.1.wire, handled)).Behind next (n + 1) ∧ _ :=
      receive_behind hnext hr.1.number h handled
    have hall := ih hstep.1 hr.2
    rw [hstep.2] at hall
    rw [List.length_cons, Nat.add_comm cs.length 1, ← Nat.add_assoc]
    exact hall

/-- Behind an abort no request is delivered. -/
theorem delivered_behind (hnext : NextOnly lib next)
    (ms : List (ClientMessage Message × Handled Channel)) {k : Client Channel}
    (hms : k.ConformsAll lib limits ms) (h : s.Behind next k.next) :
    (s.receiveAll lib limits (framesAll ms)).delivered = s.delivered := by
  induction ms generalizing s k with
  | nil => rfl
  | cons p ms ih =>
    obtain ⟨hm, hms⟩ := hms
    have hstep : (s.receiveAll lib limits _).Behind next _ ∧ _ :=
      receiveAll_behind hnext p.2 p.1.chunks h hm.reads
    have hafter : (k.after lib p.1 p.2).next = k.next + p.1.chunks.length := by
      unfold Client.after
      split_ifs <;> rfl
    rw [← hafter] at hstep
    have hall := ih hms hstep.1
    rw [hstep.2] at hall
    unfold framesAll at hall ⊢
    rw [List.flatMap_cons, receiveAll_append]
    exact hall

/-- **What is delivered** are the requests before the first one that is aborted. -/
theorem delivered_receiveAll (hnext : NextOnly lib next)
    (ms : List (ClientMessage Message × Handled Channel)) {k : Client Channel}
    (hms : k.ConformsAll lib limits ms) {d : List (Delivered Message)} (h : s.Idle next k d) :
    (s.receiveAll lib limits (framesAll ms)).delivered.map (fun r => (r.message, r.requestId)) =
      d.map (fun r => (r.message, r.requestId)) ++
        (ms.takeWhile fun p => !p.1.aborted).map fun p => (p.1.message, p.1.requestId) := by
  induction ms generalizing s k d with
  | nil =>
    rw [List.takeWhile_nil, List.map_nil, List.append_nil]
    exact congrArg _ h.delivered
  | cons p ms ih =>
    obtain ⟨hm, hms⟩ := hms
    unfold framesAll
    rw [List.flatMap_cons, receiveAll_append]
    cases haborted : p.1.aborted with
    | true =>
      obtain ⟨hdelivered, hbehind⟩ := receiveAll_aborted hnext h hm haborted p.2
      have hall := delivered_behind hnext ms hms hbehind
      unfold framesAll at hall
      rw [hall, hdelivered, List.takeWhile_cons_of_neg (by simp [haborted]), List.map_nil,
        List.append_nil]
    | false =>
      obtain ⟨header, hidle⟩ := receiveAll_complete hnext h hm haborted p.2
      have hall := ih hms hidle
      unfold framesAll at hall
      rw [hall, List.takeWhile_cons_of_pos (by simp [haborted]), List.map_append, List.map_cons,
        List.append_assoc]
      rfl

end Transport

/-- What stands before the first element without a property is all that has it exactly if nothing
behind such an element has it. -/
theorem map_takeWhile_eq_iff {α β : Type*} (f : α → β) (p : α → Bool) (l : List α) :
    (l.takeWhile p).map f = (l.filter p).map f ↔ l.Pairwise fun a b => p b = true → p a = true := by
  induction l with
  | nil => simp
  | cons a l ih =>
    rw [List.pairwise_cons]
    cases ha : p a with
    | true =>
      rw [List.takeWhile_cons_of_pos ha, List.filter_cons_of_pos ha, List.map_cons, List.map_cons,
        List.cons_inj_right, ih]
      exact (and_iff_right fun _ _ _ => rfl).symm
    | false =>
      have hneg : ¬p a = true := by
        rw [ha]
        exact Bool.false_ne_true
      rw [List.takeWhile_cons_of_neg hneg, List.filter_cons_of_neg hneg, List.map_nil, eq_comm,
        List.map_eq_nil_iff, List.filter_eq_nil_iff]
      constructor
      · intro hnone
        refine ⟨fun b hb hpb => absurd hpb (hnone b hb), ?_⟩
        exact List.Pairwise.imp_of_mem (fun _ hb _ hpb => absurd hpb (hnone _ hb))
          (List.pairwise_of_forall (R := fun _ _ => True) fun _ _ => trivial)
      · rintro ⟨hnone, -⟩ b hb hpb
        cases hnone b hb hpb

/-- **When requests are reassembled exactly**: the requests of a conforming client that are
delivered are the complete ones, in order and each with its own message and number, exactly if no
complete request follows one that was aborted.

**Proof sketch.** Before the first abort the transport is where the client takes it to be, chunk by
chunk. The chunk of the abort is not counted, so from there on every chunk has a number that is too
high, and is refused. -/
theorem reassembled_iff {lib : Comms Channel Sequence Message} {limits : Limits}
    {next : Sequence → ℕ} (hnext : NextOnly lib next) {channel : Channel}
    {sequenceNumbers : Sequence} {ms : List (ClientMessage Message × Handled Channel)}
    (hms : Client.ConformsAll lib limits ⟨channel, none, next sequenceNumbers⟩ ms) :
    Reassembled (Transport.receiveAll lib limits { channel, sequenceNumbers } (framesAll ms)) ms ↔
      ms.Pairwise fun p q => q.1.aborted = false → p.1.aborted = false := by
  have hidle : Transport.Idle next
      ({ channel, sequenceNumbers } : Transport Channel Sequence Message)
      ⟨channel, none, next sequenceNumbers⟩ [] :=
    ⟨rfl, rfl, rfl, rfl, rfl, rfl, rfl⟩
  have hdelivered := Transport.delivered_receiveAll hnext ms hms hidle
  unfold Reassembled
  rw [hdelivered, List.map_nil, List.nil_append, map_takeWhile_eq_iff]
  simp only [Bool.not_eq_true']

/-! ## A small library -/

/-- The header of a channel without security. -/
def plainHeader : AsymmetricHeader := ⟨"http://opcfoundation.org/UA/SecurityPolicy#None", none⟩

/-- Chunks without security: type, place in the request, number, number of the request, bytes. -/
def plainComms : Comms Unit ℕ (List UInt8) where
  messageHeader
    | type :: final :: _ => .ok
      ⟨if type = 0x4F then .openSecureChannel else if type = 0x4D then .message
        else .closeSecureChannel,
        if final = 0x43 then .intermediate else if final = 0x46 then .final else .finalError⟩
    | _ => .error ⟨.badDecodingError, none, none⟩
  securityHeader _ := .ok (some plainHeader)
  verifyAndRemoveSecurityServer ch data := (ch, .ok data)
  chunkInfo _
    | _ :: _ :: number :: id :: _ => .ok ⟨⟨number.toNat, id.toNat⟩, some plainHeader⟩
    | _ => .error ⟨.badDecodingError, none, none⟩
  validateAndIncrement q n :=
    if n = q then (q + 1, .ok ()) else (q, .error ⟨⟨0x80880000⟩, none, none⟩)
  validateChunks _ _ := .ok ()
  decode _ chunks := .ok (chunks.flatMap (·.drop 4))

/-- The numbers of the plain channel grow by one. -/
theorem nextOnly_plainComms : NextOnly plainComms id where
  accepts q := ⟨q + 1, if_pos rfl, rfl⟩
  rejects q _ hn := ⟨q, _, if_neg hn, rfl⟩

/-- A chunk of the plain channel. -/
def plainChunk (messageType : MessageChunkType) (isFinal : IsFinal) (number requestId : UInt8)
    (body : List UInt8) : WireChunk :=
  let wire :=
    (match messageType with
      | .openSecureChannel => 0x4F
      | .message => 0x4D
      | .closeSecureChannel => 0x43) ::
    (match isFinal with
      | .intermediate => 0x43
      | .final => 0x46
      | .finalError => 0x41) :: number :: requestId :: body
  ⟨wire, wire⟩

/-- A plain chunk is read as what it was made of. -/
theorem reads_plainChunk {binding : Option AsymmetricHeader} (hb : ∀ b ∈ binding, b = plainHeader)
    (messageType : MessageChunkType) (isFinal : IsFinal) (number requestId : UInt8)
    (body : List UInt8) :
    Reads plainComms binding messageType requestId.toNat () number.toNat
      (plainChunk messageType isFinal number requestId body) isFinal where
  header := by cases messageType <;> cases isFinal <;> rfl
  renewal := by
    rintro - b h
    rw [hb b h]
    rfl
  verified := rfl
  info := ⟨_, rfl⟩
  number := by
    rintro ch data info hdata hinfo
    cases hdata
    cases hinfo
    rfl

/-- The channel is opened. -/
def plainOpen : ClientMessage (List UInt8) × Handled Unit :=
  (⟨.openSecureChannel, 1, [], plainChunk .openSecureChannel .final 1 1 [7], false, [7]⟩,
    ⟨(), some plainHeader⟩)

/-- A request that is aborted behind its first chunk. -/
def plainAborted : ClientMessage (List UInt8) × Handled Unit :=
  (⟨.message, 2, [plainChunk .message .intermediate 2 2 [8]],
    plainChunk .message .finalError 3 2 [], true, []⟩, ⟨(), none⟩)

/-- A request in one chunk. -/
def plainRequest (number requestId : UInt8) : ClientMessage (List UInt8) × Handled Unit :=
  (⟨.message, requestId.toNat, [], plainChunk .message .final number requestId [9], false, [9]⟩,
    ⟨(), none⟩)

/-- The plain client opens its channel as the protocol asks. -/
theorem conforms_plainOpen :
    Client.Conforms plainComms ⟨1024, 16⟩ ⟨(), none, 1⟩ plainOpen.1 where
  opens _ := rfl
  reads := by
    have hb : ∀ b ∈ (none : Option AsymmetricHeader), b = plainHeader :=
      fun _ h => absurd h (Option.not_mem_none _)
    exact ⟨reads_plainChunk hb .openSecureChannel .final 1 1 [7], trivial⟩
  count := by decide
  size := by decide
  first _ := ⟨_, rfl⟩
  validated _ := rfl
  decoded _ := rfl

/-- The plain client aborts a request as the protocol asks. -/
theorem conforms_plainAborted :
    Client.Conforms plainComms ⟨1024, 16⟩ ⟨(), some plainHeader, 2⟩ plainAborted.1 where
  opens := nofun
  reads := by
    have hb : ∀ b ∈ some plainHeader, b = plainHeader := fun b h => (Option.some.inj h).symm
    exact ⟨reads_plainChunk hb .message .intermediate 2 2 [8],
      reads_plainChunk hb .message .finalError 3 2 [], trivial⟩
  count := by decide
  size := by decide
  first h := absurd rfl h
  validated h := absurd rfl h
  decoded h := absurd rfl h

/-- The plain client sends a request as the protocol asks. -/
theorem conforms_plainRequest (number requestId : UInt8) :
    Client.Conforms plainComms ⟨1024, 16⟩ ⟨(), some plainHeader, number.toNat⟩
      (plainRequest number requestId).1 where
  opens := nofun
  reads := by
    have hb : ∀ b ∈ some plainHeader, b = plainHeader := fun b h => (Option.some.inj h).symm
    exact ⟨reads_plainChunk hb .message .final number requestId [9], trivial⟩
  count := by
    show 1 ≤ 16
    decide
  size := by
    show 5 ≤ if some plainHeader = none then maxOpenSize else 1024
    decide
  first _ := ⟨_, rfl⟩
  validated _ := rfl
  decoded _ := rfl

/-- The last request is aborted. -/
theorem reassembled_iff_abortedLast :
    Client.ConformsAll plainComms ⟨1024, 16⟩ ⟨(), none, 1⟩ [plainOpen, plainAborted] ∧
    Reassembled (Transport.receiveAll plainComms ⟨1024, 16⟩ { channel := (), sequenceNumbers := 1 }
      (framesAll [plainOpen, plainAborted])) [plainOpen, plainAborted] := by
  have hms : Client.ConformsAll plainComms ⟨1024, 16⟩ ⟨(), none, 1⟩ [plainOpen, plainAborted] :=
    ⟨conforms_plainOpen, conforms_plainAborted, trivial⟩
  refine ⟨hms, (reassembled_iff nextOnly_plainComms hms).2 ?_⟩
  rw [List.pairwise_pair]
  exact fun h => nomatch h

/-- **The request behind an abort is refused**, and the connection closed. -/
theorem not_reassembled_behindAbort :
    Client.ConformsAll plainComms ⟨1024, 16⟩ ⟨(), none, 1⟩
      [plainOpen, plainAborted, plainRequest 4 3] ∧
    ¬Reassembled (Transport.receiveAll plainComms ⟨1024, 16⟩ { channel := (), sequenceNumbers := 1 }
      (framesAll [plainOpen, plainAborted, plainRequest 4 3]))
      [plainOpen, plainAborted, plainRequest 4 3] := by
  refine ⟨⟨conforms_plainOpen, conforms_plainAborted, conforms_plainRequest 4 3, trivial⟩, ?_⟩
  unfold Reassembled
  decide

end AuditGateway
