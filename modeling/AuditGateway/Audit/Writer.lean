import AuditGateway.Audit.Trail

set_option relaxedAutoImplicit false
set_option autoImplicit false

/-!
# The audit writer

Callers hand entries to a bounded queue, and one writer takes them out in batches and commits
each batch in one transaction. Callers, the writer, its restart after a panic and the counter of
lost records run interleaved: a step of the machine is what one of them does between two points
where another one can act. A caller can be dropped at every point where it waits.

The last fields of the state record what happened, for the statements only: every call has a
number, and the entries are followed by the number of the call that handed them in.

## Main definitions

* `Command`, `Writer`, `Pipeline` — what is queued, where the writer stands, and the whole state.
* `Pipeline.Op` — what a caller or the writer can do.
* `Pipeline.step` — one step.

## Main results

* `Trail.append_eq_ok` — a commit behind the newest record writes the batch.
-/

namespace AuditGateway

/-- How many commands the queue holds. -/
def queueCapacity : ℕ := 10000

/-- How many entries go into one transaction. -/
def maxBatch : ℕ := 512

/-- Whether a write that cannot be recorded is forwarded. -/
inductive FailMode
  | failOpen
  | failClosed
  deriving DecidableEq

/-- Why an entry is not recorded. -/
inductive AuditError
  | writerStopped
  | store (e : StoreError)
  deriving DecidableEq

/-! ## The store behind the writer -/

/-- `AuditStore::append` on the open store: the numbers of the entries and the trail. -/
def Trail.append (c : Crates) (commits : Bool) (s : Trail) (entries : List AuditEntry) :
    Except StoreError (List ℤ × Trail) :=
  match s.store with
  | none => .error .sqlite
  | some store => do
    let (seqs, db, store) ← AuditGateway.append c commits s.db store entries
    return (seqs, ⟨db, some store, s.entries ++ entries, s.written ++ newRows s.db db⟩)

/-- `AuditStore::prune_before` on the open store: the number deleted and the trail. -/
def Trail.pruneBefore (c : Crates) (commits : Bool) (cutoff now stamp : DateTime) (s : Trail) :
    Except StoreError (ℕ × Trail) :=
  match s.store with
  | none => .error .sqlite
  | some store => do
    let (n, db, store) ← AuditGateway.pruneBefore c commits cutoff now stamp s.db store
    return (n, ⟨db, some store, s.entries ++ pruneEntries c cutoff now stamp n s.db,
      s.written ++ newRows s.db db⟩)

/-- A commit on the open store writes the entries behind the newest record. -/
theorem Trail.append_eq_ok {c : Crates} {s : Trail} (h : Chained c s) (hopen : s.store.isSome)
    (entries : List AuditEntry) :
    ∃ t, Trail.append c true s entries =
        .ok ((records c s.head.1 s.head.2 entries).map (·.seq), t) ∧
      step c s (.append true entries) = some t ∧ t.store.isSome ∧
      t.entries = s.entries ++ entries ∧
      t.written = s.written ++ records c s.head.1 s.head.2 entries := by
  obtain ⟨store, hstore⟩ := Option.isSome_iff_exists.1 hopen
  obtain ⟨db, store', happ⟩ := AuditGateway.append_eq_ok (c := c) (h.seq_le_store hstore) entries
  obtain ⟨-, -, hw⟩ := append_inv (h.seq_le_store hstore) happ
  have hst := h.store_eq store hstore
  have hseqs : records c store.lastSeq store.lastHash entries =
      records c s.head.1 s.head.2 entries := by
    rw [← hst]
  rw [hst] at hw
  rw [hseqs] at happ
  refine ⟨⟨db, some store', s.entries ++ entries, s.written ++ newRows s.db db⟩,
    ?_, ?_, rfl, rfl, ?_⟩
  · simp only [Trail.append, hstore, happ]
    rfl
  · simp only [step, hstore, Option.map_some, happ]
  · rw [h.newRows_eq (List.Sublist.refl _) hw]

/-- A commit that fails is an error. -/
theorem Trail.append_false {c : Crates} {s : Trail} (h : Chained c s)
    (entries : List AuditEntry) : Trail.append c false s entries = .error .sqlite := by
  cases hstore : s.store with
  | none => simp only [Trail.append, hstore]
  | some store =>
    simp only [Trail.append, hstore, AuditGateway.append_false (h.seq_le_store hstore) entries]
    rfl

/-! ## Commands -/

/-- An entry in the queue or in a batch, with the number of the call that handed it in. `acked`
says whether that call waits for the commit. -/
structure Item where
  id : ℕ
  entry : AuditEntry
  acked : Bool

/-- What the callers send to the writer. -/
inductive Command
  | append (item : Item)
  | prune (id : ℕ) (cutoff : DateTime)
  | flush (id : ℕ)

namespace Command

/-- The number of the call. -/
def id : Command → ℕ
  | append item => item.id
  | prune id _ => id
  | flush id => id

/-- The entry that an append command holds. -/
def item? : Command → Option Item
  | append item => some item
  | _ => none

/-- The call that a flush command answers. -/
def flushId? : Command → Option ℕ
  | flush id => some id
  | _ => none

end Command

/-- The entries among some commands. -/
def items (commands : List Command) : List Item := commands.filterMap Command.item?

/-- The calls that handed in some entries. -/
def ids (batch : List Item) : List ℕ := batch.map (·.id)

/-- The entries nobody waits for. -/
def unacked (batch : List Item) : List Item := batch.filter fun item => !item.acked

/-- The entries somebody waits for. -/
def acked (batch : List Item) : List Item := batch.filter fun item => item.acked

/-- Where the writer stands. -/
inductive Writer
  /-- Waiting for the first command (with an empty batch), or looking for more. -/
  | collecting (batch : List Item)
  /-- The batch is complete; `after` is the command that ended it. -/
  | ready (batch : List Item) (after : Option Command)
  /-- The transaction runs. `lostBefore` is what the counter of lost records held. -/
  | writing (batch : List Item) (after : Option Command) (lostBefore : ℕ) (now : DateTime)
  /-- The batch is handled, the command that ended it is not. -/
  | finishing (command : Command)
  /-- A panic unwound the writer, and it is not restarted yet. -/
  | crashed

namespace Writer

/-- The writer behind a batch. -/
def afterBatch : Option Command → Writer
  | none => .collecting []
  | some command => .finishing command

/-- The command that ended the batch. -/
def after? : Writer → Option Command
  | ready _ after => after
  | writing _ after _ _ => after
  | finishing command => some command
  | _ => none

/-- The commands the writer has taken out of the queue and is not done with. -/
def current : Writer → List Command
  | collecting batch => batch.map .append
  | ready batch after => batch.map .append ++ after.toList
  | writing batch after _ _ => batch.map .append ++ after.toList
  | finishing command => [command]
  | crashed => []

/-- No transaction runs, and none has died. -/
def Idle : Writer → Prop
  | writing .. => False
  | crashed => False
  | _ => True

end Writer

/-- The record of lost records that goes into a batch. -/
def lostReport (now : DateTime) (lostBefore : ℕ) : List AuditEntry :=
  if 0 < lostBefore then [AuditEntry.new now (.eventsLost lostBefore)] else []

/-! ## The state -/

/-- The audit pipeline: callers, queue, writer and trail. -/
structure Pipeline where
  mode : FailMode
  trail : Trail
  /-- Records that could not be stored and are not reported yet. -/
  lost : ℕ
  /-- Counted as lost if the writer dies before the batch is stored. -/
  inFlight : ℕ
  /-- Commands of callers that wait for room in the queue. -/
  holding : List Command
  queue : List Command
  writer : Writer
  /-- Calls whose caller waits for the commit of its entry. -/
  waiting : List ℕ
  /-- Answers that were sent to a waiting caller and not read yet. -/
  answers : List (ℕ × Except AuditError ℤ)
  /-- The number of calls so far. -/
  calls : ℕ := 0
  /-- The calls that handed in an entry. -/
  handed : List ℕ := []
  /-- Every command ever queued, in that order. -/
  queued : List Command := []
  /-- Every command the writer is done with, in that order. -/
  past : List Command := []
  /-- Every entry ever stored, by the call that handed it in, with its row. -/
  log : List (ℕ × Row) := []
  /-- The entries whose batch failed. -/
  failed : List ℕ := []
  /-- The flush calls that were answered. -/
  flushed : List ℕ := []
  /-- What the prune calls were answered. -/
  pruned : List (ℕ × Except StoreError ℕ) := []
  /-- What the callers that waited for a commit got. -/
  returned : List (ℕ × Except AuditError ℤ) := []
  /-- The calls whose caller was dropped. -/
  cancelled : List ℕ := []
  /-- The entries that `lost` counts. -/
  lostIds : List ℕ := []
  /-- The entries that the record of lost records in the batch being written counts; behind a
  panic those that `inFlight` counts. -/
  flightIds : List ℕ := []
  /-- The entries that stored records of lost records count. -/
  reportedIds : List ℕ := []
  /-- The entries whose caller was told in fail-closed mode that they are not stored. -/
  refused : List ℕ := []
  /-- The entries that are neither stored nor counted. -/
  dropped : List ℕ := []

namespace Pipeline

/-- The pipeline just started on a trail. `saved` entries, those of the first calls, were lost
before the last stop and are not reported yet. -/
def start (mode : FailMode) (trail : Trail) (saved : ℕ) : Pipeline where
  mode := mode
  trail := trail
  lost := saved
  inFlight := 0
  holding := []
  queue := []
  writer := .collecting []
  waiting := []
  answers := []
  calls := saved
  handed := List.range saved
  lostIds := List.range saved

/-- What can happen. -/
inductive Op
  /-- The fail mode is changed. -/
  | setMode (mode : FailMode)
  /-- A caller hands in an entry; `waits` says that there is no room at once. -/
  | record (entry : AuditEntry) (waits : Bool)
  | recordCommitted (entry : AuditEntry)
  | pruneBefore (cutoff : DateTime)
  | flush
  /-- A caller that waits for room in the queue gets it. -/
  | send (id : ℕ)
  /-- A caller of `record` has waited for room for too long. -/
  | timeout (id : ℕ)
  /-- A caller is dropped at the point where it waits. -/
  | cancel (id : ℕ)
  /-- A caller reads its answer and returns. -/
  | finish (id : ℕ)
  /-- The writer takes a command out of the queue. -/
  | recv
  /-- The writer finds the queue empty and stops collecting. -/
  | tryRecvEmpty
  /-- The writer takes the count of lost records over. -/
  | startBatch (now : DateTime)
  /-- The transaction of the batch commits or fails, and its callers are answered. -/
  | write (commits : Bool)
  /-- The command behind the batch is handled. -/
  | finishCommand (commits : Bool) (now stamp : DateTime)
  /-- The writer panics before its transaction commits. -/
  | panic
  /-- The writer is restarted with the store opened again. -/
  | restart (commits : Bool) (now : DateTime)

/-! ## One step -/

/-- A new call. -/
def call (s : Pipeline) : Pipeline := { s with calls := s.calls + 1 }

/-- A new call that hands in an entry. -/
def handIn (s : Pipeline) : Pipeline :=
  { s with calls := s.calls + 1, handed := s.handed ++ [s.calls] }

/-- A caller waits for room with its command. -/
def hold (s : Pipeline) (command : Command) : Pipeline :=
  { s with holding := s.holding ++ [command] }

/-- A command is queued. Its caller waits for the commit if it asked for it. -/
def enqueue (s : Pipeline) (command : Command) : Pipeline :=
  { s with
    queue := s.queue ++ [command]
    queued := s.queued ++ [command]
    waiting := s.waiting ++ ids (acked (items [command])) }

/-- The writer answers the callers of a batch. An answer to a dropped caller is lost. -/
def deliver (s : Pipeline) (acks : List (ℕ × Except AuditError ℤ)) : Pipeline :=
  { s with
    answers := s.answers ++ acks.filter fun ack => ack.1 ∈ s.waiting
    waiting := s.waiting.filter fun id => id ∉ acks.map (·.1) }

/-- The answers to a batch that was stored: acknowledgements and numbers by position. -/
def storedAcks (batch : List Item) (seqs : List ℤ) : List (ℕ × Except AuditError ℤ) :=
  (batch.zip seqs).filterMap fun p => if p.1.acked then some (p.1.id, .ok p.2) else none

/-- The answers to a batch that was not stored. -/
def failedAcks (batch : List Item) (e : AuditError) : List (ℕ × Except AuditError ℤ) :=
  (acked batch).map fun item => (item.id, .error e)

/-- The entries of a batch whose caller asked for the commit and was dropped since. -/
def orphans (s : Pipeline) (batch : List Item) : List ℕ :=
  ids ((acked batch).filter fun item => item.id ∉ s.waiting)

/-- The rows of a batch by the calls that handed the entries in. -/
def logged (batch : List Item) (rows : List Row) : List (ℕ × Row) := (ids batch).zip rows

/-- The rows written since. -/
def rowsSince (before after : Trail) : List Row := after.written.drop before.written.length

/-- A batch is stored. -/
def stored (s : Pipeline) (batch : List Item) (after : Option Command) (seqs : List ℤ)
    (trail : Trail) : Pipeline :=
  deliver
    { s with
      trail := trail
      inFlight := 0
      writer := .afterBatch after
      past := s.past ++ batch.map .append
      log := s.log ++ logged batch (rowsSince s.trail trail)
      reportedIds := s.reportedIds ++ s.flightIds
      flightIds := [] }
    (storedAcks batch seqs)

/-- A batch is not stored. -/
def notStored (s : Pipeline) (batch : List Item) (after : Option Command) (lostBefore : ℕ)
    (e : StoreError) : Pipeline :=
  deliver
    { s with
      inFlight := 0
      lost := s.lost + (lostBefore + (unacked batch).length)
      writer := .afterBatch after
      past := s.past ++ batch.map .append
      failed := s.failed ++ ids batch
      lostIds := s.lostIds ++ (s.flightIds ++ ids (unacked batch))
      flightIds := []
      dropped := s.dropped ++ s.orphans batch }
    (failedAcks batch (.store e))

/-- The writer panics while it writes a batch: the acknowledgements of the batch and the command
behind it are dropped. -/
def unwound (s : Pipeline) (batch : List Item) (after : Option Command) : Pipeline :=
  deliver
    { s with
      writer := .crashed
      past := s.past ++ batch.map .append ++ after.toList
      failed := s.failed ++ ids batch
      flushed := s.flushed ++ after.toList.filterMap Command.flushId?
      flightIds := s.flightIds ++ ids (unacked batch)
      dropped := s.dropped ++ s.orphans batch }
    (failedAcks batch .writerStopped)

/-- A caller reads its answer. In fail-open mode it counts an entry that was not stored as lost;
in fail-closed mode it tells so. -/
def read (s : Pipeline) (id : ℕ) (answer : Except AuditError ℤ) : Pipeline :=
  match answer, s.mode with
  | .ok _, _ => s
  | .error _, .failOpen => { s with lost := s.lost + 1, lostIds := s.lostIds ++ [id] }
  | .error _, .failClosed => { s with refused := s.refused ++ [id] }

/-- The entry that disappears if its caller is dropped with this answer. -/
def unread (id : ℕ) : Except AuditError ℤ → List ℕ
  | .ok _ => []
  | .error _ => [id]

/-- One step. -/
def step (c : Crates) (s : Pipeline) : Op → Option Pipeline
  | .setMode mode => some { s with mode := mode }
  | .record entry waits =>
    match s.mode, waits with
    | .failOpen, false =>
      if s.queue.length < queueCapacity then
        some (s.handIn.enqueue (.append ⟨s.calls, entry, false⟩))
      else none
    | .failOpen, true => some (s.handIn.hold (.append ⟨s.calls, entry, false⟩))
    | .failClosed, _ => some (s.handIn.hold (.append ⟨s.calls, entry, true⟩))
  | .recordCommitted entry => some (s.handIn.hold (.append ⟨s.calls, entry, true⟩))
  | .pruneBefore cutoff => some (s.call.hold (.prune s.calls cutoff))
  | .flush => some (s.call.hold (.flush s.calls))
  | .send id =>
    match s.holding.find? fun command => command.id = id with
    | none => none
    | some command =>
      if s.queue.length < queueCapacity then
        some (enqueue { s with holding := s.holding.eraseP fun command => command.id = id } command)
      else none
  | .timeout id =>
    match s.holding.find? fun command => command.id = id with
    | some (.append ⟨_, _, false⟩) =>
      some { s with
        holding := s.holding.eraseP fun command => command.id = id
        lost := s.lost + 1
        lostIds := s.lostIds ++ [id] }
    | _ => none
  | .cancel id =>
    match s.holding.find? fun command => command.id = id with
    | some command =>
      some { s with
        holding := s.holding.eraseP fun command => command.id = id
        cancelled := s.cancelled ++ [id]
        dropped := s.dropped ++ ids (items [command]) }
    | none =>
      if id ∈ s.waiting then
        some { s with
          waiting := s.waiting.filter fun k => k ≠ id
          cancelled := s.cancelled ++ [id] }
      else
        match s.answers.find? fun answer => answer.1 = id with
        | some (_, answer) =>
          some { s with
            answers := s.answers.eraseP fun answer => answer.1 = id
            cancelled := s.cancelled ++ [id]
            dropped := s.dropped ++ unread id answer }
        | none => none
  | .finish id =>
    match s.answers.find? fun answer => answer.1 = id with
    | some (_, answer) =>
      some (read { s with
        answers := s.answers.eraseP fun answer => answer.1 = id
        returned := s.returned ++ [(id, answer)] } id answer)
    | none => none
  | .recv =>
    match s.writer, s.queue with
    | .collecting batch, command :: queue =>
      match command.item? with
      | some item =>
        if batch.length + 1 < maxBatch then
          some { s with queue := queue, writer := .collecting (batch ++ [item]) }
        else some { s with queue := queue, writer := .ready (batch ++ [item]) none }
      | none => some { s with queue := queue, writer := .ready batch (some command) }
    | _, _ => none
  | .tryRecvEmpty =>
    match s.writer, s.queue with
    | .collecting (item :: batch), [] => some { s with writer := .ready (item :: batch) none }
    | _, _ => none
  | .startBatch now =>
    match s.writer with
    | .ready [] after => some { s with writer := .afterBatch after }
    | .ready (item :: batch) after =>
      some { s with
        writer := .writing (item :: batch) after s.lost now
        inFlight := s.lost + (unacked (item :: batch)).length
        lost := 0
        flightIds := s.lostIds
        lostIds := [] }
    | _ => none
  | .write commits =>
    match s.writer with
    | .writing batch after lostBefore now =>
      match s.trail.append c commits (batch.map (·.entry) ++ lostReport now lostBefore) with
      | .ok (seqs, trail) => some (s.stored batch after seqs trail)
      | .error e => some (s.notStored batch after lostBefore e)
    | _ => none
  | .finishCommand commits now stamp =>
    match s.writer with
    | .finishing (.prune id cutoff) =>
      match s.trail.pruneBefore c commits cutoff now stamp with
      | .ok (n, trail) =>
        some { s with
          trail := trail
          writer := .collecting []
          past := s.past ++ [.prune id cutoff]
          pruned := s.pruned ++ [(id, .ok n)] }
      | .error e =>
        some { s with
          writer := .collecting []
          past := s.past ++ [.prune id cutoff]
          pruned := s.pruned ++ [(id, .error e)] }
    | .finishing (.flush id) =>
      some { s with
        writer := .collecting []
        past := s.past ++ [.flush id]
        flushed := s.flushed ++ [id] }
    | _ => none
  | .panic =>
    match s.writer with
    | .writing batch after _ _ => some (s.unwound batch after)
    | .finishing (.prune id cutoff) =>
      some { s with writer := .crashed, past := s.past ++ [.prune id cutoff] }
    | _ => none
  | .restart commits now =>
    match s.writer with
    | .crashed =>
      match openStore c commits now s.trail.db with
      | .error _ => none
      | .ok (db, store) =>
        some { s with
          trail := ⟨db, some store, s.trail.entries ++ Trail.openEntries now s.trail.db,
            s.trail.written ++ Trail.newRows s.trail.db db⟩
          writer := .collecting []
          lost := s.lost + s.inFlight
          inFlight := 0
          lostIds := s.lostIds ++ s.flightIds
          flightIds := [] }
    | _ => none

end Pipeline

end AuditGateway
