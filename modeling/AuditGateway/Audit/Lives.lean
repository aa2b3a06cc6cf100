import AuditGateway.Audit.Accounting
import AuditGateway.Audit.Chain

set_option relaxedAutoImplicit false
set_option autoImplicit false

/-!
# The audit over several processes

The process can be killed at any point. The trail stays, and so does the file behind the counter of
lost records. A thread of its own saves the counter every second, and the writer saves it behind
every batch; both hold a lock, so that the file never runs behind a report that is stored.

The last fields of the state record what became of the entries of earlier processes, for the
statements only.

## Main definitions

* `Lives` — pipeline, counter file and lock.
* `Lives.step` — one step of the pipeline, of a save, or the start of a new process.
* `Lives.Kept`, `Lives.Exact` — when a saved count is kept, and when it is kept exactly.

## Main results

* `Lives.refines_store` — whatever happens, the trail is one that the store could have made alone.
* `Lives.saved_is_kept` — a count that was saved is reported, or still in the file.
* `Lives.conserved_lives` — over all processes, every entry is accounted for.
-/

namespace AuditGateway

namespace Pipeline

variable {c : Crates} {s t : Pipeline} {op : Op}

/-- Steps of the writer thread. -/
def Op.isWriter : Op → Bool
  | .recv | .tryRecvEmpty | .startBatch _ | .write _ | .finishCommand .. | .panic | .restart .. =>
    true
  | _ => false

/-- The step behind which a batch is handled. -/
def Op.isWrite : Op → Bool
  | .write _ => true
  | _ => false

/-- Whether the writer is about to handle a batch. -/
def hasBatch (s : Pipeline) : Bool :=
  match s.writer with
  | .ready (_ :: _) _ => true
  | _ => false

/-- Whether the transaction of a batch runs. -/
def isWriting (s : Pipeline) : Bool :=
  match s.writer with
  | .writing .. => true
  | _ => false

/-- The number of lost entries that are counted anywhere. -/
def losses (s : Pipeline) : ℕ := eventsLost s.trail.entries + s.lost + s.unreported

/-! ## What a step of the pipeline counts -/

/-- The number of entries that are counted as lost, and of those reported. -/
def tally (s : Pipeline) : ℕ := s.reportedIds.length + s.lostIds.length + s.flightIds.length

/-- The losses are those reported and those that count. -/
theorem Tallied.losses_eq {n : ℕ} (h : Tallied n s) : s.losses = n + s.tally := by
  rw [losses, h.unreported_eq, h.lost_eq, h.reported_eq, tally]
  omega

/-- The books of one process, in numbers. -/
theorem Tallied.length_handed {n : ℕ} (h : Tallied n s) (hb : Balanced s) :
    s.handed.length + n = s.log.length + s.pending + s.lost + eventsLost s.trail.entries +
      s.refused.length + s.dropped.length := by
  have hcard := congrArg Multiset.card hb
  simp only [Multiset.coe_card, Multiset.card_add, card_accounted] at hcard
  rw [pending, h.unreported_eq, h.lost_eq, h.reported_eq]
  omega

/-- Nothing is in flight while no batch is being written and the writer has not died. -/
theorem unreported_eq_zero (hw : s.isWriting = false) (hcrashed : s.writer ≠ .crashed) :
    s.unreported = 0 := by
  unfold unreported
  unfold isWriting at hw
  split
  · next heq => simp [heq] at hw
  · next heq => exact absurd heq hcrashed
  · rfl

/-- What is counted once stays counted; unless a batch is written nothing more is reported. -/
structure CountsOn (s t : Pipeline) (write : Bool) : Prop where
  tally_le : s.tally ≤ t.tally
  reported_prefix : s.reportedIds <+: t.reportedIds
  reported_eq : write = false → t.reportedIds = s.reportedIds

/-- Nothing is reported, and `k` more entries are counted. -/
theorem CountsOn.add (k : ℕ) {write : Bool} (htally : t.tally = s.tally + k)
    (hreported : t.reportedIds = s.reportedIds) : CountsOn s t write :=
  ⟨by omega, hreported ▸ List.prefix_refl _, fun _ => hreported⟩

/-- A caller that reads its answer counts at most its own entry. -/
theorem countsOn_finish {id : ℕ} (hs : step c s (.finish id) = some t) : CountsOn s t false := by
  obtain ⟨answer, -, rfl⟩ := step_finish hs
  unfold Pipeline.read
  split
  · exact .add 0 rfl rfl
  · refine .add 1 ?_ rfl
    simp only [tally, List.length_append, List.length_singleton]
    omega
  · exact .add 0 rfl rfl

/-- The count that is taken over counts on. -/
theorem countsOn_startBatch {n : ℕ} (h : Ordered c s) (hc : Tallied n s) {now : DateTime}
    (hs : step c s (.startBatch now) = some t) : CountsOn s t false := by
  rcases startBatch_cases h hs with ⟨writer, queue, hcollected⟩ | ⟨item, batch, after, hw, rfl⟩
  · rw [hcollected.eq]
    exact .add 0 rfl rfl
  · -- the entries counted so far move into the batch
    have hflight := (hc.flight_eq_zero hw trivial).2
    refine .add 0 ?_ rfl
    simp only [tally, hflight, List.length_nil]
    omega

/-- The count behind a batch, in which it may be reported. -/
theorem countsOn_write {commits : Bool} (hs : step c s (.write commits) = some t) :
    CountsOn s t true := by
  obtain ⟨batch, after, lostBefore, now, -, hcase⟩ := step_write hs
  rcases hcase with ⟨seqs, trail, -, rfl⟩ | ⟨e, -, rfl⟩
  · refine ⟨?_, List.prefix_append .., fun hwrite => (by cases hwrite)⟩
    simp only [tally, stored, deliver, List.length_append, List.length_nil]
    omega
  · refine ⟨?_, List.prefix_refl _, fun hwrite => (by cases hwrite)⟩
    simp only [tally, notStored, deliver, List.length_append, List.length_nil]
    omega

/-- The count behind a panic. -/
theorem countsOn_panic (hs : step c s .panic = some t) : CountsOn s t false := by
  rcases step_panic hs with ⟨batch, after, lostBefore, now, -, rfl⟩ | ⟨id, cutoff, -, rfl⟩
  · refine .add (ids (unacked batch)).length ?_ rfl
    simp only [tally, unwound, deliver, List.length_append]
    omega
  · exact .add 0 rfl rfl

/-- **Step lemma**: what a step of the pipeline counts. -/
theorem countsOn_step {n : ℕ} (h : Ordered c s) (hc : Tallied n s) (hs : step c s op = some t) :
    CountsOn s t op.isWrite := by
  cases op with
  | setMode mode =>
    cases hs
    exact .add 0 rfl rfl
  | record entry waits =>
    rcases step_record hs with rfl | ⟨acked, rfl⟩
    · exact .add 0 rfl rfl
    · exact .add 0 rfl rfl
  | recordCommitted entry =>
    cases hs
    exact .add 0 rfl rfl
  | pruneBefore cutoff =>
    cases hs
    exact .add 0 rfl rfl
  | flush =>
    cases hs
    exact .add 0 rfl rfl
  | send id =>
    obtain ⟨command, -, rfl⟩ := step_send hs
    exact .add 0 rfl rfl
  | timeout id =>
    obtain ⟨entry, -, rfl⟩ := step_timeout hs
    refine .add 1 ?_ rfl
    simp only [tally, List.length_append, List.length_singleton]
    omega
  | cancel id =>
    rcases step_cancel hs with ⟨command, -, rfl⟩ | ⟨-, rfl⟩ | ⟨answer, -, rfl⟩
    · exact .add 0 rfl rfl
    · exact .add 0 rfl rfl
    · exact .add 0 rfl rfl
  | finish id => exact countsOn_finish hs
  | recv =>
    obtain ⟨writer, queue, hcollected⟩ := collected_recv hs
    rw [hcollected.eq]
    exact .add 0 rfl rfl
  | tryRecvEmpty =>
    obtain ⟨writer, queue, hcollected⟩ := collected_tryRecvEmpty hs
    rw [hcollected.eq]
    exact .add 0 rfl rfl
  | startBatch now => exact countsOn_startBatch h hc hs
  | write commits => exact countsOn_write hs
  | finishCommand commits now stamp =>
    rcases step_finishCommand hs with ⟨id, cutoff, -, hcase⟩ | ⟨id, -, rfl⟩
    · rcases hcase with ⟨m, trail, -, rfl⟩ | ⟨e, rfl⟩
      · exact .add 0 rfl rfl
      · exact .add 0 rfl rfl
    · exact .add 0 rfl rfl
  | panic => exact countsOn_panic hs
  | restart commits now =>
    obtain ⟨-, db, store, -, rfl⟩ := step_restart hs
    refine .add 0 ?_ rfl
    simp only [tally, List.length_append, List.length_nil]
    omega

/-- In numbers: `n` is what was reported before the process. -/
theorem counts_step {n : ℕ} (h : Ordered c s) (hc : Tallied n s) (hop : op.Plain)
    (hs : step c s op = some t) :
    s.losses ≤ t.losses ∧ eventsLost s.trail.entries ≤ eventsLost t.trail.entries ∧
      (op.isWrite = false → eventsLost t.trail.entries = eventsLost s.trail.entries) := by
  have hc' := tallied_step h hc hop hs
  obtain ⟨htally, hprefix, heq⟩ := countsOn_step h hc hs
  have hlen := hprefix.length_le
  rw [hc.losses_eq, hc'.losses_eq, hc.reported_eq, hc'.reported_eq]
  refine ⟨by omega, by omega, fun hwrite => ?_⟩
  rw [heq hwrite]

/-! ## Where the writer stands -/

/-- The steps of callers leave the writer alone. -/
theorem writer_eq (hs : step c s op = some t) (hop : op.isWriter = false) :
    t.writer = s.writer := by
  cases op with
  | setMode mode =>
    cases hs
    rfl
  | record entry waits =>
    rcases step_record hs with rfl | ⟨acked, rfl⟩
    · rfl
    · rfl
  | recordCommitted entry =>
    cases hs
    rfl
  | pruneBefore cutoff =>
    cases hs
    rfl
  | flush =>
    cases hs
    rfl
  | send id =>
    obtain ⟨command, -, rfl⟩ := step_send hs
    rfl
  | timeout id =>
    obtain ⟨entry, -, rfl⟩ := step_timeout hs
    rfl
  | cancel id =>
    rcases step_cancel hs with ⟨command, -, rfl⟩ | ⟨-, rfl⟩ | ⟨answer, -, rfl⟩
    · rfl
    · rfl
    · rfl
  | finish id =>
    obtain ⟨answer, -, rfl⟩ := step_finish hs
    unfold Pipeline.read
    split <;> rfl
  | _ => cases hop

/-- An idle writer writes nothing. -/
theorem isWriting_of_idle (hw : s.writer.Idle) : s.isWriting = false := by
  unfold isWriting
  cases heq : s.writer with
  | writing batch after lostBefore now =>
    rw [heq] at hw
    exact hw.elim
  | _ => rfl

/-- Behind a batch the writer is alive, and no transaction runs. -/
theorem idle_of_write (hs : step c s op = some t) (hop : op.isWrite = true) :
    s.isWriting = true ∧ t.writer.Idle := by
  cases op with
  | write commits =>
    obtain ⟨batch, after, lostBefore, now, hw, hcase⟩ := step_write hs
    refine ⟨by simp [isWriting, hw], ?_⟩
    rcases hcase with ⟨seqs, trail, -, rfl⟩ | ⟨e, -, rfl⟩
    · exact idle_afterBatch after
    · exact idle_afterBatch after
  | _ => cases hop

/-- Where a step leaves the writer. -/
theorem writer_step (h : Ordered c s) (hs : step c s op = some t) :
    op.isWriter = false ∧ t.writer = s.writer ∨ t.writer.Idle ∨
      (∃ now, op = .startBatch now ∧ s.hasBatch = true ∧ t.writer ≠ .crashed) ∨
        op = .panic ∧ t.writer = .crashed := by
  by_cases hop : op.isWriter = false
  · exact .inl ⟨hop, writer_eq hs hop⟩
  · refine .inr ?_
    cases op with
    | recv =>
      obtain ⟨writer, queue, hcollected⟩ := collected_recv hs
      rw [hcollected.eq]
      exact .inl hcollected.idle'
    | tryRecvEmpty =>
      obtain ⟨writer, queue, hcollected⟩ := collected_tryRecvEmpty hs
      rw [hcollected.eq]
      exact .inl hcollected.idle'
    | startBatch now =>
      rcases startBatch_cases h hs with ⟨writer, queue, hcollected⟩ | ⟨item, batch, after, heq, rfl⟩
      · rw [hcollected.eq]
        exact .inl hcollected.idle'
      · exact .inr (.inl ⟨now, rfl, by simp [hasBatch, heq], fun heq => by cases heq⟩)
    | write commits => exact .inl (idle_of_write hs rfl).2
    | finishCommand commits now stamp =>
      rcases step_finishCommand hs with ⟨id, cutoff, -, hcase⟩ | ⟨id, -, rfl⟩
      · rcases hcase with ⟨m, trail, -, rfl⟩ | ⟨e, rfl⟩
        · exact .inl trivial
        · exact .inl trivial
      · exact .inl trivial
    | panic =>
      rcases step_panic hs with ⟨batch, after, lostBefore, now, -, rfl⟩ | ⟨id, cutoff, -, rfl⟩
      · exact .inr (.inr ⟨rfl, rfl⟩)
      · exact .inr (.inr ⟨rfl, rfl⟩)
    | restart commits now =>
      obtain ⟨-, db, store, -, rfl⟩ := step_restart hs
      exact .inl trivial
    | _ => exact absurd rfl hop

/-- A transaction that runs has run before, or the writer starts it for the batch in hand. -/
theorem isWriting_step (h : Ordered c s) (hs : step c s op = some t) (hw : t.isWriting = true) :
    s.isWriting = true ∨ ∃ now, op = .startBatch now ∧ s.hasBatch = true := by
  rcases writer_step h hs with ⟨-, heq⟩ | hidle | ⟨now, rfl, hbatch, -⟩ | ⟨-, hcrashed⟩
  · rw [isWriting, heq] at hw
    exact .inl hw
  · rw [isWriting_of_idle hidle] at hw
    cases hw
  · exact .inr ⟨now, rfl, hbatch⟩
  · rw [isWriting, hcrashed] at hw
    cases hw

/-- Only a panic ends the writer. -/
theorem writer_ne_crashed_step (h : Ordered c s) (hs : step c s op = some t)
    (hop : op ≠ .panic) (hw : s.writer ≠ .crashed) : t.writer ≠ .crashed := by
  rcases writer_step h hs with ⟨-, heq⟩ | hidle | ⟨now, -, -, hne⟩ | ⟨heq, -⟩
  · exact heq ▸ hw
  · intro heq
    rw [heq] at hidle
    exact hidle
  · exact hne
  · exact absurd heq hop

/-! ## The trail under the pipeline -/

/-- A step leaves the trail alone, or is one of the store. -/
theorem trail_of_step (h : Ordered c s) (hs : step c s op = some t) :
    t.trail = s.trail ∨ ∃ op' : Trail.Op, op'.Intact ∧ s.trail.step c op' = some t.trail := by
  cases op with
  | setMode mode =>
    cases hs
    exact .inl rfl
  | record entry waits =>
    rcases step_record hs with rfl | ⟨acked, rfl⟩
    · exact .inl rfl
    · exact .inl rfl
  | recordCommitted entry =>
    cases hs
    exact .inl rfl
  | pruneBefore cutoff =>
    cases hs
    exact .inl rfl
  | flush =>
    cases hs
    exact .inl rfl
  | send id =>
    obtain ⟨command, -, rfl⟩ := step_send hs
    exact .inl rfl
  | timeout id =>
    obtain ⟨entry, -, rfl⟩ := step_timeout hs
    exact .inl rfl
  | cancel id =>
    rcases step_cancel hs with ⟨command, -, rfl⟩ | ⟨-, rfl⟩ | ⟨answer, -, rfl⟩
    · exact .inl rfl
    · exact .inl rfl
    · exact .inl rfl
  | finish id =>
    obtain ⟨answer, -, rfl⟩ := step_finish hs
    refine .inl ?_
    unfold Pipeline.read
    split <;> rfl
  | recv =>
    obtain ⟨writer, queue, hcollected⟩ := collected_recv hs
    rw [hcollected.eq]
    exact .inl rfl
  | tryRecvEmpty =>
    obtain ⟨writer, queue, hcollected⟩ := collected_tryRecvEmpty hs
    rw [hcollected.eq]
    exact .inl rfl
  | startBatch now =>
    rcases startBatch_cases h hs with ⟨writer, queue, hcollected⟩ | ⟨item, batch, after, -, rfl⟩
    · rw [hcollected.eq]
      exact .inl rfl
    · exact .inl rfl
  | write commits =>
    obtain ⟨batch, after, lostBefore, now, -, hcase⟩ := step_write hs
    rcases hcase with ⟨seqs, trail, ha, rfl⟩ | ⟨e, -, rfl⟩
    · cases commits with
      | false =>
        rw [Trail.append_false h.chained] at ha
        cases ha
      | true =>
        obtain ⟨trail', ha', hstep, -⟩ := Trail.append_eq_ok h.chained h.opened
          (batch.map (·.entry) ++ lostReport now lostBefore)
        rw [ha] at ha'
        obtain ⟨-, rfl⟩ := Prod.mk.inj (Except.ok.inj ha')
        exact .inr ⟨.append true _, trivial, hstep⟩
    · exact .inl rfl
  | finishCommand commits now stamp =>
    rcases step_finishCommand hs with ⟨id, cutoff, -, hcase⟩ | ⟨id, -, rfl⟩
    · rcases hcase with ⟨m, trail, hp, rfl⟩ | ⟨e, rfl⟩
      · exact .inr ⟨.pruneBefore commits cutoff now stamp, trivial, (step_of_pruneBefore hp).1⟩
      · exact .inl rfl
    · exact .inl rfl
  | panic =>
    rcases step_panic hs with ⟨batch, after, lostBefore, now, -, rfl⟩ | ⟨id, cutoff, -, rfl⟩
    · exact .inl rfl
    · exact .inl rfl
  | restart commits now =>
    obtain ⟨-, db, store, ho, rfl⟩ := step_restart hs
    exact .inr ⟨.openStore commits now, trivial, step_of_openStore ho⟩

end Pipeline

/-! ## The state -/

/-- The audit of a gateway that is started again and again. -/
structure Lives where
  audit : Pipeline
  /-- The count last written to the file. -/
  saved : ℕ
  /-- The count in the file. -/
  file : Option ℕ
  /-- The count that a save in progress has read. -/
  pending : Option ℕ
  /-- A batch is handled, and the counter is not saved behind it yet. -/
  unsaved : Bool
  /-- The count that the process took over from the file. -/
  carried : ℕ := 0
  /-- The number of entries handed in to earlier processes. -/
  callers : ℕ := 0
  /-- The number of those that are stored. -/
  stored : ℕ := 0
  /-- The number of those that are neither stored nor counted. -/
  gone : ℕ := 0

namespace Lives

/-- The first process on a trail. -/
def start (mode : FailMode) (trail : Trail) : Lives where
  audit := Pipeline.start mode trail 0
  saved := 0
  file := none
  pending := none
  unsaved := false

/-- What can happen. -/
inductive Op
  /-- A step of a caller or of the writer. -/
  | audit (op : Pipeline.Op)
  /-- `save_locked`, by the writer behind a batch or by the thread that saves, reads the counter. -/
  | load
  /-- It is done with the file. The file can be in place with an error behind it. -/
  | store (written ok : Bool)
  /-- The process is killed, and a new one starts. `reads` says that it can read the file. -/
  | restart (mode : FailMode) (commits : Bool) (now : DateTime) (reads : Bool)

/-- Whether the lock on the counter keeps the writer from a step. -/
def blocks (s : Lives) : Pipeline.Op → Bool
  | .startBatch _ => s.unsaved || (s.pending.isSome && s.audit.hasBatch)
  | op => s.unsaved && op.isWriter

/-- Whether somebody can start to save: the writer behind its batch, anyone else while the writer
has none in hand. -/
def canLoad (s : Lives) : Bool := s.pending.isNone && (s.unsaved || !s.audit.isWriting)

/-- The count in the file. -/
def fileCount (s : Lives) : ℕ := s.file.getD 0

/-- A process that takes `carried` over from the file. -/
def next (s : Lives) (mode : FailMode) (trail : Trail) (carried : ℕ) : Lives where
  audit := Pipeline.start mode trail carried
  saved := carried
  file := s.file
  pending := none
  unsaved := false
  carried := carried
  callers := s.callers + (s.audit.handed.length - s.carried)
  stored := s.stored + s.audit.log.length
  gone := s.gone + (s.audit.pending + s.audit.lost - carried) + s.audit.refused.length +
    s.audit.dropped.length

/-- One step. -/
def step (c : Crates) (s : Lives) : Op → Option Lives
  | .audit op =>
    if s.blocks op then none
    else (s.audit.step c op).map fun audit =>
      { s with audit := audit, unsaved := s.unsaved || op.isWrite }
  | .load =>
    if s.canLoad then
      if s.audit.lost = s.saved then some { s with unsaved := false }
      else some { s with pending := some s.audit.lost }
    else none
  | .store written ok =>
    match s.pending with
    | none => none
    | some now =>
      if ok && !written then none
      else some { s with
        file := if written then (if now = 0 then none else some now) else s.file
        saved := if ok then now else s.saved
        pending := none
        unsaved := false }
  | .restart mode commits now reads =>
    match openStore c commits now s.audit.trail.db with
    | .error _ => none
    | .ok (db, store) =>
      some (s.next mode ⟨db, some store,
        s.audit.trail.entries ++ Trail.openEntries now s.audit.trail.db,
        s.audit.trail.written ++ Trail.newRows s.audit.trail.db db⟩
        (if reads then s.fileCount else 0))

variable {c : Crates} {s t : Lives} {op : Op}

/-- What a step of the pipeline changes in the process. -/
theorem step_audit {op : Pipeline.Op} (hs : s.step c (.audit op) = some t) :
    s.blocks op = false ∧ ∃ audit, s.audit.step c op = some audit ∧
      t = { s with audit := audit, unsaved := s.unsaved || op.isWrite } := by
  simp only [step] at hs
  split_ifs at hs with hblocks
  obtain ⟨audit, haudit, rfl⟩ := Option.map_eq_some_iff.1 hs
  exact ⟨by simpa using hblocks, audit, haudit, rfl⟩

/-- What the thread that saves reads. -/
theorem step_load (hs : s.step c .load = some t) :
    s.canLoad = true ∧
      (s.audit.lost = s.saved ∧ t = { s with unsaved := false } ∨
        t = { s with pending := some s.audit.lost }) := by
  simp only [step] at hs
  split_ifs at hs with hload hsaved
  · cases hs
    exact ⟨hload, .inl ⟨hsaved, rfl⟩⟩
  · cases hs
    exact ⟨hload, .inr rfl⟩

/-- What it writes. -/
theorem step_store {written ok : Bool} (hs : s.step c (.store written ok) = some t) :
    (ok = true → written = true) ∧ ∃ now, s.pending = some now ∧
      t = { s with
        file := if written then (if now = 0 then none else some now) else s.file
        saved := if ok then now else s.saved
        pending := none
        unsaved := false } := by
  simp only [step] at hs
  split at hs
  · cases hs
  · next now hnow =>
    by_cases hok : (ok && !written) = true
    · rw [if_pos hok] at hs
      cases hs
    · rw [if_neg hok] at hs
      exact ⟨by simpa using hok, now, hnow, (Option.some.inj hs).symm⟩

/-- What a new process starts with. -/
theorem step_restart {mode : FailMode} {commits : Bool} {now : DateTime} {reads : Bool}
    (hs : s.step c (.restart mode commits now reads) = some t) :
    ∃ trail, s.audit.trail.step c (.openStore commits now) = some trail ∧ trail.store.isSome ∧
      eventsLost trail.entries = eventsLost s.audit.trail.entries ∧
      t = s.next mode trail (if reads then s.fileCount else 0) := by
  simp only [step] at hs
  split at hs
  · cases hs
  · next db store ho =>
    cases hs
    refine ⟨_, Pipeline.step_of_openStore ho, rfl, ?_, rfl⟩
    rw [eventsLost_append, Pipeline.eventsLost_openEntries, add_zero]

/-! ## The lock -/

/-- What the lock guarantees: nobody saves while a batch is written, a batch is saved before the
writer goes on, and a save in progress has read no more than is counted. -/
structure Locked (s : Lives) : Prop where
  no_save : s.pending.isSome → s.audit.isWriting = false
  batch_handled : s.unsaved = true → s.audit.isWriting = false ∧ s.audit.writer ≠ .crashed
  read_le : ∀ now ∈ s.pending, now ≤ s.audit.lost + s.audit.unreported

/-- The pipeline of the process that runs keeps order and counters. -/
structure Running (c : Crates) (s : Lives) : Prop where
  ordered : Pipeline.Ordered c s.audit
  tallied : ∃ n, Pipeline.Tallied n s.audit
  balanced : Pipeline.Balanced s.audit
  locked : Locked s

/-- The steps that a caller of the store promises: only the writer makes records of lost
records. -/
def Op.Plain : Op → Prop
  | .audit op => op.Plain
  | _ => True

/-- The first process runs. -/
theorem running_start {trail : Trail} (htrail : Trail.Chained c trail)
    (hopen : trail.store.isSome) (mode : FailMode) : Running c (start mode trail) where
  ordered := Pipeline.ordered_start htrail hopen mode 0
  tallied := ⟨_, Pipeline.tallied_start mode trail 0⟩
  balanced := Pipeline.balanced_start mode trail 0
  locked := ⟨fun _ => rfl, fun h => (by cases h), fun _ h => (by cases h)⟩

/-- A step of the pipeline keeps to the lock. -/
theorem Locked.audit (hl : Locked s) (h : Pipeline.Ordered c s.audit) {n : ℕ}
    (hc : Pipeline.Tallied n s.audit) {op : Pipeline.Op} (hop : op.Plain)
    (hblocks : s.blocks op = false) {audit : Pipeline} (hs : s.audit.step c op = some audit) :
    Locked { s with audit := audit, unsaved := s.unsaved || op.isWrite } := by
  have hwrite : op.isWrite = true → s.pending = none := fun hwrite => by
    by_contra hne
    have hno := hl.no_save (Option.isSome_iff_ne_none.2 hne)
    rw [(Pipeline.idle_of_write hs hwrite).1] at hno
    cases hno
  have hpending : s.pending.isSome → op.isWrite = false := fun hsome => by
    by_contra hne
    rw [hwrite (by simpa using hne)] at hsome
    cases hsome
  refine ⟨fun hsome => ?_, fun hunsaved => ?_, fun now hnow => ?_⟩
  · -- the lock keeps the writer from a new batch
    by_contra hwriting
    rcases Pipeline.isWriting_step h hs (by simpa using hwriting) with
      hbefore | ⟨now, rfl, hbatch⟩
    · rw [hl.no_save hsome] at hbefore
      cases hbefore
    · simp only [blocks, Bool.or_eq_false_iff, Bool.and_eq_false_iff] at hblocks
      replace hsome : s.pending.isSome = true := hsome
      rw [hsome, hbatch] at hblocks
      simp at hblocks
  · by_cases hop' : op.isWrite = true
    · have hidle := (Pipeline.idle_of_write hs hop').2
      refine ⟨Pipeline.isWriting_of_idle hidle, fun hcrashed => ?_⟩
      dsimp only at hcrashed
      rw [hcrashed] at hidle
      exact hidle
    · have hsaved : s.unsaved = true := by
        replace hunsaved : (s.unsaved || op.isWrite) = true := hunsaved
        simpa [hop'] using hunsaved
      have hcaller : op.isWriter = false := by
        cases op <;> simp_all [blocks, Pipeline.Op.isWriter]
      have heq := Pipeline.writer_eq hs hcaller
      dsimp only
      rw [Pipeline.isWriting, heq]
      exact hl.batch_handled hsaved
  · replace hnow : now ∈ s.pending := hnow
    have hsome : s.pending.isSome := Option.isSome_iff_exists.2 ⟨now, hnow⟩
    obtain ⟨hle, -, hreported⟩ := Pipeline.counts_step h hc hop hs
    have hread := hl.read_le now hnow
    rw [Pipeline.losses, Pipeline.losses, hreported (hpending hsome)] at hle
    dsimp only
    omega

/-- **Step lemma**: every step keeps order, counters and lock. -/
theorem running_step (h : Running c s) (hop : op.Plain) (hs : s.step c op = some t) :
    Running c t := by
  obtain ⟨hordered, ⟨n, htallied⟩, hbalanced, hlocked⟩ := h
  cases op with
  | audit op =>
    obtain ⟨hblocks, audit, haudit, rfl⟩ := step_audit hs
    exact ⟨Pipeline.ordered_step hordered haudit,
      ⟨n, Pipeline.tallied_step hordered htallied hop haudit⟩,
      Pipeline.balanced_step hordered htallied hbalanced haudit,
      hlocked.audit hordered htallied hop hblocks haudit⟩
  | load =>
    obtain ⟨hload, ⟨-, rfl⟩ | rfl⟩ := step_load hs
    · exact ⟨hordered, ⟨n, htallied⟩, hbalanced, hlocked.no_save, fun h => (by cases h),
        hlocked.read_le⟩
    · refine ⟨hordered, ⟨n, htallied⟩, hbalanced, fun _ => ?_, hlocked.batch_handled, ?_⟩
      · simp only [canLoad, Bool.and_eq_true, Bool.or_eq_true] at hload
        rcases hload.2 with hunsaved | hwriting
        · exact (hlocked.batch_handled hunsaved).1
        · simpa using hwriting
      · rintro _ ⟨⟩
        exact Nat.le_add_right _ _
  | store written ok =>
    obtain ⟨-, now, -, rfl⟩ := step_store hs
    exact ⟨hordered, ⟨n, htallied⟩, hbalanced, fun h => (by cases h), fun h => (by cases h),
      fun _ h => (by cases h)⟩
  | restart mode commits now reads =>
    obtain ⟨trail, htrail, hopen, -, rfl⟩ := step_restart hs
    exact ⟨Pipeline.ordered_start (Trail.chained_step hordered.chained htrail) hopen mode _,
      ⟨_, Pipeline.tallied_start mode trail _⟩, Pipeline.balanced_start mode trail _,
      fun _ => rfl, fun h => (by cases h), fun _ h => (by cases h)⟩

/-- **Run lemma**: so does every run. -/
theorem running_of_run (h : Running c s) {ops : List Op} (hops : ∀ op ∈ ops, op.Plain)
    (hr : Machine.run (step c) s ops = some t) : Running c t :=
  Machine.run_invariant_of_meets (C := fun _ op => op.Plain)
    (fun _ _ _ h hop hs => running_step h hop hs) h
    (Machine.meets_of_forall_mem _ (fun op hop _ => hops op hop) _) hr

/-! ## A run -/

/-- A caller finds no room, the count is saved, and the process is killed. -/
def savedRun : List Op :=
  [.audit (.record stoppedEntry true), .audit (.timeout 0), .load, .store true true]

/-- The next process stores an entry, and the record of the lost one with it. -/
def reportedRun : List Op :=
  [.restart .failOpen true ⟨1⟩ true, .audit (.record stoppedEntry false), .audit .recv,
    .audit .tryRecvEmpty, .audit (.startBatch ⟨2⟩), .audit (.write true), .load, .store true true]

/-- A run in which a count is saved, the process is killed, and the next one reports the count. -/
theorem run_savedRun : ∃ s t,
    Machine.run (step plainCrates) (start .failOpen Trail.opened) savedRun = some s ∧
      Machine.run (step plainCrates) s reportedRun = some t ∧
      s.fileCount = 1 ∧ eventsLost s.audit.trail.entries = 0 ∧ s.unsaved = false ∧
      t.fileCount = 0 ∧ eventsLost t.audit.trail.entries = 1 := by
  obtain ⟨s, hs⟩ := Option.isSome_iff_exists.1
    (show (Machine.run (step plainCrates) (start .failOpen Trail.opened) savedRun).isSome = true
      from rfl)
  have hall : Machine.run (step plainCrates) (start .failOpen Trail.opened)
      (savedRun ++ reportedRun) = Machine.run (step plainCrates) s reportedRun := by
    rw [Machine.run_append, hs, Option.bind_some]
  obtain ⟨t, ht⟩ := Option.isSome_iff_exists.1
    (show (Machine.run (step plainCrates) (start .failOpen Trail.opened)
      (savedRun ++ reportedRun)).isSome = true from rfl)
  have hreadS : (Machine.run (step plainCrates) (start .failOpen Trail.opened) savedRun).map
      (fun s => (s.fileCount, eventsLost s.audit.trail.entries, s.unsaved)) =
        some (1, 0, false) := rfl
  have hreadT : (Machine.run (step plainCrates) (start .failOpen Trail.opened)
      (savedRun ++ reportedRun)).map (fun t => (t.fileCount, eventsLost t.audit.trail.entries)) =
        some (0, 1) := rfl
  rw [hs, Option.map_some, Option.some.injEq, Prod.mk.injEq, Prod.mk.injEq] at hreadS
  rw [ht, Option.map_some, Option.some.injEq, Prod.mk.injEq] at hreadT
  exact ⟨s, t, hs, hall.symm.trans ht, hreadS.1, hreadS.2.1, hreadS.2.2, hreadT.1, hreadT.2⟩

/-! ## What the store could have done alone -/

/-- A step leaves the trail alone, or is one of the store. -/
theorem trail_of_step (h : Pipeline.Ordered c s.audit) (hs : s.step c op = some t) :
    Pipeline.Ordered c t.audit ∧ (t.audit.trail = s.audit.trail ∨
      ∃ op' : Trail.Op, op'.Intact ∧ s.audit.trail.step c op' = some t.audit.trail) := by
  cases op with
  | audit op =>
    obtain ⟨-, audit, haudit, rfl⟩ := step_audit hs
    exact ⟨Pipeline.ordered_step h haudit, Pipeline.trail_of_step h haudit⟩
  | load =>
    obtain ⟨-, ⟨-, rfl⟩ | rfl⟩ := step_load hs
    · exact ⟨h, .inl rfl⟩
    · exact ⟨h, .inl rfl⟩
  | store written ok =>
    obtain ⟨-, now, -, rfl⟩ := step_store hs
    exact ⟨h, .inl rfl⟩
  | restart mode commits now reads =>
    obtain ⟨trail, htrail, hopen, -, rfl⟩ := step_restart hs
    exact ⟨Pipeline.ordered_start (Trail.chained_step h.chained htrail) hopen mode _,
      .inr ⟨.openStore commits now, trivial, htrail⟩⟩

/-- **The pipeline refines the store.** Whatever callers, writer and saves do in whatever order,
with commits that fail, panics, and processes that are killed anywhere: the trail is one that the
store makes alone, by opening, appending and pruning. So the walk over its chain finds nothing. -/
theorem refines_store {life : List Trail.Op} {trail : Trail} (hlife : ∀ op ∈ life, op.Intact)
    (htrail : Machine.run (Trail.step c) Trail.init life = some trail)
    (hopen : trail.store.isSome) (mode : FailMode) {ops : List Op}
    (hr : Machine.run (step c) (start mode trail) ops = some t) :
    ∃ life', (∀ op ∈ life', op.Intact) ∧
      Machine.run (Trail.step c) trail life' = some t.audit.trail ∧
      ((∀ e ∈ t.audit.trail.entries, ReadsBack c e) →
        (verifyChain c t.audit.trail.db).error = none) := by
  have hstep : ∀ s op t, (Pipeline.Ordered c s.audit ∧ ∃ life', (∀ op ∈ life', op.Intact) ∧
      Machine.run (Trail.step c) trail life' = some s.audit.trail) → step c s op = some t →
      Pipeline.Ordered c t.audit ∧ ∃ life', (∀ op ∈ life', op.Intact) ∧
        Machine.run (Trail.step c) trail life' = some t.audit.trail := by
    rintro s op t ⟨h, life', hintact, hrun⟩ hs
    obtain ⟨hordered, heq | ⟨op', hop', htrail'⟩⟩ := trail_of_step h hs
    · exact ⟨hordered, life', hintact, heq ▸ hrun⟩
    · refine ⟨hordered, life' ++ [op'], fun op hop => ?_, ?_⟩
      · rcases List.mem_append.1 hop with hop | hop
        · exact hintact op hop
        · exact List.mem_singleton.1 hop ▸ hop'
      · exact (Machine.run_concat_eq_some _).2 ⟨_, hrun, htrail'⟩
  obtain ⟨hordered, life', hintact, hrun⟩ := Machine.run_invariant hstep
    ⟨Pipeline.ordered_start (Trail.chained_of_run htrail) hopen mode 0, [], by simp, rfl⟩ hr
  refine ⟨life', hintact, hrun, fun hread => ?_⟩
  have hall : Machine.run (Trail.step c) Trail.init (life ++ life') = some t.audit.trail := by
    rw [Machine.run_append, htrail]
    exact hrun
  obtain ⟨hchained, hwhole⟩ := Trail.whole_of_run (fun op hop =>
    (List.mem_append.1 hop).elim (hlife op) (hintact op)) hall
  exact verifyChain_error_eq_none_iff.2 (hwhole.verified hchained hread)

/-- Its trail is one that the store reaches alone. -/
theorem refines_store_reportedRun : ∃ t life',
    Machine.run (step plainCrates) (start .failOpen Trail.opened) (savedRun ++ reportedRun) =
      some t ∧
    Machine.run (Trail.step plainCrates) Trail.opened life' = some t.audit.trail := by
  obtain ⟨s, t, hs, ht, -⟩ := run_savedRun
  have hr : Machine.run (step plainCrates) (start .failOpen Trail.opened)
      (savedRun ++ reportedRun) = some t := by
    rw [Machine.run_append, hs]
    exact ht
  obtain ⟨life', -, hlife', -⟩ := refines_store (by simp [Trail.Op.Intact])
    (Trail.run_opened plainCrates) rfl .failOpen hr
  exact ⟨t, life', hr, hlife'⟩

/-! ## A saved count is kept -/

/-- A save does not read the counter of a writer that has died, and a new process can read the
file. -/
def Kept (s : Lives) : Op → Prop
  | .audit op => op.Plain
  | .load => s.audit.writer ≠ .crashed
  | .store .. => True
  | .restart _ _ _ reads => reads = true

/-- A condition on saves includes that callers make no records of lost records. -/
theorem Kept.plain (h : Kept s op) : op.Plain := by
  cases op with
  | audit op => exact h
  | _ => trivial

/-- No writer panics, and every new process can read the file. -/
def Op.Calm : Op → Prop
  | .audit op => op.Plain ∧ op ≠ .panic
  | .restart _ _ _ reads => reads = true
  | _ => True

/-- What keeps a saved count in a run without panics. -/
theorem kept_of_calm {ops : List Op} (h : Pipeline.Ordered c s.audit)
    (hw : s.audit.writer ≠ .crashed) (hops : ∀ op ∈ ops, op.Calm) :
    Machine.Meets (step c) Kept s ops := by
  refine Machine.Meets.of_invariant (C := fun _ op => op.Calm)
    (I := fun s => Pipeline.Ordered c s.audit ∧ s.audit.writer ≠ .crashed) ?_ ?_ ⟨h, hw⟩
    (Machine.meets_of_forall_mem _ (fun op hop _ => hops op hop) _)
  · rintro u op v ⟨hu, hne⟩ hop hs
    refine ⟨(trail_of_step hu hs).1, ?_⟩
    cases op with
    | audit op =>
      obtain ⟨-, audit, haudit, rfl⟩ := step_audit hs
      exact Pipeline.writer_ne_crashed_step hu haudit hop.2 hne
    | load =>
      obtain ⟨-, ⟨-, rfl⟩ | rfl⟩ := step_load hs
      · exact hne
      · exact hne
    | store written ok =>
      obtain ⟨-, now, -, rfl⟩ := step_store hs
      exact hne
    | restart mode commits now reads =>
      obtain ⟨trail, -, -, -, rfl⟩ := step_restart hs
      exact fun heq => by cases heq
  · rintro u op ⟨-, hne⟩ hop
    cases op with
    | audit op => exact hop.1
    | load => exact hne
    | store written ok => trivial
    | restart mode commits now reads => exact hop

/-- `b` lost entries are reported or in the file, and reported or counted. -/
structure Holds (b : ℕ) (s : Lives) : Prop where
  in_file : b ≤ eventsLost s.audit.trail.entries + s.fileCount
  counted : b ≤ s.audit.losses
  read : ∀ now ∈ s.pending, b ≤ eventsLost s.audit.trail.entries + now

/-- What is in the file behind a save. -/
theorem fileCount_store (s : Lives) (written ok : Bool) (now : ℕ) :
    fileCount { s with
      file := if written then (if now = 0 then none else some now) else s.file
      saved := if ok then now else s.saved
      pending := none
      unsaved := false } = if written then now else s.fileCount := by
  cases written with
  | false => rfl
  | true =>
    by_cases hnow : now = 0
    · simp [fileCount, hnow]
    · simp [fileCount, hnow]

/-- Whoever starts to save finds no entry in flight. -/
theorem Running.unreported_of_canLoad (h : Running c s) (hload : s.canLoad = true)
    (hcrashed : s.audit.writer ≠ .crashed) : s.audit.unreported = 0 := by
  simp only [canLoad, Bool.and_eq_true, Bool.or_eq_true] at hload
  refine Pipeline.unreported_eq_zero ?_ hcrashed
  rcases hload.2 with hunsaved | hwriting
  · exact (h.locked.batch_handled hunsaved).1
  · simpa using hwriting

/-- **Step lemma**: what is saved is kept. -/
theorem holds_step {b : ℕ} (h : Running c s) (hb : Holds b s) (hop : Kept s op)
    (hs : s.step c op = some t) : Holds b t := by
  obtain ⟨hfile, hcounted, hread⟩ := hb
  cases op with
  | audit op =>
    obtain ⟨-, audit, haudit, rfl⟩ := step_audit hs
    obtain ⟨n, htallied⟩ := h.tallied
    obtain ⟨hlosses, hreported, -⟩ := Pipeline.counts_step h.ordered htallied hop haudit
    refine ⟨hfile.trans (Nat.add_le_add_right hreported _), hcounted.trans hlosses, ?_⟩
    exact fun now hnow => (hread now hnow).trans (Nat.add_le_add_right hreported _)
  | load =>
    obtain ⟨hload, ⟨-, rfl⟩ | rfl⟩ := step_load hs
    · exact ⟨hfile, hcounted, hread⟩
    · refine ⟨hfile, hcounted, ?_⟩
      rintro _ ⟨⟩
      rw [Pipeline.losses, h.unreported_of_canLoad hload hop, add_zero] at hcounted
      exact hcounted
  | store written ok =>
    obtain ⟨-, now, hnow, rfl⟩ := step_store hs
    refine ⟨?_, hcounted, fun _ hnone => (by cases hnone)⟩
    rw [fileCount_store]
    cases written with
    | false => exact hfile
    | true => exact hread now hnow
  | restart mode commits now reads =>
    obtain ⟨trail, -, -, hentries, rfl⟩ := step_restart hs
    obtain rfl : reads = true := hop
    have hsame : b ≤ eventsLost trail.entries + s.fileCount := by rw [hentries]; exact hfile
    exact ⟨hsame, hsame, fun _ hnone => (by cases hnone)⟩

/-- Behind a save, everything in the file is counted. -/
theorem holds_of_store (h : Running c s) (hs : s.step c (.store true true) = some t) :
    Holds (eventsLost t.audit.trail.entries + t.fileCount) t := by
  obtain ⟨-, now, hnow, rfl⟩ := step_store hs
  refine ⟨le_rfl, ?_, fun _ hnone => (by cases hnone)⟩
  have hread := h.locked.read_le now hnow
  rw [fileCount_store, Pipeline.losses]
  simp only [if_true]
  omega

/-- **A saved count is never forgotten.** Once a save is done, the count in the file is part of a
stored record of lost records or still in the file, whatever happens: commits that fail, panics,
saves that fail, and processes that are killed anywhere. It needs that every new process can read
the file, and that no save comes between a panic and the restart of the writer, when the counter
lacks the entries of the batch that died. -/
theorem saved_is_kept {life : List Trail.Op} {trail : Trail}
    (hlife : Machine.run (Trail.step c) Trail.init life = some trail)
    (hopen : trail.store.isSome) (mode : FailMode) {before after : List Op}
    (hbefore : ∀ op ∈ before, op.Plain)
    (hsave : Machine.run (step c) (start mode trail) (before ++ [.store true true]) = some s)
    (hafter : Machine.Meets (step c) Kept s after)
    (hr : Machine.run (step c) s after = some t) :
    eventsLost s.audit.trail.entries + s.fileCount ≤
        eventsLost t.audit.trail.entries + t.fileCount ∧
      eventsLost s.audit.trail.entries + s.fileCount ≤ t.audit.losses := by
  obtain ⟨u, hu, hs⟩ := (Machine.run_concat_eq_some _).1 hsave
  have hrunning := running_of_run
    (running_start (Trail.chained_of_run hlife) hopen mode) hbefore hu
  have hplain : Op.Plain (.store true true) := trivial
  set b := eventsLost s.audit.trail.entries + s.fileCount with hb
  have hstep : ∀ u op v, (Running c u ∧ Holds b u) → Kept u op → u.step c op = some v →
      Running c v ∧ Holds b v := by
    rintro u op v ⟨hu, hholds⟩ hop hs
    exact ⟨running_step hu hop.plain hs, holds_step hu hholds hop hs⟩
  obtain ⟨-, hholds⟩ := Machine.run_invariant_of_meets hstep
    ⟨running_step hrunning hplain hs, holds_of_store hrunning hs⟩ hafter hr
  exact ⟨hholds.in_file, hholds.counted⟩

/-- The saved count is in the trail in the end. -/
theorem saved_is_kept_reportedRun : ∃ s t,
    Machine.run (step plainCrates) (start .failOpen Trail.opened) savedRun = some s ∧
      Machine.run (step plainCrates) s reportedRun = some t ∧
      1 ≤ eventsLost t.audit.trail.entries + t.fileCount := by
  obtain ⟨s, t, hs, ht, hfile, hreported, -⟩ := run_savedRun
  have hbefore : ∀ op ∈ savedRun.dropLast, op.Plain := by
    simp [savedRun, Op.Plain, Pipeline.Op.Plain, stoppedEntry, AuditEntry.new, AuditEvent.lost]
  have hcalm : ∀ op ∈ savedRun ++ reportedRun, op.Calm := by
    simp [savedRun, reportedRun, Op.Calm, Pipeline.Op.Plain, stoppedEntry, AuditEntry.new,
      AuditEvent.lost]
  have hkept := kept_of_calm (Pipeline.ordered_start
    (Trail.chained_of_run (Trail.run_opened plainCrates)) rfl .failOpen 0)
    (s := start .failOpen Trail.opened) (fun heq => by cases heq) hcalm
  have hafter := ((Machine.meets_append _).1 hkept).2 s hs
  have h := (saved_is_kept (Trail.run_opened plainCrates) rfl .failOpen hbefore hs hafter ht).1
  rw [hfile, hreported] at h
  exact ⟨s, t, hs, ht, h⟩

/-! ## Nothing is counted twice -/

/-- A new process finds a file that it can read and that is saved behind the last batch, and a save
is done or leaves the file alone; behind a batch it is done. -/
def Exact (s : Lives) : Op → Prop
  | .audit op => op.Plain
  | .load => True
  | .store written ok => written = ok ∧ (s.unsaved = true → ok = true)
  | .restart _ _ _ reads => reads = true ∧ s.unsaved = false

/-- This condition, too, includes that callers make no records of lost records. -/
theorem Exact.plain (h : Exact s op) : op.Plain := by
  cases op with
  | audit op => exact h
  | _ => trivial

/-- The number of entries handed in to all processes. -/
def allHanded (s : Lives) : ℕ := s.callers + (s.audit.handed.length - s.carried)

/-- The number of those that are stored. -/
def allStored (s : Lives) : ℕ := s.stored + s.audit.log.length

/-- The books over all processes; `n` is what was reported before the one that runs, and `n₀` what
was reported before the first. The file holds what is counted and not reported, except between a
batch and the save behind it. -/
structure Books (n₀ n : ℕ) (s : Lives) : Prop where
  tallied : Pipeline.Tallied n s.audit
  earlier : s.stored + s.gone + n + s.carried = s.callers + n₀
  carried_le : s.carried ≤ s.audit.handed.length
  saved_eq : s.saved = s.fileCount
  file_le : s.unsaved = false → s.fileCount ≤ s.audit.lost + s.audit.unreported

/-- The books of the first process. -/
theorem books_start (mode : FailMode) (trail : Trail) :
    Books (eventsLost trail.entries) (eventsLost trail.entries) (start mode trail) where
  tallied := Pipeline.tallied_start mode trail 0
  earlier := rfl
  carried_le := Nat.zero_le _
  saved_eq := rfl
  file_le := fun _ => Nat.zero_le _

/-- A step of the pipeline keeps the books. -/
theorem Books.audit {n₀ n : ℕ} (hb : Books n₀ n s) (h : Running c s) {op : Pipeline.Op}
    (hop : op.Plain) {audit : Pipeline} (hs : s.audit.step c op = some audit) :
    Books n₀ n { s with audit := audit, unsaved := s.unsaved || op.isWrite } := by
  have htallied := Pipeline.tallied_step h.ordered hb.tallied hop hs
  refine ⟨htallied, hb.earlier, ?_, hb.saved_eq, fun hunsaved => ?_⟩
  · exact hb.carried_le.trans (Pipeline.handed_prefix hs).length_le
  · simp only [Bool.or_eq_false_iff] at hunsaved
    obtain ⟨hlosses, -, hreported⟩ := Pipeline.counts_step h.ordered hb.tallied hop hs
    have hfile := hb.file_le hunsaved.1
    rw [Pipeline.losses, Pipeline.losses, hreported hunsaved.2] at hlosses
    show s.fileCount ≤ audit.lost + audit.unreported
    omega

/-- What a process takes over is what the last one had counted, and no more. -/
theorem Books.next {n₀ n : ℕ} (hb : Books n₀ n s) (h : Running c s) (hsaved : s.unsaved = false)
    (mode : FailMode) {trail : Trail}
    (hentries : eventsLost trail.entries = eventsLost s.audit.trail.entries) :
    Books n₀ (eventsLost trail.entries) (s.next mode trail s.fileCount) := by
  have hhanded := hb.tallied.length_handed h.balanced
  have hfile := hb.file_le hsaved
  have hunreported : s.audit.unreported ≤ s.audit.pending := by
    rw [Pipeline.pending]
    omega
  have hearlier := hb.earlier
  have hcarried := hb.carried_le
  refine ⟨Pipeline.tallied_start mode trail _, ?_, ?_, rfl, fun _ => Nat.le_add_right _ _⟩
  · simp only [Lives.next, hentries]
    omega
  · show s.fileCount ≤ (List.range s.fileCount).length
    rw [List.length_range]

/-- **Step lemma**: every exact step keeps the books. -/
theorem books_step {n₀ n : ℕ} (h : Running c s) (hb : Books n₀ n s) (hop : Exact s op)
    (hs : s.step c op = some t) : ∃ m, Books n₀ m t := by
  cases op with
  | audit op =>
    obtain ⟨-, audit, haudit, rfl⟩ := step_audit hs
    exact ⟨n, hb.audit h hop haudit⟩
  | load =>
    obtain ⟨hload, ⟨hsame, rfl⟩ | rfl⟩ := step_load hs
    · refine ⟨n, { hb with file_le := fun _ => ?_ }⟩
      show s.fileCount ≤ s.audit.lost + s.audit.unreported
      rw [← hb.saved_eq, hsame]
      exact Nat.le_add_right _ _
    · exact ⟨n, { hb with }⟩
  | store written ok =>
    obtain ⟨-, now, hnow, rfl⟩ := step_store hs
    obtain ⟨rfl, hunsaved⟩ := hop
    have hread := h.locked.read_le now hnow
    refine ⟨n, { hb with saved_eq := ?_, file_le := fun _ => ?_ }⟩
    · rw [fileCount_store, ← hb.saved_eq]
    · rw [fileCount_store]
      cases written with
      | false =>
        -- nobody but the thread that saves leaves the file as it is
        refine hb.file_le ?_
        by_contra hne
        cases hunsaved (by simpa using hne)
      | true => exact hread
  | restart mode commits now reads =>
    obtain ⟨trail, -, -, hentries, rfl⟩ := step_restart hs
    obtain ⟨rfl, hsaved⟩ := hop
    exact ⟨_, hb.next h hsaved mode hentries⟩

/-- **No entry is lost twice, or lost and stored.** Over any number of processes, killed anywhere
except between a batch and the save behind it, the entries handed in are as many as those stored,
reported as lost, counted, on their way, refused to a caller, dropped with one, and gone with a
process before they were saved. -/
theorem conserved_lives {life : List Trail.Op} {trail : Trail}
    (hlife : Machine.run (Trail.step c) Trail.init life = some trail)
    (hopen : trail.store.isSome) (mode : FailMode) {ops : List Op}
    (hops : Machine.Meets (step c) Exact (start mode trail) ops)
    (hr : Machine.run (step c) (start mode trail) ops = some t) :
    t.allHanded + eventsLost trail.entries =
      t.allStored + eventsLost t.audit.trail.entries + t.audit.lost + t.audit.pending +
        t.audit.refused.length + t.audit.dropped.length + t.gone := by
  have hstep : ∀ u op v, (Running c u ∧ ∃ n, Books (eventsLost trail.entries) n u) → Exact u op →
      u.step c op = some v → Running c v ∧ ∃ n, Books (eventsLost trail.entries) n v := by
    rintro u op v ⟨hu, n, hb⟩ hop hs
    exact ⟨running_step hu hop.plain hs, books_step hu hb hop hs⟩
  obtain ⟨hrunning, n, hb⟩ := Machine.run_invariant_of_meets hstep
    ⟨running_start (Trail.chained_of_run hlife) hopen mode, _, books_start mode trail⟩ hops hr
  have hhanded := hb.tallied.length_handed hrunning.balanced
  have hearlier := hb.earlier
  have hcarried := hb.carried_le
  rw [allHanded, allStored]
  omega

/-- The books over both processes. -/
theorem conserved_lives_reportedRun : ∃ t,
    Machine.run (step plainCrates) (start .failOpen Trail.opened) (savedRun ++ reportedRun) =
      some t ∧
    t.allHanded = t.allStored + 1 + t.audit.lost + t.audit.pending + t.audit.refused.length +
      t.audit.dropped.length + t.gone := by
  obtain ⟨s, t, hs, ht, -, -, hunsaved, -, hreported⟩ := run_savedRun
  have hr : Machine.run (step plainCrates) (start .failOpen Trail.opened)
      (savedRun ++ reportedRun) = some t := by
    rw [Machine.run_append, hs]
    exact ht
  have hops : Machine.Meets (step plainCrates) Exact (start .failOpen Trail.opened)
      (savedRun ++ reportedRun) := by
    refine (Machine.meets_append _).2 ⟨Machine.meets_of_forall_mem _ ?_ _, fun u hu => ?_⟩
    · simp [savedRun, Exact, Pipeline.Op.Plain, stoppedEntry, AuditEntry.new, AuditEvent.lost]
    · obtain rfl : s = u := Option.some.inj (hs.symm.trans hu)
      refine ⟨⟨rfl, hunsaved⟩, fun v _ => Machine.meets_of_forall_mem _ ?_ _⟩
      simp [Exact, Pipeline.Op.Plain, stoppedEntry, AuditEntry.new, AuditEvent.lost]
  have h := conserved_lives (Trail.run_opened plainCrates) rfl .failOpen hops hr
  rw [hreported] at h
  exact ⟨t, hr, h⟩

end Lives

end AuditGateway
