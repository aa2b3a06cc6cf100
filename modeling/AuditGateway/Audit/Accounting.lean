import AuditGateway.Audit.WriterOrder
import Mathlib.Algebra.Order.Group.Multiset
import Mathlib.Tactic.Abel

set_option relaxedAutoImplicit false
set_option autoImplicit false

/-!
# Accounting for entries in fail-open mode

Every entry handed in is stored, on its way, counted as lost, or counted by a stored record of
lost records, unless a dropped caller was the only one who could have counted it. So the books
balance after a run exactly if no step drops an entry that nobody counts.

## Main definitions

* `Pipeline.accounted` — the entries that are stored, on their way or counted.
* `Pipeline.Balanced`, `Pipeline.Counted` — the invariants of every run.
* `Pipeline.Conserved` — nothing has disappeared.
* `Pipeline.Safe` — the steps that drop no entry.

## Main results

* `Pipeline.balanced_step` — every step keeps the books.
* `Pipeline.conserved_iff` — nothing disappears exactly if every step is safe.
* `Pipeline.entry_disappears` — an entry of a dropped caller that nobody counts.
-/

namespace AuditGateway

/-- How many records a record of lost records counts. -/
def AuditEvent.lost : AuditEvent → ℕ
  | eventsLost count => count
  | _ => 0

/-- How many records some entries count as lost. -/
def eventsLost (entries : List AuditEntry) : ℕ := (entries.map (·.event.lost)).sum

/-- Lost records add up over two lists of entries. -/
@[simp] theorem eventsLost_append (l m : List AuditEntry) :
    eventsLost (l ++ m) = eventsLost l + eventsLost m := by
  simp [eventsLost]

/-- The record of lost records counts what it was made for. -/
theorem eventsLost_lostReport (now : DateTime) (n : ℕ) : eventsLost (lostReport now n) = n := by
  unfold lostReport
  split_ifs with h
  · simp [eventsLost, AuditEntry.new, AuditEvent.lost]
  · simp only [eventsLost, List.map_nil, List.sum_nil]
    omega

/-- The entries among some commands, as a multiset. -/
def held (commands : List Command) : Multiset ℕ := (ids (items commands) : Multiset ℕ)

/-- The calls of two lists of commands together. -/
@[simp] theorem held_append (l m : List Command) : held (l ++ m) = held l + held m := by
  rw [held, items_append, ids_append, ← Multiset.coe_add]
  rfl

/-- A batch that is queued again holds the calls of its items. -/
@[simp] theorem held_map_append (batch : List Item) : held (batch.map .append) = (ids batch) := by
  rw [held, items_map_append]

/-- No command holds no call. -/
theorem held_nil : held [] = 0 := rfl

/-- A queued entry holds its own call. -/
theorem held_singleton_append (item : Item) : held [.append item] = {item.id} := rfl

/-- The calls do not depend on the order of the commands. -/
theorem held_of_perm {l : List Command} {command : Command} {m : List Command}
    (h : l.Perm (command :: m)) : held l = held [command] + held m := by
  rw [← held_append, List.singleton_append]
  exact Multiset.coe_eq_coe.2 ((h.filterMap _).map _)

/-- Commands without entries hold no call. -/
theorem held_eq_zero {l : List Command} (h : items l = []) : held l = 0 := by
  rw [held, h]
  rfl

namespace Pipeline

variable {c : Crates} {s t : Pipeline}

/-- The entries whose error answer is not read yet. -/
def unreadIds (answers : List (ℕ × Except AuditError ℤ)) : List ℕ :=
  answers.flatMap fun answer => unread answer.1 answer.2

/-- Unread errors add up over two lists of answers. -/
@[simp] theorem unreadIds_append (l m : List (ℕ × Except AuditError ℤ)) :
    unreadIds (l ++ m) = unreadIds l ++ unreadIds m := List.flatMap_append ..

/-- The entries that are stored, held by a caller, queued or in the batch being written, waiting
as an error for a caller to count them, counted as lost, or counted by a record of lost records
that is stored or being written. -/
def accounted (s : Pipeline) : Multiset ℕ :=
  (s.log.map Prod.fst) + held s.holding + held (s.writer.current ++ s.queue) +
    (unreadIds s.answers) + s.lostIds + s.flightIds + s.reportedIds

/-- Every entry handed in is accounted for, or its caller was told in fail-closed mode, or it is
dropped. -/
def Balanced (s : Pipeline) : Prop :=
  (s.handed : Multiset ℕ) = s.accounted + s.refused + s.dropped

/-! ## The books after a batch -/

/-- The answers to a stored batch are no errors. -/
theorem unreadIds_storedAcks (batch : List Item) (seqs : List ℤ)
    (p : ℕ × Except AuditError ℤ → Bool) :
    unreadIds ((storedAcks batch seqs).filter p) = [] := by
  rw [unreadIds, List.flatMap_eq_nil_iff]
  rintro ⟨k, a⟩ hmem
  cases a with
  | ok n => rfl
  | error e => exact absurd (List.mem_of_mem_filter hmem) ok_of_mem_storedAcks

/-- The answers to a failed batch that reach a caller are those of its callers that wait. -/
theorem unreadIds_failedAcks (s : Pipeline) (batch : List Item) (e : AuditError) :
    unreadIds ((failedAcks batch e).filter fun ack => ack.1 ∈ s.waiting) =
      ids ((acked batch).filter fun item => item.id ∈ s.waiting) := by
  rw [failedAcks, List.filter_map, unreadIds, List.flatMap_map, ids]
  exact List.flatMap_pure_eq_map _ _

/-- The entries of a failed batch are those nobody waited for, those whose caller is still there,
and those whose caller is gone. -/
theorem ids_batch_eq (s : Pipeline) (batch : List Item) :
    ((ids batch : List ℕ) : Multiset ℕ) =
      (ids (unacked batch)) +
        ((ids ((acked batch).filter fun item => item.id ∈ s.waiting)) + (s.orphans batch)) := by
  have h₁ : (unacked batch ++ acked batch).Perm batch := by
    have := List.filter_append_perm (fun item : Item => !item.acked) batch
    simpa [unacked, acked] using this
  have h₂ : ((acked batch).filter (fun item => item.id ∈ s.waiting) ++
      (acked batch).filter (fun item => item.id ∉ s.waiting)).Perm (acked batch) := by
    have := List.filter_append_perm (fun item : Item => decide (item.id ∈ s.waiting)) (acked batch)
    simpa using this
  rw [orphans, Multiset.coe_add, Multiset.coe_add, ← ids_append, ← ids_append]
  exact Multiset.coe_eq_coe.2 (((h₁.symm).trans (h₂.symm.append_left _)).map _)

/-- The calls of the logged entries of a batch. -/
theorem map_fst_logged (h : Ordered c s) {batch : List Item} {more : List AuditEntry}
    {commits : Bool} {seqs : List ℤ} {trail : Trail}
    (ha : s.trail.append c commits (batch.map (·.entry) ++ more) = .ok (seqs, trail)) :
    (logged batch (rowsSince s.trail trail)).map Prod.fst = ids batch ∧
      trail.entries = s.trail.entries ++ (batch.map (·.entry) ++ more) := by
  cases commits with
  | false =>
    rw [Trail.append_false h.chained] at ha
    cases ha
  | true =>
    obtain ⟨trail', ha', -, -, hentries, hwritten⟩ :=
      Trail.append_eq_ok h.chained h.opened (batch.map (·.entry) ++ more)
    rw [ha] at ha'
    obtain ⟨-, rfl⟩ := Prod.mk.inj (Except.ok.inj ha')
    refine ⟨List.map_fst_zip ?_, hentries⟩
    rw [rowsSince, hwritten, List.drop_left, length_records, ids, List.length_append,
      List.length_map, List.length_map]
    omega

/-! ## The counters -/

/-- What the counter of records in flight and the record of lost records in the batch stand for;
`flight` is the number of entries behind that record. -/
def FlightOk (inFlight flight : ℕ) : Writer → Prop
  | .writing batch _ lostBefore _ =>
    flight = lostBefore ∧ inFlight = lostBefore + (unacked batch).length
  | .crashed => inFlight = flight
  | _ => inFlight = 0 ∧ flight = 0

/-- A writer that is idle has taken nothing over. -/
theorem flightOk_idle {inFlight flight : ℕ} {w : Writer} (hw : w.Idle) :
    FlightOk inFlight flight w ↔ inFlight = 0 ∧ flight = 0 := by
  cases w with
  | writing => exact hw.elim
  | crashed => exact hw.elim
  | collecting => exact Iff.rfl
  | ready => exact Iff.rfl
  | finishing => exact Iff.rfl

/-- The counters count the entries they stand for; `n` is what records of lost records counted
before the run. -/
structure Tallied (n : ℕ) (s : Pipeline) : Prop where
  lost_eq : s.lost = s.lostIds.length
  flight_ok : FlightOk s.inFlight s.flightIds.length s.writer
  reported_eq : eventsLost s.trail.entries = n + s.reportedIds.length
  plain : ∀ item, .append item ∈ s.holding ++ s.queued → item.entry.event.lost = 0
  handed_lt : ∀ k ∈ s.handed, k < s.calls
  handed_nodup : s.handed.Nodup

/-- The same in fail-open mode. -/
structure Counted (n : ℕ) (s : Pipeline) : Prop extends Tallied n s where
  open_mode : s.mode = .failOpen ∧ s.refused = []

/-- No caller hands in a record of lost records: only the writer makes one. -/
def Op.Plain : Op → Prop
  | .record entry _ => entry.event.lost = 0
  | .recordCommitted entry => entry.event.lost = 0
  | _ => True

/-- Nobody leaves the fail-open mode, and no caller hands in a record of lost records. -/
def Op.FailOpen : Op → Prop
  | .setMode mode => mode = .failOpen
  | .record entry _ => entry.event.lost = 0
  | .recordCommitted entry => entry.event.lost = 0
  | _ => True

/-- In fail-open mode, too, nobody hands in records of lost records. -/
theorem Op.FailOpen.plain {op : Op} (h : op.FailOpen) : op.Plain := by
  cases op with
  | record entry waits => exact h
  | recordCommitted entry => exact h
  | _ => trivial

/-- Between two transactions no entry is in flight. -/
theorem Tallied.flight_eq_zero {n : ℕ} (h : Tallied n s) {w : Writer} (hw : s.writer = w)
    (hidle : w.Idle) : s.inFlight = 0 ∧ s.flightIds = [] := by
  subst hw
  obtain ⟨hinFlight, hflight⟩ := (flightOk_idle hidle).1 h.flight_ok
  exact ⟨hinFlight, List.length_eq_zero_iff.1 hflight⟩

/-! ## Every step keeps the books -/

/-- A call without an entry changes no balance. -/
theorem balanced_newCall (hb : Balanced s) {command : Command} (hitem : command.item? = none) :
    Balanced (s.call.hold command) := by
  have hzero : held [command] = 0 := by
    rw [held, items_cons, hitem]
    rfl
  show (s.handed : Multiset ℕ) = (s.log.map Prod.fst) + held (s.holding ++ [command]) +
    held (s.writer.current ++ s.queue) + (unreadIds s.answers) + s.lostIds + s.flightIds +
      s.reportedIds + s.refused + s.dropped
  rw [held_append, hzero, add_zero]
  exact hb

/-- An entry that is handed in waits for room. -/
theorem balanced_handIn (hb : Balanced s) (entry : AuditEntry) (acked : Bool) :
    Balanced (s.handIn.hold (.append ⟨s.calls, entry, acked⟩)) := by
  unfold Balanced accounted at hb ⊢
  dsimp only [handIn, hold]
  rw [held_append, held_singleton_append, ← Multiset.coe_add, hb, Multiset.coe_singleton]
  abel

/-- A command that gets room goes from the callers to the queue. -/
theorem balanced_enqueue (hb : Balanced s) {holding : List Command} {command : Command}
    (hp : s.holding.Perm (command :: holding)) :
    Balanced (Pipeline.enqueue { s with holding := holding } command) := by
  show (s.handed : Multiset ℕ) = (s.log.map Prod.fst) + held holding +
    held (s.writer.current ++ (s.queue ++ [command])) + (unreadIds s.answers) + s.lostIds +
      s.flightIds + s.reportedIds + s.refused + s.dropped
  rw [hb, accounted, held_of_perm hp]
  simp only [held_append]
  abel

/-- A caller that has waited for too long is counted as lost. -/
theorem balanced_timeout (hb : Balanced s) {id : ℕ} (hs : step c s (.timeout id) = some t) :
    Balanced t := by
  obtain ⟨entry, hfind, rfl⟩ := step_timeout hs
  show (s.handed : Multiset ℕ) = (s.log.map Prod.fst) +
    held (s.holding.eraseP fun command => command.id = id) +
      held (s.writer.current ++ s.queue) + (unreadIds s.answers) +
        ((s.lostIds ++ [id] : List ℕ) : Multiset ℕ) + s.flightIds + s.reportedIds + s.refused +
          s.dropped
  rw [hb, accounted, held_of_perm (Machine.perm_of_find? hfind), held_singleton_append,
    ← Multiset.coe_add, Multiset.coe_singleton]
  abel

/-- Taking an answer out of those not read yet. -/
theorem unreadIds_of_find? {answers : List (ℕ × Except AuditError ℤ)}
    {p : ℕ × Except AuditError ℤ → Bool} {k : ℕ} {a : Except AuditError ℤ}
    (h : answers.find? p = some (k, a)) :
    ((unreadIds answers : List ℕ) : Multiset ℕ) =
      (unread k a) + (unreadIds (answers.eraseP p)) := by
  rw [Multiset.coe_add]
  exact Multiset.coe_eq_coe.2 ((Machine.perm_of_find? h).flatMap_right _)

/-- The entry of a caller that is dropped goes with it, or is still on its way. -/
theorem balanced_cancel (hb : Balanced s) {id : ℕ} (hs : step c s (.cancel id) = some t) :
    Balanced t := by
  rcases step_cancel hs with ⟨command, hfind, rfl⟩ | ⟨-, rfl⟩ | ⟨answer, hfind, rfl⟩
  · show (s.handed : Multiset ℕ) = (s.log.map Prod.fst) +
      held (s.holding.eraseP fun command => command.id = id) +
        held (s.writer.current ++ s.queue) + (unreadIds s.answers) + s.lostIds + s.flightIds +
          s.reportedIds + s.refused + ((s.dropped ++ ids (items [command]) : List ℕ) : Multiset ℕ)
    rw [hb, accounted, held_of_perm (Machine.perm_of_find? hfind), ← Multiset.coe_add, ← held]
    abel
  · exact hb
  · show (s.handed : Multiset ℕ) = (s.log.map Prod.fst) + held s.holding +
      held (s.writer.current ++ s.queue) +
        (unreadIds (s.answers.eraseP fun answer => answer.1 = id)) + s.lostIds + s.flightIds +
          s.reportedIds + s.refused + ((s.dropped ++ unread id answer : List ℕ) : Multiset ℕ)
    rw [hb, accounted, unreadIds_of_find? hfind, ← Multiset.coe_add]
    abel

/-- An answer that is read is unread no longer. -/
theorem balanced_finish (hb : Balanced s) {id : ℕ} (hs : step c s (.finish id) = some t) :
    Balanced t := by
  obtain ⟨answer, hfind, rfl⟩ := step_finish hs
  have hunread := unreadIds_of_find? hfind
  unfold Balanced accounted at hb
  unfold Pipeline.read
  split
  · unfold Balanced accounted
    rw [hb, hunread]
    simp only [unread, Multiset.coe_nil, zero_add]
  · unfold Balanced accounted
    simp only [← Multiset.coe_add]
    rw [hb, hunread]
    simp only [unread]
    abel
  · unfold Balanced accounted
    simp only [← Multiset.coe_add]
    rw [hb, hunread]
    simp only [unread]
    abel

/-- An entry of `record` is queued at once, or waits. -/
theorem balanced_record (hb : Balanced s) {entry : AuditEntry} {waits : Bool}
    (hs : step c s (.record entry waits) = some t) : Balanced t := by
  rcases step_record hs with rfl | ⟨acked, rfl⟩
  · exact balanced_enqueue (balanced_handIn hb entry false) (List.perm_append_singleton ..)
  · exact balanced_handIn hb entry acked

/-- A command that waited is queued. -/
theorem balanced_send (hb : Balanced s) {id : ℕ} (hs : step c s (.send id) = some t) :
    Balanced t := by
  obtain ⟨command, hfind, rfl⟩ := step_send hs
  exact balanced_enqueue hb (Machine.perm_of_find? hfind)

/-- What the writer takes out of the queue is still on its way. -/
theorem balanced_collected (hb : Balanced s) {writer : Writer} {queue : List Command}
    (hc : Collected s t writer queue) : Balanced t := by
  rw [hc.eq]
  unfold Balanced accounted at hb ⊢
  dsimp only
  rw [hc.current_eq]
  exact hb

/-- The count of lost records moves into the batch. -/
theorem balanced_startBatch {n : ℕ} (h : Ordered c s) (hc : Tallied n s) (hb : Balanced s)
    {now : DateTime} (hs : step c s (.startBatch now) = some t) : Balanced t := by
  rcases startBatch_cases h hs with ⟨writer, queue, hcollected⟩ | ⟨item, batch, after, hw, rfl⟩
  · exact balanced_collected hb hcollected
  · have hflight := (hc.flight_eq_zero hw trivial).2
    unfold Balanced accounted at hb ⊢
    rw [hw, hflight] at hb
    dsimp only
    rw [hb, Writer.current, Writer.current, Multiset.coe_nil]
    abel

/-- A stored batch is in the trail, and so is the record of the entries lost before it. -/
theorem balanced_stored (h : Ordered c s) (hb : Balanced s) {batch : List Item}
    {after : Option Command} {lostBefore : ℕ} {now : DateTime} {commits : Bool}
    (hw : s.writer = .writing batch after lostBefore now) {seqs : List ℤ} {trail : Trail}
    (ha : s.trail.append c commits (batch.map (·.entry) ++ lostReport now lostBefore) =
      .ok (seqs, trail)) : Balanced (s.stored batch after seqs trail) := by
  obtain ⟨hlogged, -⟩ := map_fst_logged h ha
  unfold Balanced accounted at hb ⊢
  rw [hw, Writer.current] at hb
  dsimp only [stored, deliver]
  rw [hb, List.map_append, hlogged, unreadIds_append, unreadIds_storedAcks, current_afterBatch,
    List.append_nil, ← Multiset.coe_add, ← Multiset.coe_add, Multiset.coe_nil]
  simp only [held_append, held_map_append]
  abel

/-- The entries of a batch that is not stored are counted at once, or by the callers that are
still there, or by nobody. -/
theorem balanced_notStored (hb : Balanced s) {batch : List Item} {after : Option Command}
    {lostBefore : ℕ} {now : DateTime} (hw : s.writer = .writing batch after lostBefore now)
    (e : StoreError) : Balanced (s.notStored batch after lostBefore e) := by
  unfold Balanced accounted at hb ⊢
  rw [hw, Writer.current] at hb
  dsimp only [notStored, deliver]
  rw [hb, unreadIds_append, unreadIds_failedAcks, current_afterBatch]
  simp only [held_append, held_map_append, ids_batch_eq s batch, ← Multiset.coe_add,
    Multiset.coe_nil]
  abel

/-- The same behind a panic: the command behind the batch holds no entry. -/
theorem balanced_unwound (h : Ordered c s) (hb : Balanced s) {batch : List Item}
    {after : Option Command} {lostBefore : ℕ} {now : DateTime}
    (hw : s.writer = .writing batch after lostBefore now) : Balanced (s.unwound batch after) := by
  have hafter : held after.toList = 0 := held_eq_zero (after_items (h.after_writing hw))
  unfold Balanced accounted at hb ⊢
  rw [hw, Writer.current] at hb
  dsimp only [unwound, deliver]
  rw [hb, unreadIds_append, unreadIds_failedAcks, Writer.current]
  simp only [held_append, held_map_append, hafter, held_nil, ids_batch_eq s batch,
    ← Multiset.coe_add]
  abel

/-- The command behind a batch holds no entry. -/
theorem balanced_done (h : Ordered c s) (hb : Balanced s) {command : Command} {writer : Writer}
    (hw : s.writer = .finishing command) (hwriter : writer.current = []) :
    Balanced { s with writer := writer } := by
  have hzero : held [command] = 0 := by
    refine held_eq_zero ?_
    rw [items_cons, h.after_ok command (by rw [hw]; rfl)]
    rfl
  unfold Balanced accounted at hb ⊢
  rw [hw, Writer.current, held_append, hzero, zero_add] at hb
  dsimp only
  rw [hwriter, List.nil_append, hb]

/-- The entries of a batch are stored, or refused, or counted as lost. -/
theorem balanced_write (h : Ordered c s) (hb : Balanced s) {commits : Bool}
    (hs : step c s (.write commits) = some t) : Balanced t := by
  obtain ⟨batch, after, lostBefore, now, hw, hcase⟩ := step_write hs
  rcases hcase with ⟨seqs, trail, ha, rfl⟩ | ⟨e, -, rfl⟩
  · exact balanced_stored h hb hw ha
  · exact balanced_notStored hb hw e

/-- Retention and flushes change no balance. -/
theorem balanced_finishCommand (h : Ordered c s) (hb : Balanced s) {commits : Bool}
    {now stamp : DateTime} (hs : step c s (.finishCommand commits now stamp) = some t) :
    Balanced t := by
  rcases step_finishCommand hs with ⟨id, cutoff, hw, hcase⟩ | ⟨id, hw, rfl⟩
  · have hdone : Balanced { s with writer := .collecting [] } := balanced_done h hb hw rfl
    rcases hcase with ⟨n, trail, -, rfl⟩ | ⟨e, rfl⟩
    · exact hdone
    · exact hdone
  · have hdone : Balanced { s with writer := .collecting [] } := balanced_done h hb hw rfl
    exact hdone

/-- The entries that a panic takes are dropped, or counted when the writer is restarted. -/
theorem balanced_panic (h : Ordered c s) (hb : Balanced s) (hs : step c s .panic = some t) :
    Balanced t := by
  rcases step_panic hs with ⟨batch, after, lostBefore, now, hw, rfl⟩ | ⟨id, cutoff, hw, rfl⟩
  · exact balanced_unwound h hb hw
  · have hdone : Balanced { s with writer := .crashed } := balanced_done h hb hw rfl
    exact hdone

/-- A restart changes no balance. -/
theorem balanced_restart (hb : Balanced s) {commits : Bool} {now : DateTime}
    (hs : step c s (.restart commits now) = some t) : Balanced t := by
  obtain ⟨hw, db, store, -, rfl⟩ := step_restart hs
  unfold Balanced accounted at hb ⊢
  rw [hw, Writer.current] at hb
  dsimp only
  rw [hb, Writer.current, List.map_nil, ← Multiset.coe_add, Multiset.coe_nil]
  abel

/-- **Step lemma**: whatever a caller or the writer does keeps the books. -/
theorem balanced_step {n : ℕ} (h : Ordered c s) (hc : Tallied n s) (hb : Balanced s) {op : Op}
    (hs : step c s op = some t) : Balanced t := by
  cases op with
  | setMode mode =>
    cases hs
    exact hb
  | record entry waits => exact balanced_record hb hs
  | recordCommitted entry =>
    cases hs
    exact balanced_handIn hb entry true
  | pruneBefore cutoff =>
    cases hs
    exact balanced_newCall hb rfl
  | flush =>
    cases hs
    exact balanced_newCall hb rfl
  | send id => exact balanced_send hb hs
  | timeout id => exact balanced_timeout hb hs
  | cancel id => exact balanced_cancel hb hs
  | finish id => exact balanced_finish hb hs
  | recv =>
    obtain ⟨writer, queue, hcollected⟩ := collected_recv hs
    exact balanced_collected hb hcollected
  | tryRecvEmpty =>
    obtain ⟨writer, queue, hcollected⟩ := collected_tryRecvEmpty hs
    exact balanced_collected hb hcollected
  | startBatch now => exact balanced_startBatch h hc hb hs
  | write commits => exact balanced_write h hb hs
  | finishCommand commits now stamp => exact balanced_finishCommand h hb hs
  | panic => exact balanced_panic h hb hs
  | restart commits now => exact balanced_restart hb hs

/-! ## Every step keeps the counters -/

/-- Opening the store reports no lost records. -/
theorem eventsLost_openEntries (now : DateTime) (db : Database) :
    eventsLost (Trail.openEntries now db) = 0 := by
  unfold Trail.openEntries
  split_ifs
  · rfl
  · rfl

/-- Retention reports no lost records. -/
theorem eventsLost_pruneEntries (cutoff now stamp : DateTime) (n : ℕ) (db : Database) :
    eventsLost (Trail.pruneEntries c cutoff now stamp n db) = 0 := by
  unfold Trail.pruneEntries
  split
  · rfl
  · rfl

/-- A batch of callers reports no lost records. -/
theorem eventsLost_eq_zero {batch : List Item}
    (h : ∀ item ∈ batch, item.entry.event.lost = 0) : eventsLost (batch.map (·.entry)) = 0 := by
  rw [eventsLost, List.map_map]
  apply List.sum_eq_zero_iff_forall_eq_nat.2
  intro m hm
  obtain ⟨item, hitem, rfl⟩ := List.mem_map.1 hm
  exact h item hitem

namespace Tallied

variable {n : ℕ}

/-- A new call without an entry. -/
theorem newCall (h : Tallied n s) {command : Command} (hitem : command.item? = none) :
    Tallied n (s.call.hold command) := by
  refine { h with plain := fun item hmem => ?_, handed_lt := fun k hk => ?_ }
  · rw [show (s.call.hold command).holding = s.holding ++ [command] from rfl] at hmem
    simp only [List.mem_append, List.mem_singleton] at hmem
    rcases hmem with (hmem | rfl) | hmem
    · exact h.plain item (List.mem_append_left _ hmem)
    · cases hitem
    · exact h.plain item (List.mem_append_right _ hmem)
  · have hlt := h.handed_lt k hk
    show k < s.calls + 1
    omega

/-- A new call with an entry. -/
theorem handIn (h : Tallied n s) {entry : AuditEntry} (hentry : entry.event.lost = 0)
    (acked : Bool) : Tallied n (s.handIn.hold (.append ⟨s.calls, entry, acked⟩)) := by
  refine { h with
    plain := fun item hmem => ?_, handed_lt := fun k hk => ?_, handed_nodup := ?_ }
  · replace hmem : .append item ∈ s.holding ++ [.append ⟨s.calls, entry, acked⟩] ++ s.queued := hmem
    simp only [List.mem_append, List.mem_singleton] at hmem
    rcases hmem with (hmem | hnew) | hmem
    · exact h.plain item (List.mem_append_left _ hmem)
    · cases hnew
      exact hentry
    · exact h.plain item (List.mem_append_right _ hmem)
  · show k < s.calls + 1
    rcases List.mem_append.1 hk with hk | hk
    · have hlt := h.handed_lt k hk
      omega
    · rw [List.mem_singleton.1 hk]
      omega
  · show (s.handed ++ [s.calls]).Nodup
    rw [List.nodup_append]
    refine ⟨h.handed_nodup, List.nodup_singleton _, ?_⟩
    intro k hk j hj heq
    have hlt := h.handed_lt k hk
    rw [List.mem_singleton] at hj
    omega

/-- A command that is queued changes no count. -/
theorem enqueue (h : Tallied n s) {holding : List Command} {command : Command}
    (hp : s.holding.Perm (command :: holding)) :
    Tallied n (Pipeline.enqueue { s with holding := holding } command) := by
  refine { h with plain := fun item hmem => h.plain item ?_ }
  replace hmem : .append item ∈ holding ++ (s.queued ++ [command]) := hmem
  simp only [List.mem_append, hp.mem_iff, List.mem_cons] at hmem ⊢
  tauto

/-- A caller stops waiting for room. -/
theorem release (h : Tallied n s) (p : Command → Bool) :
    Tallied n { s with holding := s.holding.eraseP p } := by
  refine { h with plain := fun item hmem => h.plain item ?_ }
  exact List.mem_append.2 ((List.mem_append.1 hmem).imp_left List.mem_of_mem_eraseP)

/-- One more entry is counted as lost. -/
theorem lose (h : Tallied n s) (k : ℕ) :
    Tallied n { s with lost := s.lost + 1, lostIds := s.lostIds ++ [k] } := by
  refine { h with lost_eq := ?_ }
  show s.lost + 1 = (s.lostIds ++ [k]).length
  rw [List.length_append, h.lost_eq, List.length_singleton]

/-- A command that the writer takes changes no count. -/
theorem collected (h : Tallied n s) {writer : Writer} {queue : List Command}
    (hc : Collected s t writer queue) : Tallied n t := by
  rw [hc.eq]
  exact { h with flight_ok := (flightOk_idle hc.idle').2 ((flightOk_idle hc.idle).1 h.flight_ok) }

/-- The batch in hand holds no record of lost records. -/
theorem batch_plain (hc : Tallied n s) (h : Ordered c s) {batch : List Item}
    {after : Option Command} {lostBefore : ℕ} {now : DateTime}
    (hw : s.writer = .writing batch after lostBefore now) :
    ∀ item ∈ batch, item.entry.event.lost = 0 := by
  intro item hitem
  refine hc.plain item (List.mem_append_right _ ?_)
  rw [h.queued_eq, hw, Writer.current]
  simp [hitem]

/-- An entry that is handed in changes no count. -/
theorem record (h : Tallied n s) {entry : AuditEntry} {waits : Bool}
    (hentry : entry.event.lost = 0) (hs : step c s (.record entry waits) = some t) :
    Tallied n t := by
  rcases step_record hs with rfl | ⟨acked, rfl⟩
  · exact (h.handIn hentry false).enqueue (List.perm_append_singleton ..)
  · exact h.handIn hentry acked

/-- A command that gets room changes no count. -/
theorem send (h : Tallied n s) {id : ℕ} (hs : step c s (.send id) = some t) : Tallied n t := by
  obtain ⟨command, hfind, rfl⟩ := step_send hs
  exact h.enqueue (Machine.perm_of_find? hfind)

/-- A caller that has waited for too long adds one to the count. -/
theorem timeout (h : Tallied n s) {id : ℕ} (hs : step c s (.timeout id) = some t) :
    Tallied n t := by
  obtain ⟨entry, -, rfl⟩ := step_timeout hs
  exact (h.release _).lose id

/-- A caller that is dropped changes no count. -/
theorem cancel (h : Tallied n s) {id : ℕ} (hs : step c s (.cancel id) = some t) :
    Tallied n t := by
  rcases step_cancel hs with ⟨command, -, rfl⟩ | ⟨-, rfl⟩ | ⟨answer, -, rfl⟩
  · exact { h.release _ with }
  · exact { h with }
  · exact { h with }

/-- An error that its caller reads in fail-open mode adds one to the count. -/
theorem finish (h : Tallied n s) {id : ℕ} (hs : step c s (.finish id) = some t) :
    Tallied n t := by
  obtain ⟨answer, hfind, rfl⟩ := step_finish hs
  unfold Pipeline.read
  split
  · exact { h with }
  · exact { h.lose id with }
  · exact { h with }

/-- The writer takes the count over. -/
theorem startBatch (hc : Tallied n s) (h : Ordered c s) {now : DateTime}
    (hs : step c s (.startBatch now) = some t) : Tallied n t := by
  rcases startBatch_cases h hs with ⟨writer, queue, hcollected⟩ | ⟨item, batch, after, hw, rfl⟩
  · exact hc.collected hcollected
  · exact { hc with lost_eq := rfl, flight_ok := ⟨hc.lost_eq.symm, rfl⟩ }

/-- The count that was taken over is reported, or goes back. -/
theorem write (hc : Tallied n s) (h : Ordered c s) {commits : Bool}
    (hs : step c s (.write commits) = some t) : Tallied n t := by
  obtain ⟨batch, after, lostBefore, now, hw, hcase⟩ := step_write hs
  have hflight := hc.flight_ok
  rw [hw] at hflight
  obtain ⟨hbefore, -⟩ := hflight
  rcases hcase with ⟨seqs, trail, ha, rfl⟩ | ⟨e, -, rfl⟩
  · obtain ⟨-, hentries⟩ := map_fst_logged h ha
    refine { hc with
      flight_ok := (flightOk_idle (idle_afterBatch _)).2 ⟨rfl, rfl⟩
      reported_eq := ?_ }
    show eventsLost trail.entries = n + (s.reportedIds ++ s.flightIds).length
    rw [hentries, eventsLost_append, eventsLost_append, hc.reported_eq,
      eventsLost_eq_zero (hc.batch_plain h hw), eventsLost_lostReport, List.length_append]
    omega
  · refine { hc with
      lost_eq := ?_
      flight_ok := (flightOk_idle (idle_afterBatch _)).2 ⟨rfl, rfl⟩ }
    show s.lost + (lostBefore + (unacked batch).length) =
      (s.lostIds ++ (s.flightIds ++ ids (unacked batch))).length
    rw [List.length_append, List.length_append, hc.lost_eq, ids, List.length_map]
    omega

/-- Retention and flushes change no count. -/
theorem finishCommand (hc : Tallied n s) {commits : Bool} {now stamp : DateTime}
    (hs : step c s (.finishCommand commits now stamp) = some t) : Tallied n t := by
  rcases step_finishCommand hs with ⟨id, cutoff, hw, hcase⟩ | ⟨id, hw, rfl⟩
  · have hflight : s.inFlight = 0 ∧ s.flightIds.length = 0 :=
      (flightOk_idle (by rw [hw]; trivial)).1 hc.flight_ok
    rcases hcase with ⟨m, trail, hp, rfl⟩ | ⟨e, rfl⟩
    · obtain ⟨-, -, -, hentries⟩ := step_of_pruneBefore hp
      refine { hc with flight_ok := hflight, reported_eq := ?_ }
      show eventsLost trail.entries = n + s.reportedIds.length
      rw [hentries, eventsLost_append, eventsLost_pruneEntries, hc.reported_eq, add_zero]
    · exact { hc with flight_ok := hflight }
  · have hflight : s.inFlight = 0 ∧ s.flightIds.length = 0 :=
      (flightOk_idle (by rw [hw]; trivial)).1 hc.flight_ok
    exact { hc with flight_ok := hflight }

/-- What a panic takes stays in flight. -/
theorem panic (hc : Tallied n s) (hs : step c s .panic = some t) : Tallied n t := by
  rcases step_panic hs with ⟨batch, after, lostBefore, now, hw, rfl⟩ | ⟨id, cutoff, hw, rfl⟩
  · have hflight := hc.flight_ok
    rw [hw] at hflight
    refine { hc with flight_ok := ?_ }
    show s.inFlight = (s.flightIds ++ ids (unacked batch)).length
    rw [List.length_append, ids, List.length_map, hflight.1, hflight.2]
  · obtain ⟨hinFlight, hflight⟩ := hc.flight_eq_zero hw trivial
    refine { hc with flight_ok := ?_ }
    show s.inFlight = s.flightIds.length
    rw [hinFlight, hflight, List.length_nil]

/-- What was in flight is counted by the writer that is restarted. -/
theorem restart (hc : Tallied n s) {commits : Bool} {now : DateTime}
    (hs : step c s (.restart commits now) = some t) : Tallied n t := by
  obtain ⟨hw, db, store, -, rfl⟩ := step_restart hs
  have hflight := hc.flight_ok
  rw [hw] at hflight
  refine { hc with lost_eq := ?_, flight_ok := ⟨rfl, rfl⟩, reported_eq := ?_ }
  · show s.lost + s.inFlight = (s.lostIds ++ s.flightIds).length
    rw [List.length_append, hc.lost_eq, show s.inFlight = s.flightIds.length from hflight]
  · show eventsLost (s.trail.entries ++ Trail.openEntries now s.trail.db) = _
    rw [eventsLost_append, eventsLost_openEntries, hc.reported_eq, add_zero]

end Tallied

/-- **Step lemma**: whatever a caller or the writer does keeps the counters. -/
theorem tallied_step {n : ℕ} (h : Ordered c s) (hc : Tallied n s) {op : Op} (hop : op.Plain)
    (hs : step c s op = some t) : Tallied n t := by
  cases op with
  | setMode mode =>
    cases hs
    exact { hc with }
  | record entry waits => exact hc.record hop hs
  | recordCommitted entry =>
    cases hs
    exact hc.handIn hop true
  | pruneBefore cutoff =>
    cases hs
    exact hc.newCall rfl
  | flush =>
    cases hs
    exact hc.newCall rfl
  | send id => exact hc.send hs
  | timeout id => exact hc.timeout hs
  | cancel id => exact hc.cancel hs
  | finish id => exact hc.finish hs
  | recv =>
    obtain ⟨writer, queue, hcollected⟩ := collected_recv hs
    exact hc.collected hcollected
  | tryRecvEmpty =>
    obtain ⟨writer, queue, hcollected⟩ := collected_tryRecvEmpty hs
    exact hc.collected hcollected
  | startBatch now => exact hc.startBatch h hs
  | write commits => exact hc.write h hs
  | finishCommand commits now stamp => exact hc.finishCommand hs
  | panic => exact hc.panic hs
  | restart commits now => exact hc.restart hs

/-! ## Who is told -/

/-- Reading an answer drops nobody. -/
theorem read_frame (s : Pipeline) (id : ℕ) (answer : Except AuditError ℤ) :
    (read s id answer).mode = s.mode ∧ (read s id answer).dropped = s.dropped ∧
      (read s id answer).cancelled = s.cancelled ∧ (read s id answer).handed = s.handed := by
  unfold Pipeline.read
  split
  · exact ⟨rfl, rfl, rfl, rfl⟩
  · exact ⟨rfl, rfl, rfl, rfl⟩
  · exact ⟨rfl, rfl, rfl, rfl⟩

/-- Only a change of the mode, a caller that reads its answer or is dropped, and a batch that fails
change the mode, who was told of an error, and who is gone. -/
theorem settled_eq {op : Op} (hs : step c s op = some t) (hmode : ∀ mode, op ≠ .setMode mode)
    (hcancel : ∀ id, op ≠ .cancel id) (hfinish : ∀ id, op ≠ .finish id)
    (hwrite : ∀ commits, op ≠ .write commits) (hpanic : op ≠ .panic) :
    t.mode = s.mode ∧ t.refused = s.refused ∧ t.dropped = s.dropped ∧
      t.cancelled = s.cancelled ∧ s.handed <+: t.handed := by
  cases op with
  | setMode mode => exact absurd rfl (hmode mode)
  | cancel id => exact absurd rfl (hcancel id)
  | finish id => exact absurd rfl (hfinish id)
  | write commits => exact absurd rfl (hwrite commits)
  | panic => exact absurd rfl hpanic
  | recordCommitted entry =>
    cases hs
    exact ⟨rfl, rfl, rfl, rfl, List.prefix_append ..⟩
  | pruneBefore cutoff =>
    cases hs
    exact ⟨rfl, rfl, rfl, rfl, List.prefix_refl _⟩
  | flush =>
    cases hs
    exact ⟨rfl, rfl, rfl, rfl, List.prefix_refl _⟩
  | record entry waits =>
    rcases step_record hs with rfl | ⟨acked, rfl⟩
    · exact ⟨rfl, rfl, rfl, rfl, List.prefix_append ..⟩
    · exact ⟨rfl, rfl, rfl, rfl, List.prefix_append ..⟩
  | send id =>
    obtain ⟨command, -, rfl⟩ := step_send hs
    exact ⟨rfl, rfl, rfl, rfl, List.prefix_refl _⟩
  | timeout id =>
    obtain ⟨entry, -, rfl⟩ := step_timeout hs
    exact ⟨rfl, rfl, rfl, rfl, List.prefix_refl _⟩
  | recv =>
    obtain ⟨writer, queue, hcollected⟩ := collected_recv hs
    rw [hcollected.eq]
    exact ⟨rfl, rfl, rfl, rfl, List.prefix_refl _⟩
  | tryRecvEmpty =>
    obtain ⟨writer, queue, hcollected⟩ := collected_tryRecvEmpty hs
    rw [hcollected.eq]
    exact ⟨rfl, rfl, rfl, rfl, List.prefix_refl _⟩
  | startBatch now =>
    simp only [step] at hs
    split at hs
    · cases hs
      exact ⟨rfl, rfl, rfl, rfl, List.prefix_refl _⟩
    · cases hs
      exact ⟨rfl, rfl, rfl, rfl, List.prefix_refl _⟩
    · cases hs
  | finishCommand commits now stamp =>
    rcases step_finishCommand hs with ⟨id, cutoff, -, hcase⟩ | ⟨id, -, rfl⟩
    · rcases hcase with ⟨n, trail, -, rfl⟩ | ⟨e, rfl⟩
      · exact ⟨rfl, rfl, rfl, rfl, List.prefix_refl _⟩
      · exact ⟨rfl, rfl, rfl, rfl, List.prefix_refl _⟩
    · exact ⟨rfl, rfl, rfl, rfl, List.prefix_refl _⟩
  | restart commits now =>
    obtain ⟨-, db, store, -, rfl⟩ := step_restart hs
    exact ⟨rfl, rfl, rfl, rfl, List.prefix_refl _⟩

/-- Only a change of the mode and a caller that reads its answer change the mode and who was told
of an error. -/
theorem refused_eq {op : Op} (hs : step c s op = some t) (hmode : ∀ mode, op ≠ .setMode mode)
    (hfinish : ∀ id, op ≠ .finish id) : t.mode = s.mode ∧ t.refused = s.refused := by
  cases op with
  | cancel id =>
    rcases step_cancel hs with ⟨command, -, rfl⟩ | ⟨-, rfl⟩ | ⟨answer, -, rfl⟩
    · exact ⟨rfl, rfl⟩
    · exact ⟨rfl, rfl⟩
    · exact ⟨rfl, rfl⟩
  | write commits =>
    obtain ⟨batch, after, lostBefore, now, -, hcase⟩ := step_write hs
    rcases hcase with ⟨seqs, trail, -, rfl⟩ | ⟨e, -, rfl⟩
    · exact ⟨rfl, rfl⟩
    · exact ⟨rfl, rfl⟩
  | panic =>
    rcases step_panic hs with ⟨batch, after, lostBefore, now, -, rfl⟩ | ⟨id, cutoff, -, rfl⟩
    · exact ⟨rfl, rfl⟩
    · exact ⟨rfl, rfl⟩
  | _ =>
    have h := settled_eq hs hmode (fun _ heq => by cases heq) hfinish (fun _ heq => by cases heq)
      (fun heq => by cases heq)
    exact ⟨h.1, h.2.1⟩

/-- **Step lemma**: whatever a caller or the writer does in fail-open mode keeps the counters. -/
theorem counted_step {n : ℕ} (h : Ordered c s) (hc : Counted n s) {op : Op} (hop : op.FailOpen)
    (hs : step c s op = some t) : Counted n t := by
  refine { tallied_step h hc.toTallied hop.plain hs with open_mode := ?_ }
  obtain ⟨hmode, hrefused⟩ := hc.open_mode
  cases op with
  | setMode mode =>
    cases hs
    exact ⟨hop, hrefused⟩
  | finish id =>
    obtain ⟨answer, -, rfl⟩ := step_finish hs
    refine ⟨(read_frame ..).1.trans hmode, ?_⟩
    unfold Pipeline.read
    split
    · exact hrefused
    · exact hrefused
    · next hclosed => cases hmode.symm.trans hclosed
  | _ =>
    have h := refused_eq hs (fun _ heq => nomatch heq) (fun _ heq => nomatch heq)
    rw [h.1, h.2]
    exact ⟨hmode, hrefused⟩

/-! ## Entries that nobody counts -/

/-- Every caller of the batch in hand that asked for the commit is still there. -/
def Attended (s : Pipeline) : Prop :=
  ∀ item ∈ items s.writer.current, item.acked = true → item.id ∈ s.waiting

/-- The steps that drop no entry: the caller that is dropped holds no entry and has no error to
count, and a batch fails only in front of all callers that asked for its commit. -/
def Safe (s : Pipeline) : Op → Prop
  | .cancel id =>
    (∀ command ∈ s.holding, command.id = id → command.item? = none) ∧
      ∀ e, (id, .error e) ∉ s.answers
  | .write commits => commits = true ∨ s.Attended
  | .panic => s.Attended
  | _ => True

/-- A batch leaves nobody behind if all of its callers wait. -/
theorem orphans_eq_nil_iff (s : Pipeline) (batch : List Item) :
    s.orphans batch = [] ↔ ∀ item ∈ batch, item.acked = true → item.id ∈ s.waiting := by
  rw [orphans, ids, List.map_eq_nil_iff, List.filter_eq_nil_iff]
  constructor
  · intro h item hitem hacked
    have hnot := h item (mem_acked.2 ⟨hitem, hacked⟩)
    simpa using hnot
  · intro h item hitem
    obtain ⟨hitem, hacked⟩ := mem_acked.1 hitem
    simpa using h item hitem hacked

/-- An answer is unread exactly if it is an error. -/
theorem unread_eq_nil_iff {id : ℕ} {answer : Except AuditError ℤ} :
    unread id answer = [] ↔ ∀ e, answer ≠ .error e := by
  cases answer <;> simp [unread]

/-- A command holds no entry exactly if it is no append. -/
theorem ids_items_singleton_eq_nil_iff {command : Command} :
    ids (items [command]) = [] ↔ command.item? = none := by
  rw [items_cons, items_nil, List.append_nil, ids, List.map_eq_nil_iff,
    Option.toList_eq_nil_iff]

namespace Ordered

/-- Who is told of an error has its entry behind it. -/
theorem mem_past_of_error (h : Ordered c s) {k : ℕ} {e : AuditError}
    (he : (k, .error e) ∈ s.answers) : k ∈ ids (items s.past) :=
  h.log_ok.failed_past k (h.answers_ok.error_sound k e (List.mem_append_left _ he))

/-- A call that waits for room has no error to read. -/
theorem no_error_of_holding (h : Ordered c s) {command : Command} (hc : command ∈ s.holding)
    (e : AuditError) : (command.id, .error e) ∉ s.answers := by
  intro he
  have hqueued := h.ids_past_sublist.subset (h.mem_past_of_error he)
  have hnodup := h.calls_ok.nodup
  rw [List.map_append, List.nodup_append] at hnodup
  exact hnodup.2.2 _ (List.mem_map_of_mem hc) _ ((ids_items_sublist _).subset hqueued) rfl

/-- A call that waits for its answer has no error to read. -/
theorem no_error_of_waiting (h : Ordered c s) {k : ℕ} (hk : k ∈ s.waiting) (e : AuditError) :
    (k, .error e) ∉ s.answers := by
  intro he
  have hrest := (ids_acked_sublist _).subset (h.answers_ok.waiting_sound k hk)
  have hnodup := h.nodup_ids
  rw [h.queued_eq, items_append, ids_append, List.nodup_append] at hnodup
  exact hnodup.2.2 k (h.mem_past_of_error he) k hrest rfl

/-- A call that was answered with a number has no error to read. -/
theorem no_error_of_ok (h : Ordered c s) {k : ℕ} {n : ℤ} (hk : (k, .ok n) ∈ s.answers)
    (e : AuditError) : (k, .error e) ∉ s.answers := by
  intro he
  obtain ⟨row, hrow, -⟩ := h.answers_ok.ok_sound k n (List.mem_append_left _ hk)
  have hfailed := h.answers_ok.error_sound k e (List.mem_append_left _ he)
  exact h.log_ok.failed_not k hfailed (List.mem_map_of_mem hrow)

end Ordered

/-- Dropping a caller drops the entry it holds, or the entry it should have counted. -/
theorem dropped_cancel (h : Ordered c s) {id : ℕ} (hs : step c s (.cancel id) = some t) :
    ∃ l, t.dropped = s.dropped ++ l ∧ (l = [] ↔ s.Safe (.cancel id)) := by
  simp only [step] at hs
  split at hs
  · next command hfind =>
    cases hs
    have hmem := List.mem_of_find?_eq_some hfind
    have hid : command.id = id := by simpa using List.find?_some hfind
    refine ⟨ids (items [command]), rfl, ?_⟩
    rw [ids_items_singleton_eq_nil_iff]
    constructor
    · intro hitem
      refine ⟨fun command' hmem' hid' => ?_, fun e => ?_⟩
      · rw [h.eq_of_holding hmem' hmem (hid'.trans hid.symm), hitem]
      · rw [← hid]
        exact h.no_error_of_holding hmem e
    · intro hsafe
      exact hsafe.1 command hmem hid
  · next hfind =>
    have hholding : ∀ command ∈ s.holding, command.id = id → command.item? = none := by
      intro command hmem hid
      have hnot := List.find?_eq_none.1 hfind command hmem
      simp [hid] at hnot
    split_ifs at hs with hwait
    · cases hs
      exact ⟨[], (List.append_nil _).symm,
        iff_of_true rfl ⟨hholding, fun e => h.no_error_of_waiting hwait e⟩⟩
    · split at hs
      · next k answer hfind' =>
        obtain rfl : k = id := by simpa using List.find?_some hfind'
        cases hs
        have hmem := List.mem_of_find?_eq_some hfind'
        refine ⟨unread k answer, rfl, ?_⟩
        rw [unread_eq_nil_iff]
        constructor
        · intro hok
          refine ⟨hholding, fun e => ?_⟩
          cases answer with
          | ok n => exact h.no_error_of_ok hmem e
          | error e' => exact absurd rfl (hok e')
        · rintro ⟨-, hno⟩ e rfl
          exact hno e hmem
      · cases hs

/-- What the writer holds while it writes is its batch. -/
theorem items_current_writing (h : Ordered c s) {batch : List Item} {after : Option Command}
    {lostBefore : ℕ} {now : DateTime} (hw : s.writer = .writing batch after lostBefore now) :
    items s.writer.current = batch := by
  rw [hw, Writer.current, items_append, items_map_append, after_items (h.after_writing hw),
    List.append_nil]

/-- A batch that fails drops the entries of its callers that are gone. -/
theorem dropped_write (h : Ordered c s) {commits : Bool} (hs : step c s (.write commits) = some t) :
    ∃ l, t.dropped = s.dropped ++ l ∧ (l = [] ↔ s.Safe (.write commits)) := by
  simp only [step] at hs
  split at hs
  · next batch after lostBefore now hw =>
    cases commits with
    | true =>
      obtain ⟨trail, ha, -⟩ := Trail.append_eq_ok h.chained h.opened
        (batch.map (·.entry) ++ lostReport now lostBefore)
      rw [ha] at hs
      cases hs
      exact ⟨[], (List.append_nil _).symm, iff_of_true rfl (.inl rfl)⟩
    | false =>
      rw [Trail.append_false h.chained] at hs
      cases hs
      refine ⟨s.orphans batch, rfl, ?_⟩
      rw [orphans_eq_nil_iff, Safe, Attended, items_current_writing h hw]
      simp
  · cases hs

/-- A panic drops the entries of callers that are gone, and only those. -/
theorem dropped_panic (h : Ordered c s) (hs : step c s .panic = some t) :
    ∃ l, t.dropped = s.dropped ++ l ∧ (l = [] ↔ s.Safe .panic) := by
  rcases step_panic hs with ⟨batch, after, lostBefore, now, hw, rfl⟩ | ⟨id, cutoff, hw, rfl⟩
  · refine ⟨s.orphans batch, rfl, ?_⟩
    rw [orphans_eq_nil_iff, Safe, Attended, items_current_writing h hw]
  · refine ⟨[], (List.append_nil _).symm, iff_of_true rfl ?_⟩
    intro item hitem
    rw [hw] at hitem
    cases hitem

/-- No other step drops an entry. -/
theorem dropped_eq {op : Op} (hs : step c s op = some t) (hcancel : ∀ id, op ≠ .cancel id)
    (hwrite : ∀ commits, op ≠ .write commits) (hpanic : op ≠ .panic) : t.dropped = s.dropped := by
  cases op with
  | setMode mode => cases hs; rfl
  | finish id =>
    obtain ⟨answer, -, rfl⟩ := step_finish hs
    exact (read_frame ..).2.1
  | _ =>
    refine (settled_eq hs (fun _ heq => ?_) hcancel (fun _ heq => ?_) hwrite hpanic).2.2.1
    · cases heq
    · cases heq

/-- **Which steps drop an entry**: exactly those that are not safe. -/
theorem dropped_step (h : Ordered c s) {op : Op} (hs : step c s op = some t) :
    ∃ l, t.dropped = s.dropped ++ l ∧ (l = [] ↔ s.Safe op) := by
  have hother : t.dropped = s.dropped → s.Safe op →
      ∃ l, t.dropped = s.dropped ++ l ∧ (l = [] ↔ s.Safe op) := fun heq hsafe =>
    ⟨[], by rw [heq, List.append_nil], iff_of_true rfl hsafe⟩
  cases op with
  | cancel id => exact dropped_cancel h hs
  | write commits => exact dropped_write h hs
  | panic => exact dropped_panic h hs
  | _ =>
    refine hother (dropped_eq hs ?_ ?_ ?_) trivial
    · exact fun _ heq => nomatch heq
    · exact fun _ heq => nomatch heq
    · exact fun heq => nomatch heq

/-! ## Who is dropped -/

/-- Only dropping a caller drops it. -/
theorem cancelled_eq {op : Op} (hs : step c s op = some t) (hcancel : ∀ id, op ≠ .cancel id) :
    t.cancelled = s.cancelled := by
  cases op with
  | setMode mode =>
    cases hs
    rfl
  | finish id =>
    obtain ⟨answer, -, rfl⟩ := step_finish hs
    exact (read_frame ..).2.2.1
  | write commits =>
    obtain ⟨batch, after, lostBefore, now, -, hcase⟩ := step_write hs
    rcases hcase with ⟨seqs, trail, -, rfl⟩ | ⟨e, -, rfl⟩
    · rfl
    · rfl
  | panic =>
    rcases step_panic hs with ⟨batch, after, lostBefore, now, -, rfl⟩ | ⟨id, cutoff, -, rfl⟩
    · rfl
    · rfl
  | _ =>
    exact (settled_eq hs (fun _ heq => by cases heq) hcancel (fun _ heq => by cases heq)
      (fun _ heq => by cases heq) (fun heq => by cases heq)).2.2.2.1

/-- A caller is noted as dropped, and nobody hands anything in. -/
theorem cancelled_cancel {id : ℕ} (hs : step c s (.cancel id) = some t) :
    t.cancelled = s.cancelled ++ [id] ∧ t.handed = s.handed := by
  rcases step_cancel hs with ⟨command, -, rfl⟩ | ⟨-, rfl⟩ | ⟨answer, -, rfl⟩
  · exact ⟨rfl, rfl⟩
  · exact ⟨rfl, rfl⟩
  · exact ⟨rfl, rfl⟩

/-- An entry that was queued has the number of a call. -/
theorem lt_calls_of_mem_queued (h : Ordered c s) {k : ℕ} (hk : k ∈ ids (items s.queued)) :
    k < s.calls := by
  obtain ⟨item, hitem, rfl⟩ := List.mem_map.1 hk
  exact h.calls_ok.fresh _ (List.mem_append_right _ (mem_items.1 hitem))

/-- Who is dropped has made a call. -/
theorem lt_calls_of_cancel (h : Ordered c s) {id : ℕ} (hs : step c s (.cancel id) = some t) :
    id < s.calls := by
  have hpast : ∀ k ∈ ids (items s.past), k < s.calls := by
    intro k hk
    apply lt_calls_of_mem_queued h
    rw [h.queued_eq, items_append, ids_append]
    exact List.mem_append_left _ hk
  simp only [step] at hs
  split at hs
  · next command hfind =>
    have hid : command.id = id := by simpa using List.find?_some hfind
    have hlt := h.calls_ok.fresh command
      (List.mem_append_left _ (List.mem_of_find?_eq_some hfind))
    omega
  · split_ifs at hs with hwaiting
    · apply lt_calls_of_mem_queued h
      have hmem := (ids_acked_sublist _).subset (h.answers_ok.waiting_sound id hwaiting)
      rw [h.queued_eq, items_append, ids_append]
      exact List.mem_append_right _ hmem
    · split at hs
      · next k answer hfind =>
        obtain rfl : k = id := by simpa using List.find?_some hfind
        have hmem := List.mem_append_left s.returned (List.mem_of_find?_eq_some hfind)
        apply hpast
        cases answer with
        | ok n =>
          obtain ⟨row, hrow, -⟩ := h.answers_ok.ok_sound k n hmem
          exact h.log_ok.ids_sublist.subset (List.mem_map_of_mem hrow)
        | error e => exact h.log_ok.failed_past k (h.answers_ok.error_sound k e hmem)
      · cases hs

/-- Entries that were handed in stay so. -/
theorem handed_prefix {op : Op} (hs : step c s op = some t) : s.handed <+: t.handed := by
  cases op with
  | setMode mode =>
    cases hs
    exact List.prefix_refl _
  | finish id =>
    obtain ⟨answer, -, rfl⟩ := step_finish hs
    rw [(read_frame ..).2.2.2]
  | cancel id => rw [(cancelled_cancel hs).2]
  | write commits =>
    obtain ⟨batch, after, lostBefore, now, -, hcase⟩ := step_write hs
    rcases hcase with ⟨seqs, trail, -, rfl⟩ | ⟨e, -, rfl⟩
    · exact List.prefix_refl _
    · exact List.prefix_refl _
  | panic =>
    rcases step_panic hs with ⟨batch, after, lostBefore, now, -, rfl⟩ | ⟨id, cutoff, -, rfl⟩
    · exact List.prefix_refl _
    · exact List.prefix_refl _
  | _ =>
    exact (settled_eq hs (fun _ heq => by cases heq) (fun _ heq => by cases heq)
      (fun _ heq => by cases heq) (fun _ heq => by cases heq) (fun heq => by cases heq)).2.2.2.2

/-- The entries of a batch in hand whose caller does not wait any more are those of dropped
callers. -/
theorem cancelled_of_orphan (h : Ordered c s) {batch : List Item}
    (hbatch : ∀ item ∈ batch, item ∈ items s.writer.current) {k : ℕ} (hk : k ∈ s.orphans batch) :
    k ∈ s.cancelled := by
  obtain ⟨item, hitem, rfl⟩ := List.mem_map.1 hk
  obtain ⟨hacked, hwaiting⟩ := List.mem_filter.1 hitem
  obtain ⟨hmem, hasked⟩ := List.mem_filter.1 hacked
  by_contra hnot
  refine of_decide_eq_true hwaiting (h.answers_ok.waiting_complete item.id ?_ hnot)
  rw [items_append, acked_append, ids_append]
  refine List.mem_append_left _ (List.mem_map.2 ⟨item, ?_, rfl⟩)
  exact List.mem_filter.2 ⟨hbatch item hmem, hasked⟩

/-- Only the entries of dropped callers disappear. -/
theorem dropped_subset_step (h : Ordered c s) (hsub : s.dropped ⊆ s.cancelled) {op : Op}
    (hs : step c s op = some t) : t.dropped ⊆ t.cancelled := by
  cases op with
  | cancel id =>
    rcases step_cancel hs with ⟨command, hfind, rfl⟩ | ⟨-, rfl⟩ | ⟨answer, hfind, rfl⟩
    · refine List.append_subset.2 ⟨List.subset_append_of_subset_left _ hsub, ?_⟩
      intro k hk
      obtain ⟨item, hitem, rfl⟩ := List.mem_map.1 hk
      obtain rfl := List.mem_singleton.1 (mem_items.1 hitem)
      have hid : (Command.append item).id = id := by simpa using List.find?_some hfind
      exact List.mem_append_right _ (List.mem_singleton.2 hid)
    · exact List.subset_append_of_subset_left _ hsub
    · refine List.append_subset.2 ⟨List.subset_append_of_subset_left _ hsub, ?_⟩
      intro k hk
      refine List.mem_append_right _ ?_
      cases answer with
      | ok n => cases hk
      | error e => exact hk
  | write commits =>
    obtain ⟨batch, after, lostBefore, now, hw, hcase⟩ := step_write hs
    rcases hcase with ⟨seqs, trail, -, rfl⟩ | ⟨e, -, rfl⟩
    · exact hsub
    · refine List.append_subset.2 ⟨hsub, fun k hk => ?_⟩
      refine cancelled_of_orphan h (fun item hitem => ?_) hk
      rw [items_current_writing h hw]
      exact hitem
  | panic =>
    rcases step_panic hs with ⟨batch, after, lostBefore, now, hw, rfl⟩ | ⟨id, cutoff, -, rfl⟩
    · refine List.append_subset.2 ⟨hsub, fun k hk => ?_⟩
      refine cancelled_of_orphan h (fun item hitem => ?_) hk
      rw [items_current_writing h hw]
      exact hitem
    · exact hsub
  | _ =>
    rw [dropped_eq hs (fun _ heq => by cases heq) (fun _ heq => by cases heq)
      (fun heq => by cases heq), cancelled_eq hs fun _ heq => by cases heq]
    exact hsub

/-- Who is told in fail-closed mode reads an error in this mode. -/
theorem refused_finish {id : ℕ} (hs : step c s (.finish id) = some t) :
    t.refused = s.refused ∨
      t.refused = s.refused ++ [id] ∧ s.mode = .failClosed ∧ ∃ e, (id, .error e) ∈ s.answers := by
  obtain ⟨answer, hfind, rfl⟩ := step_finish hs
  unfold Pipeline.read
  split
  · exact .inl rfl
  · exact .inl rfl
  · next e hmode =>
    refine .inr ⟨rfl, hmode, e, ?_⟩
    exact List.mem_of_find?_eq_some hfind

/-! ## Nothing disappears -/

/-- The entries counted by a record of lost records that is being written, or by the counter of
a writer that died. -/
def unreported (s : Pipeline) : ℕ :=
  match s.writer with
  | .writing _ _ lostBefore _ => lostBefore
  | .crashed => s.inFlight
  | _ => 0

/-- The number of entries that are on their way: held by a caller, queued, in the batch, or
waiting as an error to be counted. -/
def pending (s : Pipeline) : ℕ :=
  (items (s.holding ++ (s.writer.current ++ s.queue))).length + (unreadIds s.answers).length +
    s.unreported

/-- What is not reported yet are the entries in flight. -/
theorem Tallied.unreported_eq {n : ℕ} (h : Tallied n s) : s.unreported = s.flightIds.length := by
  have hflight := h.flight_ok
  unfold unreported
  cases hw : s.writer with
  | writing batch after lostBefore now =>
    rw [hw] at hflight
    exact hflight.1.symm
  | crashed =>
    rw [hw] at hflight
    exact hflight
  | collecting batch =>
    rw [hw] at hflight
    exact hflight.2.symm
  | ready batch after =>
    rw [hw] at hflight
    exact hflight.2.symm
  | finishing command =>
    rw [hw] at hflight
    exact hflight.2.symm

/-- No entry has disappeared: what is stored is stored in the trail, each entry handed in is
accounted for exactly once, and the numbers add up. -/
structure Conserved (trail : Trail) (t : Pipeline) : Prop where
  stored : (t.log.map Prod.snd).Sublist t.trail.written
  nodup : t.accounted.Nodup
  once : (t.handed : Multiset ℕ) = t.accounted
  count : t.handed.length + eventsLost trail.entries =
    t.log.length + t.pending + t.lost + eventsLost t.trail.entries

/-- The parts of the account, counted one by one. -/
theorem card_accounted (s : Pipeline) : s.accounted.card =
    s.log.length + (items (s.holding ++ (s.writer.current ++ s.queue))).length +
      (unreadIds s.answers).length + s.lostIds.length + s.flightIds.length +
      s.reportedIds.length := by
  simp only [accounted, Multiset.card_add, Multiset.coe_card, held, List.length_map, items_append,
    List.length_append, ids]
  omega

/-- The books balance exactly if nothing was dropped. -/
theorem conserved_iff_dropped {trail : Trail} (h : Ordered c t)
    (hc : Counted (eventsLost trail.entries) t) (hb : Balanced t) :
    Conserved trail t ↔ t.dropped = [] := by
  have hb' : (t.handed : Multiset ℕ) = t.accounted + t.dropped := by
    rw [hb, hc.open_mode.2, Multiset.coe_nil, add_zero]
  constructor
  · intro hcons
    have hzero : (t.dropped : Multiset ℕ) = 0 := by
      have hsum := hb'
      rw [hcons.once] at hsum
      exact left_eq_add.1 hsum
    exact Multiset.coe_eq_zero t.dropped |>.1 hzero
  · intro hnil
    rw [hnil, Multiset.coe_nil, add_zero] at hb'
    refine ⟨h.log_ok.rows_sublist, ?_, hb', ?_⟩
    · rw [← hb']
      exact Multiset.coe_nodup.2 hc.handed_nodup
    · have hcard := congrArg Multiset.card hb'
      rw [Multiset.coe_card, card_accounted] at hcard
      rw [pending, hc.unreported_eq, hc.lost_eq, hc.reported_eq]
      omega

/-- Nothing is counted in a pipeline that starts. -/
theorem tallied_start (mode : FailMode) (trail : Trail) (saved : ℕ) :
    Tallied (eventsLost trail.entries) (start mode trail saved) := by
  refine ⟨?_, ⟨rfl, rfl⟩, rfl, ?_, ?_, List.nodup_range⟩
  · show saved = (List.range saved).length
    rw [List.length_range]
  · intro item hmem
    cases hmem
  · intro k hk
    exact List.mem_range.1 hk

/-- At the start the entries handed in are those lost before. -/
theorem balanced_start (mode : FailMode) (trail : Trail) (saved : ℕ) :
    Balanced (start mode trail saved) := by
  show ((List.range saved : List ℕ) : Multiset ℕ) =
    0 + 0 + 0 + 0 + (List.range saved) + 0 + 0 + 0 + 0
  simp only [zero_add, add_zero]

/-- What holds of every run in fail-open mode. -/
theorem ledger_of_run {trail : Trail} (htrail : Trail.Chained c trail)
    (hopen : trail.store.isSome) (saved : ℕ) {ops : List Op}
    (hops : ∀ op ∈ ops, op.FailOpen)
    (hr : Machine.run (step c) (start .failOpen trail saved) ops = some t) :
    Ordered c t ∧ Counted (eventsLost trail.entries) t ∧ Balanced t := by
  refine Machine.run_invariant_of_meets
    (I := fun s => Ordered c s ∧ Counted (eventsLost trail.entries) s ∧ Balanced s)
    (C := fun _ op => op.FailOpen) ?_ ?_
    (Machine.meets_of_forall_mem _ (fun op hop _ => hops op hop) _) hr
  · rintro s op t ⟨h, hc, hb⟩ hop hs
    exact ⟨ordered_step h hs, counted_step h hc hop hs, balanced_step h hc.toTallied hb hs⟩
  · exact ⟨ordered_start htrail hopen .failOpen saved,
      ⟨tallied_start .failOpen trail saved, rfl, rfl⟩,
      balanced_start .failOpen trail saved⟩

/-- **Accounting in fail-open mode**, for every interleaving of callers, dropped callers, writer,
panics and restarts: after a run in which no caller hands in a record of lost records every entry
handed in is accounted for exactly once, and the numbers add up, if and only if no step of the run
drops an entry of a caller that is gone. -/
theorem conserved_iff {life : List Trail.Op} {trail : Trail}
    (hlife : Machine.run (Trail.step c) Trail.init life = some trail)
    (hopen : trail.store.isSome) (saved : ℕ) {ops : List Op}
    (hops : ∀ op ∈ ops, op.FailOpen)
    (hr : Machine.run (step c) (start .failOpen trail saved) ops = some t) :
    Conserved trail t ↔ Machine.Meets (step c) Safe (start .failOpen trail saved) ops := by
  have htrail := Trail.chained_of_run hlife
  obtain ⟨h, hc, hb⟩ := ledger_of_run htrail hopen saved hops hr
  have hstep : ∀ s op t, Ordered c s → step c s op = some t →
      Ordered c t ∧ s.dropped.length ≤ t.dropped.length ∧
        (t.dropped.length = s.dropped.length ↔ s.Safe op) := by
    intro s op t h hs
    obtain ⟨l, hl, hsafe⟩ := dropped_step h hs
    rw [hl, List.length_append, ← hsafe, ← List.length_eq_zero_iff]
    exact ⟨ordered_step h hs, by omega, by omega⟩
  obtain ⟨-, hiff⟩ := Machine.meets_iff_of_monotone hstep
    (ordered_start htrail hopen .failOpen saved) hr
  rw [conserved_iff_dropped h hc hb, ← hiff, ← List.length_eq_zero_iff]
  rfl

/-- A caller that waits for its commit, and a flush behind it. -/
def committedRun : List Op :=
  [.recordCommitted stoppedEntry, .send 0, .flush, .send 1, .recv, .recv, .startBatch ⟨0⟩,
    .write true, .finishCommand true ⟨0⟩ ⟨0⟩, .finish 0]

/-- The commit of the one caller is accounted for. -/
theorem conserved_iff_committedRun : ∃ t,
    Machine.run (step plainCrates) (start .failOpen Trail.opened 0) committedRun = some t ∧
      Conserved Trail.opened t := by
  obtain ⟨t, ht⟩ := Option.isSome_iff_exists.1
    (show (Machine.run (step plainCrates) (start .failOpen Trail.opened 0) committedRun).isSome =
      true from rfl)
  have hops : ∀ op ∈ committedRun, op.FailOpen := by
    simp [committedRun, Op.FailOpen, stoppedEntry, AuditEntry.new, AuditEvent.lost]
  refine ⟨t, ht, (conserved_iff (Trail.run_opened plainCrates) rfl 0 hops ht).2 ?_⟩
  -- nobody is dropped, no commit fails and nothing panics
  refine Machine.Meets.mono (C := fun _ op => ∀ s, Safe s op) (fun s op h => h s)
    (Machine.meets_of_forall_mem _ ?_ _)
  simp [committedRun, Safe]

/-- A caller that waits for its commit is dropped, and the commit fails. -/
def disappearingRun : List Op :=
  [.recordCommitted stoppedEntry, .send 0, .cancel 0, .recv, .tryRecvEmpty, .startBatch ⟨0⟩,
    .write false]

/-- The entry is neither stored nor on its way nor counted. -/
theorem entry_disappears : ∃ t,
    Machine.run (step plainCrates) (start .failOpen Trail.opened 0) disappearingRun = some t ∧
      t.handed = [0] ∧ t.log = [] ∧ t.pending = 0 ∧ t.lost = 0 ∧
      eventsLost t.trail.entries = 0 ∧ ¬ Conserved Trail.opened t := by
  obtain ⟨t, ht⟩ := Option.isSome_iff_exists.1
    (show (Machine.run (step plainCrates) (start .failOpen Trail.opened 0) disappearingRun).isSome =
      true from rfl)
  have hread : (Machine.run (step plainCrates) (start .failOpen Trail.opened 0)
      disappearingRun).map (fun t => (t.handed, t.log, t.pending, t.lost,
        eventsLost t.trail.entries)) = some ([0], [], 0, 0, 0) := rfl
  rw [ht, Option.map_some, Option.some.injEq, Prod.mk.injEq, Prod.mk.injEq, Prod.mk.injEq,
    Prod.mk.injEq] at hread
  obtain ⟨hhanded, hlog, hpending, hlost, hreported⟩ := hread
  refine ⟨t, ht, hhanded, hlog, hpending, hlost, hreported, fun hcons => ?_⟩
  have hcount := hcons.count
  rw [hhanded, hlog, hpending, hlost, hreported] at hcount
  simp at hcount

end Pipeline

end AuditGateway
