import AuditGateway.Audit.Text
import AuditGateway.Audit.Writer

set_option relaxedAutoImplicit false
set_option autoImplicit false

/-!
# Order and acknowledgement

The writer stores entries in the order they were queued, each at most once, answers each caller
with the fate of its own entry, and answers a flush only behind everything queued before it.
All of this follows from one picture: what was ever queued is what the writer is done with, what
it has in hand, and the queue, in this order.

## Main definitions

* `CallsOk`, `LogOk`, `AnswersOk` — the parts of the invariant.
* `Pipeline.Ordered` — the invariant of every run.

## Main results

* `AnswersOk.settle` — answering a batch.
* `Pipeline.ordered_of_run` — the invariant holds after every run.
* `Pipeline.order_and_acknowledgement` — order, answers and flushes.
-/

namespace AuditGateway

/-! ## Lists of commands and entries -/

/-- The entries of two lists of commands together. -/
@[simp] theorem items_append (l m : List Command) : items (l ++ m) = items l ++ items m :=
  List.filterMap_append ..

/-- No command has no entry. -/
@[simp] theorem items_nil : items [] = [] := rfl

/-- The entry of the first command, if it has one, and those of the others. -/
theorem items_cons (command : Command) (l : List Command) :
    items (command :: l) = command.item?.toList ++ items l := by
  cases command <;> rfl

/-- A batch that is queued again has its items. -/
@[simp] theorem items_map_append (batch : List Item) : items (batch.map .append) = batch := by
  induction batch with
  | nil => rfl
  | cons item batch ih =>
    rw [List.map_cons, items_cons, ih]
    rfl

/-- An item is there exactly if its append is. -/
theorem mem_items {item : Item} {l : List Command} : item ∈ items l ↔ .append item ∈ l := by
  rw [items, List.mem_filterMap]
  constructor
  · rintro ⟨command, hmem, hitem⟩
    cases command with
    | append item' =>
      obtain rfl : item' = item := Option.some.inj hitem
      exact hmem
    | prune => cases hitem
    | flush => cases hitem
  · exact fun hmem => ⟨_, hmem, rfl⟩

/-- The calls of two batches together. -/
@[simp] theorem ids_append (l m : List Item) : ids (l ++ m) = ids l ++ ids m := List.map_append ..

/-- A call is in a batch exactly if one of its items is. -/
theorem mem_ids {k : ℕ} {batch : List Item} : k ∈ ids batch ↔ ∃ item ∈ batch, item.id = k :=
  List.mem_map

/-- The calls behind the entries are among the calls behind the commands, in their order. -/
theorem ids_items_sublist (l : List Command) : (ids (items l)).Sublist (l.map Command.id) := by
  induction l with
  | nil => exact List.Sublist.slnil
  | cons command l ih =>
    rw [items_cons, ids_append, List.map_cons]
    cases command with
    | append item => exact ih.cons_cons item.id
    | prune id cutoff => exact ih.cons id
    | flush id => exact ih.cons id

/-- The items whose callers wait are those that are acknowledged. -/
theorem mem_acked {item : Item} {batch : List Item} :
    item ∈ acked batch ↔ item ∈ batch ∧ item.acked = true := List.mem_filter

/-- What is paired keeps its order. -/
theorem map_snd_zip_sublist {α β : Type*} (l : List α) (m : List β) :
    ((l.zip m).map Prod.snd).Sublist m := by
  induction l generalizing m with
  | nil => exact List.nil_sublist m
  | cons a l ih =>
    cases m with
    | nil => exact List.Sublist.slnil
    | cons b m => exact (ih m).cons_cons b

/-! ## Calls -/

/-- Every command has the number of a call, and no two have the same. -/
structure CallsOk (calls : ℕ) (holding queued : List Command) : Prop where
  fresh : ∀ command ∈ holding ++ queued, command.id < calls
  nodup : ((holding ++ queued).map Command.id).Nodup

namespace CallsOk

variable {calls : ℕ} {holding holding' queued queued' : List Command} {command : Command}

/-- Commands that go from the callers to the queue are still from different calls. -/
theorem of_perm (h : CallsOk calls holding queued)
    (hp : (holding ++ queued).Perm (holding' ++ queued')) : CallsOk calls holding' queued' :=
  ⟨fun command hc => h.fresh command (hp.mem_iff.2 hc), (hp.map _).nodup_iff.1 h.nodup⟩

/-- The commands behind a caller that has left are from different calls. -/
theorem of_sublist (h : CallsOk calls holding queued) (hs : holding'.Sublist holding) :
    CallsOk calls holding' queued := by
  have hs' := hs.append (List.Sublist.refl queued)
  exact ⟨fun command hc => h.fresh command (hs'.subset hc), (hs'.map _).nodup h.nodup⟩

/-- A new call has a command of its own. -/
theorem new (h : CallsOk calls holding queued) (hid : command.id = calls) :
    CallsOk (calls + 1) (holding ++ [command]) queued := by
  have hp : (holding ++ [command] ++ queued).Perm (command :: (holding ++ queued)) := by
    rw [List.append_assoc]
    exact List.perm_middle
  refine ⟨fun d hd => ?_, ?_⟩
  · rcases List.mem_cons.1 (hp.mem_iff.1 hd) with rfl | hd
    · omega
    · have := h.fresh d hd
      omega
  · rw [(hp.map _).nodup_iff, List.map_cons, List.nodup_cons]
    refine ⟨fun hmem => ?_, h.nodup⟩
    obtain ⟨d, hd, hdid⟩ := List.mem_map.1 hmem
    have := h.fresh d hd
    omega

/-- A command moves from its caller to the queue. -/
theorem move (h : CallsOk calls (holding ++ [command]) queued) :
    CallsOk calls holding (queued ++ [command]) := by
  refine h.of_perm ?_
  rw [List.append_assoc]
  exact List.perm_append_comm.append_left holding

/-- Every call queues one command. -/
theorem nodup_queued (h : CallsOk calls holding queued) : (queued.map Command.id).Nodup := by
  have := h.nodup
  rw [List.map_append] at this
  exact (List.nodup_append.1 this).2.1

end CallsOk

/-! ## The log -/

/-- The log goes through what the writer is done with in order, with the rows of the trail; each
row is the record of its entry, and an entry whose batch is done is logged or failed. -/
structure LogOk (c : Crates) (written : List Row) (past : List Command) (log : List (ℕ × Row))
    (failed : List ℕ) : Prop where
  ids_sublist : (log.map Prod.fst).Sublist (ids (items past))
  rows_sublist : (log.map Prod.snd).Sublist written
  record_eq : ∀ p ∈ log, ∃ item ∈ items past, item.id = p.1 ∧
    p.2 = record c p.2.seq p.2.prevHash item.entry
  handled : ∀ k ∈ ids (items past), k ∈ log.map Prod.fst ∨ k ∈ failed
  failed_past : ∀ k ∈ failed, k ∈ ids (items past)
  failed_not : ∀ k ∈ failed, k ∉ log.map Prod.fst

/-- The rows of a batch are the records of its entries, by position. -/
theorem record_eq_of_mem_zip {c : Crates} {n : ℤ} {h : String} {batch : List Item}
    {more : List AuditEntry} {p : Item × Row}
    (hp : p ∈ batch.zip (records c n h (batch.map (·.entry) ++ more))) :
    p.2 = record c p.2.seq p.2.prevHash p.1.entry := by
  induction batch generalizing n h with
  | nil => cases hp
  | cons item batch ih =>
    rw [List.map_cons, List.cons_append, records_cons, List.zip_cons_cons] at hp
    rcases List.mem_cons.1 hp with rfl | hp
    · rfl
    · exact ih hp

namespace LogOk

variable {c : Crates} {written written' : List Row} {past : List Command}
  {log : List (ℕ × Row)} {failed : List ℕ}

/-- Rows written by others do not matter, nor do commands that hold no entry. -/
theorem extend (h : LogOk c written past log failed) (hw : written <+: written')
    (more : List Command) (hmore : items more = []) :
    LogOk c written' (past ++ more) log failed := by
  have hitems : items (past ++ more) = items past := by
    rw [items_append, hmore, List.append_nil]
  refine ⟨?_, h.rows_sublist.trans hw.sublist, ?_, ?_, ?_, h.failed_not⟩
  all_goals rw [hitems]
  · exact h.ids_sublist
  · exact h.record_eq
  · exact h.handled
  · exact h.failed_past

/-- A batch is stored. -/
theorem stored (h : LogOk c written past log failed) {batch : List Item} {n : ℤ} {p : String}
    {more : List AuditEntry}
    (hnew : ∀ k ∈ ids batch, k ∉ ids (items past)) :
    LogOk c (written ++ records c n p (batch.map (·.entry) ++ more)) (past ++ batch.map .append)
      (log ++ Pipeline.logged batch (records c n p (batch.map (·.entry) ++ more))) failed := by
  set rows := records c n p (batch.map (·.entry) ++ more) with hrows
  have hlen : (ids batch).length ≤ rows.length := by
    rw [hrows, length_records, ids, List.length_append, List.length_map, List.length_map]
    omega
  have hfst : (Pipeline.logged batch rows).map Prod.fst = ids batch := List.map_fst_zip hlen
  have hsnd : ((Pipeline.logged batch rows).map Prod.snd).Sublist rows := by
    exact map_snd_zip_sublist ..
  refine ⟨?_, ?_, ?_, ?_, ?_, ?_⟩
  · rw [List.map_append, hfst, items_append, items_map_append, ids_append]
    exact h.ids_sublist.append (List.Sublist.refl _)
  · rw [List.map_append]
    exact h.rows_sublist.append hsnd
  · intro q hq
    rcases List.mem_append.1 hq with hq | hq
    · obtain ⟨item, hitem, hid, hrec⟩ := h.record_eq q hq
      exact ⟨item, by simp [hitem], hid, hrec⟩
    · rw [Pipeline.logged, ids, List.zip_map_left, List.mem_map] at hq
      obtain ⟨⟨item, row⟩, hmem, rfl⟩ := hq
      have hitem : item ∈ batch := (List.of_mem_zip hmem).1
      exact ⟨item, by simp [hitem], rfl, record_eq_of_mem_zip hmem⟩
  · intro k hk
    rw [items_append, items_map_append, ids_append, List.mem_append] at hk
    rw [List.map_append, hfst, List.mem_append]
    rcases hk with hk | hk
    · exact (h.handled k hk).imp_left .inl
    · exact .inl (.inr hk)
  · intro k hk
    rw [items_append, ids_append]
    exact List.mem_append_left _ (h.failed_past k hk)
  · intro k hk
    rw [List.map_append, hfst, List.mem_append, not_or]
    exact ⟨h.failed_not k hk, fun hmem => hnew k hmem (h.failed_past k hk)⟩

/-- A batch is not stored. -/
theorem notStored (h : LogOk c written past log failed) {batch : List Item}
    (hnew : ∀ k ∈ ids batch, k ∉ ids (items past)) :
    LogOk c written (past ++ batch.map .append) log (failed ++ ids batch) := by
  have hids : ids (items (past ++ batch.map .append)) = ids (items past) ++ ids batch := by
    rw [items_append, items_map_append, ids_append]
  refine ⟨?_, h.rows_sublist, ?_, ?_, ?_, ?_⟩
  · rw [hids]
    exact h.ids_sublist.trans (List.sublist_append_left ..)
  · intro q hq
    obtain ⟨item, hitem, hid, hrec⟩ := h.record_eq q hq
    exact ⟨item, by simp [hitem], hid, hrec⟩
  · intro k hk
    rw [hids, List.mem_append] at hk
    rw [List.mem_append]
    rcases hk with hk | hk
    · exact (h.handled k hk).imp_right .inl
    · exact .inr (.inr hk)
  · intro k hk
    rw [hids, List.mem_append]
    exact (List.mem_append.1 hk).imp_left (h.failed_past k)
  · intro k hk
    rcases List.mem_append.1 hk with hk | hk
    · exact h.failed_not k hk
    · exact fun hmem => hnew k hk (h.ids_sublist.subset hmem)

end LogOk

/-! ## Answers -/

/-- Who waits has an entry that the writer is not done with, and the other way round if the
caller is still there; an answer tells what became of the caller's own entry. -/
structure AnswersOk (past unsettled : List Command) (log : List (ℕ × Row)) (failed : List ℕ)
    (waiting : List ℕ) (answers returned : List (ℕ × Except AuditError ℤ))
    (cancelled : List ℕ) : Prop where
  waiting_sound : ∀ k ∈ waiting, k ∈ ids (acked (items unsettled))
  waiting_complete : ∀ k ∈ ids (acked (items unsettled)), k ∉ cancelled → k ∈ waiting
  ok_sound : ∀ k n, (k, .ok n) ∈ answers ++ returned → ∃ row, (k, row) ∈ log ∧ row.seq = n
  error_sound : ∀ k e, (k, .error e) ∈ answers ++ returned → k ∈ failed
  answered : ∀ k ∈ ids (acked (items past)), k ∉ cancelled → ∃ a, (k, a) ∈ answers ++ returned

/-- The acknowledged items of two batches together. -/
@[simp] theorem acked_append (l m : List Item) : acked (l ++ m) = acked l ++ acked m :=
  List.filter_append ..

/-- They are some of the calls of the batch, in their order. -/
theorem ids_acked_sublist (batch : List Item) : (ids (acked batch)).Sublist (ids batch) :=
  List.filter_sublist.map _

namespace AnswersOk

variable {past unsettled : List Command} {log log' : List (ℕ × Row)} {failed failed' : List ℕ}
  {waiting : List ℕ} {answers returned : List (ℕ × Except AuditError ℤ)} {cancelled : List ℕ}

/-- A command is queued, and its caller waits if it asked for the commit. -/
theorem enqueue (h : AnswersOk past unsettled log failed waiting answers returned cancelled)
    (command : Command) :
    AnswersOk past (unsettled ++ [command]) log failed (waiting ++ ids (acked (items [command])))
      answers returned cancelled := by
  refine ⟨fun k hk => ?_, fun k hk hc => ?_, h.ok_sound, h.error_sound, h.answered⟩
  all_goals rw [items_append, acked_append, ids_append, List.mem_append] at *
  · exact hk.imp_left (h.waiting_sound k)
  · exact hk.imp_left fun hk => h.waiting_complete k hk hc

/-- A caller is dropped. -/
theorem cancel (h : AnswersOk past unsettled log failed waiting answers returned cancelled)
    (k : ℕ) :
    AnswersOk past unsettled log failed waiting answers returned (cancelled ++ [k]) := by
  refine ⟨h.waiting_sound, fun j hj hc => ?_, h.ok_sound, h.error_sound, fun j hj hc => ?_⟩
  · exact h.waiting_complete j hj fun hmem => hc (List.mem_append_left _ hmem)
  · exact h.answered j hj fun hmem => hc (List.mem_append_left _ hmem)

/-- A dropped caller does not wait any more. -/
theorem forget (h : AnswersOk past unsettled log failed waiting answers returned cancelled)
    {k : ℕ} (hk : k ∈ cancelled) :
    AnswersOk past unsettled log failed (waiting.filter fun j => j ≠ k) answers returned
      cancelled := by
  refine ⟨fun j hj => ?_, fun j hj hc => ?_, h.ok_sound, h.error_sound, h.answered⟩
  · exact h.waiting_sound j (List.mem_of_mem_filter hj)
  · have hjk : j ≠ k := fun hjk => hc (hjk ▸ hk)
    exact List.mem_filter.2 ⟨h.waiting_complete j hj hc, by simpa using hjk⟩

/-- The answer to a dropped caller is lost. -/
theorem lose (h : AnswersOk past unsettled log failed waiting answers returned cancelled)
    {k : ℕ} (hk : k ∈ cancelled) :
    AnswersOk past unsettled log failed waiting (answers.eraseP fun answer => answer.1 = k)
      returned cancelled := by
  have hsub : ∀ x ∈ (answers.eraseP fun answer => answer.1 = k) ++ returned,
      x ∈ answers ++ returned := by
    intro x hx
    exact List.mem_append.2 ((List.mem_append.1 hx).imp_left List.mem_of_mem_eraseP)
  refine ⟨h.waiting_sound, h.waiting_complete, fun j n hj => h.ok_sound j n (hsub _ hj),
    fun j e hj => h.error_sound j e (hsub _ hj), fun j hj hc => ?_⟩
  obtain ⟨a, ha⟩ := h.answered j hj hc
  have hjk : j ≠ k := fun hjk => hc (hjk ▸ hk)
  refine ⟨a, List.mem_append.2 ((List.mem_append.1 ha).imp_left fun ha => ?_)⟩
  exact (List.mem_eraseP_of_neg (by simpa using hjk)).2 ha

/-- A caller reads its answer. -/
theorem read (h : AnswersOk past unsettled log failed waiting answers returned cancelled)
    {p : ℕ × Except AuditError ℤ → Bool} {answer : ℕ × Except AuditError ℤ}
    (hfind : answers.find? p = some answer) :
    AnswersOk past unsettled log failed waiting (answers.eraseP p) (returned ++ [answer])
      cancelled := by
  have hperm : (answers.eraseP p ++ (returned ++ [answer])).Perm (answers ++ returned) := by
    have h₁ := (Machine.perm_of_find? hfind).append_right returned
    have h₂ : (answers.eraseP p ++ (returned ++ [answer])).Perm
        (answer :: (answers.eraseP p ++ returned)) := by
      rw [← List.append_assoc]
      exact List.perm_append_singleton ..
    exact h₂.trans h₁.symm
  refine ⟨h.waiting_sound, h.waiting_complete, fun j n hj => h.ok_sound j n (hperm.mem_iff.1 hj),
    fun j e hj => h.error_sound j e (hperm.mem_iff.1 hj), fun j hj hc => ?_⟩
  obtain ⟨a, ha⟩ := h.answered j hj hc
  exact ⟨a, hperm.mem_iff.2 ha⟩

/-- Commands that hold no entry are handled. -/
theorem skip {more : List Command} (hmore : items more = [])
    (h : AnswersOk past (more ++ unsettled) log failed waiting answers returned cancelled) :
    AnswersOk (past ++ more) unsettled log failed waiting answers returned cancelled := by
  have h₁ : items (more ++ unsettled) = items unsettled := by
    rw [items_append, hmore, List.nil_append]
  have h₂ : items (past ++ more) = items past := by
    rw [items_append, hmore, List.append_nil]
  refine ⟨?_, ?_, h.ok_sound, h.error_sound, ?_⟩
  · rw [← h₁]
    exact h.waiting_sound
  · rw [← h₁]
    exact h.waiting_complete
  · rw [h₂]
    exact h.answered

/-- **A batch is answered**: each of its callers that is still there gets an answer that tells
what became of its own entry. -/
theorem settle {batch : List Item} {acks : List (ℕ × Except AuditError ℤ)}
    (h : AnswersOk past (batch.map .append ++ unsettled) log failed waiting answers returned
      cancelled)
    (hnodup : ∀ k ∈ ids batch, k ∉ ids (items unsettled))
    (hids : acks.map Prod.fst = ids (acked batch))
    (hok : ∀ k n, (k, .ok n) ∈ acks → ∃ row, (k, row) ∈ log' ∧ row.seq = n)
    (herror : ∀ k e, (k, .error e) ∈ acks → k ∈ failed')
    (hlog : log ⊆ log') (hfailed : failed ⊆ failed') :
    AnswersOk (past ++ batch.map .append) unsettled log' failed'
      (waiting.filter fun k => k ∉ acks.map Prod.fst)
      (answers ++ acks.filter fun ack => ack.1 ∈ waiting) returned cancelled := by
  have hsplit : ids (acked (items (batch.map .append ++ unsettled))) =
      ids (acked batch) ++ ids (acked (items unsettled)) := by
    rw [items_append, items_map_append, acked_append, ids_append]
  have hmem : ∀ {x}, x ∈ (answers ++ acks.filter fun ack => ack.1 ∈ waiting) ++ returned →
      x ∈ answers ++ returned ∨ x ∈ acks := by
    intro x hx
    simp only [List.mem_append] at hx ⊢
    rcases hx with (hx | hx) | hx
    · exact .inl (.inl hx)
    · exact .inr (List.mem_of_mem_filter hx)
    · exact .inl (.inr hx)
  refine ⟨fun k hk => ?_, fun k hk hc => ?_, fun k n hk => ?_, fun k e hk => ?_,
    fun k hk hc => ?_⟩
  · -- a waiting caller without an answer has its entry behind the batch
    obtain ⟨hwait, hnot⟩ := List.mem_filter.1 hk
    have hk' := h.waiting_sound k hwait
    rw [hsplit, List.mem_append] at hk'
    rw [decide_eq_true_iff, hids] at hnot
    exact hk'.resolve_left hnot
  · have hwait := h.waiting_complete k (by rw [hsplit]; exact List.mem_append_right _ hk) hc
    refine List.mem_filter.2 ⟨hwait, ?_⟩
    rw [decide_eq_true_iff, hids]
    intro hbatch
    exact hnodup k ((ids_acked_sublist batch).subset hbatch) ((ids_acked_sublist _).subset hk)
  · rcases hmem hk with hk | hk
    · obtain ⟨row, hrow, hseq⟩ := h.ok_sound k n hk
      exact ⟨row, hlog hrow, hseq⟩
    · exact hok k n hk
  · rcases hmem hk with hk | hk
    · exact hfailed (h.error_sound k e hk)
    · exact herror k e hk
  · rw [items_append, items_map_append, acked_append, ids_append, List.mem_append] at hk
    rcases hk with hk | hk
    · obtain ⟨a, ha⟩ := h.answered k hk hc
      refine ⟨a, ?_⟩
      simp only [List.mem_append] at ha ⊢
      exact ha.imp_left .inl
    · -- the caller waits, so the answer reaches it
      have hwait := h.waiting_complete k (by rw [hsplit]; exact List.mem_append_left _ hk) hc
      rw [← hids, List.mem_map] at hk
      obtain ⟨⟨j, a⟩, hack, rfl⟩ := hk
      refine ⟨a, List.mem_append_left _ (List.mem_append_right _ ?_)⟩
      exact List.mem_filter.2 ⟨hack, by simpa using hwait⟩

end AnswersOk

namespace Pipeline

variable {c : Crates} {s t : Pipeline}

/-! ## The invariant of every run -/

/-- What was ever queued is what the writer is done with, what it has in hand, and the queue; the
log and the answers agree with that. -/
structure Ordered (c : Crates) (s : Pipeline) : Prop where
  chained : Trail.Chained c s.trail
  opened : s.trail.store.isSome
  queued_eq : s.queued = s.past ++ (s.writer.current ++ s.queue)
  after_ok : ∀ command, s.writer.after? = some command → command.item? = none
  calls_ok : CallsOk s.calls s.holding s.queued
  log_ok : LogOk c s.trail.written s.past s.log s.failed
  answers_ok : AnswersOk s.past (s.writer.current ++ s.queue) s.log s.failed s.waiting s.answers
    s.returned s.cancelled
  flushed_ok : ∀ k ∈ s.flushed, .flush k ∈ s.past

/-- A pipeline that starts is in order. -/
theorem ordered_start {trail : Trail} (h : Trail.Chained c trail) (hopen : trail.store.isSome)
    (mode : FailMode) (saved : ℕ) : Ordered c (start mode trail saved) where
  chained := h
  opened := hopen
  queued_eq := rfl
  after_ok := by simp [start, Writer.after?]
  calls_ok := ⟨by simp [start], by simp [start]⟩
  log_ok := ⟨by simp [start], by simp [start], by simp [start], by simp [start, ids],
    by simp [start], by simp [start]⟩
  answers_ok := ⟨by simp [start], by simp [start, Writer.current, acked, ids], by simp [start],
    by simp [start], by simp [start, acked, ids]⟩
  flushed_ok := by simp [start]

/-- A new call waits for room with its command. -/
theorem Ordered.newCall (h : Ordered c s) (command : Command) (hid : command.id = s.calls) :
    Ordered c (s.call.hold command) where
  chained := h.chained
  opened := h.opened
  queued_eq := h.queued_eq
  after_ok := h.after_ok
  calls_ok := h.calls_ok.new hid
  log_ok := h.log_ok
  answers_ok := h.answers_ok
  flushed_ok := h.flushed_ok

/-- A command that its caller holds is queued. -/
theorem Ordered.enqueue (h : Ordered c s) {holding : List Command} {command : Command}
    (hp : s.holding.Perm (command :: holding)) :
    Ordered c (Pipeline.enqueue { s with holding := holding } command) where
  chained := h.chained
  opened := h.opened
  queued_eq := by
    show s.queued ++ [command] = s.past ++ (s.writer.current ++ (s.queue ++ [command]))
    rw [h.queued_eq]
    simp only [List.append_assoc]
  after_ok := h.after_ok
  calls_ok := by
    have hp' : (s.holding ++ s.queued).Perm (holding ++ [command] ++ s.queued) :=
      (hp.trans (List.perm_append_singleton ..).symm).append_right _
    exact (h.calls_ok.of_perm hp').move
  log_ok := h.log_ok
  answers_ok := by
    have := h.answers_ok.enqueue command
    rw [List.append_assoc] at this
    exact this
  flushed_ok := h.flushed_ok

/-- A caller stops waiting for room. -/
theorem Ordered.release (h : Ordered c s) (p : Command → Bool) :
    Ordered c { s with holding := s.holding.eraseP p } :=
  { h with calls_ok := h.calls_ok.of_sublist List.eraseP_sublist }

/-- The writer takes a command out of the queue, or stops collecting. -/
theorem Ordered.collect (h : Ordered c s) (writer : Writer) (queue : List Command)
    (hcurrent : writer.current ++ queue = s.writer.current ++ s.queue)
    (hafter : ∀ command, writer.after? = some command → command.item? = none) :
    Ordered c { s with writer := writer, queue := queue } where
  chained := h.chained
  opened := h.opened
  queued_eq := by
    show s.queued = s.past ++ (writer.current ++ queue)
    rw [hcurrent]
    exact h.queued_eq
  after_ok := hafter
  calls_ok := h.calls_ok
  log_ok := h.log_ok
  answers_ok := by
    show AnswersOk s.past (writer.current ++ queue) _ _ _ _ _ _
    rw [hcurrent]
    exact h.answers_ok
  flushed_ok := h.flushed_ok

/-- What the writer holds behind its batch. -/
theorem current_afterBatch (after : Option Command) :
    (Writer.afterBatch after).current = after.toList := by
  cases after <;> rfl

/-- The command behind the batch stays. -/
theorem after?_afterBatch (after : Option Command) : (Writer.afterBatch after).after? = after := by
  cases after <;> rfl

/-- Behind its batch the writer is idle. -/
theorem idle_afterBatch (after : Option Command) : (Writer.afterBatch after).Idle := by
  cases after <;> exact trivial

/-! ## What a step is -/

/-- What `record` does: the entry is queued, or it waits for room. -/
theorem step_record {entry : AuditEntry} {waits : Bool}
    (hs : step c s (.record entry waits) = some t) :
    t = s.handIn.enqueue (.append ⟨s.calls, entry, false⟩) ∨
      ∃ acked, t = s.handIn.hold (.append ⟨s.calls, entry, acked⟩) := by
  simp only [step] at hs
  split at hs
  · split_ifs at hs
    exact .inl (Option.some.inj hs).symm
  · exact .inr ⟨false, (Option.some.inj hs).symm⟩
  · exact .inr ⟨true, (Option.some.inj hs).symm⟩

/-- What a caller that gets room does. -/
theorem step_send {id : ℕ} (hs : step c s (.send id) = some t) :
    ∃ command, s.holding.find? (fun command => command.id = id) = some command ∧
      t = enqueue { s with holding := s.holding.eraseP fun command => command.id = id }
        command := by
  simp only [step] at hs
  split at hs
  · cases hs
  · next command hfind =>
    split_ifs at hs
    exact ⟨command, hfind, (Option.some.inj hs).symm⟩

/-- What a caller that has waited for too long does. -/
theorem step_timeout {id : ℕ} (hs : step c s (.timeout id) = some t) :
    ∃ entry, s.holding.find? (fun command => command.id = id) =
        some (.append ⟨id, entry, false⟩) ∧
      t = { s with
        holding := s.holding.eraseP fun command => command.id = id
        lost := s.lost + 1
        lostIds := s.lostIds ++ [id] } := by
  simp only [step] at hs
  split at hs
  · next k entry hfind =>
    have hid := List.find?_some hfind
    obtain rfl : k = id := of_decide_eq_true hid
    exact ⟨entry, hfind, (Option.some.inj hs).symm⟩
  · cases hs

/-- A caller is dropped that holds its command, that waits, or that did not read its answer. -/
theorem step_cancel {id : ℕ} (hs : step c s (.cancel id) = some t) :
    (∃ command, s.holding.find? (fun command => command.id = id) = some command ∧
      t = { s with
        holding := s.holding.eraseP fun command => command.id = id
        cancelled := s.cancelled ++ [id]
        dropped := s.dropped ++ ids (items [command]) }) ∨
    (id ∈ s.waiting ∧ t = { s with
      waiting := s.waiting.filter fun k => k ≠ id
      cancelled := s.cancelled ++ [id] }) ∨
    ∃ answer, s.answers.find? (fun answer => answer.1 = id) = some (id, answer) ∧
      t = { s with
        answers := s.answers.eraseP fun answer => answer.1 = id
        cancelled := s.cancelled ++ [id]
        dropped := s.dropped ++ unread id answer } := by
  simp only [step] at hs
  split at hs
  · next command hfind => exact .inl ⟨command, hfind, (Option.some.inj hs).symm⟩
  · split_ifs at hs with hwaiting
    · exact .inr (.inl ⟨hwaiting, (Option.some.inj hs).symm⟩)
    · split at hs
      · next k answer hfind =>
        obtain rfl : k = id := by simpa using List.find?_some hfind
        exact .inr (.inr ⟨answer, hfind, (Option.some.inj hs).symm⟩)
      · cases hs

/-- What a caller that reads its answer does. -/
theorem step_finish {id : ℕ} (hs : step c s (.finish id) = some t) :
    ∃ answer, s.answers.find? (fun answer => answer.1 = id) = some (id, answer) ∧
      t = read { s with
        answers := s.answers.eraseP fun answer => answer.1 = id
        returned := s.returned ++ [(id, answer)] } id answer := by
  simp only [step] at hs
  split at hs
  · next k answer hfind =>
    obtain rfl : k = id := by simpa using List.find?_some hfind
    exact ⟨answer, hfind, (Option.some.inj hs).symm⟩
  · cases hs

/-- What a batch does: it is stored with its numbers, or it is not. -/
theorem step_write {commits : Bool} (hs : step c s (.write commits) = some t) :
    ∃ batch after lostBefore now, s.writer = .writing batch after lostBefore now ∧
      ((∃ seqs trail, s.trail.append c commits (batch.map (·.entry) ++ lostReport now lostBefore) =
          .ok (seqs, trail) ∧ t = s.stored batch after seqs trail) ∨
        ∃ e, s.trail.append c commits (batch.map (·.entry) ++ lostReport now lostBefore) =
          .error e ∧ t = s.notStored batch after lostBefore e) := by
  simp only [step] at hs
  split at hs
  · next batch after lostBefore now hw =>
    refine ⟨batch, after, lostBefore, now, hw, ?_⟩
    split at hs
    · next seqs trail ha => exact .inl ⟨seqs, trail, ha, (Option.some.inj hs).symm⟩
    · next e ha => exact .inr ⟨e, ha, (Option.some.inj hs).symm⟩
  · cases hs

/-- What the command behind a batch does. -/
theorem step_finishCommand {commits : Bool} {now stamp : DateTime}
    (hs : step c s (.finishCommand commits now stamp) = some t) :
    (∃ id cutoff, s.writer = .finishing (.prune id cutoff) ∧
      ((∃ n trail, s.trail.pruneBefore c commits cutoff now stamp = .ok (n, trail) ∧
          t = { s with
            trail := trail
            writer := .collecting []
            past := s.past ++ [.prune id cutoff]
            pruned := s.pruned ++ [(id, .ok n)] }) ∨
        ∃ e, t = { s with
          writer := .collecting []
          past := s.past ++ [.prune id cutoff]
          pruned := s.pruned ++ [(id, .error e)] })) ∨
    ∃ id, s.writer = .finishing (.flush id) ∧
      t = { s with
        writer := .collecting []
        past := s.past ++ [.flush id]
        flushed := s.flushed ++ [id] } := by
  simp only [step] at hs
  split at hs
  · next id cutoff hw =>
    refine .inl ⟨id, cutoff, hw, ?_⟩
    split at hs
    · next n trail hp => exact .inl ⟨n, trail, hp, (Option.some.inj hs).symm⟩
    · next e _ => exact .inr ⟨e, (Option.some.inj hs).symm⟩
  · next id hw => exact .inr ⟨id, hw, (Option.some.inj hs).symm⟩
  · cases hs

/-- What a panic does. -/
theorem step_panic (hs : step c s .panic = some t) :
    (∃ batch after lostBefore now, s.writer = .writing batch after lostBefore now ∧
      t = s.unwound batch after) ∨
    ∃ id cutoff, s.writer = .finishing (.prune id cutoff) ∧
      t = { s with writer := .crashed, past := s.past ++ [.prune id cutoff] } := by
  simp only [step] at hs
  split at hs
  · next batch after lostBefore now hw =>
    exact .inl ⟨batch, after, lostBefore, now, hw, (Option.some.inj hs).symm⟩
  · next id cutoff hw => exact .inr ⟨id, cutoff, hw, (Option.some.inj hs).symm⟩
  · cases hs

/-- What a restart of the writer does. -/
theorem step_restart {commits : Bool} {now : DateTime}
    (hs : step c s (.restart commits now) = some t) :
    s.writer = .crashed ∧ ∃ db store, openStore c commits now s.trail.db = .ok (db, store) ∧
      t = { s with
        trail := ⟨db, some store, s.trail.entries ++ Trail.openEntries now s.trail.db,
          s.trail.written ++ Trail.newRows s.trail.db db⟩
        writer := .collecting []
        lost := s.lost + s.inFlight
        inFlight := 0
        lostIds := s.lostIds ++ s.flightIds
        flightIds := [] } := by
  simp only [step] at hs
  split at hs
  · next hw =>
    refine ⟨hw, ?_⟩
    split at hs
    · cases hs
    · next db store ho => exact ⟨db, store, ho, (Option.some.inj hs).symm⟩
  · cases hs

/-! ## The writer moves on -/

/-- The writer moves on with what it has in hand, and no transaction runs. -/
structure Collected (s t : Pipeline) (writer : Writer) (queue : List Command) : Prop where
  eq : t = { s with writer := writer, queue := queue }
  current_eq : writer.current ++ queue = s.writer.current ++ s.queue
  after_ok : ∀ command, writer.after? = some command → command.item? = none
  idle : s.writer.Idle
  idle' : writer.Idle

/-- Taking a command keeps the order. -/
theorem Ordered.collected (h : Ordered c s)
    (hc : ∃ writer queue, Collected s t writer queue) : Ordered c t := by
  obtain ⟨writer, queue, hc⟩ := hc
  rw [hc.eq]
  exact h.collect writer queue hc.current_eq hc.after_ok

/-- The writer takes the first command. -/
theorem collected_recv (hs : step c s .recv = some t) :
    ∃ writer queue, Collected s t writer queue := by
  simp only [step] at hs
  split at hs
  · next batch command queue hw hq =>
    split at hs
    · next item hitem =>
      have hcommand : command = .append item := by
        cases command with
        | append item' => exact congrArg Command.append (Option.some.inj hitem)
        | prune => cases hitem
        | flush => cases hitem
      split_ifs at hs
      · cases hs
        refine ⟨.collecting (batch ++ [item]), queue, rfl, ?_, (fun _ hnone => nomatch hnone), ?_,
          trivial⟩
        · rw [hw, hq, hcommand]
          simp [Writer.current]
        · rw [hw]
          trivial
      · cases hs
        refine ⟨.ready (batch ++ [item]) none, queue, rfl, ?_, (fun _ hnone => nomatch hnone), ?_,
          trivial⟩
        · rw [hw, hq, hcommand]
          simp [Writer.current]
        · rw [hw]
          trivial
    · next hitem =>
      cases hs
      refine ⟨.ready batch (some command), queue, rfl, ?_, fun d hd => ?_, ?_, trivial⟩
      · rw [hw, hq]
        simp [Writer.current]
      · obtain rfl : command = d := Option.some.inj hd
        exact hitem
      · rw [hw]
        trivial
  · cases hs

/-- The writer has taken all commands. -/
theorem collected_tryRecvEmpty (hs : step c s .tryRecvEmpty = some t) :
    ∃ writer queue, Collected s t writer queue := by
  simp only [step] at hs
  split at hs
  · next item batch hw hq =>
    cases hs
    refine ⟨.ready (item :: batch) none, s.queue, rfl, ?_, (fun _ hnone => nomatch hnone), ?_,
      trivial⟩
    · rw [hw]
      simp [Writer.current]
    · rw [hw]
      trivial
  · cases hs

/-- A batch without entries needs no transaction. -/
theorem startBatch_cases (h : Ordered c s) {now : DateTime}
    (hs : step c s (.startBatch now) = some t) :
    (∃ writer queue, Collected s t writer queue) ∨
      ∃ item batch after, s.writer = .ready (item :: batch) after ∧
        t = { s with
          writer := .writing (item :: batch) after s.lost now
          inFlight := s.lost + (unacked (item :: batch)).length
          lost := 0
          flightIds := s.lostIds
          lostIds := [] } := by
  simp only [step] at hs
  split at hs
  · next after hw =>
    cases hs
    have hafter := h.after_ok
    rw [hw] at hafter
    refine .inl ⟨.afterBatch after, s.queue, rfl, ?_, ?_, ?_, ?_⟩
    · rw [hw, current_afterBatch]
      rfl
    · rw [after?_afterBatch]
      exact hafter
    · rw [hw]
      trivial
    · exact idle_afterBatch after
  · next item batch after hw =>
    cases hs
    exact .inr ⟨item, batch, after, hw, rfl⟩
  · cases hs

/-- The entries of a batch in hand are behind those the writer is done with, and in front of the
rest. -/
theorem Ordered.batch_new (h : Ordered c s) {batch : List Item} {rest : List Command}
    (hsplit : s.writer.current ++ s.queue = batch.map .append ++ rest) :
    (∀ k ∈ ids batch, k ∉ ids (items s.past)) ∧ ∀ k ∈ ids batch, k ∉ ids (items rest) := by
  have hnodup : (ids (items s.queued)).Nodup :=
    (ids_items_sublist s.queued).nodup h.calls_ok.nodup_queued
  rw [h.queued_eq, hsplit, items_append, items_append, items_map_append, ids_append, ids_append,
    List.nodup_append, List.nodup_append] at hnodup
  obtain ⟨-, ⟨-, -, hrest⟩, hpast⟩ := hnodup
  refine ⟨fun k hk hmem => ?_, fun k hk hmem => ?_⟩
  · exact hpast k hmem k (List.mem_append_left _ hk) rfl
  · exact hrest k hk k hmem rfl

/-- The command behind a batch has no entry. -/
theorem after_items {after : Option Command}
    (h : ∀ command, after = some command → command.item? = none) : items after.toList = [] := by
  cases after with
  | none => rfl
  | some command =>
    rw [Option.toList_some, items_cons, h command rfl]
    rfl

/-- The acknowledgements of a stored batch are those of its callers that asked for the commit. -/
theorem map_fst_storedAcks {batch : List Item} {seqs : List ℤ} (h : batch.length ≤ seqs.length) :
    (storedAcks batch seqs).map Prod.fst = ids (acked batch) := by
  induction batch generalizing seqs with
  | nil => rfl
  | cons item batch ih =>
    cases seqs with
    | nil => simp at h
    | cons n seqs =>
      have ih := @ih seqs (by simpa using h)
      unfold storedAcks at ih ⊢
      cases hacked : item.acked <;> simp [acked, ids, hacked] at ih ⊢ <;> exact ih

/-- An acknowledgement carries the number of the row of the caller's own entry. -/
theorem exists_of_mem_storedAcks {batch : List Item} {rows : List Row} {k : ℕ} {n : ℤ}
    (h : (k, .ok n) ∈ storedAcks batch (rows.map (·.seq))) :
    ∃ row, (k, row) ∈ logged batch rows ∧ row.seq = n := by
  rw [storedAcks, List.mem_filterMap] at h
  obtain ⟨⟨item, m⟩, hmem, hack⟩ := h
  rw [List.zip_map_right, List.mem_map] at hmem
  obtain ⟨⟨item', row⟩, hmem, heq⟩ := hmem
  obtain ⟨rfl, rfl⟩ := Prod.mk.inj heq
  dsimp only at hack
  split_ifs at hack
  obtain ⟨rfl, hok⟩ := Prod.mk.inj (Option.some.inj hack)
  refine ⟨row, ?_, Except.ok.inj hok⟩
  rw [logged, ids, List.zip_map_left]
  exact List.mem_map.2 ⟨_, hmem, rfl⟩

/-- A batch that is stored is answered without errors. -/
theorem ok_of_mem_storedAcks {batch : List Item} {seqs : List ℤ} {k : ℕ} {e : AuditError} :
    (k, .error e) ∉ storedAcks batch seqs := by
  intro h
  rw [storedAcks, List.mem_filterMap] at h
  obtain ⟨p, -, hack⟩ := h
  split_ifs at hack
  cases (Prod.mk.inj (Option.some.inj hack)).2

/-- A batch that is not stored is answered to all who wait. -/
theorem map_fst_failedAcks (batch : List Item) (e : AuditError) :
    (failedAcks batch e).map Prod.fst = ids (acked batch) := by
  rw [failedAcks, List.map_map]
  rfl

/-- Each of them gets the error. -/
theorem error_of_mem_failedAcks {batch : List Item} {e : AuditError} {k : ℕ}
    {a : Except AuditError ℤ} (h : (k, a) ∈ failedAcks batch e) :
    a = .error e ∧ k ∈ ids batch := by
  rw [failedAcks, List.mem_map] at h
  obtain ⟨item, hitem, heq⟩ := h
  obtain ⟨rfl, rfl⟩ := Prod.mk.inj heq
  exact ⟨rfl, mem_ids.2 ⟨item, (mem_acked.1 hitem).1, rfl⟩⟩

/-- The command behind the batch being written holds no entry. -/
theorem Ordered.after_writing (h : Ordered c s) {batch : List Item} {after : Option Command}
    {lostBefore : ℕ} {now : DateTime} (hw : s.writer = .writing batch after lostBefore now) :
    ∀ command, after = some command → command.item? = none := by
  have hafter := h.after_ok
  rw [hw] at hafter
  exact hafter

/-- **A stored batch keeps the invariant.** -/
theorem Ordered.stored (h : Ordered c s) {batch : List Item} {after : Option Command}
    {lostBefore : ℕ} {now : DateTime} (hw : s.writer = .writing batch after lostBefore now)
    {seqs : List ℤ} {trail : Trail}
    (ha : s.trail.append c true (batch.map (·.entry) ++ lostReport now lostBefore) =
      .ok (seqs, trail)) : Ordered c (s.stored batch after seqs trail) := by
  obtain ⟨trail', ha', hstep, hopen, -, hwritten⟩ :=
    Trail.append_eq_ok h.chained h.opened (batch.map (·.entry) ++ lostReport now lostBefore)
  rw [ha] at ha'
  obtain ⟨rfl, rfl⟩ := Prod.mk.inj (Except.ok.inj ha')
  set rows := records c s.trail.head.1 s.trail.head.2
    (batch.map (·.entry) ++ lostReport now lostBefore) with hrows
  have hsince : rowsSince s.trail trail = rows := by
    rw [rowsSince, hwritten, List.drop_left]
  have hafter := h.after_writing hw
  have hsplit : s.writer.current ++ s.queue = batch.map .append ++ (after.toList ++ s.queue) := by
    rw [hw, Writer.current, List.append_assoc]
  obtain ⟨hnew, hrest⟩ := h.batch_new hsplit
  have hlen : batch.length ≤ (rows.map (·.seq)).length := by
    rw [List.length_map, hrows, length_records, List.length_append, List.length_map]
    omega
  have hanswers := h.answers_ok
  rw [hsplit] at hanswers
  refine ⟨Trail.chained_step h.chained hstep, hopen, ?_, ?_, h.calls_ok, ?_, ?_, fun k hk => ?_⟩
  · show s.queued = (s.past ++ batch.map .append) ++ ((Writer.afterBatch after).current ++ s.queue)
    rw [h.queued_eq, hsplit, current_afterBatch, List.append_assoc]
  · show ∀ command, (Writer.afterBatch after).after? = some command → _
    rw [after?_afterBatch]
    exact hafter
  · show LogOk c trail.written _ (s.log ++ logged batch (rowsSince s.trail trail)) _
    rw [hsince, hwritten]
    exact h.log_ok.stored hnew
  · show AnswersOk _ ((Writer.afterBatch after).current ++ s.queue)
      (s.log ++ logged batch (rowsSince s.trail trail)) _ _ _ _ _
    rw [hsince, current_afterBatch]
    refine hanswers.settle hrest (map_fst_storedAcks hlen) (fun k n hk => ?_)
      (fun k e hk => absurd hk ok_of_mem_storedAcks) (List.subset_append_left ..)
      (List.Subset.refl _)
    obtain ⟨row, hrow, hseq⟩ := exists_of_mem_storedAcks hk
    exact ⟨row, List.mem_append_right _ hrow, hseq⟩
  · exact List.mem_append_left _ (h.flushed_ok k hk)

/-- **A batch that is not stored keeps the invariant.** -/
theorem Ordered.notStored (h : Ordered c s) {batch : List Item} {after : Option Command}
    {lostBefore : ℕ} {now : DateTime} (hw : s.writer = .writing batch after lostBefore now)
    (e : StoreError) : Ordered c (s.notStored batch after lostBefore e) := by
  have hafter := h.after_writing hw
  have hsplit : s.writer.current ++ s.queue = batch.map .append ++ (after.toList ++ s.queue) := by
    rw [hw, Writer.current, List.append_assoc]
  obtain ⟨hnew, hrest⟩ := h.batch_new hsplit
  have hanswers := h.answers_ok
  rw [hsplit] at hanswers
  refine ⟨h.chained, h.opened, ?_, ?_, h.calls_ok, h.log_ok.notStored hnew, ?_, fun k hk => ?_⟩
  · show s.queued = (s.past ++ batch.map .append) ++ ((Writer.afterBatch after).current ++ s.queue)
    rw [h.queued_eq, hsplit, current_afterBatch, List.append_assoc]
  · show ∀ command, (Writer.afterBatch after).after? = some command → _
    rw [after?_afterBatch]
    exact hafter
  · show AnswersOk _ ((Writer.afterBatch after).current ++ s.queue) _ (s.failed ++ ids batch)
      _ _ _ _
    rw [current_afterBatch]
    refine hanswers.settle hrest (map_fst_failedAcks ..) (fun k n hk => ?_) (fun k e hk => ?_)
      (List.Subset.refl _) (List.subset_append_left ..)
    · cases (error_of_mem_failedAcks hk).1
    · exact List.mem_append_right _ (error_of_mem_failedAcks hk).2
  · exact List.mem_append_left _ (h.flushed_ok k hk)

/-- **A panic keeps the invariant**: the batch has failed, and the command behind it is dropped. -/
theorem Ordered.unwound (h : Ordered c s) {batch : List Item} {after : Option Command}
    {lostBefore : ℕ} {now : DateTime} (hw : s.writer = .writing batch after lostBefore now) :
    Ordered c (s.unwound batch after) := by
  have hafter := h.after_writing hw
  have hsplit : s.writer.current ++ s.queue = batch.map .append ++ (after.toList ++ s.queue) := by
    rw [hw, Writer.current, List.append_assoc]
  obtain ⟨hnew, hrest⟩ := h.batch_new hsplit
  have hanswers := h.answers_ok
  rw [hsplit] at hanswers
  refine ⟨h.chained, h.opened, ?_, (fun _ hnone => nomatch hnone), h.calls_ok,
    (h.log_ok.notStored hnew).extend (List.prefix_refl _) _ (after_items hafter), ?_,
    fun k hk => ?_⟩
  · show s.queued = (s.past ++ batch.map .append ++ after.toList) ++ ([] ++ s.queue)
    rw [h.queued_eq, hsplit, List.nil_append]
    simp only [List.append_assoc]
  · show AnswersOk (s.past ++ batch.map .append ++ after.toList) ([] ++ s.queue) _
      (s.failed ++ ids batch) _ _ _ _
    refine AnswersOk.skip (after_items hafter) ?_
    refine hanswers.settle hrest (map_fst_failedAcks ..) (fun k n hk => ?_) (fun k e hk => ?_)
      (List.Subset.refl _) (List.subset_append_left ..)
    · cases (error_of_mem_failedAcks hk).1
    · exact List.mem_append_right _ (error_of_mem_failedAcks hk).2
  · show Command.flush k ∈ s.past ++ batch.map .append ++ after.toList
    rcases List.mem_append.1 hk with hk | hk
    · exact List.mem_append_left _ (List.mem_append_left _ (h.flushed_ok k hk))
    · obtain ⟨command, hmem, hid⟩ := List.mem_filterMap.1 hk
      cases command with
      | flush id =>
        obtain rfl : id = k := Option.some.inj hid
        exact List.mem_append_right _ hmem
      | append => cases hid
      | prune => cases hid

/-- The command behind a batch is done with. It holds no entry. -/
theorem Ordered.done (h : Ordered c s) {command : Command} (writer : Writer)
    (hw : s.writer = .finishing command) (hwriter : writer.current = [])
    (hafter : writer.after? = none) :
    Ordered c { s with writer := writer, past := s.past ++ [command] } := by
  have hitem : items [command] = [] := by
    rw [items_cons, h.after_ok command (by rw [hw]; rfl)]
    rfl
  have hsplit : s.writer.current ++ s.queue = [command] ++ s.queue := by rw [hw]; rfl
  have hanswers := h.answers_ok
  rw [hsplit] at hanswers
  refine ⟨h.chained, h.opened, ?_, ?_, h.calls_ok, h.log_ok.extend (List.prefix_refl _) _ hitem, ?_,
    fun k hk => List.mem_append_left _ (h.flushed_ok k hk)⟩
  · show s.queued = (s.past ++ [command]) ++ (writer.current ++ s.queue)
    rw [h.queued_eq, hsplit, hwriter, List.nil_append, List.append_assoc]
  · show ∀ d, writer.after? = some d → _
    rw [hafter]
    exact fun d hd => nomatch hd
  · show AnswersOk (s.past ++ [command]) (writer.current ++ s.queue) _ _ _ _ _ _
    rw [hwriter, List.nil_append]
    exact hanswers.skip hitem

/-- The trail may move on behind the rows it has. -/
theorem Ordered.advance (h : Ordered c s) {trail : Trail} (ht : Trail.Chained c trail)
    (hopen : trail.store.isSome) (hw : s.trail.written <+: trail.written) :
    Ordered c { s with trail := trail } := by
  have hlog := h.log_ok.extend hw [] rfl
  rw [List.append_nil] at hlog
  exact { h with chained := ht, opened := hopen, log_ok := hlog }

/-- A retention run is a step of the trail. -/
theorem step_of_pruneBefore {commits : Bool} {cutoff now stamp : DateTime} {s t : Trail} {n : ℕ}
    (hp : s.pruneBefore c commits cutoff now stamp = .ok (n, t)) :
    Trail.step c s (.pruneBefore commits cutoff now stamp) = some t ∧ t.store.isSome ∧
      s.written <+: t.written ∧
      t.entries = s.entries ++ Trail.pruneEntries c cutoff now stamp n s.db := by
  cases hstore : s.store with
  | none => simp only [Trail.pruneBefore, hstore] at hp; cases hp
  | some store =>
    simp only [Trail.pruneBefore, hstore] at hp
    cases hres : AuditGateway.pruneBefore c commits cutoff now stamp s.db store with
    | error e => simp only [hres] at hp; cases hp
    | ok res =>
      obtain ⟨m, db, store'⟩ := res
      simp only [hres] at hp
      cases hp
      refine ⟨?_, rfl, List.prefix_append .., rfl⟩
      simp only [Trail.step, hstore, Option.map_some, hres]

/-- Opening the store is a step of the trail. -/
theorem step_of_openStore {commits : Bool} {now : DateTime} {s : Trail} {db : Database}
    {store : AuditStore} (ho : openStore c commits now s.db = .ok (db, store)) :
    Trail.step c s (.openStore commits now) =
      some ⟨db, some store, s.entries ++ Trail.openEntries now s.db,
        s.written ++ Trail.newRows s.db db⟩ := by
  simp only [Trail.step, ho]

/-! ## Every step keeps the invariant -/

/-- The order behind an entry that is handed in. -/
theorem ordered_record (h : Ordered c s) {entry : AuditEntry} {waits : Bool}
    (hs : step c s (.record entry waits) = some t) : Ordered c t := by
  have hhold : ∀ acked, Ordered c (s.handIn.hold (.append ⟨s.calls, entry, acked⟩)) :=
    fun acked => { h.newCall (.append ⟨s.calls, entry, acked⟩) rfl with }
  rcases step_record hs with rfl | ⟨acked, rfl⟩
  · -- queueing at once is waiting and being let in
    exact { (hhold false).enqueue (List.perm_append_singleton ..) with }
  · exact hhold acked

/-- The order behind a caller that gets room. -/
theorem ordered_send (h : Ordered c s) {id : ℕ} (hs : step c s (.send id) = some t) :
    Ordered c t := by
  obtain ⟨command, hfind, rfl⟩ := step_send hs
  exact h.enqueue (Machine.perm_of_find? hfind)

/-- The order behind a caller that has waited for too long. -/
theorem ordered_timeout (h : Ordered c s) {id : ℕ} (hs : step c s (.timeout id) = some t) :
    Ordered c t := by
  obtain ⟨entry, -, rfl⟩ := step_timeout hs
  exact { h.release _ with }

/-- The order behind a caller that is dropped. -/
theorem ordered_cancel (h : Ordered c s) {id : ℕ} (hs : step c s (.cancel id) = some t) :
    Ordered c t := by
  have hcancel := h.answers_ok.cancel id
  rcases step_cancel hs with ⟨command, -, rfl⟩ | ⟨-, rfl⟩ | ⟨answer, -, rfl⟩
  · exact { h.release _ with answers_ok := hcancel }
  · exact { h with
      answers_ok := hcancel.forget (List.mem_append_right _ (List.mem_singleton_self _)) }
  · exact { h with
      answers_ok := hcancel.lose (List.mem_append_right _ (List.mem_singleton_self _)) }

/-- The order behind a caller that returns. -/
theorem ordered_finish (h : Ordered c s) {id : ℕ} (hs : step c s (.finish id) = some t) :
    Ordered c t := by
  obtain ⟨answer, hfind, rfl⟩ := step_finish hs
  have hread := h.answers_ok.read hfind
  unfold Pipeline.read
  split
  · exact { h with answers_ok := hread }
  · exact { h with answers_ok := hread }
  · exact { h with answers_ok := hread }

/-- The order behind a command that is taken. -/
theorem ordered_recv (h : Ordered c s) (hs : step c s .recv = some t) : Ordered c t :=
  h.collected (collected_recv hs)

/-- The order behind a queue that is empty. -/
theorem ordered_tryRecvEmpty (h : Ordered c s) (hs : step c s .tryRecvEmpty = some t) :
    Ordered c t :=
  h.collected (collected_tryRecvEmpty hs)

/-- The order behind the start of a batch. -/
theorem ordered_startBatch (h : Ordered c s) {now : DateTime}
    (hs : step c s (.startBatch now) = some t) : Ordered c t := by
  rcases startBatch_cases h hs with hcollected | ⟨item, batch, after, hw, rfl⟩
  · exact h.collected hcollected
  · have hafter := h.after_ok
    rw [hw] at hafter
    exact { h.collect (.writing (item :: batch) after s.lost now) s.queue
      (by rw [hw]; rfl) hafter with }

/-- The order behind a transaction: its rows go to the end of the log. -/
theorem ordered_write (h : Ordered c s) {commits : Bool} (hs : step c s (.write commits) = some t) :
    Ordered c t := by
  obtain ⟨batch, after, lostBefore, now, hw, hcase⟩ := step_write hs
  rcases hcase with ⟨seqs, trail, ha, rfl⟩ | ⟨e, -, rfl⟩
  · cases commits with
    | true => exact h.stored hw ha
    | false =>
      rw [Trail.append_false h.chained] at ha
      cases ha
  · exact h.notStored hw _

/-- The order behind retention or a flush. -/
theorem ordered_finishCommand (h : Ordered c s) {commits : Bool} {now stamp : DateTime}
    (hs : step c s (.finishCommand commits now stamp) = some t) : Ordered c t := by
  rcases step_finishCommand hs with ⟨id, cutoff, hw, hcase⟩ | ⟨id, hw, rfl⟩
  · rcases hcase with ⟨n, trail, hp, rfl⟩ | ⟨e, rfl⟩
    · obtain ⟨hstep, hopen, hwritten, -⟩ := step_of_pruneBefore hp
      exact { (h.done (.collecting []) hw rfl rfl).advance
        (Trail.chained_step h.chained hstep) hopen hwritten with }
    · exact { h.done (.collecting []) hw rfl rfl with }
  · refine { h.done (.collecting []) hw rfl rfl with flushed_ok := fun k hk => ?_ }
    rcases List.mem_append.1 hk with hk | hk
    · exact List.mem_append_left _ (h.flushed_ok k hk)
    · rw [List.mem_singleton.1 hk]
      exact List.mem_append_right _ (List.mem_singleton_self _)

/-- The order behind a panic. -/
theorem ordered_panic (h : Ordered c s) (hs : step c s .panic = some t) : Ordered c t := by
  rcases step_panic hs with ⟨batch, after, lostBefore, now, hw, rfl⟩ | ⟨id, cutoff, hw, rfl⟩
  · exact h.unwound hw
  · exact h.done .crashed hw rfl rfl

/-- The order behind a restart. -/
theorem ordered_restart (h : Ordered c s) {commits : Bool} {now : DateTime}
    (hs : step c s (.restart commits now) = some t) : Ordered c t := by
  obtain ⟨hw, db, store, ho, rfl⟩ := step_restart hs
  have hcollect := h.collect (.collecting []) s.queue (by rw [hw]; rfl)
    fun _ hnone => nomatch hnone
  exact { hcollect.advance (Trail.chained_step h.chained (step_of_openStore ho)) rfl
    (List.prefix_append ..) with }

/-- **Step lemma**: whatever a caller or the writer does keeps the invariant. -/
theorem ordered_step (h : Ordered c s) {op : Op} (hs : step c s op = some t) : Ordered c t := by
  cases op with
  | setMode mode =>
    cases hs
    exact { h with }
  | record entry waits => exact ordered_record h hs
  | recordCommitted entry =>
    cases hs
    exact { h.newCall (.append ⟨s.calls, entry, true⟩) rfl with }
  | pruneBefore cutoff =>
    cases hs
    exact h.newCall _ rfl
  | flush =>
    cases hs
    exact h.newCall _ rfl
  | send id => exact ordered_send h hs
  | timeout id => exact ordered_timeout h hs
  | cancel id => exact ordered_cancel h hs
  | finish id => exact ordered_finish h hs
  | recv => exact ordered_recv h hs
  | tryRecvEmpty => exact ordered_tryRecvEmpty h hs
  | startBatch now => exact ordered_startBatch h hs
  | write commits => exact ordered_write h hs
  | finishCommand commits now stamp => exact ordered_finishCommand h hs
  | panic => exact ordered_panic h hs
  | restart commits now => exact ordered_restart h hs

/-- **Run lemma**: the invariant holds after every run on a trail that the store has opened. -/
theorem ordered_of_run {trail : Trail} (htrail : Trail.Chained c trail)
    (hopen : trail.store.isSome) (mode : FailMode) (saved : ℕ) {ops : List Op}
    (hr : Machine.run (step c) (start mode trail saved) ops = some t) : Ordered c t :=
  Machine.run_invariant (fun _ _ _ h hs => ordered_step h hs)
    (ordered_start htrail hopen mode saved) hr

/-! ## Order and acknowledgement -/

/-- The calls behind the entries ever queued differ. -/
theorem Ordered.nodup_ids (h : Ordered c s) : (ids (items s.queued)).Nodup :=
  (ids_items_sublist s.queued).nodup h.calls_ok.nodup_queued

/-- What was handled is the front of what was queued. -/
theorem Ordered.past_prefix (h : Ordered c s) : s.past <+: s.queued :=
  ⟨_, h.queued_eq.symm⟩

/-- Entries were handled in the order in which they were queued. -/
theorem Ordered.ids_past_sublist (h : Ordered c s) :
    (ids (items s.past)).Sublist (ids (items s.queued)) := by
  rw [h.queued_eq, items_append, ids_append]
  exact List.sublist_append_left ..

/-- Two commands of callers that wait for room have different numbers. -/
theorem Ordered.eq_of_holding (h : Ordered c s) {command command' : Command}
    (hc : command ∈ s.holding) (hc' : command' ∈ s.holding) (hid : command.id = command'.id) :
    command = command' :=
  List.inj_on_of_nodup_map h.calls_ok.nodup (List.mem_append_left _ hc)
    (List.mem_append_left _ hc') hid

/-- What is held is not queued. -/
theorem Ordered.id_ne_of_holding (h : Ordered c s) {d e : Command} (hd : d ∈ s.holding)
    (he : e ∈ s.queued) : d.id ≠ e.id := by
  have hnodup := h.calls_ok.nodup
  rw [List.map_append, List.nodup_append] at hnodup
  exact hnodup.2.2 _ (List.mem_map_of_mem hd) _ (List.mem_map_of_mem he)

/-- Each entry is logged at most once. -/
theorem Ordered.nodup_log (h : Ordered c s) : (s.log.map Prod.fst).Nodup :=
  (h.log_ok.ids_sublist.trans h.ids_past_sublist).nodup h.nodup_ids

/-- An entry has one row. -/
theorem Ordered.row_unique (h : Ordered c s) {k : ℕ} {row row' : Row} (hr : (k, row) ∈ s.log)
    (hr' : (k, row') ∈ s.log) : row = row' :=
  (Prod.mk.inj (List.inj_on_of_nodup_map h.nodup_log hr hr' rfl)).2

/-- An answer is `Ok` with a number exactly if the caller's own entry is stored under it. -/
theorem Ordered.answer_iff (h : Ordered c s) {k : ℕ} {a : Except AuditError ℤ}
    (ha : (k, a) ∈ s.answers ++ s.returned) (n : ℤ) :
    a = .ok n ↔ ∃ row, (k, row) ∈ s.log ∧ row.seq = n := by
  constructor
  · rintro rfl
    exact h.answers_ok.ok_sound k n ha
  · rintro ⟨row, hrow, rfl⟩
    cases a with
    | ok m =>
      obtain ⟨row', hrow', rfl⟩ := h.answers_ok.ok_sound k m ha
      rw [h.row_unique hrow hrow']
    | error e =>
      have hfailed := h.answers_ok.error_sound k e ha
      exact absurd (List.mem_map_of_mem hrow) (h.log_ok.failed_not k hfailed)

/-- A caller that is still there gets an answer once its batch is stored or has failed. -/
theorem Ordered.exists_answer (h : Ordered c s) {item : Item} (hitem : item ∈ items s.queued)
    (hacked : item.acked = true) (hcancelled : item.id ∉ s.cancelled)
    (hhandled : item.id ∈ s.log.map Prod.fst ∨ item.id ∈ s.failed) :
    ∃ a, (item.id, a) ∈ s.answers ++ s.returned := by
  have hpast : item.id ∈ ids (items s.past) :=
    hhandled.elim (fun hlog => h.log_ok.ids_sublist.subset hlog) (h.log_ok.failed_past item.id)
  obtain ⟨item', hmem, hid⟩ := mem_ids.1 hpast
  have hmem' : item' ∈ items s.queued := by
    rw [h.queued_eq, items_append]
    exact List.mem_append_left _ hmem
  obtain rfl : item' = item := List.inj_on_of_nodup_map h.nodup_ids hmem' hitem hid
  exact h.answers_ok.answered _ (mem_ids.2 ⟨item', mem_acked.2 ⟨hmem, hacked⟩, rfl⟩) hcancelled

/-- Behind an answered flush, everything queued before it is stored or has failed. -/
theorem Ordered.flush_handled (h : Ordered c s) {before behind : List Command} {k : ℕ}
    (hq : s.queued = before ++ .flush k :: behind) (hk : k ∈ s.flushed) :
    ∀ item ∈ items before, item.id ∈ s.log.map Prod.fst ∨ item.id ∈ s.failed := by
  obtain ⟨l, m, hlm⟩ := List.append_of_mem (h.flushed_ok k hk)
  have hnodup := h.calls_ok.nodup_queued
  have heq : l ++ .flush k :: (m ++ (s.writer.current ++ s.queue)) =
      before ++ .flush k :: behind := by
    rw [← hq, h.queued_eq, hlm, List.append_assoc, List.cons_append]
  -- the flush is queued once, so what is in front of it is the same
  rw [hq] at hnodup
  have hsame : l = before := by
    rw [List.map_append, List.map_cons, List.nodup_append, List.nodup_cons] at hnodup
    obtain ⟨-, ⟨hbehind, -⟩, hbefore⟩ := hnodup
    have h₁ : Command.flush k ∉ before := fun hmem =>
      hbefore _ (List.mem_map_of_mem hmem) _ (List.mem_cons_self ..) rfl
    have h₂ : Command.flush k ∉ behind := fun hmem => hbehind (List.mem_map_of_mem hmem)
    exact ((List.append_cons_inj_of_notMem h₁ h₂).1 heq.symm).1.symm
  intro item hitem
  refine h.log_ok.handled item.id (mem_ids.2 ⟨item, ?_, rfl⟩)
  rw [hlm, items_append, hsame]
  exact List.mem_append_left _ hitem

/-- **Order and acknowledgement**, for every interleaving of callers, writer and restarts.
Entries are stored in the order they were queued, each at most once, as rows of the trail in the
order of their numbers. An answer is `Ok(n)` exactly if the caller's own entry is stored under
`n`, and a caller that is not dropped gets one once its batch is stored or has failed. A flush
is answered only behind all entries queued before it. -/
theorem order_and_acknowledgement {life : List Trail.Op} {trail : Trail}
    (hlife : Machine.run (Trail.step c) Trail.init life = some trail)
    (hopen : trail.store.isSome) (mode : FailMode) (saved : ℕ) {ops : List Op}
    (hr : Machine.run (step c) (start mode trail saved) ops = some t) :
    ((t.log.map Prod.fst).Sublist (ids (items t.queued)) ∧ (t.log.map Prod.fst).Nodup ∧
      (t.log.map Prod.snd).Sublist t.trail.written ∧
      t.trail.written.Pairwise (fun r r' => r.seq < r'.seq) ∧
      ∀ p ∈ t.log, ∃ item ∈ items t.queued, item.id = p.1 ∧
        p.2 = record c p.2.seq p.2.prevHash item.entry) ∧
    (∀ k a, (k, a) ∈ t.answers ++ t.returned →
      ∀ n, a = .ok n ↔ ∃ row, (k, row) ∈ t.log ∧ row.seq = n) ∧
    (∀ item ∈ items t.queued, item.acked = true → item.id ∉ t.cancelled →
      (item.id ∈ t.log.map Prod.fst ∨ item.id ∈ t.failed) →
      ∃ a, (item.id, a) ∈ t.answers ++ t.returned) ∧
    ∀ before k behind, t.queued = before ++ .flush k :: behind → k ∈ t.flushed →
      ∀ item ∈ items before, item.id ∈ t.log.map Prod.fst ∨ item.id ∈ t.failed := by
  have h := ordered_of_run (Trail.chained_of_run hlife) hopen mode saved hr
  refine ⟨⟨h.log_ok.ids_sublist.trans h.ids_past_sublist, h.nodup_log, h.log_ok.rows_sublist,
    h.chained.linked.pairwise_lt, fun p hp => ?_⟩, fun k a ha n => h.answer_iff ha n,
    fun item hitem hacked hc hh => h.exists_answer hitem hacked hc hh,
    fun before k behind hq hk => h.flush_handled hq hk⟩
  obtain ⟨item, hitem, hid, hrec⟩ := h.log_ok.record_eq p hp
  refine ⟨item, ?_, hid, hrec⟩
  rw [h.queued_eq, items_append]
  exact List.mem_append_left _ hitem

/-- Two callers whose entries are queued in the other order than they were handed in, and a third
one whose commit fails, with a flush behind it. -/
def busyRun : List Op :=
  [.recordCommitted stoppedEntry, .recordCommitted stoppedEntry, .send 1, .send 0, .recv, .recv,
    .tryRecvEmpty, .startBatch ⟨0⟩, .write true, .recordCommitted stoppedEntry, .send 2, .flush,
    .send 3, .recv, .recv, .startBatch ⟨0⟩, .write false, .finishCommand true ⟨0⟩ ⟨0⟩, .finish 0,
    .finish 1, .finish 2]

/-- The first two callers get the numbers of their rows, and the third one an error; the flush is
answered behind it. -/
theorem order_and_acknowledgement_busyRun : ∃ t,
    Machine.run (step plainCrates) (start .failOpen Trail.opened 0) busyRun = some t ∧
      (∃ row, (0, row) ∈ t.log ∧ row.seq = 2) ∧ (∃ row, (1, row) ∈ t.log ∧ row.seq = 1) ∧
      (∀ row, (2, row) ∉ t.log) ∧ 3 ∈ t.flushed ∧ 2 ∈ t.failed := by
  obtain ⟨t, ht⟩ := Option.isSome_iff_exists.1
    (show (Machine.run (step plainCrates) (start .failOpen Trail.opened 0) busyRun).isSome =
      true from rfl)
  have hreturned : (Machine.run (step plainCrates) (start .failOpen Trail.opened 0)
      busyRun).map Pipeline.returned =
        some [(0, .ok 2), (1, .ok 1), (2, .error (.store .sqlite))] := rfl
  have hqueued : (Machine.run (step plainCrates) (start .failOpen Trail.opened 0)
      busyRun).map (fun t => (t.queued, t.flushed)) =
        some ([.append ⟨1, stoppedEntry, true⟩, .append ⟨0, stoppedEntry, true⟩,
          .append ⟨2, stoppedEntry, true⟩] ++ .flush 3 :: [], [3]) := rfl
  rw [ht, Option.map_some, Option.some.injEq] at hreturned hqueued
  obtain ⟨hqueued, hflushed⟩ := Prod.mk.inj hqueued
  obtain ⟨-, hanswers, -, hflush⟩ :=
    order_and_acknowledgement (Trail.run_opened plainCrates) rfl .failOpen 0 ht
  have hunstored : ∀ row, (2, row) ∉ t.log := by
    intro row hrow
    have hok := (hanswers 2 (.error (.store .sqlite)) (by simp [hreturned]) row.seq).2
      ⟨row, hrow, rfl⟩
    cases hok
  refine ⟨t, ht, (hanswers 0 (.ok 2) (by simp [hreturned]) 2).1 rfl,
    (hanswers 1 (.ok 1) (by simp [hreturned]) 1).1 rfl, hunstored, by simp [hflushed], ?_⟩
  obtain hstored | hfailed := hflush _ 3 [] hqueued (by simp [hflushed]) ⟨2, stoppedEntry, true⟩
    (by simp [items, Command.item?])
  · obtain ⟨⟨id, row⟩, hp, rfl⟩ := List.mem_map.1 hstored
    exact absurd hp (hunstored row)
  · exact hfailed

end Pipeline

end AuditGateway
