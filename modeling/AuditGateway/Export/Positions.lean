import AuditGateway.Audit.Text
import AuditGateway.Export.Exporter

set_option relaxedAutoImplicit false
set_option autoImplicit false

/-!
# The exporter skips nothing

Whatever happens, a saved position stands for what was delivered: each record up to it was part of a
batch its destination accepted, or was no longer in the trail when the exporter read past it. The
same holds of the position each task works with, so it does not matter which task saves last.

## Main definitions

* `ExportRun.Exported`, `ExportRun.Missed` — what became of a record for a destination.
* `ExportRun.Saved` — the positions of a destination in memory and in the file.
* `ExportRun.Covered` — everything up to a number was exported or missed.
* `ExportRun.Inv` — the invariant of every run.

## Main results

* `ExportRun.nothing_skipped` — what a saved position stands for.
-/

namespace AuditGateway

namespace ExportRun

/-! ## What became of a record -/

/-- A record was part of a batch the destination accepted. -/
def Exported (c : Crates) (s : ExportRun) (sink : QuestDbSink) (row : Row) : Prop :=
  ∃ d ∈ s.deliveries, d.sink = sink ∧ ∃ record ∈ d.records, row.stored c = .ok record

/-- A record was no longer in the trail when the exporter of the destination read past it. -/
def Missed (s : ExportRun) (sink : QuestDbSink) (row : Row) : Prop :=
  ∃ b ∈ s.reads, b.sink = sink ∧ b.after < row.seq ∧ (∃ record ∈ b.records, row.seq < record.seq) ∧
    row ∉ b.rows

/-- A position of a destination is saved, in memory or in the file. -/
def Saved (s : ExportRun) (sink : QuestDbSink) (position : Position) : Prop :=
  (∃ positions, s.state = some positions ∧ positions sink.key = some position) ∨
    s.file.positions sink.key = some position

/-- Every record up to number `n` was exported to the destination, or missed. -/
structure Covered (c : Crates) (s : ExportRun) (sink : QuestDbSink) (n : ℤ) : Prop where
  le_head : n ≤ s.trail.head.1
  records : ∀ row ∈ s.trail.written, row.seq ≤ n → Exported c s sink row ∨ Missed s sink row

/-- A batch continues behind a number, and what it leaves out up to its last record was missed. -/
structure Continues (c : Crates) (s : ExportRun) (sink : QuestDbSink) (n : ℤ)
    (records : List StoredRecord) : Prop where
  le_head : ∀ record ∈ records, record.seq ≤ s.trail.head.1
  le_last : ∀ last, records.getLast? = some last → ∀ record ∈ records, record.seq ≤ last.seq
  records : ∀ row ∈ s.trail.written, n < row.seq → (∃ record ∈ records, row.seq ≤ record.seq) →
    (∃ record ∈ records, row.stored c = .ok record) ∨ Missed s sink row

/-- A batch was accepted. -/
def Accepted (s : ExportRun) (sink : QuestDbSink) (records : List StoredRecord) : Prop :=
  ∃ d ∈ s.deliveries, d.sink = sink ∧ d.records = records

/-- What a task has done so far in its attempt. -/
def StageOk (c : Crates) (s : ExportRun) (sink : QuestDbSink) : Stage → Prop
  | .spawned | .restarting => True
  | .waiting p | .reading p _ => Covered c s sink p.seq
  | .reporting p _ records _ | .sending p records =>
    Covered c s sink p.seq ∧ Continues c s sink p.seq records
  | .saving p records =>
    Covered c s sink p.seq ∧ Continues c s sink p.seq records ∧ Accepted s sink records

/-- Positions that stand for what was delivered, none of them that of a kind. -/
structure PositionsOk (c : Crates) (s : ExportRun) (positions : Positions) : Prop where
  kind : ∀ sink : QuestDbSink, positions sink.name = none
  covered : ∀ (sink : QuestDbSink) (p : Position), positions sink.key = some p →
    Covered c s sink p.seq

/-- The invariant of every run. -/
structure Inv (c : Crates) (s : ExportRun) : Prop where
  chained : Trail.Chained c s.trail
  memory : ∀ positions, s.state = some positions → PositionsOk c s positions
  file : PositionsOk c s s.file.positions
  tasks : ∀ task ∈ s.tasks, StageOk c s task.sink task.stage

/-! ## What stays -/

variable {c : Crates} {http : HttpCrates} {s t : ExportRun} {sink : QuestDbSink}

/-- Nothing that was written, read or accepted is forgotten, and what is new is written behind the
head. -/
structure Grows (s t : ExportRun) : Prop where
  head : s.trail.head.1 ≤ t.trail.head.1
  written : ∀ row ∈ t.trail.written, row ∈ s.trail.written ∨ s.trail.head.1 < row.seq
  deliveries : s.deliveries ⊆ t.deliveries
  reads : s.reads ⊆ t.reads

/-- Nothing has happened. -/
theorem Grows.refl (s : ExportRun) : Grows s s :=
  ⟨le_rfl, fun _ hr => .inl hr, List.Subset.refl _, List.Subset.refl _⟩

/-- The rest of the state does not matter. -/
theorem Grows.of_eq (htrail : t.trail = s.trail) (hdel : s.deliveries ⊆ t.deliveries)
    (hreads : s.reads ⊆ t.reads) : Grows s t := by
  refine ⟨?_, ?_, hdel, hreads⟩
  · rw [htrail]
  · intro row hrow
    rw [htrail] at hrow
    exact .inl hrow

/-- What was exported stays exported. -/
theorem Exported.mono (h : Grows s t) {row : Row} (he : Exported c s sink row) :
    Exported c t sink row := by
  obtain ⟨d, hd, hsink, hrecord⟩ := he
  exact ⟨d, h.deliveries hd, hsink, hrecord⟩

/-- What was missed stays missed. -/
theorem Missed.mono (h : Grows s t) {row : Row} (hm : Missed s sink row) : Missed t sink row := by
  obtain ⟨b, hb, hrest⟩ := hm
  exact ⟨b, h.reads hb, hrest⟩

/-- What is covered stays covered: what is written later has larger numbers. -/
theorem Covered.mono (h : Grows s t) {n : ℤ} (hc : Covered c s sink n) : Covered c t sink n := by
  refine ⟨hc.le_head.trans h.head, fun row hrow hle => ?_⟩
  rcases h.written row hrow with hrow | hlt
  · exact (hc.records row hrow hle).imp (Exported.mono h) (Missed.mono h)
  · have := hc.le_head
    omega

/-- Records still continue a position when others are written. -/
theorem Continues.mono (h : Grows s t) {n : ℤ} {records : List StoredRecord}
    (hc : Continues c s sink n records) : Continues c t sink n records := by
  refine ⟨fun record hr => (hc.le_head record hr).trans h.head, hc.le_last, ?_⟩
  rintro row hrow hlt ⟨record, hrecord, hle⟩
  rcases h.written row hrow with hrow | hnew
  · exact (hc.records row hrow hlt ⟨record, hrecord, hle⟩).imp_right (Missed.mono h)
  · have := hc.le_head record hrecord
    omega

/-- A stage stays right while the run grows. -/
theorem StageOk.mono (h : Grows s t) {stage : Stage} (hs : StageOk c s sink stage) :
    StageOk c t sink stage := by
  cases stage with
  | spawned => trivial
  | restarting => trivial
  | waiting p => exact Covered.mono h hs
  | reading p head => exact Covered.mono h hs
  | reporting p head records entry => exact ⟨hs.1.mono h, hs.2.mono h⟩
  | sending p records => exact ⟨hs.1.mono h, hs.2.mono h⟩
  | saving p records =>
    obtain ⟨hcov, hcont, d, hd, hrest⟩ := hs
    exact ⟨hcov.mono h, hcont.mono h, d, h.deliveries hd, hrest⟩

/-- Positions stay right while the run grows. -/
theorem PositionsOk.mono (h : Grows s t) {positions : Positions} (hp : PositionsOk c s positions) :
    PositionsOk c t positions :=
  ⟨hp.kind, fun sink p hget => (hp.covered sink p hget).mono h⟩

/-- Positions and stages may be judged by what had happened before. -/
theorem inv_of_grows (hg : Grows s t) (hchained : Trail.Chained c t.trail)
    (hmemory : ∀ positions, t.state = some positions → PositionsOk c s positions)
    (hfile : PositionsOk c s t.file.positions)
    (htasks : ∀ task ∈ t.tasks, StageOk c s task.sink task.stage) : Inv c t :=
  ⟨hchained, fun positions hs => (hmemory positions hs).mono hg, hfile.mono hg,
    fun task htask => (htasks task htask).mono hg⟩

/-- More may have happened, as long as positions and tasks are the same. -/
theorem Inv.grows (h : Inv c s) (hg : Grows s t) (hchained : Trail.Chained c t.trail)
    (hstate : t.state = s.state) (hfile : t.file = s.file) (htasks : t.tasks ⊆ s.tasks) :
    Inv c t := by
  apply inv_of_grows hg hchained
  · rw [hstate]
    exact h.memory
  · rw [hfile]
    exact h.file
  · exact fun task htask => h.tasks task (htasks htask)

/-! ## Batches -/

/-- Nothing has number 0. -/
theorem covered_zero (h : Trail.Chained c s.trail) (sink : QuestDbSink) : Covered c s sink 0 := by
  refine ⟨?_, fun row hrow hle => ?_⟩
  · rw [h.head_fst]
    omega
  · have := h.seq_pos hrow
    omega

/-- A batch continues behind the number it was read after. -/
theorem continues_of_queryAfter (h : Trail.Chained c s.trail) {n : ℤ} {limit : ℕ}
    {records : List StoredRecord} (hread : queryAfter c s.trail.db n limit = .ok records) :
    Continues c (s.noteRead sink n records) sink n records := by
  refine ⟨fun record hr => ?_, fun last hlast record hr => ?_, ?_⟩
  · obtain ⟨row, hrow, -, hstored⟩ := exists_row_of_queryAfter hread hr
    rw [Row.seq_of_stored hstored]
    exact h.seq_le row hrow
  · exact seq_le_last_of_queryAfter hread hlast hr
  · rintro row hrow hlt ⟨record, hr, hle⟩
    by_cases hheld : row ∈ s.trail.db.audit.rows
    · exact .inl (exists_record_of_queryAfter hread hheld hlt hr hle)
    · refine .inr
        ⟨⟨sink, n, records, s.trail.db.audit.rows⟩, by simp [noteRead], rfl, hlt, ?_, hheld⟩
      refine ⟨record, hr, lt_of_le_of_ne hle fun heq => hheld ?_⟩
      -- a row of the batch with this number would be the row itself
      obtain ⟨found, hfound, -, hstored⟩ := exists_row_of_queryAfter hread hr
      rw [Row.seq_of_stored hstored] at heq
      rw [h.eq_of_seq_eq hrow (h.held.subset hfound) heq]
      exact hfound

/-- The stage behind the check is right. -/
theorem stageOk_afterCheck {p : Position} {records : List StoredRecord}
    (hcov : Covered c s sink p.seq) (hcont : Continues c s sink p.seq records) :
    StageOk c s sink (Stage.afterCheck p records) := by
  unfold Stage.afterCheck
  by_cases hempty : records.isEmpty = true
  · rw [if_pos hempty]
    exact hcov
  · rw [if_neg hempty]
    exact ⟨hcov, hcont⟩

/-- The stage behind the read is right. -/
theorem stageOk_afterRead {now : DateTime} {p : Position} {head : ℤ} {records : List StoredRecord}
    (hcov : Covered c s sink p.seq) (hcont : Continues c s sink p.seq records) :
    StageOk c s sink (Stage.afterRead sink now p head records) := by
  unfold Stage.afterRead
  cases gap p records head with
  | none => exact stageOk_afterCheck hcov hcont
  | some found => exact ⟨hcov, hcont⟩

/-- The stage behind a report is right. -/
theorem stageOk_afterReport {p : Position} {head : ℤ} {records : List StoredRecord}
    (hcov : Covered c s sink p.seq) (hcont : Continues c s sink p.seq records) :
    StageOk c s sink (Stage.afterReport p head records) := by
  unfold Stage.afterReport
  by_cases hcut : head < p.seq
  · rw [if_pos hcut]
    trivial
  · rw [if_neg hcut]
    exact stageOk_afterCheck hcov hcont

/-- The position of an accepted batch stands for what was delivered. -/
theorem covered_of_accepted {n : ℤ} {records : List StoredRecord} {last : StoredRecord}
    (hcov : Covered c s sink n) (hcont : Continues c s sink n records)
    (hacc : Accepted s sink records) (hlast : records.getLast? = some last) :
    Covered c s sink last.seq := by
  have hmem := List.mem_of_getLast? hlast
  refine ⟨hcont.le_head last hmem, fun row hrow hle => ?_⟩
  by_cases hold : row.seq ≤ n
  · exact hcov.records row hrow hold
  · refine (hcont.records row hrow (by omega) ⟨last, hmem, hle⟩).imp_left ?_
    rintro ⟨record, hr, hstored⟩
    obtain ⟨d, hd, hsink, rfl⟩ := hacc
    exact ⟨d, hd, hsink, record, hr, hstored⟩

/-! ## Positions -/

/-- Setting the position of one destination leaves those of all others. -/
theorem PositionsOk.update {positions : Positions} (h : PositionsOk c s positions) {p : Position}
    (hp : Covered c s sink p.seq) :
    PositionsOk c s (Function.update positions sink.key (some p)) := by
  refine ⟨fun other => ?_, fun other q hq => ?_⟩
  · rw [Function.update_of_ne (QuestDbSink.key_ne_name sink other).symm]
    exact h.kind other
  · by_cases hkey : other.key = sink.key
    · rw [hkey, Function.update_self, Option.some.injEq] at hq
      rw [QuestDbSink.key_injective hkey, ← hq]
      exact hp
    · rw [Function.update_of_ne hkey] at hq
      exact h.covered other q hq

/-- A new task takes over nothing but the position of its own destination. -/
theorem PositionsOk.positionFor {positions : Positions} (h : PositionsOk c s positions)
    (sink : QuestDbSink) :
    ExportState.positionFor sink.name sink.key positions =
      ((positions sink.key).getD default, positions) :=
  ExportState.positionFor_eq (h.kind sink)

/-- Right positions are found as they are. -/
theorem PositionsOk.foldl_positionFor {positions : Positions} (h : PositionsOk c s positions)
    (sinks : List QuestDbSink) :
    sinks.foldl (fun positions sink =>
      (ExportState.positionFor sink.name sink.key positions).2) positions = positions := by
  induction sinks with
  | nil => rfl
  | cons sink sinks ih => rw [List.foldl_cons, h.positionFor, ih]

/-- The position a task starts from is covered. -/
theorem PositionsOk.getD {positions : Positions} (h : PositionsOk c s positions)
    (hchained : Trail.Chained c s.trail)
    (sink : QuestDbSink) : Covered c s sink ((positions sink.key).getD default).seq := by
  cases hget : positions sink.key with
  | none => exact covered_zero hchained sink
  | some p => exact h.covered sink p hget

/-! ## The invariant is kept -/

/-- The invariant holds at the start. -/
theorem inv_init (c : Crates) : Inv c init := by
  refine ⟨Trail.chained_init c, ?_, ⟨fun _ => rfl, ?_⟩, ?_⟩
  · intro positions hs
    cases hs
  · intro sink p hp
    cases hp
  · intro task htask
    cases htask

/-- A task has come to a stage. -/
theorem Inv.put (h : Inv c s) {i : ℕ} {task : ExportTask} {stage : Stage}
    (hstage : StageOk c s task.sink stage) : Inv c (s.put i task stage) := by
  have hg : Grows s (s.put i task stage) :=
    Grows.of_eq rfl (List.Subset.refl _) (List.Subset.refl _)
  apply inv_of_grows hg h.chained h.memory h.file
  intro other hother
  rcases List.mem_or_eq_of_mem_set hother with hother | rfl
  · exact h.tasks other hother
  · exact hstage

/-- A read adds to what was read. -/
theorem grows_noteRead (s : ExportRun) (sink : QuestDbSink) (n : ℤ) (records : List StoredRecord) :
    Grows s (s.noteRead sink n records) :=
  Grows.of_eq rfl (List.Subset.refl _) (List.subset_append_left ..)

/-- A delivery adds to what was delivered. -/
theorem grows_noteDelivery (s : ExportRun) (sink : QuestDbSink) (n : ℤ)
    (records : List StoredRecord) : Grows s (s.noteDelivery sink n records) :=
  Grows.of_eq rfl (List.subset_append_left ..) (List.Subset.refl _)

/-- A position that is saved takes nothing away. -/
theorem grows_setPosition (s : ExportRun) (written : Bool) (sink : QuestDbSink) (p : Position)
    (positions : Positions) : Grows s (s.setPosition written sink p positions) :=
  Grows.of_eq rfl (List.Subset.refl _) (List.Subset.refl _)

/-- What an operation of the trail adds is behind the head. -/
theorem Inv.grows_trail (h : Inv c s) {op : Trail.Op} {trail : Trail}
    (hs : s.trail.step c op = some trail) : Grows s { s with trail := trail } :=
  ⟨(h.chained.frame hs).1, h.chained.written_frame hs, List.Subset.refl _, List.Subset.refl _⟩

/-- An operation of the trail keeps the invariant. -/
theorem Inv.trail (h : Inv c s) {op : Trail.Op} {trail : Trail}
    (hs : s.trail.step c op = some trail) : Inv c { s with trail := trail } :=
  h.grows (h.grows_trail hs) (Trail.chained_step h.chained hs) rfl rfl (List.Subset.refl _)

/-- So does the report of a gap, which is an operation of the trail. -/
theorem Inv.report (h : Inv c s) (commits : Bool) (before after : List AuditEntry)
    (entry : AuditEntry) :
    Grows s (s.report c commits before after entry) ∧
      Inv c (s.report c commits before after entry) := by
  unfold ExportRun.report
  cases hs : s.trail.step c (.append commits (before ++ entry :: after)) with
  | none => exact ⟨Grows.refl s, h⟩
  | some trail => exact ⟨h.grows_trail hs, h.trail hs⟩

/-- Setting a covered position keeps the invariant. -/
theorem Inv.setPosition (h : Inv c s) {positions : Positions} (hs : s.state = some positions)
    {written : Bool} {p : Position} (hp : Covered c s sink p.seq) :
    Inv c (s.setPosition written sink p positions) := by
  have hg := grows_setPosition s written sink p positions
  have hnew := (h.memory positions hs).update hp
  refine ⟨h.chained, ?_, ?_, fun task htask => (h.tasks task htask).mono hg⟩
  · rintro _ ⟨⟩
    exact hnew.mono hg
  · cases written with
    | false => exact h.file.mono hg
    | true =>
      -- what was written is what is in memory
      have hfile : (s.setPosition true sink p positions).file.positions =
          Function.update positions sink.key (some p) := by
        funext name
        simp only [ExportRun.setPosition, ExportState.set, if_true, StateFile.positions,
          Option.map_map]
        cases Function.update positions sink.key (some p) name <;> rfl
      rw [hfile]
      exact hnew.mono hg

/-- **Step lemma** for the tasks: every turn keeps the invariant. -/
theorem Inv.turn (h : Inv c s) {i : ℕ} {task : ExportTask} {event : Event}
    (hstage : StageOk c s task.sink task.stage) (ht : Turn c s i task event task.stage t) :
    Inv c t := by
  generalize task.stage = stage at hstage ht
  cases ht with
  | started positions hs q hq =>
    have hp := h.memory positions hs
    rw [hp.positionFor] at hq
    subst hq
    have hsame : { s with state := some positions } = s := by rw [← hs]
    rw [hsame]
    exact h.put (hp.getD h.chained task.sink)
  | failed _ _ hreading =>
    apply h.put
    cases stage with
    | restarting => exact covered_zero h.chained task.sink
    | waiting p => exact hstage
    | reading p head => exact hstage
    | spawned | reporting | sending | saving => cases hreading
  | headRead p => exact h.put hstage
  | read now p head records hread =>
    have hg := grows_noteRead s task.sink p.seq records
    have hread' : Inv c (s.noteRead task.sink p.seq records) :=
      h.grows hg h.chained rfl rfl (List.Subset.refl _)
    apply hread'.put
    exact stageOk_afterRead (Covered.mono hg hstage) (continues_of_queryAfter h.chained hread)
  | reported commits before after p head records entry =>
    obtain ⟨hg, hreport⟩ := h.report commits before after entry
    exact hreport.put (stageOk_afterReport (hstage.1.mono hg) (hstage.2.mono hg))
  | restarted records hread =>
    have hg := grows_noteRead s task.sink 0 records
    have hread' : Inv c (s.noteRead task.sink 0 records) :=
      h.grows hg h.chained rfl rfl (List.Subset.refl _)
    apply hread'.put
    have hcov := (covered_zero h.chained task.sink).mono hg
    exact stageOk_afterCheck hcov (continues_of_queryAfter h.chained hread)
  | refused post p records => exact h.put hstage.1
  | sent post p records hsend =>
    have hg := grows_noteDelivery s task.sink p.seq records
    have hsent : Inv c (s.noteDelivery task.sink p.seq records) :=
      h.grows hg h.chained rfl rfl (List.Subset.refl _)
    apply hsent.put
    refine ⟨hstage.1.mono hg, hstage.2.mono hg, ⟨task.sink, p.seq, records⟩, ?_, rfl, rfl⟩
    exact List.mem_append_right _ (List.mem_singleton_self _)
  | saved written ok p records positions last hs hlast =>
    obtain ⟨hcov, hcont, hacc⟩ := hstage
    have hnext := covered_of_accepted hcov hcont hacc hlast
    have hg := grows_setPosition s written task.sink ⟨last.seq, last.hash⟩ positions
    have hset : Inv c (s.setPosition written task.sink ⟨last.seq, last.hash⟩ positions) :=
      h.setPosition hs hnext
    apply hset.put
    show Covered c _ task.sink _
    by_cases hok : written = true ∧ ok = true
    · rw [if_pos hok]
      exact hnext.mono hg
    · rw [if_neg hok]
      exact hcov.mono hg
  | dropped written ok p records positions last hs hlast =>
    obtain ⟨hcov, hcont, hacc⟩ := hstage
    have hnext := covered_of_accepted hcov hcont hacc hlast
    have hset : Inv c (s.setPosition written task.sink ⟨last.seq, last.hash⟩ positions) :=
      h.setPosition hs hnext
    exact hset.grows (Grows.of_eq rfl (List.Subset.refl _) (List.Subset.refl _)) hset.chained
      rfl rfl
      (List.eraseIdx_subset ..)

/-- What a task that is stopped keeps. -/
theorem stage_of_abort {task stopped : ExportTask} (h : task.abort = some stopped) :
    stopped.sink = task.sink ∧ stopped.stage = task.stage := by
  unfold ExportTask.abort at h
  split at h
  · cases h
    exact ⟨rfl, rfl⟩
  · cases h

/-- The positions read from the file are those it holds. -/
theorem openFile_eq_some {reads renames : Bool} {file file' : StateFile} {positions : Positions}
    (h : ExportState.openFile reads renames file = some (positions, file')) :
    positions = file.positions ∧ (file'.positions = file.positions) := by
  unfold ExportState.openFile at h
  split at h
  · cases h
    exact ⟨rfl, rfl⟩
  · cases h
  · cases h
    cases renames <;> exact ⟨rfl, rfl⟩
  · cases h
    exact ⟨rfl, rfl⟩

/-- Applying settings keeps the invariant.

**Proof sketch.** A task that is left is at its stage, and one that is started has none yet. The
positions are those in memory or in the file, and no position is taken over. -/
theorem Inv.apply (h : Inv c s) (config : ExportConfig) (reads renames : Bool) :
    Inv c (s.apply http config reads renames) := by
  unfold ExportRun.apply
  cases sinks http config with
  | error e => exact h
  | ok sinks =>
    dsimp only
    have hstopped : ∀ task ∈ s.tasks.filterMap ExportTask.abort,
        StageOk c s task.sink task.stage := by
      intro task htask
      obtain ⟨old, hold, hab⟩ := List.mem_filterMap.1 htask
      obtain ⟨hsink, hstage⟩ := stage_of_abort hab
      rw [hsink, hstage]
      exact h.tasks old hold
    have hsame : ∀ (file : StateFile) (state : Option Positions) (tasks : List ExportTask),
        Grows s { s with file := file, state := state, tasks := tasks } :=
      fun _ _ _ => Grows.of_eq rfl (List.Subset.refl _) (List.Subset.refl _)
    by_cases hempty : sinks.isEmpty = true
    · rw [if_pos hempty]
      exact inv_of_grows (hsame _ _ _) h.chained h.memory h.file hstopped
    · rw [if_neg hempty]
      split
      · exact inv_of_grows (hsame _ _ _) h.chained h.memory h.file hstopped
      · next positions file hopened =>
        have hpositions : PositionsOk c s positions ∧ PositionsOk c s file.positions := by
          split at hopened
          · next positions' hs =>
            cases hopened
            exact ⟨h.memory positions hs, h.file⟩
          · obtain ⟨rfl, hfile⟩ := openFile_eq_some hopened
            rw [hfile]
            exact ⟨h.file, h.file⟩
        refine inv_of_grows (hsame _ _ _) h.chained ?_ hpositions.2 ?_
        · rintro _ ⟨⟩
          rw [hpositions.1.foldl_positionFor]
          exact hpositions.1
        · intro task htask
          rcases List.mem_append.1 htask with htask | htask
          · exact hstopped task htask
          · obtain ⟨sink, -, rfl⟩ := List.mem_map.1 htask
            trivial

/-- **Step lemma**: every operation keeps the invariant. -/
theorem inv_step (h : Inv c s) {op : Op} (hs : s.step c http op = some t) : Inv c t := by
  cases op with
  | trail op =>
    obtain ⟨trail, htrail, rfl⟩ := Option.map_eq_some_iff.1 hs
    exact h.trail htrail
  | apply config reads renames =>
    cases hs
    exact h.apply config reads renames
  | run i event =>
    obtain ⟨task, htask, hrun⟩ := Option.bind_eq_some_iff.1 hs
    exact h.turn (h.tasks task (List.mem_of_getElem? htask)) (turn hrun)
  | damage unreadable =>
    cases hs
    have hempty : PositionsOk c s fun _ => none := ⟨fun _ => rfl, by simp⟩
    have hg : Grows s { s with file := if unreadable then .unreadable else .absent } :=
      Grows.of_eq rfl (List.Subset.refl _) (List.Subset.refl _)
    refine inv_of_grows hg h.chained h.memory ?_ h.tasks
    cases unreadable <;> exact hempty
  | stop =>
    unfold step at hs
    obtain ⟨trail, htrail, rfl⟩ := Option.map_eq_some_iff.1 hs
    have hg : Grows s { s with trail := trail, state := none, tasks := [] } :=
      ⟨(h.chained.frame htrail).1, h.chained.written_frame htrail, List.Subset.refl _,
        List.Subset.refl _⟩
    refine inv_of_grows hg (Trail.chained_step h.chained htrail) ?_ h.file ?_
    · rintro _ ⟨⟩
    · simp

/-- **Nothing is skipped**: in every run from the first start of the gateway, each record of the
trail up to a saved position of a destination was part of a batch that it accepted, or was no
longer in the trail when the exporter read past it. -/
theorem nothing_skipped {ops : List Op} (hr : Machine.run (step c http) init ops = some t)
    {p : Position} (hsaved : Saved t sink p) :
    ∀ row ∈ t.trail.written, row.seq ≤ p.seq → Exported c t sink row ∨ Missed t sink row := by
  have h : Inv c t :=
    Machine.run_invariant (fun _ _ _ h hs => inv_step h hs) (inv_init c) hr
  rcases hsaved with ⟨positions, hs, hget⟩ | hget
  · exact ((h.memory positions hs).covered sink p hget).records
  · exact (h.file.covered sink p hget).records

/-- The functions of other crates on addresses without blanks. -/
def plainHttp : HttpCrates where
  parseUri text := if h : ' ' ∉ text.toList then some ⟨text, h⟩ else none
  scheme uri := some (String.ofList (uri.text.toList.takeWhile (· ≠ ':')))
  clientConfig _ := .ok ()

/-- The settings of an export to a server nearby. -/
def nearbyConfig : ExportConfig := ⟨some ⟨"http://10.0.0.5:9000/", "opcua_audit", none⟩⟩

/-- Where these settings send the records. -/
def nearbySink : QuestDbSink :=
  ⟨⟨"http://10.0.0.5:9000/write?precision=n", by decide +kernel⟩, "opcua_audit"⟩

example : sinks plainHttp nearbyConfig = .ok [nearbySink] := by decide +kernel

/-- The gateway exports two records, stops, and starts again. -/
def restartedExport : List Op :=
  [.trail (.openStore true ⟨0⟩), .apply nearbyConfig true true,
    .trail (.append true [lostEntry, stoppedEntry]), .run 0 .start, .run 0 (.headSeq true),
    .run 0 (.after true nextMidnight), .run 0 (.sent fun _ _ => .ok none),
    .run 0 (.saved true true), .stop, .trail (.openStore true ⟨0⟩), .apply nearbyConfig true true]

/-- An exporter that starts again skips nothing. -/
theorem nothing_skipped_restartedExport : ∃ t p,
    Machine.run (step plainCrates plainHttp) init restartedExport = some t ∧ p.seq = 2 ∧
      Saved t nearbySink p ∧ t.trail.written.length = 2 ∧
      ∀ row ∈ t.trail.written, row.seq ≤ p.seq →
        Exported plainCrates t nearbySink row ∨ Missed t nearbySink row := by
  obtain ⟨t, ht⟩ := Option.isSome_iff_exists.1
    (show (Machine.run (step plainCrates plainHttp) init restartedExport).isSome = true by
      decide +kernel)
  have hfile : (Machine.run (step plainCrates plainHttp) init restartedExport).map
      (fun t => (t.file.positions nearbySink.key).map (·.seq)) = some (some 2) := by decide +kernel
  have hlength : (Machine.run (step plainCrates plainHttp) init restartedExport).map
      (·.trail.written.length) = some 2 := by decide +kernel
  rw [ht, Option.map_some, Option.some.injEq] at hfile hlength
  obtain ⟨p, hp, hseq⟩ := Option.map_eq_some_iff.1 hfile
  exact ⟨t, p, ht, hseq, .inr hp, hlength, nothing_skipped ht (.inr hp)⟩

end ExportRun

end AuditGateway
