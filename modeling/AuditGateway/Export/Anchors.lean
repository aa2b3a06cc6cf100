import AuditGateway.Audit.Anchors
import AuditGateway.Export.Positions

set_option relaxedAutoImplicit false
set_option autoImplicit false

/-!
# What was exported anchors the trail

A destination's position holds number and hash of the last record it received. So whoever changes or
cuts the database has to leave everything up to there as it was, and a trail that nobody has
changed still has what its positions name.

## Main definitions

* `anchorsFrom` — the positions in the state file, as anchors.
* `ExportRun.Sealed` — the invariant of every run: positions and batches name records that were
  written.

## Main results

* `ExportRun.verifyAgainst_error_eq_none_iff` — no false alarm, unless retention comes in between.
* `ExportRun.exported_unchanged` — nothing up to a position in the file can be changed unnoticed.
-/

namespace AuditGateway

/-- The last exported records, as anchors, read from the state file. `names` are the names in the
file. -/
def anchorsFrom (names : List String) : StateFile → List Anchor
  | .stored positions =>
    names.filterMap fun name =>
      match positions name with
      | some (.position p) =>
        if 0 < p.seq ∧ p.hash ≠ "" then
          some ⟨p.seq, p.hash, "the last record exported to " ++ name⟩
        else none
      | _ => none
  | _ => []

/-- An anchor is a position in the file. -/
theorem exists_position_of_mem_anchorsFrom {names : List String} {file : StateFile} {a : Anchor}
    (h : a ∈ anchorsFrom names file) :
    ∃ name p, file.positions name = some p ∧ p.seq = a.seq ∧ p.hash = a.hash ∧ p.hash ≠ "" := by
  cases file with
  | absent => cases h
  | unreadable => cases h
  | stored positions =>
    obtain ⟨name, -, hname⟩ := List.mem_filterMap.1 h
    split at hname
    · next p hp =>
      split_ifs at hname with hset
      obtain rfl := Option.some.inj hname
      exact ⟨name, p, by simp [StateFile.positions, hp, StoredPosition.toPosition], rfl, rfl,
        hset.2⟩
    · cases hname

/-- The batch that a task has in hand. -/
def Stage.batch : Stage → List StoredRecord
  | .reporting _ _ records _ | .sending _ records | .saving _ records => records
  | _ => []

namespace ExportRun

variable {c : Crates} {http : HttpCrates} {s t : ExportRun}

/-! ## Positions name records -/

/-- Number and hash are those of a record that was written. -/
def WrittenAs (s : ExportRun) (seq : ℤ) (hash : String) : Prop :=
  ∃ row ∈ s.trail.written, row.seq = seq ∧ row.hash = hash

/-- A position without a hash says nothing, any other names a record that was written. -/
def Named (s : ExportRun) (p : Position) : Prop := p.hash ≠ "" → s.WrittenAs p.seq p.hash

/-- The records of a batch were written. -/
def BatchWritten (s : ExportRun) (records : List StoredRecord) : Prop :=
  ∀ record ∈ records, s.WrittenAs record.seq record.hash

/-- The invariant of every run. -/
structure Sealed (s : ExportRun) : Prop where
  memory : ∀ positions, s.state = some positions → ∀ name p, positions name = some p → s.Named p
  file : ∀ name p, s.file.positions name = some p → s.Named p
  batches : ∀ task ∈ s.tasks, s.BatchWritten task.stage.batch

/-- Nothing is sealed before the first record. -/
theorem sealed_init : Sealed init :=
  ⟨fun _ h => (by cases h), fun _ _ h => (by cases h), fun _ h => (by cases h)⟩

/-- A position at the start names nothing. -/
theorem named_default (s : ExportRun) : s.Named default := fun h => absurd rfl h

/-- What was written stays written. -/
theorem WrittenAs.mono (hsub : s.trail.written ⊆ t.trail.written) {seq : ℤ} {hash : String}
    (h : s.WrittenAs seq hash) : t.WrittenAs seq hash := by
  obtain ⟨row, hrow, heq⟩ := h
  exact ⟨row, hsub hrow, heq⟩

/-- More may have been written. -/
theorem Sealed.mono (h : Sealed s) (hsub : s.trail.written ⊆ t.trail.written)
    (hstate : t.state = s.state) (hfile : t.file = s.file) (htasks : t.tasks = s.tasks) :
    Sealed t := by
  refine ⟨?_, ?_, ?_⟩
  · rw [hstate]
    exact fun positions hs name p hp hne => (h.memory positions hs name p hp hne).mono hsub
  · rw [hfile]
    exact fun name p hp hne => (h.file name p hp hne).mono hsub
  · rw [htasks]
    exact fun task htask record hr => (h.batches task htask record hr).mono hsub

/-- What is read of the trail was written. -/
theorem batchWritten_of_queryAfter (h : Trail.Chained c s.trail) {n : ℤ} {limit : ℕ}
    {records : List StoredRecord} (hread : queryAfter c s.trail.db n limit = .ok records) :
    s.BatchWritten records := by
  intro record hr
  obtain ⟨row, hrow, -, hstored⟩ := exists_row_of_queryAfter hread hr
  obtain ⟨entry, rfl⟩ := Row.exists_of_stored hstored
  exact ⟨row, h.held.subset hrow, rfl, rfl⟩

/-- A batch behind the check has records of it only. -/
theorem batch_afterCheck (p : Position) (records : List StoredRecord) :
    (Stage.afterCheck p records).batch ⊆ records := by
  unfold Stage.afterCheck
  split_ifs
  · exact List.nil_subset _
  · exact List.Subset.refl _

/-- A batch behind the read has records of it only. -/
theorem batch_afterRead (sink : QuestDbSink) (now : DateTime) (p : Position) (head : ℤ)
    (records : List StoredRecord) : (Stage.afterRead sink now p head records).batch ⊆ records := by
  unfold Stage.afterRead
  split
  · exact List.Subset.refl _
  · exact batch_afterCheck p records

/-- A batch behind a report has records of it only. -/
theorem batch_afterReport (p : Position) (head : ℤ) (records : List StoredRecord) :
    (Stage.afterReport p head records).batch ⊆ records := by
  unfold Stage.afterReport
  split_ifs
  · exact List.nil_subset _
  · exact batch_afterCheck p records

/-! ## The invariant is kept -/

/-- A position that is taken over is one that was there. -/
theorem positionFor_spec {P : Position → Prop} (hdefault : P default) {positions : Positions}
    (h : ∀ name p, positions name = some p → P p) (kind key : String) :
    P (ExportState.positionFor kind key positions).1 ∧
      ∀ name p, (ExportState.positionFor kind key positions).2 name = some p → P p := by
  unfold ExportState.positionFor
  cases hkey : positions key with
  | some p => exact ⟨h key p hkey, h⟩
  | none =>
    cases hkind : positions kind with
    | none => exact ⟨hdefault, h⟩
    | some p =>
      refine ⟨h kind p hkind, fun name q hq => ?_⟩
      dsimp only at hq
      by_cases hname : name = key
      · rw [hname, Function.update_self] at hq
        exact Option.some.inj hq ▸ h kind p hkind
      · rw [Function.update_of_ne hname] at hq
        by_cases hname' : name = kind
        · rw [hname', Function.update_self] at hq
          cases hq
        · rw [Function.update_of_ne hname'] at hq
          exact h name q hq

/-- Positions that are asked for keep a property that the first one has. -/
theorem foldl_positionFor_spec {P : Position → Prop} (hdefault : P default)
    (sinks : List QuestDbSink) {positions : Positions}
    (h : ∀ name p, positions name = some p → P p) :
    ∀ name p, sinks.foldl (fun positions sink =>
      (ExportState.positionFor sink.name sink.key positions).2) positions name = some p → P p := by
  induction sinks generalizing positions with
  | nil => exact h
  | cons sink sinks ih => exact ih (positionFor_spec hdefault h sink.name sink.key).2

/-- A task has come to a stage. -/
theorem Sealed.put (h : Sealed s) {i : ℕ} {task : ExportTask} {stage : Stage}
    (hstage : s.BatchWritten stage.batch) : Sealed (s.put i task stage) := by
  refine ⟨h.memory, h.file, fun other hother => ?_⟩
  rcases List.mem_or_eq_of_mem_set hother with hother | rfl
  · exact h.batches other hother
  · exact hstage

/-- The report of a gap is an operation of the trail. -/
theorem Sealed.report (h : Sealed s) (hchained : Trail.Chained c s.trail) (commits : Bool)
    (before after : List AuditEntry) (entry : AuditEntry) :
    s.trail.written ⊆ (s.report c commits before after entry).trail.written ∧
      Sealed (s.report c commits before after entry) := by
  unfold ExportRun.report
  cases hs : s.trail.step c (.append commits (before ++ entry :: after)) with
  | none => exact ⟨List.Subset.refl _, h⟩
  | some trail =>
    have hsub := hchained.written_subset hs
    exact ⟨hsub, h.mono hsub rfl rfl rfl⟩

/-- The position behind a record that was written. -/
theorem Sealed.setPosition (h : Sealed s) {positions : Positions} (hs : s.state = some positions)
    (written : Bool) (sink : QuestDbSink) {p : Position} (hp : s.Named p) :
    Sealed (s.setPosition written sink p positions) := by
  have hnew : ∀ name q, Function.update positions sink.key (some p) name = some q → s.Named q := by
    intro name q hq
    by_cases hname : name = sink.key
    · rw [hname, Function.update_self] at hq
      exact Option.some.inj hq ▸ hp
    · rw [Function.update_of_ne hname] at hq
      exact h.memory positions hs name q hq
  refine ⟨?_, ?_, h.batches⟩
  · rintro _ ⟨⟩
    exact hnew
  · cases written with
    | false => exact h.file
    | true =>
      -- what was written is what is in memory
      intro name q hq
      obtain ⟨stored, hstored, rfl⟩ := Option.map_eq_some_iff.1 hq
      obtain ⟨q, hget, rfl⟩ := Option.map_eq_some_iff.1 hstored
      exact hnew name q hget

/-- **Step lemma** for the tasks: every turn keeps the invariant. -/
theorem Sealed.turn (h : Sealed s) (hchained : Trail.Chained c s.trail) {i : ℕ}
    {task : ExportTask} {event : Event} (htask : s.BatchWritten task.stage.batch)
    (ht : Turn c s i task event task.stage t) : Sealed t := by
  generalize task.stage = stage at htask ht
  have hempty : s.BatchWritten [] := fun _ hr => by cases hr
  cases ht with
  | started positions hs q hq =>
    have hmem := (positionFor_spec (named_default s) (h.memory positions hs)
      task.sink.name task.sink.key).2
    rw [← hq] at hmem
    have hset : Sealed { s with state := some q.2 } := by
      refine ⟨?_, h.file, h.batches⟩
      rintro _ ⟨⟩
      exact hmem
    exact hset.put hempty
  | failed => exact h.put hempty
  | headRead => exact h.put hempty
  | read now p head records hread =>
    have hrecords := batchWritten_of_queryAfter hchained hread
    have hnoted : Sealed (s.noteRead task.sink p.seq records) := ⟨h.memory, h.file, h.batches⟩
    exact hnoted.put fun record hr => hrecords record (batch_afterRead _ _ _ _ _ hr)
  | reported commits before after p head records entry =>
    obtain ⟨hsub, hreport⟩ := h.report hchained commits before after entry
    exact hreport.put fun record hr => (htask record (batch_afterReport _ _ _ hr)).mono hsub
  | restarted records hread =>
    have hrecords := batchWritten_of_queryAfter hchained hread
    have hnoted : Sealed (s.noteRead task.sink 0 records) := ⟨h.memory, h.file, h.batches⟩
    exact hnoted.put fun record hr => hrecords record (batch_afterCheck _ _ hr)
  | refused => exact h.put hempty
  | sent post p records hsend =>
    have hnoted : Sealed (s.noteDelivery task.sink p.seq records) := ⟨h.memory, h.file, h.batches⟩
    exact hnoted.put htask
  | saved written ok p records positions last hs hlast =>
    have hset := h.setPosition hs written task.sink (p := ⟨last.seq, last.hash⟩)
      fun _ => htask last (List.mem_of_getLast? hlast)
    exact hset.put hempty
  | dropped written ok p records positions last hs hlast =>
    have hset := h.setPosition hs written task.sink (p := ⟨last.seq, last.hash⟩)
      fun _ => htask last (List.mem_of_getLast? hlast)
    exact ⟨hset.memory, hset.file, fun other hother =>
      hset.batches other (List.eraseIdx_subset hother)⟩

/-- Applying settings keeps the invariant. -/
theorem Sealed.apply (h : Sealed s) (config : ExportConfig) (reads renames : Bool) :
    Sealed (s.apply http config reads renames) := by
  unfold ExportRun.apply
  cases sinks http config with
  | error e => exact h
  | ok sinks =>
    dsimp only
    have hstopped : ∀ task ∈ s.tasks.filterMap ExportTask.abort,
        s.BatchWritten task.stage.batch := by
      intro task htask
      obtain ⟨old, hold, hab⟩ := List.mem_filterMap.1 htask
      rw [(stage_of_abort hab).2]
      exact h.batches old hold
    by_cases hempty : sinks.isEmpty = true
    · rw [if_pos hempty]
      exact ⟨h.memory, h.file, hstopped⟩
    · rw [if_neg hempty]
      split
      · exact ⟨h.memory, h.file, hstopped⟩
      · next positions file hopened =>
        have hpositions : (∀ name p, positions name = some p → s.Named p) ∧
            ∀ name p, file.positions name = some p → s.Named p := by
          split at hopened
          · next positions' hs =>
            cases hopened
            exact ⟨h.memory positions hs, h.file⟩
          · obtain ⟨rfl, hfile⟩ := openFile_eq_some hopened
            rw [hfile]
            exact ⟨h.file, h.file⟩
        refine ⟨?_, hpositions.2, ?_⟩
        · rintro _ ⟨⟩
          exact foldl_positionFor_spec (named_default s) sinks hpositions.1
        · intro task htask
          rcases List.mem_append.1 htask with htask | htask
          · exact hstopped task htask
          · obtain ⟨sink, -, rfl⟩ := List.mem_map.1 htask
            intro record hr
            cases hr

/-- **Step lemma**: every operation keeps the invariant. -/
theorem sealed_step (h : Sealed s) (hchained : Trail.Chained c s.trail) {op : Op}
    (hs : s.step c http op = some t) : Sealed t := by
  cases op with
  | trail op =>
    obtain ⟨trail, htrail, rfl⟩ := Option.map_eq_some_iff.1 hs
    exact h.mono (hchained.written_subset htrail) rfl rfl rfl
  | apply config reads renames =>
    cases hs
    exact h.apply config reads renames
  | run i event =>
    obtain ⟨task, htask, hrun⟩ := Option.bind_eq_some_iff.1 hs
    exact h.turn hchained (h.batches task (List.mem_of_getElem? htask)) (turn hrun)
  | damage unreadable =>
    cases hs
    refine ⟨h.memory, fun name p hp => ?_, h.batches⟩
    cases unreadable <;> cases hp
  | stop =>
    unfold step at hs
    obtain ⟨trail, htrail, rfl⟩ := Option.map_eq_some_iff.1 hs
    have hsub := hchained.written_subset htrail
    refine ⟨fun _ hp => (by cases hp), fun name p hp hne => ?_, fun _ ht => (by cases ht)⟩
    exact (h.file name p hp hne).mono hsub

/-! ## The trail under the exporters -/

/-- The trail is changed by the store only. -/
def Op.Intact : Op → Prop
  | .trail op => op.Intact
  | _ => True

/-- A turn of an exporter changes the trail by an append at most. -/
theorem trail_of_turn {i : ℕ} {task : ExportTask} {event : Event} {stage : Stage}
    (ht : Turn c s i task event stage t) :
    t.trail = s.trail ∨
      ∃ commits entries, s.trail.step c (.append commits entries) = some t.trail := by
  cases ht with
  | reported commits before after p head records entry =>
    have hput : ((s.report c commits before after entry).put i task
        (Stage.afterReport p head records)).trail =
          (s.trail.step c (.append commits (before ++ entry :: after))).getD s.trail := rfl
    rw [hput]
    cases hs : s.trail.step c (.append commits (before ++ entry :: after)) with
    | none => exact .inl rfl
    | some trail => exact .inr ⟨commits, _, hs⟩
  | _ => exact .inl rfl

/-- An operation leaves the trail alone or is one of the trail. -/
theorem trail_of_step {op : Op} (hs : s.step c http op = some t) :
    t.trail = s.trail ∨
      ∃ op', (op.Intact → op'.Intact) ∧ s.trail.step c op' = some t.trail := by
  cases op with
  | trail op =>
    obtain ⟨trail, htrail, rfl⟩ := Option.map_eq_some_iff.1 hs
    exact .inr ⟨op, id, htrail⟩
  | apply config reads renames =>
    cases hs
    refine .inl ?_
    unfold ExportRun.apply
    split
    · rfl
    · dsimp only
      split_ifs
      · rfl
      · split <;> rfl
  | run i event =>
    obtain ⟨task, -, hrun⟩ := Option.bind_eq_some_iff.1 hs
    refine (trail_of_turn (turn hrun)).imp_right ?_
    rintro ⟨commits, entries, htrail⟩
    exact ⟨.append commits entries, fun _ => trivial, htrail⟩
  | damage unreadable =>
    cases hs
    exact .inl rfl
  | stop =>
    unfold step at hs
    obtain ⟨trail, htrail, rfl⟩ := Option.map_eq_some_iff.1 hs
    exact .inr ⟨.stop, fun _ => trivial, htrail⟩

/-- What holds in every state of a run: the trail is chained, and positions name records. -/
def Anchored (c : Crates) (s : ExportRun) : Prop := Trail.Chained c s.trail ∧ Sealed s

/-- The start is anchored. -/
theorem anchored_init (c : Crates) : Anchored c init := ⟨Trail.chained_init c, sealed_init⟩

/-- Every step keeps the anchors, and what was written. -/
theorem anchored_step (h : Anchored c s) {op : Op} (hs : s.step c http op = some t) :
    Anchored c t ∧ s.trail.written ⊆ t.trail.written := by
  have hsealed := sealed_step h.2 h.1 hs
  rcases trail_of_step hs with heq | ⟨op', -, htrail⟩
  · rw [Anchored, heq]
    exact ⟨⟨h.1, hsealed⟩, List.Subset.refl _⟩
  · exact ⟨⟨Trail.chained_step h.1 htrail, hsealed⟩, h.1.written_subset htrail⟩

/-- **Run lemma**: what was written stays written. -/
theorem anchored_of_run (h : Anchored c s) {ops : List Op}
    (hr : Machine.run (step c http) s ops = some t) :
    Anchored c t ∧ s.trail.written ⊆ t.trail.written := by
  have hstep : ∀ u op v, (Anchored c u ∧ s.trail.written ⊆ u.trail.written) →
      u.step c http op = some v → Anchored c v ∧ s.trail.written ⊆ v.trail.written := by
    rintro u op v ⟨hu, hsub⟩ hs
    obtain ⟨hv, hsub'⟩ := anchored_step hu hs
    exact ⟨hv, List.Subset.trans hsub hsub'⟩
  exact Machine.run_invariant hstep ⟨h, List.Subset.refl _⟩ hr

/-- **Run lemma**: if the store alone changes it, the trail stays whole. -/
theorem whole_of_run (h : Anchored c s) (hw : Trail.Whole c s.trail) {ops : List Op}
    (hops : ∀ op ∈ ops, op.Intact) (hr : Machine.run (step c http) s ops = some t) :
    Trail.Whole c t.trail := by
  have hstep : ∀ u op v, (Anchored c u ∧ Trail.Whole c u.trail) → Op.Intact op →
      u.step c http op = some v → Anchored c v ∧ Trail.Whole c v.trail := by
    rintro u op v ⟨hu, hwu⟩ hop hs
    refine ⟨(anchored_step hu hs).1, ?_⟩
    rcases trail_of_step hs with heq | ⟨op', hintact, htrail⟩
    · rw [heq]
      exact hwu
    · exact Trail.whole_step hu.1 hwu (hintact hop) htrail
  exact (Machine.run_invariant_of_meets hstep ⟨h, hw⟩
    (Machine.meets_of_forall_mem (step c http) (fun op hop _ => hops op hop) s) hr).2

/-- The anchors in the state file are records that were written. -/
theorem Sealed.names (h : Sealed s) {names : List String} {a : Anchor}
    (ha : a ∈ anchorsFrom names s.file) : s.trail.Names a := by
  obtain ⟨name, p, hp, hseq, hhash, hne⟩ := exists_position_of_mem_anchorsFrom ha
  obtain ⟨row, hrow, hrseq, hrhash⟩ := h.file name p hp hne
  exact ⟨row, hrow, hrseq.trans hseq, hrhash.trans hhash⟩

/-- **No false alarm**: a trail that only the store has changed passes the check against the
positions that were in the state file before, exactly if no record that one of them names is
removed between the walk and its lookup. -/
theorem verifyAgainst_error_eq_none_iff {ops ops' : List Op}
    (hops : ∀ op ∈ ops ++ ops', op.Intact) (hr : Machine.run (step c http) init ops = some s)
    (hr' : Machine.run (step c http) s ops' = some t)
    (hread : ∀ e ∈ t.trail.entries, ReadsBack c e) {names : List String}
    {lookups : List (Anchor × Database)}
    (hanchors : lookups.map Prod.fst = anchorsFrom names s.file)
    (hlater : ∀ l ∈ lookups, ∃ later u, Machine.run (step c http) t later = some u ∧
      u.trail.db = l.2) :
    (verifyAgainst c t.trail.db lookups).error = none ↔
      ∀ l ∈ lookups, (∃ row ∈ t.trail.db.audit.rows, row.seq = l.1.seq) →
        ∃ row ∈ l.2.audit.rows, row.seq = l.1.seq := by
  have hs := (anchored_of_run (anchored_init c) hr).1
  obtain ⟨ht, hsub⟩ := anchored_of_run hs hr'
  have hws := whole_of_run (anchored_init c) (Trail.whole_init c)
    (fun op hop => hops op (List.mem_append_left _ hop)) hr
  have hwt := whole_of_run hs hws (fun op hop => hops op (List.mem_append_right _ hop)) hr'
  refine hwt.passes_iff ht.1 hread fun l hl => ?_
  have hmem : l.1 ∈ anchorsFrom names s.file := by
    rw [← hanchors]
    exact List.mem_map_of_mem hl
  obtain ⟨row, hrow, heq⟩ := hs.2.names hmem
  obtain ⟨later, u, hu, hdb⟩ := hlater l hl
  obtain ⟨hu, hsubu⟩ := anchored_of_run ht hu
  exact ⟨⟨row, hsub hrow, heq⟩, u.trail, hu.1, hsubu, hdb⟩

/-- Two records were exported. -/
def exportedTwo : List Op :=
  [.trail (.openStore true ⟨0⟩), .apply nearbyConfig true true,
    .trail (.append true [lostEntry, stoppedEntry]), .run 0 .start, .run 0 (.headSeq true),
    .run 0 (.after true nextMidnight), .run 0 (.sent fun _ _ => .ok none),
    .run 0 (.saved true true)]

/-- A run of an exporter that sends two records and saves its position. -/
theorem exists_run_exportedTwo : ∃ s t,
    Machine.run (step plainCrates plainHttp) init exportedTwo = some s ∧
      Machine.run (step plainCrates plainHttp) s [.stop] = some t ∧
      t.trail.entries = [lostEntry, stoppedEntry] ∧
      t.trail.db.audit.rows = records plainCrates 0 genesisHash [lostEntry, stoppedEntry] ∧
      t.trail.written = records plainCrates 0 genesisHash [lostEntry, stoppedEntry] ∧
      (anchorsFrom [nearbySink.key] s.file).map (·.seq) = [2] ∧ t.file = s.file := by
  have hend : (Machine.run (step plainCrates plainHttp) init exportedTwo).map
      (fun s => (s.trail.db.audit.rows, s.trail.written,
        (anchorsFrom [nearbySink.key] s.file).map (·.seq))) =
      some (records plainCrates 0 genesisHash [lostEntry, stoppedEntry],
        records plainCrates 0 genesisHash [lostEntry, stoppedEntry], [2]) := by decide +kernel
  have hentries : (Machine.run (step plainCrates plainHttp) init exportedTwo).map
      (·.trail.entries) = some [lostEntry, stoppedEntry] := rfl
  obtain ⟨s, hs, heq⟩ := Option.map_eq_some_iff.1 hend
  obtain ⟨hrows, hwritten, hanchors⟩ : _ ∧ _ ∧ _ := by simpa only [Prod.mk.injEq] using heq
  rw [hs, Option.map_some, Option.some.injEq] at hentries
  exact ⟨s, _, hs, rfl, hentries, hrows, hwritten, hanchors, rfl⟩

/-- The check of the trail against the saved position finds no error. -/
theorem verifyAgainst_exportedTwo : ∃ s t,
    Machine.run (step plainCrates plainHttp) init exportedTwo = some s ∧
      Machine.run (step plainCrates plainHttp) s [.stop] = some t ∧
      (anchorsFrom [nearbySink.key] s.file).map (·.seq) = [2] ∧
      (verifyAgainst plainCrates t.trail.db
        ((anchorsFrom [nearbySink.key] s.file).map fun a => (a, t.trail.db))).error = none := by
  obtain ⟨s, t, hs, ht, hentries, -, -, hanchors, -⟩ := exists_run_exportedTwo
  have hread := readsBack_plainCrates
  rw [← hentries] at hread
  refine ⟨s, t, hs, ht, hanchors, ?_⟩
  refine (verifyAgainst_error_eq_none_iff (by simp [exportedTwo, Op.Intact, Trail.Op.Intact])
    hs ht hread (by rw [List.map_map]; exact List.map_id _) fun l hl => ?_).2 fun l hl h => ?_
  · obtain ⟨a, -, rfl⟩ := List.mem_map.1 hl
    exact ⟨[], t, rfl, rfl⟩
  · obtain ⟨a, -, rfl⟩ := List.mem_map.1 hl
    exact h

/-- **Nothing up to a position in the file can be changed unnoticed**: a database, however it came
about, that passes the check against the positions reaches as far as each of them, and up to there
it has only records that were written, and all those from its first one on. -/
theorem exported_unchanged {ops : List Op} (hr : Machine.run (step c http) init ops = some t)
    (hread : ∀ e ∈ t.trail.entries, ReadsBack c e)
    (hjson : ∀ e ∈ t.trail.entries, '\n' ∉ (c.toJson e).toList) {db : Database}
    (hsha : CollisionFree c t.trail.written db.audit.rows) {names : List String}
    (hv : (verifyAgainst c db ((anchorsFrom names t.file).map fun a => (a, db))).error = none)
    {a : Anchor} (ha : a ∈ anchorsFrom names t.file) :
    (∃ last ∈ db.audit.rows.getLast?, a.seq ≤ last.seq) ∧
      (∀ row ∈ db.audit.rows, 0 < row.seq → row.seq ≤ a.seq → row ∈ t.trail.written) ∧
      ∀ row ∈ t.trail.written, row.seq ≤ a.seq →
        (∀ first ∈ db.audit.rows.head?, first.seq ≤ row.seq) → row ∈ db.audit.rows := by
  obtain ⟨h, hsealed⟩ := (anchored_of_run (anchored_init c) hr).1
  exact h.unchanged_of_verifyAgainst hread hjson hsha hv ha (hsealed.names ha)

/-- The trail is replaced by one with another record. -/
theorem exported_unchanged_exportedTwo : ∃ s t u,
    Machine.run (step plainCrates plainHttp) init exportedTwo = some s ∧
      Machine.run (step plainCrates plainHttp) s [.stop] = some t ∧
      Machine.run (step plainCrates plainHttp) s [.trail (.append true [lostEntry])] = some u ∧
      t.trail.db.audit.rows ≠ u.trail.db.audit.rows ∧
      ∃ a ∈ anchorsFrom [nearbySink.key] t.file, a.seq = 2 ∧
        ∀ row ∈ u.trail.db.audit.rows, 0 < row.seq → row.seq ≤ a.seq → row ∈ t.trail.written := by
  obtain ⟨s, t, hs, ht, hentries, hrows, hwritten, hanchors, hfile⟩ := exists_run_exportedTwo
  set other := Machine.run (step plainCrates plainHttp) init
    (exportedTwo ++ [.trail (.append true [lostEntry])]) with hother
  have hentries' : other.map (·.trail.entries) = some [lostEntry, stoppedEntry, lostEntry] := rfl
  have hend : other.map (·.trail.db.audit.rows) =
      some (records plainCrates 0 genesisHash [lostEntry, stoppedEntry, lostEntry]) := by
    decide +kernel
  obtain ⟨u, hu, hrows'⟩ := Option.map_eq_some_iff.1 hend
  rw [hu, Option.map_some, Option.some.injEq] at hentries'
  rw [hother] at hu
  have hnext : Machine.run (step plainCrates plainHttp) s [.trail (.append true [lostEntry])] =
      some u := by
    rwa [Machine.run_append, hs, Option.bind_some] at hu
  have hfile' : u.file = s.file := by
    obtain ⟨v, hv, hend⟩ := Option.bind_eq_some_iff.1 hnext
    obtain rfl : v = u := Option.some.inj hend
    obtain ⟨trail, -, rfl⟩ := Option.map_eq_some_iff.1 hv
    rfl
  have hread := readsBack_plainCrates
  have hjson : ∀ e ∈ [lostEntry, stoppedEntry], '\n' ∉ (plainCrates.toJson e).toList := by
    decide +kernel
  have hread' : ∀ e ∈ u.trail.entries, ReadsBack plainCrates e := by
    rw [hentries']
    exact fun e he => hread e (by simpa [or_comm] using he)
  rw [← hentries] at hread hjson
  have hsha : CollisionFree plainCrates t.trail.written u.trail.db.audit.rows := by
    rw [hrows', hwritten]
    refine collisionFree_of_pairwise ?_ ?_
    · simp [records_cons]
    · decide +kernel
  have hrun : Machine.run (step plainCrates plainHttp) init (exportedTwo ++ [.stop]) = some t := by
    rw [Machine.run_append, hs]
    exact ht
  obtain ⟨a, ha, hseq⟩ : ∃ a ∈ anchorsFrom [nearbySink.key] s.file, a.seq = 2 := by
    have hmem : (2 : ℤ) ∈ (anchorsFrom [nearbySink.key] s.file).map (·.seq) := by
      rw [hanchors]
      exact List.mem_singleton_self _
    obtain ⟨a, ha, hseq⟩ := List.mem_map.1 hmem
    exact ⟨a, ha, hseq⟩
  rw [← hfile] at ha
  have hv : (verifyAgainst plainCrates u.trail.db
      ((anchorsFrom [nearbySink.key] t.file).map fun a => (a, u.trail.db))).error = none := by
    have h := anchored_of_run (anchored_init plainCrates) hu
    have hw := whole_of_run (anchored_init plainCrates) (Trail.whole_init plainCrates)
      (by simp [exportedTwo, Op.Intact, Trail.Op.Intact]) hu
    refine (hw.passes_iff h.1.1 hread' fun l hl => ?_).2 fun l hl hheld => ?_
    · obtain ⟨a, ha, rfl⟩ := List.mem_map.1 hl
      rw [hfile, ← hfile'] at ha
      exact ⟨h.1.2.names ha, u.trail, h.1.1, List.Subset.refl _, rfl⟩
    · obtain ⟨a, -, rfl⟩ := List.mem_map.1 hl
      exact hheld
  refine ⟨s, t, u, hs, ht, hnext, fun heq => ?_, a, ha, hseq,
    (exported_unchanged hrun hread hjson hsha hv ha).2.1⟩
  have hlength := congrArg List.length heq
  rw [hrows, hrows', length_records, length_records] at hlength
  cases hlength

end ExportRun

end AuditGateway
