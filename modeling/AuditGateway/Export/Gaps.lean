import AuditGateway.Audit.Chain
import AuditGateway.Audit.Writer
import AuditGateway.Export.Positions

set_option relaxedAutoImplicit false
set_option autoImplicit false

/-!
# The record of an export gap

Where retention has removed records before they were exported, the exporter finds that the next
batch does not continue behind its position, and records it. It does so in every attempt that finds
the gap, before it sends the batch, and whatever became of the record it goes on. So there is one
record for each such stretch if each attempt that finds a gap has it recorded and comes through:
an attempt that fails after the record is followed by one that records the gap again, and one that
comes through without it leaves the gap unrecorded.

## Main definitions

* `ExportRun.exporting` — an exporter that has just been started.
* `ExportRun.OfExporter` — what can happen while it runs.
* `ExportRun.Unbroken` — no attempt that has found a gap fails.
* `ExportRun.ReportedOnce` — every stretch behind which delivery resumed has one record.

## Main results

* `ExportRun.reportedOnce_of_unbroken` — one record for each stretch, under that condition.
* `ExportRun.reported_twice` — a destination that cannot be reached for a while.
-/

namespace AuditGateway

/-! ## Records of gaps -/

/-- Where the gap begins that an entry records. -/
def AuditEntry.gapAfter (e : AuditEntry) : Option ℤ :=
  match e.event with
  | .exportGap _ afterSeq _ _ => some afterSeq
  | _ => none

/-- An entry records that export to `destination` resumes at number `next` behind number `n`. -/
def AuditEntry.NamesGap (destination : String) (n next : ℤ) (e : AuditEntry) : Prop :=
  ∃ reason, e.event = .exportGap destination n next reason

/-- Every record of a gap behind number `n` that was ever written, oldest first. -/
def Trail.gapReports (s : Trail) (n : ℤ) : List AuditEntry :=
  s.entries.filter fun e => e.gapAfter = some n

/-- Records without a gap among them leave the reports as they are. -/
theorem Trail.gapReports_of_append {s t : Trail} {es : List AuditEntry}
    (h : t.entries = s.entries ++ es) (hes : ∀ e ∈ es, e.gapAfter = none) (n : ℤ) :
    t.gapReports n = s.gapReports n := by
  have hnone : es.filter (fun e => e.gapAfter = some n) = [] := by
    rw [List.filter_eq_nil_iff]
    intro e he
    simp [hes e he]
  rw [gapReports, h, List.filter_append, hnone, List.append_nil, gapReports]

/-- One record of a gap is added to those behind its number. -/
theorem Trail.gapReports_of_report {s t : Trail} {before after : List AuditEntry} {e : AuditEntry}
    (h : t.entries = s.entries ++ (before ++ e :: after))
    (hbefore : ∀ e ∈ before, e.gapAfter = none)
    (hafter : ∀ e ∈ after, e.gapAfter = none) {n : ℤ} (he : e.gapAfter = some n) (m : ℤ) :
    t.gapReports m = s.gapReports m ++ if m = n then [e] else [] := by
  have hnone : ∀ es : List AuditEntry, (∀ e ∈ es, e.gapAfter = none) →
      es.filter (fun e => e.gapAfter = some m) = [] := by
    intro es hes
    rw [List.filter_eq_nil_iff]
    intro e he
    simp [hes e he]
  rw [gapReports, h, List.filter_append, List.filter_append, List.filter_cons, hnone before hbefore,
    hnone after hafter, he, List.nil_append, gapReports]
  by_cases hm : m = n
  · simp [hm]
  · simp [hm, Ne.symm hm]

/-- What others do to the trail leaves the reports as they are and forgets nothing. -/
theorem Trail.quiet_of_append {c : Crates} {s t : Trail} {commits : Bool}
    {entries : List AuditEntry} (hes : ∀ e ∈ entries, e.gapAfter = none)
    (hs : s.step c (.append commits entries) = some t) :
    (∀ n, t.gapReports n = s.gapReports n) ∧ s.written ⊆ t.written ∧ t.store.isSome := by
  obtain ⟨store, hstore, hs⟩ := Option.map_eq_some_iff.1 hs
  split at hs
  · subst hs
    exact ⟨fun _ => rfl, List.Subset.refl _, by simp [hstore]⟩
  · subst hs
    exact ⟨gapReports_of_append rfl hes, List.subset_append_left .., rfl⟩

/-- Retention reports no gap. -/
theorem Trail.quiet_of_pruneBefore {c : Crates} {s t : Trail} {commits : Bool}
    {cutoff now stamp : DateTime} (hs : s.step c (.pruneBefore commits cutoff now stamp) = some t) :
    (∀ n, t.gapReports n = s.gapReports n) ∧ s.written ⊆ t.written ∧ t.store.isSome := by
  obtain ⟨store, hstore, hs⟩ := Option.map_eq_some_iff.1 hs
  split at hs
  · subst hs
    exact ⟨fun _ => rfl, List.Subset.refl _, by simp [hstore]⟩
  · next n db store' hp =>
    subst hs
    have hes : ∀ e ∈ pruneEntries c cutoff now stamp n s.db, e.gapAfter = none := by
      intro e he
      unfold pruneEntries at he
      split at he
      · rw [List.mem_singleton.1 he]
        rfl
      · cases he
    exact ⟨gapReports_of_append rfl hes, List.subset_append_left .., rfl⟩

namespace ExportRun

/-- Delivery resumes with `records` behind a stretch of records that follows number `n` and is not
among them, after at least one record was delivered. -/
def Resumes (n : ℤ) (records : List StoredRecord) : Prop :=
  0 < n ∧ ∃ first, records.head? = some first ∧ n + 1 < first.seq

/-- The stretch behind number `n` is recorded once: nothing but one record, which says where
delivery resumed. -/
def Told (s : ExportRun) (sink : QuestDbSink) (n : ℤ) (records : List StoredRecord) : Prop :=
  ∃ e first, s.trail.gapReports n = [e] ∧ records.head? = some first ∧
    e.NamesGap sink.name n first.seq

/-- Every stretch behind which delivery resumed is recorded once, and no stretch twice. -/
def ReportedOnce (s : ExportRun) : Prop :=
  (∀ d ∈ s.deliveries, Resumes d.after d.records → Told s d.sink d.after d.records) ∧
    ∀ n, (s.trail.gapReports n).length ≤ 1

/-! ## One exporter -/

/-- An exporter that has just been started on a new trail. -/
def exporting (sink : QuestDbSink) : ExportRun :=
  ⟨Trail.opened, .absent, some fun _ => none, [{ sink := sink }], [], []⟩

/-- What can happen while one exporter runs: others write to the trail, but no records of gaps,
retention runs, and the exporter goes on. -/
def OfExporter : Op → Prop
  | .trail (.append _ entries) => ∀ e ∈ entries, e.gapAfter = none
  | .trail (.pruneBefore ..) => True
  | .run _ (.reported _ before after) => ∀ e ∈ before ++ after, e.gapAfter = none
  | .run .. => True
  | _ => False

/-- An attempt that has found a gap does not fail: the record of the gap is committed, and the
batch behind the gap is accepted and its position saved. -/
def Unbroken (s : ExportRun) : Op → Prop
  | .run i event =>
    ∀ task, s.tasks[i]? = some task →
      match event, task.stage with
      | .reported commits _ _, .reporting .. => commits = true
      | .sent post, .sending position records =>
        Resumes position.seq records → QuestDbSink.send post records = .ok ()
      | .saved written ok, .saving position records =>
        Resumes position.seq records → written = true ∧ ok = true
      | _, _ => True
  | _ => True

/-! ## The invariant of such a run -/

variable {c : Crates} {http : HttpCrates} {s t : ExportRun} {sink : QuestDbSink}

/-- A position stands on a record that was written. -/
def Stands (s : ExportRun) (p : Position) : Prop :=
  p.seq = 0 ∨ 0 < p.seq ∧ ∃ row ∈ s.trail.written, row.seq = p.seq ∧ row.hash = p.hash

/-- The records of a batch were written, and follow the position. -/
def Follows (c : Crates) (s : ExportRun) (p : Position) (records : List StoredRecord) : Prop :=
  ∀ record ∈ records, p.seq < record.seq ∧ ∃ row ∈ s.trail.written, row.stored c = .ok record

/-- What is recorded of the stretch behind a position when its batch is sent. -/
def Announced (s : ExportRun) (sink : QuestDbSink) (p : Position) (records : List StoredRecord) :
    Prop :=
  (Resumes p.seq records → Told s sink p.seq records) ∧
    (¬ Resumes p.seq records → s.trail.gapReports p.seq = [])

/-- What holds of the exporter at a stage. -/
def Standing (c : Crates) (s : ExportRun) (sink : QuestDbSink) : Stage → Prop
  | .spawned => (s.state = some fun _ => none) ∧ s.trail.gapReports 0 = []
  | .waiting p => Stands s p ∧ s.trail.gapReports p.seq = []
  | .reading p head => Stands s p ∧ s.trail.gapReports p.seq = [] ∧ p.seq ≤ head
  | .reporting p head records entry =>
    Stands s p ∧ s.trail.gapReports p.seq = [] ∧ p.seq ≤ head ∧ Follows c s p records ∧
      Resumes p.seq records ∧
      ∃ first, records.head? = some first ∧ entry.NamesGap sink.name p.seq first.seq
  | .restarting => False
  | .sending p records => Stands s p ∧ Follows c s p records ∧ Announced s sink p records
  | .saving p records => Stands s p ∧ Follows c s p records ∧ Announced s sink p records

/-- The batch that was accepted last has resumed delivery, and its position is not saved yet. -/
def Resuming : Stage → Prop
  | .saving p records => Resumes p.seq records
  | _ => False

/-- The invariant of a run of one exporter. -/
structure GapInv (c : Crates) (sink : QuestDbSink) (s : ExportRun) (stage : Stage) : Prop where
  chained : Trail.Chained c s.trail
  whole : Trail.Whole c s.trail
  opened : s.trail.store.isSome
  tasks : s.tasks = [⟨sink, stage, false⟩]
  standing : Standing c s sink stage
  later : ∀ n, stage.position.seq < n → s.trail.gapReports n = []
  earlier : ∀ n, n < stage.position.seq → (s.trail.gapReports n).length ≤ 1
  delivered : ∀ d ∈ s.deliveries, d.sink = sink ∧ (Resumes d.after d.records →
    Told s sink d.after d.records ∧
      (d.after < stage.position.seq ∨ d.after = stage.position.seq ∧ Resuming stage))

/-- The reports are as they were, and no row ever written is forgotten. -/
structure Quiet (s t : ExportRun) : Prop where
  reports : ∀ n, t.trail.gapReports n = s.trail.gapReports n
  written : s.trail.written ⊆ t.trail.written
  state : t.state = s.state

/-- What was told depends on the reports in the trail only. -/
theorem Told.of_eq (h : ∀ n, t.trail.gapReports n = s.trail.gapReports n) {n : ℤ}
    {records : List StoredRecord} (ht : Told s sink n records) : Told t sink n records := by
  obtain ⟨e, first, he, hrest⟩ := ht
  exact ⟨e, first, (h n).trans he, hrest⟩

/-- A position stands as long as its record is among those written. -/
theorem Stands.mono (h : s.trail.written ⊆ t.trail.written) {p : Position} (hp : Stands s p) :
    Stands t p := by
  rcases hp with hp | ⟨hpos, row, hrow, hrest⟩
  · exact .inl hp
  · exact .inr ⟨hpos, row, h hrow, hrest⟩

/-- Records still follow a position when others are written. -/
theorem Follows.mono (h : s.trail.written ⊆ t.trail.written) {p : Position}
    {records : List StoredRecord} (hf : Follows c s p records) : Follows c t p records := by
  intro record hr
  obtain ⟨hlt, row, hrow, hstored⟩ := hf record hr
  exact ⟨hlt, row, h hrow, hstored⟩

/-- What was announced depends on the reports in the trail only. -/
theorem Announced.of_eq (h : ∀ n, t.trail.gapReports n = s.trail.gapReports n) {p : Position}
    {records : List StoredRecord} (ha : Announced s sink p records) :
    Announced t sink p records :=
  ⟨fun hr => (ha.1 hr).of_eq h, fun hr => (h p.seq).trans (ha.2 hr)⟩

/-- A stage stands behind a step that reports no gap. -/
theorem Standing.mono (h : Quiet s t) {stage : Stage} (hs : Standing c s sink stage) :
    Standing c t sink stage := by
  cases stage with
  | spawned => exact ⟨h.state.trans hs.1, (h.reports 0).trans hs.2⟩
  | waiting p => exact ⟨hs.1.mono h.written, (h.reports p.seq).trans hs.2⟩
  | reading p head => exact ⟨hs.1.mono h.written, (h.reports p.seq).trans hs.2.1, hs.2.2⟩
  | reporting p head records entry =>
    obtain ⟨hp, hr, hle, hf, hrest⟩ := hs
    exact ⟨hp.mono h.written, (h.reports p.seq).trans hr, hle, hf.mono h.written, hrest⟩
  | restarting => exact hs
  | sending p records =>
    exact ⟨hs.1.mono h.written, hs.2.1.mono h.written, hs.2.2.of_eq h.reports⟩
  | saving p records =>
    exact ⟨hs.1.mono h.written, hs.2.1.mono h.written, hs.2.2.of_eq h.reports⟩

/-- A new trail and a new exporter. -/
theorem gapInv_exporting (c : Crates) (sink : QuestDbSink) :
    GapInv c sink (exporting sink) .spawned where
  chained := Trail.chained_of_run (Trail.run_opened c)
  whole := (Trail.whole_of_run (by simp [Trail.Op.Intact]) (Trail.run_opened c)).2
  opened := rfl
  tasks := rfl
  standing := ⟨rfl, rfl⟩
  later _ _ := rfl
  earlier _ _ := Nat.zero_le _
  delivered _ hd := by cases hd

/-- A step that neither reports nor delivers nor moves the position. -/
theorem GapInv.to {stage stage' : Stage} (h : GapInv c sink s stage) (hq : Quiet s t)
    (hchained : Trail.Chained c t.trail) (hwhole : Trail.Whole c t.trail)
    (hopened : t.trail.store.isSome) (htasks : t.tasks = [⟨sink, stage', false⟩])
    (hstanding : Standing c t sink stage') (hdel : t.deliveries = s.deliveries)
    (hpos : stage'.position = stage.position) (hres : Resuming stage → Resuming stage') :
    GapInv c sink t stage' where
  chained := hchained
  whole := hwhole
  opened := hopened
  tasks := htasks
  standing := hstanding
  later n hn := by
    rw [hpos] at hn
    exact (hq.reports n).trans (h.later n hn)
  earlier n hn := by
    rw [hpos] at hn
    rw [hq.reports n]
    exact h.earlier n hn
  delivered d hd := by
    rw [hdel] at hd
    obtain ⟨hsink, hd⟩ := h.delivered d hd
    refine ⟨hsink, fun hr => ?_⟩
    obtain ⟨htold, hwhere⟩ := hd hr
    rw [hpos]
    exact ⟨htold.of_eq hq.reports, hwhere.imp_right (And.imp_right hres)⟩

/-- Others have written to the trail. -/
theorem GapInv.trail {stage : Stage} (h : GapInv c sink s stage) {op : Trail.Op} {trail : Trail}
    (hop : op.Intact) (hs : s.trail.step c op = some trail)
    (hq : (∀ n, trail.gapReports n = s.trail.gapReports n) ∧ s.trail.written ⊆ trail.written ∧
      trail.store.isSome) : GapInv c sink { s with trail := trail } stage := by
  have hquiet : Quiet s { s with trail := trail } := ⟨hq.1, hq.2.1, rfl⟩
  exact h.to hquiet (Trail.chained_step h.chained hs) (Trail.whole_step h.chained h.whole hop hs)
    hq.2.2 h.tasks (h.standing.mono hquiet) rfl rfl id

/-- The exporter has come to another stage, and nothing else happened that matters here. -/
theorem GapInv.put {stage stage' : Stage} (h : GapInv c sink s stage)
    (htrail : t.trail = s.trail) (hdel : t.deliveries = s.deliveries)
    (htasks : t.tasks = s.tasks) (hstanding : Standing c t sink stage')
    (hpos : stage'.position = stage.position) (hres : Resuming stage → Resuming stage') :
    GapInv c sink (t.put 0 ⟨sink, stage, false⟩ stage') stage' := by
  obtain ⟨trail, file, state, tasks, deliveries, reads⟩ := t
  obtain rfl : trail = s.trail := htrail
  obtain rfl : tasks = s.tasks := htasks
  obtain rfl : deliveries = s.deliveries := hdel
  refine ⟨h.chained, h.whole, h.opened, ?_, ?_, ?_, ?_, ?_⟩
  · show s.tasks.set 0 _ = _
    rw [h.tasks]
    rfl
  · exact hstanding.mono ⟨fun _ => rfl, List.Subset.refl _, rfl⟩
  · rw [hpos]
    exact h.later
  · rw [hpos]
    exact h.earlier
  · intro d hd
    obtain ⟨hsink, hd⟩ := h.delivered d hd
    refine ⟨hsink, fun hr => ?_⟩
    obtain ⟨htold, hwhere⟩ := hd hr
    rw [hpos]
    exact ⟨htold, hwhere.imp_right (And.imp_right hres)⟩

/-- Behind the position of the exporter there is at most one record. -/
theorem Standing.length_le {stage : Stage} (h : Standing c s sink stage) :
    (s.trail.gapReports stage.position.seq).length ≤ 1 := by
  have hann : ∀ {p : Position} {records : List StoredRecord}, Announced s sink p records →
      (s.trail.gapReports p.seq).length ≤ 1 := by
    intro p records ha
    by_cases hres : Resumes p.seq records
    · obtain ⟨e, first, he, -⟩ := ha.1 hres
      rw [he]
      rfl
    · rw [ha.2 hres]
      exact Nat.zero_le _
  have hnone : ∀ {n : ℤ}, s.trail.gapReports n = [] → (s.trail.gapReports n).length ≤ 1 := by
    intro n hn
    rw [hn]
    exact Nat.zero_le _
  cases stage with
  | spawned => exact hnone h.2
  | waiting p => exact hnone h.2
  | reading p head => exact hnone h.2.1
  | reporting p head records entry => exact hnone h.2.1
  | restarting => exact h.elim
  | sending p records => exact hann h.2.2
  | saving p records => exact hann h.2.2

/-! ## What the exporter finds -/

/-- A batch follows the position it is read behind. -/
theorem follows_of_queryAfter (h : Trail.Chained c s.trail) {p : Position} {limit : ℕ}
    {records : List StoredRecord} (hread : queryAfter c s.trail.db p.seq limit = .ok records) :
    Follows c s p records := by
  intro record hr
  obtain ⟨row, hrow, hlt, hstored⟩ := exists_row_of_queryAfter hread hr
  refine ⟨?_, row, h.held.subset hrow, hstored⟩
  rw [Row.seq_of_stored hstored]
  exact hlt

/-- The trail reaches as far as the position. -/
theorem Stands.le_newest (h : Trail.Chained c s.trail) (hw : Trail.Whole c s.trail) {p : Position}
    (hp : Stands s p) : p.seq ≤ headSeq s.trail.db := by
  rcases hp with hp | ⟨-, row, hrow, hseq, -⟩
  · rw [hp]
    exact headSeq_nonneg fun r hr => (h.seq_pos (h.held.subset hr)).le
  · have := hw.head_le_headSeq h
    have := h.seq_le_head hrow
    omega

/-- The record behind a position names its hash. -/
theorem Stands.prevHash_eq (h : Trail.Chained c s.trail) {p : Position} (hp : Stands s p)
    (hpos : 0 < p.seq) {row : Row} (hrow : row ∈ s.trail.written) (hseq : row.seq = p.seq + 1) :
    row.prevHash = p.hash := by
  rcases hp with hp | ⟨-, a, ha, haseq, hahash⟩
  · omega
  · obtain ⟨b, hb, hbseq, hbprev⟩ := h.linked.exists_succ ha hrow (by omega)
    rw [h.eq_of_seq_eq hrow hb (by omega), hbprev, hahash]

/-- **What the check for a gap finds**: exactly the stretch behind which delivery resumes. -/
theorem gap_cases (h : Trail.Chained c s.trail) {p : Position} {records : List StoredRecord}
    {head : ℤ} (hp : Stands s p) (hf : Follows c s p records) (hle : p.seq ≤ head) :
    gap p records head = none ∧ ¬ Resumes p.seq records ∨
      ∃ first reason, gap p records head = some (first.seq, reason) ∧
        records.head? = some first ∧ Resumes p.seq records := by
  unfold gap
  rw [if_neg (not_lt.2 hle)]
  cases hfirst : records.head? with
  | none =>
    refine .inl ⟨rfl, ?_⟩
    rintro ⟨-, first, hf', -⟩
    simp [hfirst] at hf'
  | some first =>
    dsimp only
    obtain ⟨hlt, row, hrow, hstored⟩ := hf first (List.mem_of_mem_head? hfirst)
    by_cases hzero : p.seq = 0
    · rw [if_pos hzero]
      exact .inl ⟨rfl, fun hr => by have := hr.1; omega⟩
    have hpos : 0 < p.seq := by
      rcases hp with hp | hp
      · exact absurd hp hzero
      · exact hp.1
    rw [if_neg hzero]
    by_cases hnext : first.seq = p.seq + 1
    · rw [if_neg (not_not.2 hnext)]
      have hhash : first.prevHash = p.hash := by
        obtain ⟨entry, hfirstEq⟩ := Row.exists_of_stored hstored
        rw [hfirstEq] at hnext ⊢
        exact hp.prevHash_eq h hpos hrow hnext
      rw [if_neg fun hcon => hcon.2 hhash]
      refine .inl ⟨rfl, ?_⟩
      rintro ⟨-, first', hf', hgap⟩
      rw [hfirst, Option.some.injEq] at hf'
      subst hf'
      omega
    · rw [if_pos hnext]
      exact .inr ⟨first, _, rfl, rfl, hpos, first, hfirst, by omega⟩

/-- A batch behind a stretch is not empty. -/
theorem Resumes.isEmpty_eq {n : ℤ} {records : List StoredRecord} (h : Resumes n records) :
    records.isEmpty = false := by
  obtain ⟨-, first, hfirst, -⟩ := h
  cases records with
  | nil => cases hfirst
  | cons record records => rfl

/-- An attempt that has read its batch reports a gap exactly if delivery resumes behind one. -/
theorem standing_afterRead (h : Trail.Chained c s.trail) {now : DateTime} {p : Position}
    {head : ℤ} {records : List StoredRecord} (hp : Stands s p) (hf : Follows c s p records)
    (hle : p.seq ≤ head) (hr : s.trail.gapReports p.seq = []) :
    Standing c s sink (Stage.afterRead sink now p head records) ∧
      (Stage.afterRead sink now p head records).position = p := by
  unfold Stage.afterRead
  rcases gap_cases h hp hf hle with ⟨hgap, hno⟩ | ⟨first, reason, hgap, hfirst, hres⟩
  · rw [hgap]
    dsimp only [Stage.afterCheck]
    by_cases hempty : records.isEmpty = true
    · rw [if_pos hempty]
      exact ⟨⟨hp, hr⟩, rfl⟩
    · rw [if_neg hempty]
      exact ⟨⟨hp, hf, fun hres => absurd hres hno, fun _ => hr⟩, rfl⟩
  · rw [hgap]
    exact ⟨⟨hp, hr, hle, hf, hres, first, hfirst, reason, rfl⟩, rfl⟩

/-! ## Every turn keeps the invariant -/

section Turns

variable {p : Position} {records : List StoredRecord}

/-- The record of a gap is committed, and the batch is sent. -/
theorem GapInv.reported {head : ℤ} {entry : AuditEntry}
    (h : GapInv c sink s (.reporting p head records entry)) {before after : List AuditEntry}
    (hothers : ∀ e ∈ before ++ after, e.gapAfter = none) :
    GapInv c sink ((s.report c true before after entry).put 0
      ⟨sink, .reporting p head records entry, false⟩ (Stage.afterReport p head records))
      (.sending p records) := by
  obtain ⟨hp, hnone, hle, hf, hres, first, hfirst, hnames⟩ := h.standing
  obtain ⟨trail, -, hstep, hopen, hentries, hwritten⟩ :=
    Trail.append_eq_ok h.chained h.opened (before ++ entry :: after)
  have hreport : s.report c true before after entry = { s with trail := trail } := by
    rw [report, hstep, Option.getD_some]
  have hstage : Stage.afterReport p head records = .sending p records := by
    rw [Stage.afterReport, if_neg (not_lt.2 hle), Stage.afterCheck, hres.isEmpty_eq]
    rfl
  rw [hreport, hstage]
  have hgap : entry.gapAfter = some p.seq := by
    obtain ⟨reason, hevent⟩ := hnames
    rw [AuditEntry.gapAfter, hevent]
  have hreports := Trail.gapReports_of_report hentries
    (fun e he => hothers e (List.mem_append_left _ he))
    (fun e he => hothers e (List.mem_append_right _ he)) hgap
  have hsub : s.trail.written ⊆ trail.written := by
    rw [hwritten]
    exact List.subset_append_left ..
  have hold : ∀ n, n ≠ p.seq → trail.gapReports n = s.trail.gapReports n := by
    intro n hn
    rw [hreports n, if_neg hn, List.append_nil]
  have htold : trail.gapReports p.seq = [entry] := by
    rw [hreports p.seq, hnone, if_pos rfl, List.nil_append]
  have hintact : Trail.Op.Intact (.append true (before ++ entry :: after)) := trivial
  refine ⟨Trail.chained_step h.chained hstep,
    Trail.whole_step h.chained h.whole hintact hstep, hopen, ?_,
    ⟨hp.mono hsub, hf.mono hsub, fun _ => ⟨entry, first, htold, hfirst, hnames⟩,
      fun hno => absurd hres hno⟩, fun n hn => ?_, fun n hn => ?_, fun d hd => ?_⟩
  · show s.tasks.set 0 _ = _
    rw [h.tasks]
    rfl
  · exact (hold n (ne_of_gt hn)).trans (h.later n hn)
  · show (trail.gapReports n).length ≤ 1
    rw [hold n (ne_of_lt hn)]
    exact h.earlier n hn
  · obtain ⟨hsink, hd⟩ := h.delivered d hd
    refine ⟨hsink, fun hr => ?_⟩
    obtain ⟨⟨e, first', he, hrest⟩, hwhere⟩ := hd hr
    rcases hwhere with hlt | ⟨-, hcon⟩
    · exact ⟨⟨e, first', (hold d.after (ne_of_lt hlt)).trans he, hrest⟩, .inl hlt⟩
    · exact hcon.elim

/-- The batch is accepted. -/
theorem GapInv.sent (h : GapInv c sink s (.sending p records)) :
    GapInv c sink ((s.noteDelivery sink p.seq records).put 0 ⟨sink, .sending p records, false⟩
      (.saving p records)) (.saving p records) := by
  refine ⟨h.chained, h.whole, h.opened, ?_, h.standing, h.later, h.earlier, fun d hd => ?_⟩
  · show s.tasks.set 0 _ = _
    rw [h.tasks]
    rfl
  · rcases List.mem_append.1 hd with hd | hd
    · obtain ⟨hsink, hd⟩ := h.delivered d hd
      refine ⟨hsink, fun hr => ?_⟩
      obtain ⟨htold, hwhere⟩ := hd hr
      exact ⟨htold, hwhere.imp_right fun hcon => hcon.2.elim⟩
    · obtain rfl := List.mem_singleton.1 hd
      exact ⟨rfl, fun hr => ⟨h.standing.2.2.1 hr, .inr ⟨rfl, hr⟩⟩⟩

/-- The position of the batch is saved. -/
theorem GapInv.saved (h : GapInv c sink s (.saving p records)) {last : StoredRecord}
    (hlast : records.getLast? = some last) (htrail : t.trail = s.trail)
    (hdel : t.deliveries = s.deliveries) (htasks : t.tasks = s.tasks) :
    GapInv c sink (t.put 0 ⟨sink, .saving p records, false⟩ (.waiting ⟨last.seq, last.hash⟩))
      (.waiting ⟨last.seq, last.hash⟩) := by
  obtain ⟨hp, hf, hann⟩ := h.standing
  obtain ⟨hlt, row, hrow, hstored⟩ := hf last (List.mem_of_getLast? hlast)
  have hpos : 0 < last.seq := by
    rw [Row.seq_of_stored hstored]
    exact h.chained.seq_pos hrow
  have hstands : Stands s ⟨last.seq, last.hash⟩ := by
    refine .inr ⟨hpos, row, hrow, ?_⟩
    obtain ⟨entry, rfl⟩ := Row.exists_of_stored hstored
    exact ⟨rfl, rfl⟩
  have hsame : ∀ n, (t.put 0 ⟨sink, .saving p records, false⟩
      (.waiting ⟨last.seq, last.hash⟩)).trail.gapReports n = s.trail.gapReports n := by
    intro n
    show t.trail.gapReports n = _
    rw [htrail]
  refine ⟨htrail ▸ h.chained, htrail ▸ h.whole, htrail ▸ h.opened, ?_, ⟨?_, ?_⟩, fun n hn => ?_,
    fun n hn => ?_, fun d hd => ?_⟩
  · show t.tasks.set 0 _ = _
    rw [htasks, h.tasks]
    rfl
  · apply hstands.mono
    show _ ⊆ t.trail.written
    rw [htrail]
    exact List.Subset.refl _
  · exact (hsame last.seq).trans (h.later last.seq hlt)
  · exact (hsame n).trans (h.later n (hlt.trans hn))
  · rw [hsame n]
    rcases lt_trichotomy n p.seq with hn' | rfl | hn'
    · exact h.earlier n hn'
    · exact h.standing.length_le
    · rw [h.later n hn']
      exact Nat.zero_le _
  · have hd' : d ∈ s.deliveries := by
      rw [← hdel]
      exact hd
    obtain ⟨hsink, hd'⟩ := h.delivered d hd'
    refine ⟨hsink, fun hr => ?_⟩
    obtain ⟨htold, hwhere⟩ := hd' hr
    refine ⟨htold.of_eq hsame, .inl ?_⟩
    show d.after < last.seq
    rcases hwhere with hd | hd
    · exact lt_trans hd hlt
    · rw [hd.1]
      exact hlt

/-- **Step lemma** for the exporter: every turn in which no attempt that has found a gap fails keeps
the invariant. -/
theorem GapInv.turn {stage : Stage} (h : GapInv c sink s stage) {event : Event}
    (hop : OfExporter (.run 0 event)) (hsafe : Unbroken s (.run 0 event))
    (ht : Turn c s 0 ⟨sink, stage, false⟩ event stage t) : ∃ stage', GapInv c sink t stage' := by
  have hsafe := hsafe ⟨sink, stage, false⟩ (by rw [h.tasks]; rfl)
  cases ht with
  | started positions hs q hq =>
    obtain ⟨hstate, hnone⟩ := h.standing
    rw [hstate, Option.some.injEq] at hs
    subst hs
    rw [ExportState.positionFor_eq rfl] at hq
    subst hq
    exact ⟨_, h.put rfl rfl rfl ⟨.inl rfl, hnone⟩ rfl False.elim⟩
  | failed _ _ hreading =>
    cases stage with
    | waiting p => exact ⟨_, h.put rfl rfl rfl h.standing rfl id⟩
    | reading p head =>
      exact ⟨_, h.put rfl rfl rfl ⟨h.standing.1, h.standing.2.1⟩ rfl id⟩
    | restarting => exact h.standing.elim
    | spawned | reporting | sending | saving => cases hreading
  | headRead p =>
    have hle := h.standing.1.le_newest h.chained h.whole
    exact ⟨_, h.put rfl rfl rfl ⟨h.standing.1, h.standing.2, hle⟩ rfl id⟩
  | read now p head records hread =>
    obtain ⟨hp, hnone, hle⟩ := h.standing
    have hf := follows_of_queryAfter h.chained hread
    obtain ⟨hstanding, hpos⟩ : Standing c (s.noteRead sink p.seq records) sink
        (Stage.afterRead sink now p head records) ∧ _ :=
      standing_afterRead h.chained hp hf hle hnone
    exact ⟨_, h.put rfl rfl rfl hstanding hpos False.elim⟩
  | reported commits before after p head records entry =>
    obtain rfl : commits = true := hsafe
    exact ⟨_, h.reported hop⟩
  | restarted => exact h.standing.elim
  | refused post p records e hsend =>
    have hno : ¬ Resumes p.seq records := by
      intro hres
      rw [hsafe hres] at hsend
      cases hsend
    exact ⟨_, h.put rfl rfl rfl ⟨h.standing.1, h.standing.2.2.2 hno⟩ rfl False.elim⟩
  | sent post p records hsend => exact ⟨_, h.sent⟩
  | saved written ok p records positions last hs hlast =>
    by_cases hok : written = true ∧ ok = true
    · rw [if_pos hok]
      exact ⟨_, h.saved hlast rfl rfl rfl⟩
    · have hno : ¬ Resumes p.seq records := fun hres => hok (hsafe hres)
      rw [if_neg hok]
      exact ⟨_, h.put rfl rfl rfl ⟨h.standing.1, h.standing.2.2.2 hno⟩ rfl fun hres => hno hres⟩
  | dropped written ok p records positions last hs hlast hab => cases hab

end Turns

/-- **Step lemma**: every step of a run of one exporter in which no attempt that has found a gap
fails keeps the invariant. -/
theorem gapInv_step (h : ∃ stage, GapInv c sink s stage) {op : Op}
    (hsafe : OfExporter op ∧ Unbroken s op) (hs : s.step c http op = some t) :
    ∃ stage, GapInv c sink t stage := by
  obtain ⟨stage, h⟩ := h
  cases op with
  | trail op =>
    obtain ⟨trail, htrail, rfl⟩ := Option.map_eq_some_iff.1 hs
    cases op with
    | append commits entries =>
      exact ⟨stage, h.trail (by trivial) htrail (Trail.quiet_of_append hsafe.1 htrail)⟩
    | pruneBefore commits cutoff now stamp =>
      exact ⟨stage, h.trail (by trivial) htrail (Trail.quiet_of_pruneBefore htrail)⟩
    | openStore | stop | lose => exact hsafe.1.elim
  | run i event =>
    obtain ⟨task, htask, hrun⟩ := Option.bind_eq_some_iff.1 hs
    rw [h.tasks] at htask
    obtain ⟨hi, rfl⟩ : i = 0 ∧ task = ⟨sink, stage, false⟩ := by
      cases i with
      | zero => exact ⟨rfl, by simpa using htask.symm⟩
      | succ i => simp at htask
    subst hi
    exact h.turn hsafe.1 hsafe.2 (turn hrun)
  | apply | damage | stop => exact hsafe.1.elim

/-- **The record of a gap**: in every run of one exporter in which each attempt that finds a gap has
it recorded and comes through, each stretch behind which delivery resumed has exactly one record,
and no stretch has two. -/
theorem reportedOnce_of_unbroken {ops : List Op} (hops : ∀ op ∈ ops, OfExporter op)
    (hsafe : Machine.Meets (step c http) Unbroken (exporting sink) ops)
    (hr : Machine.run (step c http) (exporting sink) ops = some t) : ReportedOnce t := by
  obtain ⟨stage, h⟩ := Machine.run_invariant_of_meets
    (fun _ _ _ h hsafe hs => gapInv_step h hsafe hs) ⟨.spawned, gapInv_exporting c sink⟩
    (Machine.meets_and_of_forall_mem (step c http) hops hsafe) hr
  refine ⟨fun d hd hres => ?_, fun n => ?_⟩
  · obtain ⟨hsink, hd⟩ := h.delivered d hd
    rw [hsink]
    exact (hd hres).1
  · rcases lt_trichotomy n stage.position.seq with hn | hn | hn
    · exact h.earlier n hn
    · rw [hn]
      exact h.standing.length_le
    · rw [h.later n hn]
      exact Nat.zero_le _

/-! ## A destination that cannot be reached for a while -/

/-- The JSON text of an entry of the gateway itself, or of the record of a gap. -/
def gapText (e : AuditEntry) : String :=
  match e.event with
  | .exportGap destination afterSeq nextSeq reason =>
    "\x7b\"ts\":\"" ++ rfc3339Auto e.ts ++ "\",\"event\":\x7b\"type\":\"export_gap\"," ++
      "\"destination\":\"" ++ destination ++ "\",\"after_seq\":" ++ toString afterSeq ++
      ",\"next_seq\":" ++ toString nextSeq ++ ",\"reason\":\"" ++ reason ++ "\"\x7d\x7d"
  | _ => entryText e

/-- The hash of record 2 of a trail that begins with two records of lost records. -/
def secondHash : String :=
  recordHash plainCrates (recordHash plainCrates genesisHash 1 (entryText lostEntry)) 2
    (entryText lostEntry)

/-- The entries of the run below. -/
def gapEntries : List AuditEntry :=
  [lostEntry, stoppedEntry,
    AuditEntry.new nextMidnight (.exportGap "questdb" 1 3
      "records 2 to 2 were removed before they were exported"),
    prunedEntry nextMidnight 2 2 secondHash]

/-- The functions of the other crates with these entries read back. -/
def gapCrates : Crates where
  sha256 := Sha256.digest
  toJson := gapText
  fromJson text :=
    match gapEntries.find? fun e => gapText e = text with
    | some e => .ok e
    | none => .error "unknown record"
  rfc3339 := rfc3339Micros

/-- Record 1 is delivered, and retention removes records 1 and 2. -/
def prunedExport : List Op :=
  [.trail (.append true [lostEntry]), .run 0 .start, .run 0 (.headSeq true),
    .run 0 (.after true nextMidnight), .run 0 (.sent fun _ _ => .ok none),
    .run 0 (.saved true true), .trail (.append true [lostEntry, stoppedEntry]),
    .trail (.pruneBefore true stoppedEntry.ts nextMidnight nextMidnight)]

/-- An attempt that finds the gap, up to the answer of the destination. -/
def attempt (answer : PostResult) : List Op :=
  [.run 0 (.headSeq true), .run 0 (.after true nextMidnight), .run 0 (.reported true [] []),
    .run 0 (.sent fun _ _ => answer)]

/-- Delivery resumes at once. -/
def resumedExport : List Op := prunedExport ++ attempt (.ok none) ++ [.run 0 (.saved true true)]

/-- The destination cannot be reached in the first attempt. -/
def retriedExport : List Op :=
  prunedExport ++ attempt (.error "cannot reach QuestDB") ++ attempt (.ok none) ++
    [.run 0 (.saved true true)]

/-- Whatever the exporter does in an operation comes off. -/
def ComesThrough : Op → Prop
  | .run _ (.reported commits _ _) => commits = true
  | .run _ (.sent post) => ∀ records, QuestDbSink.send post records = .ok ()
  | .run _ (.saved written ok) => written = true ∧ ok = true
  | _ => True

/-- A run whose attempts come through is unbroken. -/
theorem unbroken_of_comesThrough {op : Op} (h : ComesThrough op) : Unbroken s op := by
  cases op with
  | run i event =>
    intro task htask
    split
    · exact h
    · exact fun _ => h _
    · exact fun _ => h
    · trivial
  | trail | apply | damage | stop => trivial

/-- An export that is resumed behind a gap reports it once. -/
theorem reportedOnce_of_unbroken_resumedExport : ∃ t,
    Machine.run (step gapCrates plainHttp) (exporting nearbySink) resumedExport = some t ∧
      ReportedOnce t ∧ (t.trail.gapReports 1).length = 1 := by
  have hrun : (Machine.run (step gapCrates plainHttp) (exporting nearbySink) resumedExport).map
      (fun t => (t.trail.gapReports 1).length) = some 1 := by decide +kernel
  obtain ⟨t, ht, hlength⟩ := Option.map_eq_some_iff.1 hrun
  have hops : ∀ op ∈ resumedExport, OfExporter op := by
    simp [resumedExport, prunedExport, attempt, OfExporter, AuditEntry.gapAfter, lostEntry,
      stoppedEntry, AuditEntry.new]
  have hsafe : ∀ op ∈ resumedExport, ∀ s, Unbroken s op := by
    intro op hop s
    apply unbroken_of_comesThrough
    revert op
    simp [resumedExport, prunedExport, attempt, ComesThrough, QuestDbSink.send]
  exact ⟨t, ht, reportedOnce_of_unbroken hops (Machine.meets_of_forall_mem _ hsafe _) ht, hlength⟩

/-- **The record of a gap is written again**: the destination cannot be reached when the gap is
found, and the next attempt records it a second time. -/
theorem reported_twice : ∃ t,
    Machine.run (step gapCrates plainHttp) (exporting nearbySink) retriedExport = some t ∧
      (∀ op ∈ retriedExport, OfExporter op) ∧ ¬ ReportedOnce t := by
  have hrun : (Machine.run (step gapCrates plainHttp) (exporting nearbySink) retriedExport).map
      (fun t => (t.trail.gapReports 1).length) = some 2 := by decide +kernel
  obtain ⟨t, ht, hlength⟩ := Option.map_eq_some_iff.1 hrun
  refine ⟨t, ht, ?_, fun h => ?_⟩
  · simp [retriedExport, prunedExport, attempt, OfExporter, AuditEntry.gapAfter, lostEntry,
      stoppedEntry, AuditEntry.new]
  · have := h.2 1
    omega

end ExportRun

end AuditGateway
