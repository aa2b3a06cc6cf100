import AuditGateway.Web.Acknowledge
import Mathlib.Algebra.Group.Int.Defs
import Mathlib.Data.List.Sort

set_option relaxedAutoImplicit false
set_option autoImplicit false

/-!
# What the acknowledge tool acknowledges

The tool of an MCP client reads the mark of a severity and then the records behind it up to the
number that the client gives, records an acknowledgement up to this number, and answers with the
records it has read. It reads no more than 200 of them, and the number can be above the newest
record. So the tool acknowledges what it shows only where what was read is all that the number
covers, then and later, and where nobody else acknowledges meanwhile.

What an acknowledgement changes is noted for the statements only.

## Main definitions

* `AckArgs`, `ToolStage`, `AckTool`, `AckTool.step` — a call of the tool, on a trail that goes on.
* `AckTool.Exact` — the tool has acknowledged what it returned, and nothing else.
* `AckTool.Careful` — the steps in which this is kept.

## Main results

* `AckTool.exact_of_run` — a run of such steps.
* `AckTool.not_exact_numberAhead` — a number above the newest record.
-/

namespace AuditGateway

/-- What a client gives, and who it is. -/
structure AckArgs where
  actor : String
  severity : Severity
  upTo : ℤ

/-- `up_to + 1` in 64 bits. -/
def succI64 (n : ℤ) : ℤ := if n = 2 ^ 63 - 1 then -2 ^ 63 else n + 1

/-- How far the tool is. -/
inductive ToolStage
  /-- Waiting until what was queued is written, and for the marks. -/
  | flushing
  | marked (mark : ℤ)
  /-- Waiting until the acknowledgement is committed. The client may be gone. -/
  | committing (mark : ℤ) (records : List StoredRecord) (gone : Bool)
  /-- Waiting for what is left. -/
  | committed (records : List StoredRecord)
  | leftMarked (records : List StoredRecord) (mark : ℤ)
  | answered (records : List StoredRecord) (left : ℕ)
  | failed

/-- What the tool has returned, when it has ended. -/
def ToolStage.returned : ToolStage → Option (List StoredRecord)
  | .answered records _ => some records
  | .failed => some []
  | _ => none

/-- The acknowledgement is handed in, and no answer given yet. -/
def ToolStage.handedIn : ToolStage → Bool
  | .committing .. | .committed _ | .leftMarked .. => true
  | _ => false

/-- What an acknowledgement has changed. -/
structure AckChange where
  /-- The mark before it. -/
  before : ℤ
  /-- The mark after it. -/
  after : ℤ
  /-- The records that were open before and are no more. -/
  seqs : List ℤ

/-- A call of the tool, and the trail. -/
structure AckTool where
  trail : Trail
  stage : ToolStage := .flushing
  changed : Option AckChange := none

namespace AckTool

/-- What can happen. `reads` says whether a query succeeds. -/
inductive Op
  | trail (op : Trail.Op)
  | alarms (reads : Bool)
  | query (reads : Bool)
  /-- The transaction with the acknowledgement and entries of others ended. -/
  | commit (commits : Bool) (now : DateTime) (before after : List AuditEntry)
  | alarmsLeft (reads : Bool)
  | queryLeft (reads : Bool)
  /-- The client is gone. -/
  | giveUp

/-- A new gateway, and a call that has not begun. -/
def init : AckTool := { trail := Trail.init }

variable (c : Crates) (args : AckArgs)

/-- The mark of the severity as a call of `alarms` finds it. -/
def mark (trail : Trail) : ℤ := (alarmMarks c trail.db args.severity).getD 0

/-- The entry that records the acknowledgement. -/
def entry (now : DateTime) (records : List StoredRecord) : AuditEntry :=
  AuditEntry.new now
    (.alarmsAcknowledged args.actor args.severity args.upTo records.length)

/-- The trail with the entries, if they are committed. -/
def append (commits : Bool) (trail : Trail) (entries : List AuditEntry) : Option Trail :=
  trail.store.bind fun store =>
    match AuditGateway.append c commits trail.db store entries with
    | .error _ => none
    | .ok _ => trail.step c (.append commits entries)

/-- The records of the severity between two marks. -/
def between (db : Database) (severity : Severity) (low high : ℤ) : List Row :=
  db.audit.rows.filter fun row => low < row.seq ∧ row.seq ≤ high ∧ row.kind ∈ severity.kinds

/-- What the acknowledgement changes. -/
def change (before after : Trail) : AckChange :=
  { before := mark c args before
    after := mark c args after
    seqs := (between after.db args.severity (mark c args before) (mark c args after)).map (·.seq) }

/-- One operation. -/
def step (s : AckTool) (op : Op) : Option AckTool :=
  match op, s.stage with
  | .trail op, _ => (s.trail.step c op).map fun trail => { s with trail := trail }
  | .alarms reads, .flushing =>
    some { s with stage := if reads then .marked (mark c args s.trail) else .failed }
  | .query reads, .marked mark =>
    match queryKinds c s.trail.db args.severity.kinds mark (some (succI64 args.upTo))
      maxRecords with
    | .error _ => some { s with stage := .failed }
    | .ok records =>
      some { s with
        stage := if reads ∧ records ≠ [] then .committing mark records.reverse false else .failed }
  | .commit commits now before after, .committing _ records gone =>
    match append c commits s.trail (before ++ entry args now records :: after) with
    | none => some { s with stage := .failed }
    | some trail =>
      some { trail := trail
             stage := if gone then .failed else .committed records
             changed := some (change c args s.trail trail) }
  | .alarmsLeft reads, .committed records =>
    some { s with
      stage := if reads then .leftMarked records (mark c args s.trail) else .failed }
  | .queryLeft reads, .leftMarked records mark =>
    match queryKinds c s.trail.db args.severity.kinds mark none maxRecords with
    | .error _ => some { s with stage := .failed }
    | .ok left =>
      some { s with stage := if reads then .answered records left.length else .failed }
  | .giveUp, .committing mark records _ =>
    some { s with stage := .committing mark records true }
  | .giveUp, _ => some { s with stage := if s.stage.returned.isSome then s.stage else .failed }
  | _, _ => none

/-! ## What should hold, and when it does -/

/-- When the tool has ended, the records that are open no more are those it returned, and its
acknowledgement covers no other record that was written since. -/
def Exact (s : AckTool) : Prop :=
  ∀ returned, s.stage.returned = some returned →
    ((s.changed.map (·.seqs)).getD []) = returned.map (·.seq) ∧
      ∀ change, s.changed = some change →
        ∀ row ∈ between s.trail.db args.severity change.before change.after,
          row.seq ∈ returned.map (·.seq)

/-- The operations that keep it exact, by the state before them.

When the records are read and there are any, the number is not above the newest one ever written,
and there are no more than the tool reads. When the acknowledgement is committed, the mark is the
one that was read, the records shown are still there, and no other acknowledgement is committed with
it. From then on the client waits for the answer, and what is left can be read. -/
def Careful (s : AckTool) : Op → Prop
  | .query _ => ∀ mark, s.stage = .marked mark →
      between s.trail.db args.severity mark args.upTo ≠ [] →
      args.upTo ≤ s.trail.head.1 ∧
        (between s.trail.db args.severity mark args.upTo).length ≤ maxRecords
  | .commit _ _ before after => ∀ mark' records gone, s.stage = .committing mark' records gone →
      mark c args s.trail = mark' ∧
        (∀ record ∈ records, ∃ row ∈ s.trail.db.audit.rows, row.seq = record.seq) ∧
        ∀ e ∈ before ++ after, AlarmRun.NoAck e
  | .alarmsLeft reads => reads
  | .queryLeft reads => reads ∧ ∀ records mark, s.stage = .leftMarked records mark →
      ∃ left, queryKinds c s.trail.db args.severity.kinds mark none maxRecords = .ok left
  | .giveUp => s.stage.handedIn = false
  | _ => True

/-! ## The trail under the tool -/

variable {c : Crates} {args : AckArgs} {trail trail' : Trail}

/-- The records between two numbers. -/
lemma mem_between {db : Database} {severity : Severity} {low high : ℤ} {row : Row} :
    row ∈ between db severity low high ↔
      row ∈ db.audit.rows ∧ low < row.seq ∧ row.seq ≤ high ∧ row.kind ∈ severity.kinds := by
  simp [between]

/-- The records between two marks are in the order of their numbers. -/
lemma pairwise_between (db : Database) (severity : Severity) (low high : ℤ) :
    ((between db severity low high).map (·.seq)).Pairwise (· < ·) :=
  List.pairwise_map.mpr (db.audit.sorted.filter _)

/-- Nothing that was ever written is forgotten. -/
lemma written_subset (h : Trail.Chained c trail) {op : Trail.Op}
    (hs : trail.step c op = some trail') : trail.written ⊆ trail'.written := by
  cases h.change hs with
  | closed | unchanged | opened | lost => exact List.Subset.refl _
  | truncated | appended | pruned => exact List.subset_append_left ..

/-- What is committed stands behind all that was written before. -/
lemma exists_wrote (h : Trail.Chained c trail) {commits : Bool} {entries : List AuditEntry}
    (happend : append c commits trail entries = some trail') :
    ∃ db store, Wrote c trail.db.audit.rows trail.head entries db store ∧
      trail' = trail.commit entries db store ∧
        trail.step c (.append commits entries) = some trail' := by
  obtain ⟨store, hstore, happend⟩ := Option.bind_eq_some_iff.mp happend
  split at happend
  · cases happend
  · next result heq =>
    obtain ⟨seqs, db, store'⟩ := result
    obtain ⟨-, -, hwrote⟩ := append_inv (h.seq_le_store hstore) heq
    rw [h.store_eq store hstore] at hwrote
    refine ⟨db, store', hwrote, ?_, happend⟩
    simp only [Trail.step, hstore, heq, Option.map_some, Option.some.injEq] at happend
    exact happend.symm

/-- The rows of a committed transaction are those of its entries. -/
lemma kind_of_mem_records {n : ℤ} {hash : String} {entries : List AuditEntry} {row : Row}
    (h : row ∈ records c n hash entries) : ∃ e ∈ entries, row.kind = e.event.kind := by
  obtain ⟨e, he, hrow⟩ := exists_of_mem_records h
  refine ⟨e, he, ?_⟩
  rw [hrow]
  rfl

/-- After an acknowledgement the mark of its severity is its number. -/
lemma mark_append (h : Trail.Chained c trail) {commits : Bool} {now : DateTime}
    {before after : List AuditEntry} {shown : List StoredRecord}
    (happend : append c commits trail (before ++ entry args now shown :: after) = some trail')
    (hothers : ∀ e ∈ before ++ after, AlarmRun.NoAck e)
    (hread : Trail.AcksReadBack c trail'.entries) : mark c args trail' = args.upTo := by
  obtain ⟨db, store, hwrote, rfl, -⟩ := exists_wrote h happend
  set e := entry args now shown with he
  have hkind : e.event.kind = "alarms_acknowledged" := rfl
  have hbody : bodyAck c args.severity (c.toJson e) = some args.upTo := by
    have hack : e.event.acknowledges args.severity = some args.upTo := if_pos rfl
    have hmem : e ∈ (trail.commit (before ++ e :: after) db store).entries := by
      simp [Trail.commit]
    obtain ⟨e', hparse, hsame⟩ := hread e hmem args.severity args.upTo hack
    rw [bodyAck, hparse]
    exact (hsame args.severity).trans hack
  -- The row of the acknowledgement is the newest one of its kind.
  obtain ⟨old, n, hash, hrows⟩ : ∃ old n hash, (db.audit.rows.filter fun row =>
      decide (row.kind = "alarms_acknowledged")) = old ++ [record c n hash e] := by
    have hafter : ∀ n hash, ((records c n hash after).filter fun row =>
        decide (row.kind = "alarms_acknowledged")) = [] := by
      intro n hash
      rw [List.filter_eq_nil_iff]
      intro row hrow
      obtain ⟨e', he', hkind'⟩ := kind_of_mem_records hrow
      have hno := hothers e' (List.mem_append_right _ he')
      simpa [hkind', AlarmRun.NoAck] using hno
    rw [hwrote.rows_eq, records, HashChain.chainFrom_append (record_seq c), ← records, ← records,
      records_cons]
    have hrow : ∀ n hash rows, ((record c n hash e :: rows).filter fun row =>
        decide (row.kind = "alarms_acknowledged")) = record c n hash e :: rows.filter fun row =>
          decide (row.kind = "alarms_acknowledged") :=
      fun _ _ _ => List.filter_cons_of_pos (decide_eq_true hkind)
    rw [List.filter_append, List.filter_append, hrow, hafter, ← List.append_assoc]
    exact ⟨_, _, _, rfl⟩
  have hnewest : newestAcks db 100 = record c n hash e :: old.reverse.take 99 := by
    rw [newestAcks, hrows, List.reverse_append, List.reverse_singleton, List.singleton_append,
      List.take_succ_cons]
  have hmarks : alarmMarks c db args.severity = some args.upTo := by
    have hrow : bodyAck c args.severity (record c n hash e).body = some args.upTo := hbody
    rw [alarmMarks, foldl_insertMark, Option.none_or, hnewest, List.map_cons, List.findSome?_cons,
      hrow]
  show (alarmMarks c db args.severity).getD 0 = args.upTo
  rw [hmarks, Option.getD_some]

/-! ## What a careful run keeps -/

/-- The records shown are all that the number covers behind the mark. -/
structure Shown (args : AckArgs) (trail : Trail) (mark : ℤ) (records : List StoredRecord) :
    Prop where
  sorted : (records.map (·.seq)).Pairwise (· < ·)
  row (record : StoredRecord) (h : record ∈ records) : ∃ row ∈ trail.written,
    row.seq = record.seq ∧ mark < row.seq ∧ row.seq ≤ args.upTo ∧ row.kind ∈ args.severity.kinds
  all (row : Row) (h : row ∈ between trail.db args.severity mark args.upTo) :
    row.seq ∈ records.map (·.seq)
  head : args.upTo ≤ trail.head.1

/-- The acknowledgement has changed what was shown, and covers no other record. -/
structure Settled (args : AckArgs) (trail : Trail) (changed : Option AckChange)
    (records : List StoredRecord) (change : AckChange) : Prop where
  changed : changed = some change
  seqs : change.seqs = records.map (·.seq)
  all (row : Row) (h : row ∈ between trail.db args.severity change.before change.after) :
    row.seq ∈ records.map (·.seq)
  head : change.after ≤ trail.head.1

/-- What holds at a stage. -/
def StageOk (args : AckArgs) (s : AckTool) : ToolStage → Prop
  | .flushing | .marked _ | .failed => s.changed = none
  | .committing mark records gone =>
    s.changed = none ∧ gone = false ∧ Shown args s.trail mark records
  | .committed records | .leftMarked records _ | .answered records _ =>
    ∃ change, Settled args s.trail s.changed records change

/-- Rows that come later have higher numbers than those between two marks. -/
lemma between_subset (h : Trail.Chained c trail) {op : Trail.Op}
    (hs : trail.step c op = some trail') {severity : Severity} {low high : ℤ}
    (hhigh : high ≤ trail.head.1) :
    between trail'.db severity low high ⊆ between trail.db severity low high := by
  intro row hrow
  obtain ⟨hmem, hlow, hle, hkind⟩ := mem_between.mp hrow
  obtain hold | hnew := (h.frame hs).2 row hmem
  · exact mem_between.mpr ⟨hold, hlow, hle, hkind⟩
  · omega

/-- What the trail does meanwhile changes nothing about the stage. -/
lemma stageOk_trail {s : AckTool} (h : Trail.Chained c s.trail) {op : Trail.Op}
    (hs : s.trail.step c op = some trail') (hok : StageOk args s s.stage) :
    StageOk args { s with trail := trail' } s.stage := by
  have hhead := (h.frame hs).1
  cases hstage : s.stage with
  | flushing | marked | failed =>
    rw [hstage] at hok
    exact hok
  | committing mark records gone =>
    rw [hstage] at hok
    obtain ⟨hchanged, hgone, hshown⟩ := hok
    refine ⟨hchanged, hgone, hshown.sorted, fun record hrecord => ?_, fun row hrow => ?_,
      hshown.head.trans hhead⟩
    · obtain ⟨row, hrow, hrest⟩ := hshown.row record hrecord
      exact ⟨row, written_subset h hs hrow, hrest⟩
    · exact hshown.all row (between_subset h hs hshown.head hrow)
  | committed records | leftMarked records mark | answered records left =>
    rw [hstage] at hok
    obtain ⟨change, hchanged, hseqs, hall, hle⟩ := hok
    exact ⟨change, hchanged, hseqs, fun row hrow => hall row (between_subset h hs hle hrow),
      hle.trans hhead⟩

/-- What the query finds is all that is open up to the number. -/
lemma shown_of_query (h : Trail.Chained c trail) {mark : ℤ} {records : List StoredRecord}
    (hquery : queryKinds c trail.db args.severity.kinds mark (some (succI64 args.upTo)) maxRecords =
      .ok records) (hne : records ≠ [])
    (hcareful : between trail.db args.severity mark args.upTo ≠ [] →
      args.upTo ≤ trail.head.1 ∧
        (between trail.db args.severity mark args.upTo).length ≤ maxRecords) :
    Shown args trail mark records.reverse := by
  -- The number that is read before is one above `upTo`: at the largest one nothing would be found.
  have hsucc : succI64 args.upTo = args.upTo + 1 := by
    by_contra hmax
    obtain ⟨record, hrecord⟩ := List.exists_mem_of_ne_nil records hne
    obtain ⟨row, hrow, -⟩ := (mem_storedRecords hquery).mp hrecord
    have hmem := List.mem_of_mem_take hrow
    rw [List.mem_reverse, List.mem_filter, decide_eq_true_eq] at hmem
    have hbefore := hmem.2.2.1 _ rfl
    have hpos := h.seq_pos (h.held.subset hmem.1)
    rw [succI64] at hmax hbefore
    split_ifs at hmax hbefore <;> omega
  have hrows : (trail.db.audit.rows.filter fun row => decide (mark < row.seq ∧
      (∀ before ∈ some (succI64 args.upTo), row.seq < before) ∧
        row.kind ∈ args.severity.kinds)) = between trail.db args.severity mark args.upTo := by
    refine List.filter_congr fun row _ => ?_
    have hlt : row.seq < args.upTo + 1 ↔ row.seq ≤ args.upTo := Int.lt_add_one_iff
    simp only [hsucc, Option.mem_def, Option.some.injEq, forall_eq', hlt]
  have hlimit : min (max maxRecords 1) 1000 = maxRecords := rfl
  rw [queryKinds, hrows, hlimit] at hquery
  have hseqs := map_seq_storedRecords hquery
  have hfound : between trail.db args.severity mark args.upTo ≠ [] := by
    intro hnil
    rw [hnil] at hseqs
    simp [hne] at hseqs
  obtain ⟨hhead, hlength⟩ := hcareful hfound
  rw [List.take_of_length_le (by simpa using hlength), List.map_reverse] at hseqs
  have hall : records.reverse.map (·.seq) =
      (between trail.db args.severity mark args.upTo).map (·.seq) := by
    rw [List.map_reverse, hseqs, List.reverse_reverse]
  refine ⟨?_, fun record hrecord => ?_, fun row hrow => ?_, hhead⟩
  · rw [hall]
    exact pairwise_between ..
  · have hmem : record.seq ∈ records.reverse.map (·.seq) := List.mem_map_of_mem hrecord
    rw [hall] at hmem
    obtain ⟨row, hrow, hseq⟩ := List.mem_map.mp hmem
    obtain ⟨hin, hlow, hle, hkind⟩ := mem_between.mp hrow
    exact ⟨row, h.held.subset hin, hseq, hlow, hle, hkind⟩
  · rw [hall]
    exact List.mem_map_of_mem hrow

/-- A committed acknowledgement changes what was shown. -/
lemma settled_of_append (h : Trail.Chained c trail) {commits : Bool} {now : DateTime}
    {before after : List AuditEntry} {records : List StoredRecord}
    (hshown : Shown args trail (mark c args trail) records)
    (happend : append c commits trail (before ++ entry args now records :: after) = some trail')
    (hthere : ∀ record ∈ records, ∃ row ∈ trail.db.audit.rows, row.seq = record.seq)
    (hothers : ∀ e ∈ before ++ after, AlarmRun.NoAck e)
    (hread : Trail.AcksReadBack c trail'.entries) :
    Settled args trail' (some (change c args trail trail')) records
      (change c args trail trail') := by
  have hmark : mark c args trail' = args.upTo := mark_append h happend hothers hread
  obtain ⟨db, store, hwrote, heq, hstep⟩ := exists_wrote h happend
  have hsame : ∀ row, row ∈ between trail'.db args.severity (mark c args trail) args.upTo ↔
      row ∈ between trail.db args.severity (mark c args trail) args.upTo := by
    intro row
    refine ⟨fun hrow => between_subset h hstep hshown.head hrow, fun hrow => ?_⟩
    obtain ⟨hin, hrest⟩ := mem_between.mp hrow
    refine mem_between.mpr ⟨?_, hrest⟩
    rw [heq, Trail.commit, hwrote.rows_eq]
    exact List.mem_append_left _ hin
  have hall : ∀ row ∈ between trail'.db args.severity (mark c args trail) args.upTo,
      row.seq ∈ records.map (·.seq) := fun row hrow => hshown.all row ((hsame row).mp hrow)
  have hseqs : (between trail'.db args.severity (mark c args trail) args.upTo).map (·.seq) =
      records.map (·.seq) := by
    refine (pairwise_between ..).eq_of_mem_iff hshown.sorted fun seq => ?_
    constructor
    · intro hseq
      obtain ⟨row, hrow, rfl⟩ := List.mem_map.mp hseq
      exact hall row hrow
    · intro hseq
      obtain ⟨record, hrecord, rfl⟩ := List.mem_map.mp hseq
      obtain ⟨row, hrow, hrowseq⟩ := hthere record hrecord
      obtain ⟨row', hwritten, hrowseq', hrest⟩ := hshown.row record hrecord
      obtain rfl : row = row' :=
        h.eq_of_seq_eq (h.held.subset hrow) hwritten (hrowseq.trans hrowseq'.symm)
      rw [← hrowseq]
      exact List.mem_map_of_mem ((hsame row).mpr (mem_between.mpr ⟨hrow, hrest⟩))
  refine ⟨rfl, ?_, ?_, ?_⟩
  · rw [change, hmark]
    exact hseqs
  · rw [change, hmark]
    exact hall
  · rw [change, hmark]
    exact hshown.head.trans (h.frame hstep).1

/-- **Step lemma**: a careful step keeps the stages right. -/
lemma stageOk_step {s t : AckTool} {op : Op} (h : Trail.Chained c s.trail)
    (hok : StageOk args s s.stage) (hcareful : Careful c args s op)
    (hs : step c args s op = some t) (hread : Trail.AcksReadBack c t.trail.entries) :
    StageOk args t t.stage := by
  unfold step at hs
  split at hs
  · next op =>
    obtain ⟨trail', htrail, rfl⟩ := Option.map_eq_some_iff.mp hs
    exact stageOk_trail h htrail hok
  · next reads hstage =>
    cases hs
    rw [hstage] at hok
    cases reads <;> exact hok
  · next reads mark hstage =>
    rw [hstage] at hok
    split at hs
    · cases hs
      exact hok
    · next records hquery =>
      cases hs
      by_cases hne : reads = true ∧ records ≠ []
      · dsimp only
        rw [if_pos hne]
        exact ⟨hok, rfl, shown_of_query h hquery hne.2 (hcareful mark hstage)⟩
      · dsimp only
        rw [if_neg hne]
        exact hok
  · next commits now before after mark' records gone hstage =>
    rw [hstage] at hok
    obtain ⟨hchanged, rfl, hshown⟩ := hok
    obtain ⟨rfl, hthere, hothers⟩ := hcareful mark' records false hstage
    split at hs
    · cases hs
      exact hchanged
    · next trail' happend =>
      cases hs
      exact ⟨_, settled_of_append h hshown happend hthere hothers hread⟩
  · next reads records hstage =>
    cases hs
    rw [hstage] at hok
    have hreads : reads = true := hcareful
    dsimp only
    rw [if_pos hreads]
    exact hok
  · next reads records mark hstage =>
    rw [hstage] at hok
    obtain ⟨hreads, hleft⟩ := hcareful
    obtain ⟨left, hleft⟩ := hleft records mark hstage
    rw [hleft] at hs
    cases hs
    dsimp only
    rw [if_pos hreads]
    exact hok
  · next mark records gone hstage =>
    have hnot : s.stage.handedIn = false := hcareful
    rw [hstage] at hnot
    cases hnot
  · have hnot : s.stage.handedIn = false := hcareful
    cases hs
    cases hstage : s.stage with
    | committing | committed | leftMarked =>
      rw [hstage] at hnot
      cases hnot
    | flushing | marked | failed | answered =>
      rw [hstage] at hok
      exact hok
  · cases hs

/-- No step breaks the chain of the trail or forgets an entry. -/
lemma chained_step {s t : AckTool} {op : Op} (h : Trail.Chained c s.trail)
    (hs : step c args s op = some t) :
    Trail.Chained c t.trail ∧ s.trail.entries ⊆ t.trail.entries := by
  have hsame : Trail.Chained c s.trail ∧ s.trail.entries ⊆ s.trail.entries :=
    ⟨h, List.Subset.refl _⟩
  unfold step at hs
  split at hs
  · next op =>
    obtain ⟨trail, hstep, rfl⟩ := Option.map_eq_some_iff.mp hs
    exact h.keeps hstep
  · cases hs
    exact hsame
  · split at hs <;> cases hs <;> exact hsame
  · split at hs
    · cases hs
      exact hsame
    · next trail happend =>
      cases hs
      obtain ⟨-, -, -, -, hstep⟩ := exists_wrote h happend
      exact h.keeps hstep
  · cases hs
    exact hsame
  · split at hs <;> cases hs <;> exact hsame
  · cases hs
    exact hsame
  · cases hs
    exact hsame
  · cases hs

/-- What a tool that has ended has changed is what it returned. -/
lemma exact_of_stageOk {s : AckTool} (h : StageOk args s s.stage) : Exact args s := by
  intro returned hreturned
  cases hstage : s.stage with
  | answered records left =>
    rw [hstage] at h hreturned
    obtain rfl : records = returned := Option.some.inj hreturned
    obtain ⟨change, hsettled⟩ := h
    rw [hsettled.changed]
    refine ⟨hsettled.seqs, ?_⟩
    rintro _ ⟨rfl⟩
    exact hsettled.all
  | failed =>
    rw [hstage] at h hreturned
    obtain rfl : [] = returned := Option.some.inj hreturned
    have hnone : s.changed = none := h
    rw [hnone]
    exact ⟨rfl, nofun⟩
  | flushing | marked | committing | committed | leftMarked =>
    rw [hstage] at hreturned
    cases hreturned

/-- **The tool acknowledges what it shows**, in every run of careful steps, with whatever the trail
does before, meanwhile and afterwards.

**Proof sketch.** What the query finds is all that is open up to the number (`shown_of_query`), and
rows that are written later have higher numbers. So when the acknowledgement is committed, its mark
covers just what is still there of it (`settled_of_append`). -/
theorem exact_of_run {ops : List Op} {t : AckTool}
    (hr : Machine.run (step c args) init ops = some t)
    (hcareful : Machine.Meets (step c args) (Careful c args) init ops)
    (hread : Trail.AcksReadBack c t.trail.entries) : Exact args t := by
  have hinv : Trail.Chained c t.trail ∧
      (Trail.AcksReadBack c t.trail.entries → StageOk args t t.stage) := by
    have hinit : Trail.AcksReadBack c init.trail.entries → StageOk args init init.stage :=
      fun _ => rfl
    refine Machine.run_invariant_of_meets (I := fun u => Trail.Chained c u.trail ∧
      (Trail.AcksReadBack c u.trail.entries → StageOk args u u.stage)) ?_
      ⟨Trail.chained_init c, hinit⟩ hcareful hr
    rintro s op u ⟨hchained, hok⟩ hsafe hs
    obtain ⟨hchained', hsub⟩ := chained_step hchained hs
    exact ⟨hchained', fun hread => stageOk_step hchained (hok (hread.mono hsub)) hsafe hs hread⟩
  exact exact_of_stageOk (hinv.2 hread)

/-! ## Two calls -/

/-- The acknowledgement of one warning up to a number. -/
def ackUpTo (upTo : ℤ) : AuditEntry :=
  AuditEntry.new nextMidnight (.alarmsAcknowledged "anna" .warning upTo 1)

/-- The functions of the other crates with a warning and this acknowledgement read back. -/
def ackCrates (upTo : ℤ) : Crates where
  sha256 := Sha256.digest
  toJson := AlarmRun.ackText
  fromJson text :=
    match [AlarmRun.clockEntry, ackUpTo upTo].find? fun e => AlarmRun.ackText e = text with
    | some e => .ok e
    | none => .error "unknown record"
  rfc3339 := rfc3339Micros

/-- The arguments of the tool in the example. -/
def ackArgs (upTo : ℤ) : AckArgs := ⟨"anna", .warning, upTo⟩

/-- There is one warning, and the tool is called. -/
def toolMarked : List Op :=
  [.trail (.openStore true ⟨0⟩), .trail (.append true [AlarmRun.clockEntry]), .alarms true]

/-- The records behind the mark are shown. -/
def toolShown : List Op := toolMarked ++ [.query true]

/-- The records are acknowledged, and what is left is counted. -/
def toolLeft : List Op := toolShown ++ [.commit true nextMidnight [] [], .alarmsLeft true]

/-- The text of an entry, and what it acknowledges. -/
def ackView (e : AuditEntry) : String × Option ℤ × Option ℤ :=
  (AlarmRun.ackText e, e.event.acknowledges .warning, e.event.acknowledges .error)

/-- The acknowledgements of the example are read back. -/
lemma acksReadBack_ackCrates {upTo : ℤ}
    (hne : AlarmRun.ackText AlarmRun.clockEntry ≠ AlarmRun.ackText (ackUpTo upTo))
    {entries : List AuditEntry}
    (h : ∀ view ∈ entries.map ackView, view = ackView AlarmRun.clockEntry ∨
      view = ackView (ackUpTo upTo)) : Trail.AcksReadBack (ackCrates upTo) entries := by
  intro e he severity n hack
  obtain hview | hview := h _ (List.mem_map_of_mem he)
  · -- A warning acknowledges nothing.
    obtain ⟨-, hrest⟩ := Prod.mk.inj hview
    obtain ⟨hwarning, herror⟩ := Prod.mk.inj hrest
    cases severity with
    | warning => cases hwarning.symm.trans hack
    | error => cases herror.symm.trans hack
  · obtain ⟨htext, hrest⟩ := Prod.mk.inj hview
    obtain ⟨hwarning, herror⟩ := Prod.mk.inj hrest
    refine ⟨ackUpTo upTo, ?_, fun other => ?_⟩
    · simp [ackCrates, htext, hne]
    · cases other with
      | warning => exact hwarning.symm
      | error => exact herror.symm

/-- The mark and the numbers that an acknowledgement is about. -/
def writing : ToolStage → ℤ × List ℤ
  | .committing mark records _ => (mark, records.map (·.seq))
  | _ => (0, [])

/-- What is left can be read. -/
def readsLeft (s : AckTool) : Bool :=
  match s.stage with
  | .leftMarked _ mark => (queryKinds (ackCrates 1) s.trail.db (ackArgs 1).severity.kinds mark none
      maxRecords).toOption.isSome
  | _ => true

/-- The tool acknowledges the warning that it shows. -/
theorem exact_of_run_oneWarning : ∃ t,
    Machine.run (step (ackCrates 1) (ackArgs 1)) init (toolLeft ++ [.queryLeft true]) = some t ∧
      t.changed.map (·.seqs) = some [1] ∧ Exact (ackArgs 1) t := by
  have hend : (Machine.run (step (ackCrates 1) (ackArgs 1)) init
      (toolLeft ++ [.queryLeft true])).map
        (fun t => (t.changed.map (·.seqs), t.trail.entries.map ackView)) =
      some (some [1], [ackView AlarmRun.clockEntry, ackView (ackUpTo 1)]) := by decide +kernel
  obtain ⟨t, ht, hend⟩ := Option.map_eq_some_iff.mp hend
  obtain ⟨hchanged, hentries⟩ := Prod.mk.inj hend
  refine ⟨t, ht, hchanged, exact_of_run ht ?_ ?_⟩
  · -- What each of the steps finds.
    have hquery : (Machine.run (step (ackCrates 1) (ackArgs 1)) init toolMarked).map
        (fun s => (s.trail.head.1, s.trail.db.audit.rows.length)) = some (1, 1) := by
      decide +kernel
    have hcommit : (Machine.run (step (ackCrates 1) (ackArgs 1)) init toolShown).map
        (fun s => (mark (ackCrates 1) (ackArgs 1) s.trail, s.trail.db.audit.rows.map (·.seq),
          writing s.stage)) = some (0, [1], 0, [1]) := by decide +kernel
    have hleft : (Machine.run (step (ackCrates 1) (ackArgs 1)) init toolLeft).map readsLeft =
        some true := by decide +kernel
    refine (Machine.meets_append _).mpr ⟨(Machine.meets_append _).mpr
      ⟨(Machine.meets_append _).mpr ⟨?_, fun s hs => ⟨?_, fun _ _ => trivial⟩⟩,
        fun s hs => ⟨?_, fun _ _ => ⟨rfl, fun _ _ => trivial⟩⟩⟩,
      fun s hs => ⟨⟨rfl, ?_⟩, fun _ _ => trivial⟩⟩
    · exact Machine.meets_of_forall_mem _ (by simp [toolMarked, Careful]) _
    · intro mark _ _
      rw [hs] at hquery
      obtain ⟨hhead, hrows⟩ := Prod.mk.inj (Option.some.inj hquery)
      refine ⟨hhead.ge, (List.length_filter_le _ _).trans ?_⟩
      rw [hrows]
      decide
    · intro mark' records gone hstage
      rw [hs, Option.map_some, hstage] at hcommit
      obtain ⟨hmark, hrest⟩ := Prod.mk.inj (Option.some.inj hcommit)
      obtain ⟨hrows, hrest⟩ := Prod.mk.inj hrest
      obtain ⟨hread, hrecords⟩ := Prod.mk.inj hrest
      refine ⟨hmark.trans hread.symm, fun record hrecord => ?_, by simp⟩
      have hseq : record.seq ∈ records.map (·.seq) := List.mem_map_of_mem hrecord
      rw [hrecords, ← hrows] at hseq
      obtain ⟨row, hrow, hseq⟩ := List.mem_map.mp hseq
      exact ⟨row, hrow, hseq⟩
    · intro records mark hstage
      rw [hs, Option.map_some, readsLeft, hstage] at hleft
      have hsome := Option.some.inj hleft
      dsimp only at hsome
      cases hquery' : queryKinds (ackCrates 1) s.trail.db (ackArgs 1).severity.kinds mark none
          maxRecords with
      | error e =>
        rw [hquery'] at hsome
        cases hsome
      | ok left => exact ⟨left, rfl⟩
  · refine acksReadBack_ackCrates (by decide +kernel) ?_
    rw [hentries]
    simp

/-- **A number above the newest record**: the warning that is written after the answer is
acknowledged too, although it was not shown. -/
theorem not_exact_numberAhead : ¬ ∀ (c : Crates) (args : AckArgs) (ops : List Op) (t : AckTool),
    Machine.run (step c args) init ops = some t → Trail.AcksReadBack c t.trail.entries →
      Exact args t := by
  intro h
  have hend : (Machine.run (step (ackCrates 3) (ackArgs 3)) init
      (toolLeft ++ [.queryLeft true, .trail (.append true [AlarmRun.clockEntry])])).map
        (fun t => (t.trail.entries.map ackView,
          t.stage.returned.map fun records => records.map (·.seq),
          t.changed.map fun change => (between t.trail.db .warning change.before change.after).map
            (·.seq))) =
      some ([ackView AlarmRun.clockEntry, ackView (ackUpTo 3), ackView AlarmRun.clockEntry],
        some [1], some [1, 3]) := by decide +kernel
  obtain ⟨t, ht, hend⟩ := Option.map_eq_some_iff.mp hend
  obtain ⟨hentries, hrest⟩ := Prod.mk.inj hend
  obtain ⟨hreturned, hcovered⟩ := Prod.mk.inj hrest
  have hread : Trail.AcksReadBack (ackCrates 3) t.trail.entries := by
    refine acksReadBack_ackCrates (by decide +kernel) ?_
    rw [hentries]
    simp
  obtain ⟨returned, hreturned, hseqs⟩ := Option.map_eq_some_iff.mp hreturned
  obtain ⟨change, hchange, hcovered⟩ := Option.map_eq_some_iff.mp hcovered
  have hmem : (3 : ℤ) ∈ (between t.trail.db (ackArgs 3).severity change.before change.after).map
      (·.seq) := by
    show (3 : ℤ) ∈ (between t.trail.db .warning change.before change.after).map (·.seq)
    rw [hcovered]
    decide
  obtain ⟨row, hrow, hseq⟩ := List.mem_map.mp hmem
  have hshown := (h (ackCrates 3) (ackArgs 3) _ t ht hread returned hreturned).2 change hchange row
    hrow
  rw [hseq, hseqs] at hshown
  revert hshown
  decide

end AckTool

end AuditGateway
