import AuditGateway.Audit.Query
import AuditGateway.Audit.Trail
import Mathlib.Data.List.Forall2

set_option relaxedAutoImplicit false
set_option autoImplicit false

/-!
# Alarms

Records of certain kinds are alarms, warnings or errors, until someone acknowledges all of a
severity up to a number. An acknowledgement is a record itself, so the mark of a severity is that of
the newest of its acknowledgements. The query that looks for it reads the newest 100
acknowledgements of both severities together. So the marks and the counts are right exactly if the
newest acknowledgement of each severity is among these.

## Main definitions

* `Severity.kinds` — the kinds of a severity.
* `alarms` — the marks and counts as the store finds them.
* `Trail.openAlarms` — the marks and counts as they should be.
* `Trail.Recent` — the newest acknowledgement of each severity is among those read.

## Main results

* `Trail.AcksRead.alarms_eq_iff` — when the marks and counts are right.
-/

namespace AuditGateway

namespace Severity

/-- The severities of alarms. -/
def all : List Severity := [.warning, .error]

/-- The event kinds of this severity. -/
def kinds : Severity → List String
  | .error => ["events_lost", "trail_truncated", "export_gap", "upstream_unavailable",
      "target_not_trusted", "target_refused_gateway", "upstream_endpoints_changed"]
  | .warning => ["certificate_rejected", "authentication_failed", "ui_login_failed",
      "api_token_rejected", "connections_refused", "clock_jumped"]

/-- There are no others. -/
theorem mem_all (severity : Severity) : severity ∈ all := by
  cases severity <;> decide

end Severity

/-- Up to where an event acknowledges a severity. -/
def AuditEvent.acknowledges (severity : Severity) : AuditEvent → Option ℤ
  | .alarmsAcknowledged _ s upToSeq _ => if s = severity then some upToSeq else none
  | _ => none

/-- Unacknowledged records of one severity. -/
structure AlarmCount where
  severity : Severity
  /-- Acknowledged up to and including this record (0: never). -/
  acknowledgedUpTo : ℤ
  unacknowledged : ℕ
  /-- The event kinds of this severity, for filtering. -/
  kinds : List String
  deriving DecidableEq

/-! ## What the store finds -/

/-- The newest rows of acknowledgements. -/
def newestAcks (db : Database) (limit : ℕ) : List Row :=
  ((db.audit.rows.filter fun row => row.kind = "alarms_acknowledged").reverse).take limit

/-- The mark of a severity is set by the first acknowledgement that is read. -/
def insertMark (c : Crates) (marks : Severity → Option ℤ) (body : String) : Severity → Option ℤ :=
  match c.fromJson body with
  | .ok entry =>
    match entry.event with
    | .alarmsAcknowledged _ severity upToSeq _ =>
      Function.update marks severity (some ((marks severity).getD upToSeq))
    | _ => marks
  | .error _ => marks

/-- The mark of each severity. -/
def alarmMarks (c : Crates) (db : Database) : Severity → Option ℤ :=
  ((newestAcks db 100).map (·.body)).foldl (insertMark c) fun _ => none

/-- The number of records of a severity behind a mark. -/
def countAfter (db : Database) (severity : Severity) (mark : ℤ) : ℕ :=
  (db.audit.rows.filter fun row => mark < row.seq ∧ row.kind ∈ severity.kinds).length

/-- For each severity, how many records came after the last acknowledgement. -/
def alarms (c : Crates) (db : Database) : List AlarmCount :=
  Severity.all.map fun severity =>
    let mark := (alarmMarks c db severity).getD 0
    ⟨severity, mark, countAfter db severity mark, severity.kinds⟩

/-- Up to where the entry in a body acknowledges a severity. -/
def bodyAck (c : Crates) (severity : Severity) (body : String) : Option ℤ :=
  (c.fromJson body).toOption.bind fun e => e.event.acknowledges severity

/-- An acknowledgement sets the mark of its severity, unless it is set. -/
theorem insertMark_apply (c : Crates) (marks : Severity → Option ℤ) (body : String)
    (severity : Severity) :
    insertMark c marks body severity = (marks severity).or (bodyAck c severity body) := by
  unfold insertMark bodyAck
  cases c.fromJson body with
  | error e => simp [Except.toOption]
  | ok entry =>
    simp only [Except.toOption, Option.bind_some]
    cases entry.event with
    | alarmsAcknowledged by_ other upToSeq count =>
      dsimp only
      by_cases hother : other = severity
      · subst hother
        rw [Function.update_self, AuditEvent.acknowledges, if_pos rfl]
        cases marks other <;> rfl
      · rw [Function.update_of_ne (Ne.symm hother), AuditEvent.acknowledges, if_neg hother,
          Option.or_none]
    | _ => simp [AuditEvent.acknowledges]

/-- The first acknowledgement of a severity sets its mark. -/
theorem foldl_insertMark (c : Crates) (bodies : List String) (marks : Severity → Option ℤ)
    (severity : Severity) :
    bodies.foldl (insertMark c) marks severity =
      (marks severity).or (bodies.findSome? (bodyAck c severity)) := by
  induction bodies generalizing marks with
  | nil => simp
  | cons body bodies ih =>
    rw [List.foldl_cons, ih, insertMark_apply, List.findSome?_cons, Option.or_assoc]
    cases bodyAck c severity body <;> rfl

/-- The first result is the same for functions that agree on the list. -/
theorem findSome?_congr {α β : Type*} {f g : α → Option β} {l : List α}
    (h : ∀ a ∈ l, f a = g a) : l.findSome? f = l.findSome? g := by
  induction l with
  | nil => rfl
  | cons a l ih =>
    rw [List.findSome?_cons, List.findSome?_cons, h a (List.mem_cons_self ..),
      ih fun b hb => h b (List.mem_cons_of_mem _ hb)]

/-- Only acknowledgements have the kind of one. -/
theorem AuditEvent.acknowledges_eq_none {e : AuditEvent} (h : e.kind ≠ "alarms_acknowledged")
    (severity : Severity) : e.acknowledges severity = none := by
  cases e with
  | alarmsAcknowledged => exact absurd rfl h
  | _ => rfl

namespace Trail

/-! ## What should be found -/

/-- Up to where the entry of a row acknowledges a severity. -/
def ackOf (s : Trail) (severity : Severity) (row : Row) : Option ℤ :=
  (s.entryAt row.seq).bind fun e => e.event.acknowledges severity

/-- The mark of the newest acknowledgement of a severity still in the trail, 0 if there is none. -/
def newestMark (s : Trail) (severity : Severity) : ℤ :=
  (s.db.audit.rows.reverse.findSome? (s.ackOf severity)).getD 0

/-- The number of records of a severity's kinds behind its mark. -/
def openCount (s : Trail) (severity : Severity) : ℕ :=
  (s.db.audit.rows.filter fun row => s.newestMark severity < row.seq ∧
    (s.entryAt row.seq).any fun e => e.event.kind ∈ severity.kinds).length

/-- For each severity the mark of its newest acknowledgement and the records behind it. -/
def openAlarms (s : Trail) : List AlarmCount :=
  Severity.all.map fun severity =>
    ⟨severity, s.newestMark severity, s.openCount severity, severity.kinds⟩

/-- The newest acknowledgement of each severity is among those the store reads. -/
def Recent (s : Trail) : Prop :=
  ∀ severity, (∃ row ∈ s.db.audit.rows, (s.ackOf severity row).isSome) →
    ∃ row ∈ newestAcks s.db 100, (s.ackOf severity row).isSome

/-- Acknowledgements are read as they were written. -/
def AcksReadBack (c : Crates) (entries : List AuditEntry) : Prop :=
  ∀ e ∈ entries, ∀ severity upToSeq, e.event.acknowledges severity = some upToSeq →
    ∃ e', c.fromJson (c.toJson e) = .ok e' ∧
      ∀ other, e'.event.acknowledges other = e.event.acknowledges other

/-- Fewer entries are read back as well. -/
theorem AcksReadBack.mono {c : Crates} {es fs : List AuditEntry} (hread : AcksReadBack c fs)
    (h : es ⊆ fs) : AcksReadBack c es :=
  fun e he => hread e (h he)

/-- Acknowledgements are read as they were written, and acknowledge something. -/
structure AcksRead (c : Crates) (s : Trail) : Prop where
  readsBack : AcksReadBack c s.entries
  pos : ∀ e ∈ s.entries, ∀ severity upToSeq, e.event.acknowledges severity = some upToSeq →
    0 < upToSeq

/-! ## When the two agree -/

variable {c : Crates} {s : Trail} {row : Row}

/-- The kind of a row is that of its entry. -/
theorem Chained.kind_eq (h : Chained c s) (hrow : row ∈ s.db.audit.rows) :
    ∃ e ∈ s.entries, s.entryAt row.seq = some e ∧ row.kind = e.event.kind ∧
      row.body = c.toJson e := by
  obtain ⟨e, he, hrec⟩ := h.exists_entryAt (h.held.subset hrow)
  refine ⟨e, List.mem_of_getElem? he, he, ?_, ?_⟩
  · rw [hrec]
    rfl
  · rw [hrec]
    rfl

/-- The body of a row acknowledges what its entry does. -/
theorem AcksRead.bodyAck_eq (hread : AcksRead c s) (h : Chained c s)
    (hrow : row ∈ s.db.audit.rows) (hkind : row.kind = "alarms_acknowledged")
    (severity : Severity) : bodyAck c severity row.body = s.ackOf severity row := by
  obtain ⟨e, he, hat, hk, hbody⟩ := h.kind_eq hrow
  rw [hk] at hkind
  obtain ⟨by_, other, upToSeq, count, hevent⟩ : ∃ by_ other upToSeq count,
      e.event = .alarmsAcknowledged by_ other upToSeq count := by
    cases hevent : e.event with
    | alarmsAcknowledged by_ other upToSeq count => exact ⟨_, _, _, _, rfl⟩
    | _ => simp [hevent, AuditEvent.kind] at hkind
  have hother : e.event.acknowledges other = some upToSeq := by
    rw [hevent, AuditEvent.acknowledges, if_pos rfl]
  obtain ⟨e', hparse, hsame⟩ := hread.readsBack e he other upToSeq hother
  rw [bodyAck, ackOf, hbody, hparse, hat]
  exact hsame severity

/-- A row that acknowledges a severity has the kind of an acknowledgement. -/
theorem Chained.kind_of_ackOf (h : Chained c s) (hrow : row ∈ s.db.audit.rows)
    {severity : Severity} (hack : (s.ackOf severity row).isSome) :
    row.kind = "alarms_acknowledged" := by
  obtain ⟨e, -, hat, hk, -⟩ := h.kind_eq hrow
  rw [hk]
  by_contra hne
  rw [ackOf, hat, Option.bind_some, AuditEvent.acknowledges_eq_none hne] at hack
  cases hack

/-- The store finds the newest acknowledgement among those it reads. -/
theorem AcksRead.alarmMarks_eq (hread : AcksRead c s) (h : Chained c s) (severity : Severity) :
    alarmMarks c s.db severity = (newestAcks s.db 100).findSome? (s.ackOf severity) := by
  rw [alarmMarks, foldl_insertMark, Option.none_or, List.findSome?_map]
  apply findSome?_congr
  intro row hrow
  have hmem := List.mem_of_mem_take hrow
  rw [List.mem_reverse, List.mem_filter, decide_eq_true_eq] at hmem
  exact hread.bodyAck_eq h hmem.1 hmem.2 severity

/-- No mark is below 0. -/
theorem AcksRead.alarmMarks_nonneg (hread : AcksRead c s) (h : Chained c s) (severity : Severity) :
    0 ≤ (alarmMarks c s.db severity).getD 0 := by
  rw [hread.alarmMarks_eq h]
  cases hfound : (newestAcks s.db 100).findSome? (s.ackOf severity) with
  | none => exact le_rfl
  | some mark =>
    obtain ⟨row, -, hack⟩ := List.exists_of_findSome?_eq_some hfound
    obtain ⟨e, hat, hack⟩ := Option.bind_eq_some_iff.1 hack
    exact (hread.pos e (List.mem_of_getElem? hat) severity mark hack).le

/-- The newest acknowledgement of a severity is among those the store reads, or behind them. -/
theorem Chained.findSome?_ackOf (h : Chained c s) (severity : Severity) :
    ∃ rest : Option ℤ, s.db.audit.rows.reverse.findSome? (s.ackOf severity) =
        ((newestAcks s.db 100).findSome? (s.ackOf severity)).or rest ∧
      ((∃ row ∈ s.db.audit.rows, (s.ackOf severity row).isSome) ↔
        ((newestAcks s.db 100).findSome? (s.ackOf severity)).isSome ∨ rest.isSome) := by
  set acks :=
    (s.db.audit.rows.filter fun row => row.kind = "alarms_acknowledged").reverse with hacks
  have hall : s.db.audit.rows.reverse.findSome? (s.ackOf severity) =
      acks.findSome? (s.ackOf severity) := by
    rw [hacks, ← List.filter_reverse, ← List.head?_filterMap, ← List.head?_filterMap,
      List.filterMap_filter]
    congr 1
    apply List.filterMap_congr
    intro row hrow
    by_cases hkind : row.kind = "alarms_acknowledged"
    · simp [hkind]
    · have : ¬ (s.ackOf severity row).isSome := fun hack =>
        hkind (h.kind_of_ackOf (List.mem_reverse.1 hrow) hack)
      simpa [hkind] using this
  have hsplit : acks.findSome? (s.ackOf severity) =
      ((newestAcks s.db 100).findSome? (s.ackOf severity)).or
        ((acks.drop 100).findSome? (s.ackOf severity)) := by
    conv_lhs => rw [← List.take_append_drop 100 acks]
    rw [List.findSome?_append]
    rfl
  refine ⟨_, hall.trans hsplit, ?_⟩
  rw [← Bool.or_eq_true, ← Option.isSome_or, ← hsplit, ← hall, List.findSome?_isSome_iff]
  simp

/-- The store finds the mark of a severity exactly if its newest acknowledgement is among those
read, or there is none. -/
theorem AcksRead.mark_eq_iff (hread : AcksRead c s) (h : Chained c s) (severity : Severity) :
    (alarmMarks c s.db severity).getD 0 = s.newestMark severity ↔
      ((∃ row ∈ s.db.audit.rows, (s.ackOf severity row).isSome) →
        ∃ row ∈ newestAcks s.db 100, (s.ackOf severity row).isSome) := by
  obtain ⟨rest, hfind, hexists⟩ := h.findSome?_ackOf severity
  have hsome : (∃ row ∈ newestAcks s.db 100, (s.ackOf severity row).isSome) ↔
      ((newestAcks s.db 100).findSome? (s.ackOf severity)).isSome := by
    rw [List.findSome?_isSome_iff]
  rw [hread.alarmMarks_eq h, newestMark, hfind, hexists, hsome]
  cases hfound : (newestAcks s.db 100).findSome? (s.ackOf severity) with
  | some mark => simp
  | none =>
    cases hrest : rest with
    | none => simp
    | some mark =>
      -- an acknowledgement that is not read acknowledges something
      have hpos : 0 < mark := by
        rw [hfound, hrest, Option.none_or] at hfind
        obtain ⟨row, -, hack⟩ := List.exists_of_findSome?_eq_some hfind
        obtain ⟨e, hat, hack⟩ := Option.bind_eq_some_iff.1 hack
        exact hread.pos e (List.mem_of_getElem? hat) severity mark hack
      simp only [Option.none_or, Option.getD_none, Option.getD_some, Option.isSome_none,
        Option.isSome_some, Bool.false_eq_true, or_true, forall_const, iff_false]
      exact ne_of_lt hpos

/-- The number of records behind the mark. -/
theorem Chained.openCount_eq (h : Chained c s) (severity : Severity) :
    countAfter s.db severity (s.newestMark severity) = s.openCount severity := by
  unfold countAfter openCount
  congr 1
  apply List.filter_congr
  intro row hrow
  obtain ⟨e, -, hat, hkind, -⟩ := h.kind_eq hrow
  rw [hat, hkind]
  simp

/-- **Alarms**: the marks and counts the store finds are right exactly if the newest
acknowledgement of each severity is among those it reads. -/
theorem AcksRead.alarms_eq_iff (hread : AcksRead c s) (h : Chained c s) :
    alarms c s.db = s.openAlarms ↔ s.Recent := by
  unfold alarms openAlarms Recent
  rw [List.map_inj_left]
  constructor
  · intro heq severity
    rw [← hread.mark_eq_iff h severity]
    have := heq severity severity.mem_all
    simp only [AlarmCount.mk.injEq] at this
    exact this.2.1
  · intro hrecent severity _
    have hmark := (hread.mark_eq_iff h severity).2 (hrecent severity)
    simp only [hmark, h.openCount_eq]

/-! ## Trails from which nothing was deleted -/

/-- The mark that the newest acknowledgement of a severity among entries sets, 0 without one. -/
def lastAck (entries : List AuditEntry) (severity : Severity) : ℤ :=
  (entries.reverse.findSome? fun e => e.event.acknowledges severity).getD 0

/-- The newest acknowledgements among some entries. -/
def newestAckEntries (entries : List AuditEntry) (limit : ℕ) : List AuditEntry :=
  ((entries.filter fun e => e.event.kind = "alarms_acknowledged").reverse).take limit

/-- The newest acknowledgement of a severity is among the newer entries or among the older ones. -/
theorem lastAck_append (es fs : List AuditEntry) (severity : Severity) :
    lastAck (es ++ fs) severity =
      (fs.reverse.findSome? fun e => e.event.acknowledges severity).getD (lastAck es severity) := by
  rw [lastAck, List.reverse_append, List.findSome?_append, lastAck]
  cases fs.reverse.findSome? fun e => e.event.acknowledges severity <;> rfl

/-- Entries that are no acknowledgements leave the marks and the newest acknowledgements. -/
theorem acks_append {es : List AuditEntry} (hes : ∀ e ∈ es, e.event.kind ≠ "alarms_acknowledged")
    (entries : List AuditEntry) :
    lastAck (entries ++ es) = lastAck entries ∧
      newestAckEntries (entries ++ es) = newestAckEntries entries := by
  have hnone : ∀ severity,
      es.reverse.findSome? (fun e => e.event.acknowledges severity) = none := by
    intro severity
    rw [List.findSome?_eq_none_iff]
    intro e he
    exact AuditEvent.acknowledges_eq_none (hes e (List.mem_reverse.1 he)) severity
  have hfilter : es.filter (fun e => e.event.kind = "alarms_acknowledged") = [] := by
    rw [List.filter_eq_nil_iff]
    intro e he
    simpa using hes e he
  constructor
  · funext severity
    rw [lastAck, List.reverse_append, List.findSome?_append, hnone, Option.none_or, lastAck]
  · funext limit
    rw [newestAckEntries, List.filter_append, hfilter, List.append_nil, newestAckEntries]

/-- An acknowledgement among others sets the mark of its severity, leaves that of every other, and
is the newest acknowledgement. -/
theorem acks_append_cons {before after : List AuditEntry} {e : AuditEntry}
    (hothers : ∀ e ∈ before ++ after, e.event.kind ≠ "alarms_acknowledged")
    (he : e.event.kind = "alarms_acknowledged") (entries : List AuditEntry) :
    (∀ severity, lastAck (entries ++ (before ++ e :: after)) severity =
      (e.event.acknowledges severity).getD (lastAck entries severity)) ∧
      ∀ limit, newestAckEntries (entries ++ (before ++ e :: after)) (limit + 1) =
        e :: newestAckEntries entries limit := by
  have hbefore := acks_append (fun e he => hothers e (List.mem_append_left _ he)) entries
  have hafter := acks_append (fun e he => hothers e (List.mem_append_right _ he))
    (entries ++ before ++ [e])
  have hcat : entries ++ (before ++ e :: after) = entries ++ before ++ [e] ++ after := by simp
  rw [hcat, hafter.1, hafter.2]
  constructor
  · intro severity
    rw [← congrFun hbefore.1 severity, lastAck, List.reverse_append, List.reverse_singleton,
      List.singleton_append, List.findSome?_cons, lastAck]
    cases e.event.acknowledges severity <;> rfl
  · intro limit
    rw [← congrFun hbefore.2 limit, newestAckEntries, List.filter_append,
      List.filter_cons_of_pos (by simpa using he), List.filter_nil, List.reverse_append,
      List.reverse_singleton, List.singleton_append, List.take_succ_cons, newestAckEntries]

/-- Nothing was deleted. -/
def Complete (s : Trail) : Prop := s.db.audit.rows = s.written

/-- What an operation of the trail adds to the entries is what was appended, or nothing that
acknowledges. -/
theorem Chained.exists_new (h : Chained c s) {t : Trail} {op : Op} (hs : step c s op = some t) :
    ∃ es, t.entries = s.entries ++ es ∧
      ((∃ commits, op = .append commits es) ∨
        ∀ e ∈ es, e.event.kind ≠ "alarms_acknowledged") := by
  cases h.change hs with
  | closed | unchanged | opened | lost => exact ⟨[], by simp, .inr (by simp)⟩
  | truncated => exact ⟨_, rfl, .inr (by simp [truncatedEntry, AuditEntry.new, AuditEvent.kind])⟩
  | appended entries => exact ⟨entries, rfl, .inl ⟨true, rfl⟩⟩
  | pruned => exact ⟨_, rfl, .inr (by simp [prunedEntry, AuditEntry.new, AuditEvent.kind])⟩

/-- No operation of the trail breaks the chain or forgets an entry. -/
theorem Chained.keeps (h : Chained c s) {t : Trail} {op : Op} (hs : step c s op = some t) :
    Chained c t ∧ s.entries ⊆ t.entries := by
  obtain ⟨es, hentries, -⟩ := h.exists_new hs
  refine ⟨chained_step h hs, ?_⟩
  rw [hentries]
  exact List.subset_append_left ..

/-- Only retention runs and losses delete rows. -/
theorem Complete.step (hall : Complete s) (h : Chained c s) {t : Trail} {op : Op}
    (hprune : ∀ commits cutoff now stamp, op ≠ .pruneBefore commits cutoff now stamp)
    (hlose : ∀ n, op ≠ .lose n) (hs : Trail.step c s op = some t) : Complete t := by
  have hcommit : ∀ (es : List AuditEntry) (db : Database) (store : AuditStore),
      Wrote c s.db.audit.rows s.head es db store → Complete (s.commit es db store) := by
    intro es db store hw
    show db.audit.rows = s.written ++ newRows s.db db
    rw [hw.rows_eq, h.newRows_eq (List.Sublist.refl _) hw, hall]
  cases h.change hs with
  | closed | unchanged | opened => exact hall
  | truncated now db store _ hw => exact hcommit _ db store hw
  | appended entries db store _ hw => exact hcommit _ db store hw
  | pruned => exact absurd rfl (hprune _ _ _ _)
  | lost => exact absurd rfl (hlose _)

/-- A row stands for an entry. -/
def StandsFor (s : Trail) (row : Row) (e : AuditEntry) : Prop :=
  s.entryAt row.seq = some e ∧ row.kind = e.event.kind

/-- The rows stand for the entries, one by one. -/
theorem Complete.forall₂ (hall : Complete s) (h : Chained c s) :
    List.Forall₂ s.StandsFor s.db.audit.rows s.entries := by
  have hlength : s.db.audit.rows.length = s.entries.length := by
    rw [hall, h.written_eq, length_records]
  rw [List.forall₂_iff_get]
  refine ⟨hlength, fun i hi hi' => ?_⟩
  have hget : s.written[i]? = some (s.db.audit.rows.get ⟨i, hi⟩) := by
    rw [← hall, List.getElem?_eq_getElem hi]
    rfl
  have hseq := h.seq_getElem? hget
  obtain ⟨e, he, hrec⟩ := h.exists_entryAt (List.mem_of_getElem? hget)
  have hentry : e = s.entries.get ⟨i, hi'⟩ := by
    have hindex : ((i : ℤ) + 1 - 1).toNat = i := by omega
    rw [entryAt, hseq, hindex, List.getElem?_eq_getElem hi', Option.some.injEq] at he
    exact he.symm
  subst hentry
  refine ⟨he, ?_⟩
  rw [hrec]
  rfl

/-- A row acknowledges what its entry does. -/
theorem StandsFor.ackOf_eq {e : AuditEntry} (h : s.StandsFor row e) (severity : Severity) :
    s.ackOf severity row = e.event.acknowledges severity := by
  rw [ackOf, h.1, Option.bind_some]

/-- The first result is the same on lists that stand for each other. -/
theorem findSome?_of_forall₂ {rows : List Row} {entries : List AuditEntry}
    (h : List.Forall₂ s.StandsFor rows entries) (severity : Severity) :
    rows.findSome? (s.ackOf severity) =
      entries.findSome? fun e => e.event.acknowledges severity := by
  induction h with
  | nil => rfl
  | cons hrow _ ih => rw [List.findSome?_cons, List.findSome?_cons, hrow.ackOf_eq, ih]

/-- A trail that holds all its records has the marks of the last acknowledgements. -/
theorem Complete.newestMark_eq (hall : Complete s) (h : Chained c s) (severity : Severity) :
    s.newestMark severity = lastAck s.entries severity := by
  rw [newestMark, lastAck,
    findSome?_of_forall₂ (List.forall₂_reverse_iff.2 (hall.forall₂ h)) severity]

/-- A severity is acknowledged in the trail exactly if one of the entries acknowledges it. -/
theorem Complete.exists_row_iff (hall : Complete s) (h : Chained c s) (severity : Severity) :
    (∃ row ∈ s.db.audit.rows, (s.ackOf severity row).isSome) ↔
      ∃ e ∈ s.entries, (e.event.acknowledges severity).isSome := by
  have := findSome?_of_forall₂ (hall.forall₂ h) severity
  rw [← List.findSome?_isSome_iff, ← List.findSome?_isSome_iff, this]

/-- A severity is acknowledged among the newest rows exactly if the newest entries do so. -/
theorem Complete.exists_newest_iff (hall : Complete s) (h : Chained c s) (limit : ℕ)
    (severity : Severity) :
    (∃ row ∈ newestAcks s.db limit, (s.ackOf severity row).isSome) ↔
      ∃ e ∈ newestAckEntries s.entries limit, (e.event.acknowledges severity).isSome := by
  have hfilter : List.Forall₂ s.StandsFor
      (s.db.audit.rows.filter fun row => row.kind = "alarms_acknowledged")
      (s.entries.filter fun e => e.event.kind = "alarms_acknowledged") := by
    apply List.rel_filter _ (hall.forall₂ h)
    intro row e hrow
    simp [hrow.2]
  have hnewest : List.Forall₂ s.StandsFor (newestAcks s.db limit)
      (newestAckEntries s.entries limit) :=
    List.forall₂_take limit (List.forall₂_reverse_iff.2 hfilter)
  rw [← List.findSome?_isSome_iff, ← List.findSome?_isSome_iff,
    findSome?_of_forall₂ hnewest severity]

end Trail

end AuditGateway
