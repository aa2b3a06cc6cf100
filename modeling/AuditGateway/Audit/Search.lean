import AuditGateway.Audit.Query
import AuditGateway.Config.Target
import Mathlib.Data.List.Infix

set_option relaxedAutoImplicit false
set_option autoImplicit false

/-!
# Searching the trail

The query behind the pages and the exports: the newest records that pass every filter that is set,
newest first. A filter compares columns of the row; those for the user and the node also look into
its body, with the JSON functions of SQLite.

## Main definitions

* `AuditQuery`, `query` — the filters and the search.

## Main results

* `storedRecords_eq_ok` — a search fails on no rows but unreadable ones.
-/

namespace AuditGateway

/-- The functions of SQLite that a search uses. -/
structure SqlFunctions where
  lower : String → String
  /-- The text at a path in a JSON text, if there is one. -/
  jsonExtract : String → String → Option String

/-- Filter for `query`. What is not set does not filter. -/
structure AuditQuery where
  target : Option String := none
  kind : Option String := none
  user : Option String := none
  nodeId : Option String := none
  since : Option DateTime := none
  «until» : Option DateTime := none
  beforeSeq : Option ℤ := none
  afterSeq : Option ℤ := none
  /-- Several kinds, comma separated. -/
  kinds : Option String := none
  limit : Option ℕ := none

namespace SqlFunctions

/-- Whether a text has a part, ignoring case. No text has no part. -/
def hasPart (sql : SqlFunctions) (text : Option String) (part : String) : Bool :=
  text.any fun text => (sql.lower part).toList <:+: (sql.lower text).toList

end SqlFunctions

namespace AuditQuery

/-- The kinds that are asked for. -/
def kindList (q : AuditQuery) : List String :=
  ((q.kinds.elim [] fun kinds => kinds.splitOn ",").map trim).filter fun kind => kind ≠ ""

/-- Whether a row passes every filter. -/
def selects (c : Crates) (sql : SqlFunctions) (q : AuditQuery) (row : Row) : Bool :=
  let user :=
    row.user.or ((sql.jsonExtract row.body "$.event.by").or
      (sql.jsonExtract row.body "$.event.user"))
  let displayName := sql.jsonExtract row.body "$.event.display_name"
  q.target.all (fun target => row.target = some target) &&
    q.kind.all (fun kind => row.kind = kind) &&
    q.user.all (sql.hasPart user) &&
    q.nodeId.all (fun node => sql.hasPart row.nodeId node || sql.hasPart displayName node) &&
    q.since.all (fun since => tsColumn c since ≤ row.ts) &&
    q.until.all (fun «until» => row.ts < tsColumn c «until») &&
    q.beforeSeq.all (fun before => row.seq < before) &&
    q.afterSeq.all (fun after => after < row.seq) &&
    (q.kindList.isEmpty || q.kindList.contains row.kind)

end AuditQuery

/-- Newest records first. -/
def query (c : Crates) (sql : SqlFunctions) (db : Database) (q : AuditQuery) :
    Except String (List StoredRecord) :=
  storedRecords c (((db.audit.rows.filter (q.selects c sql)).reverse).take
    (min (max (q.limit.getD 100) 1) 1000))

variable {c : Crates}

/-- Rows that can be read one by one can be read together. -/
theorem storedRecords_eq_ok {rows : List Row}
    (h : ∀ row ∈ rows, ∃ record, row.stored c = .ok record) :
    ∃ records, storedRecords c rows = .ok records := by
  induction rows with
  | nil => exact ⟨[], rfl⟩
  | cons row rows ih =>
    obtain ⟨⟨record, hrecord⟩, hrows⟩ := List.forall_mem_cons.1 h
    obtain ⟨records, hrecords⟩ := ih hrows
    exact ⟨record :: records, storedRecords_cons_eq_ok.2 ⟨_, _, hrecord, hrecords, rfl⟩⟩

/-- Rows that were read together can be read one by one. -/
theorem exists_stored_of_storedRecords {rows : List Row} {records : List StoredRecord}
    (h : storedRecords c rows = .ok records) {row : Row} (hrow : row ∈ rows) :
    ∃ record ∈ records, row.stored c = .ok record := by
  induction rows generalizing records with
  | nil => cases hrow
  | cons row rows ih =>
    obtain ⟨first, rest, hfirst, hrest, rfl⟩ := storedRecords_cons_eq_ok.1 h
    rcases List.mem_cons.1 hrow with rfl | hrow
    · exact ⟨first, List.mem_cons_self, hfirst⟩
    · obtain ⟨record, hrecord, hstored⟩ := ih hrest hrow
      exact ⟨record, List.mem_cons_of_mem _ hrecord, hstored⟩

/-- An error is that of a row. -/
theorem exists_error_of_storedRecords {rows : List Row} {e : String}
    (h : storedRecords c rows = .error e) : ∃ row ∈ rows, row.stored c = .error e := by
  induction rows with
  | nil => cases h
  | cons row rows ih =>
    rw [storedRecords] at h
    cases hrow : row.stored c with
    | error e' =>
      rw [hrow] at h
      exact ⟨row, List.mem_cons_self, hrow.trans (congrArg _ (Except.error.inj h))⟩
    | ok record =>
      cases hrows : storedRecords c rows with
      | error e' =>
        rw [hrow, hrows] at h
        obtain ⟨row', hrow', herror⟩ := ih (hrows.trans (congrArg _ (Except.error.inj h)))
        exact ⟨row', List.mem_cons_of_mem _ hrow', herror⟩
      | ok rest =>
        rw [hrow, hrows] at h
        cases h

/-- What a query finds is in front of its bound. -/
theorem AuditQuery.lt_before {sql : SqlFunctions} {q : AuditQuery} {row : Row}
    (h : q.selects c sql row) {before : ℤ} (hbefore : before ∈ q.beforeSeq) : row.seq < before := by
  simp only [AuditQuery.selects, Bool.and_eq_true, Option.all_eq_true, decide_eq_true_eq] at h
  exact h.1.1.2 before hbefore

/-- A search that begins lower finds of the same rows those that are lower. -/
theorem AuditQuery.selects_before {sql : SqlFunctions} {q : AuditQuery} {before : ℤ}
    (h : ∀ b ∈ q.beforeSeq, before ≤ b) (row : Row) :
    ({ q with beforeSeq := some before } : AuditQuery).selects c sql row ↔
      q.selects c sql row ∧ row.seq < before := by
  have hold : row.seq < before → q.beforeSeq.all (fun b => row.seq < b) := by
    intro hlt
    rw [Option.all_eq_true]
    intro b hb
    exact decide_eq_true (hlt.trans_le (h b hb))
  simp only [AuditQuery.selects, AuditQuery.kindList, Option.all_some, Bool.and_eq_true,
    decide_eq_true_eq] at hold ⊢
  tauto

section Readable

variable {db : Database} (h : ∀ row ∈ db.audit.rows, ∃ record, row.stored c = .ok record)

include h

/-- No query fails. -/
theorem query_eq_ok (sql : SqlFunctions) (q : AuditQuery) :
    ∃ records, query c sql db q = .ok records := by
  refine storedRecords_eq_ok fun row hrow => h row ?_
  exact List.mem_of_mem_filter (List.mem_reverse.1 (List.mem_of_mem_take hrow))

/-- No query behind a number fails. -/
theorem queryAfter_eq_ok (afterSeq : ℤ) (limit : ℕ) :
    ∃ records, queryAfter c db afterSeq limit = .ok records :=
  storedRecords_eq_ok fun row hrow => h row (KeyTable.mem_rows_of_mem_rowsAfter hrow).1

end Readable

end AuditGateway
