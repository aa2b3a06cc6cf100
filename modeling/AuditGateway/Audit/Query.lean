import AuditGateway.Audit.Store
import Mathlib.Data.Fintype.Defs

set_option relaxedAutoImplicit false
set_option autoImplicit false

/-!
# Reading the trail

The queries of the readers: the next records behind a number, and the number of the newest one. A
record is read by parsing the body of its row, and one that cannot be parsed fails the whole query.

## Main definitions

* `StoredRecord`, `Row.stored` — a record as it is read.
* `queryAfter`, `queryKinds`, `headSeq` — the queries.

## Main results

* `exists_row_of_queryAfter`, `exists_record_of_queryAfter` — what the next records are.
* `le_headSeq` — no record is newer than the newest.
-/

namespace AuditGateway

/-- A record as it is read from the trail. -/
structure StoredRecord where
  seq : ℤ
  hash : String
  prevHash : String
  entry : AuditEntry

/-- A row as it is read. The entry is parsed from the body. -/
def Row.stored (c : Crates) (row : Row) : Except String StoredRecord :=
  match c.fromJson row.body with
  | .error e =>
    .error ("audit record " ++ toString row.seq ++ " has an unreadable body: " ++ e)
  | .ok entry => .ok ⟨row.seq, row.hash, row.prevHash, entry⟩

/-- The rows as they are read; the first one that cannot be read is an error. -/
def storedRecords (c : Crates) : List Row → Except String (List StoredRecord)
  | [] => .ok []
  | row :: rows => do
    let record ← row.stored c
    let records ← storedRecords c rows
    return record :: records

/-- Records after `afterSeq`, oldest first. -/
def queryAfter (c : Crates) (db : Database) (afterSeq : ℤ) (limit : ℕ) :
    Except String (List StoredRecord) :=
  storedRecords c (db.audit.rowsAfter afterSeq limit)

/-- Sequence number of the newest record (0 when empty). -/
def headSeq (db : Database) : ℤ := (db.audit.rows.map (·.seq)).max?.getD 0

/-- No record is newer than the newest. -/
theorem le_headSeq {db : Database} {row : Row} (h : row ∈ db.audit.rows) :
    row.seq ≤ headSeq db := by
  have hmem : row.seq ∈ db.audit.rows.map (·.seq) := List.mem_map_of_mem h
  unfold headSeq
  cases hmax : (db.audit.rows.map (·.seq)).max? with
  | none =>
    rw [List.max?_eq_none_iff.1 hmax] at hmem
    cases hmem
  | some n => exact (List.max?_eq_some_iff.1 hmax).2 _ hmem

/-- Without negative numbers the newest one is not negative. -/
theorem headSeq_nonneg {db : Database} (h : ∀ row ∈ db.audit.rows, 0 ≤ row.seq) :
    0 ≤ headSeq db := by
  cases hrows : db.audit.rows with
  | nil => simp [headSeq, hrows]
  | cons row rows =>
    have hrow : row ∈ db.audit.rows := by simp [hrows]
    exact (h row hrow).trans (le_headSeq hrow)

/-- The newest records of some kinds behind `afterSeq` and before `beforeSeq`, newest first. -/
def queryKinds (c : Crates) (db : Database) (kinds : List String) (afterSeq : ℤ)
    (beforeSeq : Option ℤ) (limit : ℕ) : Except String (List StoredRecord) :=
  storedRecords c (((db.audit.rows.filter fun row => afterSeq < row.seq ∧
    (∀ before ∈ beforeSeq, row.seq < before) ∧ row.kind ∈ kinds).reverse).take
      (min (max limit 1) 1000))

variable {c : Crates}

/-- A record carries number and hashes of its row. -/
theorem Row.exists_of_stored {row : Row} {record : StoredRecord} (h : row.stored c = .ok record) :
    ∃ entry, record = ⟨row.seq, row.hash, row.prevHash, entry⟩ := by
  unfold Row.stored at h
  cases hparse : c.fromJson row.body with
  | error e => simp [hparse] at h
  | ok entry =>
    simp only [hparse, Except.ok.injEq] at h
    exact ⟨entry, h.symm⟩

/-- A stored record keeps its number. -/
theorem Row.seq_of_stored {row : Row} {record : StoredRecord} (h : row.stored c = .ok record) :
    record.seq = row.seq := by
  obtain ⟨entry, rfl⟩ := Row.exists_of_stored h
  rfl

/-- A list of rows is read row by row. -/
theorem storedRecords_cons_eq_ok {row : Row} {rows : List Row} {records : List StoredRecord} :
    storedRecords c (row :: rows) = .ok records ↔
      ∃ record rest, row.stored c = .ok record ∧ storedRecords c rows = .ok rest ∧
        records = record :: rest := by
  rw [storedRecords]
  cases hrow : row.stored c with
  | error e => simp [bind, Except.bind]
  | ok record =>
    cases hrows : storedRecords c rows with
    | error e => simp [bind, Except.bind]
    | ok rest => simp [bind, Except.bind, pure, Except.pure, eq_comm]

/-- The records read are those of the rows. -/
theorem mem_storedRecords {rows : List Row} {records : List StoredRecord}
    (h : storedRecords c rows = .ok records) {record : StoredRecord} :
    record ∈ records ↔ ∃ row ∈ rows, row.stored c = .ok record := by
  induction rows generalizing records with
  | nil =>
    cases h
    simp
  | cons row rows ih =>
    obtain ⟨first, rest, hrow, hrows, rfl⟩ := storedRecords_cons_eq_ok.1 h
    have hfirst : row.stored c = .ok record ↔ record = first := by
      rw [hrow, Except.ok.injEq, eq_comm]
    simp only [List.mem_cons, ih hrows, exists_eq_or_imp, hfirst]

/-- The records read carry the numbers of the rows. -/
theorem map_seq_storedRecords {rows : List Row} {records : List StoredRecord}
    (h : storedRecords c rows = .ok records) :
    records.map (·.seq) = rows.map (·.seq) := by
  induction rows generalizing records with
  | nil =>
    cases h
    rfl
  | cons row rows ih =>
    obtain ⟨first, rest, hrow, hrows, rfl⟩ := storedRecords_cons_eq_ok.1 h
    rw [List.map_cons, List.map_cons, Row.seq_of_stored hrow, ih hrows]

section Batch

variable {db : Database} {afterSeq : ℤ} {limit : ℕ} {records : List StoredRecord}
  {record last : StoredRecord} {row : Row}

/-- Every record of a batch is that of a row behind the position. -/
theorem exists_row_of_queryAfter (h : queryAfter c db afterSeq limit = .ok records)
    (hr : record ∈ records) :
    ∃ row ∈ db.audit.rows, afterSeq < row.seq ∧ row.stored c = .ok record := by
  obtain ⟨row, hrow, hread⟩ := (mem_storedRecords h).1 hr
  obtain ⟨hmem, hlt⟩ := KeyTable.mem_rows_of_mem_rowsAfter hrow
  exact ⟨row, hmem, hlt, hread⟩

/-- A batch leaves out no row between the position and any of its records. -/
theorem exists_record_of_queryAfter (h : queryAfter c db afterSeq limit = .ok records)
    (hrow : row ∈ db.audit.rows) (hlt : afterSeq < row.seq) (hr : record ∈ records)
    (hle : row.seq ≤ record.seq) : ∃ record ∈ records, row.stored c = .ok record := by
  obtain ⟨row', hrow', hread'⟩ := (mem_storedRecords h).1 hr
  rw [Row.seq_of_stored hread'] at hle
  have hmem := KeyTable.mem_rowsAfter_of_le hrow hlt hrow' hle
  have hseqs : row.seq ∈ records.map (·.seq) := by
    rw [map_seq_storedRecords h]
    exact List.mem_map_of_mem hmem
  obtain ⟨found, hfound, hseq⟩ := List.mem_map.1 hseqs
  obtain ⟨row'', hrow'', hread''⟩ := (mem_storedRecords h).1 hfound
  have hsame : row'' = row := by
    apply KeyTable.eq_of_key_eq (KeyTable.mem_rows_of_mem_rowsAfter hrow'').1 hrow
    rw [← Row.seq_of_stored hread'', hseq]
  exact ⟨found, hfound, hsame ▸ hread''⟩

/-- The last record of a batch carries its largest number. -/
theorem seq_le_last_of_queryAfter (h : queryAfter c db afterSeq limit = .ok records)
    (hlast : records.getLast? = some last) (hr : record ∈ records) : record.seq ≤ last.seq := by
  have hsorted : (records.map (·.seq)).Pairwise (· < ·) := by
    rw [map_seq_storedRecords h, List.pairwise_map]
    exact KeyTable.pairwise_rowsAfter ..
  rw [List.pairwise_map] at hsorted
  obtain ⟨init, rfl⟩ := List.getLast?_eq_some_iff.1 hlast
  rcases List.mem_append.1 hr with hr | hr
  · exact ((List.pairwise_append.1 hsorted).2.2 record hr last (List.mem_singleton_self _)).le
  · rw [List.mem_singleton.1 hr]

end Batch

end AuditGateway
