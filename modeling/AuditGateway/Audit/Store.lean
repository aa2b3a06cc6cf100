import AuditGateway.Audit.Event
import AuditGateway.Lib.HashChain
import AuditGateway.Lib.KeyTable

set_option relaxedAutoImplicit false
set_option autoImplicit false

/-!
# The audit store

The functions of the SQLite-backed store: records form a hash chain, each stores the hash of
its predecessor and `sha256(prev_hash "\n" seq "\n" body)`, and a one-row table keeps the newest
record ever written. A transaction that fails leaves the database as it was, so the functions
that write return the new database and the new head, and a caller keeps the old ones on an
error.

## Main definitions

* `Crates` — the functions of other crates the store calls.
* `recordHash`, `columns`, `record` — what is stored for an entry.
* `Database` — the tables; `AuditStore` — the head kept in memory.
* `insert`, `append`, `openStore`, `pruneBefore` — the writing operations.
* `Wrote` — what a committed transaction leaves behind.

## Main results

* `insert_eq_ok` — an insertion behind the newest record succeeds and writes the entries.
* `append_inv`, `openStore_inv`, `pruneBefore_inv` — what each operation can do.
-/

namespace AuditGateway

/-! ## What the store takes from elsewhere -/

/-- The functions of other crates the store calls. -/
structure Crates where
  /-- The SHA-256 digest. -/
  sha256 : ByteArray → List UInt8
  /-- The JSON text of an entry. -/
  toJson : AuditEntry → String
  /-- An entry read from its JSON text. -/
  fromJson : String → Except String AuditEntry
  /-- An instant as RFC 3339 text with microseconds and `Z`. -/
  rfc3339 : DateTime → String

/-- The hash in front of the first record. -/
def genesisHash : String := "0000000000000000000000000000000000000000000000000000000000000000"

/-- Most records one retention run deletes. -/
def maxPrune : ℤ := 20000

/-! ## Records -/

/-- One of the sixteen lower-case hexadecimal digits. -/
def hexDigit (n : ℕ) : Char := (Nat.digitChar n)

/-- Bytes as lower-case hexadecimal text. -/
def hexEncode (bytes : List UInt8) : String :=
  String.ofList (bytes.flatMap fun b => [hexDigit (b.toNat / 16), hexDigit (b.toNat % 16)])

/-- The text a record's hash is taken of. -/
def hashInput (prevHash : String) (seq : ℤ) (body : String) : String :=
  prevHash ++ "\n" ++ toString seq ++ "\n" ++ body

/-- The hash of a record, over the one before it, its number and its body. -/
def recordHash (c : Crates) (prevHash : String) (seq : ℤ) (body : String) : String :=
  hexEncode (c.sha256 (hashInput prevHash seq body).toUTF8)

/-- Fixed-width UTC timestamps, so that string order equals time order in SQL. -/
def tsColumn (c : Crates) (ts : DateTime) : String := c.rfc3339 ts

/-- The indexed columns of a record. -/
structure Columns where
  ts : String
  target : Option String
  kind : String
  remoteAddr : Option String
  applicationUri : Option String
  user : Option String
  nodeId : Option String
  deriving DecidableEq

/-- The indexed columns of an entry: `insert` writes them and `verifyChain` checks them. -/
def columns (c : Crates) (entry : AuditEntry) : Columns where
  ts := tsColumn c entry.ts
  target := entry.target
  kind := entry.event.kind
  remoteAddr := entry.client.map (·.remoteAddr)
  applicationUri := entry.client.bind (·.applicationUri)
  user := (entry.client.bind (·.user)).map (·.label)
  nodeId := entry.event.nodeId

/-- A row of the `audit` table. -/
structure Row extends Columns where
  seq : ℤ
  body : String
  prevHash : String
  hash : String
  deriving DecidableEq

/-- The row stored for an entry under number `seq` behind a record with hash `prevHash`. -/
def record (c : Crates) (seq : ℤ) (prevHash : String) (entry : AuditEntry) : Row where
  toColumns := columns c entry
  seq := seq
  body := c.toJson entry
  prevHash := prevHash
  hash := recordHash c prevHash seq (c.toJson entry)

/-- A record has the number it was made with. -/
@[simp] theorem record_seq (c : Crates) (n : ℤ) (h : String) (e : AuditEntry) :
    (record c n h e).seq = n := rfl

/-- A record names the hash before it. -/
@[simp] theorem record_prevHash (c : Crates) (n : ℤ) (h : String) (e : AuditEntry) :
    (record c n h e).prevHash = h := rfl

/-- The body of a record is the text of its entry. -/
@[simp] theorem record_body (c : Crates) (n : ℤ) (h : String) (e : AuditEntry) :
    (record c n h e).body = c.toJson e := rfl

/-- The rows for a list of entries behind record `n` with hash `h`. -/
def records (c : Crates) (n : ℤ) (h : String) (entries : List AuditEntry) : List Row :=
  HashChain.chainFrom Row.hash (record c) n h entries

/-- Number and hash of the newest of some rows, `(n, h)` if there is none. -/
def headOf (n : ℤ) (h : String) (rows : List Row) : ℤ × String :=
  HashChain.headAfter Row.seq Row.hash n h rows

/-- Consecutive numbers, and each row names the hash of the one before it. -/
def Linked (rows : List Row) : Prop := HashChain.Linked Row.seq Row.prevHash Row.hash rows

/-! ## The database -/

/-- The two tables of the audit database. -/
structure Database where
  /-- The records, in the order of their number (the primary key). -/
  audit : KeyTable Row Row.seq
  /-- The newest record ever written: number and hash. -/
  chainHead : Option (ℤ × String)

/-- A database with the schema just created. -/
def Database.empty : Database := ⟨KeyTable.empty Row.seq, none⟩

/-- The head the single writer keeps in memory. -/
structure AuditStore where
  lastSeq : ℤ
  lastHash : String

/-- Why a statement of the store fails. -/
inductive StoreError
  /-- A statement or the commit failed. -/
  | sqlite
  /-- A query that must return a row returned none. -/
  | noRows
  /-- The number of a new record is taken. -/
  | keyTaken
  deriving DecidableEq

/-- The loop of `insert`: one row for each entry, each behind the one before it. -/
def insertRows (c : Crates) (audit : KeyTable Row Row.seq) (seq : ℤ) (hash : String)
    (seqs : List ℤ) : List AuditEntry →
      Except StoreError (KeyTable Row Row.seq × List ℤ × ℤ × String)
  | [] => .ok (audit, seqs, seq, hash)
  | entry :: entries =>
    let row := record c (seq + 1) hash entry
    match audit.insertRow row with
    | none => .error .keyTaken
    | some audit => insertRows c audit (seq + 1) row.hash (seqs ++ [seq + 1]) entries

/-- Inserts entries after (`seq`, `hash`) and moves the chain head along. Returns the database,
their numbers and the new head. -/
def insert (c : Crates) (db : Database) (entries : List AuditEntry) (seq : ℤ) (hash : String) :
    Except StoreError (Database × List ℤ × ℤ × String) := do
  let (audit, seqs, seq, hash) ← insertRows c db.audit seq hash [] entries
  return (⟨audit, some (seq, hash)⟩, seqs, seq, hash)

/-- Appends entries in one transaction and returns their numbers. `commits` says whether SQLite
commits the transaction. -/
def append (c : Crates) (commits : Bool) (db : Database) (store : AuditStore)
    (entries : List AuditEntry) : Except StoreError (List ℤ × Database × AuditStore) := do
  let (db, seqs, seq, hash) ← insert c db entries store.lastSeq store.lastHash
  if commits then return (seqs, db, ⟨seq, hash⟩) else throw .sqlite

/-- The number of the newest row, 0 without rows. -/
def foundSeq (db : Database) : ℤ := db.audit.lastRow.elim 0 (·.seq)

/-- Where the numbering continues at start, and whether the newest records are missing.
Numbers are never reused: continue after the newest record ever written, even if it is gone. -/
def openHead (db : Database) : ℤ × String × Bool :=
  match db.chainHead.filter fun written => foundSeq db < written.1, db.audit.lastRow with
  | some (seq, hash), _ => (seq, hash, true)
  | none, some row => (row.seq, row.hash, false)
  | none, none => (0, genesisHash, false)

/-- The record of a trail whose newest records are missing. -/
def truncatedEntry (now : DateTime) (lastSeq found : ℤ) : AuditEntry :=
  AuditEntry.new now (.trailTruncated lastSeq found)

/-- Opens the store (`AuditStore::open`). -/
def openStore (c : Crates) (commits : Bool) (now : DateTime) (db : Database) :
    Except StoreError (Database × AuditStore) :=
  match openHead db with
  | (lastSeq, lastHash, true) => do
    let (_, db, store) ←
      append c commits db ⟨lastSeq, lastHash⟩ [truncatedEntry now lastSeq (foundSeq db)]
    return (db, store)
  | (lastSeq, lastHash, false) => .ok (db, ⟨lastSeq, lastHash⟩)

/-- The record of a retention run. -/
def prunedEntry (now : DateTime) (deleted : ℕ) (lastSeq : ℤ) (lastHash : String) : AuditEntry :=
  AuditEntry.new now (.retentionPruned deleted lastSeq lastHash)

/-- Number and hash of the last record a retention run deletes, `none` if it deletes nothing:
the queries of `prune_before` before its transaction. -/
def pruneRange (c : Crates) (cutoff now : DateTime) (db : Database) :
    Except StoreError (Option (ℤ × String)) :=
  match db.audit.lastRow with
  | none => .ok none
  | some head =>
    -- nothing is deleted while the newest record is dated in the future
    if tsColumn c (now.addMinutes 5) < head.ts then .ok none
    else
      match db.audit.minKeyWhere fun _ => True with
      | none => .error .noRows
      | some firstSeq =>
        let firstKept := db.audit.minKeyWhere fun row => tsColumn c cutoff ≤ row.ts
        let lastSeq :=
          min (min (firstKept.getD head.seq) head.seq - 1) (firstSeq + maxPrune - 1)
        if lastSeq < firstSeq then .ok none
        else
          match db.audit.rowAt lastSeq with
          | none => .error .noRows
          | some row => .ok (some (lastSeq, row.hash))

/-- Deletes records older than `cutoff` and, in the same transaction, appends a retention
record. Returns the number deleted. The clock is read twice: `now` for the comparison with the
newest record, `stamp` for the retention record. -/
def pruneBefore (c : Crates) (commits : Bool) (cutoff now stamp : DateTime) (db : Database)
    (store : AuditStore) : Except StoreError (ℕ × Database × AuditStore) := do
  match ← pruneRange c cutoff now db with
  | none => return (0, db, store)
  | some (lastSeq, lastHash) =>
    let deleted := (db.audit.rows.filter fun row => row.seq ≤ lastSeq).length
    let kept := { db with audit := db.audit.deleteWhere fun row => row.seq ≤ lastSeq }
    let (db, _, seq, hash) ←
      insert c kept [prunedEntry stamp deleted lastSeq lastHash] store.lastSeq store.lastHash
    if commits then return (deleted, db, ⟨seq, hash⟩) else throw .sqlite

/-! ## What an operation does -/

/-- No entry makes no record. -/
@[simp] theorem records_nil (c : Crates) (n : ℤ) (h : String) : records c n h [] = [] := rfl

/-- The record of the first entry, and those of the others behind it. -/
theorem records_cons (c : Crates) (n : ℤ) (h : String) (e : AuditEntry) (es : List AuditEntry) :
    records c n h (e :: es) =
      record c (n + 1) h e :: records c (n + 1) (record c (n + 1) h e).hash es := rfl

/-- Every entry makes one record. -/
@[simp] theorem length_records (c : Crates) (n : ℤ) (h : String) (es : List AuditEntry) :
    (records c n h es).length = es.length := HashChain.length_chainFrom n h es

/-- New rows are numbered behind the head. -/
theorem lt_seq_of_mem_records {c : Crates} {n : ℤ} {h : String} {es : List AuditEntry} {r : Row}
    (hr : r ∈ records c n h es) : n < r.seq :=
  HashChain.lt_num_of_mem_chainFrom (record_seq c) hr

/-- New rows are linked. -/
theorem linked_records (c : Crates) (n : ℤ) (h : String) (es : List AuditEntry) :
    Linked (records c n h es) :=
  (HashChain.linked_chainFrom (record_seq c) (record_prevHash c) n h es).1

/-- A new row is the record of one of the entries. -/
theorem exists_of_mem_records {c : Crates} {n : ℤ} {h : String} {es : List AuditEntry} {r : Row}
    (hr : r ∈ records c n h es) : ∃ e ∈ es, r = record c r.seq r.prevHash e := by
  obtain ⟨e, he, k, p, rfl⟩ := HashChain.exists_of_mem_chainFrom hr
  exact ⟨e, he, rfl⟩

/-- The loop of `insert` appends the rows of the entries, if the table has none behind the
head.

**Proof sketch.** Induction on the entries: the first row goes behind all others, and the
numbers of the table are then at most its own. -/
theorem insertRows_eq_ok (c : Crates) {audit : KeyTable Row Row.seq} {seq : ℤ}
    (hash : String) (h : ∀ r ∈ audit.rows, r.seq ≤ seq) (seqs : List ℤ)
    (entries : List AuditEntry) :
    ∃ audit', insertRows c audit seq hash seqs entries =
        .ok (audit', seqs ++ (records c seq hash entries).map (·.seq),
          headOf seq hash (records c seq hash entries)) ∧
      audit'.rows = audit.rows ++ records c seq hash entries := by
  induction entries generalizing audit seq hash seqs with
  | nil => exact ⟨audit, by simp [insertRows, headOf], by simp⟩
  | cons e es ih =>
    have hlt : ∀ r ∈ audit.rows, r.seq < (record c (seq + 1) hash e).seq := by
      intro r hr
      have := h r hr
      rw [record_seq]
      omega
    obtain ⟨audit', hins, hrows⟩ := KeyTable.insertRow_of_lt hlt
    have hle : ∀ r ∈ audit'.rows, r.seq ≤ seq + 1 := by
      intro r hr
      rw [hrows, List.mem_append, List.mem_singleton] at hr
      rcases hr with hr | rfl
      · exact (hlt r hr).le
      · exact le_rfl
    obtain ⟨audit'', hloop, hrows'⟩ :=
      ih (record c (seq + 1) hash e).hash hle (seqs ++ [seq + 1])
    refine ⟨audit'', ?_, ?_⟩
    · simp only [insertRows, hins, hloop, records_cons, headOf, HashChain.headAfter_cons,
        List.map_cons, List.append_assoc, List.singleton_append, record_seq]
    · rw [hrows', hrows, records_cons, List.append_assoc, List.singleton_append]

/-- What a committed transaction leaves behind: the rows of the entries behind those that were
there, and the chain head and the head in memory on the newest of them. -/
structure Wrote (c : Crates) (rows : List Row) (head : ℤ × String) (entries : List AuditEntry)
    (db : Database) (store : AuditStore) : Prop where
  rows_eq : db.audit.rows = rows ++ records c head.1 head.2 entries
  chainHead_eq : db.chainHead = some (headOf head.1 head.2 (records c head.1 head.2 entries))
  store_eq : (store.lastSeq, store.lastHash) =
    headOf head.1 head.2 (records c head.1 head.2 entries)

/-- An insertion behind the newest record succeeds and writes the entries. -/
theorem insert_eq_ok (c : Crates) {db : Database} {seq : ℤ} (hash : String)
    (h : ∀ r ∈ db.audit.rows, r.seq ≤ seq) (entries : List AuditEntry) :
    ∃ db' seq' hash', insert c db entries seq hash =
        .ok (db', (records c seq hash entries).map (·.seq), seq', hash') ∧
      Wrote c db.audit.rows (seq, hash) entries db' ⟨seq', hash'⟩ := by
  obtain ⟨audit, hloop, hrows⟩ := insertRows_eq_ok c hash h [] entries
  set head := headOf seq hash (records c seq hash entries) with hhead
  refine ⟨⟨audit, some head⟩, head.1, head.2, ?_, ⟨hrows, rfl, rfl⟩⟩
  rw [insert, hloop]
  rfl

/-- An append that returns has committed its entries and returns their numbers. -/
theorem append_inv {c : Crates} {commits : Bool} {db db' : Database} {store store' : AuditStore}
    {entries : List AuditEntry} {seqs : List ℤ}
    (h : ∀ r ∈ db.audit.rows, r.seq ≤ store.lastSeq)
    (ha : append c commits db store entries = .ok (seqs, db', store')) :
    commits = true ∧ seqs = (records c store.lastSeq store.lastHash entries).map (·.seq) ∧
      Wrote c db.audit.rows (store.lastSeq, store.lastHash) entries db' store' := by
  obtain ⟨db₁, seq₁, hash₁, hins, hwrote⟩ := insert_eq_ok c store.lastHash h entries
  rw [append, hins] at ha
  cases commits with
  | false => cases ha
  | true =>
    cases ha
    exact ⟨rfl, rfl, hwrote⟩

/-- An append whose transaction commits returns. -/
theorem append_eq_ok {c : Crates} {db : Database} {store : AuditStore}
    (h : ∀ r ∈ db.audit.rows, r.seq ≤ store.lastSeq) (entries : List AuditEntry) :
    ∃ db' store', append c true db store entries =
      .ok ((records c store.lastSeq store.lastHash entries).map (·.seq), db', store') := by
  obtain ⟨db₁, seq₁, hash₁, hins, -⟩ := insert_eq_ok c store.lastHash h entries
  refine ⟨db₁, ⟨seq₁, hash₁⟩, ?_⟩
  rw [append, hins]
  rfl

/-- An append whose transaction does not commit is an error. -/
theorem append_false {c : Crates} {db : Database} {store : AuditStore}
    (h : ∀ r ∈ db.audit.rows, r.seq ≤ store.lastSeq) (entries : List AuditEntry) :
    append c false db store entries = .error .sqlite := by
  obtain ⟨db₁, seq₁, hash₁, hins, -⟩ := insert_eq_ok c store.lastHash h entries
  rw [append, hins]
  rfl

/-- A start that succeeds has either recorded that the newest records are missing, or changed
nothing. -/
theorem openStore_inv {c : Crates} {commits : Bool} {now : DateTime} {db db' : Database}
    {store' : AuditStore} (h : ∀ r ∈ db.audit.rows, r.seq ≤ (openHead db).1)
    (ho : openStore c commits now db = .ok (db', store')) :
    ((openHead db).2.2 = true ∧ commits = true ∧
        Wrote c db.audit.rows ((openHead db).1, (openHead db).2.1)
          [truncatedEntry now (openHead db).1 (foundSeq db)] db' store') ∨
      ((openHead db).2.2 = false ∧ db' = db ∧
        store' = ⟨(openHead db).1, (openHead db).2.1⟩) := by
  unfold openStore at ho
  rcases hhead : openHead db with ⟨lastSeq, lastHash, truncated⟩
  rw [hhead] at ho h
  cases truncated with
  | false =>
    cases ho
    exact .inr ⟨rfl, rfl, rfl⟩
  | true =>
    cases happ : append c commits db ⟨lastSeq, lastHash⟩
        [truncatedEntry now lastSeq (foundSeq db)] with
    | error e =>
      simp only [happ] at ho
      cases ho
    | ok res =>
      obtain ⟨seqs, db₁, store₁⟩ := res
      simp only [happ] at ho
      cases ho
      obtain ⟨hc, -, hw⟩ := append_inv h happ
      exact .inl ⟨rfl, hc, hw⟩

/-- A retention run without anything to delete changes nothing. -/
theorem pruneBefore_eq_ok_none {c : Crates} {commits : Bool} {cutoff now stamp : DateTime}
    {db : Database} {store : AuditStore} (hr : pruneRange c cutoff now db = .ok none) :
    pruneBefore c commits cutoff now stamp db store = .ok (0, db, store) := by
  rw [pruneBefore, hr]
  rfl

/-- A retention run that finds a range and whose transaction commits deletes and records it. -/
theorem pruneBefore_eq_ok_some {c : Crates} {cutoff now stamp : DateTime} {db : Database}
    {store : AuditStore} (h : ∀ r ∈ db.audit.rows, r.seq ≤ store.lastSeq) {lastSeq : ℤ}
    {lastHash : String} {n : ℕ} (hr : pruneRange c cutoff now db = .ok (some (lastSeq, lastHash)))
    (hn : n = (db.audit.rows.filter fun row => row.seq ≤ lastSeq).length) :
    ∃ db' store', pruneBefore c true cutoff now stamp db store = .ok (n, db', store') ∧
      Wrote c (db.audit.deleteWhere fun row => row.seq ≤ lastSeq).rows
        (store.lastSeq, store.lastHash) [prunedEntry stamp n lastSeq lastHash] db' store' := by
  subst hn
  have hk : ∀ r ∈ (db.audit.deleteWhere fun row => row.seq ≤ lastSeq).rows,
      r.seq ≤ store.lastSeq := fun r hr => h r (List.mem_of_mem_filter hr)
  obtain ⟨db₁, seq₁, hash₁, hins, hw⟩ := @insert_eq_ok c
    { db with audit := db.audit.deleteWhere fun row => row.seq ≤ lastSeq } _ store.lastHash hk
    [prunedEntry stamp (db.audit.rows.filter fun row => row.seq ≤ lastSeq).length lastSeq lastHash]
  refine ⟨db₁, ⟨seq₁, hash₁⟩, ?_, hw⟩
  simp only [pruneBefore, hr, bind, Except.bind, hins]
  rfl

/-- A retention run that succeeds has either deleted the range found before its transaction
and recorded it, or changed nothing. -/
theorem pruneBefore_inv {c : Crates} {commits : Bool} {cutoff now stamp : DateTime}
    {db db' : Database} {store store' : AuditStore} {n : ℕ}
    (h : ∀ r ∈ db.audit.rows, r.seq ≤ store.lastSeq)
    (hp : pruneBefore c commits cutoff now stamp db store = .ok (n, db', store')) :
    (pruneRange c cutoff now db = .ok none ∧ n = 0 ∧ db' = db ∧ store' = store) ∨
      ∃ lastSeq lastHash, pruneRange c cutoff now db = .ok (some (lastSeq, lastHash)) ∧
        n = (db.audit.rows.filter fun row => row.seq ≤ lastSeq).length ∧ commits = true ∧
        Wrote c (db.audit.deleteWhere fun row => row.seq ≤ lastSeq).rows
          (store.lastSeq, store.lastHash) [prunedEntry stamp n lastSeq lastHash] db' store' := by
  unfold pruneBefore at hp
  cases hr : pruneRange c cutoff now db with
  | error e =>
    simp only [hr] at hp
    cases hp
  | ok range =>
    rw [hr] at hp
    cases range with
    | none =>
      cases hp
      exact .inl ⟨rfl, rfl, rfl, rfl⟩
    | some range =>
      obtain ⟨lastSeq, lastHash⟩ := range
      have hk : ∀ r ∈ (db.audit.deleteWhere fun row => row.seq ≤ lastSeq).rows,
          r.seq ≤ store.lastSeq := fun r hr => h r (List.mem_of_mem_filter hr)
      obtain ⟨db₁, seq₁, hash₁, hins, hw⟩ := @insert_eq_ok c
        { db with audit := db.audit.deleteWhere fun row => row.seq ≤ lastSeq } _
        store.lastHash hk
        [prunedEntry stamp (db.audit.rows.filter fun row => row.seq ≤ lastSeq).length lastSeq
          lastHash]
      simp only [bind, Except.bind, hins] at hp
      cases commits with
      | false => cases hp
      | true =>
        cases hp
        exact .inr ⟨lastSeq, lastHash, rfl, rfl, rfl, hw⟩

end AuditGateway
