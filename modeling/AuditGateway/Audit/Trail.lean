import AuditGateway.Audit.Verify
import AuditGateway.Lib.Machine

set_option relaxedAutoImplicit false
set_option autoImplicit false

/-!
# The life of a trail

Everything that can happen to the audit database over its life: the store is opened, written
and pruned, its transactions may fail, the process stops and starts again, and while it is
stopped the newest rows may get lost. The state also keeps, for the statements only, every entry
and every row that was ever committed.

## Main definitions

* `Trail` — the database, the open store, and what was ever committed.
* `Trail.Op`, `Trail.step` — what can happen.
* `Trail.Change` — everything an operation can do.
* `Trail.Chained` — the invariant of every run, also of those that lose rows.

## Main results

* `Trail.openHead_eq` — a start finds the head of everything ever written.
* `Trail.Chained.change` — what a step can do.
* `Trail.chained_of_run` — all that was ever written is one chain from the genesis hash, the
  rows held are some of it, and both heads stand on its newest row.
-/

namespace AuditGateway

/-- The audit database over its life. -/
structure Trail where
  db : Database
  /-- The open store, `none` while the gateway is stopped. -/
  store : Option AuditStore
  /-- Every entry ever committed, oldest first. -/
  entries : List AuditEntry
  /-- Every row ever committed, oldest first. -/
  written : List Row

namespace Trail

/-- A new database, not opened yet. -/
def init : Trail := ⟨Database.empty, none, [], []⟩

/-- What can happen; `commits` says whether SQLite commits the transaction. -/
inductive Op
  /-- The process starts (again) and opens the store. -/
  | openStore (commits : Bool) (now : DateTime)
  | append (commits : Bool) (entries : List AuditEntry)
  | pruneBefore (commits : Bool) (cutoff now stamp : DateTime)
  /-- The process stops, or is killed. -/
  | stop
  /-- While the gateway is stopped the newest rows get lost; the chain head stays. -/
  | lose (n : ℕ)

/-- The rows of a database that were not in it before. -/
def newRows (before after : Database) : List Row :=
  after.audit.rows.filter fun r => r ∉ before.audit.rows

/-- Nothing is new in a database that is as it was. -/
@[simp] theorem newRows_self (db : Database) : newRows db db = [] := by simp [newRows]

/-- The entries a start adds. -/
def openEntries (now : DateTime) (db : Database) : List AuditEntry :=
  if (openHead db).2.2 then [truncatedEntry now (openHead db).1 (foundSeq db)] else []

/-- The entries a retention run that deletes `n` records adds. -/
def pruneEntries (c : Crates) (cutoff now stamp : DateTime) (n : ℕ) (db : Database) :
    List AuditEntry :=
  match pruneRange c cutoff now db with
  | .ok (some (lastSeq, lastHash)) => [prunedEntry stamp n lastSeq lastHash]
  | _ => []

/-- The database without its newest `n` rows. -/
def loseRows (n : ℕ) (db : Database) : Database :=
  { db with audit := ⟨db.audit.rows.take (db.audit.rows.length - n), db.audit.sorted.take⟩ }

/-- One operation. The store is needed to write, and rows get lost only while it is closed. -/
def step (c : Crates) (s : Trail) : Op → Option Trail
  | .openStore commits now =>
    match openStore c commits now s.db with
    | .error _ => some { s with store := none }
    | .ok (db, store) =>
      some ⟨db, some store, s.entries ++ openEntries now s.db, s.written ++ newRows s.db db⟩
  | .append commits entries =>
    s.store.map fun store =>
      match append c commits s.db store entries with
      | .error _ => s
      | .ok (_, db, store) =>
        ⟨db, some store, s.entries ++ entries, s.written ++ newRows s.db db⟩
  | .pruneBefore commits cutoff now stamp =>
    s.store.map fun store =>
      match pruneBefore c commits cutoff now stamp s.db store with
      | .error _ => s
      | .ok (n, db, store) =>
        ⟨db, some store, s.entries ++ pruneEntries c cutoff now stamp n s.db,
          s.written ++ newRows s.db db⟩
  | .stop => some { s with store := none }
  | .lose n =>
    match s.store with
    | none => some { s with db := loseRows n s.db }
    | some _ => none

/-- A new database, opened. -/
def opened : Trail := ⟨Database.empty, some ⟨0, genesisHash⟩, [], []⟩

/-- A store is opened for the first time. -/
theorem run_opened (c : Crates) :
    Machine.run (step c) init [.openStore true ⟨0⟩] = some opened := rfl

/-- Number and hash of the newest record ever written. -/
def head (s : Trail) : ℤ × String := headOf 0 genesisHash s.written

/-! ## The invariant of every run -/

/-- All that was ever written is one chain from the genesis hash, the rows held are some of it,
and the chain head and the open store stand on its newest row, which an open store holds. -/
structure Chained (c : Crates) (s : Trail) : Prop where
  written_eq : s.written = records c 0 genesisHash s.entries
  held : s.db.audit.rows.Sublist s.written
  chainHead_eq : s.db.chainHead = some s.head ∨ s.db.chainHead = none ∧ s.entries = []
  store_eq : ∀ store, s.store = some store → (store.lastSeq, store.lastHash) = s.head
  newest : s.store.isSome → s.db.audit.rows.getLast? = s.written.getLast?

/-- A trail without records is chained. -/
theorem chained_init (c : Crates) : Chained c init :=
  ⟨rfl, List.Sublist.refl _, .inr ⟨rfl, rfl⟩, by simp [init], by simp [init]⟩

variable {c : Crates} {s t : Trail}

/-- The head counts the records ever written. -/
theorem Chained.head_fst (h : Chained c s) : s.head.1 = s.entries.length := by
  rw [head, h.written_eq, headOf, records,
    HashChain.headAfter_chainFrom_fst (record_seq c)]
  simp

/-- What was written is linked. -/
theorem Chained.linked (h : Chained c s) : Linked s.written := by
  rw [h.written_eq]
  exact linked_records c 0 genesisHash s.entries

/-- The newest row ever written carries the head. -/
theorem head_eq_of_getLast? {r : Row} (hr : s.written.getLast? = some r) :
    s.head = (r.seq, r.hash) := by
  simp only [head, headOf, HashChain.headAfter, hr]

/-- The rows ever written are numbered from 1 on. -/
theorem Chained.seq_pos (h : Chained c s) {r : Row} (hr : r ∈ s.written) : 0 < r.seq := by
  rw [h.written_eq] at hr
  exact lt_seq_of_mem_records hr

/-- The numbers of the rows ever written go up to that of the head. -/
theorem Chained.seq_le_head (h : Chained c s) {r : Row} (hr : r ∈ s.written) :
    r.seq ≤ s.head.1 := by
  cases hlast : s.written.getLast? with
  | none =>
    rw [List.getLast?_eq_none_iff.1 hlast] at hr
    cases hr
  | some b =>
    rw [head_eq_of_getLast? hlast]
    exact (⟨s.written, h.linked.pairwise_lt⟩ : KeyTable Row Row.seq).key_le_lastRow hlast hr

/-- The numbers of the rows held go up to that of the head. -/
theorem Chained.seq_le (h : Chained c s) : ∀ r ∈ s.db.audit.rows, r.seq ≤ s.head.1 :=
  fun _ hr => h.seq_le_head (h.held.subset hr)

/-- Every row ever written is the record of an entry. -/
theorem Chained.exists_entry (h : Chained c s) {r : Row} (hr : r ∈ s.written) :
    ∃ e ∈ s.entries, r = record c r.seq r.prevHash e := by
  rw [h.written_eq] at hr
  exact exists_of_mem_records hr

/-- The entry recorded under a number. -/
def entryAt (s : Trail) (n : ℤ) : Option AuditEntry := s.entries[(n - 1).toNat]?

/-- Every row ever written is the record of the entry recorded under its number. -/
theorem Chained.exists_entryAt (h : Chained c s) {r : Row} (hr : r ∈ s.written) :
    ∃ e, s.entryAt r.seq = some e ∧ r = record c r.seq r.prevHash e := by
  rw [h.written_eq] at hr
  obtain ⟨i, e, p, he, rfl⟩ := HashChain.exists_getElem?_of_mem_chainFrom hr
  refine ⟨e, ?_, rfl⟩
  have hi : ((0 : ℤ) + 1 + i - 1).toNat = i := by omega
  rw [entryAt, record_seq, hi, he]

/-- The rows ever written are numbered by their place. -/
theorem Chained.seq_getElem? (h : Chained c s) {i : ℕ} {r : Row} (hr : s.written[i]? = some r) :
    r.seq = i + 1 := by
  rw [h.written_eq] at hr
  have := HashChain.num_getElem?_chainFrom (record_seq c) hr
  omega

/-- Two rows ever written with one number are one row. -/
theorem Chained.eq_of_seq_eq (h : Chained c s) {r r' : Row} (hr : r ∈ s.written)
    (hr' : r' ∈ s.written) (hseq : r.seq = r'.seq) : r = r' :=
  (⟨s.written, h.linked.pairwise_lt⟩ : KeyTable Row Row.seq).eq_of_key_eq hr hr' hseq

/-- Without entries nothing was ever written. -/
theorem Chained.written_eq_nil (h : Chained c s) (he : s.entries = []) : s.written = [] := by
  rw [h.written_eq, he, records_nil]

/-- If the newest row held is as new as the head, it is the newest row ever written: numbers
are not reused. -/
theorem Chained.newest_of_le (h : Chained c s) (hf : s.head.1 ≤ foundSeq s.db) :
    s.db.audit.rows.getLast? = s.written.getLast? := by
  have hfst := h.head_fst
  cases hlast : s.db.audit.rows.getLast? with
  | none =>
    have h0 : foundSeq s.db = 0 := by simp [foundSeq, KeyTable.lastRow, hlast]
    have he : s.entries = [] := List.eq_nil_of_length_eq_zero (by omega)
    rw [h.written_eq_nil he, List.getLast?_nil]
  | some r =>
    have hfound : foundSeq s.db = r.seq := by simp [foundSeq, KeyTable.lastRow, hlast]
    have hr : r ∈ s.written := h.held.subset (List.mem_of_getLast? hlast)
    cases hb : s.written.getLast? with
    | none =>
      rw [List.getLast?_eq_none_iff.1 hb] at hr
      cases hr
    | some b =>
      have hhead := head_eq_of_getLast? hb
      have hle := h.seq_le_head hr
      rw [hhead] at hf hle
      rw [h.eq_of_seq_eq hr (List.mem_of_getLast? hb) (by dsimp only at hf hle; omega)]

/-- A start finds the head of everything ever written, and takes the newest records for missing
exactly when the newest row is older than that.

**Proof sketch.** If the newest row is as new as the head, it is the newest row ever written,
so it carries the head's hash. -/
theorem openHead_eq (h : Chained c s) :
    openHead s.db = (s.head.1, s.head.2, decide (foundSeq s.db < s.head.1)) := by
  unfold openHead
  by_cases hf : foundSeq s.db < s.head.1
  · rcases h.chainHead_eq with hch | ⟨-, he⟩
    · simp [hch, Option.filter, hf]
    · have hhead : s.head = (0, genesisHash) := by simp [head, h.written_eq_nil he, headOf]
      have hrows : s.db.audit.rows = [] := List.sublist_nil.1 (h.written_eq_nil he ▸ h.held)
      simp [hhead, foundSeq, KeyTable.lastRow, hrows] at hf
  · have hnone : (s.db.chainHead.filter fun w => decide (foundSeq s.db < w.1)) = none := by
      rcases h.chainHead_eq with hch | ⟨hch, -⟩
      · simp [hch, Option.filter, hf]
      · simp [hch]
    have hnewest := h.newest_of_le (not_lt.1 hf)
    rw [hnone, KeyTable.lastRow, hnewest, decide_eq_false hf]
    cases hlast : s.written.getLast? with
    | none =>
      have hhead : s.head = (0, genesisHash) := by
        simp only [head, headOf, HashChain.headAfter, hlast]
      rw [hhead]
    | some r => rw [head_eq_of_getLast? hlast]

/-- The store's head bounds the rows held. -/
theorem Chained.seq_le_store (h : Chained c s) {store : AuditStore}
    (hstore : s.store = some store) : ∀ r ∈ s.db.audit.rows, r.seq ≤ store.lastSeq := by
  have hfst : store.lastSeq = s.head.1 := congrArg Prod.fst (h.store_eq store hstore)
  rw [hfst]
  exact h.seq_le

/-! ## What a step can do -/

/-- The state after a committed transaction that added `es`. -/
def commit (s : Trail) (es : List AuditEntry) (db : Database) (store : AuditStore) : Trail :=
  ⟨db, some store, s.entries ++ es, s.written ++ newRows s.db db⟩

/-- Everything an operation can do. -/
inductive Change (c : Crates) (s : Trail) : Op → Trail → Prop
  /-- The process stopped, or the store could not be opened. -/
  | closed (op : Op) : Change c s op { s with store := none }
  /-- A write failed, or a retention run had nothing to delete. -/
  | unchanged (op : Op) (h : s.store.isSome) : Change c s op s
  /-- The store was opened on a trail that holds its newest record. -/
  | opened (commits : Bool) (now : DateTime) (h : s.head.1 ≤ foundSeq s.db) :
    Change c s (.openStore commits now) { s with store := some ⟨s.head.1, s.head.2⟩ }
  /-- The store was opened on a trail whose newest records are missing. -/
  | truncated (now : DateTime) (db : Database) (store : AuditStore)
      (h : foundSeq s.db < s.head.1)
      (hw : Wrote c s.db.audit.rows s.head [truncatedEntry now s.head.1 (foundSeq s.db)] db store) :
    Change c s (.openStore true now)
      (s.commit [truncatedEntry now s.head.1 (foundSeq s.db)] db store)
  /-- A batch of records was committed. -/
  | appended (entries : List AuditEntry) (db : Database) (store : AuditStore)
      (h : s.store.isSome) (hw : Wrote c s.db.audit.rows s.head entries db store) :
    Change c s (.append true entries) (s.commit entries db store)
  /-- A retention run deleted the records up to `lastSeq`. -/
  | pruned (cutoff now stamp : DateTime) (lastSeq : ℤ) (lastHash : String) (n : ℕ)
      (db : Database) (store : AuditStore) (h : s.store.isSome)
      (hrange : pruneRange c cutoff now s.db = .ok (some (lastSeq, lastHash)))
      (hn : n = (s.db.audit.rows.filter fun r => r.seq ≤ lastSeq).length)
      (hw : Wrote c (s.db.audit.deleteWhere fun r => r.seq ≤ lastSeq).rows s.head
        [prunedEntry stamp n lastSeq lastHash] db store) :
    Change c s (.pruneBefore true cutoff now stamp)
      (s.commit [prunedEntry stamp n lastSeq lastHash] db store)
  /-- The newest rows got lost while the gateway was stopped. -/
  | lost (n : ℕ) (h : s.store = none) : Change c s (.lose n) { s with db := loseRows n s.db }

/-- Opening the store does one of these. -/
theorem Chained.change_openStore (h : Chained c s) {commits : Bool} {now : DateTime}
    (hs : step c s (.openStore commits now) = some t) : Change c s (.openStore commits now) t := by
  simp only [step] at hs
  split at hs
  · cases hs
    exact .closed _
  · next db store ho =>
    cases hs
    have hhead := openHead_eq h
    have hle : ∀ r ∈ s.db.audit.rows, r.seq ≤ (openHead s.db).1 := by
      rw [hhead]
      exact h.seq_le
    rcases openStore_inv hle ho with ⟨htr, rfl, hw⟩ | ⟨htr, hdb, hst⟩
    · have hes : openEntries now s.db = [truncatedEntry now (openHead s.db).1 (foundSeq s.db)] :=
        if_pos htr
      rw [hhead] at htr hw hes
      rw [hes]
      exact .truncated now db store (by simpa using htr) hw
    · have hes : openEntries now s.db = [] := if_neg (by simp [htr])
      rw [hhead] at htr hst
      rw [hes, hdb, newRows_self, List.append_nil, List.append_nil, hst]
      exact .opened commits now (by simpa using htr)

/-- Appending does one of these. -/
theorem Chained.change_append (h : Chained c s) {commits : Bool} {entries : List AuditEntry}
    (hs : step c s (.append commits entries) = some t) :
    Change c s (.append commits entries) t := by
  simp only [step, Option.map_eq_some_iff] at hs
  obtain ⟨store, hstore, hs⟩ := hs
  have hopen : s.store.isSome := by simp [hstore]
  split at hs
  · exact hs ▸ .unchanged _ hopen
  · next db store' ha =>
    obtain ⟨rfl, -, hw⟩ := append_inv (h.seq_le_store hstore) ha
    rw [h.store_eq store hstore] at hw
    exact hs ▸ .appended entries db store' hopen hw

/-- A retention run does one of these. -/
theorem Chained.change_pruneBefore (h : Chained c s) {commits : Bool}
    {cutoff now stamp : DateTime}
    (hs : step c s (.pruneBefore commits cutoff now stamp) = some t) :
    Change c s (.pruneBefore commits cutoff now stamp) t := by
  simp only [step, Option.map_eq_some_iff] at hs
  obtain ⟨store, hstore, hs⟩ := hs
  have hopen : s.store.isSome := by simp [hstore]
  split at hs
  · exact hs ▸ .unchanged _ hopen
  · next n db store' hp =>
    rcases pruneBefore_inv (h.seq_le_store hstore) hp with
      ⟨hrange, rfl, rfl, rfl⟩ | ⟨lastSeq, lastHash, hrange, hn, rfl, hw⟩
    · rw [← hs, pruneEntries, hrange]
      dsimp only
      rw [newRows_self, List.append_nil, List.append_nil, ← hstore]
      exact .unchanged _ hopen
    · rw [h.store_eq store hstore] at hw
      have hes : pruneEntries c cutoff now stamp n s.db =
          [prunedEntry stamp n lastSeq lastHash] := by
        rw [pruneEntries, hrange]
      rw [← hs, hes]
      exact .pruned cutoff now stamp lastSeq lastHash n db store' hopen hrange hn hw

/-- **What a step can do**: every possible step is one of the changes. -/
theorem Chained.change (h : Chained c s) {op : Op} (hs : step c s op = some t) :
    Change c s op t := by
  cases op with
  | openStore commits now => exact h.change_openStore hs
  | append commits entries => exact h.change_append hs
  | pruneBefore commits cutoff now stamp => exact h.change_pruneBefore hs
  | stop =>
    cases hs
    exact .closed _
  | lose n =>
    simp only [step] at hs
    split at hs
    · next hstore =>
      cases hs
      exact .lost n hstore
    · cases hs

/-! ## The invariant is kept -/

/-- The rows a transaction adds are those of its entries. -/
theorem Chained.newRows_eq (h : Chained c s) {kept : List Row}
    (hk : kept.Sublist s.db.audit.rows) {es : List AuditEntry} {db : Database}
    {store : AuditStore} (hw : Wrote c kept s.head es db store) :
    newRows s.db db = records c s.head.1 s.head.2 es := by
  rw [newRows, hw.rows_eq, List.filter_append]
  have hold : (kept.filter fun r => decide (r ∉ s.db.audit.rows)) = [] := by
    rw [List.filter_eq_nil_iff]
    intro r hr
    simpa using hk.subset hr
  have hnew : ((records c s.head.1 s.head.2 es).filter
      fun r => decide (r ∉ s.db.audit.rows)) = records c s.head.1 s.head.2 es := by
    rw [List.filter_eq_self]
    intro r hr
    have hlt := lt_seq_of_mem_records hr
    simp only [decide_eq_true_eq]
    intro hmem
    have := h.seq_le r hmem
    omega
  rw [hold, hnew, List.nil_append]

/-- The chain goes on behind the head. -/
theorem Chained.written_append (h : Chained c s) (es : List AuditEntry) :
    s.written ++ records c s.head.1 s.head.2 es = records c 0 genesisHash (s.entries ++ es) := by
  rw [head, h.written_eq, records, records, records, headOf,
    HashChain.chainFrom_append (record_seq c)]

/-- The head after a committed transaction. -/
theorem Chained.head_commit (h : Chained c s) {kept : List Row}
    (hk : kept.Sublist s.db.audit.rows) {es : List AuditEntry} {db : Database}
    {store : AuditStore} (hw : Wrote c kept s.head es db store) :
    (s.commit es db store).head = headOf s.head.1 s.head.2 (records c s.head.1 s.head.2 es) := by
  simp only [commit, head, headOf, h.newRows_eq hk hw, HashChain.headAfter_append]

/-- A committed transaction that keeps some of the rows and writes behind the head keeps the
invariant. -/
theorem Chained.commit (h : Chained c s) {kept : List Row} (hk : kept.Sublist s.db.audit.rows)
    {es : List AuditEntry} {db : Database} {store : AuditStore}
    (hw : Wrote c kept s.head es db store)
    (hnewest : es = [] → kept.getLast? = s.written.getLast?) :
    Chained c (s.commit es db store) := by
  have hnew := h.newRows_eq hk hw
  have hhead := h.head_commit hk hw
  refine ⟨?_, ?_, .inl ?_, ?_, fun _ => ?_⟩
  · exact (congrArg (s.written ++ ·) hnew).trans (h.written_append es)
  · dsimp only [Trail.commit]
    rw [hw.rows_eq, hnew]
    exact (hk.trans h.held).append (List.Sublist.refl _)
  · rw [hhead]
    exact hw.chainHead_eq
  · rintro st ⟨⟩
    rw [hhead, hw.store_eq]
  · dsimp only [Trail.commit]
    rw [hw.rows_eq, hnew]
    cases es with
    | nil => simpa using hnewest rfl
    | cons e es => simp only [records_cons, List.getLast?_append_cons]

/-- The number of the head after a committed transaction. -/
theorem Chained.head_fst_commit (h : Chained c s) {kept : List Row}
    (hk : kept.Sublist s.db.audit.rows) {es : List AuditEntry} {db : Database}
    {store : AuditStore} (hw : Wrote c kept s.head es db store) :
    (s.commit es db store).head.1 = s.head.1 + es.length := by
  rw [h.head_commit hk hw, headOf, records, HashChain.headAfter_chainFrom_fst (record_seq c)]

/-- A row held after a committed transaction was kept by it, or is new and numbered behind the
head. -/
theorem mem_kept_or_lt {kept : List Row} {es : List AuditEntry} {db : Database}
    {store : AuditStore} (hw : Wrote c kept s.head es db store) {r : Row}
    (hr : r ∈ db.audit.rows) : r ∈ kept ∨ s.head.1 < r.seq := by
  rw [hw.rows_eq, List.mem_append] at hr
  exact hr.imp_right lt_seq_of_mem_records

/-- No operation moves the head back, and the rows it adds are numbered behind the head. -/
theorem Chained.frame (h : Chained c s) {op : Op} (hs : step c s op = some t) :
    s.head.1 ≤ t.head.1 ∧ ∀ r ∈ t.db.audit.rows, r ∈ s.db.audit.rows ∨ s.head.1 < r.seq := by
  cases h.change hs with
  | closed => exact ⟨le_rfl, fun r hr => .inl hr⟩
  | unchanged => exact ⟨le_rfl, fun r hr => .inl hr⟩
  | opened => exact ⟨le_rfl, fun r hr => .inl hr⟩
  | truncated now db store _ hw =>
    have := h.head_fst_commit (List.Sublist.refl _) hw
    exact ⟨by omega, fun r hr => mem_kept_or_lt hw hr⟩
  | appended entries db store _ hw =>
    have := h.head_fst_commit (List.Sublist.refl _) hw
    exact ⟨by omega, fun r hr => mem_kept_or_lt hw hr⟩
  | pruned cutoff now stamp lastSeq lastHash n db store _ _ _ hw =>
    have := h.head_fst_commit List.filter_sublist hw
    exact ⟨by omega, fun r hr => (mem_kept_or_lt hw hr).imp_left List.mem_of_mem_filter⟩
  | lost n => exact ⟨le_rfl, fun r hr => .inl (List.mem_of_mem_take hr)⟩

/-- What a committed transaction has written is old, or new and numbered behind the head. -/
theorem Chained.mem_written_commit (h : Chained c s) {kept : List Row}
    (hk : kept.Sublist s.db.audit.rows) {es : List AuditEntry} {db : Database}
    {store : AuditStore} (hw : Wrote c kept s.head es db store) {r : Row}
    (hr : r ∈ (s.commit es db store).written) : r ∈ s.written ∨ s.head.1 < r.seq := by
  rw [Trail.commit, h.newRows_eq hk hw, List.mem_append] at hr
  exact hr.imp_right lt_seq_of_mem_records

/-- The rows an operation adds to those ever written are numbered behind the head. -/
theorem Chained.written_frame (h : Chained c s) {op : Op} (hs : step c s op = some t) :
    ∀ r ∈ t.written, r ∈ s.written ∨ s.head.1 < r.seq := by
  intro r hr
  cases h.change hs with
  | closed => exact .inl hr
  | unchanged => exact .inl hr
  | opened => exact .inl hr
  | truncated now db store _ hw => exact h.mem_written_commit (List.Sublist.refl _) hw hr
  | appended entries db store _ hw => exact h.mem_written_commit (List.Sublist.refl _) hw hr
  | pruned cutoff now stamp lastSeq lastHash n db store _ _ _ hw =>
    exact h.mem_written_commit List.filter_sublist hw hr
  | lost => exact .inl hr

/-- **Step lemma**: every operation keeps the invariant. -/
theorem chained_step (h : Chained c s) {op : Op} (hs : step c s op = some t) : Chained c t := by
  cases h.change hs with
  | closed => exact ⟨h.written_eq, h.held, h.chainHead_eq, by simp, by simp⟩
  | unchanged => exact h
  | opened commits now hfound =>
    exact ⟨h.written_eq, h.held, h.chainHead_eq, by rintro _ ⟨⟩; rfl,
      fun _ => h.newest_of_le hfound⟩
  | truncated now db store _ hw => exact h.commit (List.Sublist.refl _) hw (by simp)
  | appended entries db store hopen hw =>
    exact h.commit (List.Sublist.refl _) hw fun _ => h.newest hopen
  | pruned cutoff now stamp lastSeq lastHash n db store _ _ _ hw =>
    exact h.commit List.filter_sublist hw (by simp)
  | lost n hstore =>
    exact ⟨h.written_eq, (List.take_sublist _ _).trans h.held, h.chainHead_eq, by simp [hstore],
      by simp [hstore]⟩

/-- **Run lemma**: the invariant holds after every run. -/
theorem chained_of_run {ops : List Op} (hr : Machine.run (step c) init ops = some t) :
    Chained c t :=
  Machine.run_invariant (fun _ _ _ h hs => chained_step h hs) (chained_init c) hr

end Trail

end AuditGateway
