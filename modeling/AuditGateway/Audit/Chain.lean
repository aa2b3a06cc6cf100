import AuditGateway.Audit.Query
import AuditGateway.Audit.Text
import AuditGateway.Audit.Trail

set_option relaxedAutoImplicit false
set_option autoImplicit false

/-!
# The chain invariant of the store

As long as nobody but the store changes the database, the rows held are the newest part of all
that was ever written, and a retention record among them names the record before the first one.
So the walk over them reports no error, and it ends on the head that the store and the chain
head stand on.

## Main definitions

* `Trail.Op.Intact` — the operations of the store itself.
* `Trail.Whole` — the invariant of every run of these.

## Main results

* `pruneRange_eq_some` — where a retention run cuts the trail.
* `Trail.whole_of_run` — what every run of the store keeps.
* `Trail.verifyChain_of_run` — after every run of the store the trail verifies.
-/

namespace AuditGateway

/-- The newest record the walk has seen: 0 and the genesis hash if there is none. -/
def VerifyReport.head (report : VerifyReport) : ℤ × String :=
  (report.lastSeq.getD 0, report.headHash)

/-- A row that was written for an entry that reads back is sound. -/
theorem ReadsBack.sound {c : Crates} {e : AuditEntry} (he : ReadsBack c e) (n : ℤ) (h : String) :
    (record c n h e).Sound c := by
  obtain ⟨e', hread, hcols, -⟩ := he
  exact ⟨rfl, e', hread, hcols⟩

/-- A row that was written for an entry that reads back names a gap exactly if the entry does. -/
theorem ReadsBack.vouches_iff {c : Crates} {e : AuditEntry} (he : ReadsBack c e) {n : ℤ}
    {h : String} {gap : ℤ × String} :
    (record c n h e).Vouches c gap ↔ ∃ deleted, e.event = .retentionPruned deleted gap.1 gap.2 := by
  obtain ⟨e', hread, -, hpruned⟩ := he
  have hev : ∀ d, e'.event = .retentionPruned d gap.1 gap.2 ↔
      e.event = .retentionPruned d gap.1 gap.2 := by
    intro d
    rw [← AuditEvent.pruned?_eq_some, ← AuditEvent.pruned?_eq_some, hpruned]
  rw [Row.vouches_iff (r := record c n h e) hread]
  simp only [hev]

/-! ## Where a retention run cuts -/

/-- A retention run cuts behind a row it names by number and hash, and in front of another: the
newest row is not deleted. -/
theorem pruneRange_eq_some {c : Crates} {cutoff now : DateTime} {db : Database} {lastSeq : ℤ}
    {lastHash : String} (h : pruneRange c cutoff now db = .ok (some (lastSeq, lastHash))) :
    ∃ l a m, db.audit.rows = l ++ a :: m ∧ m ≠ [] ∧ a.seq = lastSeq ∧ a.hash = lastHash := by
  unfold pruneRange at h
  cases hhead : db.audit.lastRow with
  | none => simp [hhead] at h
  | some head =>
    simp only [hhead] at h
    split_ifs at h
    · cases h
    cases hfirst : db.audit.minKeyWhere fun _ => True with
    | none => simp [hfirst] at h
    | some firstSeq =>
      simp only [hfirst] at h
      split_ifs at h with hlt
      · cases h
      cases hrow : db.audit.rowAt
          (min (min ((db.audit.minKeyWhere fun row => tsColumn c cutoff ≤ row.ts).getD head.seq)
            head.seq - 1) (firstSeq + maxPrune - 1)) with
      | none => simp [hrow] at h
      | some a =>
        simp only [hrow, Except.ok.injEq, Option.some.injEq, Prod.mk.injEq] at h
        obtain ⟨rfl, rfl⟩ := h
        obtain ⟨ha, hseq⟩ := KeyTable.rowAt_eq_some_iff.1 hrow
        have halt : a.seq < head.seq := by omega
        obtain ⟨l, m, hlm⟩ := List.append_of_mem ha
        refine ⟨l, a, m, hlm, ?_, hseq, rfl⟩
        rintro rfl
        -- behind `a` there is at least the newest row
        have : a = head := by simpa [KeyTable.lastRow, hlm] using hhead
        rw [this] at halt
        exact lt_irrefl _ halt

namespace Trail

/-- An operation of the store itself, not a loss of rows. -/
def Op.Intact : Op → Prop
  | .lose _ => False
  | _ => True

/-- The rows held are the newest part of all that was ever written, and a retention record among
them names number and hash of the record before the first one. -/
structure Whole (c : Crates) (s : Trail) : Prop where
  suffix : s.db.audit.rows <:+ s.written
  nonempty : s.written ≠ [] → s.db.audit.rows ≠ []
  vouched : ∀ r ∈ s.db.audit.rows.head?, r.seq ≠ 1 → ∃ e ∈ s.entries, ∃ n h d,
    record c n h e ∈ s.db.audit.rows ∧ e.event = .retentionPruned d (r.seq - 1) r.prevHash

variable {c : Crates} {s t : Trail}

/-- A trail without records is whole. -/
theorem whole_init (c : Crates) : Whole c init :=
  ⟨List.suffix_rfl, fun h => absurd rfl h, by simp [init, Database.empty]⟩

/-- The first row ever written starts the chain. -/
theorem Chained.first (h : Chained c s) {r : Row} (hr : r ∈ s.written.head?) :
    r.seq = 1 ∧ r.prevHash = genesisHash := by
  rw [h.written_eq] at hr
  have := (HashChain.linked_chainFrom (record_seq c) (record_prevHash c) 0 genesisHash
    s.entries).2 r hr
  simpa using this

/-- A row ever written with number 1 links to the genesis hash. -/
theorem Chained.genesis (h : Chained c s) {r : Row} (hr : r ∈ s.written) (hseq : r.seq = 1) :
    r.prevHash = genesisHash := by
  cases hw : s.written with
  | nil => simp [hw] at hr
  | cons a l =>
    have ha := h.first (r := a) (by simp [hw])
    have hfirst : a ∈ s.written := by simp [hw]
    rw [h.eq_of_seq_eq hr hfirst (hseq.trans ha.1.symm)]
    exact ha.2

/-- The rows held are linked. -/
theorem Whole.linked (hw : Whole c s) (h : Chained c s) : Linked s.db.audit.rows :=
  h.linked.suffix hw.suffix

/-- The rows held end with the newest row ever written. -/
theorem Whole.getLast?_eq (hw : Whole c s) :
    s.db.audit.rows.getLast? = s.written.getLast? := by
  obtain ⟨l, hl⟩ := hw.suffix
  cases hrows : s.db.audit.rows with
  | nil =>
    have : s.written = [] := by
      by_contra hne
      exact hw.nonempty hne hrows
    rw [this]
  | cons r rows => rw [← hl, hrows, List.getLast?_append_cons]

/-- The rows held reach as far as the head. -/
theorem Whole.head_le_headSeq (hw : Whole c s) (h : Chained c s) : s.head.1 ≤ headSeq s.db := by
  cases hlast : s.written.getLast? with
  | none =>
    have hhead : s.head = (0, genesisHash) := by
      rw [head, headOf, HashChain.headAfter, hlast]
    rw [hhead]
    exact headSeq_nonneg fun r hr => (h.seq_pos (h.held.subset hr)).le
  | some r =>
    rw [head_eq_of_getLast? hlast]
    rw [← hw.getLast?_eq] at hlast
    exact le_headSeq (List.mem_of_getLast? hlast)

/-- A committed transaction keeps the invariant if it deletes at most an older part of the rows,
not all of them, and what is then the first row is accounted for.

**Proof sketch.** If no row was held, none was ever written, so the first new row has number 1.
Otherwise the first row kept stays the first one. -/
theorem Whole.commit (hw : Whole c s) (h : Chained c s) {kept : List Row}
    (hkept : kept <:+ s.db.audit.rows) (hne : s.db.audit.rows ≠ [] → kept ≠ [])
    {es : List AuditEntry} {db : Database} {store : AuditStore}
    (hwrote : Wrote c kept s.head es db store)
    (hvouched : ∀ r ∈ kept.head?, r.seq ≠ 1 → ∃ e ∈ s.entries ++ es, ∃ n h d,
      record c n h e ∈ db.audit.rows ∧ e.event = .retentionPruned d (r.seq - 1) r.prevHash) :
    Whole c (s.commit es db store) := by
  have hnew := h.newRows_eq hkept.sublist hwrote
  have hrows := hwrote.rows_eq
  have hsuffix : kept ++ newRows s.db db <:+ s.written ++ newRows s.db db := by
    obtain ⟨l, hl⟩ := hkept.trans hw.suffix
    exact ⟨l, by rw [← List.append_assoc, hl]⟩
  refine ⟨?_, ?_, ?_⟩
  · show db.audit.rows <:+ s.written ++ newRows s.db db
    rw [hrows, ← hnew]
    exact hsuffix
  · show s.written ++ newRows s.db db ≠ [] → db.audit.rows ≠ []
    rw [hrows, ← hnew]
    intro hcat hnil
    obtain ⟨hk, hn⟩ := List.append_eq_nil_iff.1 hnil
    rw [hn, List.append_nil] at hcat
    exact hne (hw.nonempty hcat) hk
  · show ∀ r ∈ db.audit.rows.head?, _
    intro r hr hseq
    cases hk : kept with
    | cons k ks =>
      have hrk : r ∈ kept.head? := by simpa [hrows, hk] using hr
      exact hvouched r hrk hseq
    | nil =>
      -- nothing was ever written: the first new row starts the chain
      have hwritten : s.written = [] := by
        by_contra hcon
        exact hne (hw.nonempty hcon) hk
      have hhead : s.head = (0, genesisHash) := by simp [head, hwritten, headOf]
      rw [hrows, hk, hhead, List.nil_append] at hr
      have :=
        (HashChain.linked_chainFrom (record_seq c) (record_prevHash c) 0 genesisHash es).2 r hr
      omega

/-- What is appended behind the rows held accounts for nothing new. -/
theorem Whole.vouched_append (hw : Whole c s) {es : List AuditEntry} {db : Database}
    {store : AuditStore} (hwrote : Wrote c s.db.audit.rows s.head es db store) :
    ∀ r ∈ s.db.audit.rows.head?, r.seq ≠ 1 → ∃ e ∈ s.entries ++ es, ∃ n h d,
      record c n h e ∈ db.audit.rows ∧ e.event = .retentionPruned d (r.seq - 1) r.prevHash := by
  intro r hr hseq
  obtain ⟨e, he, n, h, d, hmem, hev⟩ := hw.vouched r hr hseq
  refine ⟨e, List.mem_append_left _ he, n, h, d, ?_, hev⟩
  rw [hwrote.rows_eq]
  exact List.mem_append_left _ hmem

/-- The retention record a run appends names the record before the first row it keeps. -/
theorem Whole.vouched_pruned (hw : Whole c s) (h : Chained c s) {l m : List Row} {a : Row}
    (hrows : s.db.audit.rows = l ++ a :: m) {stamp : DateTime} {n : ℕ} {db : Database}
    {store : AuditStore}
    (hwrote : Wrote c m s.head [prunedEntry stamp n a.seq a.hash] db store) :
    ∀ r ∈ m.head?, r.seq ≠ 1 → ∃ e ∈ s.entries ++ [prunedEntry stamp n a.seq a.hash], ∃ k h d,
      record c k h e ∈ db.audit.rows ∧ e.event = .retentionPruned d (r.seq - 1) r.prevHash := by
  intro r hr _
  cases m with
  | nil => cases hr
  | cons b m =>
    obtain rfl : b = r := by simpa using hr
    have hl : Linked (a :: b :: m) := (hw.linked h).suffix ⟨l, hrows.symm⟩
    obtain ⟨⟨hnum, hprev⟩, -⟩ := HashChain.linked_cons_cons.1 hl
    refine ⟨_, List.mem_append_right _ (List.mem_singleton_self _), s.head.1 + 1, s.head.2, n,
      ?_, ?_⟩
    · rw [hwrote.rows_eq]
      exact List.mem_append_right _ (List.mem_singleton_self _)
    · rw [hnum, hprev, Int.add_sub_cancel]
      rfl

/-- **Step lemma**: every operation of the store keeps the invariant. -/
theorem whole_step (h : Chained c s) (hw : Whole c s) {op : Op} (hop : op.Intact)
    (hs : step c s op = some t) : Whole c t := by
  cases h.change hs with
  | closed => exact ⟨hw.suffix, hw.nonempty, hw.vouched⟩
  | unchanged => exact hw
  | opened => exact ⟨hw.suffix, hw.nonempty, hw.vouched⟩
  | truncated now db store _ hwrote =>
    exact hw.commit h List.suffix_rfl id hwrote (hw.vouched_append hwrote)
  | appended entries db store _ hwrote =>
    exact hw.commit h List.suffix_rfl id hwrote (hw.vouched_append hwrote)
  | pruned cutoff now stamp lastSeq lastHash n db store _ hrange _ hwrote =>
    obtain ⟨l, a, m, hrows, hm, rfl, rfl⟩ := pruneRange_eq_some hrange
    rw [KeyTable.rows_deleteWhere_le_key hrows] at hwrote
    have hsuffix : m <:+ s.db.audit.rows := ⟨l ++ [a], by simp [hrows]⟩
    exact hw.commit h hsuffix (fun _ => hm) hwrote (hw.vouched_pruned h hrows hwrote)
  | lost => exact hop.elim

/-- **Run lemma**: the invariant holds after every run of the store. -/
theorem whole_of_run {ops : List Op} (hops : ∀ op ∈ ops, op.Intact)
    (hr : Machine.run (step c) init ops = some t) : Chained c t ∧ Whole c t := by
  have hstep : ∀ s op t, Chained c s ∧ Whole c s → Op.Intact op → step c s op = some t →
      Chained c t ∧ Whole c t := by
    rintro s op t ⟨h, hw⟩ hop hs
    exact ⟨chained_step h hs, whole_step h hw hop hs⟩
  exact Machine.run_invariant_of_meets hstep ⟨chained_init c, whole_init c⟩
    (Machine.meets_of_forall_mem (step c) (fun op hop _ => hops op hop) init) hr

/-! ## The trail verifies -/

/-- Every row ever written for entries that read back is sound. -/
theorem Chained.sound (h : Chained c s) (hread : ∀ e ∈ s.entries, ReadsBack c e) {r : Row}
    (hr : r ∈ s.written) : r.Sound c := by
  obtain ⟨e, he, heq⟩ := h.exists_entry hr
  rw [heq]
  exact (hread e he).sound _ _

/-- A trail that only the store changed is verified. -/
theorem Whole.verified (hw : Whole c s) (h : Chained c s)
    (hread : ∀ e ∈ s.entries, ReadsBack c e) : Verified c s.db.audit.rows := by
  refine ⟨hw.linked h, fun r hr => h.sound hread (hw.suffix.subset hr), fun r hr hseq => ?_,
    fun r hr hseq => ?_⟩
  · exact h.genesis (hw.suffix.subset (List.mem_of_mem_head? hr)) hseq
  · obtain ⟨e, he, n, p, d, hmem, hev⟩ := hw.vouched r hr hseq
    exact ⟨record c n p e, hmem, (hread e he).vouches_iff.2 ⟨d, hev⟩⟩

/-- A trail that only the store changed ends on the head of all that was ever written. -/
theorem Whole.headOf_rows (hw : Whole c s) : headOf 0 genesisHash s.db.audit.rows = s.head := by
  simp only [head, headOf, HashChain.headAfter, hw.getLast?_eq]

/-- **The chain invariant.** After every run of opening, appending and pruning, with commits
that fail and restarts anywhere, the walk reports no error, counts the rows held, and reports
the head that the store and the chain head stand on. -/
theorem verifyChain_of_run {ops : List Op} (hops : ∀ op ∈ ops, op.Intact)
    (hr : Machine.run (step c) init ops = some t) (hread : ∀ e ∈ t.entries, ReadsBack c e) :
    (verifyChain c t.db).error = none ∧
      (verifyChain c t.db).records = t.db.audit.rows.length ∧
      (t.db.audit.rows = [] → (verifyChain c t.db).head = (0, genesisHash)) ∧
      (∀ store, t.store = some store →
        (verifyChain c t.db).head = (store.lastSeq, store.lastHash)) ∧
      ∀ written, t.db.chainHead = some written → (verifyChain c t.db).head = written := by
  obtain ⟨h, hw⟩ := whole_of_run hops hr
  have herr := verifyChain_error_eq_none_iff.2 (hw.verified h hread)
  obtain ⟨hcount, hhead⟩ := verifyChain_report herr
  have hhead' : (verifyChain c t.db).head = t.head := hhead.trans hw.headOf_rows
  refine ⟨herr, hcount, fun hnil => ?_, fun store hstore => ?_, fun written hwritten => ?_⟩
  · rw [VerifyReport.head, hhead, hnil]
    rfl
  · rw [hhead', h.store_eq store hstore]
  · rcases h.chainHead_eq with hch | ⟨hch, -⟩
    · rw [hhead', Option.some.inj (hch.symm.trans hwritten)]
    · simp [hch] at hwritten

/-- A life with a commit that fails and a restart. -/
def restartedLife : List Op :=
  [.openStore true ⟨0⟩, .append true [lostEntry], .append false [stoppedEntry], .stop,
    .openStore true ⟨0⟩, .append true [stoppedEntry]]

/-- It leaves two records behind. -/
theorem exists_run_restartedLife : ∃ t,
    Machine.run (step plainCrates) init restartedLife = some t ∧
      t.entries = [lostEntry, stoppedEntry] ∧
      t.db.audit.rows = records plainCrates 0 genesisHash [lostEntry, stoppedEntry] ∧
      ∀ op ∈ restartedLife, op.Intact := by
  obtain ⟨t, ht⟩ := Option.isSome_iff_exists.1
    (show (Machine.run (step plainCrates) init restartedLife).isSome = true from rfl)
  have hentries : (Machine.run (step plainCrates) init restartedLife).map Trail.entries =
      some [lostEntry, stoppedEntry] := rfl
  have hrows : (Machine.run (step plainCrates) init restartedLife).map (·.db.audit.rows) =
      some (records plainCrates 0 genesisHash [lostEntry, stoppedEntry]) := rfl
  rw [ht, Option.map_some, Option.some.injEq] at hentries hrows
  exact ⟨t, ht, hentries, hrows, by simp [restartedLife, Op.Intact]⟩

/-- The record of the retention run in the next life. -/
def prunedRecord : AuditEntry :=
  prunedEntry nextMidnight 1 1 (record plainCrates 1 genesisHash lostEntry).hash

/-- The functions of the other crates with this record read back as well. -/
def prunedCrates : Crates := Crates.plain [lostEntry, stoppedEntry, prunedRecord]

/-- The same life with a retention run that deletes record 1, and a second restart. -/
def prunedLife : List Op :=
  restartedLife ++
    [.pruneBefore true stoppedEntry.ts nextMidnight nextMidnight, .stop, .openStore true ⟨0⟩]

/-- The entries of the run and the record of its retention are read back. -/
theorem readsBack_prunedCrates :
    ∀ e ∈ [lostEntry, stoppedEntry, prunedRecord], ReadsBack prunedCrates e := by
  have hpairs : [lostEntry, stoppedEntry, prunedRecord].Pairwise fun a b =>
      entryText a ≠ entryText b := by
    decide +kernel
  exact fun e he => readsBack_plain hpairs he

/-- The walk behind a retention run reports no error, and the head that was written. -/
theorem verifyChain_of_run_prunedLife : ∃ t,
    Machine.run (step prunedCrates) init prunedLife = some t ∧
      t.db.audit.rows.map (·.seq) = [2, 3] ∧
      (verifyChain prunedCrates t.db).error = none ∧
      (verifyChain prunedCrates t.db).records = 2 ∧
      ∀ written, t.db.chainHead = some written →
        (verifyChain prunedCrates t.db).head = written := by
  have hseqs : (Machine.run (step prunedCrates) init prunedLife).map
      (·.db.audit.rows.map (·.seq)) = some [2, 3] := by
    decide +kernel
  obtain ⟨t, ht, hrows⟩ := Option.map_eq_some_iff.1 hseqs
  have hentries : (Machine.run (step prunedCrates) init prunedLife).map Trail.entries =
      some [lostEntry, stoppedEntry, prunedRecord] := rfl
  rw [ht, Option.map_some, Option.some.injEq] at hentries
  have hread := readsBack_prunedCrates
  rw [← hentries] at hread
  have hops : ∀ op ∈ prunedLife, op.Intact := by simp [prunedLife, restartedLife, Op.Intact]
  obtain ⟨herr, hcount, -, -, hhead⟩ := verifyChain_of_run hops ht hread
  rw [← List.length_map (·.seq), hrows] at hcount
  exact ⟨t, ht, hrows, herr, hcount, hhead⟩

end Trail

end AuditGateway
