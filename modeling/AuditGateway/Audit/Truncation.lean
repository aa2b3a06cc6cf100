import AuditGateway.Audit.Chain

set_option relaxedAutoImplicit false
set_option autoImplicit false

/-!
# Lost newest records

What happens when the newest rows get lost while the gateway is stopped. The chain head still
tells how far the trail had reached: no number is used twice, the next start records the gap, and
the walk reports it as long as a record from before it and one from after it are held.

## Main definitions

* `Trail.Truncated` — the newest row is older than the chain head.

## Main results

* `Trail.openStore_of_truncated`, `Trail.openStore_of_not_truncated` — what a start records.
* `Trail.gap_of_run` — the lost numbers never come back.
* `Trail.numbers_and_gaps` — numbers, starts and gaps over every run.
* `Trail.gap_not_reported` — without a record from after the gap it goes unreported.
-/

namespace AuditGateway.Trail

variable {c : Crates} {s t : Trail}

/-- The newest row held is older than the newest record ever written. -/
def Truncated (db : Database) : Prop :=
  ∃ written, db.chainHead = some written ∧ foundSeq db < written.1

/-- The numbers of a trail are those up to the head of all that was ever written. -/
theorem truncated_iff (h : Chained c s) : Truncated s.db ↔ foundSeq s.db < s.head.1 := by
  constructor
  · rintro ⟨written, hwritten, hlt⟩
    rcases h.chainHead_eq with hch | ⟨hch, -⟩
    · rw [hch, Option.some.injEq] at hwritten
      rwa [hwritten]
    · simp [hch] at hwritten
  · intro hlt
    rcases h.chainHead_eq with hch | ⟨-, he⟩
    · exact ⟨s.head, hch, hlt⟩
    · -- nothing was ever written
      have hrows : s.db.audit.rows = [] := List.sublist_nil.1 (h.written_eq_nil he ▸ h.held)
      have hhead := h.head_fst
      simp [foundSeq, KeyTable.lastRow, hrows, hhead, he] at hlt

/-- The newest row is older than the head exactly if it is not the newest row ever written. -/
theorem truncated_iff_getLast?_ne (h : Chained c s) :
    Truncated s.db ↔ s.db.audit.rows.getLast? ≠ s.written.getLast? := by
  rw [truncated_iff h]
  constructor
  · intro hlt heq
    cases hw : s.written.getLast? with
    | none =>
      have hnil := List.getLast?_eq_none_iff.1 hw
      have hhead : s.head = (0, genesisHash) := by simp [head, hnil, headOf]
      simp [foundSeq, KeyTable.lastRow, heq, hw, hhead] at hlt
    | some r =>
      have hhead := head_eq_of_getLast? hw
      simp [foundSeq, KeyTable.lastRow, heq, hw, hhead] at hlt
  · intro hne
    by_contra hle
    exact hne (h.newest_of_le (not_lt.1 hle))

/-- A start on a trail whose newest records are missing records just that. -/
theorem openStore_of_truncated (h : Chained c s) (hlt : foundSeq s.db < s.head.1) {commits : Bool}
    {now : DateTime} {db : Database} {store : AuditStore}
    (ho : openStore c commits now s.db = .ok (db, store)) :
    db.audit.rows = s.db.audit.rows ++
      [record c (s.head.1 + 1) s.head.2 (truncatedEntry now s.head.1 (foundSeq s.db))] := by
  have hle : ∀ r ∈ s.db.audit.rows, r.seq ≤ (openHead s.db).1 := by
    rw [openHead_eq h]
    exact h.seq_le
  rcases openStore_inv hle ho with ⟨-, -, hw⟩ | ⟨hf, -, -⟩
  · rw [openHead_eq h] at hw
    exact hw.rows_eq
  · simp [openHead_eq h, hlt] at hf

/-- A start on a trail that holds its newest record changes nothing. -/
theorem openStore_of_not_truncated (h : Chained c s) (hle : ¬ foundSeq s.db < s.head.1)
    (commits : Bool) (now : DateTime) :
    openStore c commits now s.db = .ok (s.db, ⟨s.head.1, s.head.2⟩) := by
  unfold openStore
  rw [openHead_eq h, decide_eq_false hle]

/-- A start whose transaction commits succeeds. -/
theorem openStore_succeeds (h : Chained c s) (now : DateTime) :
    ∃ db store, openStore c true now s.db = .ok (db, store) := by
  by_cases hlt : foundSeq s.db < s.head.1
  · obtain ⟨db, store, happ⟩ := @AuditGateway.append_eq_ok c s.db ⟨s.head.1, s.head.2⟩ h.seq_le
      [truncatedEntry now s.head.1 (foundSeq s.db)]
    refine ⟨db, store, ?_⟩
    unfold openStore
    rw [openHead_eq h, decide_eq_true hlt]
    simp only [happ]
    rfl
  · exact ⟨_, _, openStore_of_not_truncated h hlt true now⟩

/-! ## Gaps -/

/-- The rows held are numbered up to `lo` or behind `hi`, and so are all that follow. -/
structure Gap (lo hi : ℤ) (s : Trail) : Prop where
  outside : ∀ r ∈ s.db.audit.rows, r.seq ≤ lo ∨ hi < r.seq
  passed : hi < s.head.1

/-- **The lost numbers never come back**: what every operation keeps. -/
theorem gap_step {lo hi : ℤ} (h : Chained c s) (hg : Gap lo hi s) {op : Op}
    (hs : step c s op = some t) : Gap lo hi t := by
  obtain ⟨hhead, hrows⟩ := h.frame hs
  have hpassed := hg.passed
  refine ⟨fun r hr => ?_, by omega⟩
  rcases hrows r hr with hr | hr
  · exact hg.outside r hr
  · omega

/-- A gap stays where it is. -/
theorem gap_of_run {lo hi : ℤ} (h : Chained c s) (hg : Gap lo hi s) {ops : List Op}
    (hr : Machine.run (step c) s ops = some t) : Chained c t ∧ Gap lo hi t := by
  have hstep : ∀ s op t, Chained c s ∧ Gap lo hi s → step c s op = some t →
      Chained c t ∧ Gap lo hi t := by
    rintro s op t ⟨h, hg⟩ hs
    exact ⟨chained_step h hs, gap_step h hg hs⟩
  exact Machine.run_invariant hstep ⟨h, hg⟩ hr

/-- The rows up to the newest one have at most its number. -/
theorem seq_le_foundSeq {db : Database} {r : Row} (hr : r ∈ db.audit.rows) :
    r.seq ≤ foundSeq db := by
  cases hlast : db.audit.lastRow with
  | none =>
    rw [List.getLast?_eq_none_iff.1 hlast] at hr
    cases hr
  | some head =>
    rw [foundSeq, hlast]
    exact KeyTable.key_le_lastRow hlast hr

/-- A start on a trail whose newest records are missing leaves the gap behind. -/
theorem gap_of_openStore (h : Chained c s) (hlt : foundSeq s.db < s.head.1) {now : DateTime}
    (hs : step c s (.openStore true now) = some t) : Gap (foundSeq s.db) s.head.1 t := by
  have ht := chained_step h hs
  obtain ⟨db, store, ho⟩ := openStore_succeeds h now
  have hrows := openStore_of_truncated h hlt ho
  simp only [step, ho] at hs
  cases hs
  refine ⟨fun r hr => ?_, ?_⟩
  · rw [hrows, List.mem_append, List.mem_singleton] at hr
    rcases hr with hr | rfl
    · exact .inl (seq_le_foundSeq hr)
    · right
      rw [record_seq]
      omega
  · have hmem : record c (s.head.1 + 1) s.head.2 (truncatedEntry now s.head.1 (foundSeq s.db)) ∈
        db.audit.rows := by simp [hrows]
    have hle := ht.seq_le _ hmem
    rw [record_seq] at hle
    omega

/-- The walk reports a gap between two rows held. -/
theorem Gap.error_ne_none {lo hi : ℤ} (hg : Gap lo hi t) (hlohi : lo < hi) {a b : Row}
    (ha : a ∈ t.db.audit.rows) (hb : b ∈ t.db.audit.rows) (hlo : a.seq ≤ lo) (hhi : hi < b.seq) :
    (verifyChain c t.db).error ≠ none := by
  intro herr
  have hlinked := (verifyChain_error_eq_none_iff.1 herr).linked
  obtain ⟨r, hr, hseq⟩ := hlinked.exists_num ha hb (n := lo + 1) (by omega) (by omega)
  have := hg.outside r hr
  omega

/-- While the store is open, a row from after the gap is held. -/
theorem Gap.exists_newest {lo hi : ℤ} (hg : Gap lo hi t) (h : Chained c t)
    (hpos : 0 ≤ hi) (hopen : t.store.isSome) : ∃ r ∈ t.db.audit.rows, hi < r.seq := by
  have hnewest := h.newest hopen
  have hpassed := hg.passed
  cases hw : t.written.getLast? with
  | none =>
    have hnil := List.getLast?_eq_none_iff.1 hw
    simp [head, hnil, headOf] at hpassed
    omega
  | some r =>
    rw [hw] at hnewest
    rw [head_eq_of_getLast? hw] at hpassed
    exact ⟨r, List.mem_of_getLast? hnewest, hpassed⟩

/-- **Numbers and gaps**, after every run, also with losses of the newest rows while the gateway
is stopped. The numbers ever used go up. A start finds the newest row older than the chain head
exactly if the newest row ever written got lost; it then records just the gap, and otherwise
nothing. Such a gap is reported ever after as long as a record from before it is held and one
from after it, which there is whenever the store is open. -/
theorem numbers_and_gaps {ops : List Op} (hr : Machine.run (step c) init ops = some s) :
    s.written.Pairwise (fun r r' => r.seq < r'.seq) ∧
    (Truncated s.db ↔ s.db.audit.rows.getLast? ≠ s.written.getLast?) ∧
    (∀ now, ∃ db store, openStore c true now s.db = .ok (db, store)) ∧
    (∀ commits now db store, openStore c commits now s.db = .ok (db, store) →
      (∀ written, s.db.chainHead = some written → foundSeq s.db < written.1 →
        db.audit.rows = s.db.audit.rows ++
          [record c (written.1 + 1) written.2 (truncatedEntry now written.1 (foundSeq s.db))]) ∧
      (¬ Truncated s.db → db = s.db)) ∧
    ∀ written, s.db.chainHead = some written → foundSeq s.db < written.1 →
      ∀ now s' later t, step c s (.openStore true now) = some s' →
        Machine.run (step c) s' later = some t →
        (∃ a ∈ t.db.audit.rows, a.seq ≤ foundSeq s.db) →
        (t.store.isSome ∨ ∃ b ∈ t.db.audit.rows, written.1 < b.seq) →
        (verifyChain c t.db).error ≠ none := by
  have h := chained_of_run hr
  have hwritten : ∀ written, s.db.chainHead = some written → foundSeq s.db < written.1 →
      written = s.head ∧ foundSeq s.db < s.head.1 := by
    intro written hch hlt
    have hlt' := (truncated_iff h).1 ⟨written, hch, hlt⟩
    rcases h.chainHead_eq with hch' | ⟨hch', -⟩
    · exact ⟨Option.some.inj (hch.symm.trans hch'), hlt'⟩
    · simp [hch] at hch'
  refine ⟨h.linked.pairwise_lt, truncated_iff_getLast?_ne h, openStore_succeeds h, ?_, ?_⟩
  · intro commits now db store ho
    refine ⟨fun written hch hlt => ?_, fun hnot => ?_⟩
    · obtain ⟨rfl, hlt⟩ := hwritten written hch hlt
      exact openStore_of_truncated h hlt ho
    · rw [truncated_iff h] at hnot
      rw [openStore_of_not_truncated h hnot commits now] at ho
      cases ho
      rfl
  · rintro written hch hlt now s' later t hs hrun ⟨a, ha, hlo⟩ hafter
    obtain ⟨rfl, hlt⟩ := hwritten written hch hlt
    obtain ⟨ht, hg⟩ := gap_of_run (chained_step h hs) (gap_of_openStore h hlt hs) hrun
    have hpos : 0 ≤ s.head.1 := by
      rw [h.head_fst]
      exact Int.natCast_nonneg _
    obtain ⟨b, hb, hhi⟩ : ∃ b ∈ t.db.audit.rows, s.head.1 < b.seq :=
      hafter.elim (hg.exists_newest ht hpos) id
    exact hg.error_ne_none hlt ha hb hlo hhi

/-- A life that loses its newest record while it is stopped. -/
def truncatedLife : List Op :=
  [.openStore true ⟨0⟩, .append true [lostEntry, stoppedEntry], .stop, .lose 1]

/-- The next start records that record 2 is missing; then that record is lost as well. -/
theorem exists_run_truncatedLife : ∃ s s' t written,
    Machine.run (step plainCrates) init truncatedLife = some s ∧
      s.db.chainHead = some written ∧ foundSeq s.db = 1 ∧ written.1 = 2 ∧
      step plainCrates s (.openStore true stoppedEntry.ts) = some s' ∧ s'.store.isSome ∧
      s'.db.audit.rows.head? = some (record plainCrates 1 genesisHash lostEntry) ∧
      Machine.run (step plainCrates) s' [.stop, .lose 1] = some t ∧
      t.db.audit.rows = records plainCrates 0 genesisHash [lostEntry] := by
  set first := Machine.run (step plainCrates) init truncatedLife with hfirst
  set second :=
    first.bind fun s => step plainCrates s (.openStore true stoppedEntry.ts) with hsecond
  set third := second.bind fun s => Machine.run (step plainCrates) s [.stop, .lose 1] with hthird
  obtain ⟨s, hs⟩ := Option.isSome_iff_exists.1 (show first.isSome = true from rfl)
  obtain ⟨s', hs'⟩ := Option.isSome_iff_exists.1 (show second.isSome = true from rfl)
  obtain ⟨t, ht⟩ := Option.isSome_iff_exists.1 (show third.isSome = true from rfl)
  have hfound : first.map (fun s => foundSeq s.db) = some 1 := rfl
  have hhead : first.map (fun s => s.db.chainHead.map (·.1)) = some (some 2) := rfl
  have hopen : second.map (fun s => s.store.isSome) = some true := rfl
  have hrow : second.map (fun s => s.db.audit.rows.head?) =
      some (some (record plainCrates 1 genesisHash lostEntry)) := rfl
  have hrows : third.map (fun s => s.db.audit.rows) =
      some (records plainCrates 0 genesisHash [lostEntry]) := rfl
  rw [hs, Option.map_some, Option.some.injEq] at hfound hhead
  rw [hs', Option.map_some, Option.some.injEq] at hopen hrow
  rw [ht, Option.map_some, Option.some.injEq] at hrows
  obtain ⟨written, hwritten, hseq⟩ := Option.map_eq_some_iff.1 hhead
  rw [hsecond, hs, Option.bind_some] at hs'
  rw [hthird, hsecond, hs, Option.bind_some, hs', Option.bind_some] at ht
  exact ⟨s, s', t, written, hs, hwritten, hfound, hseq, hs', hopen, hrow, ht, hrows⟩

/-- A store whose end was cut off is opened again, and the walk reports the gap. -/
theorem numbers_and_gaps_truncatedLife : ∃ s s',
    Machine.run (step plainCrates) init truncatedLife = some s ∧ Truncated s.db ∧
      step plainCrates s (.openStore true stoppedEntry.ts) = some s' ∧
      (verifyChain plainCrates s'.db).error ≠ none := by
  obtain ⟨s, s', -, written, hs, hwritten, hfound, hseq, hs', hopen, hrow, -⟩ :=
    exists_run_truncatedLife
  have hlt : foundSeq s.db < written.1 := by omega
  refine ⟨s, s', hs, ⟨written, hwritten, hlt⟩, hs', ?_⟩
  refine (numbers_and_gaps hs).2.2.2.2 written hwritten hlt _ s' [] s' hs' rfl ?_ (.inl hopen)
  exact ⟨_, List.mem_of_mem_head? hrow, by rw [record_seq, hfound]⟩

/-- The first record of a trail alone is verified. -/
theorem verified_singleton {e : AuditEntry} (he : ReadsBack c e) :
    Verified c (records c 0 genesisHash [e]) := by
  refine ⟨linked_records c 0 genesisHash [e], ?_, ?_, ?_⟩
  · rw [records_cons, records_nil, List.forall_mem_singleton]
    exact he.sound _ _
  · rintro _ ⟨⟩ -
    rfl
  · rintro _ ⟨⟩ hne
    exact absurd rfl hne

/-- **Without a record from after the gap it goes unreported**: the start records that record 2 is
missing, but once that record is lost as well the walk accepts record 1 alone. -/
theorem gap_not_reported : ∃ s s' t written,
    Machine.run (step plainCrates) init truncatedLife = some s ∧
      s.db.chainHead = some written ∧ foundSeq s.db < written.1 ∧
      step plainCrates s (.openStore true stoppedEntry.ts) = some s' ∧
      Machine.run (step plainCrates) s' [.stop, .lose 1] = some t ∧
      (∃ a ∈ t.db.audit.rows, a.seq ≤ foundSeq s.db) ∧
      (verifyChain plainCrates t.db).error = none := by
  obtain ⟨s, s', t, written, hs, hwritten, hfound, hseq, hs', -, -, ht, hrows⟩ :=
    exists_run_truncatedLife
  refine ⟨s, s', t, written, hs, hwritten, by omega, hs', ht, ?_, ?_⟩
  · rw [hrows, hfound]
    exact ⟨_, List.mem_cons_self .., le_rfl⟩
  · rw [verifyChain_error_eq_none_iff, hrows]
    exact verified_singleton (readsBack_plainCrates lostEntry (List.mem_cons_self ..))

end AuditGateway.Trail
