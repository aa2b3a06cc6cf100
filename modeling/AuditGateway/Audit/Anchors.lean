import AuditGateway.Audit.Tamper

set_option relaxedAutoImplicit false
set_option autoImplicit false

/-!
# Anchors

A record known from outside the database is an anchor: the trail must still hold it, unless
retention removed it since. The walk over the chain is one statement, and every anchor is looked up
in one of its own, so that a retention run can come in between.

## Main definitions

* `Anchor`, `verifyAgainst` — the walk, and the anchors behind it.
* `Trail.Names` — the anchor is a record that was written.

## Main results

* `Trail.Whole.passes_iff` — when a trail of the store itself passes.
* `Trail.Chained.unchanged_of_verifyAgainst` — what any database that passes holds of the records
  before an anchor.
-/

namespace AuditGateway

/-- A record known from outside the database (the last delivery of an exporter, or a head noted down
earlier): the trail must still hold it, unchanged. -/
structure Anchor where
  seq : ℤ
  hash : String
  /-- Where it comes from, for the error message. -/
  source : String

/-- What is wrong with an anchor behind the walk. `db` is the database it is looked up in. -/
def Anchor.problem (report : VerifyReport) (db : Database) (anchor : Anchor) : Option String :=
  if ∀ last ∈ report.lastSeq, last < anchor.seq then
    some ("records up to " ++ toString anchor.seq ++ " are missing: " ++ anchor.source ++
      " had record " ++ toString anchor.seq ++ " (hash " ++ anchor.hash ++ ")")
  else if ∃ first ∈ report.firstSeq, anchor.seq < first then none -- removed by retention since
  else if (db.audit.rowAt anchor.seq).map (·.hash) = some anchor.hash then none
  else
    some ("record " ++ toString anchor.seq ++ " differs from " ++ anchor.source ++ " (hash " ++
      anchor.hash ++ ")")

/-- The walk, and a check that every anchor is still in the trail. Each comes with the database at
the time of its lookup. -/
def verifyAgainst (c : Crates) (db : Database) (anchors : List (Anchor × Database)) :
    VerifyReport :=
  let report := verifyChain c db
  if report.error.isSome then report
  else { report with error := anchors.findSome? fun a => a.1.problem report a.2 }

/-! ## What the walk reports of its bounds -/

/-- The numbers that a walk without an error reports. -/
theorem verifyRows_bounds {c : Crates} {report : VerifyReport} {gap : Option (ℤ × String)}
    {rows : List Row} (h : (verifyRows c report gap rows).error = none) :
    (verifyRows c report gap rows).firstSeq = report.firstSeq.or (rows.head?.map (·.seq)) ∧
      (verifyRows c report gap rows).lastSeq =
        (rows.getLast?.map (·.seq)).or report.lastSeq := by
  induction rows generalizing report gap with
  | nil =>
    cases gap with
    | none => simp [verifyRows]
    | some gap => simp [verifyRows] at h
  | cons row rows ih =>
    rw [verifyRows] at h ⊢
    cases hrow : verifyRow c report gap row with
    | error e => simp [hrow] at h
    | ok gap' =>
      simp only [hrow] at h ⊢
      obtain ⟨hfirst, hlast⟩ := ih h
      rw [hfirst, hlast]
      constructor
      · cases hseq : report.firstSeq with
        | none => simp [VerifyReport.pass, hseq]
        | some n => simp [VerifyReport.pass, hseq]
      · cases rows with
        | nil => simp [VerifyReport.pass]
        | cons row' rows =>
          rw [List.getLast?_cons_cons]
          cases hl : (row' :: rows).getLast? with
          | none => simp at hl
          | some b => rfl

/-- A walk without error reports the first and the last number. -/
theorem verifyChain_bounds {c : Crates} {db : Database} (h : (verifyChain c db).error = none) :
    (verifyChain c db).firstSeq = db.audit.rows.head?.map (·.seq) ∧
      (verifyChain c db).lastSeq = db.audit.rows.getLast?.map (·.seq) := by
  obtain ⟨hfirst, hlast⟩ := verifyRows_bounds h
  rw [Option.or_none] at hlast
  exact ⟨hfirst, hlast⟩

/-- Every check has to pass. -/
theorem verifyAgainst_error_eq_none {c : Crates} {db : Database}
    {anchors : List (Anchor × Database)} :
    (verifyAgainst c db anchors).error = none ↔
      (verifyChain c db).error = none ∧
        ∀ a ∈ anchors, a.1.problem (verifyChain c db) a.2 = none := by
  unfold verifyAgainst
  cases herr : (verifyChain c db).error with
  | some e => simp [herr]
  | none => simp [List.findSome?_eq_none_iff, herr]

/-- What an anchor demands of rows that verify. -/
theorem Anchor.problem_eq_none_iff {c : Crates} {db db' : Database} {anchor : Anchor}
    (h : (verifyChain c db).error = none) :
    anchor.problem (verifyChain c db) db' = none ↔
      (∃ last ∈ db.audit.rows.getLast?, anchor.seq ≤ last.seq) ∧
        ((∃ first ∈ db.audit.rows.head?, anchor.seq < first.seq) ∨
          ∃ row ∈ db'.audit.rows, row.seq = anchor.seq ∧ row.hash = anchor.hash) := by
  obtain ⟨hfirst, hlast⟩ := verifyChain_bounds h
  have hlookup : (db'.audit.rowAt anchor.seq).map (·.hash) = some anchor.hash ↔
      ∃ row ∈ db'.audit.rows, row.seq = anchor.seq ∧ row.hash = anchor.hash := by
    rw [Option.map_eq_some_iff]
    simp only [KeyTable.rowAt_eq_some_iff, and_assoc]
  unfold Anchor.problem
  rw [hfirst, hlast]
  split_ifs with hmissing hpruned hfound
  · refine iff_of_false (by simp) fun hno => ?_
    obtain ⟨⟨last, hmem, hle⟩, -⟩ := hno
    have hlt := hmissing last.seq (Option.mem_map_of_mem _ hmem)
    omega
  · push Not at hmissing
    obtain ⟨n, hn, hle⟩ := hmissing
    obtain ⟨last, hmem, rfl⟩ := Option.mem_map.1 hn
    obtain ⟨m, hm, hlt⟩ := hpruned
    obtain ⟨first, hfirst', rfl⟩ := Option.mem_map.1 hm
    exact iff_of_true rfl ⟨⟨last, hmem, hle⟩, .inl ⟨first, hfirst', hlt⟩⟩
  · push Not at hmissing
    obtain ⟨n, hn, hle⟩ := hmissing
    obtain ⟨last, hmem, rfl⟩ := Option.mem_map.1 hn
    exact iff_of_true rfl ⟨⟨last, hmem, hle⟩, .inr (hlookup.1 hfound)⟩
  · refine iff_of_false (by simp) fun hno => ?_
    rcases hno.2 with ⟨first, hfirst', hlt⟩ | hrow
    · exact hpruned ⟨first.seq, Option.mem_map_of_mem _ hfirst', hlt⟩
    · exact hfound (hlookup.2 hrow)

namespace Trail

variable {c : Crates} {s t : Trail}

/-- The anchor is a record that was written. -/
def Names (s : Trail) (anchor : Anchor) : Prop :=
  ∃ row ∈ s.written, row.seq = anchor.seq ∧ row.hash = anchor.hash

/-- What was written stays written. -/
theorem Chained.written_subset (h : Chained c s) {op : Op} (hs : step c s op = some t) :
    s.written ⊆ t.written := by
  cases h.change hs with
  | closed => exact List.Subset.refl _
  | unchanged => exact List.Subset.refl _
  | opened => exact List.Subset.refl _
  | truncated => exact List.subset_append_left ..
  | appended => exact List.subset_append_left ..
  | pruned => exact List.subset_append_left ..
  | lost => exact List.Subset.refl _

/-- Every number up to that of a row ever written was given to one. -/
theorem Chained.exists_seq (h : Chained c s) {row : Row} (hrow : row ∈ s.written) {n : ℤ}
    (hpos : 0 < n) (hle : n ≤ row.seq) : ∃ r ∈ s.written, r.seq = n := by
  obtain ⟨first, hfirst⟩ := Option.isSome_iff_exists.1
    (List.isSome_head?.2 (List.ne_nil_of_mem hrow))
  have hone := (h.first hfirst).1
  exact h.linked.exists_num (List.mem_of_mem_head? hfirst) hrow (by omega) hle

/-- A row ever written that is not older than the first row held is held. -/
theorem Whole.mem_rows (hw : Whole c s) (h : Chained c s) {row first : Row}
    (hrow : row ∈ s.written) (hfirst : first ∈ s.db.audit.rows.head?)
    (hle : first.seq ≤ row.seq) : row ∈ s.db.audit.rows := by
  obtain ⟨l, hl⟩ := hw.suffix
  rw [← hl, List.mem_append] at hrow
  rcases hrow with hrow | hrow
  · -- what is in front of the rows held is older than the first of them
    have hmem : first ∈ s.db.audit.rows := List.mem_of_mem_head? hfirst
    have hlt := h.linked.pairwise_lt
    rw [← hl, List.pairwise_append] at hlt
    have := hlt.2.2 row hrow first hmem
    omega
  · exact hrow

/-- **When a trail of the store itself passes**, with anchors that were written before the walk:
exactly if no retention run removes the record of an anchor between the walk and its lookup. -/
theorem Whole.passes_iff (hw : Whole c t) (h : Chained c t)
    (hread : ∀ e ∈ t.entries, ReadsBack c e) {anchors : List (Anchor × Database)}
    (hanchors : ∀ a ∈ anchors, t.Names a.1 ∧
      ∃ u, Chained c u ∧ t.written ⊆ u.written ∧ u.db = a.2) :
    (verifyAgainst c t.db anchors).error = none ↔
      ∀ a ∈ anchors, (∃ row ∈ t.db.audit.rows, row.seq = a.1.seq) →
        ∃ row ∈ a.2.audit.rows, row.seq = a.1.seq := by
  have herr := verifyChain_error_eq_none_iff.2 (hw.verified h hread)
  rw [verifyAgainst_error_eq_none, and_iff_right herr]
  refine forall₂_congr fun a ha => ?_
  obtain ⟨⟨row, hrow, hseq, hhash⟩, u, hu, hsub, hdb⟩ := hanchors a ha
  have hlast : ∃ last ∈ t.db.audit.rows.getLast?, a.1.seq ≤ last.seq := by
    rw [hw.getLast?_eq]
    cases hl : t.written.getLast? with
    | none =>
      rw [List.getLast?_eq_none_iff.1 hl] at hrow
      cases hrow
    | some last =>
      have hle := h.seq_le_head hrow
      rw [head_eq_of_getLast? hl] at hle
      exact ⟨last, rfl, hseq ▸ hle⟩
  rw [Anchor.problem_eq_none_iff herr, and_iff_right hlast]
  constructor
  · rintro (⟨first, hfirst, hlt⟩ | ⟨found, hfound, hfseq, -⟩) ⟨held, hheld, hhseq⟩
    · have hle := KeyTable.head?_key_le hfirst hheld
      omega
    · exact ⟨found, hfound, hfseq⟩
  · intro hkept
    obtain ⟨last, hlast, -⟩ := hlast
    cases hfirst : t.db.audit.rows.head? with
    | none =>
      rw [List.head?_eq_none_iff.1 hfirst] at hlast
      cases hlast
    | some first =>
      by_cases hlt : a.1.seq < first.seq
      · exact .inl ⟨first, rfl, hlt⟩
      · -- the record was held at the walk; a row with its number is still the row itself
        have hheld := hw.mem_rows h hrow hfirst (by omega)
        obtain ⟨found, hfound, hfseq⟩ := hkept ⟨row, hheld, hseq⟩
        rw [← hdb] at hfound
        have hsame := hu.eq_of_seq_eq (hu.held.subset hfound) (hsub hrow) (hfseq.trans hseq.symm)
        rw [hdb] at hfound
        exact .inr ⟨found, hfound, hfseq, by rw [hsame, hhash]⟩

/-- **What any database that passes holds of the records before an anchor**: nothing but records
that were written, and none of those is missing between its first record and the anchor. -/
theorem Chained.unchanged_of_verifyAgainst (h : Chained c t)
    (hread : ∀ e ∈ t.entries, ReadsBack c e)
    (hjson : ∀ e ∈ t.entries, '\n' ∉ (c.toJson e).toList) {db : Database}
    (hsha : CollisionFree c t.written db.audit.rows) {anchors : List Anchor}
    (hv : (verifyAgainst c db (anchors.map fun a => (a, db))).error = none) {a : Anchor}
    (ha : a ∈ anchors) (hnames : t.Names a) :
    (∃ last ∈ db.audit.rows.getLast?, a.seq ≤ last.seq) ∧
      (∀ row ∈ db.audit.rows, 0 < row.seq → row.seq ≤ a.seq → row ∈ t.written) ∧
      ∀ row ∈ t.written, row.seq ≤ a.seq → (∀ first ∈ db.audit.rows.head?, first.seq ≤ row.seq) →
        row ∈ db.audit.rows := by
  obtain ⟨herr, hproblems⟩ := verifyAgainst_error_eq_none.1 hv
  have hver := verifyChain_error_eq_none_iff.1 herr
  obtain ⟨hlast, hheld⟩ :=
    (Anchor.problem_eq_none_iff herr).1 (hproblems (a, db) (List.mem_map_of_mem ha))
  dsimp only at hlast hheld
  obtain ⟨row₀, hrow₀, hseq₀, hhash₀⟩ := hnames
  have hcontents : ∀ b ∈ t.written, ∀ b' ∈ db.audit.rows, b.hash = b'.hash →
      b.prevHash = b'.prevHash ∧ b.seq = b'.seq ∧ b.body = b'.body := by
    intro b hb b' hb' hhash
    exact h.contents_eq hjson hb (h.sound hread hb) (hver.sound b' hb') hhash (hsha b hb b' hb')
  refine ⟨hlast, ?_⟩
  rcases hheld with ⟨first, hfirst, hlt⟩ | ⟨found, hfound, hseq, hhash⟩
  · -- everything up to the anchor was removed by retention
    refine ⟨fun row hrow hpos hle => ?_, fun row hrow hle hfrom => ?_⟩
    · have := db.audit.head?_key_le hfirst hrow
      omega
    · have := hfrom first hfirst
      omega
  · have hpair : ∀ b ∈ t.written, ∀ b' ∈ db.audit.rows, b.seq = b'.seq → b.seq ≤ a.seq →
        b = b' := by
      intro b hb b' hb' hbseq hle
      have hbhash : b.hash = b'.hash :=
        HashChain.hash_eq_of_le h.linked hver.linked
          (fun r hr r' hr' _ hh => (hcontents r hr r' hr' hh).1) hrow₀ hfound
          (hseq₀.trans hseq.symm) (hhash₀.trans hhash.symm) hb hb' hbseq (by omega)
          (fun r hr => h.eq_of_seq_eq hr hrow₀) (fun r hr => db.audit.eq_of_key_eq hr hfound)
      obtain ⟨hprev, -, hbody⟩ := hcontents b hb b' hb' hbhash
      have hcols := (h.sound hread hb).toColumns_eq (hver.sound b' hb') hbody
      cases b
      cases b'
      simp only at hcols hbseq hbhash hprev hbody
      rw [hcols, hbseq, hbhash, hprev, hbody]
    refine ⟨fun row hrow hpos hle => ?_, fun row hrow hle hfrom => ?_⟩
    · obtain ⟨b, hb, hbseq⟩ := h.exists_seq hrow₀ hpos (by omega)
      rw [← hpair b hb row hrow hbseq (by omega)]
      exact hb
    · obtain ⟨first, hfirst⟩ := Option.isSome_iff_exists.1
        (List.isSome_head?.2 (List.ne_nil_of_mem hfound))
      obtain ⟨b', hb', hbseq⟩ := hver.linked.exists_num (List.mem_of_mem_head? hfirst) hfound
        (hfrom first hfirst) (by omega)
      rw [hpair row hrow b' hb' hbseq.symm hle]
      exact hb'

end Trail

end AuditGateway
