import AuditGateway.Audit.Store

set_option relaxedAutoImplicit false
set_option autoImplicit false

/-!
# Verification of the chain

The walk over all rows that checks every link, hash and indexed column. The walk keeps a gap at
the start of the trail in mind until a retention record accounts for it; everything else is
decided row by row, so that the rows it accepts are described without the walk.

## Main definitions

* `verifyChain` — the walk.
* `Row.Sound` — the checks of one row that do not depend on the others.
* `Row.Vouches` — a retention record that names a number and a hash.
* `Verified` — what the walk accepts.

## Main results

* `verifyChain_error_eq_none_iff` — the walk reports no error exactly on verified rows.
* `verifyChain_report` — what it counts and which head it reports then.
-/

namespace AuditGateway

/-! ## The walk -/

/-- What the walk over the chain reports. -/
structure VerifyReport where
  records : ℕ
  firstSeq : Option ℤ
  lastSeq : Option ℤ
  headHash : String
  /-- Set to `none` when the whole chain checks out. -/
  error : Option String

/-- The report behind one more row that passed. -/
def VerifyReport.pass (report : VerifyReport) (row : Row) : VerifyReport where
  records := report.records + 1
  firstSeq := report.firstSeq.orElse fun _ => some row.seq
  lastSeq := some row.seq
  headHash := row.hash
  error := report.error

/-- The error of a check that row `seq` failed. -/
def failRow {α : Type} (seq : ℤ) (msg : String) : Except String α :=
  .error ("record " ++ toString seq ++ ": " ++ msg)

/-- The check of a row against the rows before it. Returns the gap at the start of the trail
that no retention record has accounted for yet. -/
def verifyLink (report : VerifyReport) (gap : Option (ℤ × String)) (row : Row) :
    Except String (Option (ℤ × String)) :=
  match report.lastSeq with
  | none =>
    if row.seq = 1 ∧ row.prevHash ≠ genesisHash then
      failRow row.seq "first record does not link to the genesis hash"
    else if row.seq ≠ 1 then .ok (some (row.seq - 1, row.prevHash))
    else .ok gap
  | some last =>
    if row.seq ≠ last + 1 then
      failRow row.seq ("sequence gap after record " ++ toString last)
    else if row.prevHash ≠ report.headHash then
      failRow row.seq "does not link to the previous record"
    else .ok gap

/-- A retention record that names the gap at the start of the trail closes it. -/
def closeGap (gap : Option (ℤ × String)) : AuditEvent → Option (ℤ × String)
  | .retentionPruned _ lastSeq lastHash => if gap = some (lastSeq, lastHash) then none else gap
  | _ => gap

/-- The checks of a row's own contents. -/
def verifyContents (c : Crates) (gap : Option (ℤ × String)) (row : Row) :
    Except String (Option (ℤ × String)) :=
  if recordHash c row.prevHash row.seq row.body ≠ row.hash then
    failRow row.seq "hash mismatch (record was modified)"
  else
    match c.fromJson row.body with
    | .error e => failRow row.seq ("unreadable body: " ++ e)
    | .ok entry =>
      if columns c entry ≠ row.toColumns then
        failRow row.seq "indexed columns do not match the record body"
      else .ok (closeGap gap entry.event)

/-- All checks of one row. -/
def verifyRow (c : Crates) (report : VerifyReport) (gap : Option (ℤ × String)) (row : Row) :
    Except String (Option (ℤ × String)) := do
  verifyContents c (← verifyLink report gap row) row

/-- The walk over the rows. -/
def verifyRows (c : Crates) (report : VerifyReport) (gap : Option (ℤ × String)) :
    List Row → VerifyReport
  | [] =>
    match gap with
    | none => report
    | some (seq, _) =>
      { report with
        error := some ("records up to " ++ toString seq ++
          " are missing and no retention record accounts for them") }
  | row :: rows =>
    match verifyRow c report gap row with
    | .error e => { report with error := some e }
    | .ok gap =>
      verifyRows c (report.pass row) gap rows

/-- Walks the whole chain and checks every link, hash and indexed column. -/
def verifyChain (c : Crates) (db : Database) : VerifyReport :=
  verifyRows c
    { records := 0, firstSeq := none, lastSeq := none, headHash := genesisHash, error := none }
    none db.audit.rows

/-! ## What the walk accepts -/

/-- The stored hash is that of the row, and the indexed columns are those of its body. -/
def Row.Sound (c : Crates) (r : Row) : Prop :=
  recordHash c r.prevHash r.seq r.body = r.hash ∧
    ∃ entry, c.fromJson r.body = .ok entry ∧ columns c entry = r.toColumns

/-- The row is a retention record that names this number and hash. -/
def Row.Vouches (c : Crates) (r : Row) (gap : ℤ × String) : Prop :=
  ∃ entry deleted, c.fromJson r.body = .ok entry ∧
    entry.event = .retentionPruned deleted gap.1 gap.2

/-- The rows are linked and sound, and the first one starts the chain or follows the record
that a retention record among them names. -/
structure Verified (c : Crates) (rows : List Row) : Prop where
  linked : Linked rows
  sound : ∀ r ∈ rows, r.Sound c
  genesis : ∀ r ∈ rows.head?, r.seq = 1 → r.prevHash = genesisHash
  vouched : ∀ r ∈ rows.head?, r.seq ≠ 1 → ∃ v ∈ rows, v.Vouches c (r.seq - 1, r.prevHash)

/-- A gap stays open exactly behind an event that does not name it. -/
theorem closeGap_eq_some_iff {gap : Option (ℤ × String)} {event : AuditEvent} {g : ℤ × String} :
    closeGap gap event = some g ↔
      gap = some g ∧ ¬ ∃ deleted, event = .retentionPruned deleted g.1 g.2 := by
  unfold closeGap
  split
  · next d n h =>
    have hev : (∃ deleted, AuditEvent.retentionPruned d n h = .retentionPruned deleted g.1 g.2) ↔
        g = (n, h) := by
      simp [Prod.ext_iff, eq_comm]
    rw [hev]
    split_ifs with hgap
    · simp [hgap, eq_comm]
    · refine ⟨fun hg => ⟨hg, fun he => hgap (by rw [hg, he])⟩, And.left⟩
  · next hev => exact ⟨fun hg => ⟨hg, fun ⟨d, he⟩ => hev d _ _ he⟩, And.left⟩

/-- A row names the gap exactly when its event does. -/
theorem Row.vouches_iff {c : Crates} {r : Row} {entry : AuditEntry} {g : ℤ × String}
    (h : c.fromJson r.body = .ok entry) :
    r.Vouches c g ↔ ∃ deleted, entry.event = .retentionPruned deleted g.1 g.2 := by
  constructor
  · rintro ⟨e, d, he, hev⟩
    rw [h] at he
    cases he
    exact ⟨d, hev⟩
  · rintro ⟨d, hev⟩
    exact ⟨entry, d, h, hev⟩

/-- The checks of a row's contents pass exactly on a sound row, and leave the gap open exactly
if the row does not name it. -/
theorem verifyContents_eq_ok_iff {c : Crates} {gap gap' : Option (ℤ × String)} {row : Row} :
    verifyContents c gap row = .ok gap' ↔
      row.Sound c ∧ ∀ g, gap' = some g ↔ gap = some g ∧ ¬ row.Vouches c g := by
  unfold verifyContents Row.Sound
  by_cases hhash : recordHash c row.prevHash row.seq row.body = row.hash
  swap
  · simp [hhash, failRow]
  cases hbody : c.fromJson row.body with
  | error e => simp [hhash, failRow]
  | ok entry =>
    by_cases hcols : columns c entry = row.toColumns
    swap
    · simp [hhash, hcols, failRow]
    have hgap : (∀ g, gap' = some g ↔ gap = some g ∧ ¬ row.Vouches c g) ↔
        closeGap gap entry.event = gap' := by
      simp only [Row.vouches_iff hbody, ← closeGap_eq_some_iff]
      exact ⟨fun h => (Option.ext h).symm, fun h g => by rw [h]⟩
    rw [hgap]
    simp [hhash, hcols]

/-- The check against the row before passes exactly on the next row of the chain. -/
theorem verifyLink_eq_ok_iff {report : VerifyReport} {gap gap' : Option (ℤ × String)}
    {p row : Row} (hseq : report.lastSeq = some p.seq) (hhash : report.headHash = p.hash) :
    verifyLink report gap row = .ok gap' ↔
      (row.seq = p.seq + 1 ∧ row.prevHash = p.hash) ∧ gap' = gap := by
  unfold verifyLink
  rw [hseq, hhash]
  dsimp only
  split_ifs with h₁ h₂
  · simp [failRow, h₁]
  · simp [failRow, h₂]
  · simp_all [eq_comm]

/-- The check of the first row: it starts the chain, or leaves a gap before it. -/
theorem verifyLink_first_eq_ok_iff {report : VerifyReport} {gap' : Option (ℤ × String)}
    {row : Row} (hseq : report.lastSeq = none) :
    verifyLink report none row = .ok gap' ↔
      (row.seq = 1 → row.prevHash = genesisHash) ∧
        ∀ g, gap' = some g ↔ row.seq ≠ 1 ∧ g = (row.seq - 1, row.prevHash) := by
  unfold verifyLink
  rw [hseq]
  dsimp only
  split_ifs with h₁ h₂
  · simp [failRow, h₁]
  · simp only [Except.ok.injEq, h₂, false_imp_iff, true_and]
    exact ⟨fun h g => by simp [← h, h₂, eq_comm], fun h => ((h _).2 ⟨h₂, rfl⟩).symm⟩
  · have h₂ : row.seq = 1 := by simpa using h₂
    have h₁ : row.prevHash = genesisHash := by simpa [h₂] using h₁
    simp only [Except.ok.injEq, h₁, h₂, imp_self, true_and, ne_eq, not_true_eq_false, false_and,
      iff_false]
    cases gap' <;> simp

/-- All checks of a row behind `p` pass exactly on the next row of the chain, if it is sound. -/
theorem verifyRow_eq_ok_iff {c : Crates} {report : VerifyReport} {gap gap' : Option (ℤ × String)}
    {p row : Row} (hseq : report.lastSeq = some p.seq) (hhash : report.headHash = p.hash) :
    verifyRow c report gap row = .ok gap' ↔
      (row.seq = p.seq + 1 ∧ row.prevHash = p.hash) ∧ row.Sound c ∧
        ∀ g, gap' = some g ↔ gap = some g ∧ ¬ row.Vouches c g := by
  rw [verifyRow, ← verifyContents_eq_ok_iff]
  constructor
  · intro h
    cases hlink : verifyLink report gap row with
    | error e =>
      rw [hlink] at h
      cases h
    | ok gap₁ =>
      obtain ⟨hl, rfl⟩ := (verifyLink_eq_ok_iff hseq hhash).1 hlink
      rw [hlink] at h
      exact ⟨hl, h⟩
  · rintro ⟨hl, h⟩
    rw [(verifyLink_eq_ok_iff hseq hhash).2 ⟨hl, rfl⟩]
    exact h

/-- All checks of the first row. -/
theorem verifyRow_first_eq_ok_iff {c : Crates} {report : VerifyReport}
    {gap' : Option (ℤ × String)} {row : Row} (hseq : report.lastSeq = none) :
    verifyRow c report none row = .ok gap' ↔
      (row.seq = 1 → row.prevHash = genesisHash) ∧ row.Sound c ∧
        ∀ g, gap' = some g ↔ (row.seq ≠ 1 ∧ g = (row.seq - 1, row.prevHash)) ∧
          ¬ row.Vouches c g := by
  rw [verifyRow]
  constructor
  · intro h
    cases hlink : verifyLink report none row with
    | error e =>
      rw [hlink] at h
      cases h
    | ok gap₁ =>
      obtain ⟨hl, hgap⟩ := (verifyLink_first_eq_ok_iff hseq).1 hlink
      rw [hlink] at h
      obtain ⟨hs, hgap'⟩ := verifyContents_eq_ok_iff.1 h
      exact ⟨hl, hs, fun g => by rw [hgap', hgap]⟩
  · rintro ⟨hl, hs, hgap'⟩
    set gap₁ : Option (ℤ × String) :=
      if row.seq = 1 then none else some (row.seq - 1, row.prevHash) with hgap₁
    have hgap : ∀ g, gap₁ = some g ↔ row.seq ≠ 1 ∧ g = (row.seq - 1, row.prevHash) := by
      intro g
      rw [hgap₁]
      split_ifs with h <;> simp [h, eq_comm]
    rw [(verifyLink_first_eq_ok_iff hseq).2 ⟨hl, hgap⟩]
    exact verifyContents_eq_ok_iff.2 ⟨hs, fun g => by rw [hgap', hgap]⟩

/-- The rows pass the walk behind the row `p` exactly when they go on linked and sound, and one
of them names the gap that is still open.

**Proof sketch.** Induction on the rows. A gap that is open behind the first row is open before
it and not named by it, so one that is named later was open all along. -/
theorem verifyRows_error_eq_none_iff {c : Crates} {report : VerifyReport}
    {gap : Option (ℤ × String)} {p : Row} {rows : List Row}
    (hseq : report.lastSeq = some p.seq) (hhash : report.headHash = p.hash)
    (herr : report.error = none) :
    (verifyRows c report gap rows).error = none ↔
      Linked (p :: rows) ∧ (∀ r ∈ rows, r.Sound c) ∧
        ∀ g, gap = some g → ∃ v ∈ rows, v.Vouches c g := by
  classical
  induction rows generalizing report gap p with
  | nil =>
    have hl : Linked [p] := List.isChain_singleton _
    cases gap with
    | none => simp [verifyRows, herr, hl]
    | some g => simp [verifyRows, hl]
  | cons row rows ih =>
    rw [Linked, HashChain.linked_cons_cons, ← Linked, List.forall_mem_cons]
    rw [verifyRows]
    -- the gap behind the row, if the row passes
    set gap₁ := gap.filter fun g => ¬ row.Vouches c g with hgap₁
    have hfilter : ∀ g, gap₁ = some g ↔ gap = some g ∧ ¬ row.Vouches c g := by
      simp [hgap₁, Option.filter_eq_some_iff]
    by_cases hpass : (row.seq = p.seq + 1 ∧ row.prevHash = p.hash) ∧ row.Sound c
    · rw [(verifyRow_eq_ok_iff hseq hhash).2 ⟨hpass.1, hpass.2, hfilter⟩]
      dsimp only
      rw [@ih (report.pass row) gap₁ row rfl rfl herr]
      have hopen : (∀ g, gap₁ = some g → ∃ v ∈ rows, v.Vouches c g) ↔
          ∀ g, gap = some g → ∃ v ∈ row :: rows, v.Vouches c g := by
        simp only [hfilter, List.exists_mem_cons_iff]
        constructor
        · intro h g hg
          by_cases hv : row.Vouches c g
          · exact .inl hv
          · exact .inr (h g ⟨hg, hv⟩)
        · rintro h g ⟨hg, hv⟩
          exact (h g hg).resolve_left hv
      rw [hopen]
      simp only [hpass.1, hpass.2, and_self, true_and]
    · cases hv : verifyRow c report gap row with
      | error e =>
        simp only [reduceCtorEq, false_iff]
        exact fun h => hpass ⟨h.1.1, h.2.1.1⟩
      | ok gap' =>
        obtain ⟨hl, hs, -⟩ := (verifyRow_eq_ok_iff hseq hhash).1 hv
        exact absurd ⟨hl, hs⟩ hpass

/-- **What the walk accepts**: it reports no error exactly on verified rows. -/
theorem verifyChain_error_eq_none_iff {c : Crates} {db : Database} :
    (verifyChain c db).error = none ↔ Verified c db.audit.rows := by
  classical
  unfold verifyChain
  cases db.audit.rows with
  | nil =>
    simp only [verifyRows, true_iff]
    exact ⟨HashChain.linked_nil, by simp, by simp, by simp⟩
  | cons row rows =>
    rw [verifyRows]
    set g₀ : ℤ × String := (row.seq - 1, row.prevHash) with hg₀
    set gap₁ : Option (ℤ × String) :=
      if row.seq ≠ 1 ∧ ¬ row.Vouches c g₀ then some g₀ else none with hgap₁
    have hgap : ∀ g, gap₁ = some g ↔ (row.seq ≠ 1 ∧ g = g₀) ∧ ¬ row.Vouches c g := by
      intro g
      rw [hgap₁]
      split_ifs with h
      · simp only [Option.some.injEq]
        exact ⟨fun he => ⟨⟨h.1, he.symm⟩, he ▸ h.2⟩, fun he => he.1.2.symm⟩
      · simp only [false_iff]
        rintro ⟨⟨h₁, rfl⟩, h₂⟩
        exact h ⟨h₁, h₂⟩
    by_cases hpass : (row.seq = 1 → row.prevHash = genesisHash) ∧ row.Sound c
    · rw [(verifyRow_first_eq_ok_iff rfl).2 ⟨hpass.1, hpass.2, hgap⟩]
      dsimp only
      rw [@verifyRows_error_eq_none_iff c (VerifyReport.pass _ row) gap₁ row rows rfl rfl rfl]
      constructor
      · rintro ⟨hl, hs, hv⟩
        refine ⟨hl, List.forall_mem_cons.2 ⟨hpass.2, hs⟩, by simpa using hpass.1, ?_⟩
        intro r hr hne
        obtain rfl : row = r := by simpa using hr
        rw [List.exists_mem_cons_iff]
        by_cases hown : row.Vouches c g₀
        · exact .inl hown
        · exact .inr (hv g₀ ((hgap g₀).2 ⟨⟨hne, rfl⟩, hown⟩))
      · rintro ⟨hl, hs, -, hv⟩
        refine ⟨hl, (List.forall_mem_cons.1 hs).2, ?_⟩
        intro g hg
        obtain ⟨⟨hne, rfl⟩, hown⟩ := (hgap g).1 hg
        exact ((List.exists_mem_cons_iff ..).1 (hv row (by simp) hne)).resolve_left hown
    · cases hv : verifyRow c _ none row with
      | error e =>
        simp only [reduceCtorEq, false_iff]
        exact fun h => hpass ⟨by simpa using h.genesis, h.sound row (List.mem_cons_self ..)⟩
      | ok gap' =>
        obtain ⟨hl, hs, -⟩ := (verifyRow_first_eq_ok_iff rfl).1 hv
        exact absurd ⟨hl, hs⟩ hpass

/-- A walk that reports no error has counted the rows and stands on the newest of them. -/
theorem verifyRows_report {c : Crates} {report : VerifyReport} {gap : Option (ℤ × String)}
    {rows : List Row} (h : (verifyRows c report gap rows).error = none) :
    (verifyRows c report gap rows).records = report.records + rows.length ∧
      ((verifyRows c report gap rows).lastSeq.getD 0, (verifyRows c report gap rows).headHash) =
        headOf (report.lastSeq.getD 0) report.headHash rows := by
  induction rows generalizing report gap with
  | nil =>
    cases gap with
    | none => exact ⟨rfl, rfl⟩
    | some g => simp [verifyRows] at h
  | cons row rows ih =>
    rw [verifyRows] at h ⊢
    cases hv : verifyRow c report gap row with
    | error e => simp [hv] at h
    | ok gap' =>
      simp only [hv] at h ⊢
      obtain ⟨h₁, h₂⟩ := ih h
      refine ⟨?_, ?_⟩
      · rw [h₁, List.length_cons, VerifyReport.pass]
        dsimp only
        omega
      · rw [h₂, headOf, headOf, HashChain.headAfter_cons]
        rfl

/-- **What the walk reports** when it reports no error: the number of rows held, and number and
hash of the newest (0 and the genesis hash without rows). -/
theorem verifyChain_report {c : Crates} {db : Database} (h : (verifyChain c db).error = none) :
    (verifyChain c db).records = db.audit.rows.length ∧
      ((verifyChain c db).lastSeq.getD 0, (verifyChain c db).headHash) =
        headOf 0 genesisHash db.audit.rows := by
  have := verifyRows_report h
  simpa [verifyChain] using this

end AuditGateway
