import AuditGateway.Audit.Chain

set_option relaxedAutoImplicit false
set_option autoImplicit false

/-!
# Deleted rows

What the walk says about a trail from which somebody deleted rows. Retention deletes the front
of the trail as well and leaves records behind that account for it, but each of them names a
number below every row that is still held, so none accounts for any other deletion.

## Main definitions

* `Trail.Op.NoRetention` — the records handed to `append` are not retention records.
* `Trail.forgedLife` — a life in which one is.
* `Trail.Accounted` — what the retention records ever written name.
* `Database.delete` — the database without some rows.

## Main results

* `Trail.accounted_of_run` — retention records name numbers below the rows held.
* `Trail.verifyChain_delete` — which deletions the walk accepts.
* `Trail.forged_retention` — a retention record that was appended by hand excuses a deletion.
-/

namespace AuditGateway

/-- The database without the rows that satisfy `p`; the chain head stays. -/
def Database.delete (db : Database) (p : Row → Prop) [DecidablePred p] : Database :=
  { db with audit := db.audit.deleteWhere p }

namespace Trail

/-- No retention record is appended: only a retention run makes one. -/
def Op.NoRetention : Op → Prop
  | .append _ entries => ∀ e ∈ entries, e.event.pruned? = none
  | _ => True

/-- Every retention record ever written names a number that was used, below every row held. -/
def Accounted (s : Trail) : Prop :=
  ∀ e ∈ s.entries, ∀ d n h, e.event = .retentionPruned d n h →
    n ≤ s.head.1 ∧ ∀ r ∈ s.db.audit.rows, n < r.seq

variable {c : Crates} {s t : Trail}

/-- A trail without records has nothing to account for. -/
theorem accounted_init : Accounted init := by simp [Accounted, init]

/-- A committed transaction keeps the invariant if its own retention records name a number that
was used, below every row it keeps. -/
theorem Accounted.commit (ha : Accounted s) (h : Chained c s) {kept : List Row}
    (hkept : kept.Sublist s.db.audit.rows) {es : List AuditEntry} {db : Database}
    {store : AuditStore} (hwrote : Wrote c kept s.head es db store)
    (hes : ∀ e ∈ es, ∀ d n p, e.event = .retentionPruned d n p →
      n ≤ s.head.1 ∧ ∀ r ∈ kept, n < r.seq) :
    Accounted (s.commit es db store) := by
  have hhead := h.head_fst_commit hkept hwrote
  intro e he d n p hev
  have hold : n ≤ s.head.1 ∧ ∀ r ∈ kept, n < r.seq := by
    rcases List.mem_append.1 he with he | he
    · exact ⟨(ha e he d n p hev).1, fun r hr => (ha e he d n p hev).2 r (hkept.subset hr)⟩
    · exact hes e he d n p hev
  refine ⟨by omega, fun r hr => ?_⟩
  rcases mem_kept_or_lt hwrote hr with hr | hr
  · exact hold.2 r hr
  · omega

/-- **Step lemma**: every operation keeps the invariant. -/
theorem accounted_step (h : Chained c s) (ha : Accounted s) {op : Op} (hop : op.NoRetention)
    (hs : step c s op = some t) : Accounted t := by
  cases h.change hs with
  | closed => exact ha
  | unchanged => exact ha
  | opened => exact ha
  | truncated now db store _ hwrote =>
    refine ha.commit h (List.Sublist.refl _) hwrote fun e he d n p hev => ?_
    rw [List.mem_singleton.1 he] at hev
    cases hev
  | appended entries db store _ hwrote =>
    refine ha.commit h (List.Sublist.refl _) hwrote fun e he d n p hev => ?_
    have := hop e he
    rw [hev] at this
    cases this
  | pruned cutoff now stamp lastSeq lastHash n db store _ hrange _ hwrote =>
    obtain ⟨l, a, m, hrows, -, rfl, rfl⟩ := pruneRange_eq_some hrange
    rw [KeyTable.rows_deleteWhere_le_key hrows] at hwrote
    have hsub : m.Sublist s.db.audit.rows := by
      rw [hrows]
      exact (List.sublist_cons_self a m).trans (List.sublist_append_right l (a :: m))
    refine ha.commit h hsub hwrote fun e he d k p hev => ?_
    rw [List.mem_singleton.1 he] at hev
    cases hev
    refine ⟨h.seq_le a (by simp [hrows]), fun r hr => ?_⟩
    exact KeyTable.key_lt_of_append (t := s.db.audit) (l := l ++ [a]) (by simp [hrows]) (by simp) hr
  | lost n =>
    intro e he d k p hev
    exact ⟨(ha e he d k p hev).1, fun r hr => (ha e he d k p hev).2 r (List.mem_of_mem_take hr)⟩

/-- **Run lemma**: retention records name numbers below the rows held. -/
theorem accounted_of_run {ops : List Op} (hops : ∀ op ∈ ops, op.NoRetention)
    (hr : Machine.run (step c) init ops = some t) : Accounted t := by
  have hstep : ∀ s op t, Chained c s ∧ Accounted s → Op.NoRetention op → step c s op = some t →
      Chained c t ∧ Accounted t := by
    rintro s op t ⟨h, ha⟩ hop hs
    exact ⟨chained_step h hs, accounted_step h ha hop hs⟩
  exact (Machine.run_invariant_of_meets hstep ⟨chained_init c, accounted_init⟩
    (Machine.meets_of_forall_mem (step c) (fun op hop _ => hops op hop) init) hr).2

/-! ## Which deletions the walk accepts -/

/-- The rows held behind the first one have larger numbers. -/
theorem lt_of_first {first r : Row} (hfirst : first ∈ s.db.audit.rows.head?)
    (hr : r ∈ s.db.audit.rows) (hne : r ≠ first) : first.seq < r.seq := by
  cases hrows : s.db.audit.rows with
  | nil => simp [hrows] at hfirst
  | cons a l =>
    obtain rfl : a = first := by simpa [hrows] using hfirst
    rw [hrows] at hr
    have hrl : r ∈ l := (List.mem_cons.1 hr).resolve_left hne
    exact KeyTable.key_lt_of_append (l := [a]) hrows (List.mem_singleton_self _) hrl

/-- A row held that names the record before another row held names the one before the first:
no retention record accounts for a later row. -/
theorem Accounted.eq_first (ha : Accounted s) (h : Chained c s)
    (hread : ∀ e ∈ s.entries, ReadsBack c e) {first r v : Row}
    (hfirst : first ∈ s.db.audit.rows.head?) (hr : r ∈ s.db.audit.rows)
    (hv : v ∈ s.db.audit.rows) (hvouch : v.Vouches c (r.seq - 1, r.prevHash)) : r = first := by
  obtain ⟨e, he, hrec⟩ := h.exists_entry (h.held.subset hv)
  rw [hrec] at hvouch
  obtain ⟨d, hev⟩ := (hread e he).vouches_iff.1 hvouch
  have hlt := (ha e he d _ _ hev).2 first (List.mem_of_mem_head? hfirst)
  by_contra hne
  have := lt_of_first hfirst hr hne
  dsimp only at hlt
  omega

/-- The first row that remains is the first row held, if the walk accepts what remains. -/
theorem Accounted.first_remains (ha : Accounted s) (h : Chained c s)
    (hread : ∀ e ∈ s.entries, ReadsBack c e) {first r : Row} {m : List Row}
    (hfirst : first ∈ s.db.audit.rows.head?) (hm : m.Sublist s.db.audit.rows)
    (hr : r ∈ m.head?) (hver : Verified c m) : r = first := by
  have hrm := List.mem_of_mem_head? hr
  by_cases hseq : r.seq = 1
  · -- no row held has a smaller number
    have hpos := h.seq_pos (h.held.subset (List.mem_of_mem_head? hfirst))
    by_contra hne
    have hlt := lt_of_first hfirst (hm.subset hrm) hne
    omega
  · obtain ⟨v, hv, hvouch⟩ := hver.vouched r hr hseq
    exact ha.eq_first h hread hfirst (hm.subset hrm) (hm.subset hv) hvouch

/-- What remains is verified exactly if it is empty, or a prefix that still accounts for its
first row. -/
theorem Accounted.verified_delete_iff (ha : Accounted s) (h : Chained c s) (hw : Whole c s)
    (hread : ∀ e ∈ s.entries, ReadsBack c e) (p : Row → Prop) [DecidablePred p] :
    Verified c (s.db.delete p).audit.rows ↔
      (s.db.delete p).audit.rows = [] ∨
        (s.db.delete p).audit.rows <+: s.db.audit.rows ∧
          ∀ first ∈ s.db.audit.rows.head?, 1 < first.seq →
            ∃ v ∈ (s.db.delete p).audit.rows, v.Vouches c (first.seq - 1, first.prevHash) := by
  have hall := hw.verified h hread
  have hm : (s.db.delete p).audit.rows.Sublist s.db.audit.rows := List.filter_sublist
  generalize (s.db.delete p).audit.rows = m at hm ⊢
  cases hrows : s.db.audit.rows with
  | nil =>
    rw [hrows] at hm
    rw [List.sublist_nil.1 hm]
    exact iff_of_true (hrows ▸ hall) (.inl rfl)
  | cons first l =>
    have hfirst : first ∈ s.db.audit.rows.head? := by simp [hrows]
    cases m with
    | nil => exact iff_of_true ⟨HashChain.linked_nil, by simp, by simp, by simp⟩ (.inl rfl)
    | cons r m =>
      constructor
      · intro hver
        obtain rfl : r = first := ha.first_remains h hread hfirst hm (by simp) hver
        rw [hrows] at hm hall
        refine .inr ⟨HashChain.prefix_of_linked hall.linked hver.linked ?_, ?_⟩
        · exact List.cons_sublist_cons.1 hm
        · rintro _ ⟨⟩ hlt
          exact hver.vouched r (by simp) (by omega)
      · rintro (hnil | ⟨hpre, hvouch⟩)
        · cases hnil
        obtain ⟨rfl, -⟩ := List.cons_prefix_cons.1 hpre
        rw [hrows] at hm hall
        have hlinked := List.IsChain.prefix hall.linked hpre
        refine ⟨hlinked, fun q hq => hall.sound q (hm.subset hq), ?_, ?_⟩
        · exact fun q hq => hall.genesis q hq
        · rintro _ ⟨⟩ hne
          refine hvouch r (by simp) ?_
          have := h.seq_pos (h.held.subset (List.mem_of_mem_head? hfirst))
          omega

/-- **Deletions are detected exactly.** After any run of the store that lost no rows and in which
only retention made retention records, the walk reports no error on what remains of the trail if and
only if nothing remains, or what remains is a prefix of the rows held that, if the first one does
not start the chain, still holds a retention record naming number and hash of the record before it.
So a deletion in front of a remaining row is always reported.

**Proof sketch.** The first row that remains starts the chain or is accounted for by a retention
record. In both cases it is the first row held: a retention record names a number below all
rows held. What remains is linked, so it is a prefix. -/
theorem verifyChain_delete {ops : List Op} (hops : ∀ op ∈ ops, op.Intact)
    (hown : ∀ op ∈ ops, op.NoRetention) (hr : Machine.run (step c) init ops = some t)
    (hread : ∀ e ∈ t.entries, ReadsBack c e) (p : Row → Prop) [DecidablePred p] :
    ((verifyChain c (t.db.delete p)).error = none ↔
      (t.db.delete p).audit.rows = [] ∨
        (t.db.delete p).audit.rows <+: t.db.audit.rows ∧
          ∀ first ∈ t.db.audit.rows.head?, 1 < first.seq →
            ∃ v ∈ (t.db.delete p).audit.rows, v.Vouches c (first.seq - 1, first.prevHash)) ∧
    ∀ r ∈ t.db.audit.rows, p r → ∀ r' ∈ t.db.audit.rows, ¬ p r' → r.seq < r'.seq →
      (verifyChain c (t.db.delete p)).error ≠ none := by
  obtain ⟨h, hw⟩ := whole_of_run hops hr
  have ha := accounted_of_run hown hr
  have hiff := ha.verified_delete_iff h hw hread p
  rw [← verifyChain_error_eq_none_iff] at hiff
  refine ⟨hiff, fun r hr hpr r' hr' hpr' hlt herr => ?_⟩
  have hmem' : r' ∈ (t.db.delete p).audit.rows := List.mem_filter.2 ⟨hr', by simpa using hpr'⟩
  have hnmem : r ∉ (t.db.delete p).audit.rows := fun hmem => by
    simpa [hpr] using (List.mem_filter.1 hmem).2
  rcases hiff.1 herr with hnil | ⟨⟨l, hl⟩, -⟩
  · rw [hnil] at hmem'
    cases hmem'
  · -- the deleted row is behind all that remains
    have hrl : r ∈ l := by
      rw [← hl, List.mem_append] at hr
      exact hr.resolve_left hnmem
    have := KeyTable.key_lt_of_append hl.symm hmem' hrl
    omega

/-- The end of a trail can be deleted unseen, and its beginning cannot. -/
theorem verifyChain_delete_restartedLife : ∃ t,
    Machine.run (step plainCrates) init restartedLife = some t ∧
      (verifyChain plainCrates (t.db.delete fun r => r.seq = 2)).error = none ∧
      (verifyChain plainCrates (t.db.delete fun r => r.seq = 1)).error ≠ none := by
  obtain ⟨t, ht, hentries, hrows, hops⟩ := exists_run_restartedLife
  have hread := readsBack_plainCrates
  rw [← hentries] at hread
  have hown : ∀ op ∈ restartedLife, op.NoRetention := by
    simp [restartedLife, Op.NoRetention, lostEntry, stoppedEntry, AuditEntry.new,
      AuditEvent.pruned?]
  refine ⟨t, ht, (verifyChain_delete hops hown ht hread _).1.2 (.inr ⟨?_, ?_⟩), ?_⟩
  · simp [Database.delete, hrows, records_cons]
  · simp [hrows, records_cons]
  · have hdelete := (verifyChain_delete hops hown ht hread fun r => r.seq = 1).2
    rw [hrows, records_cons, records_cons] at hdelete
    refine hdelete _ (List.mem_cons_self ..) rfl _
      (List.mem_cons_of_mem _ (List.mem_cons_self ..)) ?_ ?_
    · decide
    · decide

/-- A retention record that no retention run made. It names the record of the lost records. -/
def forgedEntry : AuditEntry :=
  AuditEntry.new stoppedEntry.ts
    (.retentionPruned 1 1 (record plainCrates 1 genesisHash lostEntry).hash)

/-- The functions of the other crates with this entry read back. -/
def forgedCrates : Crates := Crates.plain [lostEntry, forgedEntry]

/-- Somebody appends a retention record himself. -/
def forgedLife : List Op := [.openStore true ⟨0⟩, .append true [lostEntry, forgedEntry]]

/-- **A retention record handed to `append` excuses a deletion**: once record 1 is deleted, record 2
remains, which is no prefix of the two, but names number and hash of record 1; the walk reports no
error. -/
theorem forged_retention : ∃ t,
    Machine.run (step forgedCrates) init forgedLife = some t ∧
      (∀ op ∈ forgedLife, op.Intact) ∧ (∀ e ∈ t.entries, ReadsBack forgedCrates e) ∧
      (∃ r ∈ t.db.audit.rows, r.seq = 1 ∧ ∃ r' ∈ t.db.audit.rows, r'.seq = 2) ∧
      ¬ ((t.db.delete fun r => r.seq = 1).audit.rows = [] ∨
        (t.db.delete fun r => r.seq = 1).audit.rows <+: t.db.audit.rows) ∧
      (verifyChain forgedCrates (t.db.delete fun r => r.seq = 1)).error = none := by
  obtain ⟨t, ht⟩ := Option.isSome_iff_exists.1
    (show (Machine.run (step forgedCrates) init forgedLife).isSome = true from rfl)
  have hentries : (Machine.run (step forgedCrates) init forgedLife).map Trail.entries =
      some [lostEntry, forgedEntry] := rfl
  have hrows : (Machine.run (step forgedCrates) init forgedLife).map (·.db.audit.rows) =
      some (records forgedCrates 0 genesisHash [lostEntry, forgedEntry]) := rfl
  rw [ht, Option.map_some, Option.some.injEq] at hentries hrows
  have hpairs : [lostEntry, forgedEntry].Pairwise fun a b => entryText a ≠ entryText b := by
    decide +kernel
  have hread : ∀ e ∈ [lostEntry, forgedEntry], ReadsBack forgedCrates e :=
    fun e he => readsBack_plain hpairs he
  have hforged := hread forgedEntry (List.mem_cons_of_mem _ (List.mem_singleton_self _))
  -- the second record is all that remains, and it vouches for itself
  set first := record forgedCrates 1 genesisHash lostEntry
  set second := record forgedCrates 2 first.hash forgedEntry
  have hsecond : (t.db.delete fun r => r.seq = 1).audit.rows = [second] := by
    simp [Database.delete, hrows, records_cons, first, second]
  have hboth : t.db.audit.rows = [first, second] := by
    simp [hrows, records_cons, first, second]
  have hver : Verified forgedCrates [second] := by
    refine ⟨List.isChain_singleton _, ?_, ?_, ?_⟩
    · rw [List.forall_mem_singleton]
      exact hforged.sound _ _
    · rintro _ ⟨⟩ hseq
      cases hseq
    · rintro _ ⟨⟩ -
      exact ⟨second, List.mem_singleton_self _, hforged.vouches_iff.2 ⟨1, rfl⟩⟩
  refine ⟨t, ht, by simp [forgedLife, Op.Intact], by rwa [hentries], ?_, ?_, ?_⟩
  · rw [hboth]
    exact ⟨first, List.mem_cons_self .., rfl, second,
      List.mem_cons_of_mem _ (List.mem_cons_self ..), rfl⟩
  · rw [hsecond, hboth]
    rintro (hnil | hpre)
    · cases hnil
    · have hseq := congrArg Row.seq (List.cons_prefix_cons.1 hpre).1
      cases hseq
  · rw [verifyChain_error_eq_none_iff, hsecond]
    exact hver

end Trail

end AuditGateway
