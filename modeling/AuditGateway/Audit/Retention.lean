import AuditGateway.Audit.Truncation
import Mathlib.Data.List.TakeWhile

set_option relaxedAutoImplicit false
set_option autoImplicit false

/-!
# Retention

What a retention run should delete, and when `pruneBefore` does. The run looks the last record it
deletes up under a number it computes; after a truncated tail the trail has a gap in its numbers,
and the record may not be there. So it does what it should exactly if the records it should
delete, up to the first one it keeps, are numbered in one piece as far as the run's limit goes.

## Main definitions

* `Trail.DatedBefore`, `Trail.DatedAfter` — a row dated before or after an instant.
* `Trail.due` — the rows a retention run should delete.
* `Retained` — what a retention run should leave behind.
* `InOnePiece` — the numbers of the rows to delete.

## Main results

* `pruneRange_eq` — the range a run computes, in terms of positions.
* `Trail.pruneBefore_retained_iff` — when a run does what it should, in every reachable state.
* `Trail.pruneBefore_fails` — a run that fails behind a truncated tail.
-/

namespace AuditGateway

/-! ## What a retention run computes -/

/-- The rows a retention run should delete, by the text of the time column: those before the
first one at or after the cutoff, but not the newest, at most `maxPrune`, and none while the
newest is dated after `now` and the tolerated difference. -/
def dueByText (c : Crates) (cutoff now : DateTime) (rows : List Row) : List Row :=
  match rows.getLast? with
  | none => []
  | some head =>
    if tsColumn c (now.addMinutes 5) < head.ts then []
    else (rows.takeWhile fun r => r.ts < tsColumn c cutoff).take
      (min (rows.length - 1) maxPrune.toNat)

/-- The position of the first row a run keeps, if it had no limit. -/
def keptIndex (c : Crates) (cutoff : DateTime) (rows : List Row) : ℕ :=
  min (rows.takeWhile fun r => r.ts < tsColumn c cutoff).length (rows.length - 1)

/-- The row at that position is the one whose number a run computes. -/
theorem exists_kept (c : Crates) (cutoff : DateTime) {db : Database} {head : Row}
    (hhead : db.audit.lastRow = some head) :
    ∃ kept, db.audit.rows[keptIndex c cutoff db.audit.rows]? = some kept ∧
      min ((db.audit.minKeyWhere fun row => tsColumn c cutoff ≤ row.ts).getD head.seq) head.seq =
        kept.seq := by
  unfold keptIndex
  set p : Row → Bool := fun r => r.ts < tsColumn c cutoff with hp
  have hyoung : (fun a : Row => decide (tsColumn c cutoff ≤ a.ts)) = fun a => !(p a) := by
    funext a
    rw [hp, ← decide_not]
    exact decide_eq_decide.2 Iff.rfl
  rw [KeyTable.minKeyWhere_eq, hyoung, List.find?_not_eq_head?_dropWhile]
  have hsplit := List.takeWhile_append_dropWhile (p := p) (l := db.audit.rows)
  cases hrest : db.audit.rows.dropWhile p with
  | nil =>
    -- all rows are old: the newest one is kept
    rw [hrest, List.append_nil] at hsplit
    refine ⟨head, ?_, by simp⟩
    rw [hsplit, min_eq_right (by omega), ← List.getLast?_eq_getElem?]
    exact hhead
  | cons y l =>
    rw [hrest] at hsplit
    refine ⟨y, ?_, ?_⟩
    · have hlen := congrArg List.length hsplit
      rw [List.length_append, List.length_cons] at hlen
      rw [min_eq_left (by omega)]
      have hget : db.audit.rows[(db.audit.rows.takeWhile p).length]? =
          (db.audit.rows.takeWhile p ++ y :: l)[(db.audit.rows.takeWhile p).length]? := by
        rw [hsplit]
      rw [hget, List.getElem?_append_right le_rfl]
      simp
    · have hy : y ∈ db.audit.rows := by
        rw [← hsplit]
        simp
      have hle := KeyTable.key_le_lastRow hhead hy
      simp [hle]

/-- The rows to delete are those in front of that position, up to the limit. -/
theorem dueByText_eq_take {c : Crates} {cutoff now : DateTime} {rows : List Row} {head : Row}
    (hhead : rows.getLast? = some head) (hnow : ¬ tsColumn c (now.addMinutes 5) < head.ts) :
    dueByText c cutoff now rows =
      rows.take (min (keptIndex c cutoff rows) maxPrune.toNat) := by
  set old := rows.takeWhile fun r => r.ts < tsColumn c cutoff with hold
  have hpre : old = rows.take old.length :=
    List.prefix_iff_eq_take.1 (List.takeWhile_prefix _)
  simp only [dueByText, hhead, if_neg hnow, ← hold, keptIndex]
  conv_lhs => rw [hpre]
  rw [List.take_take]
  congr 1
  omega

/-- The range a run computes: up to the number in front of the first row kept, or as many
numbers as the limit allows. -/
theorem pruneRange_eq {c : Crates} {cutoff now : DateTime} {db : Database} {head : Row}
    (hhead : db.audit.lastRow = some head)
    (hnow : ¬ tsColumn c (now.addMinutes 5) < head.ts) :
    ∃ first kept, db.audit.rows[0]? = some first ∧
      db.audit.rows[keptIndex c cutoff db.audit.rows]? = some kept ∧
      pruneRange c cutoff now db =
        if min (kept.seq - 1) (first.seq + maxPrune - 1) < first.seq then .ok none
        else
          match db.audit.rowAt (min (kept.seq - 1) (first.seq + maxPrune - 1)) with
          | none => .error .noRows
          | some row => .ok (some (min (kept.seq - 1) (first.seq + maxPrune - 1), row.hash)) := by
  obtain ⟨kept, hkept, hseq⟩ := exists_kept c cutoff hhead
  have hmem : head ∈ db.audit.rows := List.mem_of_getLast? hhead
  obtain ⟨first, l, hrows⟩ := List.exists_cons_of_ne_nil (List.ne_nil_of_mem hmem)
  have hmin : (db.audit.minKeyWhere fun _ => True) = some first.seq := by
    rw [KeyTable.minKeyWhere_eq, hrows]
    simp
  refine ⟨first, kept, by simp [hrows], hkept, ?_⟩
  unfold pruneRange
  cases hrow : db.audit.rowAt (min (kept.seq - 1) (first.seq + maxPrune - 1)) with
  | none => simp only [hhead, if_neg hnow, hmin, hseq, hrow]
  | some row => simp only [hhead, if_neg hnow, hmin, hseq, hrow]

/-! ## What a retention run should leave behind -/

/-- A retention run deleted the rows `due`, the oldest ones, and if there are any it recorded in
the same transaction how many and number and hash of the last. -/
def Retained (c : Crates) (stamp : DateTime) (due : List Row) (db : Database)
    (store : AuditStore) : Except StoreError (ℕ × Database × AuditStore) → Prop
  | .error _ => False
  | .ok (n, db', store') =>
    n = due.length ∧ (due = [] → db' = db ∧ store' = store) ∧
      ∀ last, due.getLast? = some last →
        db'.audit.rows = db.audit.rows.drop due.length ++
          [record c (store.lastSeq + 1) store.lastHash
            (prunedEntry stamp due.length last.seq last.hash)]

/-- The numbers of the rows to delete leave no gap that the run would notice: from the first to
the last they are as many as the limit, or they are fewer and the first row kept has the next
number. -/
def InOnePiece (due rows : List Row) : Prop :=
  ∀ first last next, due.head? = some first → due.getLast? = some last →
    rows[due.length]? = some next →
    last.seq + 1 = first.seq + maxPrune ∨
      last.seq + 1 = next.seq ∧ last.seq + 1 < first.seq + maxPrune

/-- The run looks up the last row to delete exactly if these are in one piece.

**Proof sketch.** Numbers grow at least by one from row to row. Below the limit the first row
kept is the one behind the last to delete; at the limit the last one to delete has at least the
number the limit allows. -/
theorem inOnePiece_iff {db : Database} {k : ℕ} (hk : 0 < k) {first kept last : Row}
    (hfirst : db.audit.rows[0]? = some first) (hkept : db.audit.rows[k]? = some kept)
    (hlast : db.audit.rows[min k maxPrune.toNat - 1]? = some last) :
    InOnePiece (db.audit.rows.take (min k maxPrune.toNat)) db.audit.rows ↔
      last.seq = min (kept.seq - 1) (first.seq + maxPrune - 1) := by
  have hM : maxPrune = 20000 := rfl
  have hM' : maxPrune.toNat = 20000 := rfl
  obtain ⟨hklt, -⟩ := List.getElem?_eq_some_iff.1 hkept
  obtain ⟨d, hd⟩ : ∃ d, min k maxPrune.toNat = d := ⟨_, rfl⟩
  rw [hd] at hlast ⊢
  have hdpos : 0 < d := by omega
  have hlen : (db.audit.rows.take d).length = d := by
    rw [List.length_take]
    omega
  obtain ⟨next, hnext⟩ : ∃ next, db.audit.rows[d]? = some next :=
    ⟨_, List.getElem?_eq_getElem (by omega)⟩
  have hpiece : InOnePiece (db.audit.rows.take d) db.audit.rows ↔
      (last.seq + 1 = first.seq + maxPrune ∨
        last.seq + 1 = next.seq ∧ last.seq + 1 < first.seq + maxPrune) := by
    have hhead' : (db.audit.rows.take d).head? = some first := by
      rw [List.head?_take, if_neg (by omega), List.head?_eq_getElem?, hfirst]
    have hlast' : (db.audit.rows.take d).getLast? = some last := by
      rw [List.getLast?_eq_getElem?, hlen, List.getElem?_take, if_pos (by omega), hlast]
    constructor
    · intro h
      exact h first last next hhead' hlast' (by rw [hlen, hnext])
    · intro h first' last' next' h₁ h₂ h₃
      rw [hhead', Option.some.injEq] at h₁
      rw [hlast', Option.some.injEq] at h₂
      rw [hlen, hnext, Option.some.injEq] at h₃
      rw [← h₁, ← h₂, ← h₃]
      exact h
  rw [hpiece]
  have h₁ : first.seq + ((d - 1 : ℕ) : ℤ) ≤ last.seq :=
    KeyTable.key_add_le (t := db.audit) (d := d - 1) hfirst (by simpa using hlast)
  have h₂ : last.seq + ((1 : ℕ) : ℤ) ≤ next.seq :=
    KeyTable.key_add_le (t := db.audit) (d := 1) hlast
      (by rw [Nat.sub_add_cancel hdpos]; exact hnext)
  have h₃ : next.seq + ((k - d : ℕ) : ℤ) ≤ kept.seq :=
    KeyTable.key_add_le (t := db.audit) (d := k - d) hnext
      (by rw [Nat.add_sub_cancel' (by omega)]; exact hkept)
  by_cases hlimit : k ≤ maxPrune.toNat
  · -- below the limit the next row is the first one kept
    obtain rfl : d = k := by omega
    obtain rfl : next = kept := by rw [hnext] at hkept; exact Option.some.inj hkept
    omega
  · have : d = maxPrune.toNat := by omega
    omega

/-- A run that finds nothing to delete does what it should if nothing is due. -/
theorem retained_of_none {c : Crates} {cutoff now stamp : DateTime} {db : Database}
    {store : AuditStore} (hr : pruneRange c cutoff now db = .ok none) :
    Retained c stamp [] db store (pruneBefore c true cutoff now stamp db store) := by
  rw [pruneBefore_eq_ok_none hr]
  exact ⟨rfl, fun _ => ⟨rfl, rfl⟩, by simp⟩

/-- A run that looks up the row before position `d` deletes the first `d` rows. -/
theorem retained_of_rowAt {c : Crates} {cutoff now stamp : DateTime} {db : Database}
    {store : AuditStore} (h : ∀ r ∈ db.audit.rows, r.seq ≤ store.lastSeq) {d : ℕ} (hd : 0 < d)
    {last : Row} (hlast : db.audit.rows[d - 1]? = some last)
    (hr : pruneRange c cutoff now db = .ok (some (last.seq, last.hash))) :
    Retained c stamp (db.audit.rows.take d) db store
      (pruneBefore c true cutoff now stamp db store) := by
  obtain ⟨hlt, hget⟩ := List.getElem?_eq_some_iff.1 hlast
  have hrows : db.audit.rows = db.audit.rows.take (d - 1) ++ last :: db.audit.rows.drop d := by
    conv_lhs => rw [← List.take_append_drop (d - 1) db.audit.rows]
    rw [List.drop_eq_getElem_cons hlt, hget, Nat.sub_add_cancel hd]
  have htake : db.audit.rows.take d = db.audit.rows.take (d - 1) ++ [last] := by
    obtain ⟨e, rfl⟩ : ∃ e, d = e + 1 := ⟨d - 1, by omega⟩
    rw [List.take_add_one, Nat.add_sub_cancel] at *
    rw [hlast, Option.toList_some]
  have hlen : (db.audit.rows.take d).length = d := by
    rw [List.length_take]
    omega
  have hn : d = (db.audit.rows.filter fun row => row.seq ≤ last.seq).length := by
    rw [KeyTable.filter_le_key hrows, ← htake, hlen]
  obtain ⟨db', store', hp, hw⟩ := @pruneBefore_eq_ok_some c cutoff now stamp db store h _ _ d hr hn
  rw [hp]
  refine ⟨hlen.symm, fun hnil => ?_, fun last' hlast' => ?_⟩
  · rw [hnil, List.length_nil] at hlen
    omega
  · rw [htake, List.getLast?_concat, Option.some.injEq] at hlast'
    rw [hw.rows_eq, KeyTable.rows_deleteWhere_le_key hrows, hlen, ← hlast']
    rfl

/-- Whatever a run deletes, it is the rows up to the one it looked up. -/
theorem eq_last_of_retained {c : Crates} {cutoff now stamp : DateTime} {db : Database}
    {store : AuditStore} (h : ∀ r ∈ db.audit.rows, r.seq ≤ store.lastSeq) {d : ℕ} (hd : 0 < d)
    {last a : Row} (hlast : db.audit.rows[d - 1]? = some last) (ha : a ∈ db.audit.rows)
    (hr : pruneRange c cutoff now db = .ok (some (a.seq, a.hash)))
    (hret : Retained c stamp (db.audit.rows.take d) db store
      (pruneBefore c true cutoff now stamp db store)) : last = a := by
  obtain ⟨hlt, -⟩ := List.getElem?_eq_some_iff.1 hlast
  obtain ⟨db', store', hp, -⟩ := @pruneBefore_eq_ok_some c cutoff now stamp db store h _ _ _ hr rfl
  rw [hp] at hret
  obtain ⟨l, m, hrows⟩ := List.append_of_mem ha
  have hcount := hret.1
  rw [KeyTable.filter_le_key hrows, List.length_append, List.length_singleton,
    List.length_take] at hcount
  rw [hrows, List.getElem?_append_right (by omega)] at hlast
  have hzero : d - 1 - l.length = 0 := by omega
  simpa [hzero, eq_comm] using hlast

/-- **When a retention run does what it should**: exactly if what it should delete is in one
piece. -/
theorem retained_dueByText_iff {c : Crates} {cutoff now stamp : DateTime} {db : Database}
    {store : AuditStore} (h : ∀ r ∈ db.audit.rows, r.seq ≤ store.lastSeq) :
    Retained c stamp (dueByText c cutoff now db.audit.rows) db store
        (pruneBefore c true cutoff now stamp db store) ↔
      InOnePiece (dueByText c cutoff now db.audit.rows) db.audit.rows := by
  have hnone : pruneRange c cutoff now db = .ok none → dueByText c cutoff now db.audit.rows = [] →
      (Retained c stamp (dueByText c cutoff now db.audit.rows) db store
          (pruneBefore c true cutoff now stamp db store) ↔
        InOnePiece (dueByText c cutoff now db.audit.rows) db.audit.rows) := by
    intro hr hdue
    rw [hdue]
    exact iff_of_true (retained_of_none hr) (by simp [InOnePiece])
  cases hhead : db.audit.lastRow with
  | none =>
    have hhead' : db.audit.rows.getLast? = none := hhead
    exact hnone (by simp only [pruneRange, hhead]) (by simp only [dueByText, hhead'])
  | some head =>
    have hhead' : db.audit.rows.getLast? = some head := hhead
    by_cases hnow : tsColumn c (now.addMinutes 5) < head.ts
    · exact hnone (by simp only [pruneRange, hhead, if_pos hnow])
        (by simp only [dueByText, hhead', if_pos hnow])
    obtain ⟨first, kept, hfirst, hkept, hrange⟩ := @pruneRange_eq c cutoff now db head hhead hnow
    have hdue := @dueByText_eq_take c cutoff now db.audit.rows head hhead' hnow
    set k := keptIndex c cutoff db.audit.rows with hk
    have hM : maxPrune = 20000 := rfl
    have hM' : maxPrune.toNat = 20000 := rfl
    obtain ⟨hklt, -⟩ := List.getElem?_eq_some_iff.1 hkept
    rcases Nat.eq_zero_or_pos k with hk0 | hkpos
    · -- the first row is kept
      rw [hk0, hfirst, Option.some.injEq] at hkept
      refine hnone ?_ (by rw [hdue, hk0]; rfl)
      rw [hrange, if_pos]
      rw [hkept]
      omega
    obtain ⟨last, hlast⟩ : ∃ last, db.audit.rows[min k maxPrune.toNat - 1]? = some last :=
      ⟨_, List.getElem?_eq_getElem (by omega)⟩
    have hd : 0 < min k maxPrune.toNat := by omega
    have hgrow : first.seq + (k : ℤ) ≤ kept.seq :=
      KeyTable.key_add_le (t := db.audit) (d := k) hfirst (by rw [Nat.zero_add]; exact hkept)
    rw [hdue, inOnePiece_iff hkpos hfirst hkept hlast]
    rw [if_neg (by omega)] at hrange
    constructor
    · intro hret
      cases hrow : db.audit.rowAt (min (kept.seq - 1) (first.seq + maxPrune - 1)) with
      | none =>
        simp only [hrow] at hrange
        simp only [pruneBefore, hrange] at hret
        exact hret.elim
      | some a =>
        obtain ⟨ha, hseq⟩ := KeyTable.rowAt_eq_some_iff.1 hrow
        rw [← hseq] at hrow hrange
        simp only [hrow] at hrange
        rw [← hseq, eq_last_of_retained h hd hlast ha hrange hret]
    · intro hseq
      have hrow : db.audit.rowAt (min (kept.seq - 1) (first.seq + maxPrune - 1)) = some last :=
        KeyTable.rowAt_eq_some_iff.2 ⟨List.mem_of_getElem? hlast, hseq⟩
      rw [← hseq] at hrow hrange
      simp only [hrow] at hrange
      exact retained_of_rowAt h hd hlast hrange

/-! ## Dates -/

/-- The order of the texts of two instants is their order to the microsecond. -/
def TsOrdered (c : Crates) (a b : DateTime) : Prop :=
  (tsColumn c a < tsColumn c b ↔ a.micros < b.micros) ∧
    (tsColumn c b < tsColumn c a ↔ b.micros < a.micros)

namespace Trail

variable {c : Crates} {s : Trail}

/-- The row was written for an entry dated before `t`, to the microsecond. -/
def DatedBefore (c : Crates) (s : Trail) (t : DateTime) (r : Row) : Prop :=
  ∃ e ∈ s.entries, r = record c r.seq r.prevHash e ∧ e.ts.micros < t.micros

/-- The row was written for an entry dated after `t`, to the microsecond. -/
def DatedAfter (c : Crates) (s : Trail) (t : DateTime) (r : Row) : Prop :=
  ∃ e ∈ s.entries, r = record c r.seq r.prevHash e ∧ t.micros < e.ts.micros

open Classical in
/-- The rows a retention run should delete: those in front of the first one dated at or after the
cutoff, but not the newest, at most `maxPrune`, and none while the newest is dated after `now`
and the tolerated difference. -/
noncomputable def due (c : Crates) (s : Trail) (cutoff now : DateTime) : List Row :=
  if ∃ head ∈ s.db.audit.rows.getLast?, DatedAfter c s (now.addMinutes 5) head then []
  else (s.db.audit.rows.takeWhile fun r => DatedBefore c s cutoff r).take
    (min (s.db.audit.rows.length - 1) maxPrune.toNat)

/-- The time column of a row is the text of its entry's date. -/
theorem ts_eq_of_eq_record {r : Row} {n : ℤ} {p : String} {e : AuditEntry}
    (hrec : r = record c n p e) : r.ts = tsColumn c e.ts := by
  rw [hrec]
  rfl

/-- The text of a row's time column tells whether the row is dated before an instant. -/
theorem datedBefore_iff (h : Chained c s) {t : DateTime}
    (hts : ∀ e ∈ s.entries, TsOrdered c t e.ts) {r : Row} (hr : r ∈ s.db.audit.rows) :
    DatedBefore c s t r ↔ r.ts < tsColumn c t := by
  constructor
  · rintro ⟨e, he, hrec, hlt⟩
    rw [ts_eq_of_eq_record hrec]
    exact (hts e he).2.2 hlt
  · intro hlt
    obtain ⟨e, he, hrec⟩ := h.exists_entry (h.held.subset hr)
    rw [ts_eq_of_eq_record hrec] at hlt
    exact ⟨e, he, hrec, (hts e he).2.1 hlt⟩

/-- The text of a row's time column tells whether the row is dated after an instant. -/
theorem datedAfter_iff (h : Chained c s) {t : DateTime}
    (hts : ∀ e ∈ s.entries, TsOrdered c t e.ts) {r : Row} (hr : r ∈ s.db.audit.rows) :
    DatedAfter c s t r ↔ tsColumn c t < r.ts := by
  constructor
  · rintro ⟨e, he, hrec, hlt⟩
    rw [ts_eq_of_eq_record hrec]
    exact (hts e he).1.2 hlt
  · intro hlt
    obtain ⟨e, he, hrec⟩ := h.exists_entry (h.held.subset hr)
    rw [ts_eq_of_eq_record hrec] at hlt
    exact ⟨e, he, hrec, (hts e he).1.1 hlt⟩

/-- Conditions that agree on a list take the same from its front. -/
theorem takeWhile_congr {α : Type*} {p q : α → Bool} {l : List α} (h : ∀ x ∈ l, p x = q x) :
    l.takeWhile p = l.takeWhile q := by
  induction l with
  | nil => rfl
  | cons a l ih =>
    rw [List.takeWhile_cons, List.takeWhile_cons, h a (List.mem_cons_self ..),
      ih fun x hx => h x (List.mem_cons_of_mem _ hx)]

/-- What is due by the dates is due by the text of the time column. -/
theorem due_eq_dueByText (h : Chained c s) {cutoff now : DateTime}
    (hcutoff : ∀ e ∈ s.entries, TsOrdered c cutoff e.ts)
    (hnow : ∀ e ∈ s.entries, TsOrdered c (now.addMinutes 5) e.ts) :
    due c s cutoff now = dueByText c cutoff now s.db.audit.rows := by
  classical
  unfold due dueByText
  have hwhile : (s.db.audit.rows.takeWhile fun r => decide (DatedBefore c s cutoff r)) =
      s.db.audit.rows.takeWhile fun r => r.ts < tsColumn c cutoff := by
    refine takeWhile_congr fun r hr => ?_
    exact decide_eq_decide.2 (datedBefore_iff h hcutoff hr)
  rw [hwhile]
  cases hlast : s.db.audit.rows.getLast? with
  | none => simp [List.getLast?_eq_none_iff.1 hlast]
  | some head =>
    have hfuture : (∃ r ∈ some head, DatedAfter c s (now.addMinutes 5) r) ↔
        tsColumn c (now.addMinutes 5) < head.ts := by
      rw [← datedAfter_iff h hnow (List.mem_of_getLast? hlast)]
      simp
    simp only [hfuture]

/-- **Retention**, in every reachable state with an open store: a run whose transaction SQLite
commits deletes exactly what is due, and records it, if and only if what is due is in one piece. The
texts of the dates are compared in their order, which holds for the years 0 to 9999 and to the
microsecond (`TsOrdered`). -/
theorem pruneBefore_retained_iff {ops : List Op} (hr : Machine.run (step c) init ops = some s)
    {store : AuditStore} (hstore : s.store = some store) {cutoff now : DateTime}
    (hcutoff : ∀ e ∈ s.entries, TsOrdered c cutoff e.ts)
    (hnow : ∀ e ∈ s.entries, TsOrdered c (now.addMinutes 5) e.ts) (stamp : DateTime) :
    Retained c stamp (due c s cutoff now) s.db store
        (AuditGateway.pruneBefore c true cutoff now stamp s.db store) ↔
      InOnePiece (due c s cutoff now) s.db.audit.rows := by
  have h := chained_of_run hr
  rw [due_eq_dueByText h hcutoff hnow]
  exact retained_dueByText_iff (h.seq_le_store hstore)

/-- In a trail without a gap what is due is in one piece. -/
theorem inOnePiece_of_linked {rows : List Row} (hl : Linked rows) {d : ℕ}
    (hd : d ≤ maxPrune.toNat) : InOnePiece (rows.take d) rows := by
  have hM : maxPrune = 20000 := rfl
  have hM' : maxPrune.toNat = 20000 := rfl
  intro first last next hfirst hlast hnext
  rw [List.getLast?_eq_getElem?] at hlast
  have hlt := (List.getElem?_eq_some_iff.1 hnext).1
  have hlen := List.length_take (i := d) (l := rows)
  have hpos : 0 < (rows.take d).length := List.length_pos_of_mem (List.mem_of_mem_head? hfirst)
  have hzero : rows[0]? = some first := by
    rw [List.head?_eq_getElem?, List.getElem?_take, if_pos (by omega)] at hfirst
    exact hfirst
  rw [List.getElem?_take, if_pos (by omega)] at hlast
  have h₁ := hl.num_getElem? hzero hlast
  have h₂ := hl.num_getElem? hzero hnext
  omega

/-- A trail that lost no rows is pruned as it should be. -/
theorem pruneBefore_retained_of_intact {ops : List Op} (hops : ∀ op ∈ ops, op.Intact)
    (hr : Machine.run (step c) init ops = some s) {store : AuditStore}
    (hstore : s.store = some store) (cutoff now stamp : DateTime) :
    Retained c stamp (dueByText c cutoff now s.db.audit.rows) s.db store
      (AuditGateway.pruneBefore c true cutoff now stamp s.db store) := by
  obtain ⟨h, hw⟩ := whole_of_run hops hr
  rw [retained_dueByText_iff (h.seq_le_store hstore)]
  cases hlast : s.db.audit.rows.getLast? with
  | none => simp [dueByText, hlast, InOnePiece]
  | some head =>
    by_cases hnow : tsColumn c (now.addMinutes 5) < head.ts
    · simp [dueByText, hlast, hnow, InOnePiece]
    · rw [dueByText_eq_take hlast hnow]
      exact inOnePiece_of_linked (hw.linked h) (by omega)

/-- Retention behind a restart. -/
theorem pruneBefore_retained_iff_restartedLife : ∃ t store,
    Machine.run (step plainCrates) init restartedLife = some t ∧ t.store = some store ∧
      Retained plainCrates nextMidnight (due plainCrates t nextMidnight nextMidnight) t.db store
        (AuditGateway.pruneBefore plainCrates true nextMidnight nextMidnight nextMidnight
          t.db store) := by
  obtain ⟨t, ht, hentries, hrows, hops⟩ := exists_run_restartedLife
  obtain ⟨h, hw⟩ := whole_of_run hops ht
  have hopen : (Machine.run (step plainCrates) init restartedLife).map (·.store.isSome) =
      some true := rfl
  rw [ht, Option.map_some, Option.some.injEq] at hopen
  obtain ⟨store, hstore⟩ := Option.isSome_iff_exists.1 hopen
  have hcutoff : ∀ e ∈ t.entries, TsOrdered plainCrates nextMidnight e.ts := by
    rw [hentries]
    unfold TsOrdered
    decide +kernel
  have hnow : ∀ e ∈ t.entries, TsOrdered plainCrates (nextMidnight.addMinutes 5) e.ts := by
    rw [hentries]
    unfold TsOrdered
    decide +kernel
  refine ⟨t, store, ht, hstore,
    (pruneBefore_retained_iff ht hstore hcutoff hnow nextMidnight).2 ?_⟩
  have hnotFuture : ¬ tsColumn plainCrates (nextMidnight.addMinutes 5) <
      tsColumn plainCrates stoppedEntry.ts := by decide +kernel
  rw [due_eq_dueByText h hcutoff hnow, dueByText_eq_take (by rw [hrows]; rfl) hnotFuture]
  exact inOnePiece_of_linked (hw.linked h) (by omega)

/-- **A run fails behind a truncated tail**: the trail holds records 1 and 3, record 1 is due, and
the run looks up record 2. -/
theorem pruneBefore_fails : ∃ s store,
    Machine.run (step plainCrates) init
        (truncatedLife ++ [.openStore true stoppedEntry.ts]) = some s ∧
      s.store = some store ∧
      AuditGateway.pruneBefore plainCrates true nextMidnight nextMidnight nextMidnight s.db store =
        .error .noRows := by
  set life := Machine.run (step plainCrates) init
    (truncatedLife ++ [.openStore true stoppedEntry.ts]) with hlife
  obtain ⟨s, hs⟩ := Option.isSome_iff_exists.1 (show life.isSome = true from rfl)
  have hopen : life.map (·.store.isSome) = some true := rfl
  have hrange : life.map (fun s => pruneRange plainCrates nextMidnight nextMidnight s.db) =
      some (.error .noRows) := by
    rw [hlife]
    decide +kernel
  rw [hs, Option.map_some, Option.some.injEq] at hopen hrange
  obtain ⟨store, hstore⟩ := Option.isSome_iff_exists.1 hopen
  refine ⟨s, store, hs, hstore, ?_⟩
  rw [AuditGateway.pruneBefore, hrange]
  rfl

end Trail

end AuditGateway
