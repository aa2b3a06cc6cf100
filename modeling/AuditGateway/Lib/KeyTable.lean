import Mathlib.Data.List.Sort
import Mathlib.Data.Int.Order.Basic
import Mathlib.Tactic.Common

set_option relaxedAutoImplicit false
set_option autoImplicit false

/-!
# Tables with an integer primary key

A table is the list of its rows in the order of the key, no key twice. The order is a field,
so a table with a duplicate key or with rows out of order cannot be built, and a query that
sorts by the key is the list itself.

## Main definitions

* `KeyTable` — the rows, strictly increasing in the key.
* `KeyTable.insertRow` — insertion, which fails when the key is taken.
* `KeyTable.deleteWhere`, `KeyTable.rowAt`, `KeyTable.lastRow`, `KeyTable.minKeyWhere` —
  deletion and lookups.
* `KeyTable.rowsAfter` — the next rows behind a key.

## Main results

* `KeyTable.insertRow_of_lt` — a row behind the last one is appended.
* `KeyTable.rowAt_eq_some_iff` — the lookup by key.
* `KeyTable.minKeyWhere_eq` — the smallest key of a selection is that of its first row.
* `KeyTable.rows_deleteWhere_le_key` — deleting up to a key leaves the rows behind it.
* `KeyTable.mem_rowsAfter_of_le` — the next rows behind a key leave none out before their last.
-/

namespace AuditGateway

variable {α : Type*}

/-- The rows of a table in key order, each key at most once. -/
structure KeyTable (α : Type*) (key : α → ℤ) where
  /-- The rows, in the order of the key. -/
  rows : List α
  /-- Each key is below the next one. -/
  sorted : rows.Pairwise fun a b => key a < key b

namespace KeyTable

variable {key : α → ℤ}

/-- Tables with the same rows are the same. -/
@[ext] theorem ext {t u : KeyTable α key} (h : t.rows = u.rows) : t = u := by
  cases t; cases u; simp_all

/-- The table without rows. -/
def empty (key : α → ℤ) : KeyTable α key := ⟨[], List.Pairwise.nil⟩

/-- The empty table has no rows. -/
@[simp] theorem rows_empty : (empty key).rows = [] := rfl

/-- Puts a row at its place in a list in key order. -/
def place (key : α → ℤ) (a : α) : List α → List α
  | [] => [a]
  | b :: l => if key a < key b then a :: b :: l else b :: place key a l

/-- What is placed in a list is there, and what was there. -/
theorem mem_place {a b : α} {l : List α} : b ∈ place key a l ↔ b = a ∨ b ∈ l := by
  induction l with
  | nil => simp [place]
  | cons c l ih =>
    unfold place
    split_ifs
    · simp
    · simp only [List.mem_cons, ih]
      tauto

/-- A row is placed by its key. -/
theorem pairwise_place {a : α} {l : List α} (hl : l.Pairwise fun a b => key a < key b)
    (ha : ∀ b ∈ l, key b ≠ key a) : (place key a l).Pairwise fun a b => key a < key b := by
  induction l with
  | nil => simp [place]
  | cons b l ih =>
    obtain ⟨hb, hl⟩ := List.pairwise_cons.1 hl
    unfold place
    split_ifs with hab
    · refine List.pairwise_cons.2 ⟨?_, List.pairwise_cons.2 ⟨hb, hl⟩⟩
      intro c hc
      rcases List.mem_cons.1 hc with rfl | hc
      · exact hab
      · exact hab.trans (hb c hc)
    · refine List.pairwise_cons.2 ⟨?_, ih hl fun c hc => ha c (List.mem_cons_of_mem _ hc)⟩
      intro c hc
      rcases mem_place.1 hc with rfl | hc
      · exact lt_of_le_of_ne (not_lt.1 hab) (ha b (List.mem_cons_self ..))
      · exact hb c hc

/-- A row whose key is above all others goes to the end. -/
theorem place_of_lt {a : α} {l : List α} (h : ∀ b ∈ l, key b < key a) :
    place key a l = l ++ [a] := by
  induction l with
  | nil => rfl
  | cons b l ih =>
    unfold place
    rw [if_neg (h b (List.mem_cons_self ..)).asymm,
      ih fun c hc => h c (List.mem_cons_of_mem _ hc), List.cons_append]

/-- Inserts a row; `none` if its key is taken. -/
def insertRow (t : KeyTable α key) (a : α) : Option (KeyTable α key) :=
  if h : ∀ b ∈ t.rows, key b ≠ key a then some ⟨place key a t.rows, pairwise_place t.sorted h⟩
  else none

/-- Deletes the rows that satisfy `p`. -/
def deleteWhere (t : KeyTable α key) (p : α → Prop) [DecidablePred p] : KeyTable α key :=
  ⟨t.rows.filter fun a => ¬ p a, t.sorted.filter _⟩

/-- The row with key `k`. -/
def rowAt (t : KeyTable α key) (k : ℤ) : Option α := t.rows.find? fun a => key a = k

/-- The row with the largest key. -/
def lastRow (t : KeyTable α key) : Option α := t.rows.getLast?

/-- The smallest key among the rows that satisfy `p`. -/
def minKeyWhere (t : KeyTable α key) (p : α → Prop) [DecidablePred p] : Option ℤ :=
  ((t.rows.filter fun a => p a).map key).min?

/-- The first `n` rows behind key `k`. -/
def rowsAfter (t : KeyTable α key) (k : ℤ) (n : ℕ) : List α :=
  (t.rows.filter fun a => k < key a).take n

/-- The rows that are not deleted. -/
@[simp] theorem rows_deleteWhere (t : KeyTable α key) (p : α → Prop) [DecidablePred p] :
    (t.deleteWhere p).rows = t.rows.filter fun a => ¬ p a := rfl

/-- A row behind the last one is appended. -/
theorem insertRow_of_lt {t : KeyTable α key} {a : α} (h : ∀ b ∈ t.rows, key b < key a) :
    ∃ u, t.insertRow a = some u ∧ u.rows = t.rows ++ [a] := by
  have hne : ∀ b ∈ t.rows, key b ≠ key a := fun b hb => (h b hb).ne
  exact ⟨_, dif_pos hne, place_of_lt h⟩

/-- Of two rows of a table, the keys are in the order of the rows. -/
theorem key_lt_of_append {t : KeyTable α key} {l m : List α} (h : t.rows = l ++ m) {a b : α}
    (ha : a ∈ l) (hb : b ∈ m) : key a < key b := by
  have hp := t.sorted
  rw [h, List.pairwise_append] at hp
  exact hp.2.2 a ha b hb

/-- From one row of a table to a later one the key grows at least by the number of rows. -/
theorem key_add_le {t : KeyTable α key} {i d : ℕ} {a b : α} (ha : t.rows[i]? = some a)
    (hb : t.rows[i + d]? = some b) : key a + d ≤ key b := by
  induction d generalizing b with
  | zero =>
    obtain rfl : a = b := by simpa [ha] using hb
    simp
  | succ d ih =>
    obtain ⟨hlt, -⟩ := List.getElem?_eq_some_iff.1 hb
    have hc : t.rows[i + d]? = some t.rows[i + d] := List.getElem?_eq_getElem (by omega)
    have hcb : key t.rows[i + d] < key b := by
      have hpw := List.pairwise_iff_getElem.1 t.sorted (i + d) (i + (d + 1)) (by omega) hlt
        (by omega)
      obtain ⟨_, rfl⟩ := List.getElem?_eq_some_iff.1 hb
      exact hpw
    have := ih hc
    push_cast
    omega

/-- No row has a larger key than the last one. -/
theorem key_le_lastRow {t : KeyTable α key} {a b : α} (hb : t.lastRow = some b)
    (ha : a ∈ t.rows) : key a ≤ key b := by
  obtain ⟨l, m, hlm⟩ := List.append_of_mem ha
  rw [lastRow, hlm, List.getLast?_append_cons] at hb
  rcases List.mem_cons.1 (List.mem_of_getLast? hb) with rfl | hm
  · exact le_rfl
  · have hrows : t.rows = (l ++ [a]) ++ m := by simp [hlm]
    exact (key_lt_of_append hrows (by simp) hm).le

/-- No row has a smaller key than the first one. -/
theorem head?_key_le {t : KeyTable α key} {a b : α} (hb : t.rows.head? = some b)
    (ha : a ∈ t.rows) : key b ≤ key a := by
  obtain ⟨l, hl⟩ := List.head?_eq_some_iff.1 hb
  rw [hl] at ha
  rcases List.mem_cons.1 ha with rfl | ha
  · exact le_rfl
  · have hsorted := t.sorted
    rw [hl] at hsorted
    exact (List.rel_of_pairwise_cons hsorted ha).le

/-- Two rows of a table with one key are one row. -/
theorem eq_of_key_eq {t : KeyTable α key} {a b : α} (ha : a ∈ t.rows) (hb : b ∈ t.rows)
    (h : key a = key b) : a = b := by
  obtain ⟨l, m, hlm⟩ := List.append_of_mem ha
  rw [hlm, List.mem_append, List.mem_cons] at hb
  rcases hb with hb | rfl | hb
  · have := key_lt_of_append hlm hb (List.mem_cons_self ..)
    omega
  · rfl
  · have := key_lt_of_append (l := l ++ [a]) (m := m) (by simpa using hlm) (a := a) (by simp) hb
    omega

/-- The lookup by key finds exactly the row with that key. -/
theorem rowAt_eq_some_iff {t : KeyTable α key} {k : ℤ} {a : α} :
    t.rowAt k = some a ↔ a ∈ t.rows ∧ key a = k := by
  constructor
  · intro h
    exact ⟨List.mem_of_find?_eq_some h, by simpa using List.find?_some h⟩
  · rintro ⟨ha, rfl⟩
    cases h : t.rowAt (key a) with
    | none => simpa using List.find?_eq_none.1 h a ha
    | some b =>
      have hb : key b = key a := by simpa using List.find?_some h
      rw [eq_of_key_eq (List.mem_of_find?_eq_some h) ha hb]

/-- In a list in key order the smallest key is that of the first row. -/
theorem min?_map_key {l : List α} (hl : l.Pairwise fun a b => key a < key b) :
    (l.map key).min? = l.head?.map key := by
  cases l with
  | nil => rfl
  | cons a l =>
    have ha := (List.pairwise_cons.1 hl).1
    rw [List.head?_cons, Option.map_some, List.min?_eq_some_iff]
    refine ⟨by simp, fun k hk => ?_⟩
    obtain ⟨b, hb, rfl⟩ := List.mem_map.1 hk
    rcases List.mem_cons.1 hb with rfl | hb
    · exact le_rfl
    · exact (ha b hb).le

/-- The smallest key of a selection is that of the first row selected. -/
theorem minKeyWhere_eq (t : KeyTable α key) (p : α → Prop) [DecidablePred p] :
    t.minKeyWhere p = (t.rows.find? fun a => p a).map key := by
  rw [minKeyWhere, min?_map_key (t.sorted.filter _), List.head?_filter]

/-- Selecting the keys up to that of a row selects the rows up to it. -/
theorem filter_le_key {t : KeyTable α key} {l m : List α} {a : α} (h : t.rows = l ++ a :: m) :
    (t.rows.filter fun b => key b ≤ key a) = l ++ [a] := by
  have hl : ∀ b ∈ l, key b ≤ key a := fun b hb =>
    (key_lt_of_append h hb (List.mem_cons_self ..)).le
  have hm : ∀ b ∈ m, ¬ key b ≤ key a := fun b hb =>
    not_le.2 (key_lt_of_append (l := l ++ [a]) (m := m) (by simpa using h) (by simp) hb)
  rw [h, List.filter_append, List.filter_cons_of_pos (by simp),
    List.filter_eq_self.2 (by simpa using hl), List.filter_eq_nil_iff.2 (by simpa using hm)]

/-- Deleting the keys up to that of a row leaves the rows behind it. -/
theorem rows_deleteWhere_le_key {t : KeyTable α key} {l m : List α} {a : α}
    (h : t.rows = l ++ a :: m) : (t.deleteWhere fun b => key b ≤ key a).rows = m := by
  have hl : ∀ b ∈ l, key b ≤ key a := fun b hb =>
    (key_lt_of_append h hb (List.mem_cons_self ..)).le
  have hm : ∀ b ∈ m, key a < key b := fun b hb =>
    key_lt_of_append (l := l ++ [a]) (m := m) (by simpa using h) (by simp) hb
  rw [rows_deleteWhere, h, List.filter_append, List.filter_cons_of_neg (by simp),
    List.filter_eq_nil_iff.2 (by simpa using hl), List.filter_eq_self.2 (by simpa using hm),
    List.nil_append]

/-! ## Reading on behind a key -/

/-- Rows behind a key are rows of the table. -/
theorem mem_rows_of_mem_rowsAfter {t : KeyTable α key} {k : ℤ} {n : ℕ} {a : α}
    (h : a ∈ t.rowsAfter k n) : a ∈ t.rows ∧ k < key a := by
  simpa using List.mem_of_mem_take h

/-- Rows behind a key are in order. -/
theorem pairwise_rowsAfter (t : KeyTable α key) (k : ℤ) (n : ℕ) :
    (t.rowsAfter k n).Pairwise fun a b => key a < key b :=
  (t.sorted.filter _).sublist (List.take_sublist _ _)

/-- The next rows behind a key leave none out before their last. -/
theorem mem_rowsAfter_of_le {t : KeyTable α key} {k : ℤ} {n : ℕ} {a b : α} (ha : a ∈ t.rows)
    (hk : k < key a) (hb : b ∈ t.rowsAfter k n) (hab : key a ≤ key b) : a ∈ t.rowsAfter k n := by
  have hsorted := t.sorted.filter fun a => decide (k < key a)
  have hmem : a ∈ t.rows.filter fun a => decide (k < key a) := by simp [ha, hk]
  unfold rowsAfter at hb ⊢
  rw [← List.take_append_drop n (t.rows.filter fun a => decide (k < key a))] at hmem hsorted
  rcases List.mem_append.1 hmem with hmem | hmem
  · exact hmem
  · have := (List.pairwise_append.1 hsorted).2.2 b hb a hmem
    omega

end KeyTable

end AuditGateway
