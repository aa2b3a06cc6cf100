import Mathlib.Algebra.GroupWithZero.Nat
import Mathlib.Data.List.Nodup
import Mathlib.Tactic.Common

set_option relaxedAutoImplicit false
set_option autoImplicit false

/-!
# Tables with a primary key

A table is a list of rows, no two of which have the same key; that is a field, so a table with a
duplicate key cannot be built. The statements of a database act on the rows: they insert one if its
key is free, change those of a key, and delete those that satisfy a condition.

## Main definitions

* `UniqueTable`, `UniqueTable.get` — a table, and the row of a key.
* `UniqueTable.insert?`, `UniqueTable.put`, `UniqueTable.modify`, `UniqueTable.deleteWhere` — the
  statements.

## Main results

* `UniqueTable.get_eq_some_iff` — the row of a key is the one that has it.
* `UniqueTable.mem_insert?`, `UniqueTable.get_insert?` — what is there after an insertion.
* `UniqueTable.get_modify`, `UniqueTable.get_deleteWhere` — and after the other statements.
* `UniqueTable.filter_rows` — the rows of a key.
* `UniqueTable.sum_put`, `UniqueTable.sum_modify`, `UniqueTable.sum_deleteWhere` — what a sum over
  the rows becomes.
-/

namespace AuditGateway

variable {α κ : Type*}

/-- Rows with a primary key. -/
structure UniqueTable (α : Type*) {κ : Type*} (key : α → κ) where
  rows : List α
  nodup : (rows.map key).Nodup

namespace UniqueTable

variable {key : α → κ}

/-- The table without rows. -/
def empty (key : α → κ) : UniqueTable α key := ⟨[], List.nodup_nil⟩

variable [DecidableEq κ]

/-- The row of a key. -/
def get (t : UniqueTable α key) (k : κ) : Option α := t.rows.find? (key · = k)

/-- Inserts a row; `none` if its key is taken. -/
def insert? (t : UniqueTable α key) (a : α) : Option (UniqueTable α key) :=
  if h : ∀ b ∈ t.rows, key b ≠ key a then
    some ⟨t.rows ++ [a], by
      rw [List.map_append, List.map_singleton, List.nodup_append]
      refine ⟨t.nodup, List.nodup_singleton _, fun k hk l hl => ?_⟩
      obtain ⟨b, hb, rfl⟩ := List.mem_map.1 hk
      rw [List.mem_singleton.1 hl]
      exact h b hb⟩
  else none

/-- Inserts a row in the place of the one that has its key. -/
def put (t : UniqueTable α key) (a : α) : UniqueTable α key :=
  ⟨a :: t.rows.filter (key · ≠ key a), by
    rw [List.map_cons, List.nodup_cons]
    refine ⟨fun h => ?_, t.nodup.sublist (List.filter_sublist.map _)⟩
    obtain ⟨b, hb, hkey⟩ := List.mem_map.1 h
    simpa [hkey] using (List.mem_filter.1 hb).2⟩

/-- Changes the rows that satisfy `p`, but not their keys. -/
def modify (t : UniqueTable α key) (p : α → Bool) (f : α → α) (hf : ∀ a, key (f a) = key a) :
    UniqueTable α key :=
  ⟨t.rows.map fun a => if p a then f a else a, by
    have hkey : (t.rows.map fun a => if p a then f a else a).map key = t.rows.map key := by
      rw [List.map_map]
      refine List.map_congr_left fun a _ => ?_
      simp only [Function.comp_apply]
      split_ifs
      · exact hf a
      · rfl
    rw [hkey]
    exact t.nodup⟩

/-- Deletes the rows that satisfy `p`. -/
def deleteWhere (t : UniqueTable α key) (p : α → Bool) : UniqueTable α key :=
  ⟨t.rows.filter fun a => !p a, t.nodup.sublist (List.filter_sublist.map _)⟩

omit [DecidableEq κ] in
/-- Two rows with one key are one row. -/
theorem eq_of_key_eq {t : UniqueTable α key} {a b : α} (ha : a ∈ t.rows) (hb : b ∈ t.rows)
    (h : key a = key b) : a = b :=
  List.inj_on_of_nodup_map t.nodup ha hb h

/-- A key leads to the row that has it. -/
theorem get_eq_some_iff {t : UniqueTable α key} {k : κ} {a : α} :
    t.get k = some a ↔ a ∈ t.rows ∧ key a = k := by
  constructor
  · intro h
    exact ⟨List.mem_of_find?_eq_some h, by simpa using List.find?_some h⟩
  · rintro ⟨ha, rfl⟩
    cases h : t.get (key a) with
    | none => simpa using List.find?_eq_none.1 h a ha
    | some b =>
      have hb : key b = key a := by simpa using List.find?_some h
      rw [eq_of_key_eq (List.mem_of_find?_eq_some h) ha hb]

/-- A key that no row has leads to none. -/
theorem get_eq_none_iff {t : UniqueTable α key} {k : κ} :
    t.get k = none ↔ ∀ a ∈ t.rows, key a ≠ k := by
  simp [get]

/-- A row is inserted behind the others, if its key is free. -/
theorem insert?_eq_some {t u : UniqueTable α key} {a : α} (h : t.insert? a = some u) :
    t.get (key a) = none ∧ u.rows = t.rows ++ [a] := by
  unfold insert? at h
  split_ifs at h with hfree
  cases h
  exact ⟨get_eq_none_iff.2 hfree, rfl⟩

/-- The rows behind an insertion. -/
theorem mem_insert? {t u : UniqueTable α key} {a b : α} (h : t.insert? a = some u) :
    b ∈ u.rows ↔ b ∈ t.rows ∨ b = a := by
  rw [(insert?_eq_some h).2, List.mem_append, List.mem_singleton]

/-- A row that was inserted is found under its key. -/
theorem get_insert? {t u : UniqueTable α key} {a : α} (h : t.insert? a = some u) (k : κ) :
    u.get k = if k = key a then some a else t.get k := by
  obtain ⟨hfree, hrows⟩ := insert?_eq_some h
  split_ifs with hk
  · exact get_eq_some_iff.2 ⟨(mem_insert? h).2 (.inr rfl), hk.symm⟩
  · cases hget : t.get k with
    | none =>
      refine get_eq_none_iff.2 fun b hb hkey => ?_
      rcases (mem_insert? h).1 hb with hb | rfl
      · exact get_eq_none_iff.1 hget b hb hkey
      · exact hk hkey.symm
    | some b =>
      obtain ⟨hb, hkey⟩ := get_eq_some_iff.1 hget
      exact get_eq_some_iff.2 ⟨(mem_insert? h).2 (.inl hb), hkey⟩

/-- A row that was put is found under its key. -/
theorem get_put (t : UniqueTable α key) (a : α) (k : κ) :
    (t.put a).get k = if k = key a then some a else t.get k := by
  unfold get put
  split_ifs with hk
  · rw [List.find?_cons_of_pos (by simpa using hk.symm)]
  · rw [List.find?_cons_of_neg (by simpa using fun h => hk h.symm), List.find?_filter]
    congr 1
    funext b
    by_cases hb : key b = k
    · simp [hb, hk]
    · simp [hb]

omit [DecidableEq κ] in
/-- The rows behind a change. -/
theorem mem_modify {t : UniqueTable α key} {p : α → Bool} {f : α → α}
    (hf : ∀ a, key (f a) = key a) {b : α} :
    b ∈ (t.modify p f hf).rows ↔ ∃ a ∈ t.rows, b = if p a then f a else a := by
  simp only [modify, List.mem_map, eq_comm]

/-- What is found behind a change. -/
theorem get_modify (t : UniqueTable α key) (p : α → Bool) (f : α → α)
    (hf : ∀ a, key (f a) = key a) (k : κ) :
    (t.modify p f hf).get k = (t.get k).map fun a => if p a then f a else a := by
  have hkey : ∀ a, key (if p a then f a else a) = key a := by
    intro a
    split_ifs
    · exact hf a
    · rfl
  cases hget : t.get k with
  | none =>
    refine get_eq_none_iff.2 fun b hb => ?_
    obtain ⟨a, ha, rfl⟩ := (mem_modify hf).1 hb
    rw [hkey]
    exact get_eq_none_iff.1 hget a ha
  | some a =>
    obtain ⟨ha, hk⟩ := get_eq_some_iff.1 hget
    exact get_eq_some_iff.2 ⟨(mem_modify hf).2 ⟨a, ha, rfl⟩, (hkey a).trans hk⟩

omit [DecidableEq κ] in
/-- The rows that are not deleted. -/
@[simp] theorem mem_deleteWhere {t : UniqueTable α key} {p : α → Bool} {a : α} :
    a ∈ (t.deleteWhere p).rows ↔ a ∈ t.rows ∧ p a = false := by
  simp [deleteWhere]

/-- What is found of the rows that are left. -/
theorem get_deleteWhere (t : UniqueTable α key) (p : α → Bool) (k : κ) :
    (t.deleteWhere p).get k = (t.get k).filter fun a => !p a := by
  cases hget : t.get k with
  | none =>
    refine get_eq_none_iff.2 fun a ha => ?_
    exact get_eq_none_iff.1 hget a (mem_deleteWhere.1 ha).1
  | some a =>
    obtain ⟨ha, hk⟩ := get_eq_some_iff.1 hget
    rw [Option.filter_some]
    split_ifs with hp
    · exact get_eq_some_iff.2 ⟨mem_deleteWhere.2 ⟨ha, by simpa using hp⟩, hk⟩
    · refine get_eq_none_iff.2 fun b hb hkey => hp ?_
      obtain ⟨hb, hpb⟩ := mem_deleteWhere.1 hb
      rw [eq_of_key_eq ha hb (hk.trans hkey.symm), hpb]
      rfl

/-! ## Sums over the rows -/

section Sum

variable {f : α → ℕ}

/-- The rows of a key. -/
theorem filter_rows (t : UniqueTable α key) (k : κ) :
    t.rows.filter (key · = k) = (t.get k).toList := by
  obtain ⟨rows, hnodup⟩ := t
  unfold get
  dsimp only
  induction rows with
  | nil => rfl
  | cons a rows ih =>
    rw [List.map_cons, List.nodup_cons] at hnodup
    by_cases ha : key a = k
    · have hrest : rows.filter (key · = k) = [] := by
        rw [List.filter_eq_nil_iff]
        intro b hb hkey
        rw [decide_eq_true_eq, ← ha] at hkey
        exact hnodup.1 (hkey ▸ List.mem_map_of_mem hb)
      rw [List.filter_cons_of_pos (by simpa using ha), List.find?_cons_of_pos (by simpa using ha),
        hrest]
      rfl
    · rw [List.filter_cons_of_neg (by simpa using ha), List.find?_cons_of_neg (by simpa using ha)]
      exact ih hnodup.2

/-- The row of a key counts once. -/
theorem sum_rows (t : UniqueTable α key) (f : α → ℕ) (k : κ) :
    (t.rows.map f).sum = (t.get k).elim 0 f + ((t.rows.filter (key · ≠ k)).map f).sum := by
  obtain ⟨rows, hnodup⟩ := t
  unfold get
  dsimp only
  induction rows with
  | nil => rfl
  | cons a rows ih =>
    rw [List.map_cons, List.nodup_cons] at hnodup
    have ih := ih hnodup.2
    rw [List.map_cons, List.sum_cons]
    by_cases ha : key a = k
    · have hrest : rows.filter (key · ≠ k) = rows := by
        rw [List.filter_eq_self]
        intro b hb
        have hmem := List.mem_map_of_mem (f := key) hb
        rw [decide_eq_true_eq, ← ha]
        exact fun hkey => hnodup.1 (hkey ▸ hmem)
      rw [List.find?_cons_of_pos (by simpa using ha), List.filter_cons_of_neg (by simpa using ha),
        hrest]
      rfl
    · rw [List.find?_cons_of_neg (by simpa using ha), List.filter_cons_of_pos (by simpa using ha),
        List.map_cons, List.sum_cons, ih]
      omega

/-- The new row counts in the place of the old one. -/
theorem sum_put (t : UniqueTable α key) (f : α → ℕ) (a : α) :
    ((t.put a).rows.map f).sum + (t.get (key a)).elim 0 f = (t.rows.map f).sum + f a := by
  rw [sum_rows t f (key a), put, List.map_cons, List.sum_cons]
  omega

/-- The changed row counts in the place of the old one. -/
theorem sum_modify (t : UniqueTable α key) (f : α → ℕ) (k : κ) (g : α → α)
    (hg : ∀ a, key (g a) = key a) :
    ((t.modify (key · = k) g hg).rows.map f).sum + (t.get k).elim 0 f =
      (t.rows.map f).sum + (t.get k).elim 0 fun a => f (g a) := by
  have hrest : (t.modify (key · = k) g hg).rows.filter (key · ≠ k) = t.rows.filter (key · ≠ k) := by
    have hkey : ∀ a, key (if decide (key a = k) then g a else a) = key a := by
      intro a
      split_ifs
      · exact hg a
      · rfl
    rw [modify, List.filter_map]
    simp only [Function.comp_def, hkey]
    conv_rhs => rw [← List.map_id (t.rows.filter (key · ≠ k))]
    refine List.map_congr_left fun a ha => ?_
    have hne : key a ≠ k := of_decide_eq_true (List.mem_filter.1 ha).2
    simp [hne]
  have hget : ((t.modify (key · = k) g hg).get k).elim 0 f =
      (t.get k).elim 0 fun a => f (g a) := by
    rw [get_modify]
    cases hget : t.get k with
    | none => rfl
    | some a => simp [(get_eq_some_iff.1 hget).2]
  rw [sum_rows _ f k, hrest, hget, sum_rows t f k]
  omega

omit [DecidableEq κ] in
/-- Rows that count nothing can be deleted. -/
theorem sum_deleteWhere (t : UniqueTable α key) {p : α → Bool}
    (h : ∀ a ∈ t.rows, p a → f a = 0) :
    ((t.deleteWhere p).rows.map f).sum = (t.rows.map f).sum := by
  obtain ⟨rows, hnodup⟩ := t
  unfold deleteWhere
  dsimp only at h ⊢
  clear hnodup
  induction rows with
  | nil => rfl
  | cons a rows ih =>
    obtain ⟨ha, hrows⟩ := List.forall_mem_cons.1 h
    cases hp : p a with
    | true => simp [hp, ih hrows, ha hp]
    | false => simp [hp, ih hrows]

end Sum

end UniqueTable

end AuditGateway
