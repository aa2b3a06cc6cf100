import Mathlib.Data.List.Nodup
import Mathlib.Logic.Function.Basic
import Mathlib.Tactic.Common

set_option relaxedAutoImplicit false
set_option autoImplicit false

/-!
# Lists as maps

A list whose entries have different keys is a map, and its entries can still be addressed by their
positions. What a change at a position does to the map does not depend on where the position is.

## Main definitions

* `KeyedList.toMap` — the entry of each key.

## Main results

* `KeyedList.toMap_set`, `KeyedList.toMap_eraseIdx`, `KeyedList.toMap_concat` — the map behind a
  change at a position.
-/

namespace AuditGateway.KeyedList

variable {α κ : Type*} [DecidableEq κ] {key : α → κ} {l : List α}

/-- The entry of each key. -/
def toMap (key : α → κ) (l : List α) (k : κ) : Option α := l.find? (key · = k)

/-- A key leads to the element that has it. -/
lemma toMap_eq_some_iff (h : (l.map key).Nodup) {k : κ} {a : α} :
    toMap key l k = some a ↔ a ∈ l ∧ key a = k := by
  constructor
  · intro ha
    exact ⟨List.mem_of_find?_eq_some ha, by simpa using List.find?_some ha⟩
  · rintro ⟨ha, rfl⟩
    cases hb : toMap key l (key a) with
    | none => simpa using List.find?_eq_none.1 hb a ha
    | some b =>
      have hkey : key b = key a := by simpa using List.find?_some hb
      rw [List.inj_on_of_nodup_map h (List.mem_of_find?_eq_some hb) ha hkey]

/-- A key that no element has leads to none. -/
lemma toMap_eq_none_iff {k : κ} : toMap key l k = none ↔ ∀ a ∈ l, key a ≠ k := by
  simp [toMap]

/-- An element is found under its key. -/
lemma toMap_of_getElem? (h : (l.map key).Nodup) {i : ℕ} {a : α} (hi : l[i]? = some a) :
    toMap key l (key a) = some a :=
  (toMap_eq_some_iff h).2 ⟨List.mem_of_getElem? hi, rfl⟩

section Middle

variable {before after : List α} {a : α} (h : ((before ++ a :: after).map key).Nodup)

include h

omit [DecidableEq κ] in
/-- The element in the middle has a key of its own. -/
lemma nodup_middle : key a ∉ (before ++ after).map key ∧ ((before ++ after).map key).Nodup := by
  rw [List.map_append, List.map_cons, List.nodup_middle, List.nodup_cons, ← List.map_append] at h
  exact h

/-- The key of an entry is in no other. -/
lemma toMap_middle_self : toMap key (before ++ after) (key a) = none :=
  toMap_eq_none_iff.2 fun b hb hkey => (nodup_middle h).1 (List.mem_map.2 ⟨b, hb, hkey⟩)

/-- An entry, and the map of the others. -/
lemma toMap_middle : toMap key (before ++ a :: after) =
    Function.update (toMap key (before ++ after)) (key a) (some a) := by
  funext k
  by_cases hk : k = key a
  · subst hk
    rw [Function.update_self]
    exact (toMap_eq_some_iff h).2 ⟨by simp, rfl⟩
  · rw [Function.update_of_ne hk]
    refine Option.ext fun b => ?_
    rw [toMap_eq_some_iff h, toMap_eq_some_iff (nodup_middle h).2]
    refine and_congr_left fun hb => ?_
    have hba : b ≠ a := fun hba => hk (hba ▸ hb.symm)
    simp [hba]

end Middle

/-- An entry that is put behind the others has its key, which was free. -/
lemma toMap_concat {a : α} (h : ((l ++ [a]).map key).Nodup) :
    toMap key (l ++ [a]) = Function.update (toMap key l) (key a) (some a) := by
  simpa using toMap_middle h

/-- The entry at a position, and those in front of it and behind it. -/
lemma eq_middle {i : ℕ} {a : α} (hi : l[i]? = some a) :
    l = l.take i ++ a :: l.drop (i + 1) := by
  obtain ⟨hlt, rfl⟩ := List.getElem?_eq_some_iff.1 hi
  rw [← List.drop_eq_getElem_cons hlt, List.take_append_drop]

/-- The entry at a position is removed with its key. -/
lemma toMap_eraseIdx (h : (l.map key).Nodup) {i : ℕ} {a : α} (hi : l[i]? = some a) :
    toMap key (l.eraseIdx i) = Function.update (toMap key l) (key a) none := by
  rw [eq_middle hi] at h
  rw [List.eraseIdx_eq_take_drop_succ]
  conv_rhs => rw [eq_middle hi, toMap_middle h, Function.update_idem]
  rw [Function.eq_update_iff]
  exact ⟨toMap_middle_self h, fun _ _ => rfl⟩

/-- The entry at a position makes room for another, under its own key. -/
lemma toMap_set {i : ℕ} {a b : α} (h : (l.map key).Nodup) (h' : ((l.set i b).map key).Nodup)
    (hi : l[i]? = some a) :
    toMap key (l.set i b) =
      Function.update (Function.update (toMap key l) (key a) none) (key b) (some b) := by
  have hset : l.set i b = l.take i ++ b :: l.drop (i + 1) := by
    rw [List.set_eq_take_append_cons_drop, if_pos (List.getElem?_eq_some_iff.1 hi).1]
  rw [hset] at h' ⊢
  rw [toMap_middle h', ← toMap_eraseIdx h hi, List.eraseIdx_eq_take_drop_succ]

end AuditGateway.KeyedList
