import Mathlib.Data.List.Basic
import Mathlib.Tactic.Common

set_option relaxedAutoImplicit false
set_option autoImplicit false

/-!
# Elements changed one at a time

A list of changes is applied to the elements of a list, each at a position of its own. What becomes
of one element is a fold over the changes for it, and what becomes of a field of that element is
what the changes for the field make of it.

## Main results

* `getElem?_foldl_modify` — the changes of one element.
* `field_foldl_of_forall`, `field_foldl_of_mem` — a field that no change is for, and one that a
  change is for.
* `foldl_of_foldlM`, `foldlM_isSome_iff` — changes that may fail.
-/

namespace AuditGateway

/-- What all changes make of the element at one position. -/
theorem getElem?_foldl_modify {α P : Type*} (at' : P → ℕ) (change : P → α → α) (changes : List P)
    (items : List α) (j : ℕ) :
    (changes.foldl (fun items p => items.modify (at' p) (change p)) items)[j]? =
      items[j]?.map fun a =>
        changes.foldl (fun a p => if at' p = j then change p a else a) a := by
  induction changes generalizing items with
  | nil => simp
  | cons p changes ih =>
    rw [List.foldl_cons, ih, List.getElem?_modify]
    cases items[j]? with
    | none => rfl
    | some a => rfl

/-- Changes keep the length of a list. -/
theorem length_foldl_modify {α P : Type*} (at' : P → ℕ) (change : P → α → α) (changes : List P)
    (items : List α) :
    (changes.foldl (fun items p => items.modify (at' p) (change p)) items).length =
      items.length := by
  induction changes generalizing items with
  | nil => rfl
  | cons p changes ih => rw [List.foldl_cons, ih, List.length_modify]

section Fields

variable {α β P : Type*} {change : α → P → α} {field : α → Option β} {got : P → Option β}

/-- A field that no change is for stays as it is. -/
theorem field_foldl_of_forall (hchange : ∀ a p, field (change a p) = (got p).or (field a))
    {changes : List P} (h : ∀ p ∈ changes, got p = none) (a : α) :
    field (changes.foldl change a) = field a := by
  induction changes generalizing a with
  | nil => rfl
  | cons p changes ih =>
    obtain ⟨hp, h⟩ := List.forall_mem_cons.1 h
    rw [List.foldl_cons, ih h, hchange, hp, Option.none_or]

/-- A field has what a change puts there, if no other change puts anything else there. -/
theorem field_foldl_of_mem (hchange : ∀ a p, field (change a p) = (got p).or (field a))
    {changes : List P} {p : P} (hp : p ∈ changes) {b : β} (hgot : got p = some b)
    (h : ∀ q ∈ changes, ∀ c, got q = some c → c = b) (a : α) :
    field (changes.foldl change a) = some b := by
  induction changes generalizing a p with
  | nil => cases hp
  | cons q changes ih =>
    obtain ⟨hq, h⟩ := List.forall_mem_cons.1 h
    rw [List.foldl_cons]
    by_cases hlater : ∃ r ∈ changes, (got r).isSome
    · obtain ⟨r, hr, hsome⟩ := hlater
      obtain ⟨c, hc⟩ := Option.isSome_iff_exists.1 hsome
      obtain rfl := h r hr c hc
      exact ih hr hc h _
    · -- the last change for the field is the first one left
      have hnone : ∀ r ∈ changes, got r = none := by
        intro r hr
        by_contra hne
        exact hlater ⟨r, hr, Option.isSome_iff_ne_none.2 hne⟩
      obtain rfl : p = q := by
        rcases List.mem_cons.1 hp with heq | hp
        · exact heq
        · rw [hnone p hp] at hgot
          cases hgot
      rw [field_foldl_of_forall hchange hnone, hchange, hgot, Option.some_or]

end Fields

section Failing

variable {σ P : Type*} {f : σ → P → Option σ} {g : σ → P → σ}

/-- Changes that may fail, where they do not. -/
theorem foldl_of_foldlM (hf : ∀ s p t, f s p = some t → t = g s p) {changes : List P} {s t : σ}
    (h : changes.foldlM f s = some t) : t = changes.foldl g s := by
  induction changes generalizing s with
  | nil =>
    cases h
    rfl
  | cons p changes ih =>
    rw [List.foldlM_cons, Option.bind_eq_bind, Option.bind_eq_some_iff] at h
    obtain ⟨u, hu, h⟩ := h
    obtain rfl := hf s p u hu
    exact ih h

/-- Where what was changed does not decide which changes fail, all of them succeed if each does. -/
theorem foldlM_isSome_iff {ok : P → Prop} (inv : σ → Prop) {changes : List P}
    (hok : ∀ p ∈ changes, ∀ s, inv s → ((f s p).isSome ↔ ok p))
    (hinv : ∀ s p t, inv s → f s p = some t → inv t) {s : σ} (hs : inv s) :
    (changes.foldlM f s).isSome ↔ ∀ p ∈ changes, ok p := by
  induction changes generalizing s with
  | nil => exact iff_of_true rfl (by simp)
  | cons p changes ih =>
    obtain ⟨hp, hok⟩ := List.forall_mem_cons.1 hok
    rw [List.foldlM_cons, List.forall_mem_cons, ← hp s hs]
    cases hfp : f s p with
    | none => simp
    | some t => simpa using ih hok (hinv s p t hs hfp)

end Failing

end AuditGateway
