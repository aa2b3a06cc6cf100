import Mathlib.Data.List.Forall2
import Mathlib.Tactic.Common

set_option relaxedAutoImplicit false
set_option autoImplicit false

/-!
# Lists of partial results

A function that may have no result, applied to every element of a list: there is a list of results
if each element has one.

## Main results

* `mapM_isSome_iff` — when there are results.
* `forall₂_of_mapM`, `mapM_of_forall₂`, `exists_of_mem_mapM` — what they are, one by one.
* `mapM_map_some` — what is undone element by element is undone.
-/

namespace AuditGateway

/-- A list of partial results exists if all of them do. -/
theorem mapM_isSome_iff {α β : Type*} {f : α → Option β} {l : List α} :
    (l.mapM f).isSome ↔ ∀ a ∈ l, (f a).isSome := by
  induction l with
  | nil => simp
  | cons a l ih =>
    rw [List.mapM_cons, List.forall_mem_cons, ← ih]
    cases f a with
    | none => simp
    | some b =>
      cases l.mapM f with
      | none => simp
      | some m => simp

/-- The elements of a list of partial results, one by one. -/
theorem forall₂_of_mapM {α β : Type*} {f : α → Option β} {l : List α} {m : List β}
    (h : l.mapM f = some m) : List.Forall₂ (fun a b => f a = some b) l m := by
  induction l generalizing m with
  | nil =>
    obtain rfl : [] = m := Option.some.inj h
    exact List.Forall₂.nil
  | cons a l ih =>
    rw [List.mapM_cons, Option.bind_eq_bind, Option.bind_eq_some_iff] at h
    obtain ⟨b, hb, h⟩ := h
    rw [Option.bind_eq_bind, Option.bind_eq_some_iff] at h
    obtain ⟨m, hm, h⟩ := h
    cases h
    exact List.Forall₂.cons hb (ih hm)

/-- A list is converted if every element is. -/
theorem mapM_of_forall₂ {α β : Type*} {f : α → Option β} {l : List α} {m : List β}
    (h : List.Forall₂ (fun a b => f a = some b) l m) : l.mapM f = some m := by
  induction h with
  | nil => rfl
  | cons hab _ ih =>
    rw [List.mapM_cons, hab, ih]
    rfl

/-- Every element on the right belongs to one on the left. -/
theorem exists_of_mem_right {α β : Type*} {R : α → β → Prop} {l : List α} {m : List β}
    (h : List.Forall₂ R l m) {b : β} (hb : b ∈ m) : ∃ a ∈ l, R a b := by
  induction h with
  | nil => cases hb
  | @cons a c l m hac _ ih =>
    rcases List.mem_cons.1 hb with rfl | hb
    · exact ⟨a, List.mem_cons_self .., hac⟩
    · obtain ⟨a, ha, hab⟩ := ih hb
      exact ⟨a, List.mem_cons_of_mem _ ha, hab⟩

/-- Every result is that of an element. -/
theorem exists_of_mem_mapM {α β : Type*} {f : α → Option β} {l : List α} {m : List β}
    (h : l.mapM f = some m) {b : β} (hb : b ∈ m) : ∃ a ∈ l, f a = some b :=
  exists_of_mem_right (forall₂_of_mapM h) hb

/-- A conversion that succeeds for every element is a map. -/
theorem mapM_eq_some_map {α β : Type*} {f : α → Option β} {g : α → β} {l : List α}
    (h : ∀ a ∈ l, f a = some (g a)) : l.mapM f = some (l.map g) := by
  induction l with
  | nil => rfl
  | cons a l ih =>
    obtain ⟨ha, hl⟩ := List.forall_mem_cons.1 h
    simp [ha, ih hl]

/-- A list is read back if every element is. -/
theorem mapM_map_some {α β : Type*} {f : β → Option α} {g : α → β} {l : List α}
    (h : ∀ a ∈ l, f (g a) = some a) : (l.map g).mapM f = some l := by
  have hcomp := mapM_eq_some_map (f := f ∘ g) (g := id) h
  rwa [List.map_id, ← List.mapM_map] at hcomp

/-- Nothing is read of a list if something in it is not. -/
theorem mapM_eq_none {α β : Type*} {f : β → Option α} {l : List β} {b : β} (hb : b ∈ l)
    (h : f b = none) : l.mapM f = none := by
  induction l with
  | nil => cases hb
  | cons c l ih =>
    rcases List.mem_cons.1 hb with rfl | hb
    · simp [h]
    · simp [ih hb]

end AuditGateway
