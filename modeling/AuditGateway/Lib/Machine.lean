import Mathlib.Data.Option.Basic
import Mathlib.Tactic.Common

set_option relaxedAutoImplicit false
set_option autoImplicit false

/-!
# Runs of a labelled machine

A machine is a partial step function `S → L → Option S`: `none` means that the label is not
possible in the state. A run is a list of labels, and everything a system can do under every
interleaving of its parties is the set of all such lists.

## Main definitions

* `Machine.run` — the state after a list of labels.
* `Machine.Meets` — every step of a run meets a condition on the state before it.

## Main results

* `Machine.run_invariant` — what every step keeps, every run keeps.
* `Machine.run_invariant_of_meets` — the same for the steps that meet a condition.
* `Machine.meets_iff_of_monotone` — a condition read off a quantity that only grows.
* `Machine.perm_of_find?` — taking a party out of a list.
-/

namespace AuditGateway.Machine

variable {S L : Type*} (step : S → L → Option S)

/-- The state after the steps of a list of labels, if all of them are possible. -/
def run : S → List L → Option S
  | s, [] => some s
  | s, l :: ls => (step s l).bind fun t => run t ls

/-- Every step of the run meets `C`, a condition on the state before the step and its label. -/
def Meets (C : S → L → Prop) : S → List L → Prop
  | _, [] => True
  | s, l :: ls => C s l ∧ ∀ t, step s l = some t → Meets C t ls

/-- No operation changes nothing. -/
@[simp] theorem run_nil (s : S) : run step s [] = some s := rfl

/-- The first operation, and then the others. -/
theorem run_cons (s : S) (l : L) (ls : List L) :
    run step s (l :: ls) = (step s l).bind fun t => run step t ls := rfl

/-- A run with a first step is that step and a run from the state after it. -/
theorem run_cons_eq_some {s u : S} {l : L} {ls : List L} :
    run step s (l :: ls) = some u ↔ ∃ t, step s l = some t ∧ run step t ls = some u := by
  rw [run_cons, Option.bind_eq_some_iff]

/-- Runs compose. -/
theorem run_append (s : S) (ls ms : List L) :
    run step s (ls ++ ms) = (run step s ls).bind fun t => run step t ms := by
  induction ls generalizing s with
  | nil => rfl
  | cons l ls ih =>
    rw [List.cons_append, run_cons, run_cons]
    cases step s l with
    | none => rfl
    | some t => exact ih t

/-- The last step of a run. -/
theorem run_concat_eq_some {s u : S} {l : L} {ls : List L} :
    run step s (ls ++ [l]) = some u ↔ ∃ t, run step s ls = some t ∧ step t l = some u := by
  rw [run_append, Option.bind_eq_some_iff]
  simp only [run_cons, run_nil, Option.bind_fun_some]

/-- No operation meets every condition. -/
@[simp] theorem meets_nil (C : S → L → Prop) (s : S) : Meets step C s [] := trivial

/-- A run that starts with a known step. -/
theorem meets_cons_of_eq {C : S → L → Prop} {s t : S} {l : L} {ls : List L} (hC : C s l)
    (hs : step s l = some t) (h : Meets step C t ls) : Meets step C s (l :: ls) := by
  refine ⟨hC, fun u hu => ?_⟩
  obtain rfl : t = u := Option.some.inj (hs.symm.trans hu)
  exact h

/-- A condition that holds at every step is met by every run. -/
theorem meets_of_forall {C : S → L → Prop} (h : ∀ s l, C s l) (s : S) (ls : List L) :
    Meets step C s ls := by
  induction ls generalizing s with
  | nil => trivial
  | cons l ls ih => exact ⟨h s l, fun t _ => ih t⟩

/-- A condition that holds of all labels of a run in every state is met by it. -/
theorem meets_of_forall_mem {C : S → L → Prop} {ls : List L} (h : ∀ l ∈ ls, ∀ s, C s l) (s : S) :
    Meets step C s ls := by
  induction ls generalizing s with
  | nil => trivial
  | cons l ls ih =>
    refine ⟨h l (List.mem_cons_self ..) s, fun t _ => ?_⟩
    exact ih (fun m hm => h m (List.mem_cons_of_mem _ hm)) t

/-- A condition on the labels of a run adds to a condition that it meets. -/
theorem meets_and_of_forall_mem {C : S → L → Prop} {D : L → Prop} {s : S} {ls : List L}
    (hD : ∀ l ∈ ls, D l) (hC : Meets step C s ls) : Meets step (fun s l => D l ∧ C s l) s ls := by
  induction ls generalizing s with
  | nil => trivial
  | cons l ls ih =>
    refine ⟨⟨hD l (List.mem_cons_self ..), hC.1⟩, fun t ht => ?_⟩
    exact ih (fun m hm => hD m (List.mem_cons_of_mem _ hm)) (hC.2 t ht)

/-- A run meets a condition if its two parts do. -/
theorem meets_append {C : S → L → Prop} {s : S} {ls ms : List L} :
    Meets step C s (ls ++ ms) ↔
      Meets step C s ls ∧ ∀ t, run step s ls = some t → Meets step C t ms := by
  induction ls generalizing s with
  | nil => simp
  | cons l ls ih =>
    constructor
    · intro h
      refine ⟨⟨h.1, fun t ht => (ih.1 (h.2 t ht)).1⟩, fun u hu => ?_⟩
      obtain ⟨t, ht, hr⟩ := (run_cons_eq_some step).1 hu
      exact (ih.1 (h.2 t ht)).2 u hr
    · rintro ⟨h, hms⟩
      refine ⟨h.1, fun t ht => ih.2 ⟨h.2 t ht, fun u hu => hms u ?_⟩⟩
      exact (run_cons_eq_some step).2 ⟨t, ht, hu⟩

/-- Whether a run meets a condition that can be decided. -/
instance decidableMeets {C : S → L → Prop} [hC : ∀ s l, Decidable (C s l)] :
    ∀ (ls : List L) (s : S), Decidable (Meets step C s ls)
  | [], _ => isTrue trivial
  | l :: ls, s =>
    have (t : S) : Decidable (Meets step C t ls) := decidableMeets ls t
    inferInstanceAs (Decidable (C s l ∧ ∀ t ∈ step s l, Meets step C t ls))

/-- A run whose first step is known meets a condition and ends where the rest of it does. -/
theorem meets_run_cons {C : S → L → Prop} {s t u : S} {l : L} {ls : List L} (hC : C s l)
    (hs : step s l = some t) (h : Meets step C t ls ∧ run step t ls = some u) :
    Meets step C s (l :: ls) ∧ run step s (l :: ls) = some u :=
  ⟨meets_cons_of_eq step hC hs h.1, (run_cons_eq_some step).2 ⟨t, hs, h.2⟩⟩

/-- Two runs that meet a condition one behind the other. -/
theorem meets_run_append {C : S → L → Prop} {s t u : S} {ls ms : List L}
    (h : Meets step C s ls ∧ run step s ls = some t)
    (h' : Meets step C t ms ∧ run step t ms = some u) :
    Meets step C s (ls ++ ms) ∧ run step s (ls ++ ms) = some u := by
  refine ⟨(meets_append step).2 ⟨h.1, fun v hv => ?_⟩, ?_⟩
  · obtain rfl : t = v := Option.some.inj (h.2.symm.trans hv)
    exact h'.1
  · rw [run_append, h.2]
    exact h'.2

variable {step}

/-- **The invariant rule**: what every step that meets `C` keeps, every run whose steps all
meet `C` keeps. -/
theorem run_invariant_of_meets {I : S → Prop} {C : S → L → Prop}
    (hstep : ∀ s l t, I s → C s l → step s l = some t → I t) {s t : S} {ls : List L}
    (hs : I s) (hC : Meets step C s ls) (hr : run step s ls = some t) : I t := by
  induction ls generalizing s with
  | nil =>
    obtain rfl : s = t := Option.some.inj hr
    exact hs
  | cons l ls ih =>
    obtain ⟨u, hu, hr⟩ := (run_cons_eq_some step).1 hr
    exact ih (hstep s l u hs hC.1 hu) (hC.2 u hu) hr

/-- Two conditions that agree in the states of an invariant are met by the same runs, if the one
keeps it. -/
theorem meets_iff_of_invariant {I : S → Prop} {P : L → Prop} {C D : S → L → Prop}
    (hiff : ∀ s l, I s → P l → (C s l ↔ D s l))
    (hstep : ∀ s l t, I s → P l → C s l → step s l = some t → I t) {s : S} {ls : List L}
    (hls : ∀ l ∈ ls, P l) (hs : I s) : Meets step C s ls ↔ Meets step D s ls := by
  induction ls generalizing s with
  | nil => exact Iff.rfl
  | cons l ls ih =>
    have hl := hls l (List.mem_cons_self ..)
    have ih := fun t => @ih t fun m hm => hls m (List.mem_cons_of_mem _ hm)
    constructor
    · rintro ⟨hC, h⟩
      exact ⟨(hiff s l hs hl).1 hC, fun t ht => (ih t (hstep s l t hs hl hC ht)).1 (h t ht)⟩
    · rintro ⟨hD, h⟩
      have hC := (hiff s l hs hl).2 hD
      exact ⟨hC, fun t ht => (ih t (hstep s l t hs hl hC ht)).2 (h t ht)⟩

/-- What every step keeps, every run keeps. -/
theorem run_invariant {I : S → Prop} (hstep : ∀ s l t, I s → step s l = some t → I t)
    {s t : S} {ls : List L} (hs : I s) (hr : run step s ls = some t) : I t :=
  run_invariant_of_meets (C := fun _ _ => True) (fun s l t h _ => hstep s l t h) hs
    (meets_of_forall step (fun _ _ => trivial) s ls) hr

/-- A quantity that no step lowers is at its end what it was at its start exactly if no step
raised it. -/
theorem meets_iff_of_monotone {I : S → Prop} {C : S → L → Prop} {f : S → ℕ}
    (hstep : ∀ s l t, I s → step s l = some t → I t ∧ f s ≤ f t ∧ (f t = f s ↔ C s l))
    {s t : S} {ls : List L} (hs : I s) (hr : run step s ls = some t) :
    f s ≤ f t ∧ (f t = f s ↔ Meets step C s ls) := by
  induction ls generalizing s with
  | nil =>
    obtain rfl : s = t := Option.some.inj hr
    exact ⟨Nat.le_refl _, iff_of_true rfl trivial⟩
  | cons l ls ih =>
    obtain ⟨u, hu, hr⟩ := (run_cons_eq_some step).1 hr
    obtain ⟨hI, hle, hiff⟩ := hstep s l u hs hu
    obtain ⟨hle', hiff'⟩ := ih hI hr
    refine ⟨Nat.le_trans hle hle', fun heq => ⟨hiff.1 (by omega), fun v hv => ?_⟩, fun h => ?_⟩
    · obtain rfl : u = v := Option.some.inj (hu.symm.trans hv)
      exact hiff'.1 (by omega)
    · have h₁ := hiff.2 h.1
      have h₂ := hiff'.2 (h.2 u hu)
      omega

/-- What follows from an invariant and a condition holds at every step of a run that meets the
condition, if the condition keeps the invariant. -/
theorem Meets.of_invariant {I : S → Prop} {C D : S → L → Prop}
    (hstep : ∀ s l t, I s → C s l → step s l = some t → I t)
    (hD : ∀ s l, I s → C s l → D s l) {s : S} {ls : List L} (hs : I s)
    (hC : Meets step C s ls) : Meets step D s ls := by
  induction ls generalizing s with
  | nil => trivial
  | cons l ls ih =>
    exact ⟨hD s l hs hC.1, fun t ht => ih (hstep s l t hs hC.1 ht) (hC.2 t ht)⟩

/-- A run whose steps meet a condition meets every weaker one. -/
theorem Meets.mono {C D : S → L → Prop} (h : ∀ s l, C s l → D s l) {s : S} {ls : List L}
    (hC : Meets step C s ls) : Meets step D s ls :=
  hC.of_invariant (I := fun _ => True) (fun _ _ _ _ _ _ => trivial) (fun s l _ => h s l) trivial

/-! ## Parties in a list -/

/-- A party that is looked up in a list and taken out of it. -/
theorem perm_of_find? {α : Type*} {p : α → Bool} {l : List α} {a : α} (h : l.find? p = some a) :
    l.Perm (a :: l.eraseP p) := by
  induction l with
  | nil => cases h
  | cons b l ih =>
    rw [List.find?_cons] at h
    cases hb : p b with
    | true =>
      rw [hb] at h
      obtain rfl : b = a := Option.some.inj h
      rw [List.eraseP_cons_of_pos hb]
    | false =>
      rw [hb] at h
      rw [List.eraseP_cons_of_neg (by simp [hb])]
      exact ((ih h).cons b).trans (List.Perm.swap ..)

/-- A party other than number `i` has a property. -/
def Others {α : Type*} (l : List α) (i : ℕ) (P : α → Prop) : Prop :=
  ∃ j, j ≠ i ∧ ∃ a, l[j]? = some a ∧ P a

/-- Some party has a property exactly if party number `i` or another has. -/
theorem exists_mem_iff {α : Type*} {l : List α} {i : ℕ} {a : α} (h : l[i]? = some a)
    (P : α → Prop) : (∃ b ∈ l, P b) ↔ P a ∨ Others l i P := by
  constructor
  · rintro ⟨b, hb, hP⟩
    obtain ⟨j, hj⟩ := List.getElem?_of_mem hb
    by_cases hij : j = i
    · subst hij
      obtain rfl := Option.some.inj (h.symm.trans hj)
      exact .inl hP
    · exact .inr ⟨j, hij, b, hj, hP⟩
  · rintro (hP | ⟨j, -, b, hb, hP⟩)
    · exact ⟨a, List.mem_of_getElem? h, hP⟩
    · exact ⟨b, List.mem_of_getElem? hb, hP⟩

/-- When party number `i` changes, the others have what they had. -/
theorem others_set_iff {α : Type*} {l : List α} {i : ℕ} (b : α) {P : α → Prop} :
    Others (l.set i b) i P ↔ Others l i P := by
  constructor
  · rintro ⟨j, hij, c, hc, hP⟩
    exact ⟨j, hij, c, by rwa [List.getElem?_set_ne hij.symm] at hc, hP⟩
  · rintro ⟨j, hij, c, hc, hP⟩
    exact ⟨j, hij, c, by rwa [List.getElem?_set_ne hij.symm], hP⟩

/-- Behind a change of party number `i`, some party has a property exactly if this one or another
has it. -/
theorem exists_mem_set_iff {α : Type*} {l : List α} {i : ℕ} {a : α} (h : l[i]? = some a) (b : α)
    (P : α → Prop) : (∃ c ∈ l.set i b, P c) ↔ P b ∨ Others l i P := by
  have hset : (l.set i b)[i]? = some b := by
    rw [List.getElem?_set_self', h]
    rfl
  rw [exists_mem_iff hset P, others_set_iff]

end AuditGateway.Machine
