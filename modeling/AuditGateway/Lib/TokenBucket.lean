import Mathlib.Algebra.Order.Field.Basic
import Mathlib.Tactic.Linarith
import Mathlib.Tactic.Ring

set_option relaxedAutoImplicit false
set_option autoImplicit false

/-!
# Token buckets

A bucket gains tokens at a fixed rate, up to a capacity, and every event that is let through takes
one. A bucket that is not kept is full. What follows from this is a statement about windows: an
event stream is within a rate if every window of length `T` has at most `cap + rate * T` events.

## Main definitions

* `TokenBucket.Bucket`, `TokenBucket.fill` — a bucket, and its tokens at an instant.
* `TokenBucket.Within` — events that stay within a rate in every window.
* `TokenBucket.Account` — what the tokens of now say about the events so far.

## Main results

* `TokenBucket.fill_wait`, `TokenBucket.fill_eq_cap` — a bucket over time.
* `TokenBucket.Account.wait`, `TokenBucket.Account.take`, `TokenBucket.Account.refuse` — the steps.
* `TokenBucket.Account.not_within` — who finds the bucket empty has tried too often.
-/

namespace AuditGateway.TokenBucket

/-- The tokens of a bucket at an instant. -/
structure Bucket (K : Type*) where
  tokens : K
  last : K

variable {K : Type*} [LinearOrder K]

/-! ## Windows -/

/-- The events of a window. -/
def windowCount (times : List K) (s e : K) : ℕ := times.countP fun t => decide (s ≤ t ∧ t ≤ e)

/-- One more time may be in the window. -/
theorem windowCount_cons (t : K) (times : List K) (s e : K) :
    windowCount (t :: times) s e = windowCount times s e + if s ≤ t ∧ t ≤ e then 1 else 0 := by
  unfold windowCount
  rw [List.countP_cons]
  simp only [decide_eq_true_eq]

/-- A window has the events of a smaller one. -/
theorem windowCount_mono {times : List K} {s e s' e' : K} (hs : s' ≤ s) (he : e ≤ e') :
    windowCount times s e ≤ windowCount times s' e' := by
  refine List.countP_mono_left fun t _ h => ?_
  rw [decide_eq_true_eq] at h ⊢
  exact ⟨hs.trans h.1, h.2.trans he⟩

/-- A window that ends later counts the same if nothing is behind. -/
theorem windowCount_eq_of_forall_le {times : List K} {s e e' : K} (h : ∀ t ∈ times, t ≤ e)
    (he : e ≤ e') : windowCount times s e' = windowCount times s e := by
  refine List.countP_congr fun t ht => ?_
  rw [decide_eq_true_eq, decide_eq_true_eq]
  exact and_congr_right fun _ => iff_of_true ((h t ht).trans he) (h t ht)

/-- A window behind all times counts none. -/
theorem windowCount_eq_zero {times : List K} {s e e' : K} (h : ∀ t ∈ times, t ≤ e)
    (hs : e < s) : windowCount times s e' = 0 := by
  refine List.countP_eq_zero.2 fun t ht => ?_
  rw [decide_eq_true_eq]
  exact fun h' => absurd (h'.1.trans (h t ht)) (not_le.2 hs)

variable [Field K]

/-- The tokens of now. A bucket that is not kept is full. -/
def fill (rate cap : K) (b : Option (Bucket K)) (now : K) : K :=
  b.elim cap fun b => min (b.tokens + max (now - b.last) 0 * rate) cap

/-- In every window of length `T` there are at most `cap + rate * T` events. -/
def Within (rate cap : K) (times : List K) : Prop :=
  ∀ s T, 0 ≤ T → (windowCount times s (s + T) : K) ≤ cap + rate * T

variable {rate cap now level : K} {attempts taken : List K}

/-- An attempt of now is an event of every window up to now. -/
theorem cast_windowCount_cons_now {times : List K} {s : K} (hs : s ≤ now) :
    (windowCount (now :: times) s now : K) = windowCount times s now + 1 := by
  rw [windowCount_cons, if_pos ⟨hs, le_refl now⟩, Nat.cast_add, Nat.cast_one]

/-- A bucket holds no more than its capacity. -/
theorem fill_le (rate cap : K) (b : Option (Bucket K)) (now : K) : fill rate cap b now ≤ cap := by
  cases b with
  | none => exact le_refl cap
  | some b => exact min_le_right _ _

variable [IsStrictOrderedRing K]

/-- A condition on all times holds of the earlier ones. -/
theorem Within.of_cons {t : K} {times : List K}
    (h : Within rate cap (t :: times)) : Within rate cap times := by
  intro s T hT
  refine le_trans ?_ (h s T hT)
  rw [windowCount_cons, Nat.cast_add]
  exact le_add_of_nonneg_right (Nat.cast_nonneg _)

/-! ## A bucket over time -/

/-- A bucket holds no less than nothing. -/
theorem fill_nonneg (hrate : 0 ≤ rate) (hcap : 0 ≤ cap) {b : Option (Bucket K)}
    (hb : ∀ c ∈ b, 0 ≤ c.tokens) : 0 ≤ fill rate cap b now := by
  cases b with
  | none => exact hcap
  | some c =>
    refine le_min ?_ hcap
    exact add_nonneg (hb c rfl) (mul_nonneg (le_max_right _ _) hrate)

/-- A bucket gains its rate, up to its capacity. -/
theorem fill_wait (hrate : 0 ≤ rate) {b : Option (Bucket K)} {later : K}
    (hb : ∀ c ∈ b, c.last ≤ now) (hlater : now ≤ later) :
    fill rate cap b later = min (fill rate cap b now + (later - now) * rate) cap := by
  have hgain : 0 ≤ (later - now) * rate := mul_nonneg (sub_nonneg.2 hlater) hrate
  cases b with
  | none =>
    unfold fill
    simp only [Option.elim_none]
    rw [min_eq_right (le_add_of_nonneg_right hgain)]
  | some c =>
    have hlast := hb c rfl
    unfold fill
    simp only [Option.elim_some]
    rw [max_eq_left (sub_nonneg.2 hlast), max_eq_left (sub_nonneg.2 (hlast.trans hlater))]
    have hsum : c.tokens + (later - c.last) * rate =
        c.tokens + (now - c.last) * rate + (later - now) * rate := by ring
    have hcap : min (cap + (later - now) * rate) cap = cap :=
      min_eq_right (le_add_of_nonneg_right hgain)
    rw [hsum, ← min_add_add_right, min_assoc, hcap]

/-- A bucket is full when it has been left alone for long. -/
theorem fill_eq_cap {b : Option (Bucket K)}
    (hb : ∀ c ∈ b, 0 ≤ c.tokens ∧ cap ≤ max (now - c.last) 0 * rate) :
    fill rate cap b now = cap := by
  cases b with
  | none => rfl
  | some c =>
    obtain ⟨htokens, hidle⟩ := hb c rfl
    exact min_eq_right (hidle.trans (le_add_of_nonneg_left htokens))

/-! ## The account of a bucket -/

/-- What the tokens of now say about the attempts so far, and about those that took a token. -/
structure Account (rate cap now level : K) (attempts taken : List K) : Prop where
  earlier : ∀ t ∈ taken, t ≤ now
  /-- What was taken in a window up to now, and what is left, is within the rate. -/
  spent : ∀ s ≤ now, (windowCount taken s now : K) + level ≤ cap + rate * (now - s)
  within : Within rate cap taken
  /-- What is missing was taken since the bucket was full. -/
  supplied : ∃ s ≤ now, cap + rate * (now - s) ≤ level + windowCount attempts s now

/-- Nobody has tried. -/
theorem Account.start (hrate : 0 ≤ rate) (hcap : 0 ≤ cap) : Account rate cap now cap [] [] where
  earlier := fun _ h => absurd h List.not_mem_nil
  spent := by
    intro s hs
    simpa [windowCount] using mul_nonneg hrate (sub_nonneg.2 hs)
  within := by
    intro s T hT
    simpa [windowCount] using add_nonneg hcap (mul_nonneg hrate hT)
  supplied := ⟨now, le_refl now, by simp [windowCount]⟩

/-- Time passes. -/
theorem Account.wait {later : K} (h : Account rate cap now level attempts taken)
    (hrate : 0 ≤ rate) (hlater : now ≤ later) :
    Account rate cap later (min (level + (later - now) * rate) cap) attempts taken where
  earlier := fun t ht => (h.earlier t ht).trans hlater
  spent := by
    intro s hs
    rcases le_or_gt s now with hnow | hnow
    · rw [windowCount_eq_of_forall_le h.earlier hlater]
      have hspent := h.spent s hnow
      have hlevel : min (level + (later - now) * rate) cap ≤ level + (later - now) * rate :=
        min_le_left _ _
      linarith
    · rw [windowCount_eq_zero h.earlier hnow, Nat.cast_zero, zero_add]
      exact (min_le_right _ _).trans
        (le_add_of_nonneg_right (mul_nonneg hrate (sub_nonneg.2 hs)))
  within := h.within
  supplied := by
    obtain ⟨s, hs, hsupplied⟩ := h.supplied
    rcases le_total (level + (later - now) * rate) cap with hle | hle
    · refine ⟨s, hs.trans hlater, ?_⟩
      have hmono : (windowCount attempts s now : K) ≤ windowCount attempts s later :=
        Nat.cast_le.2 (windowCount_mono (le_refl s) hlater)
      rw [min_eq_left hle]
      linarith
    · -- the bucket is full again
      refine ⟨later, le_refl later, ?_⟩
      rw [min_eq_right hle, sub_self, mul_zero, add_zero]
      exact le_add_of_nonneg_right (Nat.cast_nonneg _)

/-- An attempt that takes a token. -/
theorem Account.take (h : Account rate cap now level attempts taken) (hrate : 0 ≤ rate)
    (hlevel : 1 ≤ level) :
    Account rate cap now (level - 1) (now :: attempts) (now :: taken) where
  earlier := by
    intro t ht
    rcases List.mem_cons.1 ht with rfl | ht
    · exact le_refl t
    · exact h.earlier t ht
  spent := by
    intro s hs
    have hspent := h.spent s hs
    rw [cast_windowCount_cons_now hs]
    linarith
  within := by
    intro s T hT
    rw [windowCount_cons]
    split_ifs with hin
    · -- the window reaches up to now, where a token is left
      have hspent := h.spent s hin.1
      have hrest : rate * (now - s) ≤ rate * T :=
        mul_le_mul_of_nonneg_left (by linarith [hin.2]) hrate
      rw [windowCount_eq_of_forall_le h.earlier hin.2, Nat.cast_add, Nat.cast_one]
      linarith
    · exact h.within s T hT
  supplied := by
    obtain ⟨s, hs, hsupplied⟩ := h.supplied
    refine ⟨s, hs, ?_⟩
    rw [cast_windowCount_cons_now hs]
    linarith

/-- An attempt that takes none. -/
theorem Account.refuse (h : Account rate cap now level attempts taken) :
    Account rate cap now level (now :: attempts) taken where
  earlier := h.earlier
  spent := h.spent
  within := h.within
  supplied := by
    obtain ⟨s, hs, hsupplied⟩ := h.supplied
    refine ⟨s, hs, ?_⟩
    rw [cast_windowCount_cons_now hs]
    linarith

/-- Who finds no token has tried more often than the rate allows. -/
theorem Account.not_within (h : Account rate cap now level attempts taken) (hlevel : level < 1) :
    ¬Within rate cap (now :: attempts) := by
  intro hwithin
  obtain ⟨s, hs, hsupplied⟩ := h.supplied
  have hwindow := hwithin s (now - s) (sub_nonneg.2 hs)
  rw [add_sub_cancel, cast_windowCount_cons_now hs] at hwindow
  linarith

end AuditGateway.TokenBucket
