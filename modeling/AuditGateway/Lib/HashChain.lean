import Mathlib.Data.List.Chain
import Mathlib.Data.List.Infix
import Mathlib.Data.Int.Order.Basic
import Mathlib.Tactic.Common

set_option relaxedAutoImplicit false
set_option autoImplicit false

/-!
# Hash chains

Blocks carry a number, the hash of the block before them and their own hash. A list of blocks
is linked when the numbers go up by one and each block names the hash of the one before it.
Nothing is assumed of the hashes here: what a hash proves is a hypothesis of
`HashChain.hash_eq_of_le`.

## Main definitions

* `HashChain.Linked` — consecutive numbers, and each block names the hash before it.
* `HashChain.chainFrom` — the blocks built from a list of contents behind a given head.
* `HashChain.headAfter` — number and hash of the newest block.

## Main results

* `HashChain.linked_chainFrom` — what is built is linked.
* `HashChain.chainFrom_append` — building in two goes is building at once.
* `HashChain.prefix_of_linked` — a linked part that keeps the first block is a prefix.
* `HashChain.hash_eq_of_le` — two linked lists that agree on one block agree on every earlier
  block that both hold.
-/

namespace AuditGateway.HashChain

variable {B E H : Type*} (num : B → ℤ) (prev hash : B → H)

/-- Each block has the next number and names the hash of the block before it. -/
def Linked (l : List B) : Prop :=
  l.IsChain fun a b => num b = num a + 1 ∧ prev b = hash a

/-- Number and hash of the newest block, `(n, h)` if there is none. -/
def headAfter (n : ℤ) (h : H) (l : List B) : ℤ × H :=
  match l.getLast? with
  | none => (n, h)
  | some b => (num b, hash b)

/-- The blocks for a list of contents behind block `n` with hash `h`. -/
def chainFrom (mk : ℤ → H → E → B) : ℤ → H → List E → List B
  | _, _, [] => []
  | n, h, e :: es => mk (n + 1) h e :: chainFrom mk (n + 1) (hash (mk (n + 1) h e)) es

variable {num prev hash}

/-! ## Linked lists -/

/-- Nothing is linked. -/
theorem linked_nil : Linked num prev hash [] := List.isChain_nil

/-- A list is linked if its first two elements and the rest are. -/
theorem linked_cons_cons {a b : B} {l : List B} :
    Linked num prev hash (a :: b :: l) ↔
      (num b = num a + 1 ∧ prev b = hash a) ∧ Linked num prev hash (b :: l) :=
  List.isChain_cons_cons

/-- In a linked list the numbers go up. -/
theorem Linked.pairwise_lt {l : List B} (h : Linked num prev hash l) :
    l.Pairwise fun a b => num a < num b := by
  have hc : l.IsChain fun a b => num a < num b := h.imp fun a b hab => by omega
  have : Trans (fun a b : B => num a < num b) (fun a b => num a < num b)
      (fun a b => num a < num b) := ⟨fun h₁ h₂ => h₁.trans h₂⟩
  exact hc.pairwise

/-- Behind the first block of a linked list the numbers are larger. -/
theorem Linked.lt_of_mem_tail {a b : B} {l : List B} (h : Linked num prev hash (a :: l))
    (hb : b ∈ l) : num a < num b :=
  (List.pairwise_cons.1 h.pairwise_lt).1 b hb

/-- In a linked list every block but the newest has a successor, which names its hash.

**Proof sketch.** Induction on the list. If the block is the first one, the second one is its
successor; otherwise the block and the later one both lie in the tail. -/
theorem Linked.exists_succ {l : List B} (h : Linked num prev hash l) {a b : B} (ha : a ∈ l)
    (hb : b ∈ l) (hab : num a < num b) : ∃ c ∈ l, num c = num a + 1 ∧ prev c = hash a := by
  induction l with
  | nil => cases ha
  | cons x l ih =>
    have hbl : b ∈ l := by
      rcases List.mem_cons.1 hb with rfl | hb
      · rcases List.mem_cons.1 ha with rfl | ha
        · omega
        · have := h.lt_of_mem_tail ha
          omega
      · exact hb
    rcases List.mem_cons.1 ha with rfl | ha
    · cases l with
      | nil => cases hbl
      | cons c l => exact ⟨c, by simp, (linked_cons_cons.1 h).1⟩
    · obtain ⟨c, hc, hnum⟩ := ih (List.IsChain.tail h) ha hbl
      exact ⟨c, List.mem_cons_of_mem _ hc, hnum⟩

/-- A linked list has a block for every number between those of two of its blocks. -/
theorem Linked.exists_num {l : List B} (h : Linked num prev hash l) {a b : B} (ha : a ∈ l)
    (hb : b ∈ l) {n : ℤ} (han : num a ≤ n) (hnb : n ≤ num b) : ∃ c ∈ l, num c = n := by
  obtain ⟨d, rfl⟩ : ∃ d : ℕ, n = num a + d := ⟨(n - num a).toNat, by omega⟩
  induction d with
  | zero => exact ⟨a, ha, by simp⟩
  | succ d ih =>
    obtain ⟨c, hc, hnum⟩ := ih (by omega) (by push_cast at hnb; omega)
    obtain ⟨c', hc', hnum', -⟩ := h.exists_succ hc hb (by push_cast at hnb; omega)
    exact ⟨c', hc', by push_cast; omega⟩

/-- In a linked list the numbers count the blocks. -/
theorem Linked.num_getElem? {l : List B} (h : Linked num prev hash l) {a b : B} {i : ℕ}
    (ha : l[0]? = some a) (hb : l[i]? = some b) : num b = num a + i := by
  induction l generalizing a i with
  | nil => cases ha
  | cons x l ih =>
    obtain rfl : x = a := by simpa using ha
    cases i with
    | zero =>
      obtain rfl : x = b := by simpa using hb
      simp
    | succ i =>
      rw [List.getElem?_cons_succ] at hb
      cases l with
      | nil => cases hb
      | cons y l =>
        obtain ⟨⟨hy, -⟩, h⟩ := linked_cons_cons.1 h
        have := ih h (a := y) rfl hb
        push_cast
        omega

/-- Part of a linked list that is linked itself and keeps the first block is a prefix.

**Proof sketch.** Induction on the list. The second block of the part has the number behind the
first one, and in the whole list only the second block has that number. -/
theorem prefix_of_linked {a : B} {l m : List B} (h : Linked num prev hash (a :: l))
    (hm : Linked num prev hash (a :: m)) (hsub : m.Sublist l) : (a :: m) <+: (a :: l) := by
  induction l generalizing a m with
  | nil => rw [List.sublist_nil.1 hsub]
  | cons c l ih =>
    cases m with
    | nil => exact ⟨c :: l, rfl⟩
    | cons d m =>
      obtain ⟨⟨hc, -⟩, h⟩ := linked_cons_cons.1 h
      obtain ⟨⟨hd, -⟩, hm⟩ := linked_cons_cons.1 hm
      have hdc : ¬ d ∈ l := fun hmem => by
        have := h.lt_of_mem_tail hmem
        omega
      cases hsub with
      | cons _ hsub => exact absurd (hsub.subset (List.mem_cons_self ..)) hdc
      | cons_cons _ hsub => exact (List.prefix_cons_inj a).2 (ih h hm hsub)

/-- In two linked lists, a block that both hold with the same hash fixes the hashes of all
earlier blocks that both hold, as soon as the hash of a block fixes the hash before it.

**Proof sketch.** Induction on the distance to the common block. An earlier block has a
successor in each list; the successors have the same hash by the induction hypothesis, so they
name the same hash before them. -/
theorem hash_eq_of_le {l l' : List B} (h : Linked num prev hash l)
    (h' : Linked num prev hash l')
    (hfix : ∀ a ∈ l, ∀ a' ∈ l', num a = num a' → hash a = hash a' → prev a = prev a')
    {a a' : B} (ha : a ∈ l) (ha' : a' ∈ l') (hnum : num a = num a') (hhash : hash a = hash a')
    {b b' : B} (hb : b ∈ l) (hb' : b' ∈ l') (hbnum : num b = num b') (hle : num b ≤ num a)
    (huniq : ∀ c ∈ l, num c = num a → c = a) (huniq' : ∀ c ∈ l', num c = num a' → c = a') :
    hash b = hash b' := by
  obtain ⟨d, hd⟩ : ∃ d : ℕ, num a = num b + d := ⟨(num a - num b).toNat, by omega⟩
  induction d generalizing b b' with
  | zero =>
    rw [huniq b hb (by omega), huniq' b' hb' (by omega), hhash]
  | succ d ih =>
    obtain ⟨c, hc, hcnum, hcprev⟩ := h.exists_succ hb ha (by omega)
    obtain ⟨c', hc', hcnum', hcprev'⟩ := h'.exists_succ hb' ha' (by omega)
    have hcc : hash c = hash c' := ih hc hc' (by omega) (by omega) (by push_cast at hd; omega)
    rw [← hcprev, ← hcprev', hfix c hc c' hc' (by omega) hcc]

/-! ## Building a chain -/

section Build

variable {mk : ℤ → H → E → B} (hnum : ∀ n h e, num (mk n h e) = n)
  (hprev : ∀ n h e, prev (mk n h e) = h)

/-- Nothing makes no chain. -/
@[simp] theorem chainFrom_nil (n : ℤ) (h : H) : chainFrom hash mk n h [] = [] := rfl

/-- Behind nothing the head is as it was. -/
@[simp] theorem headAfter_nil (n : ℤ) (h : H) : headAfter num hash n h [] = (n, h) := rfl

/-- The head behind an element, and then behind the others. -/
theorem headAfter_cons (n : ℤ) (h : H) (b : B) (l : List B) :
    headAfter num hash n h (b :: l) = headAfter num hash (num b) (hash b) l := by
  cases l with
  | nil => rfl
  | cons c l =>
    cases hl : (c :: l).getLast? with
    | none => simp at hl
    | some d => simp only [headAfter, List.getLast?_cons_cons, hl]

/-- The newest block of two lists. -/
theorem headAfter_append (n : ℤ) (h : H) (l m : List B) :
    headAfter num hash n h (l ++ m) =
      headAfter num hash (headAfter num hash n h l).1 (headAfter num hash n h l).2 m := by
  induction l generalizing n h with
  | nil => rfl
  | cons b l ih => rw [List.cons_append, headAfter_cons, headAfter_cons, ih]

/-- A chain has one element for each entry. -/
theorem length_chainFrom (n : ℤ) (h : H) (es : List E) :
    (chainFrom hash mk n h es).length = es.length := by
  induction es generalizing n h with
  | nil => rfl
  | cons e es ih => simp [chainFrom, ih]

include hnum in
/-- The number of the newest block counts the contents. -/
theorem headAfter_chainFrom_fst (n : ℤ) (h : H) (es : List E) :
    (headAfter num hash n h (chainFrom hash mk n h es)).1 = n + es.length := by
  induction es generalizing n h with
  | nil => simp
  | cons e es ih =>
    rw [chainFrom, headAfter_cons, hnum, ih]
    push_cast [List.length_cons]
    omega

include hnum in
/-- Building from two lists of contents in turn is building from both at once. -/
theorem chainFrom_append (n : ℤ) (h : H) (es fs : List E) :
    chainFrom hash mk n h (es ++ fs) =
      chainFrom hash mk n h es ++
        chainFrom hash mk (headAfter num hash n h (chainFrom hash mk n h es)).1
          (headAfter num hash n h (chainFrom hash mk n h es)).2 fs := by
  induction es generalizing n h with
  | nil => rfl
  | cons e es ih =>
    simp only [List.cons_append, chainFrom, headAfter_cons, hnum]
    rw [ih]

include hnum hprev in
/-- The blocks built are linked, the first one to the head they are built on. -/
theorem linked_chainFrom (n : ℤ) (h : H) (es : List E) :
    Linked num prev hash (chainFrom hash mk n h es) ∧
      ∀ b ∈ (chainFrom hash mk n h es).head?, num b = n + 1 ∧ prev b = h := by
  induction es generalizing n h with
  | nil => exact ⟨linked_nil, by simp⟩
  | cons e es ih =>
    obtain ⟨hl, hfirst⟩ := ih (n + 1) (hash (mk (n + 1) h e))
    refine ⟨List.isChain_cons.2 ⟨fun b hb => ?_, hl⟩, fun b hb => ?_⟩
    · obtain ⟨h₁, h₂⟩ := hfirst b hb
      exact ⟨by rw [h₁, hnum], h₂⟩
    · obtain rfl : mk (n + 1) h e = b := by simpa [chainFrom] using hb
      exact ⟨hnum .., hprev ..⟩

include hnum in
/-- Every block built is numbered behind the head it is built on. -/
theorem lt_num_of_mem_chainFrom {n : ℤ} {h : H} {es : List E} {b : B}
    (hb : b ∈ chainFrom hash mk n h es) : n < num b := by
  induction es generalizing n h with
  | nil => cases hb
  | cons e es ih =>
    rcases List.mem_cons.1 hb with rfl | hb
    · rw [hnum]
      omega
    · have := ih hb
      omega

/-- Every block built holds the content at its place, under the number of the place. -/
theorem exists_getElem?_of_mem_chainFrom {n : ℤ} {h : H} {es : List E} {b : B}
    (hb : b ∈ chainFrom hash mk n h es) :
    ∃ (i : ℕ) (e : E) (p : H), es[i]? = some e ∧ b = mk (n + 1 + i) p e := by
  induction es generalizing n h with
  | nil => cases hb
  | cons e es ih =>
    rcases List.mem_cons.1 hb with rfl | hb
    · exact ⟨0, e, h, rfl, by simp⟩
    · obtain ⟨i, e', p, he', rfl⟩ := ih hb
      refine ⟨i + 1, e', p, by simpa using he', ?_⟩
      congr 1
      push_cast
      omega

include hnum in
/-- The blocks built are numbered by their place. -/
theorem num_getElem?_chainFrom {n : ℤ} {h : H} {es : List E} {i : ℕ} {b : B}
    (hb : (chainFrom hash mk n h es)[i]? = some b) : num b = n + 1 + i := by
  induction es generalizing n h i with
  | nil => cases hb
  | cons e es ih =>
    cases i with
    | zero =>
      obtain rfl : mk (n + 1) h e = b := by simpa [chainFrom] using hb
      rw [hnum]
      simp
    | succ i =>
      rw [chainFrom, List.getElem?_cons_succ] at hb
      have := ih hb
      push_cast
      omega

/-- Every block built holds one of the contents. -/
theorem exists_of_mem_chainFrom {n : ℤ} {h : H} {es : List E} {b : B}
    (hb : b ∈ chainFrom hash mk n h es) : ∃ e ∈ es, ∃ k p, b = mk k p e := by
  obtain ⟨i, e, p, he, hb⟩ := exists_getElem?_of_mem_chainFrom hb
  exact ⟨e, List.mem_of_getElem? he, _, p, hb⟩

end Build

end AuditGateway.HashChain
