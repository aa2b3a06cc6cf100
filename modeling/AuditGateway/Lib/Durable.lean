import Mathlib.Data.List.GetD
import Mathlib.Data.Set.Insert
import Mathlib.Logic.Function.Basic

set_option relaxedAutoImplicit false
set_option autoImplicit false

/-!
# A directory behind a cache

What is written to a file is on the disk once the file was synced, and a change of the directory
once the directory was. Before that a crash leaves anything of the file, and any directory since the
last sync. Changes of the directory reach the disk in their order, and no file has two names.

## Main definitions

* `CachedDir` — a directory with its files, and what of them is on the disk.
* `CachedDir.crash` — what a crash leaves.
* `CachedDir.Settled` — everything is on the disk.
* `CachedDir.Leaves` — every crash leaves a file with one of some contents.
* `CachedDir.Apart` — the file of a name is under no other name that a crash can leave.

## Main results

* `CachedDir.Leaves.crash` — what is read behind a crash.
* `CachedDir.Leaves.openTruncate`, `CachedDir.Leaves.append`, `CachedDir.Leaves.rename_of_ne` — a
  file is not touched through the names of others.
* `CachedDir.Leaves.rename` — a synced file that takes the place of another.
-/

namespace AuditGateway

/-- A directory. Files have numbers, `none` stands for a file that is not there. -/
structure CachedDir (N B : Type*) where
  dir : N → Option ℕ
  /-- What the directory was since it was last synced, the newest first. -/
  older : List (N → Option ℕ) := []
  data : ℕ → List B
  /-- The contents of the file are on the disk. -/
  clean : ℕ → Bool
  /-- The number of the next file. -/
  next : ℕ
  linked : ∀ d ∈ dir :: older, ∀ n i, d n = some i → i < next ∧ ∀ m, d m = some i → m = n

namespace CachedDir

variable {N B : Type*}

/-- The directories that a crash can leave. -/
def dirs (s : CachedDir N B) : List (N → Option ℕ) := s.dir :: s.older

/-- The file of a name in a directory, and whether it is on the disk. -/
def seen (s : CachedDir N B) (d : N → Option ℕ) (n : N) : Option (List B × Bool) :=
  (d n).map fun i => (s.data i, s.clean i)

/-- The contents of a file, as they are read now. -/
def read (s : CachedDir N B) (n : N) : Option (List B) := (s.dir n).map s.data

/-- The contents of a file change in the cache. -/
def setData (s : CachedDir N B) (i : ℕ) (bytes : List B) : CachedDir N B :=
  { s with data := Function.update s.data i bytes, clean := Function.update s.clean i false }

/-- Bytes are written behind those of a file. -/
def append (s : CachedDir N B) (n : N) (bytes : List B) : CachedDir N B :=
  match s.dir n with
  | some i => s.setData i (s.data i ++ bytes)
  | none => s

/-- A file is synced. -/
def sync (s : CachedDir N B) (n : N) : CachedDir N B :=
  match s.dir n with
  | some i => { s with clean := Function.update s.clean i true }
  | none => s

/-- The directory is synced. -/
def syncDir (s : CachedDir N B) : CachedDir N B :=
  { s with
    older := []
    linked := fun d hd => s.linked d (List.mem_cons.2 (.inl (List.mem_singleton.1 hd))) }

/-- What a crash leaves: one of the directories, the newest if there is none with this number, and
the contents of the files that were synced; `rest` is what it makes of the others. -/
def crash (s : CachedDir N B) (k : ℕ) (rest : ℕ → List B) : CachedDir N B where
  dir := s.dirs.getD k s.dir
  data := fun i => if s.clean i then s.data i else rest i
  clean := fun _ => true
  next := s.next
  linked := by
    intro d hd
    obtain rfl := List.mem_singleton.1 hd
    by_cases hk : k < s.dirs.length
    · rw [List.getD_eq_getElem _ _ hk]
      exact s.linked _ (List.getElem_mem hk)
    · rw [List.getD_eq_default _ _ (Nat.le_of_not_lt hk)]
      exact s.linked _ (List.mem_cons_self ..)

section Names

variable [DecidableEq N]

/-- A name is taken out of the directory. -/
def unlink (s : CachedDir N B) (n : N) : CachedDir N B :=
  { s with
    dir := Function.update s.dir n none
    older := s.dirs
    linked := by
      intro d hd m i hi
      rcases List.mem_cons.1 hd with rfl | hd
      · by_cases hm : m = n
        · rw [hm, Function.update_self] at hi
          cases hi
        · rw [Function.update_of_ne hm] at hi
          obtain ⟨hlt, hone⟩ := s.linked _ (List.mem_cons_self ..) m i hi
          refine ⟨hlt, fun k hk => ?_⟩
          by_cases hk' : k = n
          · rw [hk', Function.update_self] at hk
            cases hk
          · rw [Function.update_of_ne hk'] at hk
            exact hone k hk
      · exact s.linked d hd m i hi }

/-- A new, empty file gets a name that is free. -/
def create (s : CachedDir N B) (n : N) : CachedDir N B :=
  { s.setData s.next [] with
    dir := Function.update s.dir n (some s.next)
    older := s.dirs
    next := s.next + 1
    linked := by
      intro d hd m i hi
      rcases List.mem_cons.1 hd with rfl | hd
      · by_cases hm : m = n
        · rw [hm, Function.update_self] at hi
          obtain rfl := Option.some.inj hi
          refine ⟨Nat.lt_succ_self _, fun k hk => ?_⟩
          by_contra hne
          rw [Function.update_of_ne (hm ▸ hne)] at hk
          exact lt_irrefl _ (s.linked _ (List.mem_cons_self ..) k _ hk).1
        · rw [Function.update_of_ne hm] at hi
          obtain ⟨hlt, hone⟩ := s.linked _ (List.mem_cons_self ..) m i hi
          refine ⟨Nat.lt_succ_of_lt hlt, fun k hk => ?_⟩
          by_cases hk' : k = n
          · rw [hk', Function.update_self] at hk
            exact absurd (Option.some.inj hk) hlt.ne'
          · rw [Function.update_of_ne hk'] at hk
            exact hone k hk
      · obtain ⟨hlt, hone⟩ := s.linked d hd m i hi
        exact ⟨Nat.lt_succ_of_lt hlt, hone⟩ }

/-- A file is opened to be written from its start, and created if it is not there. -/
def openTruncate (s : CachedDir N B) (n : N) : CachedDir N B :=
  match s.dir n with
  | some i => s.setData i []
  | none => s.create n

/-- A file takes the name of another. -/
def rename (s : CachedDir N B) (n m : N) : CachedDir N B :=
  { s with
    dir := Function.update (Function.update s.dir m (s.dir n)) n none
    older := s.dirs
    linked := by
      intro d hd k i hi
      rcases List.mem_cons.1 hd with rfl | hd
      · have hback : ∀ l, Function.update (Function.update s.dir m (s.dir n)) n none l = some i →
            l ≠ n ∧ (l = m ∧ s.dir n = some i ∨ l ≠ m ∧ s.dir l = some i) := by
          intro l hl
          by_cases hn : l = n
          · rw [hn, Function.update_self] at hl
            cases hl
          · rw [Function.update_of_ne hn] at hl
            refine ⟨hn, ?_⟩
            by_cases hm : l = m
            · rw [hm, Function.update_self] at hl
              exact .inl ⟨hm, hl⟩
            · rw [Function.update_of_ne hm] at hl
              exact .inr ⟨hm, hl⟩
        have hone := fun l hl => s.linked _ (List.mem_cons_self ..) l i hl
        obtain ⟨hkn, hk⟩ := hback k hi
        rcases hk with ⟨rfl, hfile⟩ | ⟨hkm, hfile⟩
        · refine ⟨(hone n hfile).1, fun l hl => ?_⟩
          obtain ⟨hln, ⟨hlm, -⟩ | ⟨-, hfile'⟩⟩ := hback l hl
          · exact hlm
          · exact absurd ((hone n hfile).2 l hfile') hln
        · refine ⟨(hone k hfile).1, fun l hl => ?_⟩
          obtain ⟨hln, ⟨-, hfile'⟩ | ⟨-, hfile'⟩⟩ := hback l hl
          · exact absurd ((hone n hfile').2 k hfile) hkn
          · exact (hone k hfile).2 l hfile'
      · exact s.linked d hd k i hi }

end Names

/-! ### Files of other names -/

/-- What is read is what is seen in the directory as it is. -/
lemma read_eq_seen (s : CachedDir N B) (n : N) : s.read n = (s.seen s.dir n).map Prod.fst := by
  simp [read, seen, Function.comp_def]

/-- What is seen with its contents on the disk is read. -/
lemma read_of_seen {s : CachedDir N B} {n : N} {v : Option (List B)}
    (h : s.seen s.dir n = v.map fun b => (b, true)) : s.read n = v := by
  rw [read_eq_seen, h, Option.map_map]
  cases v <;> rfl

/-- A change of another file is not seen. -/
lemma seen_setData (s : CachedDir N B) {i : ℕ} {bytes : List B} {d : N → Option ℕ} {n : N}
    (h : d n ≠ some i) : (s.setData i bytes).seen d n = s.seen d n := by
  cases hd : d n with
  | none => simp [seen, hd]
  | some j =>
    have hij : j ≠ i := fun hij => h (hij ▸ hd)
    simp [seen, setData, hd, hij]

/-- A new file is in no directory. -/
lemma dir_ne_next (s : CachedDir N B) {d : N → Option ℕ} (hd : d ∈ s.dirs) (n : N) :
    d n ≠ some s.next :=
  fun h => lt_irrefl _ (s.linked d hd n _ h).1

/-- Bytes behind another file are not seen. -/
lemma seen_append_of_ne (s : CachedDir N B) {m n : N} (bytes : List B) (h : n ≠ m) :
    (s.append m bytes).seen (s.append m bytes).dir n = s.seen s.dir n := by
  unfold append
  cases hm : s.dir m with
  | some i =>
    exact s.seen_setData fun hn => h ((s.linked _ (List.mem_cons_self ..) m i hm).2 n hn)
  | none => rfl

/-- A file that is on the disk is there behind a crash. -/
lemma seen_crash {s : CachedDir N B} {d : N → Option ℕ} {n : N} {v : Option (List B)} {k : ℕ}
    {rest : ℕ → List B} (h : s.seen d n = v.map fun b => (b, true)) :
    (s.crash k rest).seen d n = v.map fun b => (b, true) := by
  rw [← h]
  cases hi : d n with
  | none => simp [seen, hi]
  | some i =>
    have hclean : s.clean i = true := by
      cases v with
      | none => simp [seen, hi] at h
      | some b => exact (Prod.mk.inj (Option.some.inj (by simpa [seen, hi] using h))).2
    simp [seen, crash, hi, hclean]

/-- The sync of another file is not seen. -/
lemma seen_sync_of_ne (s : CachedDir N B) {m n : N} (h : n ≠ m) :
    (s.sync m).seen (s.sync m).dir n = s.seen s.dir n := by
  unfold sync
  cases hm : s.dir m with
  | none => rfl
  | some i =>
    cases hn : s.dir n with
    | none => simp [seen, hn]
    | some j =>
      have hij : j ≠ i := fun hij =>
        h ((s.linked _ (List.mem_cons_self ..) m i hm).2 n (hij ▸ hn))
      simp [seen, hn, hij]

section Names

variable [DecidableEq N]

/-- The removal of another name is not seen. -/
lemma seen_unlink (s : CachedDir N B) {m n : N} (h : n ≠ m) :
    (s.unlink m).seen (s.unlink m).dir n = s.seen s.dir n := by
  simp [seen, unlink, h]

/-- A new file under another name is not seen. -/
lemma seen_create (s : CachedDir N B) {d : N → Option ℕ} (hd : d ∈ s.dirs) (m n : N) :
    (s.create m).seen d n = s.seen d n :=
  s.seen_setData (s.dir_ne_next hd n)

/-- A file that is opened under another name is not seen. -/
lemma seen_openTruncate_of_ne (s : CachedDir N B) {m n : N} (h : n ≠ m) :
    (s.openTruncate m).seen (s.openTruncate m).dir n = s.seen s.dir n := by
  unfold openTruncate
  cases hm : s.dir m with
  | some i =>
    exact s.seen_setData fun hn => h ((s.linked _ (List.mem_cons_self ..) m i hm).2 n hn)
  | none =>
    have hn : (s.create m).dir n = s.dir n := by simp [create, h]
    rw [← s.seen_create (List.mem_cons_self ..) m n]
    simp only [seen, hn]

/-- A file that goes from one other name to another is not seen. -/
lemma seen_rename_of_ne (s : CachedDir N B) {m m' n : N} (h : n ≠ m) (h' : n ≠ m') :
    (s.rename m m').seen (s.rename m m').dir n = s.seen s.dir n := by
  simp [seen, rename, h, h']

end Names

/-! ### The file that is written -/

/-- Behind an append the contents are longer, and not all on the disk. -/
lemma seen_append (s : CachedDir N B) {n : N} {b : List B} {c : Bool} (bytes : List B)
    (h : s.seen s.dir n = some (b, c)) :
    (s.append n bytes).seen (s.append n bytes).dir n = some (b ++ bytes, false) := by
  obtain ⟨i, hi, heq⟩ := Option.map_eq_some_iff.1 h
  obtain ⟨rfl, -⟩ := Prod.mk.inj heq
  simp [append, hi, seen, setData]

/-- Behind a sync the contents are on the disk. -/
lemma seen_sync (s : CachedDir N B) {n : N} {b : List B} {c : Bool}
    (h : s.seen s.dir n = some (b, c)) :
    (s.sync n).seen (s.sync n).dir n = some (b, true) := by
  obtain ⟨i, hi, heq⟩ := Option.map_eq_some_iff.1 h
  obtain ⟨rfl, -⟩ := Prod.mk.inj heq
  simp [sync, hi, seen]

section Names

variable [DecidableEq N]

/-- A file that is opened to be written is empty. -/
lemma seen_openTruncate (s : CachedDir N B) (n : N) :
    (s.openTruncate n).seen (s.openTruncate n).dir n = some ([], false) := by
  unfold openTruncate
  cases hn : s.dir n with
  | some i => simp [seen, setData, hn]
  | none => simp [seen, create, setData]

/-- A renamed file is seen under its new name. -/
lemma seen_rename (s : CachedDir N B) {n m : N} (h : m ≠ n) :
    (s.rename n m).seen (s.rename n m).dir m = s.seen s.dir n := by
  simp [seen, rename, h]

end Names

/-- Everything in the directory is on the disk. -/
structure Settled (s : CachedDir N B) : Prop where
  older : s.older = []
  clean : ∀ n i, s.dir n = some i → s.clean i = true

/-! ### Names apart -/

/-- The file of a name is under no other name in any directory that a crash can leave. -/
def Apart (s : CachedDir N B) (n : N) : Prop :=
  ∀ i, s.dir n = some i → ∀ d ∈ s.dirs, ∀ m, d m = some i → m = n

namespace Apart

variable {s : CachedDir N B} {n m : N}

/-- If there is no other directory, every name is apart. -/
lemma of_older (h : s.older = []) : s.Apart n := by
  intro i hi d hd m hm
  obtain rfl : d = s.dir := by simpa [dirs, h] using hd
  exact (s.linked _ (List.mem_cons_self ..) n i hi).2 m hm

/-- A file stays apart if its name stays, and no other name takes its file. -/
lemma of_dir {s' : CachedDir N B} (h : s.Apart n) (hdir : s'.dir n = s.dir n)
    (hdirs : ∀ d ∈ s'.dirs, d ∈ s.dirs ∨
      ∀ i, s.dir n = some i → ∀ m, d m = some i → m = n) : s'.Apart n := by
  intro i hi d hd m hm
  rw [hdir] at hi
  rcases hdirs d hd with hd | hd
  · exact h i hi d hd m hm
  · exact hd i hi m hm

/-- A file stays apart when contents change. -/
lemma setData (h : s.Apart n) (i : ℕ) (bytes : List B) : (s.setData i bytes).Apart n := h

/-- A file stays apart when bytes are appended. -/
lemma append (h : s.Apart n) (bytes : List B) : (s.append m bytes).Apart n := by
  unfold CachedDir.append
  cases s.dir m with
  | some i => exact h.setData i _
  | none => exact h

/-- A file stays apart when a file is synced. -/
lemma sync (h : s.Apart n) : (s.sync m).Apart n := by
  unfold CachedDir.sync
  cases s.dir m with
  | some i => exact h
  | none => exact h

/-- Behind the sync of the directory every file is apart. -/
lemma syncDir : s.syncDir.Apart n := of_older rfl

/-- A file stays apart behind a crash. -/
lemma crash {k : ℕ} {rest : ℕ → List B} : (s.crash k rest).Apart n := of_older rfl

variable [DecidableEq N]

/-- A name without a file is apart. -/
lemma unlink_self : (s.unlink n).Apart n := by
  intro i hi
  simp [CachedDir.unlink] at hi

/-- A file stays apart when a name is removed. -/
lemma unlink (h : s.Apart n) : (s.unlink m).Apart n := by
  by_cases hm : n = m
  · exact hm ▸ unlink_self
  · refine h.of_dir (by simp [CachedDir.unlink, hm]) fun d hd => ?_
    rcases List.mem_cons.1 hd with rfl | hd
    · refine .inr fun i hi k hk => ?_
      by_cases hkm : k = m
      · simp [CachedDir.unlink, hkm] at hk
      · simp only [CachedDir.unlink, Function.update_of_ne hkm] at hk
        exact h i hi _ (List.mem_cons_self ..) k hk
    · exact .inl hd

/-- A file stays apart when a file is created. -/
lemma create (h : s.Apart n) : (s.create m).Apart n := by
  by_cases hm : n = m
  · subst hm
    intro i hi d hd k hk
    obtain rfl : s.next = i := by simpa [CachedDir.create] using hi
    rcases List.mem_cons.1 hd with rfl | hd
    · by_contra hkn
      change Function.update s.dir n (some s.next) k = some s.next at hk
      rw [Function.update_of_ne hkn] at hk
      exact s.dir_ne_next (List.mem_cons_self ..) k hk
    · exact absurd hk (s.dir_ne_next hd k)
  · refine h.of_dir (by simp [CachedDir.create, hm]) fun d hd => ?_
    rcases List.mem_cons.1 hd with rfl | hd
    · refine .inr fun i hi k hk => ?_
      by_cases hkm : k = m
      · subst hkm
        obtain rfl : s.next = i := by simpa [CachedDir.create] using hk
        exact absurd hi (s.dir_ne_next (List.mem_cons_self ..) n)
      · simp only [CachedDir.create, Function.update_of_ne hkm] at hk
        exact h i hi _ (List.mem_cons_self ..) k hk
    · exact .inl hd

/-- A file stays apart when a file is opened. -/
lemma openTruncate (h : s.Apart n) : (s.openTruncate m).Apart n := by
  unfold CachedDir.openTruncate
  cases s.dir m with
  | some i => exact h.setData i []
  | none => exact h.create

/-- A file that takes another name leaves the files of the names that are not this one apart. -/
lemma rename {m' : N} (h : s.Apart n) (hn : n ≠ m') : (s.rename m m').Apart n := by
  by_cases hm : n = m
  · subst hm
    intro i hi
    simp [CachedDir.rename] at hi
  · refine h.of_dir (by simp [CachedDir.rename, hm, hn]) fun d hd => ?_
    rcases List.mem_cons.1 hd with rfl | hd
    · refine .inr fun i hi k hk => ?_
      by_cases hkm : k = m
      · simp [CachedDir.rename, hkm] at hk
      · simp only [CachedDir.rename, Function.update_of_ne hkm] at hk
        by_cases hkm' : k = m'
        · rw [hkm', Function.update_self] at hk
          exact absurd (h i hi _ (List.mem_cons_self ..) m hk) (Ne.symm hm)
        · rw [Function.update_of_ne hkm'] at hk
          exact h i hi _ (List.mem_cons_self ..) k hk
    · exact .inl hd

end Apart

/-! ### What a crash leaves -/

/-- Whatever directory a crash leaves, the file of the name is on the disk there, with contents from
`V`. -/
def Leaves (s : CachedDir N B) (n : N) (V : Set (Option (List B))) : Prop :=
  ∀ d ∈ s.dirs, ∃ v ∈ V, s.seen d n = v.map fun b => (b, true)

namespace Leaves

variable {s s' : CachedDir N B} {n m : N} {V : Set (Option (List B))}

/-- What can be left is among more contents, too. -/
lemma mono {W : Set (Option (List B))} (h : s.Leaves n V) (hVW : V ⊆ W) : s.Leaves n W :=
  fun d hd => (h d hd).imp fun _ hv => ⟨hVW hv.1, hv.2⟩

/-- A file on the disk is what a crash leaves. -/
lemma of_settled (h : s.Settled) : s.Leaves n {s.read n} := by
  intro d hd
  obtain rfl : d = s.dir := by simpa [dirs, h.older] using hd
  refine ⟨s.read n, rfl, ?_⟩
  cases hi : s.dir n with
  | none => simp [seen, read, hi]
  | some i => simp [seen, read, hi, h.clean n i hi]

/-- An operation that adds one directory in which the name has the file it had. -/
lemma of_seen (h : s.Leaves n V) (hdir : s'.seen s'.dir n = s.seen s.dir n)
    (holder : ∀ d ∈ s'.older, d ∈ s.dirs ∧ s'.seen d n = s.seen d n) : s'.Leaves n V := by
  intro d hd
  rcases List.mem_cons.1 hd with rfl | hd
  · rw [hdir]
    exact h _ (List.mem_cons_self ..)
  · rw [(holder d hd).2]
    exact h d (holder d hd).1

/-- What is written through a name that is apart is not in the files of the others. -/
lemma setData (h : s.Leaves n V) {i : ℕ} (hm : s.dir m = some i) (hapart : s.Apart m) (hn : n ≠ m)
    (bytes : List B) : (s.setData i bytes).Leaves n V := by
  have hseen : ∀ d ∈ s.dirs, (s.setData i bytes).seen d n = s.seen d n := fun d hd =>
    s.seen_setData fun hi => hn (hapart i hm d hd n hi)
  exact h.of_seen (hseen _ (List.mem_cons_self ..)) fun d hd =>
    ⟨List.mem_cons_of_mem _ hd, hseen d (List.mem_cons_of_mem _ hd)⟩

/-- An append to another file leaves the same. -/
lemma append (h : s.Leaves n V) (hapart : s.Apart m) (hn : n ≠ m) (bytes : List B) :
    (s.append m bytes).Leaves n V := by
  unfold CachedDir.append
  cases hm : s.dir m with
  | some i => exact h.setData hm hapart hn _
  | none => exact h

/-- A sync leaves the same. -/
lemma sync (h : s.Leaves n V) : (s.sync m).Leaves n V := by
  unfold CachedDir.sync
  cases s.dir m with
  | none => exact h
  | some i =>
    intro d hd
    obtain ⟨v, hv, hseen⟩ := h d hd
    refine ⟨v, hv, ?_⟩
    rw [← hseen]
    cases hj : d n with
    | none => simp [seen, hj]
    | some j =>
      obtain ⟨b, -, hb⟩ : ∃ b, v = some b ∧ (s.data j, s.clean j) = (b, true) := by
        cases v with
        | none => simp [seen, hj] at hseen
        | some b => exact ⟨b, rfl, by simpa [seen, hj] using hseen⟩
      by_cases hij : j = i
      · subst hij
        simp [seen, hj, (Prod.mk.inj hb).2]
      · simp [seen, hj, hij]

/-- Behind a sync of the directory a crash leaves what is read. -/
lemma syncDir (h : s.Leaves n V) : s.syncDir.Leaves n {s.read n} := by
  intro d hd
  obtain rfl : d = s.dir := List.mem_singleton.1 hd
  obtain ⟨v, -, hseen⟩ := h s.dir (List.mem_cons_self ..)
  exact ⟨v, (read_of_seen hseen).symm, hseen⟩

/-- Behind a sync of the directory a crash leaves no more than before. -/
lemma syncDir_of (h : s.Leaves n V) : s.syncDir.Leaves n V :=
  h.of_seen rfl fun _ hd => (List.not_mem_nil hd).elim

/-- Behind a crash one of the contents is read, and further crashes leave it. -/
lemma crash (h : s.Leaves n V) (k : ℕ) (rest : ℕ → List B) :
    (s.crash k rest).read n ∈ V ∧ (s.crash k rest).Leaves n {(s.crash k rest).read n} := by
  have hd : s.dirs.getD k s.dir ∈ s.dirs := by
    by_cases hk : k < s.dirs.length
    · rw [List.getD_eq_getElem _ _ hk]
      exact List.getElem_mem hk
    · rw [List.getD_eq_default _ _ (Nat.le_of_not_lt hk)]
      exact List.mem_cons_self ..
  obtain ⟨v, hv, hseen⟩ := h _ hd
  have hnew : (s.crash k rest).seen (s.crash k rest).dir n = v.map fun b => (b, true) :=
    seen_crash hseen
  have hread : (s.crash k rest).read n = v := read_of_seen hnew
  refine ⟨hread ▸ hv, fun d hd => ?_⟩
  obtain rfl : d = (s.crash k rest).dir := List.mem_singleton.1 hd
  exact ⟨v, hread.symm, hnew⟩

variable [DecidableEq N]

/-- Behind the removal of another name a crash leaves no more than before. -/
lemma unlink (h : s.Leaves n V) (hn : n ≠ m) : (s.unlink m).Leaves n V :=
  h.of_seen (s.seen_unlink hn) fun _ hd => ⟨hd, rfl⟩

/-- Behind the opening of another file a crash leaves no more than before. -/
lemma openTruncate (h : s.Leaves n V) (hapart : s.Apart m) (hn : n ≠ m) :
    (s.openTruncate m).Leaves n V := by
  cases hm : s.dir m with
  | some i =>
    have heq : s.openTruncate m = s.setData i [] := by simp only [CachedDir.openTruncate, hm]
    exact heq ▸ h.setData hm hapart hn []
  | none =>
    have heq : s.openTruncate m = s.create m := by simp only [CachedDir.openTruncate, hm]
    refine h.of_seen (s.seen_openTruncate_of_ne hn) fun d hd => ?_
    rw [heq] at hd ⊢
    exact ⟨hd, s.seen_create hd m n⟩

/-- Behind the renaming of another file a crash leaves no more than before. -/
lemma rename_of_ne {m' : N} (h : s.Leaves n V) (hn : n ≠ m) (hn' : n ≠ m') :
    (s.rename m m').Leaves n V :=
  h.of_seen (s.seen_rename_of_ne hn hn') fun _ hd => ⟨hd, rfl⟩

/-- A file that is on the disk takes the place of another: a crash leaves one of the two. -/
lemma rename (h : s.Leaves n V) {b : List B} (hm : s.seen s.dir m = some (b, true)) (hn : n ≠ m) :
    (s.rename m n).Leaves n ({some b} ∪ V) := by
  intro d hd
  rcases List.mem_cons.1 hd with rfl | hd
  · exact ⟨some b, .inl rfl, (s.seen_rename hn).trans hm⟩
  · obtain ⟨v, hv, hseen⟩ := h d hd
    exact ⟨v, .inr hv, hseen⟩

end Leaves

end CachedDir

end AuditGateway
