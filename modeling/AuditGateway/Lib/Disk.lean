import AuditGateway.Lib.UniqueTable

set_option relaxedAutoImplicit false
set_option autoImplicit false

/-!
# Files that survive a crash

A disk holds files by their paths. A file is replaced in one step, or it is copied, and a crash can
cut the copy anywhere. What a crash leaves of a list of writes is some of them from the front, and
a piece of the next one if that is a copy.

## Main definitions

* `Disk`, `Disk.read`, `Disk.write` — files.
* `Disk.Write`, `Disk.run` — a list of writes.
* `Disk.Interrupted` — what a crash leaves of it.

## Main results

* `Disk.interrupted_append` — a crash is in the first part of a list or in the second.
* `Disk.read_of_interrupted` — a file that nothing is written to keeps its contents.
* `Disk.path_of_interrupted` — there are no files but the old ones and those written to.
-/

namespace AuditGateway

/-- Files by their paths. -/
abbrev Disk (P B : Type*) := UniqueTable (P × List B) (Prod.fst : P × List B → P)

namespace Disk

variable {P B : Type*} [DecidableEq P]

/-- The contents of a file. -/
def read (d : Disk P B) (p : P) : Option (List B) := (d.get p).map Prod.snd

/-- The file has new contents. -/
def write (d : Disk P B) (p : P) (bytes : List B) : Disk P B := d.put (p, bytes)

/-- The paths of the files. -/
def paths (d : Disk P B) : List P := d.rows.map Prod.fst

/-- How a file is written. -/
inductive Write (P B : Type*)
  /-- The bytes are written one after the other. -/
  | copy (p : P) (bytes : List B)
  /-- The file is replaced in one step. -/
  | replace (p : P) (bytes : List B)

/-- The file that is written. -/
def Write.path : Write P B → P
  | .copy p _ | .replace p _ => p

/-- A write that is done as a whole. -/
def apply (d : Disk P B) : Write P B → Disk P B
  | .copy p bytes | .replace p bytes => d.write p bytes

/-- All writes of a list. -/
def run (d : Disk P B) (ws : List (Write P B)) : Disk P B := ws.foldl apply d

/-- What a crash can leave of a list of writes. A copy counts as on the disk once the next write
begins: that it is not synced, and so could be lost with the power later on, is left out. -/
inductive Interrupted : Disk P B → List (Write P B) → Disk P B → Prop
  | stop (d : Disk P B) (ws : List (Write P B)) : Interrupted d ws d
  | torn (d : Disk P B) (p : P) (bytes : List B) (ws : List (Write P B)) (n : ℕ) :
    Interrupted d (.copy p bytes :: ws) (d.write p (bytes.take n))
  | next {d d' : Disk P B} {w : Write P B} {ws : List (Write P B)}
    (h : Interrupted (d.apply w) ws d') : Interrupted d (w :: ws) d'

/-- A file that was written has the new contents. -/
@[simp] theorem read_write_self (d : Disk P B) (p : P) (bytes : List B) :
    (d.write p bytes).read p = some bytes := by
  simp [read, write, UniqueTable.get_put]

/-- Other files have the contents they had. -/
theorem read_write_of_ne (d : Disk P B) {p q : P} (h : q ≠ p) (bytes : List B) :
    (d.write p bytes).read q = d.read q := by
  simp [read, write, UniqueTable.get_put, h]

/-- There is a file at every path that can be read. -/
theorem mem_paths_iff {d : Disk P B} {p : P} : p ∈ d.paths ↔ (d.read p).isSome := by
  rw [read, Option.isSome_map]
  constructor
  · intro h
    obtain ⟨f, hf, rfl⟩ := List.mem_map.1 h
    rw [UniqueTable.get_eq_some_iff.2 ⟨hf, rfl⟩]
    rfl
  · intro h
    obtain ⟨f, hf⟩ := Option.isSome_iff_exists.1 h
    obtain ⟨hmem, rfl⟩ := UniqueTable.get_eq_some_iff.1 hf
    exact List.mem_map_of_mem hmem

/-- Writes that have all been done are a case of a crash. -/
theorem interrupted_run (d : Disk P B) (ws : List (Write P B)) : Interrupted d ws (d.run ws) := by
  induction ws generalizing d with
  | nil => exact .stop d []
  | cons w ws ih => exact .next (ih (d.apply w))

/-- A crash is in the first part of a list of writes, or in the second. -/
theorem interrupted_append {d d' : Disk P B} {ws vs : List (Write P B)}
    (h : Interrupted d (ws ++ vs) d') :
    Interrupted d ws d' ∨ Interrupted (d.run ws) vs d' := by
  induction ws generalizing d with
  | nil => exact .inr h
  | cons w ws ih =>
    cases h with
    | stop => exact .inl (.stop _ _)
    | torn => exact .inl (.torn _ _ _ _ _)
    | next h =>
      rcases ih h with h | h
      · exact .inl (.next h)
      · exact .inr h

/-- A file that nothing is written to keeps its contents. -/
theorem read_of_interrupted {d d' : Disk P B} {ws : List (Write P B)} (h : Interrupted d ws d')
    {p : P} (hp : ∀ w ∈ ws, w.path ≠ p) : d'.read p = d.read p := by
  induction h with
  | stop => rfl
  | torn d q bytes ws n =>
    have hq : q ≠ p := hp _ (List.mem_cons_self ..)
    exact read_write_of_ne d hq.symm _
  | @next d d' w ws h ih =>
    rw [ih fun w hw => hp w (List.mem_cons_of_mem _ hw)]
    have hw : w.path ≠ p := hp w (List.mem_cons_self ..)
    cases w with
    | copy q bytes => exact read_write_of_ne d hw.symm bytes
    | replace q bytes => exact read_write_of_ne d hw.symm bytes

/-- There are no files but the old ones and those written to. -/
theorem path_of_interrupted {d d' : Disk P B} {ws : List (Write P B)} (h : Interrupted d ws d')
    {p : P} (hp : p ∈ d'.paths) : p ∈ d.paths ∨ ∃ w ∈ ws, w.path = p := by
  by_contra hnot
  obtain ⟨hold, hnew⟩ := not_or.1 hnot
  have hread := read_of_interrupted h fun w hw heq => hnew ⟨w, hw, heq⟩
  rw [mem_paths_iff, hread, ← mem_paths_iff] at hp
  exact hold hp

/-- Only one write is left: it was done or not, or it was a copy and is cut. -/
theorem interrupted_replace {d d' : Disk P B} {p : P} {bytes : List B} {ws : List (Write P B)}
    (h : Interrupted d (.replace p bytes :: ws) d') :
    d' = d ∨ Interrupted (d.write p bytes) ws d' := by
  cases h with
  | stop => exact .inl rfl
  | next h => exact .inr h

/-- A crash behind all writes leaves what they left. -/
theorem interrupted_nil {d d' : Disk P B} (h : Interrupted d [] d') : d' = d := by
  cases h
  rfl

end Disk

end AuditGateway
