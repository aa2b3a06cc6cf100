import AuditGateway.Lib.Durable
import AuditGateway.Lib.Machine

set_option relaxedAutoImplicit false
set_option autoImplicit false

/-!
# Writing files that must survive a crash

The state files, the keys and the configuration are written by `write_atomic`: into a temporary file
that is synced, renamed over the file, and the directory synced. The steps of several calls, for
different files, can lie between each other, every operation can fail, and the process or the
machine can stop between any two of them.

## Main definitions

* `DurableFiles` — what the function is for: files that change as a whole.
* `AtomicWrites` — the directory, and where the calls are.
* `AtomicWrites.Follows` — the invariant between the two.

## Main results

* `AtomicWrites.refines_durableFiles` — the calls do what files that change as a whole do.
* `AtomicWrites.written_is_kept` — what a call has written is what is read from there on, or what a
  later call for the same file writes.

## Design

The Unix branch of the function, for files of one directory that exists. The names of its temporary
files hold the process id and the name of the file, so two calls for one file at a time would share
one, and the first to end could rename what the other has half written. `AtomicWrites.step` assumes
that no two calls for one file overlap. The state files and the configuration are written under a
lock; the certificate and key of the gateway are not, so for them this is up to the administrators,
who must not replace them twice at once. What a crash leaves is `CachedDir.crash`: everything that
was synced, and anything else.
-/

namespace AuditGateway

/-! ## Files that change as a whole -/

/-- Files with their contents, `none` where there is no file. -/
structure DurableFiles (K B : Type*) where
  shown : K → Option (List B)
  /-- What a crash can leave. -/
  possible : K → List (Option (List B))
  /-- What is being written. -/
  pending : K → Option (List B)

namespace DurableFiles

variable {K B : Type*} [DecidableEq K]

/-- What a caller or a reader of the files sees. -/
inductive Label (K B : Type*)
  | call (k : K) (bytes : List B)
  | change (k : K)
  | ok (k : K)
  | err (k : K)
  | kill
  | crash

/-- Files that are on the disk as they are shown, and nobody writes one. -/
def settled (shown : K → Option (List B)) : DurableFiles K B where
  shown := shown
  possible := fun k => [shown k]
  pending := fun _ => none

/-- A call changes its file at one moment, and the file before it can come back until the call
returns. -/
inductive Step : DurableFiles K B → Label K B → DurableFiles K B → Prop
  | call (r : DurableFiles K B) (k : K) (bytes : List B) :
      Step r (.call k bytes) { r with pending := Function.update r.pending k (some bytes) }
  | change (r : DurableFiles K B) (k : K) (bytes : List B) (h : r.pending k = some bytes) :
      Step r (.change k)
        { r with
          shown := Function.update r.shown k (some bytes)
          possible := Function.update r.possible k (some bytes :: r.possible k) }
  | ok (r : DurableFiles K B) (k : K) (bytes : List B) (h : r.pending k = some bytes)
      (hshown : r.shown k = some bytes) :
      Step r (.ok k)
        { r with
          possible := Function.update r.possible k [some bytes]
          pending := Function.update r.pending k none }
  | err (r : DurableFiles K B) (k : K) :
      Step r (.err k) { r with pending := Function.update r.pending k none }
  | kill (r : DurableFiles K B) : Step r .kill { r with pending := fun _ => none }
  | crash (r : DurableFiles K B) (left : K → Option (List B)) (h : ∀ k, left k ∈ r.possible k) :
      Step r .crash (settled left)

/-- A run of these steps. -/
inductive Run : DurableFiles K B → List (Label K B) → DurableFiles K B → Prop
  | nil (r : DurableFiles K B) : Run r [] r
  | cons {r r' r'' : DurableFiles K B} {l : Label K B} {ls : List (Label K B)} (h : Step r l r')
      (hrun : Run r' ls r'') : Run r (l :: ls) r''

/-- Runs compose. -/
lemma Run.append {r r' r'' : DurableFiles K B} {ls ls' : List (Label K B)} (h : Run r ls r')
    (h' : Run r' ls' r'') : Run r (ls ++ ls') r'' := by
  induction h with
  | nil => exact h'
  | cons hs _ ih => exact .cons hs (ih h')

/-- Nothing but values from `V` is read from the file, now or behind a crash, or being written. -/
structure Within (r : DurableFiles K B) (k : K) (V : List (Option (List B))) : Prop where
  shown : r.shown k ∈ V
  possible : ∀ v ∈ r.possible k, v ∈ V
  pending : ∀ bytes, r.pending k = some bytes → some bytes ∈ V

/-- The bytes that calls want to write to a file. -/
def callsFor (k : K) (ls : List (Label K B)) : List (List B) :=
  ls.filterMap fun
    | .call k' bytes => if k' = k then some bytes else none
    | _ => none

variable {r r' : DurableFiles K B} {k : K} {V : List (Option (List B))} {l : Label K B}
  {ls : List (Label K B)}

/-- A step adds nothing but the bytes of its call. -/
lemma within_of_step (h : r.Within k V) (hs : Step r l r') :
    r'.Within k (V ++ (callsFor k [l]).map some) := by
  cases hs with
  | call k' bytes =>
    by_cases hk : k' = k
    · subst hk
      have hcalls : callsFor k' [Label.call k' bytes] = [bytes] := by simp [callsFor]
      rw [hcalls]
      refine ⟨List.mem_append_left _ h.shown, fun v hv => List.mem_append_left _ (h.possible v hv),
        fun b hb => ?_⟩
      obtain rfl : bytes = b := by simpa using hb
      simp
    · have hcalls : callsFor k [Label.call k' bytes] = [] := by simp [callsFor, hk]
      rw [hcalls, List.map_nil, List.append_nil]
      refine ⟨h.shown, h.possible, fun b hb => h.pending b ?_⟩
      simpa only [Function.update_of_ne (Ne.symm hk)] using hb
  | change k' bytes hpending =>
    have hcalls : callsFor k [(Label.change k' : Label K B)] = [] := rfl
    rw [hcalls, List.map_nil, List.append_nil]
    by_cases hk : k = k'
    · subst hk
      refine ⟨?_, fun v hv => ?_, h.pending⟩
      · simpa using h.pending bytes hpending
      · simp only [Function.update_self] at hv
        rcases List.mem_cons.1 hv with rfl | hv
        · exact h.pending bytes hpending
        · exact h.possible v hv
    · refine ⟨by simpa [hk] using h.shown, fun v hv => h.possible v ?_, h.pending⟩
      simpa only [Function.update_of_ne hk] using hv
  | ok k' bytes hpending hshown =>
    have hcalls : callsFor k [(Label.ok k' : Label K B)] = [] := rfl
    rw [hcalls, List.map_nil, List.append_nil]
    by_cases hk : k = k'
    · subst hk
      refine ⟨h.shown, fun v hv => ?_, fun b hb => by simp at hb⟩
      obtain rfl : v = some bytes := by simpa using hv
      exact h.pending bytes hpending
    · refine ⟨h.shown, fun v hv => h.possible v ?_, fun b hb => h.pending b ?_⟩
      · simpa only [Function.update_of_ne hk] using hv
      · simpa only [Function.update_of_ne hk] using hb
  | err k' =>
    have hcalls : callsFor k [(Label.err k' : Label K B)] = [] := rfl
    rw [hcalls, List.map_nil, List.append_nil]
    refine ⟨h.shown, h.possible, fun b hb => h.pending b ?_⟩
    by_cases hk : k = k'
    · simp only [hk, Function.update_self] at hb
      cases hb
    · simpa only [Function.update_of_ne hk] using hb
  | kill =>
    have hcalls : callsFor k [(Label.kill : Label K B)] = [] := rfl
    rw [hcalls, List.map_nil, List.append_nil]
    exact ⟨h.shown, h.possible, fun b hb => by cases hb⟩
  | crash left hleft =>
    have hcalls : callsFor k [(Label.crash : Label K B)] = [] := rfl
    rw [hcalls, List.map_nil, List.append_nil]
    refine ⟨h.possible _ (hleft k), fun v hv => ?_, fun b hb => by cases hb⟩
    obtain rfl : v = left k := List.mem_singleton.1 hv
    exact h.possible _ (hleft k)

/-- What calls want to write, call by call. -/
lemma callsFor_cons (k : K) (l : Label K B) (ls : List (Label K B)) :
    callsFor k (l :: ls) = callsFor k [l] ++ callsFor k ls := by
  rw [callsFor, callsFor, callsFor, ← List.filterMap_append, List.singleton_append]

/-- A file never holds anything but what it held or what was to be written to it. -/
lemma within_of_run (h : r.Within k V) (hr : Run r ls r') :
    r'.Within k (V ++ (callsFor k ls).map some) := by
  induction hr generalizing V with
  | nil r => simpa [callsFor] using h
  | @cons r r' r'' l ls hs _ ih =>
    have hnext := ih (within_of_step h hs)
    rwa [List.append_assoc, ← List.map_append, ← callsFor_cons] at hnext

/-- Behind the return of a call its bytes are all that is there. -/
lemma within_of_ok (hs : Step r (.ok k) r') :
    ∃ bytes, r.pending k = some bytes ∧ r'.Within k [some bytes] := by
  cases hs with
  | ok _ bytes hpending hshown =>
    refine ⟨bytes, hpending, List.mem_singleton.2 hshown, fun v hv => ?_, fun b hb => ?_⟩
    · simpa only [Function.update_self] using hv
    · simp at hb

end DurableFiles

/-! ## The calls -/

/-- The files of the directory: those asked for, and the temporary ones of each process. -/
inductive FileName (K : Type*)
  | file (k : K)
  | temporary (pid : ℕ) (k : K)
  deriving DecidableEq

/-- What a call does next. -/
inductive WriteStage (B : Type*)
  | removing
  | opening
  | writing (rest : List B)
  | renaming
  | syncingDir

/-- What a call writes, and how far it is. -/
structure WriteCall (B : Type*) where
  bytes : List B
  stage : WriteStage B

/-- The directory, the process, and the calls that are on their way. -/
structure AtomicWrites (K B : Type*) where
  fs : CachedDir (FileName K) B
  pid : ℕ
  calls : K → Option (WriteCall B)

namespace AtomicWrites

variable {K B : Type*} [DecidableEq K]

/-- The operations of a call, and what can happen to the process. -/
inductive Op (K B : Type*)
  | writeAtomic (k : K) (bytes : List B)
  /-- `remove_file`, whose error is dropped. -/
  | removeFile (k : K) (ok : Bool)
  | openFile (k : K)
  /-- `write_all` has written some more bytes. -/
  | write (k : K) (count : ℕ)
  | syncAll (k : K)
  | rename (k : K)
  | syncDir (k : K)
  /-- The operation that is next fails, and the call returns its error. -/
  | fail (k : K)
  /-- The process ends, and the next one has another process id. -/
  | kill (pid : ℕ)
  /-- The machine stops. -/
  | crash (directory : ℕ) (rest : ℕ → List B) (pid : ℕ)

/-- The temporary file of the calls for a file. -/
def tmp (s : AtomicWrites K B) (k : K) : FileName K := .temporary s.pid k

/-- A call has come to another operation. -/
def setCall (s : AtomicWrites K B) (fs : CachedDir (FileName K) B) (k : K)
    (call : Option (WriteCall B)) : AtomicWrites K B :=
  { s with fs := fs, calls := Function.update s.calls k call }

/-- A call begins only when no other call for its file is on its way. -/
def step (s : AtomicWrites K B) : Op K B → Option (AtomicWrites K B)
  | .writeAtomic k bytes =>
    match s.calls k with
    | none => some (s.setCall s.fs k (some ⟨bytes, .removing⟩))
    | some _ => none
  | .removeFile k ok =>
    match s.calls k with
    | some ⟨bytes, .removing⟩ =>
      some (s.setCall (if ok then s.fs.unlink (s.tmp k) else s.fs) k (some ⟨bytes, .opening⟩))
    | _ => none
  | .openFile k =>
    match s.calls k with
    | some ⟨bytes, .opening⟩ =>
      some (s.setCall (s.fs.openTruncate (s.tmp k)) k (some ⟨bytes, .writing bytes⟩))
    | _ => none
  | .write k count =>
    match s.calls k with
    | some ⟨bytes, .writing rest⟩ =>
      some (s.setCall (s.fs.append (s.tmp k) (rest.take count)) k
        (some ⟨bytes, .writing (rest.drop count)⟩))
    | _ => none
  | .syncAll k =>
    match s.calls k with
    | some ⟨bytes, .writing []⟩ =>
      some (s.setCall (s.fs.sync (s.tmp k)) k (some ⟨bytes, .renaming⟩))
    | _ => none
  | .rename k =>
    match s.calls k with
    | some ⟨bytes, .renaming⟩ =>
      some (s.setCall (s.fs.rename (s.tmp k) (.file k)) k (some ⟨bytes, .syncingDir⟩))
    | _ => none
  | .syncDir k =>
    match s.calls k with
    | some ⟨_, .syncingDir⟩ => some (s.setCall s.fs.syncDir k none)
    | _ => none
  | .fail k =>
    match s.calls k with
    | some _ => some (s.setCall s.fs k none)
    | none => none
  | .kill pid => some { s with pid := pid, calls := fun _ => none }
  | .crash directory rest pid =>
    some { fs := s.fs.crash directory rest, pid := pid, calls := fun _ => none }

/-- What a caller or a reader of the file sees of a step. -/
def Op.label : Op K B → Option (DurableFiles.Label K B)
  | .writeAtomic k bytes => some (.call k bytes)
  | .rename k => some (.change k)
  | .syncDir k => some (.ok k)
  | .fail k => some (.err k)
  | .kill _ => some .kill
  | .crash .. => some .crash
  | _ => none

variable {s t : AtomicWrites K B} {r : DurableFiles K B} {op : Op K B} {ops : List (Op K B)}

/-! ## What the calls keep -/

/-- What a call has done so far, by its stage. -/
def Staged (fs : CachedDir (FileName K) B) (tmp file : FileName K) : WriteCall B → Prop
  | ⟨bytes, .writing rest⟩ =>
    ∃ written clean, fs.seen fs.dir tmp = some (written, clean) ∧ written ++ rest = bytes
  | ⟨bytes, .renaming⟩ => fs.seen fs.dir tmp = some (bytes, true)
  | ⟨bytes, .syncingDir⟩ => fs.read file = some bytes
  | _ => True

omit [DecidableEq K] in
/-- What a call has done is left to it if its two names are. -/
lemma Staged.of_seen {fs fs' : CachedDir (FileName K) B} {tmp file : FileName K}
    {call : WriteCall B} (h : Staged fs tmp file call)
    (htmp : fs'.seen fs'.dir tmp = fs.seen fs.dir tmp) (hfile : fs'.read file = fs.read file) :
    Staged fs' tmp file call := by
  rcases call with ⟨bytes, - | - | rest | - | -⟩
  · trivial
  · trivial
  · obtain ⟨written, clean, hseen, hall⟩ := h
    exact ⟨written, clean, htmp.trans hseen, hall⟩
  · exact htmp.trans h
  · exact hfile.trans h

/-- The files of the directory are those of `r`. -/
structure Follows (s : AtomicWrites K B) (r : DurableFiles K B) : Prop where
  shown : ∀ k, s.fs.read (.file k) = r.shown k
  leaves : ∀ k, s.fs.Leaves (.file k) {v | v ∈ r.possible k}
  /-- What is written to a temporary file is in no other that a crash can leave. -/
  apart : ∀ pid k, s.fs.Apart (.temporary pid k)
  pending : ∀ k, r.pending k = (s.calls k).map WriteCall.bytes
  staged : ∀ k call, s.calls k = some call → Staged s.fs (s.tmp k) (.file k) call

/-- An operation on the temporary file of one call: the files and the other calls are left alone. -/
lemma Follows.setCall (h : s.Follows r) {fs : CachedDir (FileName K) B} {k : K}
    {call call' : WriteCall B} (hcall : s.calls k = some call) (hbytes : call'.bytes = call.bytes)
    (hseen : ∀ n, n ≠ s.tmp k → fs.seen fs.dir n = s.fs.seen s.fs.dir n)
    (hleaves : ∀ k', fs.Leaves (.file k') {v | v ∈ r.possible k'})
    (hapart : ∀ pid k', fs.Apart (.temporary pid k'))
    (hstaged : Staged fs (s.tmp k) (.file k) call') : (s.setCall fs k (some call')).Follows r where
  shown k' := by
    rw [← h.shown k']
    change fs.read _ = _
    rw [CachedDir.read_eq_seen, CachedDir.read_eq_seen, hseen _ (by simp [tmp])]
  leaves := hleaves
  apart := hapart
  pending k' := by
    by_cases hk : k' = k
    · subst hk
      rw [h.pending, hcall]
      simp [AtomicWrites.setCall, hbytes]
    · rw [h.pending]
      simp [AtomicWrites.setCall, hk]
  staged k' other hother := by
    by_cases hk : k' = k
    · subst hk
      obtain rfl : call' = other := by simpa [AtomicWrites.setCall] using hother
      exact hstaged
    · simp only [AtomicWrites.setCall, Function.update_of_ne hk] at hother
      refine (h.staged k' other hother).of_seen (hseen _ (by simp [tmp, hk])) ?_
      rw [CachedDir.read_eq_seen, CachedDir.read_eq_seen, AtomicWrites.setCall]
      exact congrArg _ (hseen _ (by simp [tmp]))

omit [DecidableEq K] in
/-- The other calls when one call ends or starts, and the files are left alone. -/
lemma Follows.staged_of_ne (h : s.Follows r) {fs : CachedDir (FileName K) B} {k k' : K}
    {call : WriteCall B} (hk : k' ≠ k) (hcall : s.calls k' = some call)
    (hseen : ∀ n, n ≠ s.tmp k → n ≠ .file k → fs.seen fs.dir n = s.fs.seen s.fs.dir n) :
    Staged fs (s.tmp k') (.file k') call := by
  refine (h.staged k' call hcall).of_seen (hseen _ (by simp [tmp, hk]) (by simp [tmp])) ?_
  rw [CachedDir.read_eq_seen, CachedDir.read_eq_seen]
  exact congrArg _ (hseen _ (by simp [tmp]) (by simp [hk]))

/-- The invariant behind the begin of a call. -/
lemma Follows.writeAtomic (h : s.Follows r) (k : K) (bytes : List B) :
    (s.setCall s.fs k (some ⟨bytes, .removing⟩)).Follows
      { r with pending := Function.update r.pending k (some bytes) } where
  shown := h.shown
  leaves := h.leaves
  apart := h.apart
  pending k' := by
    by_cases hk : k' = k
    · subst hk
      simp [AtomicWrites.setCall]
    · simpa [AtomicWrites.setCall, hk] using h.pending k'
  staged k' call hcall := by
    by_cases hk : k' = k
    · subst hk
      obtain rfl : ⟨bytes, .removing⟩ = call := by simpa [AtomicWrites.setCall] using hcall
      trivial
    · simp only [AtomicWrites.setCall, Function.update_of_ne hk] at hcall
      exact h.staged_of_ne hk hcall fun _ _ _ => rfl

/-- The invariant behind the removal of an old temporary file. -/
lemma Follows.removeFile (h : s.Follows r) {k : K} {bytes : List B}
    (hcall : s.calls k = some ⟨bytes, .removing⟩) (ok : Bool) :
    (s.setCall (if ok then s.fs.unlink (s.tmp k) else s.fs) k
      (some ⟨bytes, .opening⟩)).Follows r := by
  cases ok with
  | false => exact h.setCall hcall rfl (fun _ _ => rfl) h.leaves h.apart trivial
  | true =>
    refine h.setCall hcall rfl (fun n hn => s.fs.seen_unlink hn) (fun k' => ?_)
      (fun pid k' => (h.apart pid k').unlink) trivial
    exact (h.leaves k').unlink (by simp [tmp])

/-- The invariant behind the opening of the temporary file. -/
lemma Follows.openFile (h : s.Follows r) {k : K} {bytes : List B}
    (hcall : s.calls k = some ⟨bytes, .opening⟩) :
    (s.setCall (s.fs.openTruncate (s.tmp k)) k (some ⟨bytes, .writing bytes⟩)).Follows r := by
  refine h.setCall hcall rfl (fun n hn => s.fs.seen_openTruncate_of_ne hn) (fun k' => ?_)
    (fun pid k' => (h.apart pid k').openTruncate) ?_
  · exact (h.leaves k').openTruncate (h.apart s.pid k) (by simp [tmp])
  · exact ⟨[], false, s.fs.seen_openTruncate _, rfl⟩

/-- The invariant behind a write, whole or in part. -/
lemma Follows.write (h : s.Follows r) {k : K} {bytes rest : List B}
    (hcall : s.calls k = some ⟨bytes, .writing rest⟩) (count : ℕ) :
    (s.setCall (s.fs.append (s.tmp k) (rest.take count)) k
      (some ⟨bytes, .writing (rest.drop count)⟩)).Follows r := by
  refine h.setCall hcall rfl (fun n hn => s.fs.seen_append_of_ne _ hn) (fun k' => ?_)
    (fun pid k' => (h.apart pid k').append _) ?_
  · exact (h.leaves k').append (h.apart s.pid k) (by simp) _
  · obtain ⟨written, clean, hseen, hall⟩ := h.staged k _ hcall
    refine ⟨_, _, s.fs.seen_append _ hseen, ?_⟩
    rw [List.append_assoc, List.take_append_drop, hall]

/-- The invariant behind the sync of the temporary file. -/
lemma Follows.syncAll (h : s.Follows r) {k : K} {bytes : List B}
    (hcall : s.calls k = some ⟨bytes, .writing []⟩) :
    (s.setCall (s.fs.sync (s.tmp k)) k (some ⟨bytes, .renaming⟩)).Follows r := by
  refine h.setCall hcall rfl (fun n hn => s.fs.seen_sync_of_ne hn) (fun k' => (h.leaves k').sync)
    (fun pid k' => (h.apart pid k').sync) ?_
  obtain ⟨written, clean, hseen, hall⟩ := h.staged k _ hcall
  rw [List.append_nil] at hall
  exact hall ▸ s.fs.seen_sync hseen

/-- The file changes, and a crash leaves what it was or what it is. -/
lemma Follows.rename (h : s.Follows r) {k : K} {bytes : List B}
    (hcall : s.calls k = some ⟨bytes, .renaming⟩) :
    (s.setCall (s.fs.rename (s.tmp k) (.file k)) k (some ⟨bytes, .syncingDir⟩)).Follows
      { r with
        shown := Function.update r.shown k (some bytes)
        possible := Function.update r.possible k (some bytes :: r.possible k) } := by
  have hsynced : s.fs.seen s.fs.dir (s.tmp k) = some (bytes, true) := h.staged k _ hcall
  have hread : (s.fs.rename (s.tmp k) (.file k)).read (.file k) = some bytes := by
    rw [CachedDir.read_eq_seen, CachedDir.seen_rename _ (by simp [tmp]), hsynced]
    rfl
  have hother : ∀ n, n ≠ s.tmp k → n ≠ .file k →
      (s.fs.rename (s.tmp k) (.file k)).seen (s.fs.rename (s.tmp k) (.file k)).dir n =
        s.fs.seen s.fs.dir n := fun n hn hn' => s.fs.seen_rename_of_ne hn hn'
  constructor
  · intro k'
    by_cases hk : k' = k
    · subst hk
      simp only [Function.update_self]
      exact hread
    · simp only [Function.update_of_ne hk]
      rw [← h.shown k', CachedDir.read_eq_seen, CachedDir.read_eq_seen]
      exact congrArg _ (hother _ (by simp [tmp]) (by simp [hk]))
  · intro k'
    by_cases hk : k' = k
    · subst hk
      simp only [Function.update_self]
      refine ((h.leaves k').rename hsynced (by simp [tmp])).mono fun v hv => ?_
      rcases hv with rfl | hv
      · exact List.mem_cons_self ..
      · exact List.mem_cons_of_mem _ hv
    · simp only [Function.update_of_ne hk]
      exact (h.leaves k').rename_of_ne (by simp [tmp]) (by simp [hk])
  · exact fun pid k' => (h.apart pid k').rename (by simp)
  · intro k'
    by_cases hk : k' = k
    · subst hk
      simpa [AtomicWrites.setCall, hcall] using h.pending k'
    · simpa [AtomicWrites.setCall, hk] using h.pending k'
  · intro k' other hk'
    by_cases hk : k' = k
    · subst hk
      obtain rfl : ⟨bytes, .syncingDir⟩ = other := by simpa [AtomicWrites.setCall] using hk'
      exact hread
    · simp only [AtomicWrites.setCall, Function.update_of_ne hk] at hk'
      exact h.staged_of_ne hk hk' hother

/-- The call returns, and a crash leaves what it has written. -/
lemma Follows.syncDir (h : s.Follows r) {k : K} {bytes : List B}
    (hcall : s.calls k = some ⟨bytes, .syncingDir⟩) :
    (s.setCall s.fs.syncDir k none).Follows
      { r with
        possible := Function.update r.possible k [some bytes]
        pending := Function.update r.pending k none } := by
  have hread : s.fs.read (.file k) = some bytes := h.staged k _ hcall
  constructor
  · exact h.shown
  · intro k'
    by_cases hk : k' = k
    · subst hk
      simp only [Function.update_self]
      refine (h.leaves k').syncDir.mono fun v hv => ?_
      exact List.mem_singleton.2 (hv.trans hread)
    · simp only [Function.update_of_ne hk]
      exact (h.leaves k').syncDir_of
  · exact fun _ _ => CachedDir.Apart.syncDir
  · intro k'
    by_cases hk : k' = k
    · subst hk
      simp [AtomicWrites.setCall]
    · simpa [AtomicWrites.setCall, hk] using h.pending k'
  · intro k' other hk'
    by_cases hk : k' = k
    · subst hk
      simp [AtomicWrites.setCall] at hk'
    · simp only [AtomicWrites.setCall, Function.update_of_ne hk] at hk'
      exact h.staged_of_ne hk hk' fun _ _ _ => rfl

/-- The invariant behind a call that fails. -/
lemma Follows.fail (h : s.Follows r) (k : K) :
    (s.setCall s.fs k none).Follows { r with pending := Function.update r.pending k none } where
  shown := h.shown
  leaves := h.leaves
  apart := h.apart
  pending k' := by
    by_cases hk : k' = k
    · subst hk
      simp [AtomicWrites.setCall]
    · simpa [AtomicWrites.setCall, hk] using h.pending k'
  staged k' other hk' := by
    by_cases hk : k' = k
    · subst hk
      simp [AtomicWrites.setCall] at hk'
    · simp only [AtomicWrites.setCall, Function.update_of_ne hk] at hk'
      exact h.staged_of_ne hk hk' fun _ _ _ => rfl

omit [DecidableEq K] in
/-- A directory without changes that are not on the disk yet, and no calls. -/
lemma follows_settled {fs : CachedDir (FileName K) B} (hleaves : ∀ k : K,
      fs.Leaves (.file k) {fs.read (.file k)}) (hapart : ∀ pid k, fs.Apart (.temporary pid k))
    (pid : ℕ) :
    (AtomicWrites.mk fs pid fun _ => none).Follows
      (DurableFiles.settled fun k => fs.read (.file k)) where
  shown _ := rfl
  leaves k := (hleaves k).mono fun v hv => List.mem_singleton.2 hv
  apart := hapart
  pending _ := rfl
  staged k call hcall := by cases hcall

/-- **The step lemma**: what an operation does is one step of the files, or none. -/
theorem follows_of_step (h : s.Follows r) (hs : s.step op = some t) :
    ∃ r', DurableFiles.Run r op.label.toList r' ∧ t.Follows r' := by
  have hone : ∀ {l r'}, op.label = some l → DurableFiles.Step r l r' → t.Follows r' →
      ∃ r', DurableFiles.Run r op.label.toList r' ∧ t.Follows r' := fun hl hstep hfollows =>
    ⟨_, hl ▸ .cons hstep (.nil _), hfollows⟩
  have hquiet : op.label = none → t.Follows r →
      ∃ r', DurableFiles.Run r op.label.toList r' ∧ t.Follows r' := fun hl hfollows =>
    ⟨r, hl ▸ .nil r, hfollows⟩
  cases op with
  | writeAtomic k bytes =>
    simp only [step] at hs
    split at hs
    · obtain rfl := Option.some.inj hs
      exact hone rfl (.call r k bytes) (h.writeAtomic k bytes)
    · cases hs
  | removeFile k ok =>
    simp only [step] at hs
    split at hs
    · next hcall =>
      obtain rfl := Option.some.inj hs
      exact hquiet rfl (h.removeFile hcall ok)
    · cases hs
  | openFile k =>
    simp only [step] at hs
    split at hs
    · next hcall =>
      obtain rfl := Option.some.inj hs
      exact hquiet rfl (h.openFile hcall)
    · cases hs
  | write k count =>
    simp only [step] at hs
    split at hs
    · next hcall =>
      obtain rfl := Option.some.inj hs
      exact hquiet rfl (h.write hcall count)
    · cases hs
  | syncAll k =>
    simp only [step] at hs
    split at hs
    · next hcall =>
      obtain rfl := Option.some.inj hs
      exact hquiet rfl (h.syncAll hcall)
    · cases hs
  | rename k =>
    simp only [step] at hs
    split at hs
    · next bytes hcall =>
      obtain rfl := Option.some.inj hs
      have hpending : r.pending k = some bytes := by rw [h.pending, hcall, Option.map_some]
      exact hone rfl (.change r k bytes hpending) (h.rename hcall)
    · cases hs
  | syncDir k =>
    simp only [step] at hs
    split at hs
    · next bytes hcall =>
      obtain rfl := Option.some.inj hs
      have hpending : r.pending k = some bytes := by rw [h.pending, hcall, Option.map_some]
      have hread : s.fs.read (.file k) = some bytes := h.staged k _ hcall
      exact hone rfl (.ok r k bytes hpending (h.shown k ▸ hread)) (h.syncDir hcall)
    · cases hs
  | fail k =>
    simp only [step] at hs
    split at hs
    · obtain rfl := Option.some.inj hs
      exact hone rfl (.err r k) (h.fail k)
    · cases hs
  | kill pid =>
    obtain rfl := Option.some.inj hs
    exact hone rfl (.kill r) ⟨h.shown, h.leaves, h.apart, fun _ => rfl, fun _ _ hc => by cases hc⟩
  | crash directory rest pid =>
    obtain rfl := Option.some.inj hs
    have hcrash := fun k => (h.leaves k).crash directory rest
    exact hone rfl (.crash r _ fun k => (hcrash k).1)
      (follows_settled (fun k => (hcrash k).2) (fun _ _ => CachedDir.Apart.crash) pid)

/-- **The run lemma** of `follows_of_step`. -/
theorem follows_of_run (h : s.Follows r) (hr : Machine.run step s ops = some t) :
    ∃ r', DurableFiles.Run r (ops.filterMap Op.label) r' ∧ t.Follows r' := by
  induction ops generalizing s r with
  | nil =>
    obtain rfl := Option.some.inj hr
    exact ⟨r, .nil r, h⟩
  | cons op ops ih =>
    obtain ⟨u, hs, hrest⟩ := (Machine.run_cons_eq_some step).1 hr
    obtain ⟨r₁, hr₁, h₁⟩ := follows_of_step h hs
    obtain ⟨r₂, hr₂, h₂⟩ := ih h₁ hrest
    refine ⟨r₂, ?_, h₂⟩
    have hlabels : (op :: ops).filterMap Op.label = op.label.toList ++ ops.filterMap Op.label := by
      rw [List.filterMap_cons]
      cases op.label <;> rfl
    rw [hlabels]
    exact hr₁.append hr₂

/-! ## Main results -/

/-- A process starts, and everything in the directory is on the disk. -/
def start (fs : CachedDir (FileName K) B) (pid : ℕ) : AtomicWrites K B :=
  ⟨fs, pid, fun _ => none⟩

omit [DecidableEq K] in
/-- The directory at the start shows what is on the disk. -/
lemma follows_start {fs : CachedDir (FileName K) B} (hfs : fs.Settled) (pid : ℕ) :
    (start fs pid).Follows (DurableFiles.settled fun k => fs.read (.file k)) :=
  follows_settled (fun _ => .of_settled hfs) (fun _ _ => .of_older hfs.older) pid

/-- **A file changes as a whole**: whatever the operations of the calls do, fail or leave half done,
and wherever the machine stops, the files read as those of `DurableFiles` for the same calls,
returns and crashes. -/
theorem refines_durableFiles {fs : CachedDir (FileName K) B} (hfs : fs.Settled) {pid : ℕ}
    (hr : Machine.run step (start fs pid) ops = some t) :
    ∃ r, DurableFiles.Run (.settled fun k => fs.read (.file k)) (ops.filterMap Op.label) r ∧
      ∀ k, t.fs.read (.file k) = r.shown k := by
  obtain ⟨r, hrun, hfollows⟩ := follows_of_run (follows_start hfs pid) hr
  exact ⟨r, hrun, hfollows.shown⟩

/-- What the calls for a file want to write. -/
def writesTo (k : K) (ops : List (Op K B)) : List (List B) :=
  ops.filterMap fun
    | .writeAtomic k' bytes => if k' = k then some bytes else none
    | _ => none

/-- The labels of a run name what its calls write. -/
lemma callsFor_label (k : K) (ops : List (Op K B)) :
    DurableFiles.callsFor k (ops.filterMap Op.label) = writesTo k ops := by
  rw [DurableFiles.callsFor, writesTo, List.filterMap_filterMap]
  congr 1
  funext op
  cases op <;> rfl

/-- **What a call has written is kept**: once it has returned, its bytes are read, also behind
crashes, or those of a later call for the file. -/
theorem written_is_kept {fs : CachedDir (FileName K) B} (hfs : fs.Settled) {pid : ℕ} {k : K}
    {call : WriteCall B} {later : List (Op K B)} {s' : AtomicWrites K B}
    (hr : Machine.run step (start fs pid) ops = some s) (hcall : s.calls k = some call)
    (hok : s.step (.syncDir k) = some s') (hlater : Machine.run step s' later = some t) :
    ∃ bytes ∈ call.bytes :: writesTo k later, t.fs.read (.file k) = some bytes := by
  obtain ⟨r, -, hr⟩ := follows_of_run (follows_start hfs pid) hr
  obtain ⟨r', hrun', hr'⟩ := follows_of_step hr hok
  obtain ⟨r'', hrun'', hr''⟩ := follows_of_run hr' hlater
  have hstep : DurableFiles.Step r (.ok k) r' := by
    cases hrun' with
    | cons hstep hnil =>
      cases hnil
      exact hstep
  obtain ⟨bytes, hpending, hwithin⟩ := DurableFiles.within_of_ok hstep
  obtain rfl : call.bytes = bytes := by simpa [hr.pending, hcall] using hpending
  have hshown := (DurableFiles.within_of_run hwithin hrun'').shown
  rw [callsFor_label, ← hr''.shown k, List.singleton_append, ← List.map_cons] at hshown
  obtain ⟨b, hb, hread⟩ := List.mem_map.1 hshown
  exact ⟨b, hb, hread.symm⟩

/-! ### A run -/

/-- A directory with one file. -/
def oneFile : CachedDir (FileName ℕ) ℕ where
  dir := fun n => if n = .file 0 then some 0 else none
  data := fun _ => [7]
  clean := fun _ => true
  next := 1
  linked := by
    intro d hd n i hi
    obtain rfl := List.mem_singleton.1 hd
    have hfile : ∀ m j, (if m = FileName.file 0 then some 0 else none) = some j →
        m = .file 0 ∧ 0 = j := fun m j h => by simpa using h
    obtain ⟨rfl, rfl⟩ := hfile n i hi
    exact ⟨Nat.zero_lt_one, fun m hm => (hfile m 0 hm).1⟩

/-- The directory of the example is on the disk. -/
lemma settled_oneFile : oneFile.Settled := ⟨rfl, fun _ _ _ => rfl⟩

/-- Two calls for the file, the first of which returns; another file is written in between. -/
def writtenRun : List (Op ℕ ℕ) :=
  [.writeAtomic 0 [1, 2], .removeFile 0 false, .writeAtomic 1 [5], .openFile 0, .write 0 1,
    .removeFile 1 true, .write 0 1, .openFile 1, .syncAll 0, .rename 0]

/-- The machine stops between the rename of the second call and the sync of the directory. -/
def crashedRun : List (Op ℕ ℕ) :=
  [.writeAtomic 0 [3], .removeFile 0 true, .openFile 0, .write 0 1, .syncAll 0, .rename 0,
    .crash 1 (fun _ => []) 9]

/-- A run with a crash in it, whose files change as a whole. -/
theorem refines_durableFiles_writtenRun : ∃ t r,
    Machine.run step (start oneFile 8) (writtenRun ++ .syncDir 0 :: crashedRun) = some t ∧
      DurableFiles.Run (.settled fun k => oneFile.read (.file k))
        ((writtenRun ++ .syncDir 0 :: crashedRun).filterMap Op.label) r ∧
      ∀ k, t.fs.read (.file k) = r.shown k := by
  obtain ⟨t, ht⟩ := Option.isSome_iff_exists.1
    (show (Machine.run step (start oneFile 8)
      (writtenRun ++ .syncDir 0 :: crashedRun)).isSome = true from by decide)
  obtain ⟨r, hr⟩ := refines_durableFiles settled_oneFile ht
  exact ⟨t, r, ht, hr⟩

/-- Behind the crash the file holds the bytes of one of the calls. -/
theorem written_is_kept_crashedRun : ∃ s s' t call,
    Machine.run step (start oneFile 8) writtenRun = some s ∧ s.calls 0 = some call ∧
      s.step (.syncDir 0) = some s' ∧ Machine.run step s' crashedRun = some t ∧
      ∃ bytes ∈ call.bytes :: writesTo 0 crashedRun, t.fs.read (.file 0) = some bytes := by
  obtain ⟨s, hs⟩ := Option.isSome_iff_exists.1
    (show (Machine.run step (start oneFile 8) writtenRun).isSome = true from by decide)
  obtain ⟨t, ht⟩ := Option.isSome_iff_exists.1
    (show (Machine.run step (start oneFile 8)
      (writtenRun ++ .syncDir 0 :: crashedRun)).isSome = true from by decide)
  have hcalls : (Machine.run step (start oneFile 8) writtenRun).map
      (fun s => (s.calls 0).isSome) = some true := by decide
  rw [Machine.run_append, hs, Option.bind_some, Machine.run_cons_eq_some] at ht
  obtain ⟨s', hok, hlater⟩ := ht
  rw [hs, Option.map_some] at hcalls
  obtain ⟨call, hcall⟩ := Option.isSome_iff_exists.1 (Option.some.inj hcalls)
  exact ⟨s, s', t, call, hs, hcall, hok, hlater,
    written_is_kept settled_oneFile hs hcall hok hlater⟩

end AtomicWrites

end AuditGateway
