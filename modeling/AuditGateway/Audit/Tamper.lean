import Mathlib
import AuditGateway.Audit.Chain

set_option relaxedAutoImplicit false
set_option autoImplicit false

/-!
# Tamper evidence

A database the store wrote and any other database that both verify and agree on the hash of one
record agree on every earlier record that both hold. The hash of a record fixes the text it is
taken of, that text is read in one way only, and the walk compares the columns with the body.

## Main definitions

* `Row.input` — the text the hash of a row is taken of.
* `CollisionFree` — the digest tells the texts of two lists of rows apart.

## Main results

* `hexEncode_injective` — hexadecimal text fixes the bytes.
* `hashInput_inj` — the text of a record is read in one way only.
* `Trail.eq_of_hash_eq` — one common hash fixes all earlier records.
-/

namespace AuditGateway

/-! ## Hexadecimal text -/

/-- The sixteen digits differ, and none is a line break. -/
theorem hexDigit_inj {m n : ℕ} (hm : m < 16) (hn : n < 16) (h : hexDigit m = hexDigit n) :
    m = n := by
  unfold hexDigit at h
  interval_cases m <;> interval_cases n <;> first | rfl | exact absurd h (by decide)

/-- A hexadecimal digit is no line break. -/
theorem hexDigit_ne_newline {n : ℕ} (hn : n < 16) : hexDigit n ≠ '\n' := by
  unfold hexDigit
  interval_cases n <;> decide

/-- **Hexadecimal text fixes the bytes.** -/
theorem hexEncode_injective {l m : List UInt8} (h : hexEncode l = hexEncode m) : l = m := by
  replace h := congrArg String.toList h
  simp only [hexEncode, String.toList_ofList] at h
  induction l generalizing m with
  | nil =>
    cases m with
    | nil => rfl
    | cons b m => simp at h
  | cons a l ih =>
    cases m with
    | nil => simp at h
    | cons b m =>
      simp only [List.flatMap_cons, List.cons_append, List.nil_append, List.cons.injEq] at h
      obtain ⟨hhigh, hlow, htail⟩ := h
      have ha := a.toNat_lt
      have hb := b.toNat_lt
      have h₁ := hexDigit_inj (by omega) (by omega) hhigh
      have h₂ := hexDigit_inj (Nat.mod_lt _ (by norm_num)) (Nat.mod_lt _ (by norm_num)) hlow
      have hab : a = b := UInt8.toNat_inj.1 (by omega)
      rw [hab, ih htail]

/-- No line break is in the text of a hash. -/
theorem newline_notMem_hexEncode (bytes : List UInt8) : '\n' ∉ (hexEncode bytes).toList := by
  rw [hexEncode, String.toList_ofList, List.mem_flatMap]
  rintro ⟨b, -, hb⟩
  have := b.toNat_lt
  rw [List.mem_pair] at hb
  rcases hb with hb | hb
  · exact hexDigit_ne_newline (by omega) hb.symm
  · exact hexDigit_ne_newline (Nat.mod_lt _ (by norm_num)) hb.symm

/-- No line break is in the hash in front of the first record. -/
theorem newline_notMem_genesisHash : '\n' ∉ genesisHash.toList := by decide

/-- No line break is in the text of a number. -/
theorem newline_notMem_toString (n : ℤ) : '\n' ∉ (toString n).toList := by
  have hnat : ∀ k : ℕ, '\n' ∉ k.repr.toList := by
    intro k hk
    rw [Nat.toList_repr] at hk
    have := Nat.isDigit_of_mem_toDigits (by norm_num) (by norm_num) hk
    revert this
    decide
  show '\n' ∉ (Int.repr n).toList
  rw [Int.repr_eq_if]
  split_ifs
  · exact hnat _
  · rw [String.toList_append, List.mem_append, not_or]
    exact ⟨by decide, hnat _⟩

/-! ## The text of a record -/

/-- A separator that the first field does not hold ends it. -/
theorem field_inj {α : Type*} {a : α} {x x' z z' : List α} (hx : a ∉ x) (hx' : a ∉ x')
    (h : x ++ a :: z = x' ++ a :: z') : x = x' ∧ z = z' := by
  induction x generalizing x' with
  | nil =>
    cases x' with
    | nil => exact ⟨rfl, List.cons_inj_right a |>.1 h⟩
    | cons b x' =>
      have hab : a = b := (List.cons.inj h).1
      exact absurd (hab ▸ List.mem_cons_self ..) hx'
  | cons b x ih =>
    cases x' with
    | nil =>
      have hba : b = a := (List.cons.inj h).1
      exact absurd (hba ▸ List.mem_cons_self ..) hx
    | cons b' x' =>
      obtain ⟨hbb, htail⟩ := List.cons.inj h
      have hrest := ih (fun hm => hx (List.mem_cons_of_mem _ hm))
        (fun hm => hx' (List.mem_cons_of_mem _ hm)) htail
      exact ⟨by rw [hbb, hrest.1], hrest.2⟩

/-- **The text of a record is read in one way only**: if the hash before it and the body have no
line break, no other hash, number and body give the same text.

**Proof sketch.** The text has two line breaks, so whatever gives it has none but the two that
end the hash and the number. -/
theorem hashInput_inj {p p' b b' : String} {n n' : ℤ} (hp : '\n' ∉ p.toList)
    (hb : '\n' ∉ b.toList) (h : hashInput p n b = hashInput p' n' b') :
    p = p' ∧ n = n' ∧ b = b' := by
  have hn := newline_notMem_toString n
  have hn' := newline_notMem_toString n'
  replace h := congrArg String.toList h
  simp only [hashInput, String.toList_append, List.append_assoc] at h
  have hsep : "\n".toList = ['\n'] := by decide
  simp only [hsep, List.singleton_append] at h
  have hp' : '\n' ∉ p'.toList := by
    have hcount := congrArg (List.count '\n') h
    simp only [List.count_append, List.count_cons_self, List.count_eq_zero.2 hp,
      List.count_eq_zero.2 hn, List.count_eq_zero.2 hb, List.count_eq_zero.2 hn'] at hcount
    rw [← List.count_eq_zero]
    omega
  obtain ⟨h₁, h⟩ := field_inj hp hp' h
  obtain ⟨h₂, h₃⟩ := field_inj hn hn' h
  exact ⟨String.toList_inj.1 h₁, Int.repr_injective (String.toList_inj.1 h₂),
    String.toList_inj.1 h₃⟩

/-- The hash before a new row is the head's or a digest. -/
theorem prevHash_of_mem_records {c : Crates} {n : ℤ} {h : String} {es : List AuditEntry}
    {r : Row} (hr : r ∈ records c n h es) :
    r.prevHash = h ∨ ∃ bytes, r.prevHash = hexEncode bytes := by
  induction es generalizing n h with
  | nil => cases hr
  | cons e es ih =>
    rcases List.mem_cons.1 hr with rfl | hr
    · exact .inl rfl
    · right
      rcases ih hr with hr | hr
      · exact ⟨_, hr⟩
      · exact hr

/-- The text the hash of a row is taken of. -/
def Row.input (r : Row) : String := hashInput r.prevHash r.seq r.body

/-- The digest tells the texts of the rows of two lists apart. -/
def CollisionFree (c : Crates) (rows rows' : List Row) : Prop :=
  ∀ r ∈ rows, ∀ r' ∈ rows', c.sha256 r.input.toUTF8 = c.sha256 r'.input.toUTF8 →
    r.input.toUTF8 = r'.input.toUTF8

/-- Rows with different digests, and some of them again. -/
theorem collisionFree_of_pairwise {c : Crates} {rows rows' : List Row} (hsub : rows ⊆ rows')
    (h : rows'.Pairwise fun r r' => c.sha256 r.input.toUTF8 ≠ c.sha256 r'.input.toUTF8) :
    CollisionFree c rows rows' := by
  intro r hr r' hr' heq
  by_contra hne
  have hrr : r ≠ r' := fun hrr => hne (by rw [hrr])
  have : Std.Symm fun r r' : Row =>
      c.sha256 r.input.toUTF8 ≠ c.sha256 r'.input.toUTF8 := ⟨fun _ _ => Ne.symm⟩
  exact h.forall (hsub hr) hr' hrr heq

/-- Two sound rows with one body have the same columns. -/
theorem Row.Sound.toColumns_eq {c : Crates} {r r' : Row} (h : r.Sound c) (h' : r'.Sound c)
    (hbody : r.body = r'.body) : r.toColumns = r'.toColumns := by
  obtain ⟨-, e, he, hcols⟩ := h
  obtain ⟨-, e', he', hcols'⟩ := h'
  rw [hbody, he'] at he
  cases he
  rw [← hcols, ← hcols']

namespace Trail

variable {c : Crates} {t : Trail}

/-- A row the store wrote has no line break in the hash before it. -/
theorem Chained.newline_notMem_prevHash (h : Chained c t) {r : Row} (hr : r ∈ t.written) :
    '\n' ∉ r.prevHash.toList := by
  rw [h.written_eq] at hr
  rcases prevHash_of_mem_records hr with hp | ⟨bytes, hp⟩
  · rw [hp]
    exact newline_notMem_genesisHash
  · rw [hp]
    exact newline_notMem_hexEncode bytes

/-- No other hash, number and body have the text of a row the store wrote. -/
theorem Chained.input_inj (h : Chained c t)
    (hjson : ∀ e ∈ t.entries, '\n' ∉ (c.toJson e).toList) {r : Row} (hr : r ∈ t.written)
    {p b : String} {n : ℤ} (heq : r.input = hashInput p n b) :
    r.prevHash = p ∧ r.seq = n ∧ r.body = b := by
  refine hashInput_inj (h.newline_notMem_prevHash hr) ?_ heq
  obtain ⟨e, he, hrec⟩ := h.exists_entry hr
  rw [hrec]
  exact hjson e he

/-- A sound row with the hash of a sound row the store wrote has its contents. -/
theorem Chained.contents_eq (h : Chained c t)
    (hjson : ∀ e ∈ t.entries, '\n' ∉ (c.toJson e).toList) {r r' : Row} (hr : r ∈ t.written)
    (hs : r.Sound c) (hs' : r'.Sound c) (hhash : r.hash = r'.hash)
    (hsha : c.sha256 r.input.toUTF8 = c.sha256 r'.input.toUTF8 → r.input.toUTF8 = r'.input.toUTF8) :
    r.prevHash = r'.prevHash ∧ r.seq = r'.seq ∧ r.body = r'.body := by
  have hrecord : recordHash c r.prevHash r.seq r.body = recordHash c r'.prevHash r'.seq r'.body :=
    by rw [hs.1, hs'.1, hhash]
  have hinput : r.input = r'.input :=
    String.toByteArray_inj.1 (hsha (hexEncode_injective hrecord))
  exact h.input_inj hjson hr hinput

/-- **Tamper evidence.** A database the store wrote and any database, both of which verify and
hold a record with the same number and hash, hold the same record under every number up to that
one which both have; no other hash, number and body have the text of a record the store wrote;
and the columns of a database that verifies are those of its bodies.

**Proof sketch.** Down from the common record: if two rows have the same hash, they have the
same text, so they name the same hash before them, which is that of the rows before them. -/
theorem eq_of_hash_eq {ops : List Op} (hr : Machine.run (step c) init ops = some t)
    (hjson : ∀ e ∈ t.entries, '\n' ∉ (c.toJson e).toList) {db : Database}
    (hsha : CollisionFree c t.db.audit.rows db.audit.rows)
    (hv : (verifyChain c t.db).error = none) (hv' : (verifyChain c db).error = none) :
    (∀ a ∈ t.db.audit.rows, ∀ a' ∈ db.audit.rows, a.seq = a'.seq → a.hash = a'.hash →
      ∀ b ∈ t.db.audit.rows, ∀ b' ∈ db.audit.rows, b.seq = b'.seq → b.seq ≤ a.seq → b = b') ∧
    (∀ r ∈ t.written, ∀ p n b, r.input = hashInput p n b →
      r.prevHash = p ∧ r.seq = n ∧ r.body = b) ∧
    ∀ r ∈ db.audit.rows, ∃ e, c.fromJson r.body = .ok e ∧ columns c e = r.toColumns := by
  have h := chained_of_run hr
  have hver := verifyChain_error_eq_none_iff.1 hv
  have hver' := verifyChain_error_eq_none_iff.1 hv'
  have hcontents : ∀ a ∈ t.db.audit.rows, ∀ a' ∈ db.audit.rows, a.hash = a'.hash →
      a.prevHash = a'.prevHash ∧ a.seq = a'.seq ∧ a.body = a'.body := by
    intro a ha a' ha' hhash
    exact h.contents_eq hjson (h.held.subset ha) (hver.sound a ha) (hver'.sound a' ha') hhash
      (hsha a ha a' ha')
  refine ⟨?_, fun r hr p n b => h.input_inj hjson hr, fun r hr => (hver'.sound r hr).2⟩
  intro a ha a' ha' hseq hhash b hb b' hb' hbseq hle
  have hbhash : b.hash = b'.hash :=
    HashChain.hash_eq_of_le hver.linked hver'.linked
      (fun r hr r' hr' _ hh => (hcontents r hr r' hr' hh).1) ha ha' hseq hhash hb hb' hbseq hle
      (fun r hr => t.db.audit.eq_of_key_eq hr ha) (fun r hr => db.audit.eq_of_key_eq hr ha')
  obtain ⟨hprev, -, hbody⟩ := hcontents b hb b' hb' hbhash
  have hcols := (hver.sound b hb).toColumns_eq (hver'.sound b' hb') hbody
  cases b
  cases b'
  simp only at hcols hbseq hbhash hprev hbody
  rw [hcols, hbseq, hbhash, hprev, hbody]

/-- The same life goes on with one more record: another database with the same records 1 and 2. -/
theorem eq_of_hash_eq_restartedLife : ∃ t t',
    Machine.run (step plainCrates) init restartedLife = some t ∧
      Machine.run (step plainCrates) t [.append true [lostEntry]] = some t' ∧
      t.db.audit.rows ≠ t'.db.audit.rows ∧
      ∀ a ∈ t.db.audit.rows, ∀ a' ∈ t'.db.audit.rows, a.seq = a'.seq → a.hash = a'.hash →
        ∀ b ∈ t.db.audit.rows, ∀ b' ∈ t'.db.audit.rows, b.seq = b'.seq → b.seq ≤ a.seq →
          b = b' := by
  obtain ⟨t, ht, hentries, hrows, hops⟩ := exists_run_restartedLife
  set longer := Machine.run (step plainCrates) init (restartedLife ++ [.append true [lostEntry]])
    with hlonger
  obtain ⟨t', ht'⟩ := Option.isSome_iff_exists.1 (show longer.isSome = true from rfl)
  have hentries' : longer.map Trail.entries = some [lostEntry, stoppedEntry, lostEntry] := rfl
  have hrows' : longer.map (·.db.audit.rows) =
      some (records plainCrates 0 genesisHash [lostEntry, stoppedEntry, lostEntry]) := rfl
  rw [ht', Option.map_some, Option.some.injEq] at hentries' hrows'
  rw [hlonger] at ht'
  have hops' : ∀ op ∈ restartedLife ++ [.append true [lostEntry]], op.Intact := by
    simp [restartedLife, Op.Intact]
  obtain ⟨h, hw⟩ := whole_of_run hops ht
  obtain ⟨h', hw'⟩ := whole_of_run hops' ht'
  have hread : ∀ e ∈ t.entries, ReadsBack plainCrates e := by
    rw [hentries]
    exact readsBack_plainCrates
  have hread' : ∀ e ∈ t'.entries, ReadsBack plainCrates e := by
    rw [hentries']
    exact fun e he => readsBack_plainCrates e (by simpa [or_comm] using he)
  have hjson : ∀ e ∈ [lostEntry, stoppedEntry], '\n' ∉ (plainCrates.toJson e).toList := by
    decide +kernel
  rw [← hentries] at hjson
  have hsha : CollisionFree plainCrates t.db.audit.rows t'.db.audit.rows := by
    rw [hrows, hrows']
    refine collisionFree_of_pairwise ?_ ?_
    · simp [records_cons]
    · decide +kernel
  have hrun : Machine.run (step plainCrates) t [.append true [lostEntry]] = some t' := by
    rwa [Machine.run_append, ht, Option.bind_some] at ht'
  refine ⟨t, t', ht, hrun, fun heq => ?_, (eq_of_hash_eq ht hjson hsha
    (verifyChain_error_eq_none_iff.2 (hw.verified h hread))
    (verifyChain_error_eq_none_iff.2 (hw'.verified h' hread'))).1⟩
  have hlength := congrArg List.length heq
  rw [hrows, hrows', length_records, length_records] at hlength
  cases hlength

end Trail

end AuditGateway
