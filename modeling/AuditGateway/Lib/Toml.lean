import AuditGateway.Lib.Partial
import Mathlib.Data.Int.Order.Basic
import Mathlib.Data.List.Sort
import Mathlib.Data.String.Basic
import Mathlib.Tactic.Common
import Mathlib.Tactic.NormNum

set_option relaxedAutoImplicit false
set_option autoImplicit false

/-!
# Documents of tables

A document in TOML is read as a value, and edited as the tree it was written as: a table can have a
header of its own, get along without one (its keys are dotted, or it has further tables only), or be
written inline, and then it is no table for what edits the document. The order in which the entries
of a table were written is not kept: they are in the order of their keys.

## Main definitions

* `Toml`, `TomlItem` — a value, and what a document is written as.
* `Entries.get`, `Entries.set`, `Entries.remove`, `Entries.edit` — what is done with entries.
* `TomlItem.said`, `saidEntries` — what is read of what is written.
* `Toml.fields`, `Fields.field`, `Fields.optional` — the fields of a structure.

## Main results

* `Entries.get_set`, `Entries.get_remove`, `get_saidEntries` — the entries after an edit, and as
  they are read.
* `Document.set`, `Document.remove`, `Document.edit` — an edit keeps a document in order.
* `asUInt_asI64` — an unsigned number that is written as a signed one.
-/

namespace AuditGateway

/-- The entries of a table. -/
abbrev Entries (α : Type) := List (String × α)

/-- A value as it is read. -/
inductive Toml
  | string (s : String)
  | integer (n : ℤ)
  /-- A float, by its bits. -/
  | float (bits : ℕ)
  | boolean (b : Bool)
  | datetime (text : String)
  | array (elements : List Toml)
  | table (entries : List (String × Toml))

/-- A part of a document as it is written. -/
inductive TomlItem
  /-- A value, which may be an inline table. -/
  | value (v : Toml)
  /-- A table with a header of its own, or without one. -/
  | table (headed : Bool) (entries : List (String × TomlItem))
  /-- Tables with a header each. -/
  | tables (elements : List (List (String × TomlItem)))

/-! ## Entries -/

namespace Entries

variable {α : Type}

/-- The value under a key. -/
def get (es : Entries α) (key : String) : Option α := es.lookup key

/-- Whether there is a value under a key. -/
def has (es : Entries α) (key : String) : Bool := (es.get key).isSome

/-- The entries without a key. -/
def remove (es : Entries α) (key : String) : Entries α := es.filter (·.1 ≠ key)

/-- The value of a key. -/
def set (es : Entries α) (key : String) (value : α) : Entries α :=
  (es.remove key).orderedInsert (fun e f => e.1 ≤ f.1) (key, value)

/-- The value of a key, if there is one for it. -/
def setSome (es : Entries α) (key : String) : Option α → Entries α
  | none => es
  | some value => es.set key value

/-- The value of a key, or none. -/
def setOpt (es : Entries α) (key : String) : Option α → Entries α
  | none => es.remove key
  | some value => es.set key value

/-- The keys are some of these. -/
def known (es : Entries α) (keys : List String) : Bool := es.all (·.1 ∈ keys)

/-- The entries are in the order of their keys. -/
def Ordered (es : Entries α) : Prop := es.Pairwise fun e f => e.1 < f.1

/-- Nothing is found in no entries. -/
@[simp] theorem get_nil (key : String) : get ([] : Entries α) key = none := rfl

/-- The first entry is found under its key, and the others behind it. -/
theorem get_cons (k : String) (v : α) (es : Entries α) (key : String) :
    get ((k, v) :: es) key = if key = k then some v else get es key := by
  rw [get, List.lookup_cons]
  by_cases h : key = k
  · simp [h]
  · simp [h, beq_false_of_ne h, get]

/-- Nothing is found under a key that no entry has. -/
theorem get_eq_none {es : Entries α} {key : String} (h : ∀ e ∈ es, e.1 ≠ key) :
    es.get key = none := by
  rw [get, List.lookup_eq_none_iff]
  intro e he
  exact bne_iff_ne.2 (h e he).symm

/-- What is found is one of the entries. -/
theorem mem_of_get {es : Entries α} {key : String} {v : α} (h : es.get key = some v) :
    (key, v) ∈ es := by
  induction es with
  | nil => cases h
  | cons e es ih =>
    obtain ⟨k, w⟩ := e
    rw [get_cons] at h
    split_ifs at h with hkey
    · obtain rfl := Option.some.inj h
      rw [hkey]
      exact List.mem_cons_self ..
    · exact List.mem_cons_of_mem _ (ih h)

/-- Nothing is found under the key that was removed. -/
theorem get_remove (es : Entries α) (key key' : String) :
    get (remove es key) key' = if key' = key then none else get es key' := by
  induction es with
  | nil => simp [remove]
  | cons e es ih =>
    obtain ⟨k, v⟩ := e
    rw [remove, List.filter_cons]
    by_cases hk : k = key
    · subst hk
      rw [if_neg (by simp), get_cons]
      by_cases hkey' : key' = k
      · simpa [hkey', remove] using ih
      · simpa [hkey', remove] using ih
    · rw [if_pos (by simpa using hk), get_cons, get_cons]
      by_cases hkey' : key' = k
      · simp [hkey', hk]
      · simpa [hkey', remove] using ih

/-- A new entry is found under its key. -/
theorem get_orderedInsert {es : Entries α} {key : String} (h : ∀ e ∈ es, e.1 ≠ key) (value : α)
    (key' : String) :
    get (es.orderedInsert (fun e f => e.1 ≤ f.1) (key, value)) key' =
      if key' = key then some value else get es key' := by
  induction es with
  | nil => rw [List.orderedInsert_nil, get_cons]
  | cons e es ih =>
    obtain ⟨k, v⟩ := e
    obtain ⟨hk, hes⟩ := List.forall_mem_cons.1 h
    rw [List.orderedInsert_cons]
    by_cases hle : key ≤ k
    · rw [if_pos hle, get_cons]
    · rw [if_neg hle, get_cons, get_cons, ih hes]
      by_cases hkey' : key' = k
      · rw [if_pos hkey', if_neg fun heq => hk (hkey'.symm.trans heq), if_pos hkey']
      · rw [if_neg hkey', if_neg hkey']

/-- The entries that are left have other keys. -/
theorem ne_of_mem_remove {es : Entries α} {key : String} {e : String × α}
    (h : e ∈ es.remove key) : e.1 ≠ key := by
  simpa using (List.mem_filter.1 h).2

/-- What was set is found under its key. -/
theorem get_set (es : Entries α) (key : String) (value : α) (key' : String) :
    get (set es key value) key' = if key' = key then some value else get es key' := by
  rw [set, get_orderedInsert fun e => ne_of_mem_remove, get_remove]
  by_cases h : key' = key
  · rw [if_pos h, if_pos h]
  · rw [if_neg h, if_neg h, if_neg h]

/-- What was set, if there was something to set. -/
theorem get_setSome (es : Entries α) (key : String) (value : Option α) (key' : String) :
    get (setSome es key value) key' =
      if key' = key then value.or (get es key') else get es key' := by
  cases value with
  | none => simp [setSome]
  | some value => simp [setSome, get_set]

/-- What was set or removed. -/
theorem get_setOpt (es : Entries α) (key : String) (value : Option α) (key' : String) :
    get (setOpt es key value) key' = if key' = key then value else get es key' := by
  cases value with
  | none => rw [setOpt, get_remove]
  | some value => rw [setOpt, get_set]

/-- Only known keys have values. -/
theorem known_iff (es : Entries α) (keys : List String) :
    es.known keys ↔ ∀ key, (es.get key).isSome → key ∈ keys := by
  induction es with
  | nil => simp [known]
  | cons e es ih =>
    obtain ⟨k, v⟩ := e
    have hcons : known ((k, v) :: es) keys = (decide (k ∈ keys) && known es keys) := rfl
    rw [hcons, Bool.and_eq_true, ih, decide_eq_true_eq]
    constructor
    · rintro ⟨hk, hes⟩ key hkey
      rw [get_cons] at hkey
      split_ifs at hkey with h
      · exact h ▸ hk
      · exact hes key hkey
    · intro h
      refine ⟨h k (by rw [get_cons, if_pos rfl]; rfl), fun key hkey => h key ?_⟩
      rw [get_cons]
      split_ifs
      · rfl
      · exact hkey

/-- Entries without one are in order. -/
theorem Ordered.remove {es : Entries α} (h : es.Ordered) (key : String) :
    (es.remove key).Ordered :=
  List.Pairwise.filter _ h

/-- Entries with a new one are in order. -/
theorem ordered_orderedInsert {es : Entries α} (h : es.Ordered) {key : String}
    (hkey : ∀ e ∈ es, e.1 ≠ key) (value : α) :
    Ordered (es.orderedInsert (fun e f => e.1 ≤ f.1) (key, value)) := by
  induction es with
  | nil => exact List.pairwise_singleton ..
  | cons e es ih =>
    obtain ⟨hhead, htail⟩ := List.pairwise_cons.1 h
    obtain ⟨hne, hes⟩ := List.forall_mem_cons.1 hkey
    rw [List.orderedInsert_cons]
    by_cases hle : key ≤ e.1
    · rw [if_pos hle]
      have hlt : key < e.1 := lt_of_le_of_ne hle hne.symm
      exact List.pairwise_cons.2
        ⟨List.forall_mem_cons.2 ⟨hlt, fun f hf => hlt.trans (hhead f hf)⟩, h⟩
    · rw [if_neg hle]
      refine List.pairwise_cons.2 ⟨fun f hf => ?_, ih htail hes⟩
      rcases (List.mem_orderedInsert _).1 hf with rfl | hf
      · exact lt_of_not_ge hle
      · exact hhead f hf

/-- Entries of which one was set are in order. -/
theorem Ordered.set {es : Entries α} (h : es.Ordered) (key : String) (value : α) :
    (es.set key value).Ordered :=
  ordered_orderedInsert (h.remove key) (fun _ => ne_of_mem_remove) value

/-- Behind that there is the entry that was set, and what was there. -/
theorem mem_set {es : Entries α} {key : String} {value : α} {e : String × α}
    (h : e ∈ es.set key value) : e = (key, value) ∨ e ∈ es := by
  rcases (List.mem_orderedInsert _).1 h with h | h
  · exact .inl h
  · exact .inr (List.mem_filter.1 h).1

end Entries

/-! ## Documents -/

/-- Every table in a value is in order. -/
inductive Toml.Ordered : Toml → Prop
  | string (s : String) : Ordered (.string s)
  | integer (n : ℤ) : Ordered (.integer n)
  | float (bits : ℕ) : Ordered (.float bits)
  | boolean (b : Bool) : Ordered (.boolean b)
  | datetime (text : String) : Ordered (.datetime text)
  | array (elements : List Toml) (h : ∀ v ∈ elements, Ordered v) : Ordered (.array elements)
  | table (es : Entries Toml) (h : es.Ordered) (hall : ∀ e ∈ es, Ordered e.2) : Ordered (.table es)

/-- Every table in a part of a document is in order. -/
inductive TomlItem.Ordered : TomlItem → Prop
  | value (v : Toml) (h : v.Ordered) : Ordered (.value v)
  | table (headed : Bool) (es : Entries TomlItem) (h : es.Ordered) (hall : ∀ e ∈ es, Ordered e.2) :
    Ordered (.table headed es)
  | tables (elements : List (Entries TomlItem)) (h : ∀ es ∈ elements, es.Ordered)
    (hall : ∀ es ∈ elements, ∀ e ∈ es, Ordered e.2) : Ordered (.tables elements)

/-- A document: everything in it is in order. -/
structure Document (es : Entries TomlItem) : Prop where
  ordered : es.Ordered
  items : ∀ e ∈ es, e.2.Ordered

/-- Whether there is a table under a key, and not an inline one. -/
def Entries.isTable (es : Entries TomlItem) (key : String) : Bool :=
  match es.get key with
  | some (.table _ _) => true
  | _ => false

/-- The table under a key; empty if there is none. -/
def Entries.tableAt (es : Entries TomlItem) (key : String) : Entries TomlItem :=
  match es.get key with
  | some (.table _ entries) => entries
  | _ => []

/-- Whether the table under a key has a header. -/
def Entries.headedAt (es : Entries TomlItem) (key : String) (new : Bool) : Bool :=
  match es.get key with
  | some (.table headed _) => headed
  | _ => new

/-- The table under a key is edited. What is there and is no table is replaced by one, with a header
or without. -/
def Entries.edit (es : Entries TomlItem) (key : String) (headed : Bool)
    (f : Entries TomlItem → Entries TomlItem) : Entries TomlItem :=
  es.set key (.table (es.headedAt key headed) (f (es.tableAt key)))

mutual

/-- What is read of a part of a document. A table that has neither a header nor entries is not
written, and no more is a list of no tables. -/
def TomlItem.said : TomlItem → Option Toml
  | .value v => some v
  | .table headed entries =>
    let es := saidEntries entries
    if !headed && es.isEmpty then none else some (.table es)
  | .tables elements =>
    match saidTables elements with
    | [] => none
    | vs => some (.array vs)

/-- What the entries of a table say. -/
def saidEntries : List (String × TomlItem) → List (String × Toml)
  | [] => []
  | (key, item) :: es =>
    match item.said with
    | some v => (key, v) :: saidEntries es
    | none => saidEntries es

/-- What the tables of an array say. -/
def saidTables : List (List (String × TomlItem)) → List Toml
  | [] => []
  | es :: elements => .table (saidEntries es) :: saidTables elements

end

/-- Each of them says what its entries say. -/
theorem saidTables_eq_map (elements : List (Entries TomlItem)) :
    saidTables elements = elements.map fun es => .table (saidEntries es) := by
  induction elements with
  | nil => rfl
  | cons es elements ih => rw [saidTables, ih, List.map_cons]

/-- An array of tables says something if it has one. -/
theorem said_tables {elements : List (Entries TomlItem)} (h : elements ≠ []) :
    (TomlItem.tables elements).said =
      some (.array (elements.map fun es => .table (saidEntries es))) := by
  rw [TomlItem.said, saidTables_eq_map]
  cases elements with
  | nil => exact absurd rfl h
  | cons es elements => rfl

/-- A table says something if it has a header or an entry that does. -/
theorem said_table {headed : Bool} {es : Entries TomlItem} (h : headed ∨ saidEntries es ≠ []) :
    (TomlItem.table headed es).said = some (.table (saidEntries es)) := by
  rw [TomlItem.said]
  refine if_neg fun hempty => ?_
  rw [Bool.and_eq_true, Bool.not_eq_true', List.isEmpty_iff] at hempty
  rcases h with h | h
  · exact absurd (hempty.1.symm.trans h) (by simp)
  · exact h hempty.2

/-- An entry as it is read. -/
theorem get_saidEntries {es : Entries TomlItem} (h : es.Ordered) (key : String) :
    Entries.get (saidEntries es) key = (es.get key).bind TomlItem.said := by
  induction es with
  | nil => rfl
  | cons e es ih =>
    obtain ⟨k, item⟩ := e
    obtain ⟨hhead, htail⟩ := List.pairwise_cons.1 h
    rw [saidEntries, Entries.get_cons]
    by_cases hkey : key = k
    · subst hkey
      rw [if_pos rfl, Option.bind_some]
      cases hsaid : item.said with
      | none =>
        -- no later entry has this key
        dsimp only
        rw [ih htail, Entries.get_eq_none fun e he => (hhead e he).ne', Option.bind_none]
      | some v => exact (Entries.get_cons ..).trans (if_pos rfl)
    · rw [if_neg hkey]
      cases hsaid : item.said with
      | none => exact ih htail
      | some v => exact (Entries.get_cons ..).trans ((if_neg hkey).trans (ih htail))

/-! ### Tables under a key -/

namespace Entries

/-- Behind an edit the table under the key is the edited one. -/
theorem get_edit (es : Entries TomlItem) (key : String) (headed : Bool)
    (f : Entries TomlItem → Entries TomlItem) (key' : String) :
    get (edit es key headed f) key' =
      if key' = key then some (.table (es.headedAt key headed) (f (es.tableAt key)))
      else get es key' :=
  get_set es key _ key'

/-- The table under a key. -/
theorem tableAt_of_get {es : Entries TomlItem} {key : String} {headed : Bool}
    {entries : Entries TomlItem} (h : es.get key = some (.table headed entries)) :
    es.tableAt key = entries := by
  rw [tableAt, h]

/-- A table depends on what is under the key only. -/
theorem tableAt_congr {es fs : Entries TomlItem} {key : String} (h : es.get key = fs.get key) :
    es.tableAt key = fs.tableAt key := by
  rw [tableAt, tableAt, h]

/-- Whether a table has a header depends on what is under the key only. -/
theorem headedAt_congr {es fs : Entries TomlItem} {key : String} (h : es.get key = fs.get key)
    (new : Bool) : es.headedAt key new = fs.headedAt key new := by
  rw [headedAt, headedAt, h]

/-- Without a table it is empty. -/
theorem tableAt_of_not_isTable {es : Entries TomlItem} {key : String} (h : ¬es.isTable key) :
    es.tableAt key = [] := by
  unfold isTable at h
  unfold tableAt
  split at h
  · exact absurd rfl h
  · rfl

/-- A table under a key is found there. -/
theorem exists_of_isTable {es : Entries TomlItem} {key : String} (h : es.isTable key) :
    ∃ headed, es.get key = some (.table headed (es.tableAt key)) := by
  unfold isTable at h
  split at h
  · next hget => exact ⟨_, by rw [tableAt_of_get hget, hget]⟩
  · cases h

end Entries

namespace Document

variable {es : Entries TomlItem}

/-- The empty document. -/
theorem nil : Document [] := ⟨List.Pairwise.nil, fun _ => nofun⟩

/-- What is in a document is in order. -/
theorem item (h : Document es) {key : String} {item : TomlItem} (hget : es.get key = some item) :
    item.Ordered :=
  h.items _ (Entries.mem_of_get hget)

/-- A value can be set in a document. -/
theorem set (h : Document es) (key : String) {value : TomlItem} (hvalue : value.Ordered) :
    Document (es.set key value) := by
  refine ⟨h.ordered.set key value, fun e he => ?_⟩
  rcases Entries.mem_set he with rfl | he
  · exact hvalue
  · exact h.items e he

/-- A value can be set in a document if there is one. -/
theorem setSome (h : Document es) (key : String) {value : Option TomlItem}
    (hvalue : ∀ v ∈ value, v.Ordered) : Document (es.setSome key value) := by
  cases value with
  | none => exact h
  | some v => exact h.set key (hvalue v rfl)

/-- A key can be removed from a document. -/
theorem remove (h : Document es) (key : String) : Document (es.remove key) :=
  ⟨h.ordered.remove key, fun e he => h.items e (List.mem_filter.1 he).1⟩

/-- A key can be set in a document or removed from it. -/
theorem setOpt (h : Document es) (key : String) {value : Option TomlItem}
    (hvalue : ∀ v ∈ value, v.Ordered) : Document (es.setOpt key value) := by
  cases value with
  | none => exact h.remove key
  | some v => exact h.set key (hvalue v rfl)

/-- A table of a document is one. -/
theorem tableAt (h : Document es) (key : String) : Document (es.tableAt key) := by
  unfold Entries.tableAt
  split
  · next hget =>
    cases h.item hget with
    | table _ _ hordered hall => exact ⟨hordered, hall⟩
  · exact nil

/-- A table can be edited. -/
theorem edit (h : Document es) (key : String) (headed : Bool)
    {f : Entries TomlItem → Entries TomlItem} (hf : Document (f (es.tableAt key))) :
    Document (es.edit key headed f) :=
  h.set key (.table _ _ hf.ordered hf.items)

end Document

/-- A text is in order. -/
theorem TomlItem.Ordered.string (s : String) :
    (TomlItem.value (.string s)).Ordered := .value _ (.string s)

/-- A number is in order. -/
theorem TomlItem.Ordered.integer (n : ℤ) :
    (TomlItem.value (.integer n)).Ordered := .value _ (.integer n)

/-- A truth value is in order. -/
theorem TomlItem.Ordered.boolean (b : Bool) :
    (TomlItem.value (.boolean b)).Ordered := .value _ (.boolean b)

/-- A list of texts is in order. -/
theorem TomlItem.Ordered.strings (l : List String) :
    (TomlItem.value (.array (l.map .string))).Ordered := by
  refine .value _ (.array _ fun v hv => ?_)
  obtain ⟨s, -, rfl⟩ := List.mem_map.1 hv
  exact .string s

/-! ## Values -/

namespace Toml

/-- The text of a string. -/
def asString : Toml → Option String
  | .string s => some s
  | _ => none

/-- A truth value. -/
def asBool : Toml → Option Bool
  | .boolean b => some b
  | _ => none

/-- An unsigned integer of `bits` bits. -/
def asUInt (bits : ℕ) : Toml → Option ℕ
  | .integer n => if 0 ≤ n ∧ n < 2 ^ bits then some n.toNat else none
  | _ => none

/-- The values of an array. -/
def asArray : Toml → Option (List Toml)
  | .array elements => some elements
  | _ => none

/-- An array whose values are all read. -/
def asList {α : Type} (read : Toml → Option α) (v : Toml) : Option (List α) :=
  v.asArray.bind (List.mapM read)

/-- A list of texts. -/
def asStrings (v : Toml) : Option (List String) := v.asList asString

/-- A map of texts, in the order of its keys. -/
def asTexts : Toml → Option (List (String × String))
  | .table es => es.mapM fun e => e.2.asString.map (e.1, ·)
  | _ => none

end Toml

/-- An unsigned number of 64 bits as a signed one. -/
def asI64 (n : ℕ) : ℤ := if n < 2 ^ 63 then n else n - 2 ^ 64

/-- A number that is not too large is read back, and no other is read at all. -/
theorem asUInt_asI64 {n : ℕ} (h : n < 2 ^ 64) :
    (Toml.integer (asI64 n)).asUInt 64 = if n < 2 ^ 63 then some n else none := by
  rw [asI64, Toml.asUInt]
  split_ifs with hfits hread hread
  · rw [Int.toNat_natCast]
  · exact absurd ⟨by omega, by omega⟩ hread
  · omega
  · rfl

/-- A number of fewer bits is read back. -/
theorem asUInt_natCast {n bits : ℕ} (h : n < 2 ^ bits) :
    (Toml.integer n).asUInt bits = some n := by
  have hcast : (n : ℤ) < 2 ^ bits := by exact_mod_cast h
  rw [Toml.asUInt, if_pos ⟨Int.natCast_nonneg n, hcast⟩, Int.toNat_natCast]

/-- A list of texts is read as it was written. -/
theorem asStrings_array (l : List String) : (Toml.array (l.map .string)).asStrings = some l := by
  rw [Toml.asStrings, Toml.asList, Toml.asArray, Option.bind_some]
  exact mapM_map_some fun _ _ => rfl

/-- A table of texts is read as it was written. -/
theorem asTexts_table (l : List (String × String)) :
    (Toml.table (l.map fun e => (e.1, .string e.2))).asTexts = some l :=
  mapM_map_some fun _ _ => rfl

/-! ## Fields -/

/-- The fields of a structure, by their names or by their places. -/
structure Fields where
  entries : Entries Toml
  byName : Bool

/-- A structure is read from a table that has no other keys, or from an array that has the fields
in their order. -/
def Toml.fields (names : List String) : Toml → Option Fields
  | .table es => if Entries.known es names then some ⟨es, true⟩ else none
  | .array elements => some ⟨names.zip elements, false⟩
  | _ => none

namespace Fields

variable {α : Type}

/-- A field, or its default. -/
def field (f : Fields) (key : String) (read : Toml → Option α) (default : α) : Option α :=
  match f.entries.get key with
  | none => some default
  | some value => read value

/-- A field that must be there. -/
def required (f : Fields) (key : String) (read : Toml → Option α) : Option α :=
  (f.entries.get key).bind read

/-- A field that is left out where there is nothing for it. In an array nothing is left out. -/
def optional (f : Fields) (key : String) (read : Toml → Option α) : Option (Option α) :=
  match f.entries.get key with
  | none => if f.byName then some none else none
  | some value => (read value).map some

/-- A key that is missing has the default. -/
theorem field_none {f : Fields} {key : String} (h : f.entries.get key = none)
    (read : Toml → Option α) (default : α) : f.field key read default = some default := by
  rw [field, h]

/-- A key that is there is read. -/
theorem field_some {f : Fields} {key : String} {v : Toml} (h : f.entries.get key = some v)
    (read : Toml → Option α) (default : α) : f.field key read default = read v := by
  rw [field, h]

/-- Equal entries are read alike. -/
theorem field_congr {f g : Fields} {key : String} (h : f.entries.get key = g.entries.get key)
    (read : Toml → Option α) (default : α) :
    f.field key read default = g.field key read default := by
  rw [field, field, h]

/-- A table under a key is read, also if it is not written because it is empty. -/
theorem field_table {doc entries : Entries TomlItem} (hdoc : Document doc) {key : String}
    {headed : Bool} (hget : doc.get key = some (.table headed entries)) {read : Toml → Option α}
    {default : α} (hdefault : read (.table []) = some default) :
    field ⟨saidEntries doc, true⟩ key read default = read (.table (saidEntries entries)) := by
  have hsaid : Entries.get (saidEntries doc) key = (TomlItem.table headed entries).said := by
    rw [get_saidEntries hdoc.ordered, hget, Option.bind_some]
  by_cases hwritten : headed ∨ saidEntries entries ≠ []
  · rw [said_table hwritten] at hsaid
    exact field_some hsaid read default
  · rw [not_or, not_not] at hwritten
    have hnone : (TomlItem.table headed entries).said = none := by
      simp [TomlItem.said, hwritten]
    rw [field_none (hsaid.trans hnone), hwritten.2, hdefault]

/-- What was read is read of the table under its key, if it is one. -/
theorem read_tableAt {doc : Entries TomlItem} (hdoc : Document doc) {key : String}
    {read : Toml → Option α} {default a : α} (hdefault : read (.table []) = some default)
    (h : field ⟨saidEntries doc, true⟩ key read default = some a) :
    read (.table (saidEntries (doc.tableAt key))) =
      some (if doc.isTable key then a else default) := by
  by_cases htable : doc.isTable key
  · obtain ⟨headed, hget⟩ := Entries.exists_of_isTable htable
    rw [if_pos htable, ← h, field_table hdoc hget hdefault]
  · rw [if_neg htable, Entries.tableAt_of_not_isTable htable]
    exact hdefault

end Fields

end AuditGateway
