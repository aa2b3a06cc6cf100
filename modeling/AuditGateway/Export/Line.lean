import AuditGateway.Audit.Body
import AuditGateway.Audit.Query
import AuditGateway.Lib.LineProtocol
import Mathlib.Algebra.Group.Int.Defs

set_option relaxedAutoImplicit false
set_option autoImplicit false

/-!
# The lines of the QuestDB destination

A record goes to QuestDB as one line: the table, who and what it was about as tags, and its number,
its hashes and its texts as fields. What is empty is left out, and every control character becomes
a blank, so that no text of a record can end its line or a part of it.

## Main definitions

* `RecordFields`, `fields` — the flat view of a record.
* `escapeName`, `escapeString`, `line` — its line.
* `Line.row` — what the line is to say.

## Main results

* `Line.decodes_iff` — the line is read as this row, unless the table makes it a comment or the time
  does not fit.
-/

namespace AuditGateway

/-! ## The fields of a record -/

/-- Flat, human-oriented view of a record. -/
structure RecordFields where
  target : String
  kind : String
  user : String
  clientAddress : String
  clientApplication : String
  nodeId : String
  displayName : String
  dataType : String
  oldValue : String
  newValue : String
  status : String
  /-- The event as JSON. -/
  eventJson : String

/-- The texts of other crates in a line: of an instant, and of a JSON value. -/
structure TextCrates where
  time : DateTime → String
  json : Json → String

/-- The member of an event as text. -/
def memberText (x : TextCrates) (event : Json) (key : String) : String :=
  match event.get? key with
  | none | some .null => ""
  | some (.string s) => s
  | some v => x.json v

/-- The value of a member of an event as text. -/
def valueText (x : TextCrates) (event : Json) (key : String) : String :=
  match (event.get? key).bind (·.get? "value") with
  | none => ""
  | some (.string s) => s
  | some v => x.json v

/-- The texts of a record. -/
def fields (x : TextCrates) (record : StoredRecord) : RecordFields :=
  let entry := record.entry
  let client := entry.client
  let event := entry.event.toJson x.time
  let dataType :=
    match (event.get? "new_value").bind (·.get? "data_type") with
    | some (.string s) => s
    | _ => ""
  -- a web UI user (who changed settings, logged in, acknowledged) is in the event itself
  let uiUser :=
    let by_ := memberText x event "by"
    let by_ := if by_ = "" then memberText x event "user" else by_
    if by_ ≠ "" ∧ by_ ≠ "gateway" then some ("ui:" ++ by_) else none
  { target := entry.target.getD ""
    kind := entry.event.kind
    user := (((client.bind (·.user)).map (·.label)).or uiUser).getD ""
    clientAddress := (client.map (·.remoteAddr)).getD ""
    clientApplication := (client.bind fun c => c.applicationName.or c.applicationUri).getD ""
    nodeId := entry.event.nodeId.getD ""
    displayName := memberText x event "display_name"
    dataType
    oldValue := valueText x event "old_value"
    newValue := valueText x event "new_value"
    status := memberText x event "status"
    eventJson := x.json event }

/-! ## The line -/

/-- Unicode control characters. -/
def isControl (c : Char) : Bool := c.toNat ≤ 0x1f || (0x7f ≤ c.toNat && c.toNat ≤ 0x9f)

/-- A character of a table name, tag key or tag value. Line breaks and other control characters
become an escaped blank. -/
def nameChar (c : Char) : List Char :=
  if c = ',' ∨ c = ' ' ∨ c = '=' ∨ c = '\\' then ['\\', c]
  else if isControl c then ['\\', ' ']
  else [c]

/-- A name with its special characters escaped. -/
def escapeName (s : String) : String := String.ofList (s.toList.flatMap nameChar)

/-- A character of a text value. -/
def stringChar (c : Char) : List Char :=
  if c = '"' ∨ c = '\\' then ['\\', c] else if isControl c then [' '] else [c]

/-- A string with its special characters escaped. -/
def escapeString (s : String) : String := String.ofList (s.toList.flatMap stringChar)

/-- The earliest and the latest instant whose nanoseconds are an `i64`. -/
def nanosFit (t : DateTime) : Prop := -2 ^ 63 ≤ t.nanos ∧ t.nanos < 2 ^ 63

/-- Whether the nanoseconds of a date fit into 64 bits. -/
instance (t : DateTime) : Decidable (nanosFit t) := inferInstanceAs (Decidable (_ ∧ _))

/-- The time of a record in nanoseconds, or the nearest that fits. -/
def timestamp (record : StoredRecord) : ℤ :=
  if nanosFit record.entry.ts then record.entry.ts.nanos else 0

namespace Line

/-- The tags that are not empty. -/
def tags (f : RecordFields) : List (String × String) :=
  [("target", f.target), ("kind", f.kind), ("user", f.user)].filter (·.2 ≠ "")

/-- The text fields that are not empty. -/
def strings (record : StoredRecord) (f : RecordFields) : List (String × String) :=
  [("hash", record.hash), ("prev_hash", record.prevHash), ("node_id", f.nodeId),
    ("display_name", f.displayName), ("data_type", f.dataType), ("old_value", f.oldValue),
    ("new_value", f.newValue), ("status", f.status), ("client_address", f.clientAddress),
    ("client_application", f.clientApplication), ("event", f.eventJson)].filter (·.2 ≠ "")

end Line

/-- One line: `table,target=…,kind=…,user=… seq=12i,… <time in ns>`. -/
def line (x : TextCrates) (table : String) (record : StoredRecord) : String :=
  let f := fields x record
  escapeName table ++
    String.join ((Line.tags f).map fun e => "," ++ e.1 ++ "=" ++ escapeName e.2) ++
    (" seq=" ++ toString record.seq ++ "i") ++
    String.join ((Line.strings record f).map fun e =>
      "," ++ e.1 ++ "=\"" ++ escapeString e.2 ++ "\"") ++
    (" " ++ toString (timestamp record) ++ "\n")

namespace Line

open LineProtocol

/-! ## What a line says -/

/-- A control character is read as a blank. -/
def clean (c : Char) : Char := if isControl c then ' ' else c

/-- A text with blanks for its control characters. -/
def cleaned (s : String) : Text := s.toList.map clean

/-- The row that the line of a record is to be read as. -/
def row (x : TextCrates) (table : String) (record : StoredRecord) : LineProtocol.Row where
  table := cleaned table
  tags := (tags (fields x record)).map fun e => (e.1.toList, cleaned e.2)
  fields := ("seq".toList, .integer record.seq) ::
    (strings record (fields x record)).map fun e => (e.1.toList, .string (cleaned e.2))
  timestamp := some record.entry.ts.nanos

/-! ## The escapes -/

/-- Only control characters are replaced. -/
theorem clean_of_not_isControl {c : Char} (h : isControl c = false) : clean c = c := by
  simp [clean, h]

/-- What is escaped is no control character. -/
theorem isControl_of_isSpecial {c : Char} (h : isSpecial c) : isControl c = false := by
  simp only [isSpecial, Bool.or_eq_true, decide_eq_true_eq] at h
  rcases h with ((rfl | rfl) | rfl) | rfl <;> rfl

/-- A special character is escaped. -/
theorem nameChar_of_isSpecial {c : Char} (h : isSpecial c) : nameChar c = ['\\', c] := by
  refine if_pos ?_
  simp only [isSpecial, Bool.or_eq_true, decide_eq_true_eq] at h
  tauto

/-- Another character is as it is, or a blank. -/
theorem nameChar_of_not_isSpecial {c : Char} (h : isSpecial c = false) :
    nameChar c = if isControl c then ['\\', ' '] else [c] := by
  refine if_neg ?_
  simp only [isSpecial, Bool.or_eq_false_iff, decide_eq_false_iff_not] at h
  tauto

/-- A line break is a control character, so that what ends a name is escaped or a blank. -/
theorem endsKey_of_not_isSpecial {c : Char} (h : isSpecial c = false) (hc : isControl c = false) :
    endsKey c = false := by
  simp only [isSpecial, Bool.or_eq_false_iff, decide_eq_false_iff_not] at h
  have hbreak : c ≠ '\n' := by
    rintro rfl
    exact absurd hc (by decide)
  simp [endsKey, h, hbreak]

/-- An escaped character is read as it is, cleaned, in every kind of name. -/
theorem inName_nameChar {ends : Char → Bool} (h : ∀ c, ends c → endsKey c) (c : Char) :
    InName ends (nameChar c) (clean c) := by
  cases hspecial : isSpecial c with
  | true =>
    rw [nameChar_of_isSpecial hspecial, clean_of_not_isControl (isControl_of_isSpecial hspecial)]
    exact .escaped hspecial
  | false =>
    rw [nameChar_of_not_isSpecial hspecial]
    cases hcontrol : isControl c with
    | true =>
      rw [if_pos rfl, show clean c = ' ' by simp [clean, hcontrol]]
      exact .escaped rfl
    | false =>
      rw [if_neg Bool.false_ne_true, clean_of_not_isControl hcontrol]
      have hends : ends c = false := by
        by_contra hends
        have := h c (by simpa using hends)
        rw [endsKey_of_not_isSpecial hspecial hcontrol] at this
        exact Bool.false_ne_true this
      refine .plain ?_ hends
      rintro rfl
      exact absurd hspecial (by decide)

/-- An escaped character of a string is read as it is, cleaned. -/
theorem inString_stringChar (c : Char) : InString (stringChar c) (clean c) := by
  by_cases hspecial : c = '"' ∨ c = '\\'
  · have hclean : clean c = c := by rcases hspecial with rfl | rfl <;> rfl
    rw [stringChar, if_pos hspecial, hclean]
    exact .escaped hspecial
  · rw [stringChar, if_neg hspecial]
    obtain ⟨hquote, hslash⟩ := not_or.1 hspecial
    cases hcontrol : isControl c with
    | true =>
      rw [if_pos rfl, show clean c = ' ' by simp [clean, hcontrol]]
      exact .plain (by decide) (by decide)
    | false =>
      rw [if_neg Bool.false_ne_true, clean_of_not_isControl hcontrol]
      exact .plain hslash hquote

/-- An escaped name is read as the name with blanks for its control characters. -/
theorem readsName_escapeName {ends : Char → Bool} (h : ∀ c, ends c → endsKey c) (s : String) :
    ReadsName ends (escapeName s).toList (cleaned s) := by
  rw [escapeName, String.toList_ofList]
  refine readsName_flatMap ?_ (inName_nameChar h) s.toList
  by_contra hends
  exact absurd (h _ (by simpa using hends)) (by decide)

/-- What ends a table name ends a key. -/
theorem endsKey_of_endsTable {c : Char} (h : endsTable c) : endsKey c := by
  simp only [endsTable, endsKey, Bool.or_eq_true, decide_eq_true_eq] at h ⊢
  tauto

/-- An escaped string is read as its text, cleaned. -/
theorem readsValue_escapeString (s : String) :
    ReadsValue ('"' :: ((escapeString s).toList ++ ['"'])) (.string (cleaned s)) := by
  refine readsValue_string ?_
  rw [escapeString, String.toList_ofList]
  exact readsString_flatMap inString_stringChar s.toList

/-- A line break is not in an escaped character. -/
theorem ne_break_of_mem_nameChar {c d : Char} (h : d ∈ nameChar c) : d ≠ '\n' := by
  rintro rfl
  cases hspecial : isSpecial c with
  | true =>
    rw [nameChar_of_isSpecial hspecial] at h
    obtain rfl : '\n' = c := by simpa using h
    exact absurd hspecial (by decide)
  | false =>
    rw [nameChar_of_not_isSpecial hspecial] at h
    cases hcontrol : isControl c with
    | true => simp [hcontrol] at h
    | false =>
      obtain rfl : '\n' = c := by simpa [hcontrol] using h
      exact absurd hcontrol (by decide)

/-- An escaped string has no line break. -/
theorem ne_break_of_mem_stringChar {c d : Char} (h : d ∈ stringChar c) : d ≠ '\n' := by
  rintro rfl
  by_cases hspecial : c = '"' ∨ c = '\\'
  · rw [stringChar, if_pos hspecial] at h
    obtain rfl : '\n' = c := by simpa using h
    exact absurd hspecial (by decide)
  · rw [stringChar, if_neg hspecial] at h
    cases hcontrol : isControl c with
    | true => simp [hcontrol] at h
    | false =>
      obtain rfl : '\n' = c := by simpa [hcontrol] using h
      exact absurd hcontrol (by decide)

/-! ## The parts of a line -/

/-- The texts of a tag in a line. -/
def tagParts (e : String × String) : Text × Text := (e.1.toList, (escapeName e.2).toList)

/-- The texts of a text field in a line. -/
def stringParts (e : String × String) : Text × Text :=
  (e.1.toList, '"' :: ((escapeString e.2).toList ++ ['"']))

/-- The texts of the number in a line. -/
def seqParts (seq : ℤ) : Text × Text := ("seq".toList, (toString seq).toList ++ ['i'])

variable (x : TextCrates) (table : String) (record : StoredRecord)

/-- The line of a record, part by part. -/
theorem toList_line : (line x table record).toList =
    rowText (escapeName table).toList ((tags (fields x record)).map tagParts)
      (seqParts record.seq) ((strings record (fields x record)).map stringParts)
      (toString (timestamp record)).toList := by
  have htags (l : List (String × String)) :
      (String.join (l.map fun e => "," ++ e.1 ++ "=" ++ escapeName e.2)).toList =
        (l.map tagParts).flatMap tagText := by
    induction l with
    | nil => rfl
    | cons e l ih =>
      rw [List.map_cons, String.toList_join, List.map_cons, List.flatMap_cons, List.flatMap_cons]
      rw [String.toList_join] at ih
      rw [ih]
      simp [tagText, tagParts, String.toList_append]
  have hstrings (l : List (String × String)) :
      (String.join (l.map fun e => "," ++ e.1 ++ "=\"" ++ escapeString e.2 ++ "\"")).toList =
        (l.map stringParts).flatMap fun f => ',' :: fieldText f := by
    induction l with
    | nil => rfl
    | cons e l ih =>
      rw [List.map_cons, String.toList_join, List.map_cons, List.flatMap_cons, List.flatMap_cons]
      rw [String.toList_join] at ih
      rw [ih]
      simp [fieldText, stringParts, String.toList_append]
  simp only [line, String.toList_append, htags, hstrings, rowText]
  simp [fieldText, seqParts]

/-- What stands for itself as a key. -/
def IsKey (key : String) : Prop :=
  key.toList ≠ [] ∧ ∀ c ∈ key.toList, c ≠ '\\' ∧ endsKey c = false

/-- Whether a text is a key. -/
instance (key : String) : Decidable (IsKey key) :=
  @instDecidableAnd _ _ inferInstance (List.decidableBAll _ key.toList)

/-- The names of tags are keys. -/
theorem isKey_of_mem_tags {e : String × String} {f : RecordFields} (h : e ∈ tags f) :
    IsKey e.1 := by
  have hkeys : ∀ key ∈ ["target", "kind", "user"], IsKey key := by decide
  refine hkeys e.1 ?_
  simpa using List.mem_map_of_mem (f := Prod.fst) (List.mem_filter.1 h).1

/-- The names of string fields are keys. -/
theorem isKey_of_mem_strings {e : String × String} {f : RecordFields}
    (h : e ∈ strings record f) : IsKey e.1 := by
  have hkeys : ∀ key ∈ ["hash", "prev_hash", "node_id", "display_name", "data_type", "old_value",
      "new_value", "status", "client_address", "client_application", "event"], IsKey key := by
    decide
  refine hkeys e.1 ?_
  simpa using List.mem_map_of_mem (f := Prod.fst) (List.mem_filter.1 h).1

/-- The name of the number is a key. -/
theorem isKey_seq : IsKey "seq" := by decide

/-- A key is read as it is. -/
theorem IsKey.reads {key : String} (h : IsKey key) : ReadsName endsKey key.toList key.toList :=
  readsName_self rfl h.2

/-- A key has no line break. -/
theorem IsKey.noBreak {key : String} (h : IsKey key) : '\n' ∉ key.toList := by
  intro hmem
  exact absurd (h.2 _ hmem).2 (by decide)

/-- A text that is not empty is not empty when it is cleaned. -/
theorem cleaned_ne_nil {s : String} (h : s ≠ "") : cleaned s ≠ [] := by
  intro heq
  refine h (String.toList_inj.1 ?_)
  rw [List.map_eq_nil_iff.1 heq]
  rfl

/-- The tags of a line are read as the tags that are not empty. -/
theorem readsTags (f : RecordFields) : List.Forall₂ ReadsTag ((tags f).map tagParts)
    ((tags f).map fun e => (e.1.toList, cleaned e.2)) := by
  rw [List.forall₂_map_left_iff, List.forall₂_map_right_iff, List.forall₂_same]
  intro e he
  have hkey := isKey_of_mem_tags he
  have hvalue : e.2 ≠ "" := by simpa using (List.mem_filter.1 he).2
  exact ⟨hkey.reads, readsName_escapeName (fun _ => endsKey_of_endsTable) e.2, hkey.1,
    cleaned_ne_nil hvalue⟩

/-- The text fields of a line are read as those that are not empty. -/
theorem readsStrings (f : RecordFields) :
    List.Forall₂ ReadsField ((strings record f).map stringParts)
      ((strings record f).map fun e => (e.1.toList, .string (cleaned e.2))) := by
  rw [List.forall₂_map_left_iff, List.forall₂_map_right_iff, List.forall₂_same]
  intro e he
  have hkey := isKey_of_mem_strings record he
  exact ⟨hkey.reads, readsValue_escapeString e.2, hkey.1⟩

/-- The number is read as it is. -/
theorem readsSeq (seq : ℤ) : ReadsField (seqParts seq) ("seq".toList, .integer seq) :=
  ⟨isKey_seq.reads, readsValue_integer seq, isKey_seq.1⟩

/-- No text of a record brings a line break into its line. -/
theorem noBreak_escapeName (s : String) : '\n' ∉ (escapeName s).toList := by
  rw [escapeName, String.toList_ofList]
  intro hmem
  obtain ⟨c, -, hc⟩ := List.mem_flatMap.1 hmem
  exact ne_break_of_mem_nameChar hc rfl

/-- A string has no line break behind the escape. -/
theorem noBreak_escapeString (s : String) : '\n' ∉ (escapeString s).toList := by
  rw [escapeString, String.toList_ofList]
  intro hmem
  obtain ⟨c, -, hc⟩ := List.mem_flatMap.1 hmem
  exact ne_break_of_mem_stringChar hc rfl

/-- A number has no line break. -/
theorem noBreak_toString (n : ℤ) : '\n' ∉ (toString n).toList := by
  intro hmem
  exact forall_mem_toString (P := (· ≠ '\n')) (by decide)
    (fun _ hd => (ne_of_isDigit hd).2.2.2) n _ hmem rfl

/-! ## Whole lines -/

/-- A name begins with a backslash or with the first character of its text. -/
theorem escapeName_cons {c : Char} {rest : Text} (h : table.toList = c :: rest) :
    (escapeName table).toList = nameChar c ++ rest.flatMap nameChar := by
  rw [escapeName, String.toList_ofList, h, List.flatMap_cons]

/-- How a line begins. -/
theorem head_nameChar (c : Char) :
    ∃ rest, nameChar c = '\\' :: rest ∨ c ≠ ' ' ∧ c ≠ '\n' ∧ nameChar c = c :: rest := by
  cases hspecial : isSpecial c with
  | true => exact ⟨[c], .inl (nameChar_of_isSpecial hspecial)⟩
  | false =>
    rw [nameChar_of_not_isSpecial hspecial]
    cases hcontrol : isControl c with
    | true => exact ⟨[' '], .inl rfl⟩
    | false =>
      refine ⟨[], .inr ⟨?_, ?_, rfl⟩⟩
      · rintro rfl
        exact absurd hspecial (by decide)
      · rintro rfl
        exact absurd hcontrol (by decide)

/-- A line whose table does not begin with `#` is one row, with the time it was given. -/
theorem parse_line (htable : table ≠ "") (hhash : table.toList.head? ≠ some '#') :
    parse (line x table record) =
      some [{ row x table record with timestamp := some (timestamp record) }] := by
  refine parse_rowText (readsName_escapeName (fun _ => endsKey_of_endsTable) table)
    (cleaned_ne_nil htable) (readsTags _) (readsSeq record.seq) (readsStrings record _)
    (timestamp record) (toList_line x table record) ?_
  intro d hd
  cases hlist : table.toList with
  | nil => exact absurd (String.toList_inj.1 (hlist.trans (by rfl))) htable
  | cons c rest =>
    rw [toList_line, rowText, escapeName_cons table hlist] at hd
    obtain ⟨rest', hslash | ⟨hblank, hbreak, hself⟩⟩ := head_nameChar c
    · rw [hslash] at hd
      obtain rfl : '\\' = d := by simpa using hd
      decide
    · rw [hself] at hd
      obtain rfl : c = d := by simpa using hd
      refine ⟨?_, hblank, hbreak⟩
      rintro rfl
      exact hhash (by rw [hlist]; rfl)

/-- A line whose table begins with `#` is a comment. -/
theorem parse_line_comment (hhash : table.toList.head? = some '#') :
    parse (line x table record) = some [] := by
  have htags : ∀ t ∈ (tags (fields x record)).map tagParts, '\n' ∉ t.1 ∧ '\n' ∉ t.2 := by
    intro t ht
    obtain ⟨e, he, rfl⟩ := List.mem_map.1 ht
    exact ⟨(isKey_of_mem_tags he).noBreak, noBreak_escapeName e.2⟩
  have hseq : '\n' ∉ (seqParts record.seq).1 ∧ '\n' ∉ (seqParts record.seq).2 := by
    refine ⟨isKey_seq.noBreak, fun hmem => ?_⟩
    rcases List.mem_append.1 hmem with hmem | hmem
    · exact noBreak_toString record.seq hmem
    · exact absurd (List.mem_singleton.1 hmem) (by decide)
  have hstrings : ∀ t ∈ (strings record (fields x record)).map stringParts,
      '\n' ∉ t.1 ∧ '\n' ∉ t.2 := by
    intro t ht
    obtain ⟨e, he, rfl⟩ := List.mem_map.1 ht
    refine ⟨(isKey_of_mem_strings record he).noBreak, ?_⟩
    simp [stringParts, noBreak_escapeString]
  obtain ⟨body, hbody, hbreak⟩ := rowText_break (noBreak_escapeName table) htags hseq hstrings
    (noBreak_toString (timestamp record))
  rw [← toList_line] at hbody
  cases hlist : table.toList with
  | nil => simp [hlist] at hhash
  | cons c rest =>
    obtain rfl : c = '#' := by simpa [hlist] using hhash
    rw [escapeName_cons table hlist] at hbody hbreak
    have hline : (line x table record).toList =
        '#' :: ((rest.flatMap nameChar ++ body) ++ ['\n']) := by
      refine hbody.trans ?_
      show '#' :: rest.flatMap nameChar ++ (body ++ ['\n']) = _
      simp
    exact parse_comment hline fun hmem => hbreak (List.mem_cons_of_mem _ hmem)

/-- A time that does not fit is written as the epoch. -/
theorem timestamp_eq_iff : timestamp record = record.entry.ts.nanos ↔ nanosFit record.entry.ts := by
  rw [timestamp]
  split_ifs with h
  · simp [h]
  · refine iff_of_false (fun heq => h ?_) h
    rw [nanosFit, ← heq]
    omega

/-- **A line is read as the row it is to say** exactly if its table does not begin with `#`, the
comment of the protocol, and its time fits into nanoseconds: all texts of the record stay inside
their tag or field. -/
theorem decodes_iff (htable : table ≠ "") :
    parse (line x table record) = some [row x table record] ↔
      table.toList.head? ≠ some '#' ∧ nanosFit record.entry.ts := by
  by_cases hhash : table.toList.head? = some '#'
  · rw [parse_line_comment x table record hhash]
    simp [hhash]
  · rw [parse_line x table record htable hhash, ← timestamp_eq_iff]
    simp [hhash, row]

/-- The record of a stop, and the texts of its parts. -/
def stopped : StoredRecord where
  seq := 7
  entry := ⟨⟨1700000000000000000⟩, none, none, .gatewayStopped⟩
  prevHash := "00"
  hash := "ff"

@[inherit_doc stopped] def stoppedTexts : TextCrates where
  time _ := "2023-11-14T22:13:20Z"
  json _ := "\x7b\"type\":\"gateway_stopped\"\x7d"

/-- A line that is read as its row. -/
theorem decodes_stopped : parse (line stoppedTexts "a b" stopped) =
    some [row stoppedTexts "a b" stopped] :=
  (decodes_iff stoppedTexts "a b" stopped (by decide)).2 ⟨by decide, by decide⟩

/-- Every line of a table that begins with `#` is lost. -/
theorem not_decodes_hash : parse (line stoppedTexts "#audit" stopped) = some [] ∧
    parse (line stoppedTexts "#audit" stopped) ≠ some [row stoppedTexts "#audit" stopped] := by
  have hcomment := parse_line_comment stoppedTexts "#audit" stopped (by decide)
  refine ⟨hcomment, ?_⟩
  rw [hcomment]
  simp

end Line

end AuditGateway
