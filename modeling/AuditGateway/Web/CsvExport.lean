import AuditGateway.Audit.Search
import AuditGateway.Export.Line
import AuditGateway.Lib.Csv

set_option relaxedAutoImplicit false
set_option autoImplicit false

/-!
# The trail as CSV

The export reads the records that match a filter page by page, newest first; every page begins where
the one before it ended. The trail may change between two pages: what is appended is newer than
everything read so far, and what is deleted is not missed. Texts of clients may hold anything, so
every cell but the number is in quotes, and one that a spreadsheet would take for a formula begins
with an apostrophe.

## Main definitions

* `csvField`, `csvRow` — the text of a cell and of a record.
* `auditCsv` — the export.
* `IsCell`, `IsRow` — what a row is to say about a record.
* `PagesRead` — the pages that an export reads.

## Main results

* `parse_csv` — the text of records is read as their rows.
* `PagesRead.listed`, `PagesRead.newestFirst` — which records are listed, and how.
* `auditCsv_lists` — the export is complete and well formed.
-/

namespace AuditGateway

/-! ## The text of a record -/

/-- The texts of other crates in a row: also that of the time of a record. -/
structure CsvCrates extends TextCrates where
  toRfc3339 : DateTime → String

/-- A spreadsheet may take the text for a formula. -/
def startsFormula (value : String) : Bool :=
  value.toList.head?.any fun c =>
    c = '=' || c = '+' || c = '-' || c = '@' || c = '\t' || c = '\r'

/-- Nothing, or the exponent of a number. -/
def isExponent : List Char → Bool
  | [] => true
  | e :: rest =>
    let digits :=
      match rest with
      | '+' :: digits => digits
      | '-' :: digits => digits
      | digits => digits
    (e = 'e' || e = 'E') && digits ≠ [] && digits.all Char.isDigit

/-- Digits with at most one point, at least one of them, and maybe an exponent. -/
def isNumber (text : List Char) : Bool :=
  let whole := text.takeWhile Char.isDigit
  match text.dropWhile Char.isDigit with
  | '.' :: rest =>
    (whole ≠ [] || rest.takeWhile Char.isDigit ≠ []) && isExponent (rest.dropWhile Char.isDigit)
  | rest => whole ≠ [] && isExponent rest

/-- The text is a number, `inf`, `infinity` or `nan`, with a sign or without. -/
def parsesF64 (value : String) : Bool :=
  let text :=
    match value.toList with
    | '+' :: text => text
    | '-' :: text => text
    | text => text
  isNumber text ||
    [['i', 'n', 'f'], ['i', 'n', 'f', 'i', 'n', 'i', 't', 'y'], ['n', 'a', 'n']].contains
      (text.map Char.toLower)

/-- Spreadsheet formulas are neutralised, but numbers (-3.5) are left as they are. -/
def neutralise (value : String) : String :=
  if startsFormula value && !parsesF64 value then "'" ++ value else value

/-- Everything in quotes. -/
def csvField (value : String) : String :=
  "\"" ++ String.ofList ((neutralise value).toList.flatMap Csv.quoteChar) ++ "\""

/-- The fields of a record behind its number. -/
def csvFields (x : CsvCrates) (record : StoredRecord) : List String :=
  let f := fields x.toTextCrates record
  [x.toRfc3339 record.entry.ts, f.target, f.kind, f.clientAddress, f.clientApplication, f.user,
    f.nodeId, f.displayName, f.oldValue, f.newValue, f.status, f.eventJson, record.hash]

/-- The sequence number is a plain number; everything else is quoted. -/
def csvRow (x : CsvCrates) (record : StoredRecord) : String :=
  ",".intercalate (toString record.seq :: (csvFields x record).map csvField) ++ "\n"

/-! ## The export -/

/-- The header of the list. -/
def csvHeader : String :=
  "seq,time,target,event,client_address,client_application,user," ++
    "node_id,display_name,old_value,new_value,status,details,hash\n"

section Export

variable (c : Crates) (sql : SqlFunctions) (x : CsvCrates) (dbs : ℕ → Database)

/-- The pages from number `i` on; `dbs i` is the database when it is read. -/
def auditCsvPages (i : ℕ) (q : AuditQuery) (out : String) (total : ℕ) : Except String String :=
  match query c sql (dbs i) q with
  | .error e => .error e
  | .ok page =>
    match page.getLast? with
    | none => .ok out
    | some last =>
      if page.length < 1000 ∨ 100000 ≤ total + page.length then
        .ok (page.foldl (fun out record => out ++ csvRow x record) out)
      else
        auditCsvPages (i + 1) { q with beforeSeq := some last.seq }
          (page.foldl (fun out record => out ++ csvRow x record) out) (total + page.length)
termination_by 100000 - total

/-- The filtered audit trail as CSV, newest first (up to 100 000 records). -/
def auditCsv (q : AuditQuery) : Except String String :=
  auditCsvPages c sql x dbs 0 { q with limit := some 1000 } csvHeader 0

end Export

/-! ## What it is to be -/

/-- A cell says what a field says, with an apostrophe in front of what starts like a formula and is
no number. -/
inductive IsCell (field : String) : String → Prop
  | same (h : startsFormula field → parsesF64 field) : IsCell field field
  | neutralised (hstarts : startsFormula field) (hnumber : ¬parsesF64 field) :
    IsCell field ("'" ++ field)

/-- The row of a record. -/
structure IsRow (x : CsvCrates) (record : StoredRecord) (row : List Csv.Text) : Prop where
  length : row.length = 14
  seq : row.head? = some (toString record.seq).toList
  cells : List.Forall₂ (fun field cell => IsCell field (String.ofList cell)) (csvFields x record)
    row.tail

/-- The names of the columns. -/
def csvColumns : List Csv.Text :=
  ["seq", "time", "target", "event", "client_address", "client_application", "user", "node_id",
    "display_name", "old_value", "new_value", "status", "details", "hash"].map String.toList

/-- The pages that an export reads from number `i` on, when `total` records were listed before. -/
inductive PagesRead (c : Crates) (sql : SqlFunctions) (dbs : ℕ → Database) :
    ℕ → AuditQuery → ℕ → List (List StoredRecord) → Prop
  | empty {i : ℕ} {q : AuditQuery} {total : ℕ} (h : query c sql (dbs i) q = .ok []) :
    PagesRead c sql dbs i q total [[]]
  | last {i : ℕ} {q : AuditQuery} {total : ℕ} {page : List StoredRecord}
      (h : query c sql (dbs i) q = .ok page)
      (hstop : page.length < 1000 ∨ 100000 ≤ total + page.length) :
    PagesRead c sql dbs i q total [page]
  | more {i : ℕ} {q : AuditQuery} {total : ℕ} {page : List StoredRecord} {last : StoredRecord}
      {pages : List (List StoredRecord)} (h : query c sql (dbs i) q = .ok page)
      (hlast : page.getLast? = some last)
      (hgo : ¬(page.length < 1000 ∨ 100000 ≤ total + page.length))
      (hrest : PagesRead c sql dbs (i + 1) { q with beforeSeq := some last.seq }
        (total + page.length) pages) :
    PagesRead c sql dbs i q total (page :: pages)

/-- What the pages of an export are to list. -/
structure ListsTrail (c : Crates) (sql : SqlFunctions) (dbs : ℕ → Database) (q : AuditQuery)
    (pages : List (List StoredRecord)) : Prop where
  /-- Newest first, and none twice. -/
  newestFirst : pages.flatten.Pairwise fun a b => b.seq < a.seq
  length_le : pages.flatten.length ≤ 100000
  /-- Every record was in the trail when a page was read, and passes the filters. -/
  sound : ∀ record ∈ pages.flatten, ∃ i < pages.length, ∃ row ∈ (dbs i).audit.rows,
    q.selects c sql row ∧ row.stored c = .ok record
  /-- What passes the filters and is there for all pages is listed, unless newer records fill the
  limit. -/
  complete : ∀ row : Row, (∀ i < pages.length, row ∈ (dbs i).audit.rows) → q.selects c sql row →
    (∃ record ∈ pages.flatten, row.stored c = .ok record) ∨
      pages.flatten.length = 100000 ∧ ∀ record ∈ pages.flatten, row.seq < record.seq

/-! ## Rows -/

/-- The cells of a row. -/
def csvCells (x : CsvCrates) (record : StoredRecord) : List Csv.Text :=
  (toString record.seq).toList :: (csvFields x record).map fun field => (neutralise field).toList

/-- A field is neutralised as cells are. -/
theorem isCell_neutralise (field : String) : IsCell field (neutralise field) := by
  unfold neutralise
  split_ifs with h
  · rw [Bool.and_eq_true, Bool.not_eq_true'] at h
    exact .neutralised h.1 (by simp [h.2])
  · rw [Bool.and_eq_true, Bool.not_eq_true', not_and, Bool.not_eq_false] at h
    exact .same h

/-- The cells of a row are those of its record. -/
theorem isRow_csvCells (x : CsvCrates) (record : StoredRecord) :
    IsRow x record (csvCells x record) where
  length := rfl
  seq := rfl
  cells := by
    rw [csvCells, List.tail_cons, List.forall₂_map_right_iff, List.forall₂_same]
    intro field _
    rw [String.ofList_toList]
    exact isCell_neutralise field

/-- A field is a quoted, neutralised text. -/
theorem toList_csvField (value : String) :
    (csvField value).toList = Csv.quote (neutralise value).toList := by
  rw [csvField, Csv.quote, String.toList_append, String.toList_append, String.toList_ofList,
    String.toList_ofList, List.append_assoc, List.singleton_append]

/-- A field is read back as its neutralised text. -/
theorem readsCell_csvField (value : String) :
    Csv.ReadsCell (csvField value).toList (neutralise value).toList := by
  rw [toList_csvField]
  exact Csv.readsCell_quote _

/-- Digits need no quotes. -/
theorem isPlain_of_isDigit {c : Char} (h : c.isDigit) : Csv.isPlain c := by
  have hne : ∀ d : Char, d.isDigit = false → c ≠ d := by
    rintro d hd rfl
    rw [h] at hd
    cases hd
  simp [Csv.isPlain, hne]

/-- A number is read back as its text. -/
theorem readsCell_seq (n : ℤ) : Csv.ReadsCell (toString n).toList (toString n).toList := by
  refine Csv.readsCell_plain (List.all_eq_true.2 fun c hc => ?_)
  exact LineProtocol.forall_mem_toString (P := fun c => Csv.isPlain c = true) (by decide)
    (fun _ hd => isPlain_of_isDigit hd) n c hc

/-- The texts of the cells of a row. -/
def csvTexts (x : CsvCrates) (record : StoredRecord) : List Csv.Text :=
  (toString record.seq).toList :: (csvFields x record).map fun field => (csvField field).toList

/-- A row is the text of its fields. -/
theorem toList_csvRow (x : CsvCrates) (record : StoredRecord) :
    (csvRow x record).toList = Csv.rowText (csvTexts x record) := by
  unfold csvRow Csv.rowText csvTexts
  rw [String.toList_append, String.toList_intercalate, List.map_cons, List.map_map]
  rfl

/-- A row is read back as its cells. -/
theorem readsRow_csvTexts (x : CsvCrates) (record : StoredRecord) :
    Csv.ReadsRow (csvTexts x record) (csvCells x record) := by
  refine ⟨nofun, .cons (readsCell_seq record.seq) ?_⟩
  rw [List.forall₂_map_left_iff, List.forall₂_map_right_iff, List.forall₂_same]
  exact fun field _ => readsCell_csvField field

/-- The header is the text of its columns. -/
theorem toList_csvHeader : csvHeader.toList = Csv.rowText csvColumns := by
  decide +kernel

/-- The header is read back as its columns. -/
theorem readsRow_csvColumns : Csv.ReadsRow csvColumns csvColumns := by
  refine ⟨nofun, List.forall₂_same.2 fun column hcolumn => Csv.readsCell_plain ?_⟩
  have hall : csvColumns.all fun column => column.all Csv.isPlain := by decide +kernel
  exact List.all_eq_true.1 hall column hcolumn

/-- **The text of records** is read as the names of the columns and the rows of the records. -/
theorem parse_csv (x : CsvCrates) (records : List StoredRecord) :
    Csv.parse (csvHeader.toList ++ records.flatMap fun record => (csvRow x record).toList) =
      some (csvColumns :: records.map (csvCells x)) := by
  have htext : csvHeader.toList ++ records.flatMap (fun record => (csvRow x record).toList) =
      (csvColumns :: records.map (csvTexts x)).flatMap Csv.rowText := by
    rw [List.flatMap_cons, toList_csvHeader, List.flatMap_map]
    simp only [toList_csvRow]
  rw [htext]
  refine Csv.parse_rows (.cons readsRow_csvColumns ?_)
  rw [List.forall₂_map_left_iff, List.forall₂_map_right_iff, List.forall₂_same]
  exact fun record _ => readsRow_csvTexts x record

/-! ## A page -/

section Page

variable {c : Crates} {sql : SqlFunctions} {db : Database} {q : AuditQuery}
  {page : List StoredRecord}

/-- The rows of a page: the newest ones that pass the filters. -/
theorem query_eq (hlimit : q.limit = some 1000) : query c sql db q =
    storedRecords c (((db.audit.rows.filter (q.selects c sql)).reverse).take 1000) := by
  unfold query
  rw [hlimit]
  rfl

/-- A page is newest first. -/
theorem pairwise_page (h : query c sql db q = .ok page) :
    page.Pairwise fun a b => b.seq < a.seq := by
  have hseq := map_seq_storedRecords h
  have hsorted : (page.map (·.seq)).Pairwise (· > ·) := by
    rw [hseq, List.pairwise_map]
    have hrows := (db.audit.sorted.filter (q.selects c sql))
    exact (List.pairwise_reverse.2 hrows).sublist (List.take_sublist _ _)
  exact List.pairwise_map.1 hsorted

/-- What a page lists is in the trail and passes the filters. -/
theorem mem_page (h : query c sql db q = .ok page) {record : StoredRecord} (hr : record ∈ page) :
    ∃ row ∈ db.audit.rows, q.selects c sql row ∧ row.stored c = .ok record := by
  obtain ⟨row, hrow, hstored⟩ := (mem_storedRecords h).1 hr
  obtain ⟨hmem, hselects⟩ := List.mem_filter.1 (List.mem_reverse.1 (List.mem_of_mem_take hrow))
  exact ⟨row, hmem, hselects, hstored⟩

/-- What passes the filters is listed, or the page is full of newer records. -/
theorem listed_or_newer (hlimit : q.limit = some 1000) (h : query c sql db q = .ok page)
    {row : Row} (hrow : row ∈ db.audit.rows) (hselects : q.selects c sql row) :
    (∃ record ∈ page, row.stored c = .ok record) ∨
      page.length = 1000 ∧ ∀ record ∈ page, row.seq < record.seq := by
  rw [query_eq hlimit] at h
  have hsorted : (db.audit.rows.filter (q.selects c sql)).reverse.Pairwise
      fun a b => b.seq < a.seq := List.pairwise_reverse.2 (db.audit.sorted.filter _)
  have hfound : row ∈ (db.audit.rows.filter (q.selects c sql)).reverse :=
    List.mem_reverse.2 (List.mem_filter.2 ⟨hrow, hselects⟩)
  generalize (db.audit.rows.filter (q.selects c sql)).reverse = found at h hsorted hfound
  rw [← List.take_append_drop 1000 found, List.mem_append] at hfound
  rcases hfound with hfound | hfound
  · exact .inl (exists_stored_of_storedRecords h hfound)
  · have hlength := congrArg List.length (map_seq_storedRecords h)
    rw [List.length_map, List.length_map, List.length_take] at hlength
    have hdrop := List.length_pos_of_mem hfound
    rw [List.length_drop] at hdrop
    refine .inr ⟨by omega, fun record hrecord => ?_⟩
    obtain ⟨row', hrow', hstored⟩ := (mem_storedRecords h).1 hrecord
    rw [← List.take_append_drop 1000 found, List.pairwise_append] at hsorted
    rw [Row.seq_of_stored hstored]
    exact hsorted.2.2 row' hrow' row hfound

/-- A page has at most a thousand records. -/
theorem length_page_le (hlimit : q.limit = some 1000) (h : query c sql db q = .ok page) :
    page.length ≤ 1000 := by
  rw [query_eq hlimit] at h
  have hlength := congrArg List.length (map_seq_storedRecords h)
  rw [List.length_map, List.length_map, List.length_take] at hlength
  omega

/-- The last record of a page is its oldest. -/
theorem last_le (h : query c sql db q = .ok page) {last record : StoredRecord}
    (hlast : page.getLast? = some last) (hr : record ∈ page) : last.seq ≤ record.seq := by
  obtain ⟨init, rfl⟩ := List.getLast?_eq_some_iff.1 hlast
  rcases List.mem_append.1 hr with hr | hr
  · exact ((List.pairwise_append.1 (pairwise_page h)).2.2 record hr last (by simp)).le
  · rw [List.mem_singleton.1 hr]

/-- The next page begins lower than this one. -/
theorem selects_next (h : query c sql db q = .ok page) {last : StoredRecord}
    (hlast : page.getLast? = some last) (row : Row) :
    ({ q with beforeSeq := some last.seq } : AuditQuery).selects c sql row ↔
      q.selects c sql row ∧ row.seq < last.seq := by
  refine AuditQuery.selects_before (fun before hbefore => ?_) row
  obtain ⟨row', -, hselects, hstored⟩ := mem_page h (List.mem_of_getLast? hlast)
  rw [Row.seq_of_stored hstored]
  exact (AuditQuery.lt_before hselects hbefore).le

end Page

/-! ## Page by page -/

section Pages

variable {c : Crates} {sql : SqlFunctions} {dbs : ℕ → Database} {i total : ℕ} {q : AuditQuery}
  {pages : List (List StoredRecord)}

/-- What is listed was in the trail when its page was read, and passes the filters. -/
theorem PagesRead.sound (h : PagesRead c sql dbs i q total pages) {record : StoredRecord}
    (hr : record ∈ pages.flatten) : ∃ j < pages.length, ∃ row ∈ (dbs (i + j)).audit.rows,
      q.selects c sql row ∧ row.stored c = .ok record := by
  induction h with
  | empty h => cases hr
  | last h hstop =>
    rw [List.flatten_singleton] at hr
    exact ⟨0, Nat.one_pos, mem_page h hr⟩
  | more h hlast hgo hrest ih =>
    rw [List.flatten_cons, List.mem_append] at hr
    rcases hr with hr | hr
    · exact ⟨0, Nat.succ_pos _, mem_page h hr⟩
    · obtain ⟨j, hj, row, hrow, hselects, hstored⟩ := ih hr
      refine ⟨j + 1, Nat.succ_lt_succ hj, row, ?_, ((selects_next h hlast row).1 hselects).1,
        hstored⟩
      rwa [Nat.add_right_comm] at hrow

/-- The records come newest first, over all pages, and none comes twice. -/
theorem PagesRead.newestFirst (h : PagesRead c sql dbs i q total pages) :
    pages.flatten.Pairwise fun a b => b.seq < a.seq := by
  induction h with
  | empty h => exact List.Pairwise.nil
  | last h hstop =>
    rw [List.flatten_singleton]
    exact pairwise_page h
  | more h hlast hgo hrest ih =>
    rw [List.flatten_cons, List.pairwise_append]
    refine ⟨pairwise_page h, ih, fun a ha b hb => ?_⟩
    obtain ⟨j, -, row, -, hselects, hstored⟩ := hrest.sound hb
    rw [Row.seq_of_stored hstored]
    exact ((selects_next h hlast row).1 hselects).2.trans_le (last_le h hlast ha)

/-- Full pages fill the limit exactly. -/
theorem PagesRead.length_le (h : PagesRead c sql dbs i q total pages)
    (hlimit : q.limit = some 1000) (hfull : 1000 ∣ total) (htotal : total < 100000) :
    total + pages.flatten.length ≤ 100000 := by
  induction h with
  | empty h => exact htotal.le
  | last h hstop =>
    have hpage := length_page_le hlimit h
    rw [List.flatten_singleton]
    omega
  | more h hlast hgo hrest ih =>
    have hpage := length_page_le hlimit h
    have hrest := ih hlimit (by omega) (by omega)
    rw [List.flatten_cons, List.length_append]
    omega

/-- What passes the filters and stays in the trail is listed, or newer records fill the limit. -/
theorem PagesRead.listed (h : PagesRead c sql dbs i q total pages) (hlimit : q.limit = some 1000)
    {row : Row} (hrow : ∀ j < pages.length, row ∈ (dbs (i + j)).audit.rows)
    (hselects : q.selects c sql row) :
    (∃ record ∈ pages.flatten, row.stored c = .ok record) ∨
      100000 ≤ total + pages.flatten.length ∧ ∀ record ∈ pages.flatten, row.seq < record.seq := by
  induction h with
  | empty h =>
    rcases listed_or_newer hlimit h (hrow 0 Nat.one_pos) hselects with ⟨record, hr, -⟩ | ⟨hfull, -⟩
    · cases hr
    · cases hfull
  | last h hstop =>
    rw [List.flatten_singleton]
    refine (listed_or_newer hlimit h (hrow 0 Nat.one_pos) hselects).imp_right ?_
    rintro ⟨hfull, hnewer⟩
    exact ⟨by omega, hnewer⟩
  | more h hlast hgo hrest ih =>
    rw [List.flatten_cons]
    rcases listed_or_newer hlimit h (hrow 0 (Nat.succ_pos _)) hselects with
      ⟨record, hr, hstored⟩ | ⟨-, hnewer⟩
    · exact .inl ⟨record, List.mem_append_left _ hr, hstored⟩
    · have hnext := (selects_next h hlast row).2 ⟨hselects, hnewer _ (List.mem_of_getLast? hlast)⟩
      have hlater : ∀ j < _, row ∈ (dbs (_ + 1 + j)).audit.rows := fun j hj => by
        rw [Nat.add_right_comm]
        exact hrow (j + 1) (Nat.succ_lt_succ hj)
      rcases ih hlimit hlater hnext with ⟨record, hr, hstored⟩ | ⟨hfull, hrest⟩
      · exact .inl ⟨record, List.mem_append_right _ hr, hstored⟩
      · rw [List.length_append]
        exact .inr ⟨by omega, List.forall_mem_append.2 ⟨hnewer, hrest⟩⟩

end Pages

/-! ## The export -/

/-- The text behind a page. -/
theorem toList_foldl_csvRow (x : CsvCrates) (page : List StoredRecord) (out : String) :
    (page.foldl (fun out record => out ++ csvRow x record) out).toList =
      out.toList ++ page.flatMap fun record => (csvRow x record).toList := by
  induction page generalizing out with
  | nil => rw [List.foldl_nil, List.flatMap_nil, List.append_nil]
  | cons record page ih =>
    rw [List.foldl_cons, ih, String.toList_append, List.flatMap_cons, List.append_assoc]

section Export

variable (c : Crates) (sql : SqlFunctions) (x : CsvCrates) (dbs : ℕ → Database)

/-- The export writes the rows of the pages it reads, or fails on a record. -/
theorem auditCsvPages_spec (i : ℕ) (q : AuditQuery) (out : String) (total : ℕ) :
    match auditCsvPages c sql x dbs i q out total with
    | .error e => ∃ j, ∃ row ∈ (dbs j).audit.rows, row.stored c = .error e
    | .ok text => ∃ pages, PagesRead c sql dbs i q total pages ∧
        text.toList = out.toList ++ pages.flatten.flatMap fun record =>
          (csvRow x record).toList := by
  fun_induction auditCsvPages c sql x dbs i q out total with
  | case1 i q out total e h =>
    obtain ⟨row, hrow, herror⟩ := exists_error_of_storedRecords h
    exact ⟨i, row, List.mem_of_mem_filter (List.mem_reverse.1 (List.mem_of_mem_take hrow)), herror⟩
  | case2 i q out total page h hlast =>
    rw [List.getLast?_eq_none_iff] at hlast
    subst hlast
    exact ⟨[[]], .empty h, by simp⟩
  | case3 i q out total page h last hlast hstop =>
    refine ⟨[page], .last h hstop, ?_⟩
    rw [toList_foldl_csvRow, List.flatten_singleton]
  | case4 i q out total page h last hlast hgo ih =>
    split at ih
    · exact ih
    · obtain ⟨pages, hpages, htext⟩ := ih
      refine ⟨page :: pages, .more h hlast hgo hpages, ?_⟩
      rw [htext, toList_foldl_csvRow, List.flatten_cons, List.flatMap_append, List.append_assoc]

variable {c sql dbs} in
/-- The pages that an export reads from the first one on. -/
theorem PagesRead.listsTrail {q : AuditQuery} {pages : List (List StoredRecord)}
    (h : PagesRead c sql dbs 0 { q with limit := some 1000 } 0 pages) :
    ListsTrail c sql dbs q pages where
  newestFirst := h.newestFirst
  length_le := by
    have hle := h.length_le rfl (Nat.dvd_zero _) (by decide)
    rwa [Nat.zero_add] at hle
  sound := fun record hr => by
    obtain ⟨i, hi, row, hrow, hfound⟩ := h.sound hr
    rw [Nat.zero_add] at hrow
    exact ⟨i, hi, row, hrow, hfound⟩
  complete := fun row hrow hselects => by
    have hle := h.length_le rfl (Nat.dvd_zero _) (by decide)
    refine (h.listed rfl (fun i hi => ?_) hselects).imp_right fun ⟨hfull, hnewer⟩ => ?_
    · rw [Nat.zero_add]
      exact hrow i hi
    · exact ⟨by omega, hnewer⟩

/-- **The export is complete and well formed.** Whatever happens to the trail between two pages, the
text that comes out lists the newest records that pass the filters, each in a row of its own whose
cells say what the fields of the record say. Without a text there is a record that cannot be
read. -/
theorem auditCsv_lists (q : AuditQuery) :
    match auditCsv c sql x dbs q with
    | .error e => ∃ i, ∃ row ∈ (dbs i).audit.rows, row.stored c = .error e
    | .ok text => ∃ pages, PagesRead c sql dbs 0 { q with limit := some 1000 } 0 pages ∧
        ListsTrail c sql dbs q pages ∧
        ∃ rows, Csv.parse text.toList = some (csvColumns :: rows) ∧
          List.Forall₂ (IsRow x) pages.flatten rows := by
  have hspec := auditCsvPages_spec c sql x dbs 0 { q with limit := some 1000 } csvHeader 0
  unfold auditCsv
  split at hspec
  · exact hspec
  · obtain ⟨pages, hpages, htext⟩ := hspec
    refine ⟨pages, hpages, hpages.listsTrail, pages.flatten.map (csvCells x), ?_, ?_⟩
    · rw [htext]
      exact parse_csv x pages.flatten
    · rw [List.forall₂_map_right_iff, List.forall₂_same]
      exact fun record _ => isRow_csvCells x record

end Export

end AuditGateway
