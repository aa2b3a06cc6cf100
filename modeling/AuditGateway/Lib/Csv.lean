import Mathlib.Data.List.Forall2
import Mathlib.Tactic.Common

set_option relaxedAutoImplicit false
set_option autoImplicit false

/-!
# Comma-separated values

A text of rows, each on a line of its own, with commas between the cells of a row. A cell may stand
in double quotes, and then holds any characters, with every quote doubled; else it has no commas,
quotes and line breaks. A line break is CR LF or, as many writers have it, LF alone; the last row
may have one or not.

## Main definitions

* `parse` — the rows of a text.
* `ReadsCell` — a text that is read as a cell, whatever comes behind it.
* `quote`, `rowText` — a cell in quotes, and a row put together from cells.

## Main results

* `readsCell_quote`, `readsCell_plain` — cells with and without quotes.
* `parse_rows` — the rows of a text that was put together from cells.
-/

namespace AuditGateway.Csv

/-- A text, character by character. -/
abbrev Text := List Char

/-! ## The reader -/

/-- Where a reader is in a cell. -/
inductive Place
  /-- Before it. -/
  | start
  | plain
  | quoted
  /-- Behind a quote, which ends the cell if it is not doubled. -/
  | closed
  /-- Behind a CR. -/
  | returned
  deriving DecidableEq

/-- Reads on, with what was read of the cell and of the row. -/
def scan : Place → Text → List Text → Text → Option (List (List Text))
  | place, cell, row, [] =>
    match place with
    | .quoted => none
    | .returned => none
    -- behind the last line break there is no row
    | .start => if row = [] then some [] else some [row ++ [cell]]
    | .plain => some [row ++ [cell]]
    | .closed => some [row ++ [cell]]
  | place, cell, row, c :: rest =>
    if place = .quoted then
      if c = '"' then scan .closed cell row rest else scan .quoted (cell ++ [c]) row rest
    else if c = '\n' then (scan .start [] [] rest).map fun rows => (row ++ [cell]) :: rows
    else if place = .returned then none
    else if c = '\r' then scan .returned cell row rest
    else if c = ',' then scan .start [] (row ++ [cell]) rest
    else if c = '"' then
      if place = .start then scan .quoted cell row rest
      else if place = .closed then scan .quoted (cell ++ [c]) row rest
      else none
    else if place = .closed then none
    else scan .plain (cell ++ [c]) row rest

/-- The rows of a text. -/
def parse (text : Text) : Option (List (List Text)) := scan .start [] [] text

/-! ## Cells -/

/-- A cell may end here. -/
def Place.Ends (place : Place) : Prop := place ≠ .quoted ∧ place ≠ .returned

/-- The text is read as a cell with this value, whatever comes behind it. -/
def ReadsCell (text value : Text) : Prop :=
  ∃ place : Place, place.Ends ∧
    ∀ row rest, scan .start [] row (text ++ rest) = scan place value row rest

/-- A character that needs no quotes. -/
def isPlain (c : Char) : Bool := c ≠ ',' && c ≠ '"' && c ≠ '\r' && c ≠ '\n'

/-- A character in quotes. -/
def quoteChar (c : Char) : Text := if c = '"' then ['"', '"'] else [c]

/-- A cell in quotes. -/
def quote (value : Text) : Text := '"' :: (value.flatMap quoteChar ++ ['"'])

/-- A cell can end where it begins. -/
theorem ends_start : Place.start.Ends := ⟨nofun, nofun⟩

/-- A cell can end in plain text. -/
theorem ends_plain : Place.plain.Ends := ⟨nofun, nofun⟩

/-- A cell can end behind the closing quote. -/
theorem ends_closed : Place.closed.Ends := ⟨nofun, nofun⟩

/-- A comma ends a cell. -/
theorem scan_comma {place : Place} (h : place.Ends) (cell : Text) (row : List Text) (rest : Text) :
    scan place cell row (',' :: rest) = scan .start [] (row ++ [cell]) rest := by
  rw [scan, if_neg h.1, if_neg (by decide), if_neg h.2, if_neg (by decide), if_pos rfl]

/-- A line break ends a row. -/
theorem scan_break {place : Place} (h : place.Ends) (cell : Text) (row : List Text) (rest : Text) :
    scan place cell row ('\n' :: rest) =
      (scan .start [] [] rest).map fun rows => (row ++ [cell]) :: rows := by
  rw [scan, if_neg h.1, if_pos rfl]

/-- A plain character is part of the cell. -/
theorem scan_plain {place : Place} (h : place.Ends) (hclosed : place ≠ .closed) {c : Char}
    (hc : isPlain c) (cell : Text) (row : List Text) (rest : Text) :
    scan place cell row (c :: rest) = scan .plain (cell ++ [c]) row rest := by
  simp only [isPlain, Bool.and_eq_true, decide_eq_true_eq] at hc
  obtain ⟨⟨⟨hcomma, hquote⟩, hreturn⟩, hbreak⟩ := hc
  rw [scan, if_neg h.1, if_neg hbreak, if_neg h.2, if_neg hreturn, if_neg hcomma, if_neg hquote,
    if_neg hclosed]

/-- Plain characters are read as they are. -/
theorem scan_plains {text : Text} (h : text.all isPlain) (cell : Text) (row : List Text)
    (rest : Text) : scan .plain cell row (text ++ rest) = scan .plain (cell ++ text) row rest := by
  induction text generalizing cell with
  | nil => rw [List.nil_append, List.append_nil]
  | cons c text ih =>
    rw [List.all_cons, Bool.and_eq_true] at h
    rw [List.cons_append, scan_plain ends_plain nofun h.1, ih h.2, List.append_assoc]
    rfl

/-- A plain text is read as it is. -/
theorem readsCell_plain {text : Text} (h : text.all isPlain) : ReadsCell text text := by
  cases text with
  | nil => exact ⟨.start, ends_start, fun _ _ => rfl⟩
  | cons c text =>
    rw [List.all_cons, Bool.and_eq_true] at h
    refine ⟨.plain, ends_plain, fun row rest => ?_⟩
    rw [List.cons_append, scan_plain ends_start nofun h.1, scan_plains h.2]
    rfl

/-- Inside quotes every character is read as it is, and a doubled quote as one. -/
theorem scan_quoted (value : Text) (cell : Text) (row : List Text) (rest : Text) :
    scan .quoted cell row (value.flatMap quoteChar ++ rest) =
      scan .quoted (cell ++ value) row rest := by
  induction value generalizing cell with
  | nil => rw [List.flatMap_nil, List.nil_append, List.append_nil]
  | cons c value ih =>
    rw [List.flatMap_cons, List.append_assoc]
    have hone : ∀ rest, scan .quoted cell row (quoteChar c ++ rest) =
        scan .quoted (cell ++ [c]) row rest := by
      intro rest
      unfold quoteChar
      split_ifs with hquote
      · subst hquote
        simp [scan]
      · simp [scan, hquote]
    rw [hone, ih, List.append_assoc]
    rfl

/-- A quoted text is read as what was quoted. -/
theorem readsCell_quote (value : Text) : ReadsCell (quote value) value := by
  refine ⟨.closed, ends_closed, fun row rest => ?_⟩
  have hopen : ∀ rest, scan .start [] row ('"' :: rest) = scan .quoted [] row rest := by
    intro rest
    simp [scan]
  have hclose : ∀ cell rest, scan .quoted cell row ('"' :: rest) = scan .closed cell row rest := by
    intro cell rest
    simp [scan]
  unfold quote
  rw [List.cons_append, hopen, List.append_assoc, scan_quoted, List.nil_append]
  exact hclose value rest

/-! ## Rows -/

/-- A row put together from the texts of its cells. -/
def rowText (cells : List Text) : Text := [','].intercalate cells ++ ['\n']

/-- The cells of a row are read one after the other, up to the line break. -/
theorem scan_cells {text value : Text} {texts values : List Text}
    (h : List.Forall₂ ReadsCell (text :: texts) (value :: values)) (row : List Text)
    (rest : Text) : scan .start [] row ([','].intercalate (text :: texts) ++ '\n' :: rest) =
      (scan .start [] [] rest).map fun rows => (row ++ value :: values) :: rows := by
  induction texts generalizing text value values row with
  | nil =>
    obtain ⟨⟨place, hends, hreads⟩, hnil⟩ := List.forall₂_cons.1 h
    obtain rfl := List.forall₂_nil_left_iff.1 hnil
    have hone : [','].intercalate [text] = text := by simp [List.intercalate]
    rw [hone, hreads, scan_break hends]
  | cons text' texts ih =>
    obtain ⟨⟨place, hends, hreads⟩, htexts⟩ := List.forall₂_cons.1 h
    obtain ⟨value', values', hvalue', hvalues', rfl⟩ := List.forall₂_cons_left_iff.1 htexts
    have hmore : [','].intercalate (text :: text' :: texts) =
        text ++ ',' :: [','].intercalate (text' :: texts) := by
      simp [List.intercalate]
    rw [hmore, List.append_assoc, List.cons_append, hreads, scan_comma hends,
      ih (List.forall₂_cons.2 ⟨hvalue', hvalues'⟩), List.append_assoc]
    rfl

/-- A row of cells. -/
def ReadsRow (texts values : List Text) : Prop := texts ≠ [] ∧ List.Forall₂ ReadsCell texts values

/-- **The rows of a text** that was put together from cells are these cells. -/
theorem parse_rows {rows values : List (List Text)} (h : List.Forall₂ ReadsRow rows values) :
    parse (rows.flatMap rowText) = some values := by
  unfold parse
  induction h with
  | nil => rfl
  | cons hrow _ ih =>
    obtain ⟨hne, hcells⟩ := hrow
    cases hcells with
    | nil => exact absurd rfl hne
    | cons hcell hcells =>
      rw [List.flatMap_cons, rowText, List.append_assoc, List.singleton_append,
        scan_cells (.cons hcell hcells), ih]
      rfl

example : parse "a,\"b \"\"c\"\", d\r\n\"\n\r\ne,\"".toList = none := by decide

example : parse "a,\"b \"\"c\"\", d\"\r\n,\"x\ny\"".toList =
    some [["a".toList, "b \"c\", d".toList], ["".toList, "x\ny".toList]] := by decide

end AuditGateway.Csv
