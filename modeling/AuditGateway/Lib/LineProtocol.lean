import Mathlib.Data.Int.Order.Basic
import Mathlib.Data.List.Forall2
import Mathlib.Tactic.Common

set_option relaxedAutoImplicit false
set_option autoImplicit false

/-!
# The InfluxDB line protocol

A text of the protocol is a list of rows, one a line: a table, tags, fields and a time. A backslash
escapes what ends a name (a comma, a blank, an equals sign) and itself; text values are in double
quotes, where it escapes the quote and itself. A line that begins with `#` is a comment.

## Main definitions

* `Row`, `FieldValue` — what a line says.
* `parse` — the rows of a text.
* `ReadsName`, `ReadsString`, `ReadsValue` — texts that are read as a name, the inside of a string
  or a value, whatever comes behind them.
* `rowText` — a line put together from such texts.

## Main results

* `readsName_flatMap`, `readsString_flatMap` — texts that are escaped character by character.
* `parse_rowText` — a line put together is one row.
* `parse_comment` — a comment is no row.
-/

namespace AuditGateway.LineProtocol

/-- A text, character by character. -/
abbrev Text := List Char

/-- The value of a field. -/
inductive FieldValue
  | integer (n : ℤ)
  | string (s : Text)
  /-- A float or a truth value. -/
  | other (token : Text)
  deriving DecidableEq

/-- What a line says. -/
structure Row where
  table : Text
  tags : List (Text × Text)
  fields : List (Text × FieldValue)
  timestamp : Option ℤ
  deriving DecidableEq

/-! ## The grammar -/

/-- What a backslash escapes in a name. -/
def isSpecial (c : Char) : Bool := c = ',' || c = '=' || c = ' ' || c = '\\'

/-- What ends a table. -/
def endsTable (c : Char) : Bool := c = ',' || c = ' ' || c = '\n'

/-- What ends a tag value. -/
abbrev endsTag : Char → Bool := endsTable

/-- What ends the key of a tag or field. -/
def endsKey (c : Char) : Bool := c = '=' || c = ',' || c = ' ' || c = '\n'

/-- A name up to what ends it, and the rest. -/
def scanName (ends : Char → Bool) : Text → Text × Text
  | [] => ([], [])
  | '\\' :: d :: rest =>
    if isSpecial d then
      let found := scanName ends rest
      (d :: found.1, found.2)
    else
      let found := scanName ends (d :: rest)
      ('\\' :: found.1, found.2)
  | c :: rest =>
    if ends c then ([], c :: rest)
    else
      let found := scanName ends rest
      (c :: found.1, found.2)

/-- The inside of a string, and what is behind the quote that ends it. -/
def scanString : Text → Option (Text × Text)
  | [] => none
  | '"' :: rest => some ([], rest)
  | '\\' :: d :: rest =>
    if d = '"' ∨ d = '\\' then (scanString rest).map fun found => (d :: found.1, found.2)
    else (scanString (d :: rest)).map fun found => ('\\' :: found.1, found.2)
  | c :: rest => (scanString rest).map fun found => (c :: found.1, found.2)

/-- A number in decimal digits. -/
def readNat (digits : Text) : Option ℕ :=
  if digits ≠ [] ∧ digits.all Char.isDigit then some (Nat.ofDigitChars 10 digits 0) else none

/-- A whole number, with its sign. -/
def readInt : Text → Option ℤ
  | '-' :: digits => (readNat digits).map fun n => -(n : ℤ)
  | digits => (readNat digits).map Int.ofNat

/-- A value without quotes: an integer ends with `i`. -/
def readToken (token : Text) : FieldValue :=
  if token.getLast? = some 'i' then
    match readInt token.dropLast with
    | some n => .integer n
    | none => .other token
  else .other token

/-- The value of a field, and the rest. -/
def scanValue : Text → Option (FieldValue × Text)
  | '"' :: rest => (scanString rest).map fun found => (.string found.1, found.2)
  | input =>
    let token := input.takeWhile (!endsTable ·)
    if token = [] then none else some (readToken token, input.dropWhile (!endsTable ·))

/-- Tags up to the blank before the fields. `fuel` bounds their number. -/
def parseTags : ℕ → Text → Option (List (Text × Text) × Text)
  | fuel + 1, ',' :: rest =>
    match scanName endsKey rest with
    | (key, '=' :: rest) =>
      let value := scanName endsTag rest
      if key = [] ∨ value.1 = [] then none
      else (parseTags fuel value.2).map fun found => ((key, value.1) :: found.1, found.2)
    | _ => none
  | 0, ',' :: _ => none
  | _, rest => some ([], rest)

/-- One field, and the rest. -/
def parseField (input : Text) : Option ((Text × FieldValue) × Text) :=
  match scanName endsKey input with
  | (key, '=' :: rest) =>
    if key = [] then none else (scanValue rest).map fun found => ((key, found.1), found.2)
  | _ => none

/-- Fields up to the blank before the time. `fuel` bounds their number. -/
def parseFields : ℕ → Text → Option (List (Text × FieldValue) × Text)
  | 0, _ => none
  | fuel + 1, input =>
    match parseField input with
    | some (field, ',' :: rest) =>
      (parseFields fuel rest).map fun found => (field :: found.1, found.2)
    | some (field, rest) => some ([field], rest)
    | none => none

/-- The time, if there is one, up to the end of the line. -/
def parseTime : Text → Option (Option ℤ × Text)
  | ' ' :: rest =>
    (readInt (rest.takeWhile (· ≠ '\n'))).map fun n => (some n, rest.dropWhile (· ≠ '\n'))
  | rest => some (none, rest)

/-- A row, and what is behind its line. -/
def parseRow (input : Text) : Option (Row × Text) :=
  let table := scanName endsTable input
  if table.1 = [] then none
  else
    match parseTags input.length table.2 with
    | some (tags, ' ' :: rest) =>
      match parseFields input.length rest with
      | some (fields, rest) =>
        match parseTime rest with
        | some (timestamp, []) => some (⟨table.1, tags, fields, timestamp⟩, [])
        | some (timestamp, '\n' :: rest) => some (⟨table.1, tags, fields, timestamp⟩, rest)
        | _ => none
      | none => none
    | _ => none

/-- The rows of a text; blanks before a line do not count. `fuel` bounds the number of steps. -/
def parseLines : ℕ → Text → Option (List Row)
  | _, [] => some []
  | 0, _ => none
  | fuel + 1, '\n' :: rest => parseLines fuel rest
  | fuel + 1, ' ' :: rest => parseLines fuel rest
  | fuel + 1, '#' :: rest => parseLines fuel (rest.dropWhile (· ≠ '\n'))
  | fuel + 1, input =>
    match parseRow input with
    | some (row, rest) => (parseLines fuel rest).map (row :: ·)
    | none => none

/-- The rows of a text. -/
def parse (text : String) : Option (List Row) := parseLines text.toList.length text.toList

example : parse "a\\ b,k\\=1=v\\, x=-12i,y=\"q\\\"\\\\\" 5\n" = some [⟨"a b".toList,
    [("k=1".toList, "v,".toList)],
    [("x".toList, .integer (-12)), ("y".toList, .string "q\"\\".toList)], some 5⟩] := by decide

/-! ## Texts that are read -/

/-- A text that is read as a name in front of what ends one. -/
def ReadsName (ends : Char → Bool) (text name : Text) : Prop :=
  ∀ c rest, ends c → scanName ends (text ++ c :: rest) = (name, c :: rest)

/-- A text that is read as the inside of a string. -/
def ReadsString (text s : Text) : Prop :=
  ∀ rest, scanString (text ++ '"' :: rest) = some (s, rest)

/-- A text that is read as a value in front of what ends one. -/
def ReadsValue (text : Text) (value : FieldValue) : Prop :=
  ∀ c rest, endsTable c → scanValue (text ++ c :: rest) = some (value, c :: rest)

/-- How a character stands in a name: as it is, or behind a backslash. -/
inductive InName (ends : Char → Bool) : Text → Char → Prop
  | plain {c : Char} (hslash : c ≠ '\\') (hends : ends c = false) : InName ends [c] c
  | escaped {c : Char} (hspecial : isSpecial c) : InName ends ['\\', c] c

/-- How a character stands in a string. -/
inductive InString : Text → Char → Prop
  | plain {c : Char} (hslash : c ≠ '\\') (hquote : c ≠ '"') : InString [c] c
  | escaped {c : Char} (hspecial : c = '"' ∨ c = '\\') : InString ['\\', c] c

section Escape

variable {ends : Char → Bool} {code : Char → Text} {mean : Char → Char}

/-- A character of a name is part of it. -/
theorem scanName_plain {c : Char} (hslash : c ≠ '\\') (hends : ends c = false) (rest : Text) :
    scanName ends (c :: rest) = (c :: (scanName ends rest).1, (scanName ends rest).2) := by
  rw [scanName]
  · simp [hends]
  · rintro d rest' rfl
    exact absurd rfl hslash

/-- A name ends before the character that ends it. -/
theorem scanName_ends {c : Char} (hslash : c ≠ '\\') (hends : ends c) (rest : Text) :
    scanName ends (c :: rest) = ([], c :: rest) := by
  rw [scanName]
  · simp [hends]
  · rintro d rest' rfl
    exact absurd rfl hslash

/-- An escaped character is part of the name. -/
theorem scanName_escaped {c : Char} (hspecial : isSpecial c) (rest : Text) :
    scanName ends ('\\' :: c :: rest) = (c :: (scanName ends rest).1, (scanName ends rest).2) := by
  rw [scanName]
  simp [hspecial]

/-- **A name escaped character by character** is read as what its characters mean. -/
theorem readsName_flatMap (hslash : ends '\\' = false) (h : ∀ c, InName ends (code c) (mean c))
    (s : Text) : ReadsName ends (s.flatMap code) (s.map mean) := by
  intro c rest hc
  induction s with
  | nil =>
    refine scanName_ends ?_ hc rest
    rintro rfl
    simp [hslash] at hc
  | cons d s ih =>
    rw [List.flatMap_cons, List.append_assoc, List.map_cons]
    generalize hcode : code d = text
    have hd := h d
    rw [hcode] at hd
    cases hd with
    | plain hslash hends => rw [List.singleton_append, scanName_plain hslash hends, ih]
    | escaped hspecial =>
      rw [List.cons_append, List.singleton_append, scanName_escaped hspecial, ih]

/-- A name without anything that is escaped or ends it is read as it is. -/
theorem readsName_self {name : Text} (hslash : ends '\\' = false)
    (h : ∀ c ∈ name, c ≠ '\\' ∧ ends c = false) : ReadsName ends name name := by
  intro c rest hc
  induction name with
  | nil =>
    refine scanName_ends ?_ hc rest
    rintro rfl
    simp [hslash] at hc
  | cons d name ih =>
    obtain ⟨hd, hname⟩ := List.forall_mem_cons.1 h
    rw [List.cons_append, scanName_plain hd.1 hd.2, ih hname]

/-- A character of a string is part of it. -/
theorem scanString_plain {c : Char} (hslash : c ≠ '\\') (hquote : c ≠ '"') (rest : Text) :
    scanString (c :: rest) = (scanString rest).map fun found => (c :: found.1, found.2) := by
  rw [scanString]
  · rintro rfl
    exact absurd rfl hquote
  · rintro d rest' rfl
    exact absurd rfl hslash

/-- An escaped character is part of the string. -/
theorem scanString_escaped {c : Char} (hspecial : c = '"' ∨ c = '\\') (rest : Text) :
    scanString ('\\' :: c :: rest) =
      (scanString rest).map fun found => (c :: found.1, found.2) := by
  rw [scanString, if_pos hspecial]

/-- **A string escaped character by character** is read as what its characters mean. -/
theorem readsString_flatMap (h : ∀ c, InString (code c) (mean c)) (s : Text) :
    ReadsString (s.flatMap code) (s.map mean) := by
  intro rest
  induction s with
  | nil => rfl
  | cons d s ih =>
    rw [List.flatMap_cons, List.append_assoc, List.map_cons]
    generalize hcode : code d = text
    have hd := h d
    rw [hcode] at hd
    cases hd with
    | plain hslash hquote =>
      rw [List.singleton_append, scanString_plain hslash hquote, ih]
      rfl
    | escaped hspecial =>
      rw [List.cons_append, List.singleton_append, scanString_escaped hspecial, ih]
      rfl

/-- A string in quotes is a value. -/
theorem readsValue_string {text s : Text} (h : ReadsString text s) :
    ReadsValue ('"' :: (text ++ ['"'])) (.string s) := by
  intro c rest _
  rw [List.cons_append, List.append_assoc, List.singleton_append, scanValue, h]
  rfl

end Escape

/-! ## Numbers -/

/-- A number is read from its digits. -/
theorem readNat_toDigits (n : ℕ) : readNat (Nat.toDigits 10 n) = some n := by
  have hdigits : (Nat.toDigits 10 n).all Char.isDigit :=
    List.all_eq_true.2 fun c hc => Nat.isDigit_of_mem_toDigits (by omega) (by omega) hc
  rw [readNat, if_pos ⟨Nat.toDigits_ne_nil, hdigits⟩, Nat.ofDigitChars_ten_toDigits]

/-- No digit is a minus, what ends a value, or a quote. -/
theorem ne_of_isDigit {c : Char} (h : c.isDigit) :
    c ≠ '-' ∧ endsTable c = false ∧ c ≠ '"' ∧ c ≠ '\n' := by
  refine ⟨?_, ?_, ?_, ?_⟩
  · rintro rfl
    exact absurd h (by decide)
  · by_contra hends
    simp only [endsTable, Bool.not_eq_false, Bool.or_eq_true, decide_eq_true_eq] at hends
    rcases hends with (rfl | rfl) | rfl <;> exact absurd h (by decide)
  · rintro rfl
    exact absurd h (by decide)
  · rintro rfl
    exact absurd h (by decide)

/-- The text of an integer is its digits, behind a minus if it is negative. -/
theorem toList_toString (n : ℤ) : (toString n).toList =
    if 0 ≤ n then Nat.toDigits 10 n.toNat else '-' :: Nat.toDigits 10 (-n).toNat := by
  show (Int.repr n).toList = _
  rw [Int.repr_eq_if]
  split_ifs
  · rw [Nat.toList_repr]
  · rw [String.toList_append, Nat.toList_repr]
    rfl

/-- Nothing in the text of an integer ends a value, and no quote or line break is in it. -/
theorem forall_mem_toString {P : Char → Prop} (hminus : P '-') (hdigit : ∀ c, c.isDigit → P c)
    (n : ℤ) : ∀ c ∈ (toString n).toList, P c := by
  have hdigits (k : ℕ) : ∀ c ∈ Nat.toDigits 10 k, P c := fun c hc =>
    hdigit c (Nat.isDigit_of_mem_toDigits (by omega) (by omega) hc)
  rw [toList_toString]
  split_ifs
  · exact hdigits _
  · exact List.forall_mem_cons.2 ⟨hminus, hdigits _⟩

/-- An integer is read from its text. -/
theorem readInt_toString (n : ℤ) : readInt (toString n).toList = some n := by
  rw [toList_toString]
  split_ifs with h
  · have hread := readNat_toDigits n.toNat
    have hne : ∀ rest, Nat.toDigits 10 n.toNat ≠ '-' :: rest := by
      intro rest heq
      have hmem : '-' ∈ Nat.toDigits 10 n.toNat := heq ▸ List.mem_cons_self ..
      exact (ne_of_isDigit (Nat.isDigit_of_mem_toDigits (by omega) (by omega) hmem)).1 rfl
    rw [readInt, hread]
    · exact congrArg some (Int.toNat_of_nonneg h)
    · exact hne
  · rw [readInt, readNat_toDigits]
    have hneg : -(((-n).toNat : ℕ) : ℤ) = n := by omega
    exact congrArg some hneg

/-- A text up to what ends a value. -/
theorem takeWhile_append_ends {text : Text} (h : ∀ c ∈ text, endsTable c = false) {c : Char}
    (hc : endsTable c) (rest : Text) :
    (text ++ c :: rest).takeWhile (!endsTable ·) = text ∧
      (text ++ c :: rest).dropWhile (!endsTable ·) = c :: rest := by
  induction text with
  | nil => simp [hc]
  | cons d text ih =>
    obtain ⟨hd, htext⟩ := List.forall_mem_cons.1 h
    simp [hd, ih htext]

/-- An integer with an `i` behind it is a value. -/
theorem readsValue_integer (n : ℤ) :
    ReadsValue ((toString n).toList ++ ['i']) (.integer n) := by
  intro c rest hc
  have hends : ∀ d ∈ (toString n).toList ++ ['i'], endsTable d = false := by
    intro d hd
    rcases List.mem_append.1 hd with hd | hd
    · exact forall_mem_toString (P := fun d => endsTable d = false) rfl
        (fun d hd => (ne_of_isDigit hd).2.1) n d hd
    · obtain rfl := List.mem_singleton.1 hd
      rfl
  have hquote : ∀ tail, (toString n).toList ++ ['i'] ++ c :: rest ≠ '"' :: tail := by
    intro tail heq
    have hmem : '"' ∈ (toString n).toList ++ ['i'] := by
      cases htext : (toString n).toList with
      | nil =>
        rw [htext] at heq
        exact absurd (List.cons.inj heq).1 (by decide)
      | cons d text =>
        rw [htext] at heq
        exact (List.cons.inj heq).1 ▸ List.mem_append_left _ (List.mem_cons_self ..)
    rcases List.mem_append.1 hmem with hmem | hmem
    · exact forall_mem_toString (P := (· ≠ '"')) (by decide)
        (fun d hd => (ne_of_isDigit hd).2.2.1) n _ hmem rfl
    · exact absurd (List.mem_singleton.1 hmem) (by decide)
  obtain ⟨htoken, hrest⟩ := takeWhile_append_ends hends hc rest
  rw [scanValue, htoken, hrest]
  · have hread : readToken ((toString n).toList ++ ['i']) = .integer n := by
      rw [readToken, List.getLast?_concat, if_pos rfl, List.dropLast_concat, readInt_toString]
    have hne : (toString n).toList ++ ['i'] ≠ [] := by simp
    rw [if_neg hne, hread]
  · exact hquote

/-! ## Lines -/

/-- The texts of a tag, and what they are read as. -/
def ReadsTag (text tag : Text × Text) : Prop :=
  ReadsName endsKey text.1 tag.1 ∧ ReadsName endsTag text.2 tag.2 ∧ tag.1 ≠ [] ∧ tag.2 ≠ []

/-- The texts of a field, and what they are read as. -/
def ReadsField (text : Text × Text) (field : Text × FieldValue) : Prop :=
  ReadsName endsKey text.1 field.1 ∧ ReadsValue text.2 field.2 ∧ field.1 ≠ []

/-- A tag as it stands in a line. -/
def tagText (text : Text × Text) : Text := ',' :: (text.1 ++ '=' :: text.2)

/-- A field as it stands in a line. -/
def fieldText (text : Text × Text) : Text := text.1 ++ '=' :: text.2

/-- A line put together from the texts of its parts. -/
def rowText (table : Text) (tags : List (Text × Text)) (field : Text × Text)
    (fields : List (Text × Text)) (time : Text) : Text :=
  table ++ (tags.flatMap tagText ++ ' ' :: (fieldText field ++
    (fields.flatMap (fun f => ',' :: fieldText f) ++ ' ' :: (time ++ ['\n']))))

/-- One tag is read, and then the rest. -/
theorem parseTags_step {fuel : ℕ} {rest rest' rest'' key value : Text}
    (hkey : scanName endsKey rest = (key, '=' :: rest'))
    (hvalue : scanName endsTag rest' = (value, rest'')) (hkeyne : key ≠ [])
    (hvaluene : value ≠ []) :
    parseTags (fuel + 1) (',' :: rest) =
      (parseTags fuel rest'').map fun found => ((key, value) :: found.1, found.2) := by
  rw [parseTags, hkey]
  simp [hvalue, hkeyne, hvaluene]

/-- Tags are read up to the blank behind them. -/
theorem parseTags_tagText {texts tags : List (Text × Text)} (h : List.Forall₂ ReadsTag texts tags)
    (rest : Text) (fuel : ℕ) (hfuel : texts.length ≤ fuel) :
    parseTags fuel (texts.flatMap tagText ++ ' ' :: rest) = some (tags, ' ' :: rest) := by
  induction h generalizing fuel with
  | nil => cases fuel <;> rfl
  | @cons text tag texts tags htag htags ih =>
    obtain ⟨hkey, hvalue, hkeyne, hvaluene⟩ := htag
    obtain ⟨fuel, rfl⟩ : ∃ k, fuel = k + 1 := ⟨fuel - 1, by simp at hfuel; omega⟩
    have ih := ih fuel (by simpa using hfuel)
    have hends : ∃ c tail, texts.flatMap tagText ++ ' ' :: rest = c :: tail ∧ endsTag c := by
      cases texts with
      | nil => exact ⟨' ', rest, rfl, rfl⟩
      | cons text texts => exact ⟨',', _, rfl, rfl⟩
    obtain ⟨c, tail, htail, hc⟩ := hends
    have hvalue := hvalue c tail hc
    rw [← htail] at hvalue
    simp only [List.flatMap_cons, tagText, List.cons_append, List.append_assoc]
    rw [parseTags_step (hkey '=' _ rfl) hvalue hkeyne hvaluene]
    rw [ih]
    rfl

/-- A field is read up to the character behind it. -/
theorem parseField_fieldText {text : Text × Text} {field : Text × FieldValue}
    (h : ReadsField text field) {c : Char} (hc : endsTable c) (rest : Text) :
    parseField (fieldText text ++ c :: rest) = some (field, c :: rest) := by
  obtain ⟨hkey, hvalue, hne⟩ := h
  rw [fieldText, List.append_assoc, List.cons_append, parseField, hkey '=' _ rfl]
  simp [hne, hvalue c rest hc]

/-- Fields are read up to the blank behind them. -/
theorem parseFields_fieldText {text : Text × Text} {field : Text × FieldValue}
    {texts : List (Text × Text)} {fields : List (Text × FieldValue)}
    (hfield : ReadsField text field)
    (h : List.Forall₂ ReadsField texts fields) (rest : Text) (fuel : ℕ)
    (hfuel : texts.length < fuel) :
    parseFields fuel
        (fieldText text ++ (texts.flatMap (fun f => ',' :: fieldText f) ++ ' ' :: rest)) =
      some (field :: fields, ' ' :: rest) := by
  induction h generalizing text field fuel with
  | nil =>
    obtain ⟨fuel, rfl⟩ : ∃ k, fuel = k + 1 := ⟨fuel - 1, by omega⟩
    rw [parseFields, List.flatMap_nil, List.nil_append, parseField_fieldText hfield rfl]
    rfl
  | @cons text' field' texts fields hfield' hfields ih =>
    obtain ⟨fuel, rfl⟩ : ∃ k, fuel = k + 1 := ⟨fuel - 1, by omega⟩
    have ih := ih hfield' fuel (by simpa using hfuel)
    rw [parseFields, List.flatMap_cons, List.cons_append, List.cons_append,
      parseField_fieldText hfield rfl, List.append_assoc]
    simp [ih]

/-- The time and the end of the line. -/
theorem parseTime_toString (n : ℤ) :
    parseTime (' ' :: ((toString n).toList ++ ['\n'])) = some (some n, ['\n']) := by
  have hbreak : ∀ c ∈ (toString n).toList, decide (c ≠ '\n') = true :=
    forall_mem_toString (P := fun c => decide (c ≠ '\n') = true) (by decide)
      (fun c hc => by simpa using (ne_of_isDigit hc).2.2.2) n
  have htake : ((toString n).toList ++ ['\n']).takeWhile (· ≠ '\n') = (toString n).toList := by
    rw [List.takeWhile_append_of_pos hbreak]
    simp
  have hdrop : ((toString n).toList ++ ['\n']).dropWhile (· ≠ '\n') = ['\n'] := by
    rw [List.dropWhile_append_of_pos hbreak]
    simp
  rw [parseTime, htake, hdrop, readInt_toString]
  rfl

variable {table name : Text} {tagTexts tags : List (Text × Text)} {text : Text × Text}
  {field : Text × FieldValue} {texts : List (Text × Text)} {fields : List (Text × FieldValue)}

/-- A line is read as what it was made of. -/
theorem parseRow_rowText (htable : ReadsName endsTable table name) (hname : name ≠ [])
    (htags : List.Forall₂ ReadsTag tagTexts tags) (hfield : ReadsField text field)
    (hfields : List.Forall₂ ReadsField texts fields) (n : ℤ) :
    parseRow (rowText table tagTexts text texts (toString n).toList) =
      some (⟨name, tags, field :: fields, some n⟩, []) := by
  set input := rowText table tagTexts text texts (toString n).toList with hinput
  have hlength (l : List (Text × Text)) (f : Text × Text → Text) (hf : ∀ a, f a ≠ []) :
      l.length ≤ (l.flatMap f).length := by
    induction l with
    | nil => exact Nat.le_refl _
    | cons a l ih =>
      have := List.length_pos_iff.2 (hf a)
      simp only [List.length_cons, List.flatMap_cons, List.length_append]
      omega
  have htagsLength := hlength tagTexts tagText fun _ => by simp [tagText]
  have hfieldsLength := hlength texts (fun f => ',' :: fieldText f) fun _ => by simp
  have htagsFuel : tagTexts.length ≤ input.length := by
    simp only [hinput, rowText, List.length_append]
    omega
  have hfieldsFuel : texts.length < input.length := by
    simp only [hinput, rowText, List.length_append, List.length_cons]
    omega
  have hends : ∃ c tail, tagTexts.flatMap tagText ++ ' ' :: (fieldText text ++
      (texts.flatMap (fun f => ',' :: fieldText f) ++ ' ' :: ((toString n).toList ++ ['\n']))) =
        c :: tail ∧ endsTable c := by
    cases tagTexts with
    | nil => exact ⟨' ', _, rfl, rfl⟩
    | cons text texts => exact ⟨',', _, rfl, rfl⟩
  obtain ⟨c, tail, htail, hc⟩ := hends
  have hscan : scanName endsTable input = (name, c :: tail) := by
    rw [hinput, rowText, htail]
    exact htable c tail hc
  rw [parseRow, hscan]
  dsimp only
  rw [if_neg hname, ← htail, parseTags_tagText htags _ _ htagsFuel]
  simp only [parseFields_fieldText hfield hfields _ _ hfieldsFuel, parseTime_toString]

/-- **A line put together is one row**, unless it begins like a comment or like no line at all. -/
theorem parse_rowText {line : String} (htable : ReadsName endsTable table name) (hname : name ≠ [])
    (htags : List.Forall₂ ReadsTag tagTexts tags) (hfield : ReadsField text field)
    (hfields : List.Forall₂ ReadsField texts fields) (n : ℤ)
    (hline : line.toList = rowText table tagTexts text texts (toString n).toList)
    (hhead : ∀ c ∈ line.toList.head?, c ≠ '#' ∧ c ≠ ' ' ∧ c ≠ '\n') :
    parse line = some [⟨name, tags, field :: fields, some n⟩] := by
  have hrow := parseRow_rowText htable hname htags hfield hfields n
  rw [← hline] at hrow
  rw [parse]
  generalize line.toList = input at hrow hhead
  cases input with
  | nil => simp [parseRow, scanName] at hrow
  | cons c rest =>
    obtain ⟨hhash, hblank, hbreak⟩ := hhead c rfl
    have hparse : parseLines (rest.length + 1) (c :: rest) =
        match parseRow (c :: rest) with
        | some (row, rest') => (parseLines rest.length rest').map (row :: ·)
        | none => none := by
      rw [parseLines]
      all_goals simp_all
    rw [List.length_cons, hparse, hrow]
    cases rest <;> rfl

/-- The only line break of a line is its last character, if there is none in its parts. -/
theorem rowText_break {time : Text} (htable : '\n' ∉ table)
    (htags : ∀ t ∈ tagTexts, '\n' ∉ t.1 ∧ '\n' ∉ t.2) (htext : '\n' ∉ text.1 ∧ '\n' ∉ text.2)
    (htexts : ∀ t ∈ texts, '\n' ∉ t.1 ∧ '\n' ∉ t.2) (htime : '\n' ∉ time) :
    ∃ body, rowText table tagTexts text texts time = table ++ (body ++ ['\n']) ∧
      '\n' ∉ table ++ body := by
  refine ⟨tagTexts.flatMap tagText ++ ' ' :: (fieldText text ++
    (texts.flatMap (fun f => ',' :: fieldText f) ++ ' ' :: time)), by simp [rowText], ?_⟩
  have htags' : '\n' ∉ tagTexts.flatMap tagText := by
    intro hmem
    obtain ⟨t, ht, hmem⟩ := List.mem_flatMap.1 hmem
    simp [tagText, htags t ht] at hmem
  have htexts' : '\n' ∉ texts.flatMap (fun f => ',' :: fieldText f) := by
    intro hmem
    obtain ⟨t, ht, hmem⟩ := List.mem_flatMap.1 hmem
    simp [fieldText, htexts t ht] at hmem
  have hfields : '\n' ∉ fieldText text := by simp [fieldText, htext]
  simp only [List.mem_append, List.mem_cons, not_or]
  exact ⟨htable, htags', by decide, hfields, htexts', by decide, htime⟩

/-- **A comment is no row**: what begins with `#` and has no line break but the last is not read. -/
theorem parse_comment {line : String} {body : Text} (hline : line.toList = '#' :: (body ++ ['\n']))
    (hbody : '\n' ∉ body) : parse line = some [] := by
  have hdrop : (body ++ ['\n']).dropWhile (· ≠ '\n') = ['\n'] := by
    rw [List.dropWhile_append_of_pos]
    · simp
    · intro c hc
      simpa using fun heq : c = '\n' => hbody (heq ▸ hc)
  rw [parse, hline, List.length_cons, List.length_append, List.length_singleton, parseLines, hdrop]
  rw [parseLines]
  cases body <;> rfl

end AuditGateway.LineProtocol
