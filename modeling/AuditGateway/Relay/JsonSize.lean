import AuditGateway.Audit.Body
import AuditGateway.Relay.Value
import Mathlib.Algebra.BigOperators.Group.List.Basic
import Mathlib.Data.Nat.Digits.Defs

set_option relaxedAutoImplicit false
set_option autoImplicit false

/-!
# The size of a JSON text

How `serde_json` prints a value, and how many bytes that takes. A text is between quotes, where
quotes, backslashes and control characters are escaped; there is no space between the parts of an
array or an object.

## Main definitions

* `Json.chars` — the text of a value.
* `Json.size` — its number of bytes.

## Main results

* `Json.le_size_string`, `Json.size_string_le` — escaping makes a text at most six times as long.
* `Json.length_le_size_array`, `Json.size_array_le` — an array grows with the number of its values.
* `Json.size_le_size_object`, `Json.size_object_le` — an object holds each of its members.
-/

namespace AuditGateway

/-! ## Bytes of a text -/

/-- The number of bytes of a text. -/
def byteSize (l : List Char) : ℕ := (l.map Char.utf8Size).sum

/-- No characters have no size. -/
@[simp] theorem byteSize_nil : byteSize [] = 0 := rfl

/-- The size of the first character, and that of the others. -/
@[simp] theorem byteSize_cons (c : Char) (l : List Char) :
    byteSize (c :: l) = c.utf8Size + byteSize l := by
  simp [byteSize]

/-- The sizes of two lists of characters add up. -/
@[simp] theorem byteSize_append (l m : List Char) :
    byteSize (l ++ m) = byteSize l + byteSize m := by
  simp [byteSize]

/-- The size of a text is that of its characters. -/
theorem utf8ByteSize_eq (s : String) : s.utf8ByteSize = byteSize s.toList := by
  rw [byteSize, ← utf8ByteSize_ofList, String.ofList_toList]

/-- A character has four bytes at most. -/
theorem byteSize_le (l : List Char) : byteSize l ≤ 4 * l.length := by
  induction l with
  | nil => simp
  | cons c l ih =>
    have hc := c.utf8Size_le_four
    rw [byteSize_cons, List.length_cons]
    omega

/-- A text whose number of characters is bounded has a bounded number of bytes. -/
theorem utf8ByteSize_le {s : String} {n : ℕ} (h : s.length ≤ n) : s.utf8ByteSize ≤ 4 * n := by
  have hle := byteSize_le s.toList
  rw [utf8ByteSize_eq]
  rw [String.length_toList] at hle
  omega

/-- Every part counts, and so does what stands between them. -/
theorem le_byteSize_intercalate (sep : List Char) (parts : List (List Char)) :
    parts.length * byteSize sep ≤ byteSize (sep.intercalate parts) + byteSize sep ∧
      ∀ part ∈ parts, byteSize part ≤ byteSize (sep.intercalate parts) := by
  induction parts with
  | nil => simp
  | cons part parts ih =>
    cases parts with
    | nil => simp
    | cons next parts =>
      obtain ⟨hlength, hparts⟩ := ih
      rw [List.intercalate_cons_cons, byteSize_append, byteSize_append]
      refine ⟨?_, List.forall_mem_cons.2 ⟨by omega, fun p hp => ?_⟩⟩
      · rw [List.length_cons, Nat.succ_mul]
        omega
      · have := hparts p hp
        omega

/-- Parts of bounded size. -/
theorem byteSize_intercalate_le (sep : List Char) {parts : List (List Char)} {n : ℕ}
    (h : ∀ part ∈ parts, byteSize part ≤ n) :
    byteSize (sep.intercalate parts) ≤ parts.length * (n + byteSize sep) := by
  induction parts with
  | nil => simp
  | cons part parts ih =>
    obtain ⟨hpart, hparts⟩ := List.forall_mem_cons.1 h
    cases parts with
    | nil =>
      rw [List.intercalate_singleton, List.length_singleton, Nat.one_mul]
      omega
    | cons next parts =>
      have hrest := ih hparts
      rw [List.intercalate_cons_cons, byteSize_append, byteSize_append, List.length_cons,
        Nat.succ_mul]
      omega

/-! ## Printing -/

/-- The text of a number. -/
def JsonNumber.chars (floats : UInt64 → List Char) : JsonNumber → List Char
  | .posInt n => (toString n).toList
  | .negInt n => (toString n).toList
  | .float bits => floats bits

namespace Json

/-- A character between quotes. -/
def escape (c : Char) : List Char :=
  if c = '"' then ['\\', '"']
  else if c = '\\' then ['\\', '\\']
  else if c = '\n' then ['\\', 'n']
  else if c = '\r' then ['\\', 'r']
  else if c = '\t' then ['\\', 't']
  else if c.toNat = 8 then ['\\', 'b']
  else if c.toNat = 12 then ['\\', 'f']
  else if c.toNat < 32 then
    ['\\', 'u', '0', '0', AuditMap.hexDigit (c.toNat / 16), AuditMap.hexDigit (c.toNat % 16)]
  else [c]

/-- A text between quotes. -/
def quoted (s : String) : List Char := '"' :: (s.toList.flatMap escape ++ ['"'])

/-- A list of parts between brackets. -/
def bracketed (opening closing : Char) (parts : List (List Char)) : List Char :=
  opening :: ([','].intercalate parts ++ [closing])

mutual

/-- The text of a value; `floats` is how a finite float is printed. -/
def chars (floats : UInt64 → List Char) : Json → List Char
  | .null => ['n', 'u', 'l', 'l']
  | .bool true => ['t', 'r', 'u', 'e']
  | .bool false => ['f', 'a', 'l', 's', 'e']
  | .number n => n.chars floats
  | .string s => quoted s
  | .array values => bracketed '[' ']' (charsValues floats values)
  | .object members => bracketed '\x7b' '\x7d' (charsMembers floats members)

/-- The texts of the values of an array. -/
def charsValues (floats : UInt64 → List Char) : List Json → List (List Char)
  | [] => []
  | value :: values => chars floats value :: charsValues floats values

/-- The texts of the members of an object. -/
def charsMembers (floats : UInt64 → List Char) : List (String × Json) → List (List Char)
  | [] => []
  | (key, value) :: members =>
    (quoted key ++ ':' :: chars floats value) :: charsMembers floats members

end

variable {floats : UInt64 → List Char}

/-- The text of each value. -/
theorem charsValues_eq (values : List Json) :
    charsValues floats values = values.map (chars floats) := by
  induction values with
  | nil => rw [charsValues, List.map_nil]
  | cons value values ih => rw [charsValues, ih, List.map_cons]

/-- The text of each member, with its name. -/
theorem charsMembers_eq (members : List (String × Json)) :
    charsMembers floats members =
      members.map fun member => quoted member.1 ++ ':' :: chars floats member.2 := by
  induction members with
  | nil => rw [charsMembers, List.map_nil]
  | cons member members ih =>
    obtain ⟨key, value⟩ := member
    rw [charsMembers, ih, List.map_cons]

/-! ## Sizes -/

/-- The number of bytes of the text of a value. -/
def size (floats : UInt64 → List Char) (value : Json) : ℕ := byteSize (value.chars floats)

/-- A hexadecimal digit has one byte. -/
theorem utf8Size_hexDigit_le (n : ℕ) : (AuditMap.hexDigit n).utf8Size ≤ 1 := by
  have hall : ("0123456789abcdef".toList ++ ['0']).all fun c => c.utf8Size = 1 := by decide
  have hmem : AuditMap.hexDigit n ∈ "0123456789abcdef".toList ++ ['0'] := by
    unfold AuditMap.hexDigit
    rw [List.getD_eq_getElem?_getD]
    cases hget : "0123456789abcdef".toList[n]? with
    | none => simp
    | some c => exact List.mem_append_left _ (List.mem_of_getElem? hget)
  have hone := List.all_eq_true.1 hall _ hmem
  exact (of_decide_eq_true hone).le

/-- A control character has one byte. -/
theorem utf8Size_of_control {c : Char} (h : c.toNat < 32) : c.utf8Size = 1 := by
  have hle : c.val ≤ 0x7f := by
    rw [UInt32.le_iff_toNat_le]
    exact le_trans (le_of_lt h) (by decide)
  simp [Char.utf8Size, hle]

/-- Escaping a character makes it at most six times as long, and never shorter. -/
theorem byteSize_escape (c : Char) :
    c.utf8Size ≤ byteSize (escape c) ∧ byteSize (escape c) ≤ 6 * c.utf8Size := by
  have hall : ['\\', '"', 'n', 'r', 't', 'b', 'f', 'u', '0'].all fun c => c.utf8Size = 1 := by
    decide
  have hescape : ∀ c ∈ ['\\', '"', 'n', 'r', 't', 'b', 'f', 'u', '0'], c.utf8Size = 1 :=
    fun c hc => of_decide_eq_true (List.all_eq_true.1 hall c hc)
  unfold escape
  split_ifs with hquote hslash hn hr ht hb hf hcontrol
  · subst hquote
    decide
  · subst hslash
    decide
  · subst hn
    decide
  · subst hr
    decide
  · subst ht
    decide
  · have hone := utf8Size_of_control (c := c) (by omega)
    simp [hone, hescape]
  · have hone := utf8Size_of_control (c := c) (by omega)
    simp [hone, hescape]
  · have hone := utf8Size_of_control hcontrol
    have hhigh := utf8Size_hexDigit_le (c.toNat / 16)
    have hlow := utf8Size_hexDigit_le (c.toNat % 16)
    simp only [byteSize_cons, byteSize_nil, hone, hescape '\\' (by simp), hescape 'u' (by simp),
      hescape '0' (by simp)]
    omega
  · simp only [byteSize_cons, byteSize_nil]
    omega

/-- Escaping makes a text no shorter, and six times as long at most. -/
theorem byteSize_flatMap_escape (l : List Char) :
    byteSize l ≤ byteSize (l.flatMap escape) ∧ byteSize (l.flatMap escape) ≤ 6 * byteSize l := by
  induction l with
  | nil => simp
  | cons c l ih =>
    have hc := byteSize_escape c
    rw [List.flatMap_cons, byteSize_append, byteSize_cons]
    omega

/-- A quoted text is no shorter, and but for the quotes six times as long at most. -/
theorem byteSize_quoted (s : String) :
    s.utf8ByteSize ≤ byteSize (quoted s) ∧ byteSize (quoted s) ≤ 6 * s.utf8ByteSize + 2 := by
  have hquote : '"'.utf8Size = 1 := by decide
  have hescaped := byteSize_flatMap_escape s.toList
  rw [quoted, byteSize_cons, byteSize_append, byteSize_cons, byteSize_nil, utf8ByteSize_eq, hquote]
  omega

/-- A text is no longer than its JSON. -/
theorem le_size_string (floats : UInt64 → List Char) (s : String) :
    s.utf8ByteSize ≤ (Json.string s).size floats := by
  rw [size, chars]
  exact (byteSize_quoted s).1

/-- Its JSON is six times as long at most, but for the quotes. -/
theorem size_string_le (floats : UInt64 → List Char) (s : String) :
    (Json.string s).size floats ≤ 6 * s.utf8ByteSize + 2 := by
  rw [size, chars]
  exact (byteSize_quoted s).2

/-- A number of 64 bits has at most twenty digits. -/
theorem size_nat_le (floats : UInt64 → List Char) {n : ℕ} (h : n < 2 ^ 64) :
    (nat n).size floats ≤ 80 := by
  have hlength : (toString n).length ≤ 20 := Nat.repr_length n 20 (by omega) (by omega)
  have hle := utf8ByteSize_le hlength
  rw [utf8ByteSize_eq] at hle
  rw [size, nat, chars, JsonNumber.chars]
  omega

/-- A truth value has five bytes at most. -/
theorem size_bool_le (floats : UInt64 → List Char) (b : Bool) : (Json.bool b).size floats ≤ 5 := by
  have htrue : byteSize ['t', 'r', 'u', 'e'] ≤ 5 := by decide
  have hfalse : byteSize ['f', 'a', 'l', 's', 'e'] ≤ 5 := by decide
  cases b with
  | true => rwa [size, chars]
  | false => rwa [size, chars]

/-- An array has one byte for each value at least. -/
theorem length_le_size_array (floats : UInt64 → List Char) (values : List Json) :
    values.length ≤ (Json.array values).size floats := by
  have hcomma : byteSize [','] = 1 := by decide
  have hlength := (le_byteSize_intercalate [','] (values.map (chars floats))).1
  have hopen := '['.utf8Size_pos
  rw [hcomma, List.length_map] at hlength
  rw [size, chars, charsValues_eq, bracketed, byteSize_cons, byteSize_append]
  omega

/-- An array is as long as its values and the commas at most. -/
theorem size_array_le {values : List Json} {n : ℕ} (h : ∀ value ∈ values, value.size floats ≤ n) :
    (Json.array values).size floats ≤ values.length * (n + 1) + 2 := by
  have hcomma : byteSize [','] = 1 := by decide
  have hbrackets : byteSize ['['] = 1 ∧ byteSize [']'] = 1 := by decide
  have hparts : ∀ part ∈ values.map (chars floats), byteSize part ≤ n := by
    intro part hpart
    obtain ⟨value, hvalue, rfl⟩ := List.mem_map.1 hpart
    exact h value hvalue
  have hle := byteSize_intercalate_le [','] hparts
  rw [hcomma, List.length_map] at hle
  rw [size, chars, charsValues_eq, bracketed, ← List.singleton_append, byteSize_append,
    byteSize_append, hbrackets.1, hbrackets.2]
  omega

/-- An object is as long as the value of a member at least. -/
theorem size_le_size_object {members : List (String × Json)} {key : String} {value : Json}
    (h : (key, value) ∈ members) : value.size floats ≤ (Json.object members).size floats := by
  have hmem : quoted key ++ ':' :: chars floats value ∈
      members.map fun member => quoted member.1 ++ ':' :: chars floats member.2 :=
    List.mem_map_of_mem h
  have hle := (le_byteSize_intercalate [','] _).2 _ hmem
  rw [byteSize_append, byteSize_cons] at hle
  rw [size, size, chars, charsMembers_eq, bracketed, byteSize_cons, byteSize_append]
  omega

/-- An object is as long as its members and the commas at most. -/
theorem size_object_le {members : List (String × Json)} {k n : ℕ}
    (h : ∀ member ∈ members, member.1.utf8ByteSize ≤ k ∧ member.2.size floats ≤ n) :
    (Json.object members).size floats ≤ members.length * (6 * k + n + 4) + 2 := by
  have hcomma : byteSize [','] = 1 := by decide
  have hcolon : ':'.utf8Size = 1 := by decide
  have hbraces : byteSize ['\x7b'] = 1 ∧ byteSize ['\x7d'] = 1 := by decide
  have hparts : ∀ part ∈ members.map
      (fun member => quoted member.1 ++ ':' :: chars floats member.2),
      byteSize part ≤ 6 * k + n + 3 := by
    intro part hpart
    obtain ⟨member, hmember, rfl⟩ := List.mem_map.1 hpart
    obtain ⟨hkey, hvalue⟩ := h member hmember
    have hquoted := (byteSize_quoted member.1).2
    rw [byteSize_append, byteSize_cons, hcolon]
    rw [size] at hvalue
    omega
  have hle := byteSize_intercalate_le [','] hparts
  rw [hcomma, List.length_map] at hle
  change _ ≤ members.length * (6 * k + n + 4) at hle
  rw [size, chars, charsMembers_eq, bracketed, ← List.singleton_append, byteSize_append,
    byteSize_append, hbraces.1, hbraces.2]
  omega

/-! ## Members of an object -/

/-- The keys have at most `k` bytes, and the values at most `n`. -/
def Within (floats : UInt64 → List Char) (k n : ℕ) (members : List (String × Json)) : Prop :=
  ∀ member ∈ members, member.1.utf8ByteSize ≤ k ∧ member.2.size floats ≤ n

variable {k n : ℕ}

/-- No member is too long. -/
@[simp] theorem within_nil : Within floats k n [] := fun _ h => nomatch h

/-- No member is too long if the first one is not, and the others are not. -/
@[simp] theorem within_cons {member : String × Json} {members : List (String × Json)} :
    Within floats k n (member :: members) ↔
      (member.1.utf8ByteSize ≤ k ∧ member.2.size floats ≤ n) ∧ Within floats k n members :=
  List.forall_mem_cons

/-- No member of two lists is too long if none of either is. -/
@[simp] theorem within_append {members members' : List (String × Json)} :
    Within floats k n (members ++ members') ↔
      Within floats k n members ∧ Within floats k n members' :=
  List.forall_mem_append

/-- An optional member is not too long if its value is not. -/
@[simp] theorem within_optional {α : Type} {key : String} {value : Option α} {f : α → Json} :
    Within floats k n (optional key value f) ↔
      ∀ a ∈ value, key.utf8ByteSize ≤ k ∧ (f a).size floats ≤ n := by
  cases value with
  | none => simp [optional]
  | some a => simp [optional]

/-- An optional member is one at most. -/
theorem length_optional_le {α : Type} (key : String) (value : Option α) (f : α → Json) :
    (optional key value f).length ≤ 1 := by
  cases value with
  | none => exact Nat.zero_le 1
  | some a => exact Nat.le_refl 1

end Json

end AuditGateway
