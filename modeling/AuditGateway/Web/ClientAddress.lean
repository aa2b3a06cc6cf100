import AuditGateway.Config.Target
import Mathlib.Data.List.Basic

set_option relaxedAutoImplicit false
set_option autoImplicit false

/-!
# The client's address behind a proxy

A request from a trusted proxy counts for the last address of its `X-Forwarded-For` that is no
proxy. The proxy adds the address it saw at the end and leaves what the client sent before it. But
only the first of the header's lines is read, and an element that is no address is skipped, so that
an element of the client's own can come to decide.

## Main definitions

* `clientAddress`, `ClientAddr.fromRequestParts` — the address as it is computed.
* `elements`, `decidingPart` — the header as it was meant, from the element that should decide on.
* `alone` — a request with nothing but this part.
* `Unchosen` — what stands before that part has no influence.
* `FirstLineAgrees` — headers whose first line leads to the same address.

## Main results

* `clientAddress_unchosen_iff` — when what stands before the deciding part does not matter.
* `not_unchosen_ownLine` — a client that chooses its address.
-/

namespace AuditGateway

/-- The bytes of a header line, each as a character. -/
abbrev HeaderValue := List Char

/-- A byte that `HeaderValue::to_str` accepts. -/
def isVisibleAscii (c : Char) : Bool := (32 ≤ c.toNat ∧ c.toNat < 127) ∨ c.toNat = 9

/-- The text of a line of visible ASCII characters. -/
def HeaderValue.toStr (v : HeaderValue) : Option String :=
  if v.all isVisibleAscii then some (String.ofList v) else none

/-! ## Addresses as they are read -/

/-- An IP address as `std::net` has it. -/
inductive Net.IpAddr where
  | v4 (a b c d : UInt8)
  | v6 (a b c d e f g h : UInt16)
  deriving DecidableEq

/-- `char::to_digit`. -/
def Net.toDigit (radix : ℕ) (c : Char) : Option ℕ :=
  let digit :=
    if '0' ≤ c ∧ c ≤ '9' then some (c.toNat - 48)
    else if 'a' ≤ c ∧ c ≤ 'f' then some (c.toNat - 87)
    else if 'A' ≤ c ∧ c ≤ 'F' then some (c.toNat - 55)
    else none
  digit.filter (· < radix)

/-- A number of at most some digits and not above the bound, and what follows it. -/
def Net.readNumber (radix maxDigits bound : ℕ) (allowZeroPrefix : Bool) (cs : List Char) :
    Option (ℕ × List Char) :=
  let digits := (cs.takeWhile fun c => (toDigit radix c).isSome).filterMap (toDigit radix)
  let value := digits.foldl (fun n d => n * radix + d) 0
  if digits = [] ∨ maxDigits < digits.length ∨ bound < value then none
  else if !allowZeroPrefix ∧ digits.head? = some 0 ∧ 1 < digits.length then none
  else some (value, cs.drop digits.length)

/-- What follows a separator, if it is there. -/
def Net.readGivenChar (c : Char) : List Char → Option (List Char)
  | d :: cs => if d = c then some cs else none
  | [] => none

/-- The four numbers of an IPv4 address. -/
def Net.readIpv4Addr (cs : List Char) : Option ((ℕ × ℕ × ℕ × ℕ) × List Char) := do
  let (a, cs) ← readNumber 10 3 255 false cs
  let (b, cs) ← (readGivenChar '.' cs).bind (readNumber 10 3 255 false)
  let (c, cs) ← (readGivenChar '.' cs).bind (readNumber 10 3 255 false)
  let (d, cs) ← (readGivenChar '.' cs).bind (readNumber 10 3 255 false)
  pure ((a, b, c, d), cs)

/-- Up to so many groups of an IPv6 address, the last two of which may be an IPv4 address. -/
def Net.readGroups : ℕ → Bool → List Char → List ℕ × Bool × List Char
  | 0, _, cs => ([], false, cs)
  | n + 1, first, cs =>
    let separated := if first then some cs else readGivenChar ':' cs
    match if n = 0 then none else separated.bind readIpv4Addr with
    | some ((a, b, c, d), rest) => ([a * 256 + b, c * 256 + d], true, rest)
    | none =>
      match separated.bind (readNumber 16 4 65535 true) with
      | some (group, rest) =>
        let (groups, ipv4, rest) := readGroups n false rest
        (group :: groups, ipv4, rest)
      | none => ([], false, cs)

/-- The eight groups of an IPv6 address, with zeros where a double colon stands for them. -/
def Net.readIpv6Addr (cs : List Char) : Option (List ℕ × List Char) :=
  let (head, ipv4, rest) := readGroups 8 true cs
  if head.length = 8 then some (head, rest)
  else if ipv4 then none
  else do
    let rest ← (readGivenChar ':' rest).bind (readGivenChar ':')
    let (tail, _, rest) := readGroups (7 - head.length) true rest
    pure (head ++ List.replicate (8 - head.length - tail.length) 0 ++ tail, rest)

/-- `IpAddr::from_str`. -/
def Net.IpAddr.parse (s : String) : Option Net.IpAddr :=
  match readIpv4Addr s.toList with
  | some ((a, b, c, d), rest) =>
    if rest = [] then some (.v4 (.ofNat a) (.ofNat b) (.ofNat c) (.ofNat d)) else none
  | none =>
    match readIpv6Addr s.toList with
    | some ([a, b, c, d, e, f, g, h], []) => some (.v6 (.ofNat a) (.ofNat b) (.ofNat c) (.ofNat d)
        (.ofNat e) (.ofNat f) (.ofNat g) (.ofNat h))
    | _ => none

/-! ## The address of a request -/

/-- The addresses of a header line. -/
def hops (forwarded : Option String) : List Net.IpAddr :=
  ((forwarded.getD "").toList.splitOn ',').filterMap fun a =>
    Net.IpAddr.parse (trim (String.ofList a))

/-- The client's address: the peer's, or behind a configured reverse proxy the last address in
`X-Forwarded-For` that is not a trusted proxy. -/
def clientAddress (peer : Option Net.IpAddr) (forwarded : Option String)
    (trusted : List Net.IpAddr) :
    Option Net.IpAddr :=
  match peer with
  | none => none
  | some peer =>
    if peer ∉ trusted then some peer
    else some (((hops forwarded).reverse.find? fun a => decide (a ∉ trusted)).getD peer)

/-- The address of a request with these `X-Forwarded-For` lines. -/
def ClientAddr.fromRequestParts (peer : Option Net.IpAddr) (lines : List HeaderValue)
    (trusted : List Net.IpAddr) : Option Net.IpAddr :=
  clientAddress peer (lines.head?.bind HeaderValue.toStr) trusted

/-! ## What the header says -/

/-- The white space that may stand around an element. -/
def isBlank (c : Char) : Bool := c.toNat = 32 ∨ c.toNat = 9

/-- An element without the blanks around it. -/
def strip (e : List Char) : List Char := ((e.dropWhile isBlank).reverse.dropWhile isBlank).reverse

/-- The elements of all lines, one line after the other. -/
def elements (lines : List HeaderValue) : List (List Char) :=
  (lines.flatMap fun line => line.splitOn ',').map strip

/-- The end of a list from the last element without the property on. -/
def fromLast {α : Type*} (p : α → Bool) : List α → List α
  | [] => []
  | a :: l => if !l.all p then fromLast p l else if p a then [] else a :: l

section Spec

/-- The address that an element is, if it is nothing else. -/
def plainAddress (e : List Char) : Option Net.IpAddr :=
  if e.all isVisibleAscii then Net.IpAddr.parse (String.ofList e) else none

variable (trusted : List Net.IpAddr)

/-- The element is the address of a trusted proxy. -/
def isProxy (e : List Char) : Bool := (plainAddress e).any fun a => decide (a ∈ trusted)

/-- The header from the last element that is not the address of a trusted proxy on. -/
def decidingPart (lines : List HeaderValue) : List (List Char) :=
  fromLast (isProxy trusted) (elements lines)

/-- The address that should count: the deciding element's. -/
def decidingAddress (lines : List HeaderValue) : Option Net.IpAddr :=
  (decidingPart trusted lines).head?.bind plainAddress

/-- A request with the deciding part and nothing before it. -/
def alone (lines : List HeaderValue) : List HeaderValue :=
  if decidingPart trusted lines = [] then []
  else [[','].intercalate (decidingPart trusted lines)]

/-- No address but those of trusted proxies is among the elements. -/
def OnlyProxies (es : List (List Char)) : Prop :=
  ∀ e ∈ es, ∀ a, plainAddress e = some a → a ∈ trusted

/-- The first line leads to the address of the deciding element: it has an element with this address
and none with another client's address after it. If the deciding element is no address, the line has
no client's address at all, or is not read because of a character in it. -/
def FirstLineAgrees (lines : List HeaderValue) : Prop :=
  match decidingAddress trusted lines with
  | some a => ∃ line, lines.head? = some line ∧ line.all isVisibleAscii ∧
      ∃ before e after, elements [line] = before ++ e :: after ∧ plainAddress e = some a ∧
        OnlyProxies trusted after
  | none => ∀ line, lines.head? = some line → line.all isVisibleAscii →
      OnlyProxies trusted (elements [line])

end Spec

/-! ## Lemmas about lists -/

section Lists

variable {α : Type*} {p : α → Bool}

/-- Nothing is left of a list, or it is an element without the property and a rest with it. -/
lemma fromLast_cases (p : α → Bool) (l : List α) :
    (fromLast p l = [] ∧ ∀ a ∈ l, p a) ∨
      ∃ before a after, l = before ++ a :: after ∧ p a = false ∧ (∀ b ∈ after, p b) ∧
        fromLast p l = a :: after := by
  induction l with
  | nil => simp [fromLast]
  | cons a l ih =>
    by_cases hl : l.all p
    · cases ha : p a with
      | true => exact .inl ⟨by simp [fromLast, hl, ha], by simpa [ha] using hl⟩
      | false => exact .inr ⟨[], a, l, rfl, ha, by simpa using hl, by simp [fromLast, hl, ha]⟩
    · have hrest : fromLast p (a :: l) = fromLast p l := by simp [fromLast, hl]
      obtain ⟨-, hall⟩ | ⟨before, b, after, rfl, hb, hafter, h⟩ := ih
      · exact absurd (List.all_eq_true.mpr hall) hl
      · exact .inr ⟨a :: before, b, after, rfl, hb, hafter, by rw [hrest, h]⟩

/-- What is left begins where it did. -/
lemma fromLast_fromLast (p : α → Bool) (l : List α) :
    fromLast p (fromLast p l) = fromLast p l := by
  obtain ⟨h, -⟩ | ⟨-, a, after, -, ha, hafter, h⟩ := fromLast_cases p l
  · rw [h, fromLast]
  · have hall : after.all p := List.all_eq_true.mpr hafter
    simp [h, fromLast, hall, ha]

/-- Dropping twice is dropping once. -/
lemma dropWhile_idem (l : List α) : (l.dropWhile p).dropWhile p = l.dropWhile p := by
  induction l with
  | nil => rfl
  | cons a l ih =>
    by_cases ha : p a
    · simpa [List.dropWhile_cons, ha] using ih
    · simp [ha]

/-- Where a list does not begin with the property, its prefixes do not either. -/
lemma dropWhile_of_prefix {l l' : List α} (h : l <+: l') (h' : l'.dropWhile p = l') :
    l.dropWhile p = l := by
  cases l with
  | nil => rfl
  | cons a l =>
    obtain ⟨t, rfl⟩ := h
    by_cases ha : p a
    · have hlength := (List.dropWhile_suffix p (l := l ++ t)).length_le
      have hdrop : (l ++ t).dropWhile p = a :: (l ++ t) := by simpa [ha] using h'
      rw [hdrop, List.length_cons] at hlength
      omega
    · simp [ha]

end Lists

/-! ## Blanks and commas -/

/-- In visible text, white space is blanks. -/
lemma isWhitespace_eq_isBlank {c : Char} (h : isVisibleAscii c) : isWhitespace c = isBlank c := by
  simp only [isVisibleAscii, decide_eq_true_eq] at h
  simp only [isWhitespace, isBlank, decide_eq_decide]
  omega

/-- In visible text, dropping white space is dropping blanks. -/
lemma dropWhile_isWhitespace {l : List Char} (h : l.all isVisibleAscii) :
    l.dropWhile isWhitespace = l.dropWhile isBlank := by
  induction l with
  | nil => rfl
  | cons c l ih =>
    simp only [List.all_cons, Bool.and_eq_true] at h
    simp only [List.dropWhile_cons, isWhitespace_eq_isBlank h.1, ih h.2]

/-- Stripping adds no character. -/
lemma mem_of_mem_strip {c : Char} {e : List Char} (h : c ∈ strip e) : c ∈ e := by
  have h₁ := (List.dropWhile_suffix _).mem (List.mem_reverse.mp h)
  exact (List.dropWhile_suffix _).mem (List.mem_reverse.mp h₁)

/-- In visible ASCII the white space that is trimmed is the blanks. -/
lemma trim_ofList {l : List Char} (h : l.all isVisibleAscii) :
    trim (String.ofList l) = String.ofList (strip l) := by
  have h₁ : (l.dropWhile isBlank).reverse.all isVisibleAscii := by
    simp only [List.all_eq_true, List.mem_reverse] at h ⊢
    exact fun c hc => h c ((List.dropWhile_suffix _).mem hc)
  simp only [trim, strip, String.toList_ofList, dropWhile_isWhitespace h,
    dropWhile_isWhitespace h₁]

/-- Stripping twice is stripping once. -/
lemma strip_strip (e : List Char) : strip (strip e) = strip e := by
  have hstart : (strip e).dropWhile isBlank = strip e := by
    have hprefix : strip e <+: e.dropWhile isBlank := by
      rw [strip, ← List.reverse_suffix, List.reverse_reverse]
      exact List.dropWhile_suffix _
    exact dropWhile_of_prefix hprefix (dropWhile_idem e)
  have hend : (strip e).reverse.dropWhile isBlank = (strip e).reverse := by
    rw [strip, List.reverse_reverse, dropWhile_idem]
  rw [strip, hstart, hend, List.reverse_reverse]

/-- The pieces of a line have no comma, and no character that is not in the line. -/
lemma mem_of_mem_splitOn {e l : List Char} (h : e ∈ l.splitOn ',') :
    ∀ c ∈ e, c ≠ ',' ∧ c ∈ l := by
  induction l generalizing e with
  | nil => simp_all
  | cons d l ih =>
    have hlater : ∀ e' ∈ l.splitOn ',', ∀ c ∈ e', c ≠ ',' ∧ c ∈ d :: l :=
      fun e' he' c hc => ⟨(ih he' c hc).1, List.mem_cons_of_mem _ (ih he' c hc).2⟩
    rw [List.splitOn_cons_eq_if_modifyHead] at h
    split at h
    · obtain rfl | h := List.mem_cons.mp h
      · simp
      · exact hlater e h
    · next hd =>
      obtain ⟨first, rest, hsplit⟩ := List.exists_cons_of_ne_nil (List.splitOn_ne_nil ',' l)
      rw [hsplit] at h hlater
      obtain rfl | h := List.mem_cons.mp h
      · intro c hc
        obtain rfl | hc := List.mem_cons.mp hc
        · exact ⟨by simpa using hd, List.mem_cons_self ..⟩
        · exact hlater first (List.mem_cons_self ..) c hc
      · exact hlater e (List.mem_cons_of_mem _ h)

/-- Elements are stripped and hold no comma. -/
lemma strip_of_mem_elements {e : List Char} {lines : List HeaderValue} (h : e ∈ elements lines) :
    strip e = e ∧ ',' ∉ e := by
  obtain ⟨e', he', rfl⟩ := List.mem_map.mp h
  obtain ⟨line, -, hline⟩ := List.mem_flatMap.mp he'
  exact ⟨strip_strip e', fun hc => (mem_of_mem_splitOn hline _ (mem_of_mem_strip hc)).1 rfl⟩

/-- Elements that are put into one line with commas are read again. -/
lemma elements_intercalate {es : List (List Char)} (hne : es ≠ [])
    (h : ∀ e ∈ es, strip e = e ∧ ',' ∉ e) : elements [[','].intercalate es] = es := by
  have hsplit : ([','].intercalate es).splitOn ',' = es :=
    List.splitOn_intercalate ',' (fun e he => (h e he).2) hne
  have hstrip : es.map strip = es := by
    conv_rhs => rw [← List.map_id es]
    exact List.map_congr_left fun e he => (h e he).1
  simp [elements, hsplit, hstrip]

/-- The characters of a joined text. -/
lemma mem_of_mem_intercalate {c : Char} {es : List (List Char)} (h : c ∈ [','].intercalate es) :
    c = ',' ∨ ∃ e ∈ es, c ∈ e := by
  induction es with
  | nil => simp [List.intercalate] at h
  | cons e es ih =>
    cases es with
    | nil => exact .inr ⟨e, List.mem_cons_self .., by simpa [List.intercalate] using h⟩
    | cons e' es =>
      have hsplit :
          [','].intercalate (e :: e' :: es) = e ++ ',' :: [','].intercalate (e' :: es) := by
        simp [List.intercalate]
      rw [hsplit, List.mem_append, List.mem_cons] at h
      obtain he | rfl | hrest := h
      · exact .inr ⟨e, List.mem_cons_self .., he⟩
      · exact .inl rfl
      · exact (ih hrest).imp id fun ⟨e₁, he₁, hc⟩ => ⟨e₁, List.mem_cons_of_mem _ he₁, hc⟩

/-! ## What the first line leads to -/

section Address

variable {trusted : List Net.IpAddr}

/-- The last of the elements that is an address of no trusted proxy. -/
private def lastClient (trusted : List Net.IpAddr)
    (es : List (List Char)) : Option Net.IpAddr :=
  (es.reverse.find? fun e => (plainAddress e).any fun a => decide (a ∉ trusted)).bind
    plainAddress

/-- There is no last client iff no address but those of trusted proxies is there. -/
private lemma lastClient_eq_none_iff {es : List (List Char)} :
    lastClient trusted es = none ↔ OnlyProxies trusted es := by
  constructor
  · intro h e he a ha
    by_contra hat
    cases hfind : es.reverse.find? fun e =>
        (plainAddress e).any fun a => decide (a ∉ trusted) with
    | none =>
      have hnot := List.find?_eq_none.mp hfind e (List.mem_reverse.mpr he)
      simp [ha, hat] at hnot
    | some e' =>
      have hclient := List.find?_some hfind
      simp only [lastClient, hfind, Option.bind_some] at h
      simp [h] at hclient
  · intro h
    have hfind : (es.reverse.find? fun e =>
        (plainAddress e).any fun a => decide (a ∉ trusted)) = none := by
      rw [List.find?_eq_none]
      intro e he hany
      obtain ⟨a, ha, hat⟩ := Option.any_eq_true _ _ |>.mp hany
      exact of_decide_eq_true hat (h e (List.mem_reverse.mp he) a ha)
    rw [lastClient, hfind, Option.bind_none]

/-- The last client is the last address that is no proxy. -/
private lemma lastClient_eq_some_iff {es : List (List Char)} {a : Net.IpAddr} :
    lastClient trusted es = some a ↔ a ∉ trusted ∧
      ∃ before e after, es = before ++ e :: after ∧ plainAddress e = some a ∧
        OnlyProxies trusted after := by
  constructor
  · intro h
    obtain ⟨e, hfind, ha⟩ := Option.bind_eq_some_iff.mp h
    obtain ⟨hclient, after, before, hsplit, hafter⟩ := List.find?_eq_some_iff_append.mp hfind
    refine ⟨by simpa [ha] using hclient, before.reverse, e, after.reverse, ?_, ha, ?_⟩
    · simpa using congrArg List.reverse hsplit
    · intro e' he' b hb
      have hnot := hafter e' (List.mem_reverse.mp he')
      simpa [hb] using hnot
  · rintro ⟨hat, before, e, after, rfl, ha, hafter⟩
    refine Option.bind_eq_some_iff.mpr ⟨e, List.find?_eq_some_iff_append.mpr ⟨by simp [ha, hat],
      after.reverse, before.reverse, by simp, ?_⟩, ha⟩
    intro e' he'
    cases hb : plainAddress e' with
    | none => rfl
    | some b => simp [hafter e' (List.mem_reverse.mp he') b hb]

/-- The text of an address is visible. -/
private lemma visible_of_plainAddress {e : List Char} (h : (plainAddress e).isSome) :
    ∀ c ∈ e, isVisibleAscii c := by
  rw [plainAddress] at h
  split at h
  · next hvisible => exact List.all_eq_true.mp hvisible
  · simp at h

/-- The addresses of a line are those of its elements. -/
private lemma hops_ofList {line : HeaderValue} (h : line.all isVisibleAscii) :
    hops (some (String.ofList line)) = (elements [line]).filterMap plainAddress := by
  simp only [hops, Option.getD_some, String.toList_ofList, elements, List.flatMap_cons,
    List.flatMap_nil, List.append_nil, List.filterMap_map]
  refine List.filterMap_congr fun e he => ?_
  have hvisible : e.all isVisibleAscii := by
    rw [List.all_eq_true] at h ⊢
    exact fun c hc => h c (mem_of_mem_splitOn he c hc).2
  have hstrip : (strip e).all isVisibleAscii := by
    rw [List.all_eq_true] at hvisible ⊢
    exact fun c hc => hvisible c (mem_of_mem_strip hc)
  simp [plainAddress, trim_ofList hvisible, hstrip]

/-- Behind a trusted proxy the first line says the address, or else it is the proxy's. -/
private lemma fromRequestParts_of_trusted {peer : Net.IpAddr} (h : peer ∈ trusted)
    (lines : List HeaderValue) :
    ClientAddr.fromRequestParts (some peer) lines trusted =
      some ((lines.head?.bind fun line => if line.all isVisibleAscii then
        lastClient trusted (elements [line]) else none).getD peer) := by
  have hcode (forwarded : Option String) : clientAddress (some peer) forwarded trusted =
      some (((hops forwarded).reverse.find? fun a => decide (a ∉ trusted)).getD peer) := by
    simp [clientAddress, h]
  have hnothing : hops none = [] := by decide
  rw [ClientAddr.fromRequestParts, hcode]
  cases lines.head? with
  | none => simp [hnothing]
  | some line =>
    by_cases hline : line.all isVisibleAscii
    · simp only [Option.bind_some, HeaderValue.toStr, hline, if_true, hops_ofList hline, lastClient,
        ← List.filterMap_reverse, List.find?_filterMap]
    · simp only [Option.bind_some, HeaderValue.toStr, if_neg hline, hnothing, List.reverse_nil,
        List.find?_nil]

/-- The elements of the deciding part, put into one line, are read again. -/
private lemma elements_alone {lines : List HeaderValue} (h : decidingPart trusted lines ≠ []) :
    elements [[','].intercalate (decidingPart trusted lines)] = decidingPart trusted lines := by
  refine elements_intercalate h fun e he => @strip_of_mem_elements e lines ?_
  obtain ⟨hnil, -⟩ | ⟨before, a, after, hsplit, -, -, hlast⟩ :=
    fromLast_cases (isProxy trusted) (elements lines)
  · exact absurd hnil h
  · rw [decidingPart, hlast] at he
    rw [hsplit]
    exact List.mem_append_right _ he

/-- What stands after the deciding element are the addresses of proxies. -/
private lemma decidingPart_cases (trusted : List Net.IpAddr) (lines : List HeaderValue) :
    decidingPart trusted lines = [] ∨ ∃ e after, decidingPart trusted lines = e :: after ∧
      isProxy trusted e = false ∧ ∀ e' ∈ after, isProxy trusted e' := by
  obtain ⟨hnil, -⟩ | ⟨-, e, after, -, he, hafter, h⟩ :=
    fromLast_cases (isProxy trusted) (elements lines)
  · exact .inl hnil
  · exact .inr ⟨e, after, h, he, hafter⟩

/-- The deciding address is no proxy. -/
private lemma decidingAddress_not_mem {lines : List HeaderValue} {a : Net.IpAddr}
    (h : decidingAddress trusted lines = some a) : a ∉ trusted := by
  obtain hnil | ⟨e, after, hpart, he, -⟩ := decidingPart_cases trusted lines
  · simp [decidingAddress, hnil] at h
  · have ha : plainAddress e = some a := by simpa [decidingAddress, hpart] using h
    simpa [isProxy, ha] using he

/-- With the deciding part alone the deciding element decides. -/
private lemma fromRequestParts_alone_of_trusted {peer : Net.IpAddr} (h : peer ∈ trusted)
    (lines : List HeaderValue) :
    ClientAddr.fromRequestParts (some peer) (alone trusted lines) trusted =
      some ((decidingAddress trusted lines).getD peer) := by
  rw [fromRequestParts_of_trusted h]
  obtain hnil | ⟨e, after, hpart, he, hafter⟩ := decidingPart_cases trusted lines
  · simp [alone, decidingAddress, hnil]
  · have hne : decidingPart trusted lines ≠ [] := by simp [hpart]
    have honly : OnlyProxies trusted after := by
      intro e' he' a ha
      simpa [isProxy, ha] using hafter e' he'
    have hdecides : decidingAddress trusted lines = plainAddress e := by
      simp [decidingAddress, hpart]
    simp only [alone, hne, if_false, List.head?_cons, Option.bind_some, elements_alone hne,
      hdecides]
    cases ha : plainAddress e with
    | some a =>
      have hat : a ∉ trusted := by simpa [isProxy, ha] using he
      have hlast : lastClient trusted (decidingPart trusted lines) = some a :=
        lastClient_eq_some_iff.mpr ⟨hat, [], e, after, hpart, ha, honly⟩
      have hvisible : ([','].intercalate (decidingPart trusted lines)).all isVisibleAscii := by
        rw [List.all_eq_true]
        intro c hc
        obtain rfl | ⟨e', he', hc⟩ := mem_of_mem_intercalate hc
        · rfl
        · rw [hpart] at he'
          obtain rfl | he' := List.mem_cons.mp he'
          · exact visible_of_plainAddress (by rw [ha]; rfl) c hc
          · refine visible_of_plainAddress ?_ c hc
            exact Option.isSome_of_any (hafter e' he')
      simp only [hvisible, if_true, hlast]
    | none =>
      have hlast : lastClient trusted (decidingPart trusted lines) = none := by
        rw [lastClient_eq_none_iff, hpart]
        intro e' he' b hb
        obtain rfl | he' := List.mem_cons.mp he'
        · simp [ha] at hb
        · exact honly e' he' b hb
      simp only [hlast, ite_self]

/-- The first line agrees just when it leads to the deciding address. -/
private lemma firstLineAgrees_iff (lines : List HeaderValue) :
    FirstLineAgrees trusted lines ↔
      (lines.head?.bind fun line => if line.all isVisibleAscii then
        lastClient trusted (elements [line]) else none) = decidingAddress trusted lines := by
  cases ha : decidingAddress trusted lines with
  | none =>
    simp only [FirstLineAgrees, ha, ← lastClient_eq_none_iff]
    cases lines.head? with
    | none => exact iff_of_true (fun line hline => nomatch hline) rfl
    | some line => simp only [Option.some.injEq, forall_eq', Option.bind_some, ite_eq_right_iff]
  | some a =>
    have hat : a ∉ trusted := decidingAddress_not_mem ha
    simp only [FirstLineAgrees, ha]
    cases lines.head? with
    | none =>
      refine iff_of_false ?_ (fun h => nomatch h)
      rintro ⟨line, hline, -⟩
      cases hline
    | some line =>
      have hclient := @lastClient_eq_some_iff trusted (elements [line]) a
      simp only [Option.some.injEq, exists_eq_left', Option.bind_some]
      by_cases hline : line.all isVisibleAscii
      · simp only [hline, if_true, true_and, hclient]
        exact (and_iff_right hat).symm
      · rw [if_neg hline]
        exact iff_of_false (fun h => hline h.1) (fun h => nomatch h)

end Address

/-! ## What a client can choose -/

/-- What stands before the deciding part has no influence on the address of the request. -/
def Unchosen (trusted : List Net.IpAddr) (peer : Option Net.IpAddr) (lines : List HeaderValue) :
    Prop :=
  ClientAddr.fromRequestParts peer lines trusted =
    ClientAddr.fromRequestParts peer (alone trusted lines) trusted

/-- A request from no trusted proxy, or with a header whose first line agrees. -/
def NothingToChoose (trusted : List Net.IpAddr) (peer : Option Net.IpAddr)
    (lines : List HeaderValue) : Prop :=
  ∀ p ∈ trusted, peer = some p → FirstLineAgrees trusted lines

/-- A request with the deciding part alone has the same deciding part. -/
lemma decidingPart_alone (trusted : List Net.IpAddr) (lines : List HeaderValue) :
    decidingPart trusted (alone trusted lines) = decidingPart trusted lines := by
  by_cases h : decidingPart trusted lines = []
  · have hnil : elements [] = [] := rfl
    rw [h, alone, if_pos h, decidingPart, hnil, fromLast]
  · rw [alone, if_neg h, decidingPart, elements_alone h]
    exact fromLast_fromLast _ _

/-- The same deciding part decides the same. -/
lemma alone_congr {trusted : List Net.IpAddr} {lines lines' : List HeaderValue}
    (h : decidingPart trusted lines = decidingPart trusted lines') :
    alone trusted lines = alone trusted lines' := by
  simp only [alone, h]

/-- Falling back to the peer tells two addresses apart, unless one of them is the peer. -/
lemma getD_inj {a b : Option Net.IpAddr} {peer : Net.IpAddr} (ha : a ≠ some peer)
    (hb : b ≠ some peer) : a.getD peer = b.getD peer ↔ a = b := by
  cases a <;> cases b <;> simp_all [eq_comm]

/-- A client cannot choose its address iff there is nothing to choose. -/
lemma unchosen_iff_nothingToChoose (trusted : List Net.IpAddr) (peer : Option Net.IpAddr)
    (lines : List HeaderValue) :
    Unchosen trusted peer lines ↔ NothingToChoose trusted peer lines := by
  cases peer with
  | none => simp [Unchosen, NothingToChoose, ClientAddr.fromRequestParts, clientAddress]
  | some peer =>
    by_cases hpeer : peer ∈ trusted
    · have hcond : NothingToChoose trusted (some peer) lines ↔ FirstLineAgrees trusted lines := by
        simp only [NothingToChoose, Option.some.injEq]
        exact ⟨fun h => h peer hpeer rfl, fun h _ _ _ => h⟩
      rw [hcond, Unchosen, fromRequestParts_of_trusted hpeer,
        fromRequestParts_alone_of_trusted hpeer, firstLineAgrees_iff, Option.some.injEq]
      refine getD_inj ?_ fun h => decidingAddress_not_mem h hpeer
      intro h
      obtain ⟨line, -, hline⟩ := Option.bind_eq_some_iff.mp h
      split at hline
      · exact (lastClient_eq_some_iff.mp hline).1 hpeer
      · simp at hline
    · have hcond : NothingToChoose trusted (some peer) lines := by
        rintro p hp ⟨rfl⟩
        exact absurd hp hpeer
      simp [Unchosen, hcond, ClientAddr.fromRequestParts, clientAddress, hpeer]

/-- **The address of a request behind a proxy.** It depends on the peer and the deciding part alone
if and only if no header has an influence by what stands before that part. A header has none if and
only if the peer is no trusted proxy or the first line agrees, so that two such headers with the
same deciding part lead to the same address. -/
theorem clientAddress_unchosen_iff (trusted : List Net.IpAddr) (peer : Option Net.IpAddr) :
    ((∀ lines lines', decidingPart trusted lines = decidingPart trusted lines' →
        ClientAddr.fromRequestParts peer lines trusted =
          ClientAddr.fromRequestParts peer lines' trusted) ↔
      ∀ lines, Unchosen trusted peer lines) ∧
    (∀ lines, Unchosen trusted peer lines ↔ NothingToChoose trusted peer lines) ∧
    ∀ lines lines', decidingPart trusted lines = decidingPart trusted lines' →
      NothingToChoose trusted peer lines → NothingToChoose trusted peer lines' →
      ClientAddr.fromRequestParts peer lines trusted =
        ClientAddr.fromRequestParts peer lines' trusted := by
  have hsame {lines lines' : List HeaderValue}
      (h : decidingPart trusted lines = decidingPart trusted lines')
      (hl : Unchosen trusted peer lines) (hl' : Unchosen trusted peer lines') :
      ClientAddr.fromRequestParts peer lines trusted =
        ClientAddr.fromRequestParts peer lines' trusted := by
    rw [hl, hl', alone_congr h]
  refine ⟨⟨fun h lines => ?_, fun h lines lines' heq => hsame heq (h lines) (h lines')⟩,
    unchosen_iff_nothingToChoose trusted peer, fun lines lines' heq hl hl' => hsame heq ?_ ?_⟩
  · exact h _ _ (decidingPart_alone trusted lines).symm
  · exact (unchosen_iff_nothingToChoose ..).mpr hl
  · exact (unchosen_iff_nothingToChoose ..).mpr hl'

/-- The proxy adds a line of its own after the client's: the client's line is read. -/
theorem not_unchosen_ownLine :
    ¬ ∀ (trusted : List Net.IpAddr) (peer : Net.IpAddr) (lines lines' : List HeaderValue),
      peer ∈ trusted → decidingPart trusted lines = decidingPart trusted lines' →
        ClientAddr.fromRequestParts (some peer) lines trusted =
          ClientAddr.fromRequestParts (some peer) lines' trusted := by
  intro h
  have hsame := h [.v4 10 0 0 1] (.v4 10 0 0 1) ["203.0.113.9".toList, "198.51.100.7".toList]
    ["198.51.100.7".toList] (by decide) (by decide)
  revert hsame
  decide

/-- The proxy adds the address with a port: the element before it decides. -/
example : ¬ Unchosen [.v4 10 0 0 1] (some (.v4 10 0 0 1))
    ["203.0.113.9, 198.51.100.7:4711".toList] := by
  unfold Unchosen
  decide

end AuditGateway
