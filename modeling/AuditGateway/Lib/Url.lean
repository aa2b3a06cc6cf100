import Mathlib.Data.List.Basic
import Mathlib.Tactic.Common

set_option relaxedAutoImplicit false
set_option autoImplicit false

/-!
# Texts with URLs in them

A text is cut at every `://`. Behind each one stands the rest of a URL, which begins with its
authority: everything up to the first `/`, `?` or `#`. What is before the last `@` of the authority
is the user information. Two texts have one outline if they differ in nothing but user information.

## Main definitions

* `Urls.parts`, `Urls.join` — a text cut at every `://`, and put together again.
* `Urls.cut` — the user information of a URL and what is behind it.
* `Urls.outline`, `Urls.userinfos` — a text without its user information, and that alone.

## Main results

* `Urls.join_inj` — a text has its URLs in one way only.
* `Urls.cut_append_join` — what follows a URL is no part of its user information.
* `Urls.eq_of_outline_eq` — outline and user information make up the text.
-/

namespace AuditGateway.Urls

/-- The mark of a URL in a text. -/
def mark : List Char := [':', '/', '/']

/-- What is before the first `://` of a text, and what is behind each one up to the next. -/
def parts : List Char → List Char × List (List Char)
  | ':' :: '/' :: '/' :: text => ([], (parts text).1 :: (parts text).2)
  | c :: text => (c :: (parts text).1, (parts text).2)
  | [] => ([], [])

/-- The URLs of a text from the first `://` on. -/
def join (urls : List (List Char)) : List Char := urls.flatMap fun url => mark ++ url

/-- A text cut at the last `@` of the authority that it begins with, if there is one. -/
def cut : List Char → Option (List Char × List Char)
  | [] => none
  | c :: text =>
    if c = '/' ∨ c = '?' ∨ c = '#' then none
    else
      match cut text with
      | some (info, rest) => some (c :: info, rest)
      | none => if c = '@' then some ([], c :: text) else none

/-- The user information of a URL, if it has one. -/
def userinfo (url : List Char) : Option (List Char) := (cut url).map (·.1)

/-- A URL without its user information, and whether there is one. -/
def withoutUserinfo (url : List Char) : Bool × List Char :=
  ((cut url).isSome, (cut url).elim url (·.2))

/-- A text without the user information of its URLs. -/
def outline (text : List Char) : List Char × List (Bool × List Char) :=
  ((parts text).1, (parts text).2.map withoutUserinfo)

/-- The user information of the URLs of a text. -/
def userinfos (text : List Char) : List (Option (List Char)) := (parts text).2.map userinfo

/-! ## Cutting a text and putting it together -/

/-- A URL begins with its mark. -/
@[simp] theorem join_cons (url : List Char) (urls : List (List Char)) :
    join (url :: urls) = ':' :: '/' :: '/' :: (url ++ join urls) := rfl

/-- What is behind a mark is a URL. -/
theorem parts_mark (text : List Char) :
    parts (':' :: '/' :: '/' :: text) = ([], (parts text).1 :: (parts text).2) := rfl

/-- The parts make up the text. -/
theorem append_join (text : List Char) : (parts text).1 ++ join (parts text).2 = text := by
  fun_induction parts text with
  | case1 text ih => simp [ih]
  | case2 c text hmark ih => simp [ih]
  | case3 => rfl

/-- The URLs of a text are those of the text from the first `://` on. -/
theorem parts_join (text : List Char) : parts (join (parts text).2) = ([], (parts text).2) := by
  fun_induction parts text with
  | case1 text ih => rw [join_cons, append_join, parts_mark]
  | case2 c text hmark ih => exact ih
  | case3 => rfl

/-- Behind the first `://` stands a URL, with the others behind it. -/
theorem exists_parts_eq {text url : List Char} {urls : List (List Char)}
    (h : (parts text).2 = url :: urls) : ∃ rest, parts rest = (url, urls) := by
  fun_induction parts text with
  | case1 text ih =>
    obtain ⟨rfl, rfl⟩ := List.cons.inj h
    exact ⟨text, rfl⟩
  | case2 c text hmark ih => exact ih h
  | case3 => cases h

/-- The URLs behind the first one are known by their text. -/
theorem join_inj {text text' url url' : List Char} {urls urls' : List (List Char)}
    (h : (parts text).2 = url :: urls) (h' : (parts text').2 = url' :: urls') :
    join urls = join urls' ↔ urls = urls' := by
  obtain ⟨rest, hrest⟩ := exists_parts_eq h
  obtain ⟨rest', hrest'⟩ := exists_parts_eq h'
  have hjoin := parts_join rest
  have hjoin' := parts_join rest'
  rw [hrest] at hjoin
  rw [hrest'] at hjoin'
  constructor
  · intro heq
    dsimp only at hjoin hjoin'
    rw [heq, hjoin'] at hjoin
    exact (Prod.mk.inj hjoin).2.symm
  · rintro rfl
    rfl

/-! ## User information -/

/-- User information and the rest make up the URL. -/
theorem append_of_cut {url info rest : List Char} (h : cut url = some (info, rest)) :
    info ++ rest = url := by
  induction url generalizing info rest with
  | nil => cases h
  | cons c text ih =>
    rw [cut] at h
    by_cases hends : c = '/' ∨ c = '?' ∨ c = '#'
    · rw [if_pos hends] at h
      cases h
    · rw [if_neg hends] at h
      cases hcut : cut text with
      | some p =>
        rw [hcut] at h
        cases h
        rw [List.cons_append, ih hcut]
      | none =>
        rw [hcut] at h
        dsimp only at h
        split_ifs at h
        cases h
        rfl

/-- A URL is known by its user information and the rest. -/
theorem cut_injective : Function.Injective fun url => (userinfo url, withoutUserinfo url) := by
  intro url url' h
  obtain ⟨hinfo, hrest⟩ := Prod.mk.inj h
  unfold userinfo at hinfo
  unfold withoutUserinfo at hrest
  cases hcut : cut url with
  | none =>
    cases hcut' : cut url' with
    | none => simpa [hcut, hcut'] using hrest
    | some p => simp [hcut, hcut'] at hrest
  | some p =>
    cases hcut' : cut url' with
    | none => simp [hcut, hcut'] at hrest
    | some p' =>
      obtain ⟨info, rest⟩ := p
      obtain ⟨info', rest'⟩ := p'
      simp only [hcut, hcut', Option.map_some, Option.some.injEq] at hinfo
      simp only [hcut, hcut', Option.elim_some, Option.isSome_some, Prod.mk.injEq,
        true_and] at hrest
      rw [← append_of_cut hcut, ← append_of_cut hcut', hinfo, hrest]

/-- The mark of the next URL ends an authority behind its last `@`. -/
theorem cut_join (urls : List (List Char)) : cut (join urls) = none := by
  cases urls with
  | nil => rfl
  | cons url urls => simp [cut]

/-- **What follows a URL is no part of its user information.** -/
theorem cut_append_join (url : List Char) (urls : List (List Char)) :
    cut (url ++ join urls) = (cut url).map fun p => (p.1, p.2 ++ join urls) := by
  induction url with
  | nil => exact cut_join urls
  | cons c text ih =>
    rw [List.cons_append, cut, cut, ih]
    by_cases hends : c = '/' ∨ c = '?' ∨ c = '#'
    · rw [if_pos hends, if_pos hends]
      rfl
    · rw [if_neg hends, if_neg hends]
      cases cut text with
      | some p => rfl
      | none =>
        dsimp only [Option.map_none]
        split_ifs
        · rfl
        · rfl

/-! ## Outline and user information -/

/-- Lists are equal if two functions that know their elements together agree on them. -/
theorem eq_of_map_eq {urls urls' : List (List Char)}
    (hinfo : urls.map userinfo = urls'.map userinfo)
    (hrest : urls.map withoutUserinfo = urls'.map withoutUserinfo) : urls = urls' := by
  induction urls generalizing urls' with
  | nil =>
    rw [List.map_nil, eq_comm, List.map_eq_nil_iff] at hrest
    exact hrest.symm
  | cons url urls ih =>
    cases urls' with
    | nil => cases hrest
    | cons url' urls' =>
      simp only [List.map_cons, List.cons.injEq] at hinfo hrest
      rw [ih hinfo.2 hrest.2, cut_injective (Prod.ext hinfo.1 hrest.1)]

/-- **Outline and user information make up the text.** -/
theorem eq_of_outline_eq {text text' : List Char} (h : outline text = outline text')
    (hinfo : userinfos text = userinfos text') : text = text' := by
  obtain ⟨hhead, hrest⟩ := Prod.mk.inj h
  rw [← append_join text, ← append_join text', hhead, eq_of_map_eq hinfo hrest]

end AuditGateway.Urls
