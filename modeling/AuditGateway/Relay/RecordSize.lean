import AuditGateway.Relay.JsonSize
import AuditGateway.Relay.PreRead
import Mathlib.Data.List.Forall2
import Mathlib.Data.Set.Finite.Lattice

set_option relaxedAutoImplicit false
set_option autoImplicit false

/-!
# The size of a record

How large the records of a change become. Most of what a client chooses is cut: texts, byte strings
and arrays by their own rules, and a value whose rendering is still large is replaced by a preview.
Four parts are not cut: the index range of a write, the number of arguments of a call, the type of
unknown details of a history update, and the subscriptions and results of a transfer.

## Main definitions

* `Audited` — a request with everything that decides its records.
* `Audited.events` — its records.
* `Audited.uncut`, `Audited.Within` — the parts of the request that are not cut.

## Main results

* `AuditMap.size_auditValue_le` — a rendering has a bounded size.
* `AuditEvent.size_le`, `AuditEvent.uncut_le_size` — a record is as large as its uncut part.
* `Audited.bounded_iff_within` — requests have records of bounded size exactly if what is not cut is
  bounded.

## Design

`serde_json` is a parameter with its documented text of a value, `Json.chars`. The statement is
about sets of requests, since one bound has to hold for all of them.
-/

namespace AuditGateway

/-! ## The texts of other crates -/

/-- JSON is printed without spaces, with the escapes of `serde_json`. -/
def Texts.Prints (x : Texts) (floats : UInt64 → List Char) : Prop :=
  ∀ value, x.json value = String.ofList (value.chars floats)

/-- The texts that do not depend on a client's texts have at most `k` bytes. -/
structure Texts.Small (x : Texts) (k : ℕ) : Prop where
  statusCode (status : StatusCode) : (x.statusCode status).utf8ByteSize ≤ k
  scalarType (type : ScalarType) : (x.scalarType type).utf8ByteSize ≤ k
  attributeName {id : ℕ} (hid : id < 2 ^ 32) : (AuditMap.attributeName x id).utf8ByteSize ≤ k

/-- There are finitely many scalar types. -/
instance : Finite ScalarType := by
  have hlt : ∀ t : ScalarType, t.ctorIdx < 25 := by
    intro t
    cases t <;> decide
  have hinverse : Function.LeftInverse (fun i : Fin 25 => ScalarType.ofNat i)
      fun t : ScalarType => ⟨t.ctorIdx, hlt t⟩ := ScalarType.ofNat_ctorIdx
  exact Finite.of_injective _ hinverse.injective

/-- Finitely many numbers have a bound. -/
theorem exists_le_of_finite {ι : Type} [Finite ι] (f : ι → ℕ) : ∃ n, ∀ i, f i ≤ n := by
  obtain ⟨n, hn⟩ := (Set.finite_range f).bddAbove
  exact ⟨n, fun i => hn (Set.mem_range_self i)⟩

/-- There are finitely many status codes, types and attributes. -/
theorem Texts.exists_small (x : Texts) : ∃ k, x.Small k := by
  obtain ⟨a, ha⟩ := exists_le_of_finite fun i : Fin (2 ^ 32) =>
    (x.statusCode ⟨UInt32.ofFin i⟩).utf8ByteSize
  obtain ⟨b, hb⟩ := exists_le_of_finite fun i : Fin (2 ^ 32) =>
    (AuditMap.attributeName x i).utf8ByteSize
  obtain ⟨c, hc⟩ := exists_le_of_finite fun t => (x.scalarType t).utf8ByteSize
  refine ⟨a + b + c, fun status => ?_, fun t => ?_, fun {id} hid => ?_⟩
  · have : (x.statusCode status).utf8ByteSize ≤ a := ha status.bits.toFin
    omega
  · have := hc t
    omega
  · have : (AuditMap.attributeName x id).utf8ByteSize ≤ b := hb ⟨id, hid⟩
    omega

variable {x : Texts} {floats : UInt64 → List Char} {k limit n : ℕ}

/-- A printed value has the size that is computed for it. -/
theorem Texts.Prints.utf8ByteSize_json (hprints : x.Prints floats) (value : Json) :
    (x.json value).utf8ByteSize = value.size floats := by
  rw [hprints value, utf8ByteSize_eq, String.toList_ofList, Json.size]

/-- A text has at most as many characters as bytes. -/
theorem length_le_utf8ByteSize (s : String) : s.length ≤ s.utf8ByteSize := by
  have hle : ∀ l : List Char, l.length ≤ byteSize l := by
    intro l
    induction l with
    | nil => simp
    | cons c l ih =>
      have hpos := c.utf8Size_pos
      rw [List.length_cons, byteSize_cons]
      omega
  rw [utf8ByteSize_eq, ← String.length_toList]
  exact hle s.toList

/-- A text that is cut has a bounded size. -/
theorem utf8ByteSize_clip_le {text : String} (h : text.length < 2 ^ 64) (m : ℕ) :
    (clip text m).utf8ByteSize ≤ 4 * (m + 40) := by
  refine utf8ByteSize_le ?_
  unfold clip
  split_ifs with hshort
  · omega
  · have hdigits : (toString text.length).length ≤ 20 :=
      Nat.repr_length text.length 20 (by omega) (by omega)
    have hstart : "… (".length = 3 := by decide
    have hend : " characters)".length = 12 := by decide
    rw [String.length_append, String.length_append, String.length_append, String.length_ofList,
      List.length_take, hstart, hend]
    omega

/-! ## Renderings -/

namespace AuditMap

/-- The name of a data type is short. -/
theorem utf8ByteSize_dataType_le (hsmall : x.Small k) (v : Variant) :
    (dataType x v).utf8ByteSize ≤ k + 10 := by
  have hnull : "Null".utf8ByteSize = 4 := by decide
  have hunknown : "Unknown".utf8ByteSize = 7 := by decide
  have hbrackets : "[]".utf8ByteSize = 2 := by decide
  unfold dataType
  split
  · omega
  · next valueType _ _ =>
    have := hsmall.scalarType valueType
    rw [String.utf8ByteSize_append]
    omega
  · next _ _ =>
    cases htype : scalarTypeId v with
    | none =>
      rw [Option.map_none, Option.getD_none]
      omega
    | some t =>
      have := hsmall.scalarType t
      rw [Option.map_some, Option.getD_some]
      omega

/-- **A rendering has a bounded size**, since a large one is replaced by a preview. -/
theorem size_auditValue_le (hprints : x.Prints floats) (hsmall : x.Small k) {value : AuditValue}
    (h : value.Rendered x limit) : value.toJson.size floats ≤ 12 * k + 170000 := by
  obtain ⟨v, ⟨-, hlength⟩, hvalue⟩ := h
  obtain ⟨json, hjson, rfl⟩ := Option.map_eq_some_iff.1 hvalue
  have hfits := hlength json hjson
  have htype : (Json.string (dataType x v)).size floats ≤ 6 * (k + 10) + 2 :=
    le_trans (Json.size_string_le floats _) (by have := utf8ByteSize_dataType_le hsmall v; omega)
  have hbound : ∀ shown : Json, shown.size floats ≤ 80000 →
      (AuditValue.toJson ⟨dataType x v, shown⟩).size floats ≤ 12 * k + 170000 := by
    intro shown hshown
    have hmembers : Json.Within floats 20 (6 * k + 80062)
        [("data_type", .string (dataType x v)), ("value", shown)] := by
      simp only [Json.within_cons, Json.within_nil, and_true]
      exact ⟨⟨by decide, by omega⟩, by decide, by omega⟩
    have hsize := Json.size_object_le hmembers
    exact hsize.trans (by simp only [List.length_cons, List.length_nil]; omega)
  dsimp only
  split_ifs with hlarge
  · apply hbound
    have hlength : (x.json json).length < 2 ^ 64 :=
      lt_of_le_of_lt (length_le_utf8ByteSize _) hfits
    have hpreview := utf8ByteSize_clip_le hlength maxText
    have htext := Json.size_string_le floats (clip (x.json json) maxText)
    have hcount := Json.size_nat_le floats hfits
    have htrue := Json.size_bool_le floats true
    have hmembers : Json.Within floats 20 26000
        [("length", count (x.json json).utf8ByteSize),
          ("preview", .string (clip (x.json json) maxText)), ("truncated", .bool true)] := by
      rw [count_eq]
      simp only [maxText] at hpreview htext ⊢
      simp only [Json.within_cons, Json.within_nil, and_true]
      exact ⟨⟨by decide, by omega⟩, ⟨by decide, by omega⟩, by decide, by omega⟩
    have hsize := Json.size_object_le hmembers
    exact hsize.trans (by simp only [List.length_cons, List.length_nil]; omega)
  · apply hbound
    rw [hprints.utf8ByteSize_json] at hlarge
    simp only [maxValueJson] at hlarge
    omega

end AuditMap

/-! ## Events -/

namespace AuditEvent

/-- How much of the event is not cut: bytes of texts and lengths of lists. -/
def uncut : AuditEvent → ℕ
  | write _ _ _ _ indexRange .. => indexRange.elim 0 String.utf8ByteSize
  | call _ _ _ _ inputArguments _ => inputArguments.length
  | historyUpdate _ _ details _ => details.utf8ByteSize
  | subscriptionsTransferred _ subscriptionIds status =>
    subscriptionIds.length + status.utf8ByteSize
  | _ => 0

/-- Everything else in an outcome event has at most `n` bytes. -/
def Bounded (floats : UInt64 → List Char) (n : ℕ) : AuditEvent → Prop
  | write requestHandle nodeId displayName attributeName _ oldValue newValue writtenStatus
      sourceTimestamp serverTimestamp status =>
    requestHandle < 2 ^ 64 ∧
      (∀ text ∈ nodeId :: attributeName :: status :: (displayName.toList ++
        writtenStatus.toList ++ sourceTimestamp.toList ++ serverTimestamp.toList),
        text.utf8ByteSize ≤ n) ∧
      ∀ value ∈ newValue :: oldValue.toList, value.toJson.size floats ≤ n
  | call requestHandle objectId methodId displayName inputArguments status =>
    requestHandle < 2 ^ 64 ∧
      (∀ text ∈ objectId :: methodId :: status :: displayName.toList, text.utf8ByteSize ≤ n) ∧
      ∀ value ∈ inputArguments, value.toJson.size floats ≤ n
  | historyUpdate requestHandle nodeId _ status =>
    requestHandle < 2 ^ 64 ∧ ∀ text ∈ [nodeId, status], text.utf8ByteSize ≤ n
  | nodeManagement requestHandle service nodeId status =>
    requestHandle < 2 ^ 64 ∧ ∀ text ∈ [service, nodeId, status], text.utf8ByteSize ≤ n
  | subscriptionsTransferred requestHandle subscriptionIds _ =>
    requestHandle < 2 ^ 64 ∧ ∀ id ∈ subscriptionIds, id < 2 ^ 64
  | _ => False

/-- What a member of an event with so much uncut takes at most. -/
def memberBound (n u : ℕ) : ℕ := (u + 1) * (6 * n + 200)

/-- A text within the bound is a short member. -/
theorem size_text_le {text : String} (h : text.utf8ByteSize ≤ n) (u : ℕ) :
    (Json.string text).size floats ≤ memberBound n u := by
  have hsize := Json.size_string_le floats text
  rw [memberBound, Nat.succ_mul]
  omega

/-- A text that is not cut is a short member, too. -/
theorem size_uncut_le {text : String} {u : ℕ} (h : text.utf8ByteSize ≤ u) (n : ℕ) :
    (Json.string text).size floats ≤ memberBound n u := by
  have hsize := Json.size_string_le floats text
  have hmul : u * 6 ≤ u * (6 * n + 200) := Nat.mul_le_mul_left u (by omega)
  rw [memberBound, Nat.succ_mul]
  omega

/-- A request handle is a short member. -/
theorem size_handle_le {handle : ℕ} (h : handle < 2 ^ 64) (n u : ℕ) :
    (Json.nat handle).size floats ≤ memberBound n u := by
  have hsize := Json.size_nat_le floats h
  rw [memberBound, Nat.succ_mul]
  omega

/-- A list of values of bounded size, which is not cut. -/
theorem size_list_le {values : List Json} {u : ℕ} (hlength : values.length ≤ u)
    (h : ∀ value ∈ values, value.size floats ≤ n + 80) :
    (Json.array values).size floats ≤ memberBound n u := by
  have hsize := Json.size_array_le h
  have hmul : values.length * (n + 80 + 1) ≤ u * (6 * n + 200) :=
    Nat.mul_le_mul hlength (by omega)
  rw [memberBound, Nat.succ_mul]
  omega

/-- Every member of an outcome event is bounded by what is not cut. -/
theorem within_members {event : AuditEvent} (h : event.Bounded floats n)
    (time : DateTime → String) :
    Json.Within floats 20 (memberBound n event.uncut) (event.members time) := by
  cases event with
  | write requestHandle nodeId displayName attributeName indexRange oldValue newValue
      writtenStatus sourceTimestamp serverTimestamp status =>
    obtain ⟨hhandle, htexts, hvalues⟩ := h
    have hvalue : ∀ value ∈ newValue :: oldValue.toList,
        value.toJson.size floats ≤ memberBound n (indexRange.elim 0 String.utf8ByteSize) := by
      intro value hvalue
      have hle := hvalues value hvalue
      rw [memberBound, Nat.succ_mul]
      omega
    simp only [members, Json.within_append, Json.within_cons, Json.within_nil,
      Json.within_optional, and_true, uncut]
    refine ⟨⟨⟨⟨⟨⟨⟨⟨⟨⟨?_, ?_⟩, ?_⟩, ?_⟩, ?_⟩, ?_⟩, ?_⟩, ?_⟩, ?_⟩, ?_⟩, ?_⟩
    · exact ⟨by decide, size_handle_le hhandle _ _⟩
    · exact ⟨by decide, size_text_le (htexts _ (by simp)) _⟩
    · intro name hname
      cases hname
      exact ⟨by decide, size_text_le (htexts _ (by simp)) _⟩
    · exact ⟨by decide, size_text_le (htexts _ (by simp)) _⟩
    · intro range hrange
      cases hrange
      exact ⟨by decide, size_uncut_le (le_refl _) n⟩
    · intro old hold
      cases hold
      exact ⟨by decide, hvalue _ (by simp)⟩
    · exact ⟨by decide, hvalue _ (by simp)⟩
    · intro text htext
      cases htext
      exact ⟨by decide, size_text_le (htexts _ (by simp)) _⟩
    · intro text htext
      cases htext
      exact ⟨by decide, size_text_le (htexts _ (by simp)) _⟩
    · intro text htext
      cases htext
      exact ⟨by decide, size_text_le (htexts _ (by simp)) _⟩
    · exact ⟨by decide, size_text_le (htexts _ (by simp)) _⟩
  | call requestHandle objectId methodId displayName inputArguments status =>
    obtain ⟨hhandle, htexts, hvalues⟩ := h
    simp only [members, Json.within_append, Json.within_cons, Json.within_nil,
      Json.within_optional, and_true, uncut]
    refine ⟨⟨⟨?_, ?_, ?_⟩, ?_⟩, ?_, ?_⟩
    · exact ⟨by decide, size_handle_le hhandle _ _⟩
    · exact ⟨by decide, size_text_le (htexts _ (by simp)) _⟩
    · exact ⟨by decide, size_text_le (htexts _ (by simp)) _⟩
    · intro name hname
      cases hname
      exact ⟨by decide, size_text_le (htexts _ (by simp)) _⟩
    · refine ⟨by decide, size_list_le (by simp) fun json hjson => ?_⟩
      obtain ⟨value, hvalue, rfl⟩ := List.mem_map.1 hjson
      exact le_trans (hvalues value hvalue) (by omega)
    · exact ⟨by decide, size_text_le (htexts _ (by simp)) _⟩
  | historyUpdate requestHandle nodeId details status =>
    obtain ⟨hhandle, htexts⟩ := h
    simp only [members, Json.within_cons, Json.within_nil, and_true, uncut]
    refine ⟨?_, ?_, ?_, ?_⟩
    · exact ⟨by decide, size_handle_le hhandle _ _⟩
    · exact ⟨by decide, size_text_le (htexts _ (by simp)) _⟩
    · exact ⟨by decide, size_uncut_le (le_refl _) n⟩
    · exact ⟨by decide, size_text_le (htexts _ (by simp)) _⟩
  | nodeManagement requestHandle service nodeId status =>
    obtain ⟨hhandle, htexts⟩ := h
    simp only [members, Json.within_cons, Json.within_nil, and_true, uncut]
    refine ⟨?_, ?_, ?_, ?_⟩
    · exact ⟨by decide, size_handle_le hhandle _ _⟩
    · exact ⟨by decide, size_text_le (htexts _ (by simp)) _⟩
    · exact ⟨by decide, size_text_le (htexts _ (by simp)) _⟩
    · exact ⟨by decide, size_text_le (htexts _ (by simp)) _⟩
  | subscriptionsTransferred requestHandle subscriptionIds status =>
    obtain ⟨hhandle, hids⟩ := h
    simp only [members, Json.within_cons, Json.within_nil, and_true, uncut]
    refine ⟨?_, ?_, ?_⟩
    · exact ⟨by decide, size_handle_le hhandle _ _⟩
    · refine ⟨by decide, size_list_le ?_ fun json hjson => ?_⟩
      · rw [List.length_map]
        omega
      · obtain ⟨id, hid, rfl⟩ := List.mem_map.1 hjson
        exact le_trans (Json.size_nat_le floats (hids id hid)) (by omega)
    · exact ⟨by decide, size_uncut_le (by omega) n⟩
  | _ => exact h.elim

/-- An event has at most twelve members. -/
theorem length_members_le {event : AuditEvent} (h : event.Bounded floats n)
    (time : DateTime → String) : (event.members time).length ≤ 12 := by
  cases event with
  | write requestHandle nodeId displayName attributeName indexRange oldValue newValue
      writtenStatus sourceTimestamp serverTimestamp status =>
    have hname := Json.length_optional_le "display_name" displayName .string
    have hrange := Json.length_optional_le "index_range" indexRange .string
    have hold := Json.length_optional_le "old_value" oldValue AuditValue.toJson
    have hstatus := Json.length_optional_le "written_status" writtenStatus .string
    have hsource := Json.length_optional_le "source_timestamp" sourceTimestamp .string
    have hserver := Json.length_optional_le "server_timestamp" serverTimestamp .string
    simp only [members, List.length_append, List.length_cons, List.length_nil]
    omega
  | call requestHandle objectId methodId displayName inputArguments status =>
    have hname := Json.length_optional_le "display_name" displayName .string
    simp only [members, List.length_append, List.length_cons, List.length_nil]
    omega
  | historyUpdate | nodeManagement | subscriptionsTransferred => simp [members]
  | _ => exact h.elim

/-- **A record is bounded by what is not cut.** -/
theorem size_le {event : AuditEvent} (h : event.Bounded floats n) (time : DateTime → String) :
    (event.toJson time).size floats ≤ 13 * (memberBound n event.uncut + 400) := by
  have hmembers := within_members h time
  have hlength := length_members_le h time
  have htag : ("type", Json.string event.tag).1.utf8ByteSize ≤ 20 ∧
      (Json.string event.tag).size floats ≤ memberBound n event.uncut := by
    refine ⟨show "type".utf8ByteSize ≤ 20 by decide, ?_⟩
    have hkind : event.kind.utf8ByteSize ≤ 30 := by
      cases event <;> simp only [kind] <;> decide
    have hsize := Json.size_string_le floats event.tag
    rw [tag_eq_kind] at hsize ⊢
    rw [memberBound, Nat.succ_mul]
    omega
  have hsize := Json.size_object_le (Json.within_cons.2 ⟨htag, hmembers⟩)
  have hmul : (event.members time).length * (6 * 20 + memberBound n event.uncut + 4) ≤
      12 * (6 * 20 + memberBound n event.uncut + 4) := Nat.mul_le_mul_right _ hlength
  rw [List.length_cons, Nat.succ_mul] at hsize
  rw [toJson]
  omega

/-- **A record is as large as what is not cut.** -/
theorem uncut_le_size (floats : UInt64 → List Char) (event : AuditEvent)
    (time : DateTime → String) :
    event.uncut ≤ 2 * (event.toJson time).size floats := by
  have hmember : ∀ key value, (key, value) ∈ event.members time →
      value.size floats ≤ (event.toJson time).size floats := by
    intro key value h
    rw [toJson]
    exact Json.size_le_size_object (List.mem_cons_of_mem _ h)
  cases event with
  | write requestHandle nodeId displayName attributeName indexRange oldValue newValue
      writtenStatus sourceTimestamp serverTimestamp status =>
    cases indexRange with
    | none => exact Nat.zero_le _
    | some range =>
      have hsize := hmember "index_range" (.string range) (by simp [members, Json.optional])
      have htext := Json.le_size_string floats range
      show range.utf8ByteSize ≤ _
      omega
  | call requestHandle objectId methodId displayName inputArguments status =>
    have hsize := hmember "input_arguments" (.array (inputArguments.map AuditValue.toJson))
      (by simp [members])
    have hlength := Json.length_le_size_array floats
      (inputArguments.map AuditValue.toJson)
    rw [List.length_map] at hlength
    rw [uncut]
    omega
  | historyUpdate requestHandle nodeId details status =>
    have hsize := hmember "details" (.string details) (by simp [members])
    have htext := Json.le_size_string floats details
    rw [uncut]
    omega
  | subscriptionsTransferred requestHandle subscriptionIds status =>
    have hids := hmember "subscription_ids" (.array (subscriptionIds.map .nat))
      (by simp [members])
    have hstatus := hmember "status" (.string status) (by simp [members])
    have hlength := Json.length_le_size_array floats (subscriptionIds.map .nat)
    have htext := Json.le_size_string floats status
    rw [List.length_map] at hlength
    rw [uncut]
    omega
  | _ => exact Nat.zero_le _

end AuditEvent

/-! ## Requests with what decides their records -/

/-- A request with everything that decides its records. -/
structure Audited where
  request : RequestMessage
  /-- The nodes whose writes are summarised. -/
  ignored : NodeId → Bool
  oldValues : Bool
  /-- The names that are cached when each item is looked up. -/
  found : ℕ → NameCache
  /-- The names that are cached when the results of the reads are applied, and what others do to
  them meanwhile. -/
  names : NameCache
  others : ℕ → NameCache → NameCache
  /-- The results of the reads, if they arrived. -/
  results : Option (List DataValue)
  response : ResponseMessage
  /-- Why no response arrived, if the server may have made the change. -/
  unknown : Option StatusCode

namespace Audited

/-- The reads that are sent with the request. -/
def reads (x : Texts) (a : Audited) : Option PreRead :=
  (AuditMap.plan x a.request).join.bind fun p =>
    ((p.takeIgnored a.ignored).1.preReadAt a.oldValues a.found).2

/-- The plan as the reads leave it, `some none` for a request that is not audited. -/
def plan (x : Texts) (a : Audited) : Option (Option AuditPlan) :=
  match AuditMap.plan x a.request with
  | some (some p) =>
    match (p.takeIgnored a.ignored).1.preReadAt a.oldValues a.found, a.results with
    | (prepared, some pre), some results =>
      (prepared.applyPreReadAt x a.names a.others pre results).map fun applied => some applied.1
    | (prepared, _), _ => some (some prepared)
  | p => p

/-- The events for the outcome, if all values can be rendered. -/
def events (x : Texts) (a : Audited) : Option (List AuditEvent) :=
  (a.plan x).map fun p => p.elim [] fun p =>
    match a.unknown with
    | some status => p.eventsUnknown x a.response status
    | none => p.events x a.response

/-- The values of the request and the values read can be rendered. -/
def Renderable (x : Texts) (a : Audited) : Prop :=
  a.request.Renderable ∧ ∀ pre ∈ a.reads x, ∀ results ∈ a.results, pre.Renderable results

/-- **Which requests have events**: those whose values can be rendered. -/
theorem events_isSome_iff (x : Texts) (a : Audited) : (a.events x).isSome ↔ a.Renderable x := by
  unfold events Renderable
  rw [Option.isSome_map, ← AuditMap.plan_isSome_iff x, plan, reads]
  cases hplan : AuditMap.plan x a.request with
  | none => simp
  | some p =>
    cases p with
    | none => simp
    | some p =>
      cases hprepared : (p.takeIgnored a.ignored).1.preReadAt a.oldValues a.found with
      | mk prepared reads =>
        cases reads with
        | none => simp [hprepared]
        | some pre =>
          cases hresults : a.results with
          | none => simp
          | some results =>
            have hpre : ((p.takeIgnored a.ignored).1.preReadAt a.oldValues a.found).2 =
                some pre := by rw [hprepared]
            have happly : (((p.takeIgnored a.ignored).1.preReadAt a.oldValues
                a.found).1.applyPreReadAt x a.names a.others pre results).isSome ↔
                  pre.Renderable results :=
              AuditPlan.applyPreReadAt_isSome_iff hpre
            rw [hprepared] at happly
            simpa [hprepared] using happly

/-- The plan that has events is the request's, without what is summarised and with what was read. -/
theorem exists_filled {a : Audited} {p' : AuditPlan} (h : a.plan x = some (some p')) :
    ∃ (p : AuditPlan) (pre : PreRead) (results : List DataValue),
      AuditMap.plan x a.request = some (some p) ∧ (results = [] ∨ results ∈ a.results) ∧
      (p.takeIgnored a.ignored).1.Filled x a.found pre results p' := by
  unfold plan at h
  split at h
  · next p hplan =>
    have hunread := AuditPlan.unread_takeIgnored (AuditPlan.unread_of_plan hplan) a.ignored
    split at h
    · next prepared pre results hprepared hresults =>
      obtain ⟨⟨plan', names'⟩, happly, heq⟩ := Option.map_eq_some_iff.1 h
      cases heq
      have hfst : ((p.takeIgnored a.ignored).1.preReadAt a.oldValues a.found).1 = prepared := by
        rw [hprepared]
      rw [← hfst] at happly
      exact ⟨p, pre, results, hplan, .inr hresults,
        AuditPlan.filled_applyPreReadAt hunread (congrArg Prod.snd hprepared) happly⟩
    · next prepared reads hprepared _ =>
      cases h
      have hfilled := AuditPlan.filled_preReadAt x hunread a.oldValues a.found
      rw [hprepared] at hfilled
      exact ⟨p, ⟨[], []⟩, [], hplan, .inl rfl, hfilled⟩
  · next hplan => exact absurd h (hplan p')

end Audited

/-! ## What is in memory -/

/-- Numbers have the bits of their types, texts fit into memory, and the text of an instant is
short. -/
def RequestMessage.InMemory (x : Texts) (request : RequestMessage) : Prop :=
  request.requestHeader.requestHandle < 2 ^ 32 ∧
    match request with
    | .write _ nodesToWrite => ∀ w ∈ nodesToWrite.getD [], w.attributeId < 2 ^ 32 ∧
        (x.nodeId w.nodeId).length < 2 ^ 64 ∧
        ∀ t ∈ w.value.sourceTimestamp.toList ++ w.value.serverTimestamp.toList, t.utf8ByteSize ≤ 64
    | .call _ methodsToCall => ∀ r ∈ methodsToCall.getD [], r.objectId.length < 2 ^ 64 ∧
        (x.nodeId r.methodId).length < 2 ^ 64
    | .historyUpdate _ details => ∀ e ∈ details.getD [], ∀ kind nodeId debug,
        e.body = .historyDetails kind nodeId debug → (x.nodeId nodeId).length < 2 ^ 64
    | .addNodes _ nodes => ∀ n ∈ nodes.getD [],
        (n.requestedNewNodeId ++ " (parent " ++ n.parentNodeId ++ ")").length < 2 ^ 64
    | .deleteNodes _ nodes => ∀ n ∈ nodes.getD [], n.length < 2 ^ 64
    | .addReferences _ references => ∀ n ∈ references.getD [],
        (n.sourceNodeId ++ " -> " ++ n.targetNodeId).length < 2 ^ 64
    | .deleteReferences _ references => ∀ n ∈ references.getD [],
        (n.sourceNodeId ++ " -> " ++ n.targetNodeId).length < 2 ^ 64
    | .transferSubscriptions _ subscriptionIds => ∀ id ∈ subscriptionIds.getD [], id < 2 ^ 32
    | _ => True

/-- A name as it is filed in the cache. -/
def Clipped (name : String) : Prop :=
  ∃ text : String, text.length < 2 ^ 64 ∧ name = clip text maxName

/-- The request and what was read were decoded from messages, and the cached names were clipped. -/
structure Audited.Received (x : Texts) (limit : ℕ) (a : Audited) : Prop where
  request : a.request.Received x limit
  memory : a.request.InMemory x
  found (i : ℕ) : (a.found i).Holds fun _ name => Clipped name
  results : ∀ results ∈ a.results, ∀ result ∈ results, ∀ v ∈ result.value, v.Received x limit

/-! ## What is not cut -/

/-- The type of details the relay does not know is not cut. -/
def ExtensionObject.uncut (e : ExtensionObject) : ℕ :=
  match e.body with
  | .historyDetails .. => 0
  | _ => e.binaryTypeId.utf8ByteSize

/-- What is not cut of each item of a request that is recorded. -/
def RequestMessage.uncut (ignored : NodeId → Bool) : RequestMessage → List ℕ
  | .write _ nodesToWrite =>
    ((nodesToWrite.getD []).filter fun w =>
      ¬(w.attributeId = AuditMap.valueAttribute ∧ ignored w.nodeId)).map fun w =>
        w.indexRange.elim 0 String.utf8ByteSize
  | .call _ methodsToCall =>
    (methodsToCall.getD []).map fun r => (r.inputArguments.getD []).length
  | .historyUpdate _ details => (details.getD []).map ExtensionObject.uncut
  | .addNodes _ nodes => (nodes.getD []).map fun _ => 0
  | .deleteNodes _ nodes => (nodes.getD []).map fun _ => 0
  | .addReferences _ references => (references.getD []).map fun _ => 0
  | .deleteReferences _ references => (references.getD []).map fun _ => 0
  | .transferSubscriptions _ subscriptionIds => [(subscriptionIds.getD []).length]
  | _ => []

namespace Audited

/-- The number of results that the status of a transfer lists. -/
def listed (a : Audited) : ℕ :=
  match a.request, a.response with
  | .transferSubscriptions .., .transferSubscriptions header results =>
    if a.unknown.isSome || header.serviceResult.isBad || (results.getD []).all StatusCode.isGood
    then 0 else (results.getD []).length
  | _, _ => 0

/-- What is not cut of each item, with the results listed for it. -/
def uncut (a : Audited) : List ℕ := (a.request.uncut a.ignored).map (· + a.listed)

/-- The request failed as a whole, so only a sample of its items is recorded. -/
def failed (a : Audited) : Bool :=
  a.response.responseHeader.serviceResult.isBad && a.unknown.isNone

/-- What is not cut of the items that are recorded. -/
def recorded (a : Audited) : List ℕ :=
  if a.failed then a.uncut.take AuditPlan.maxFailedItems else a.uncut

/-- What is not cut of the recorded items is at most `n`. -/
def Within (n : ℕ) (a : Audited) : Prop := ∀ u ∈ a.recorded, u ≤ n

end Audited

/-! ## What is not cut of a plan -/

namespace AuditPlan

/-- What is not cut of each item of a plan. -/
def uncut : AuditPlan → List ℕ
  | write _ items => items.map fun item => item.indexRange.elim 0 String.utf8ByteSize
  | call _ items => items.map fun item => item.inputArguments.length
  | historyUpdate _ items => items.map fun item => item.details.utf8ByteSize
  | nodeManagement _ _ nodes => nodes.map fun _ => 0
  | transferSubscriptions _ subscriptionIds => [subscriptionIds.length]

/-- Two amounts of which each is bounded by the other. -/
def Near (c u v : ℕ) : Prop := u ≤ c * (v + 1) ∧ v ≤ c * (u + 1)

/-- A size is near itself. -/
theorem near_refl {c : ℕ} (hc : 1 ≤ c) (u : ℕ) : Near c u u := by
  have hle : u + 1 ≤ c * (u + 1) := Nat.le_mul_of_pos_left _ hc
  exact ⟨by omega, by omega⟩

/-- Items that are kept on both sides. -/
theorem forall₂_filter {α β : Type*} {R : α → β → Prop} {P : α → Bool} {Q : β → Bool}
    {l : List α} {m : List β} (h : List.Forall₂ R l m) (hPQ : ∀ a b, R a b → P a = Q b) :
    List.Forall₂ R (l.filter P) (m.filter Q) := by
  induction h with
  | nil => exact .nil
  | @cons a b l m hab _ ih =>
    have hsame := hPQ a b hab
    cases hP : P a with
    | true =>
      rw [List.filter_cons_of_pos hP, List.filter_cons_of_pos (hsame ▸ hP)]
      exact .cons hab ih
    | false =>
      rw [List.filter_cons_of_neg (by simp [hP]), List.filter_cons_of_neg (by simp [← hsame, hP])]
      exact ih

/-- Details of a known type have a short text, those of an unknown type its text. -/
theorem near_uncut_historyItem (x : Texts) (e : ExtensionObject) :
    Near 32 e.uncut (AuditMap.historyItem x e).details.utf8ByteSize := by
  have hunknown : ("unknown (" ++ e.binaryTypeId ++ ")").utf8ByteSize =
      e.binaryTypeId.utf8ByteSize + 10 := by
    have hstart : "unknown (".utf8ByteSize = 9 := by decide
    have hend : ")".utf8ByteSize = 1 := by decide
    rw [String.utf8ByteSize_append, String.utf8ByteSize_append, hstart, hend]
    omega
  have hother : Near 32 e.binaryTypeId.utf8ByteSize
      ("unknown (" ++ e.binaryTypeId ++ ")").utf8ByteSize := by
    rw [hunknown]
    exact ⟨by omega, by omega⟩
  unfold ExtensionObject.uncut AuditMap.historyItem
  cases e.body with
  | historyDetails kind nodeId debug =>
    have hkind : (AuditMap.historyDetails kind).utf8ByteSize ≤ 19 := by
      cases kind <;> decide
    exact ⟨Nat.zero_le _, by dsimp only; omega⟩
  | null => exact hother
  | raw bytes => exact hother
  | typed debug => exact hother

/-- **The plan keeps what is not cut** of each item that is not summarised. -/
theorem near_uncut_of_plan {request : RequestMessage} {p : AuditPlan}
    (h : AuditMap.plan x request = some (some p)) (ignored : NodeId → Bool) :
    List.Forall₂ (Near 32) (request.uncut ignored) (p.takeIgnored ignored).1.uncut := by
  have hrefl : ∀ u, Near 32 u u := near_refl (by omega)
  have hnone : ∀ {α : Type} (l : List α) (f : α → String),
      List.Forall₂ (Near 32) (l.map fun _ => 0) ((l.map f).map fun _ => 0) := by
    intro α l f
    rw [List.map_map, List.forall₂_map_left_iff, List.forall₂_map_right_iff, List.forall₂_same]
    exact fun _ _ => hrefl 0
  cases request with
  | write header nodesToWrite =>
    obtain ⟨items, hitems, hp⟩ := Option.map_eq_some_iff.1 h
    cases hp
    have hnodes : List.Forall₂ (fun (w : WriteValue) (item : WriteItem) =>
        item.attributeId = w.attributeId ∧ item.node = w.nodeId ∧ item.indexRange = w.indexRange)
        (nodesToWrite.getD []) items := by
      rw [← List.zipIdx_map_fst 0 (nodesToWrite.getD []), List.forall₂_map_left_iff]
      refine (forall₂_of_mapM hitems).imp fun w item hitem => ?_
      obtain ⟨newValue, -, rfl⟩ := Option.map_eq_some_iff.1 hitem
      exact ⟨rfl, rfl, rfl⟩
    rw [RequestMessage.uncut, takeIgnored, uncut, List.forall₂_map_left_iff,
      List.forall₂_map_right_iff]
    refine (forall₂_filter hnodes fun w item hitem => ?_).imp fun w item hitem => ?_
    · rw [hitem.1, hitem.2.1]
    · rw [hitem.2.2]
      exact hrefl _
  | call header methodsToCall =>
    obtain ⟨items, hitems, hp⟩ := Option.map_eq_some_iff.1 h
    cases hp
    change List.Forall₂ (Near 32) ((methodsToCall.getD []).map _) (items.map _)
    rw [List.forall₂_map_left_iff, List.forall₂_map_right_iff]
    refine (forall₂_of_mapM hitems).imp fun r item hitem => ?_
    obtain ⟨values, hvalues, rfl⟩ := Option.map_eq_some_iff.1 hitem
    rw [(forall₂_of_mapM hvalues).length_eq]
    exact hrefl _
  | historyUpdate header details =>
    cases h
    change List.Forall₂ (Near 32) ((details.getD []).map _)
      (((details.getD []).map (AuditMap.historyItem x)).map _)
    rw [List.map_map, List.forall₂_map_left_iff, List.forall₂_map_right_iff, List.forall₂_same]
    exact fun e _ => near_uncut_historyItem x e
  | transferSubscriptions header subscriptionIds =>
    cases h
    exact .cons (hrefl _) .nil
  | addNodes header nodes =>
    cases h
    exact hnone _ _
  | deleteNodes header nodes =>
    cases h
    exact hnone _ _
  | addReferences header references =>
    cases h
    exact hnone _ _
  | deleteReferences header references =>
    cases h
    exact hnone _ _
  | _ => cases h

/-- What is the same for the items at each position is the same for all items. -/
theorem map_of_filled {α β : Type*} {items items' : List α} {f : α → β}
    (hlength : items'.length = items.length)
    (h : ∀ (i : ℕ) (item item' : α), items[i]? = some item → items'[i]? = some item' →
      f item' = f item) : items'.map f = items.map f := by
  apply List.ext_getElem?
  intro i
  rw [List.getElem?_map, List.getElem?_map]
  cases hitem : items[i]? with
  | none =>
    have hle := List.getElem?_eq_none_iff.1 hitem
    rw [List.getElem?_eq_none_iff.2 (hlength ▸ hle)]
  | some item =>
    have hlt : i < items'.length := by
      rw [hlength]
      exact (List.getElem?_eq_some_iff.1 hitem).1
    have hitem' := List.getElem?_eq_getElem hlt
    rw [hitem', Option.map_some, Option.map_some, h i item _ hitem hitem']

/-- Reads do not change what is not cut. -/
theorem uncut_of_filled {found : ℕ → NameCache} {pre : PreRead} {results : List DataValue}
    {p p' : AuditPlan} (h : p.Filled x found pre results p') : p'.uncut = p.uncut := by
  cases p with
  | write handle items =>
    obtain ⟨items', rfl, hlength, hitems⟩ := h
    refine map_of_filled hlength fun i item item' hitem hitem' => ?_
    rw [(hitems i item item' hitem hitem').rest]
  | call handle items =>
    obtain ⟨items', rfl, hlength, hitems⟩ := h
    refine map_of_filled hlength fun i item item' hitem hitem' => ?_
    rw [(hitems i item item' hitem hitem').rest]
  | _ => exact congrArg uncut h

end AuditPlan

/-! ## What is not cut of the events -/

/-- The status of a change whose response never arrived. -/
def unknownStatus (x : Texts) (status : StatusCode) : String :=
  "Uncertain: no response (" ++ x.statusCode status ++ "); the server may have applied it"

/-- The text of an unknown status is short. -/
theorem utf8ByteSize_unknownStatus_le (hsmall : x.Small k) (status : StatusCode) :
    (unknownStatus x status).utf8ByteSize ≤ k + 80 := by
  unfold unknownStatus
  rw [String.utf8ByteSize_append, String.utf8ByteSize_append]
  have hstart : "Uncertain: no response (".utf8ByteSize ≤ 40 := by decide
  have hend : "); the server may have applied it".utf8ByteSize ≤ 40 := by decide
  have hstatus := hsmall.statusCode status
  omega

/-- The status of an item is short. -/
theorem utf8ByteSize_itemStatus_le (hsmall : x.Small k) (results : Option (List StatusCode))
    (i : ℕ) (serviceResult : StatusCode) (unknown : Option StatusCode) :
    (AuditMap.itemStatus x results i serviceResult
      (unknown.map (unknownStatus x))).utf8ByteSize ≤ k + 80 := by
  unfold AuditMap.itemStatus
  cases unknown with
  | some status => exact utf8ByteSize_unknownStatus_le hsmall status
  | none =>
    rw [Option.map_none]
    dsimp only
    split_ifs
    · exact le_trans (hsmall.statusCode _) (by omega)
    · exact le_trans (hsmall.statusCode _) (by omega)

/-- A list of statuses is as long as there are statuses. -/
theorem near_intercalate_statusCode (hsmall : x.Small k) (results : List StatusCode) :
    results.length ≤ (", ".intercalate (results.map x.statusCode)).utf8ByteSize + 1 ∧
      (", ".intercalate (results.map x.statusCode)).utf8ByteSize ≤ results.length * (k + 2) := by
  have hcomma : byteSize ", ".toList = 2 := by decide
  have hparts : ∀ part ∈ (results.map x.statusCode).map String.toList, byteSize part ≤ k := by
    intro part hpart
    rw [List.map_map] at hpart
    obtain ⟨status, -, rfl⟩ := List.mem_map.1 hpart
    have hstatus := hsmall.statusCode status
    rwa [utf8ByteSize_eq] at hstatus
  have hlower := (le_byteSize_intercalate ", ".toList
    ((results.map x.statusCode).map String.toList)).1
  have hupper := byteSize_intercalate_le ", ".toList hparts
  rw [hcomma, List.length_map, List.length_map] at hlower hupper
  rw [utf8ByteSize_eq, String.toList_intercalate]
  exact ⟨by omega, hupper⟩

namespace AuditPlan

/-- Only a transfer of subscriptions is planned as one. -/
theorem exists_request_of_transfer {request : RequestMessage} {handle : ℕ} {ids : List ℕ}
    (h : AuditMap.plan x request = some (some (.transferSubscriptions handle ids))) :
    ∃ header subscriptionIds, request = .transferSubscriptions header subscriptionIds := by
  cases request with
  | transferSubscriptions header subscriptionIds => exact ⟨header, subscriptionIds, rfl⟩
  | write header nodesToWrite =>
    obtain ⟨items, -, hp⟩ := Option.map_eq_some_iff.1 h
    cases hp
  | call header methodsToCall =>
    obtain ⟨items, -, hp⟩ := Option.map_eq_some_iff.1 h
    cases hp
  | _ => cases h

/-- Reads do not make a plan a transfer. -/
theorem eq_transfer_of_filled {found : ℕ → NameCache} {pre : PreRead} {results : List DataValue}
    {p : AuditPlan} {ignored : NodeId → Bool} {handle : ℕ} {ids : List ℕ}
    (h : (p.takeIgnored ignored).1.Filled x found pre results (.transferSubscriptions handle ids)) :
    p = .transferSubscriptions handle ids := by
  cases p with
  | write handle items =>
    obtain ⟨items', heq, -⟩ := h
    cases heq
  | call handle items =>
    obtain ⟨items', heq, -⟩ := h
    cases heq
  | _ => exact h.symm

/-- The positions of the items are looked at by nobody here. -/
theorem map_zipIdx_fst {α β : Type*} (items : List α) (f : α → β) :
    items.zipIdx.map (fun item => f item.1) = items.map f := by
  calc items.zipIdx.map (fun item => f item.1)
      = (items.zipIdx.map Prod.fst).map f := by rw [List.map_map]; rfl
    _ = items.map f := by rw [List.zipIdx_map_fst]

/-- The events keep what is not cut of a plan, apart from the results of a transfer. -/
theorem map_uncut_eventsAll {p : AuditPlan}
    (hp : ∀ handle ids, p ≠ .transferSubscriptions handle ids) (response : ResponseMessage)
    (unknown : Option String) :
    (p.eventsAll x response unknown).map AuditEvent.uncut = p.uncut := by
  cases p with
  | write handle items =>
    unfold eventsAll uncut
    dsimp only
    rw [List.map_map]
    rfl
  | call handle items =>
    unfold eventsAll uncut
    dsimp only
    rw [List.map_map]
    exact map_zipIdx_fst items fun item => item.inputArguments.length
  | historyUpdate handle items =>
    unfold eventsAll uncut
    dsimp only
    rw [List.map_map]
    exact map_zipIdx_fst items fun item => item.details.utf8ByteSize
  | nodeManagement handle service nodes =>
    unfold eventsAll uncut
    dsimp only
    rw [List.map_map]
    exact map_zipIdx_fst nodes fun _ => 0
  | transferSubscriptions handle ids => exact absurd rfl (hp handle ids)

end AuditPlan

namespace Audited

/-- The status of a transfer is as long as there are results listed in it. -/
theorem near_transferStatus (hsmall : x.Small k) {a : Audited} {header : RequestHeader}
    {subscriptionIds : Option (List ℕ)}
    (hrequest : a.request = .transferSubscriptions header subscriptionIds) :
    a.listed ≤ (AuditPlan.transferStatus x a.response
        (a.unknown.map (unknownStatus x))).utf8ByteSize + 1 ∧
      (AuditPlan.transferStatus x a.response (a.unknown.map (unknownStatus x))).utf8ByteSize ≤
        a.listed * (k + 2) + (k + 80) := by
  have hgood : "Good".utf8ByteSize ≤ 80 := by decide
  have hitem := fun serviceResult =>
    utf8ByteSize_itemStatus_le hsmall none 0 serviceResult a.unknown
  unfold listed AuditPlan.transferStatus
  rw [hrequest, Option.isSome_map]
  cases hresponse : a.response with
  | transferSubscriptions header results =>
    have hitem := hitem header.serviceResult
    dsimp only [ResponseMessage.responseHeader]
    cases hfailed : a.unknown.isSome || header.serviceResult.isBad with
    | true => simpa using hitem
    | false =>
      cases hall : (results.getD []).all StatusCode.isGood with
      | true =>
        cases hempty : (results.getD []).isEmpty with
        | true => simp [List.isEmpty_iff.1 hempty]
        | false =>
          simp only [Bool.or_true, if_true, Bool.not_false, Bool.and_true, Bool.false_eq_true,
            if_false]
          omega
      | false =>
        have hlist := near_intercalate_statusCode hsmall (results.getD [])
        simp only [Bool.or_self, Bool.false_and, Bool.false_eq_true, if_false]
        omega
  | _ =>
    simp only [List.isEmpty_nil, Bool.not_true, Bool.and_false, Bool.false_eq_true, if_false,
      List.map_nil, String.intercalate_nil]
    split_ifs
    · exact ⟨Nat.zero_le _, le_trans (hitem _) (by omega)⟩
    · exact ⟨Nat.zero_le _, Nat.zero_le _⟩

/-- **The events keep what is not cut** of each item. -/
theorem near_uncut_eventsAll (hsmall : x.Small k) {a : Audited} {p' : AuditPlan}
    (h : a.plan x = some (some p')) :
    List.Forall₂ (AuditPlan.Near (k + 200)) a.uncut
      ((p'.eventsAll x a.response (a.unknown.map (unknownStatus x))).map AuditEvent.uncut) := by
  obtain ⟨p, pre, results, hplan, -, hfilled⟩ := exists_filled h
  by_cases htransfer : ∃ header ids, a.request = .transferSubscriptions header ids
  · obtain ⟨header, ids, hrequest⟩ := htransfer
    rw [hrequest] at hplan
    cases hplan
    obtain rfl : p' = .transferSubscriptions header.requestHandle (ids.getD []) := hfilled
    obtain ⟨hlisted, hstatus⟩ := near_transferStatus hsmall hrequest
    rw [uncut, hrequest, RequestMessage.uncut, AuditPlan.eventsAll]
    simp only [List.map_cons, List.map_nil, AuditEvent.uncut]
    generalize (AuditPlan.transferStatus ..).utf8ByteSize = size at hlisted hstatus ⊢
    refine .cons ⟨?_, ?_⟩ .nil
    · have hle := Nat.le_mul_of_pos_left ((ids.getD []).length + size + 1)
        (show 0 < k + 200 by omega)
      omega
    · have hids := Nat.le_mul_of_pos_left (ids.getD []).length (show 0 < k + 200 by omega)
      have hmul : a.listed * (k + 2) ≤ (k + 200) * a.listed := by
        rw [Nat.mul_comm]
        exact Nat.mul_le_mul_right _ (by omega)
      rw [Nat.mul_add, Nat.mul_add]
      omega
  · have hlisted : a.listed = 0 := by
      unfold listed
      split
      · next hrequest _ => exact absurd ⟨_, _, hrequest⟩ htransfer
      · rfl
    have hp' : ∀ handle ids, p' ≠ .transferSubscriptions handle ids := by
      rintro handle ids rfl
      rw [AuditPlan.eq_transfer_of_filled hfilled] at hplan
      exact htransfer (AuditPlan.exists_request_of_transfer hplan)
    have hnear := AuditPlan.near_uncut_of_plan hplan a.ignored
    rw [← AuditPlan.uncut_of_filled hfilled, ← AuditPlan.map_uncut_eventsAll hp' a.response
      (a.unknown.map (unknownStatus x))] at hnear
    have huncut : a.uncut = a.request.uncut a.ignored := by
      rw [uncut, hlisted]
      exact List.map_id _
    rw [huncut]
    exact hnear.imp fun u v huv => ⟨huv.1.trans (Nat.mul_le_mul_right _ (by omega)),
      huv.2.trans (Nat.mul_le_mul_right _ (by omega))⟩

end Audited

/-! ## What is cut -/

/-- Everything of the item that is cut has at most `n` bytes. -/
def WriteItem.Small (floats : UInt64 → List Char) (n : ℕ) (item : WriteItem) : Prop :=
  (∀ text ∈ item.nodeId :: item.attributeName :: (item.displayName.toList ++
    item.writtenStatus.toList ++ item.sourceTimestamp.toList ++ item.serverTimestamp.toList),
    text.utf8ByteSize ≤ n) ∧
    ∀ value ∈ item.newValue :: item.oldValue.toList, value.toJson.size floats ≤ n

/-- A called method whose parts are within a size. -/
def CallItem.Small (floats : UInt64 → List Char) (n : ℕ) (item : CallItem) : Prop :=
  (∀ text ∈ item.objectId :: item.methodId :: item.displayName.toList, text.utf8ByteSize ≤ n) ∧
    ∀ value ∈ item.inputArguments, value.toJson.size floats ≤ n

namespace AuditPlan

/-- The request handle of a plan. -/
def requestHandle : AuditPlan → ℕ
  | write requestHandle _ => requestHandle
  | call requestHandle _ => requestHandle
  | historyUpdate requestHandle _ => requestHandle
  | nodeManagement requestHandle _ _ => requestHandle
  | transferSubscriptions requestHandle _ => requestHandle

/-- Everything of the plan that is cut has at most `n` bytes. -/
def SmallItems (floats : UInt64 → List Char) (n : ℕ) : AuditPlan → Prop
  | write _ items => ∀ item ∈ items, item.Small floats n
  | call _ items => ∀ item ∈ items, item.Small floats n
  | historyUpdate _ items => ∀ item ∈ items, item.nodeId.utf8ByteSize ≤ n
  | nodeManagement _ service nodes => ∀ text ∈ service :: nodes, text.utf8ByteSize ≤ n
  | transferSubscriptions _ subscriptionIds => ∀ id ∈ subscriptionIds, id < 2 ^ 64

/-- **The events have what is cut of the plan**, and their statuses. -/
theorem bounded_eventsAll (hsmall : x.Small k) (hn : k + 80 ≤ n) {p : AuditPlan}
    (hhandle : p.requestHandle < 2 ^ 64) (hp : p.SmallItems floats n) (response : ResponseMessage)
    (unknown : Option StatusCode) :
    ∀ event ∈ p.eventsAll x response (unknown.map (unknownStatus x)),
      event.Bounded floats n := by
  have hstatus : ∀ results i serviceResult, (AuditMap.itemStatus x results i serviceResult
      (unknown.map (unknownStatus x))).utf8ByteSize ≤ n :=
    fun results i serviceResult =>
      (utf8ByteSize_itemStatus_le hsmall results i serviceResult unknown).trans hn
  intro event hevent
  cases p with
  | write handle items =>
    obtain ⟨item, hitem, rfl⟩ := List.mem_map.1 hevent
    obtain ⟨htexts, hvalues⟩ := hp item hitem
    obtain ⟨hnode, hattribute, hrest⟩ := by
      simpa only [List.forall_mem_cons] using htexts
    refine ⟨hhandle, ?_, hvalues⟩
    exact List.forall_mem_cons.2 ⟨hnode, List.forall_mem_cons.2 ⟨hattribute,
      List.forall_mem_cons.2 ⟨hstatus _ _ _, hrest⟩⟩⟩
  | call handle items =>
    obtain ⟨item, hitem, rfl⟩ := List.mem_map.1 hevent
    obtain ⟨htexts, hvalues⟩ := hp item.1 (List.fst_mem_of_mem_zipIdx hitem)
    obtain ⟨hobject, hmethod, hrest⟩ := by
      simpa only [List.forall_mem_cons] using htexts
    refine ⟨hhandle, ?_, hvalues⟩
    exact List.forall_mem_cons.2 ⟨hobject, List.forall_mem_cons.2 ⟨hmethod,
      List.forall_mem_cons.2 ⟨hstatus _ _ _, hrest⟩⟩⟩
  | historyUpdate handle items =>
    obtain ⟨item, hitem, rfl⟩ := List.mem_map.1 hevent
    have hnode := hp item.1 (List.fst_mem_of_mem_zipIdx hitem)
    refine ⟨hhandle, ?_⟩
    simpa using ⟨hnode, hstatus _ _ _⟩
  | nodeManagement handle service nodes =>
    obtain ⟨node, hnode, rfl⟩ := List.mem_map.1 hevent
    obtain ⟨hservice, hnodes⟩ := List.forall_mem_cons.1 hp
    have hnode := hnodes node.1 (List.fst_mem_of_mem_zipIdx hnode)
    refine ⟨hhandle, ?_⟩
    simpa using ⟨hservice, hnode, hstatus _ _ _⟩
  | transferSubscriptions handle ids =>
    rw [List.mem_singleton.1 hevent]
    exact ⟨hhandle, hp⟩

/-- Everything is cut when a request is planned. -/
theorem smallItems_of_plan (hprints : x.Prints floats) (hsmall : x.Small k)
    {request : RequestMessage} (hreceived : request.Received x limit)
    (hmemory : request.InMemory x) {p : AuditPlan}
    (h : AuditMap.plan x request = some (some p)) :
    p.requestHandle < 2 ^ 64 ∧ p.SmallItems floats (12 * k + 170000) := by
  obtain ⟨hhandle, htexts⟩ := hmemory
  have hhandle : request.requestHeader.requestHandle < 2 ^ 64 := lt_trans hhandle (by decide)
  have hclip : ∀ text : String, text.length < 2 ^ 64 →
      (clip text maxText).utf8ByteSize ≤ 12 * k + 170000 := by
    intro text htext
    have hle := utf8ByteSize_clip_le htext maxText
    simp only [maxText] at hle ⊢
    omega
  have hnodes : ∀ {α : Type} (nodes : List α) (f : α → String) {service : String},
      service.utf8ByteSize ≤ 40 → (∀ n ∈ nodes, (f n).utf8ByteSize ≤ 12 * k + 170000) →
      ∀ text ∈ service :: nodes.map f, text.utf8ByteSize ≤ 12 * k + 170000 := by
    intro α nodes f service hservice hall
    exact List.forall_mem_cons.2 ⟨hservice.trans (by omega), List.forall_mem_map.2 hall⟩
  have hrendered := rendered_of_plan hreceived h
  cases request with
  | write header nodesToWrite =>
    obtain ⟨items, hitems, hp⟩ := Option.map_eq_some_iff.1 h
    cases hp
    refine ⟨hhandle, fun item hitem => ⟨?_, ?_⟩⟩
    · obtain ⟨w, hw, hread⟩ := exists_of_mem_mapM hitems hitem
      obtain ⟨hattribute, hnode, htimes⟩ := htexts w.1 (List.fst_mem_of_mem_zipIdx hw)
      obtain ⟨newValue, -, rfl⟩ := Option.map_eq_some_iff.1 hread
      have hname := hsmall.attributeName hattribute
      intro text htext
      simp only [Option.toList_none, List.nil_append, List.append_assoc, List.mem_cons,
        List.mem_append] at htext
      rcases htext with rfl | rfl | hstatus | htime
      · exact hclip _ hnode
      · exact hname.trans (by omega)
      · obtain ⟨status, -, rfl⟩ := Option.map_eq_some_iff.1 (Option.mem_toList.1 hstatus)
        exact (hsmall.statusCode status).trans (by omega)
      · exact (htimes text (List.mem_append.2 htime)).trans (by omega)
    · obtain ⟨hold, hnew⟩ := hrendered item hitem
      intro value hvalue
      rcases List.mem_cons.1 hvalue with rfl | hvalue
      · exact AuditMap.size_auditValue_le hprints hsmall hnew
      · exact AuditMap.size_auditValue_le hprints hsmall (hold value (Option.mem_toList.1 hvalue))
  | call header methodsToCall =>
    obtain ⟨items, hitems, hp⟩ := Option.map_eq_some_iff.1 h
    cases hp
    refine ⟨hhandle, fun item hitem => ⟨?_, ?_⟩⟩
    · obtain ⟨r, hr, hread⟩ := exists_of_mem_mapM hitems hitem
      obtain ⟨hobject, hmethod⟩ := htexts r hr
      obtain ⟨values, -, rfl⟩ := Option.map_eq_some_iff.1 hread
      intro text htext
      simp only [Option.toList_none, List.mem_cons, List.not_mem_nil, or_false] at htext
      rcases htext with rfl | rfl
      · exact hclip _ hobject
      · exact hclip _ hmethod
    · intro value hvalue
      exact AuditMap.size_auditValue_le hprints hsmall (hrendered item hitem value hvalue)
  | historyUpdate header details =>
    cases h
    refine ⟨hhandle, fun item hitem => ?_⟩
    obtain ⟨e, he, rfl⟩ := List.mem_map.1 hitem
    unfold AuditMap.historyItem
    cases hbody : e.body with
    | historyDetails kind nodeId debug => exact hclip _ (htexts e he kind nodeId debug hbody)
    | _ => exact Nat.zero_le _
  | transferSubscriptions header subscriptionIds =>
    cases h
    exact ⟨hhandle, fun id hid => lt_trans (htexts id hid) (by decide)⟩
  | addNodes header nodes =>
    cases h
    exact ⟨hhandle, hnodes _ _ (by decide) fun n hn => hclip _ (htexts n hn)⟩
  | deleteNodes header nodes =>
    cases h
    exact ⟨hhandle, hnodes _ _ (by decide) fun n hn => hclip _ (htexts n hn)⟩
  | addReferences header references =>
    cases h
    exact ⟨hhandle, hnodes _ _ (by decide) fun n hn => hclip _ (htexts n hn)⟩
  | deleteReferences header references =>
    cases h
    exact ⟨hhandle, hnodes _ _ (by decide) fun n hn => hclip _ (htexts n hn)⟩
  | _ => cases h

/-- Taking ignored writes out keeps the items small. -/
theorem smallItems_takeIgnored {p : AuditPlan} (h : p.SmallItems floats n)
    (ignored : NodeId → Bool) : (p.takeIgnored ignored).1.SmallItems floats n := by
  cases p with
  | write handle items => exact fun item hitem => h item (List.mem_of_mem_filter hitem)
  | _ => exact h

/-- Taking ignored writes out keeps the request handle. -/
theorem requestHandle_takeIgnored (p : AuditPlan) (ignored : NodeId → Bool) :
    (p.takeIgnored ignored).1.requestHandle = p.requestHandle := by
  cases p <;> rfl

/-- Filling a plan keeps the request handle. -/
theorem requestHandle_of_filled {found : ℕ → NameCache} {pre : PreRead}
    {results : List DataValue} {p p' : AuditPlan} (h : p.Filled x found pre results p') :
    p'.requestHandle = p.requestHandle := by
  cases p with
  | write handle items =>
    obtain ⟨items', rfl, -⟩ := h
    rfl
  | call handle items =>
    obtain ⟨items', rfl, -⟩ := h
    rfl
  | _ => exact congrArg requestHandle h

/-- The item at the same position before the reads. -/
theorem exists_of_mem_filled {α : Type*} {items items' : List α} {item' : α}
    (hlength : items'.length = items.length) (h : item' ∈ items') :
    ∃ (i : ℕ) (item : α), items[i]? = some item ∧ items'[i]? = some item' := by
  obtain ⟨i, hi⟩ := List.mem_iff_getElem?.1 h
  have hlt : i < items.length := by
    rw [← hlength]
    exact (List.getElem?_eq_some_iff.1 hi).1
  exact ⟨i, items[i], List.getElem?_eq_getElem hlt, hi⟩

/-- A name that was read or cached is short. -/
theorem utf8ByteSize_le_of_clipped {name : String} (h : Clipped name) :
    name.utf8ByteSize ≤ 2000 := by
  obtain ⟨text, htext, rfl⟩ := h
  have hle := utf8ByteSize_clip_le htext maxName
  simp only [maxName] at hle ⊢
  omega

/-- A name that was read for a node was clipped, and so was one that is cached. -/
theorem clipped_of_read {names : NameCache} (hnames : names.Holds fun _ name => Clipped name)
    {pre : PreRead} {results : List DataValue} {i : ℕ} {node : NodeId} {displayName : Option String}
    (hread : ∀ text, pre.Reads results i .name (.name node) (.localizedText text) →
      text.length < 2 ^ 64)
    (hname : ∀ text, pre.Reads results i .name (.name node) (.localizedText text) →
      displayName = some (clip text maxName))
    (hcached : (∀ text, ¬ pre.Reads results i .name (.name node) (.localizedText text)) →
      displayName = names.get node) {name : String} (hmem : name ∈ displayName) : Clipped name := by
  by_cases hreads : ∃ text, pre.Reads results i .name (.name node) (.localizedText text)
  · obtain ⟨text, hreads⟩ := hreads
    rw [hname text hreads] at hmem
    cases hmem
    exact ⟨text, hread text hreads, rfl⟩
  · rw [hcached (not_exists.1 hreads)] at hmem
    exact hnames node name hmem

/-- **What was read is cut as well.** -/
theorem smallItems_of_filled (hprints : x.Prints floats) (hsmall : x.Small k)
    {found : ℕ → NameCache} (hfound : ∀ i, (found i).Holds fun _ name => Clipped name)
    {pre : PreRead} {results : List DataValue}
    (hresults : ∀ result ∈ results, ∀ v ∈ result.value, v.Received x limit) {p p' : AuditPlan}
    (h : p.Filled x found pre results p') (hp : p.SmallItems floats (12 * k + 170000)) :
    p'.SmallItems floats (12 * k + 170000) := by
  have hread : ∀ {i kind own value}, pre.Reads results i kind own value →
      value.Received x limit := by
    rintro i kind own value ⟨m, result, -, -, hresult, hgood⟩
    unfold DataValue.goodValue at hgood
    split_ifs at hgood
    exact hresults result (List.mem_of_getElem? hresult) value hgood
  have htext : ∀ {i own} text, pre.Reads results i .name own (.localizedText text) →
      text.length < 2 ^ 64 := by
    intro i own text hreads
    obtain ⟨hdecoded, -⟩ := hread hreads
    cases hdecoded with
    | scalar _ _ hfits => exact hfits
  have hshort : ∀ {name : String}, Clipped name → name.utf8ByteSize ≤ 12 * k + 170000 :=
    fun hclipped => (utf8ByteSize_le_of_clipped hclipped).trans (by omega)
  cases p with
  | write handle items =>
    obtain ⟨items', rfl, hlength, hitems⟩ := h
    intro item' hitem'
    obtain ⟨i, item, hitem, hget⟩ := exists_of_mem_filled hlength hitem'
    have hfilled := hitems i item item' hitem hget
    have hname : ∀ name ∈ item'.displayName.toList, name.utf8ByteSize ≤ 12 * k + 170000 :=
      fun name hmem => hshort (clipped_of_read (hfound i) htext hfilled.name_eq
        hfilled.name_cached (Option.mem_toList.1 hmem))
    have hold : ∀ value ∈ item'.oldValue, value.Rendered x limit := by
      intro value hmem
      by_cases hreads : ∃ v, pre.Reads results i .oldValue item.read v
      · obtain ⟨v, hreads⟩ := hreads
        rw [hfilled.old_eq v hreads] at hmem
        exact ⟨v, hread hreads, hmem⟩
      · rw [hfilled.old_empty (not_exists.1 hreads)] at hmem
        cases hmem
    obtain ⟨htexts, hvalues⟩ := hp item (List.mem_of_getElem? hitem)
    obtain ⟨hnode, hattribute, hrest⟩ := by
      simpa only [List.forall_mem_cons, List.forall_mem_append] using htexts
    rw [hfilled.rest]
    refine ⟨?_, List.forall_mem_cons.2 ⟨(List.forall_mem_cons.1 hvalues).1, fun value hmem => ?_⟩⟩
    · simp only [List.forall_mem_cons, List.forall_mem_append]
      exact ⟨hnode, hattribute, ⟨⟨hname, hrest.1.1.2⟩, hrest.1.2⟩, hrest.2⟩
    · exact AuditMap.size_auditValue_le hprints hsmall (hold value (Option.mem_toList.1 hmem))
  | call handle items =>
    obtain ⟨items', rfl, hlength, hitems⟩ := h
    intro item' hitem'
    obtain ⟨i, item, hitem, hget⟩ := exists_of_mem_filled hlength hitem'
    have hfilled := hitems i item item' hitem hget
    have hname : ∀ name ∈ item'.displayName.toList, name.utf8ByteSize ≤ 12 * k + 170000 :=
      fun name hmem => hshort (clipped_of_read (hfound i) htext hfilled.name_eq
        hfilled.name_cached (Option.mem_toList.1 hmem))
    obtain ⟨htexts, hvalues⟩ := hp item (List.mem_of_getElem? hitem)
    obtain ⟨hobject, hmethod, -⟩ := by
      simpa only [List.forall_mem_cons] using htexts
    rw [hfilled.rest]
    refine ⟨?_, hvalues⟩
    simp only [List.forall_mem_cons]
    exact ⟨hobject, hmethod, hname⟩
  | _ =>
    obtain rfl := h
    exact hp

end AuditPlan

/-! ## How large records become -/

/-- A request that is not audited has no items. -/
theorem RequestMessage.uncut_eq_nil {request : RequestMessage}
    (h : AuditMap.plan x request = some none) (ignored : NodeId → Bool) :
    request.uncut ignored = [] := by
  cases request with
  | write header nodesToWrite =>
    obtain ⟨items, -, hp⟩ := Option.map_eq_some_iff.1 h
    cases hp
  | call header methodsToCall =>
    obtain ⟨items, -, hp⟩ := Option.map_eq_some_iff.1 h
    cases hp
  | _ =>
    first
    | rfl
    | cases h

namespace Audited

/-- The events are those of the plan as the reads leave it. -/
theorem exists_of_events {a : Audited} {events : List AuditEvent}
    (h : a.events x = some events) : (AuditMap.plan x a.request = some none ∧ events = []) ∨
      ∃ p, a.plan x = some (some p) ∧
        events = p.eventsWith x a.response (a.unknown.map (unknownStatus x)) := by
  obtain ⟨p, hp, hevents⟩ := Option.map_eq_some_iff.1 h
  cases p with
  | some p =>
    refine .inr ⟨p, hp, ?_⟩
    rw [← hevents]
    cases a.unknown with
    | none => rfl
    | some status => rfl
  | none =>
    refine .inl ⟨?_, hevents.symm⟩
    unfold plan at hp
    split at hp
    · next p hplan =>
      split at hp
      · next prepared pre results hprepared hresults =>
        obtain ⟨applied, -, heq⟩ := Option.map_eq_some_iff.1 hp
        cases heq
      · cases hp
    · exact hp

/-- **Each record has what is not cut of its item.** -/
theorem near_recorded (hsmall : x.Small k) {a : Audited} {events : List AuditEvent}
    (h : a.events x = some events) :
    List.Forall₂ (AuditPlan.Near (k + 200)) a.recorded (events.map AuditEvent.uncut) := by
  obtain ⟨hplan, rfl⟩ | ⟨p, hp, rfl⟩ := exists_of_events h
  · rw [recorded, uncut, RequestMessage.uncut_eq_nil hplan]
    cases a.failed with
    | true => exact .nil
    | false => exact .nil
  · have hall := near_uncut_eventsAll hsmall hp
    unfold recorded failed AuditPlan.eventsWith
    rw [Option.isNone_map]
    split_ifs
    · rw [List.map_take]
      exact List.forall₂_take _ hall
    · exact hall

/-- **Everything else in a record is cut.** -/
theorem bounded_events (hprints : x.Prints floats) (hsmall : x.Small k) {a : Audited}
    (ha : a.Received x limit) {events : List AuditEvent} (h : a.events x = some events) :
    ∀ event ∈ events, event.Bounded floats (12 * k + 170000) := by
  obtain ⟨-, rfl⟩ | ⟨p', hp', rfl⟩ := exists_of_events h
  · exact fun event hevent => nomatch hevent
  · obtain ⟨p, pre, results, hplan, hresults, hfilled⟩ := exists_filled hp'
    obtain ⟨hhandle, hitems⟩ :=
      AuditPlan.smallItems_of_plan hprints hsmall ha.request ha.memory hplan
    have hread : ∀ result ∈ results, ∀ v ∈ result.value, v.Received x limit := by
      rcases hresults with rfl | hresults
      · exact fun result hresult => nomatch hresult
      · exact ha.results results hresults
    have hall := AuditPlan.bounded_eventsAll (p := p') hsmall (by omega)
      (by rwa [AuditPlan.requestHandle_of_filled hfilled, AuditPlan.requestHandle_takeIgnored])
      (AuditPlan.smallItems_of_filled hprints hsmall ha.found hread hfilled
        (AuditPlan.smallItems_takeIgnored hitems a.ignored)) a.response a.unknown
    intro event hevent
    unfold AuditPlan.eventsWith at hevent
    split_ifs at hevent
    · exact hall event (List.mem_of_mem_take hevent)
    · exact hall event hevent

/-- **Requests have records of bounded size exactly if what is not cut is bounded**: index ranges,
numbers of arguments, types of unknown details, and numbers of subscriptions and listed results.

**Proof sketch.** Every record has what is not cut of its item, up to a constant factor, and
everything else in it is bounded by a constant, since there are finitely many status codes, types
and attributes. So each bound gives the other. -/
theorem bounded_iff_within (hprints : x.Prints floats) (time : DateTime → String)
    (requests : Set Audited) (hreceived : ∀ a ∈ requests, ∃ limit, a.Received x limit) :
    (∃ bound, ∀ a ∈ requests, ∀ events, a.events x = some events →
      ∀ event ∈ events, (x.json (event.toJson time)).utf8ByteSize ≤ bound) ↔
    ∃ n, ∀ a ∈ requests, a.Renderable x → a.Within n := by
  obtain ⟨k, hsmall⟩ := x.exists_small
  constructor
  · rintro ⟨bound, hbound⟩
    refine ⟨(k + 200) * (2 * bound + 1), fun a ha hrender u hu => ?_⟩
    obtain ⟨events, hevents⟩ := Option.isSome_iff_exists.1 ((events_isSome_iff x a).2 hrender)
    obtain ⟨v, hv, hnear⟩ := exists_of_mem_right (near_recorded hsmall hevents).flip hu
    obtain ⟨event, hevent, rfl⟩ := List.mem_map.1 hv
    have hsize := hbound a ha events hevents event hevent
    have huncut := event.uncut_le_size floats time
    rw [hprints.utf8ByteSize_json] at hsize
    exact hnear.1.trans (Nat.mul_le_mul_left _ (by omega))
  · rintro ⟨n, hn⟩
    refine ⟨13 * (AuditEvent.memberBound (12 * k + 170000) ((k + 200) * (n + 1)) + 400),
      fun a ha events hevents event hevent => ?_⟩
    obtain ⟨limit, hlimit⟩ := hreceived a ha
    have hrender := (events_isSome_iff x a).1 (Option.isSome_of_eq_some hevents)
    obtain ⟨u, hu, hnear⟩ := exists_of_mem_right (near_recorded hsmall hevents)
      (List.mem_map_of_mem hevent)
    have huncut : event.uncut ≤ (k + 200) * (n + 1) :=
      hnear.2.trans (Nat.mul_le_mul_left _ (Nat.succ_le_succ (hn a ha hrender u hu)))
    have hbounded := bounded_events hprints hsmall hlimit hevents event hevent
    have hsize := AuditEvent.size_le hbounded time
    rw [hprints.utf8ByteSize_json]
    refine hsize.trans (Nat.mul_le_mul_left _ (Nat.add_le_add_right ?_ _))
    exact Nat.mul_le_mul_right _ (Nat.succ_le_succ huncut)

/-- Texts with the JSON that is really printed. -/
def printedTexts : Texts :=
  { Connection.plainTexts with
    json := fun value => String.ofList (value.chars fun _ => ['0', '.', '5']) }

/-- The texts of the example print floats in three characters. -/
theorem prints_printedTexts : printedTexts.Prints fun _ => ['0', '.', '5'] := fun _ => rfl

/-- A transfer of subscriptions that all succeed. -/
def transfer (subscriptionIds : List ℕ) : Audited where
  request := .transferSubscriptions (Connection.plainHeader 1) (some subscriptionIds)
  ignored _ := false
  oldValues := false
  found _ := []
  names := []
  others _ := id
  results := none
  response := .transferSubscriptions ⟨1, .good⟩ (some (subscriptionIds.map fun _ => .good))
  unknown := none

/-- A transfer of subscriptions is a request that a client can send. -/
theorem received_transfer {subscriptionIds : List ℕ} (h : ∀ id ∈ subscriptionIds, id < 2 ^ 32) :
    (transfer subscriptionIds).Received printedTexts 0 where
  request := fun _ hv => nomatch hv
  memory := ⟨show 1 < 2 ^ 32 by decide, h⟩
  found _ _ _ hget := nomatch hget
  results := fun _ hresults => nomatch hresults

/-- A transfer has one event that lists all its subscriptions. -/
theorem events_transfer (subscriptionIds : List ℕ) :
    (transfer subscriptionIds).events printedTexts =
      some [.subscriptionsTransferred 1 subscriptionIds
        (AuditPlan.transferStatus printedTexts (transfer subscriptionIds).response none)] := by
  have hgood : (transfer subscriptionIds).response.responseHeader.serviceResult.isBad = false := by
    show StatusCode.good.isBad = false
    decide
  show some (AuditPlan.eventsWith ..) = _
  rw [AuditPlan.eventsWith, hgood]
  rfl

/-- One short transfer is bounded and within a size. -/
theorem bounded_iff_within_transfer :
    (∃ bound, ∀ a ∈ ({transfer [7, 8]} : Set Audited), ∀ events,
      a.events printedTexts = some events → ∀ event ∈ events,
        (printedTexts.json (event.toJson fun _ => "1970-01-01T00:00:00Z")).utf8ByteSize ≤ bound) ↔
    ∃ n, ∀ a ∈ ({transfer [7, 8]} : Set Audited), a.Renderable printedTexts → a.Within n := by
  refine bounded_iff_within prints_printedTexts _ _ ?_
  rintro a rfl
  exact ⟨0, received_transfer (by decide)⟩

/-- No bound holds for the records of all requests: a transfer records all its subscriptions. -/
theorem not_bounded_transfer :
    ¬ ∃ bound, ∀ a : Audited, (∃ limit, a.Received printedTexts limit) → ∀ events,
      a.events printedTexts = some events → ∀ event ∈ events,
        (printedTexts.json (event.toJson fun _ => "1970-01-01T00:00:00Z")).utf8ByteSize ≤
          bound := by
  rintro ⟨bound, hbound⟩
  have hids : ∀ id ∈ List.replicate (2 * bound + 1) 7, id < 2 ^ 32 := by
    intro id hid
    rw [List.eq_of_mem_replicate hid]
    decide
  have hsize := hbound (transfer (List.replicate (2 * bound + 1) 7)) ⟨0, received_transfer hids⟩
    _ (events_transfer _) _ (List.mem_singleton_self _)
  have huncut := AuditEvent.uncut_le_size (fun _ => ['0', '.', '5'])
    (.subscriptionsTransferred 1 (List.replicate (2 * bound + 1) 7)
      (AuditPlan.transferStatus printedTexts
        (transfer (List.replicate (2 * bound + 1) 7)).response none))
    fun _ => "1970-01-01T00:00:00Z"
  rw [prints_printedTexts.utf8ByteSize_json] at hsize
  have hle := huncut.trans (Nat.mul_le_mul_left 2 hsize)
  rw [AuditEvent.uncut, List.length_replicate] at hle
  omega

end Audited

end AuditGateway
