import AuditGateway.Audit.BodyText
import AuditGateway.Relay.AuditMap

set_option relaxedAutoImplicit false
set_option autoImplicit false

/-!
# Rendered values

How deep the values are nested that the relay puts into records. The decoder of a message bounds
how deep variants and data values are nested in each other. Only arrays and their dimensions are
nested in the rendering, and an array of arrays has a variant or a data value in between, so the
rendering is not nested much deeper.

## Main definitions

* `Variant.Decoded` — a value as the decoder returns it, with so many values nested in each other.
* `AuditValue.Rendered` — a rendering of such a value.
* `AuditEvent.Constructed` — an event that holds only such renderings.

## Main results

* `AuditEvent.nested_of_constructed` — how deep the values in an event are nested.
* `AuditPlan.constructed_intent`, `AuditPlan.constructed_eventsWith`,
  `IgnoredWrites.constructed_take` — the events the relay records hold only renderings.
-/

namespace AuditGateway

/-! ## Decoded values -/

/-- An extension object whose parts have lengths that fit. -/
def ExtensionObject.Fits (e : ExtensionObject) : Prop :=
  match e.body with
  | .raw bytes => ∀ b ∈ bytes, b.length < 2 ^ 64
  | _ => True

namespace Variant

/-- The value is an array. -/
def IsArray : Variant → Prop
  | .array .. => True
  | _ => False

/-- The value has no values in it. -/
def IsScalar : Variant → Prop
  | .variant _ => False
  | .dataValue _ => False
  | .array .. => False
  | _ => True

/-- The number is one of its type, and every length fits into 64 bits. -/
def Fits : Variant → Prop
  | .sByte n => -2 ^ 7 ≤ n ∧ n < 2 ^ 7
  | .byte n => n < 2 ^ 8
  | .int16 n => -2 ^ 15 ≤ n ∧ n < 2 ^ 15
  | .uInt16 n => n < 2 ^ 16
  | .int32 n => -2 ^ 31 ≤ n ∧ n < 2 ^ 31
  | .uInt32 n => n < 2 ^ 32
  | .int64 n => IsI64 n
  | .uInt64 n => n < 2 ^ 64
  | .string value => ∀ s ∈ value, s.length < 2 ^ 64
  | .byteString value => ∀ b ∈ value, b.length < 2 ^ 64
  | .xmlElement text => text.length < 2 ^ 64
  | .qualifiedName text => text.length < 2 ^ 64
  | .localizedText text => text.length < 2 ^ 64
  | .nodeId text => text.length < 2 ^ 64
  | .expandedNodeId text => text.length < 2 ^ 64
  | .extensionObject e => e.Fits
  | .array _ values dimensions =>
    values.length < 2 ^ 64 ∧ ∀ dims ∈ dimensions, ∀ n ∈ dims, n < 2 ^ 32
  | _ => True

/-- A value as it is decoded, with at most `limit` variants and data values nested in each other. -/
inductive Decoded : ℕ → Variant → Prop
  | scalar (limit : ℕ) {v : Variant} (hscalar : v.IsScalar) (hfits : v.Fits) : Decoded limit v
  | variant {limit : ℕ} {v : Variant} (h : Decoded limit v) : Decoded (limit + 1) (.variant v)
  | noValue (limit : ℕ) : Decoded limit (.dataValue none)
  | dataValue {limit : ℕ} {v : Variant} (h : Decoded limit v) :
    Decoded (limit + 1) (.dataValue (some v))
  /-- The elements of an array are not arrays. -/
  | array {limit : ℕ} {t : ScalarType} {values : List Variant} {dimensions : Option (List ℕ)}
    (hfits : (Variant.array t values dimensions).Fits) (hflat : ∀ v ∈ values, ¬ v.IsArray)
    (h : ∀ v ∈ values, Decoded limit v) : Decoded limit (.array t values dimensions)

end Variant

/-! ## How deep a rendering is nested -/

namespace AuditMap

/-- A count is a number. -/
theorem count_eq (n : ℕ) : count n = Json.nat n := rfl

/-- An integer is an integer of JSON. -/
theorem integer_eq (n : ℤ) : integer n = Json.int n := by
  unfold integer Json.int
  split_ifs <;> rfl

/-- A number that fits into 64 bits is printed as one. -/
theorem printable_integer {n : ℤ} (h : IsI64 n) (depth : ℕ) : (integer n).Printable depth := by
  rw [integer_eq]
  exact Json.printable_int h depth

/-- A float is printable. -/
theorem printable_float (f : Float) (depth : ℕ) : (float f).Printable depth := by
  have hfits : (JsonNumber.float f.toBits).Fits := trivial
  unfold float
  split_ifs
  · exact Json.printable_number hfits depth
  · exact Json.printable_string depth _
  · exact Json.printable_string depth _
  · exact Json.printable_string depth _

/-- A text whose length fits is printable. -/
theorem printable_text {s : String} (h : s.length < 2 ^ 64) (depth : ℕ) :
    (text s).Printable (depth + 1) := by
  unfold text
  split_ifs
  · refine Json.printable_object (by simp) ?_
    simp [count_eq, Json.printable_nat h]
  · exact Json.printable_string _ s

/-- Bytes whose number fits are printable. -/
theorem printable_bytes {b : List UInt8} (h : b.length < 2 ^ 64) (depth : ℕ) :
    (bytes b).Printable (depth + 1) := by
  unfold bytes
  split_ifs
  · refine Json.printable_object (by simp) ?_
    simp [count_eq, Json.printable_nat h]
  · exact Json.printable_object (by simp) (by simp)

/-- An extension object that fits is printable. -/
theorem printable_extensionObject {e : ExtensionObject} {json : Json} (h : e.Fits)
    (hjson : extensionObject e = some json) (depth : ℕ) : json.Printable (depth + 2) := by
  unfold extensionObject at hjson
  unfold ExtensionObject.Fits at h
  cases hbody : e.body with
  | null =>
    rw [hbody] at hjson
    cases hjson
    exact Json.printable_null _
  | raw raw =>
    rw [hbody] at hjson h
    cases hjson
    have hraw : (raw.elim .null bytes).Printable (depth + 1) := by
      cases raw with
      | none => exact Json.printable_null _
      | some b => exact printable_bytes (h b rfl) depth
    refine Json.printable_object (by simp) ?_
    simp [hraw]
  | historyDetails kind nodeId debug =>
    rw [hbody] at hjson
    obtain ⟨text, -, rfl⟩ := Option.map_eq_some_iff.1 hjson
    exact Json.printable_object (by simp) (by simp)
  | typed debug =>
    rw [hbody] at hjson
    obtain ⟨text, -, rfl⟩ := Option.map_eq_some_iff.1 hjson
    exact Json.printable_object (by simp) (by simp)

/-- The elements of an array are rendered one by one. -/
theorem exists_of_mem_jsonValues {n : ℕ} {values : List Variant} {jsons : List Json}
    (h : jsonValues n values = some jsons) {json : Json} (hjson : json ∈ jsons) :
    ∃ v ∈ values, jsonValue v = some json := by
  induction values generalizing n jsons with
  | nil =>
    have hnone : jsons = [] := by cases n <;> simpa [jsonValues, eq_comm] using h
    rw [hnone] at hjson
    cases hjson
  | cons v values ih =>
    cases n with
    | zero =>
      rw [jsonValues] at h
      cases h
      cases hjson
    | succ n =>
      rw [jsonValues, Option.bind_eq_some_iff] at h
      obtain ⟨first, hfirst, h⟩ := h
      obtain ⟨rest, hrest, rfl⟩ := Option.map_eq_some_iff.1 h
      rcases List.mem_cons.1 hjson with rfl | hjson
      · exact ⟨v, List.mem_cons_self .., hfirst⟩
      · obtain ⟨u, hu, hread⟩ := ih hrest hjson
        exact ⟨u, List.mem_cons_of_mem _ hu, hread⟩

/-- An array of printable values is printable. -/
theorem printable_arrayJson {n depth : ℕ} {dimensions : Option (List ℕ)} {values : List Json}
    (hn : n < 2 ^ 64) (hdims : ∀ dims ∈ dimensions, ∀ d ∈ dims, d < 2 ^ 32)
    (h : ∀ value ∈ values, value.Printable depth) :
    (arrayJson n dimensions values).Printable (depth + 2) := by
  have hvalues : (Json.array values).Printable (depth + 1) := Json.printable_array h
  have hplain : (if decide (n > maxElements) then
      Json.object [("length", count n), ("truncated", .bool true), ("values", .array values)]
      else .array values).Printable (depth + 2) := by
    split_ifs
    · refine Json.printable_object (by simp) ?_
      simp [count_eq, Json.printable_nat hn, hvalues]
    · exact hvalues.mono (by omega)
  unfold arrayJson
  cases dimensions with
  | none => exact hplain
  | some dims =>
    dsimp only
    by_cases hdim : dims.length > 1
    · rw [if_pos hdim]
      have hcounts : (Json.array (dims.map count)).Printable (depth + 1) := by
        refine Json.printable_array fun json hjson => ?_
        obtain ⟨d, hd, rfl⟩ := List.mem_map.1 hjson
        exact Json.printable_u32 (hdims dims rfl d hd) _
      refine Json.printable_object (by simp) ?_
      simp [hcounts, hvalues]
    · rw [if_neg hdim]
      exact hplain

/-- How deep the rendering of a value is nested that has no values in it. -/
theorem printable_scalar {v : Variant} {json : Json} (hscalar : v.IsScalar) (hfits : v.Fits)
    (hjson : jsonValue v = some json) (depth : ℕ) : json.Printable (depth + 2) := by
  have hinteger : ∀ n : ℤ, IsI64 n → (integer n).Printable (depth + 2) :=
    fun n hn => printable_integer hn _
  have hcount : ∀ n : ℕ, n < 2 ^ 64 → (count n).Printable (depth + 2) :=
    fun n hn => Json.printable_nat hn _
  have htext : ∀ s : String, s.length < 2 ^ 64 → (text s).Printable (depth + 2) :=
    fun s hs => printable_text hs (depth + 1)
  cases v with
  | variant inner => exact hscalar.elim
  | dataValue value => exact hscalar.elim
  | array t values dimensions => exact hscalar.elim
  | extensionObject e =>
    rw [jsonValue] at hjson
    exact printable_extensionObject hfits hjson depth
  | string value =>
    cases hjson
    cases value with
    | none => exact Json.printable_null _
    | some s => exact htext s (hfits s rfl)
  | byteString value =>
    cases hjson
    cases value with
    | none => exact Json.printable_null _
    | some b => exact printable_bytes (hfits b rfl) _
  | sByte n =>
    cases hjson
    obtain ⟨hlow, hhigh⟩ := hfits
    exact hinteger n ⟨by omega, by omega⟩
  | int16 n =>
    cases hjson
    obtain ⟨hlow, hhigh⟩ := hfits
    exact hinteger n ⟨by omega, by omega⟩
  | int32 n =>
    cases hjson
    obtain ⟨hlow, hhigh⟩ := hfits
    exact hinteger n ⟨by omega, by omega⟩
  | int64 n =>
    cases hjson
    exact hinteger n hfits
  | byte n =>
    cases hjson
    exact hcount n (lt_trans hfits (by decide))
  | uInt16 n =>
    cases hjson
    exact hcount n (lt_trans hfits (by decide))
  | uInt32 n =>
    cases hjson
    exact hcount n (lt_trans hfits (by decide))
  | uInt64 n =>
    cases hjson
    exact hcount n hfits
  | float f =>
    cases hjson
    exact printable_float _ _
  | double f =>
    cases hjson
    exact printable_float _ _
  | xmlElement s =>
    cases hjson
    exact htext s hfits
  | qualifiedName s =>
    cases hjson
    exact htext s hfits
  | localizedText s =>
    cases hjson
    exact htext s hfits
  | nodeId s =>
    cases hjson
    exact htext s hfits
  | expandedNodeId s =>
    cases hjson
    exact htext s hfits
  | empty =>
    cases hjson
    exact Json.printable_null _
  | boolean b =>
    cases hjson
    exact Json.printable_bool _ b
  | _ =>
    cases hjson
    exact Json.printable_string _ _

/-- **How deep a rendering is nested**: two levels for each value in between and for the arrays in
it, and two more.

**Proof sketch.** Induction on the decoding. A value in between costs one of the limit; the elements
of an array are not arrays, so there is one array for each value in between, and the outermost. -/
theorem printable_jsonValue {limit : ℕ} {v : Variant} {json : Json} (h : v.Decoded limit)
    (hjson : jsonValue v = some json) :
    (¬ v.IsArray → json.Printable (2 * limit + 2)) ∧ json.Printable (2 * limit + 4) := by
  induction h generalizing json with
  | @scalar limit v hscalar hfits =>
    have hprintable := printable_scalar hscalar hfits hjson (2 * limit)
    exact ⟨fun _ => hprintable, hprintable.mono (by omega)⟩
  | @variant limit v h ih =>
    rw [jsonValue] at hjson
    have hprintable := (ih hjson).2
    exact ⟨fun _ => hprintable.mono (by omega), hprintable.mono (by omega)⟩
  | noValue limit =>
    rw [jsonValue, jsonOption] at hjson
    cases hjson
    exact ⟨fun _ => Json.printable_null _, Json.printable_null _⟩
  | @dataValue limit v h ih =>
    rw [jsonValue, jsonOption] at hjson
    have hprintable := (ih hjson).2
    exact ⟨fun _ => hprintable.mono (by omega), hprintable.mono (by omega)⟩
  | @array limit t values dimensions hfits hflat h ih =>
    rw [jsonValue, Option.map_eq_some_iff] at hjson
    obtain ⟨jsons, hjsons, rfl⟩ := hjson
    obtain ⟨hlength, hdims⟩ := hfits
    refine ⟨fun hflat => absurd trivial hflat, printable_arrayJson hlength hdims ?_⟩
    intro value hvalue
    obtain ⟨u, hu, hread⟩ := exists_of_mem_jsonValues hjsons hvalue
    exact (ih u hu hread).1 (hflat u hu)

end AuditMap

/-! ## Renderings in events -/

variable {x : Texts} {limit : ℕ}

/-- A value that was decoded, and whose rendering has a length that fits into 64 bits. -/
def Variant.Received (x : Texts) (limit : ℕ) (v : Variant) : Prop :=
  v.Decoded limit ∧
    ∀ json, AuditMap.jsonValue v = some json → (x.json json).utf8ByteSize < 2 ^ 64

/-- The rendering of a value that was received. -/
def AuditValue.Rendered (x : Texts) (limit : ℕ) (value : AuditValue) : Prop :=
  ∃ v : Variant, v.Received x limit ∧ AuditMap.auditValue x v = some value

/-- **How deep a rendering is nested** also if it was replaced by a preview. -/
theorem AuditValue.Rendered.printable {value : AuditValue} (h : value.Rendered x limit) :
    value.value.Printable (2 * limit + 4) := by
  obtain ⟨v, ⟨hdecoded, hlength⟩, hvalue⟩ := h
  obtain ⟨json, hjson, rfl⟩ := Option.map_eq_some_iff.1 hvalue
  dsimp only
  split_ifs
  · refine Json.printable_object (by simp) ?_
    simp [AuditMap.count_eq, Json.printable_nat (hlength json hjson)]
  · exact (AuditMap.printable_jsonValue hdecoded hjson).2

/-- The value of a record as JSON. -/
theorem AuditValue.json_eq (value : AuditValue) : value.json = value.toJson := rfl

/-- What is noted of one change before it is made. -/
inductive IntentDetail (x : Texts) (limit : ℕ) : Json → Prop
  | write (attributeName : String) {newValue : AuditValue} (h : newValue.Rendered x limit) :
    IntentDetail x limit
      (.object [("attribute", .string attributeName), ("new_value", newValue.json)])
  | call (objectId : String) {inputArguments : List AuditValue}
    (h : ∀ value ∈ inputArguments, value.Rendered x limit) :
    IntentDetail x limit (.object [("input_arguments", .array (inputArguments.map (·.json))),
      ("object_id", .string objectId)])
  | historyUpdate (details : String) :
    IntentDetail x limit (.object [("details", .string details)])

/-- What an intent says about an item is printable. -/
theorem IntentDetail.printable {json : Json} (h : IntentDetail x limit json) :
    json.Printable (2 * limit + 4 + 3) := by
  cases h with
  | write attributeName hnew =>
    refine Json.printable_object (by simp) ?_
    have hvalue := (AuditValue.printable_toJson hnew.printable).mono
      (show 2 * limit + 4 + 1 ≤ 2 * limit + 4 + 2 by omega)
    simpa [AuditValue.json_eq] using hvalue
  | @call objectId inputArguments hinputs =>
    have harray : (Json.array (inputArguments.map (·.json))).Printable (2 * limit + 4 + 2) := by
      refine Json.printable_array fun json hjson => ?_
      obtain ⟨value, hvalue, rfl⟩ := List.mem_map.1 hjson
      exact AuditValue.printable_toJson (hinputs value hvalue).printable
    refine Json.printable_object (by simp) ?_
    simpa using harray
  | historyUpdate details => exact Json.printable_object (by simp) (by simp)

namespace AuditEvent

/-- The event holds only renderings of values that were received. -/
def Constructed (x : Texts) (limit : ℕ) : AuditEvent → Prop
  | changeIntent _ _ _ details => ∀ json ∈ details, IntentDetail x limit json
  | write _ _ _ _ _ oldValue newValue .. =>
    (∀ value ∈ oldValue, value.Rendered x limit) ∧ newValue.Rendered x limit
  | call _ _ _ _ inputArguments _ => ∀ value ∈ inputArguments, value.Rendered x limit
  | ignoredWrites _ _ _ _ _ _ lastValue .. => lastValue.Rendered x limit
  | _ => True

/-- **How deep the values in an event are nested** that holds only renderings. -/
theorem nested_of_constructed {event : AuditEvent} (h : event.Constructed x limit) :
    event.Nested (2 * limit + 4) := by
  cases event with
  | changeIntent requestHandle service nodeIds details =>
    exact fun json hjson => (h json hjson).printable
  | write requestHandle nodeId displayName attributeName indexRange oldValue newValue
      writtenStatus sourceTimestamp serverTimestamp status =>
    exact ⟨fun value hvalue => (h.1 value hvalue).printable, h.2.printable⟩
  | call requestHandle objectId methodId displayName inputArguments status =>
    exact fun value hvalue => (h value hvalue).printable
  | ignoredWrites nodeId displayName count failed first last lastValue lastStatus clients =>
    exact AuditValue.Rendered.printable h
  | _ => trivial

end AuditEvent

/-! ## The events of a plan -/

/-- The values of the item are renderings. -/
def WriteItem.Rendered (x : Texts) (limit : ℕ) (item : WriteItem) : Prop :=
  (∀ value ∈ item.oldValue, value.Rendered x limit) ∧ item.newValue.Rendered x limit

/-- A called method as the plan makes it. -/
def CallItem.Rendered (x : Texts) (limit : ℕ) (item : CallItem) : Prop :=
  ∀ value ∈ item.inputArguments, value.Rendered x limit

/-- All values of the request were received. -/
def RequestMessage.Received (x : Texts) (limit : ℕ) (request : RequestMessage) : Prop :=
  ∀ v ∈ request.renderedValues, v.Received x limit

namespace AuditPlan

/-- The values in the plan are renderings. -/
def Rendered (x : Texts) (limit : ℕ) : AuditPlan → Prop
  | write _ items => ∀ item ∈ items, item.Rendered x limit
  | call _ items => ∀ item ∈ items, item.Rendered x limit
  | _ => True

/-- The plan of a request holds renderings of its values. -/
theorem rendered_of_plan {request : RequestMessage} {plan : AuditPlan}
    (hreceived : request.Received x limit) (h : AuditMap.plan x request = some (some plan)) :
    plan.Rendered x limit := by
  cases request with
  | write header nodesToWrite =>
    obtain ⟨items, hitems, hplan⟩ := Option.map_eq_some_iff.1 h
    cases hplan
    intro item hitem
    obtain ⟨w, hw, hread⟩ := exists_of_mem_mapM hitems hitem
    obtain ⟨newValue, hnew, rfl⟩ := Option.map_eq_some_iff.1 hread
    have hmem : w.1 ∈ nodesToWrite.getD [] := by
      obtain ⟨hlt, hget⟩ := List.mem_zipIdx' hw
      rw [hget]
      exact List.getElem_mem hlt
    refine ⟨fun value hvalue => ?_, w.1.value.value.getD .empty, ?_, hnew⟩
    · cases hvalue
    · exact hreceived _ (List.mem_map_of_mem hmem)
  | call header methodsToCall =>
    obtain ⟨items, hitems, hplan⟩ := Option.map_eq_some_iff.1 h
    cases hplan
    intro item hitem
    obtain ⟨r, hr, hread⟩ := exists_of_mem_mapM hitems hitem
    obtain ⟨inputArguments, hinputs, rfl⟩ := Option.map_eq_some_iff.1 hread
    intro value hvalue
    obtain ⟨v, hv, hvalue⟩ := exists_of_mem_mapM hinputs hvalue
    exact ⟨v, hreceived v (List.mem_flatMap.2 ⟨r, hr, hv⟩), hvalue⟩
  | _ =>
    cases h
    try trivial

/-- Taking writes out leaves renderings on both sides. -/
theorem rendered_takeIgnored {plan : AuditPlan} (h : plan.Rendered x limit)
    (ignored : NodeId → Bool) :
    (plan.takeIgnored ignored).1.Rendered x limit ∧
      ∀ items ∈ (plan.takeIgnored ignored).2, ∀ item ∈ items, item.Rendered x limit := by
  cases plan with
  | write requestHandle items =>
    refine ⟨fun item hitem => h item (List.mem_of_mem_filter hitem), ?_⟩
    intro taken htaken item hitem
    simp only [takeIgnored, Option.mem_def] at htaken
    split_ifs at htaken
    cases htaken
    exact h item (List.mem_of_mem_filter hitem)
  | _ => exact ⟨h, fun items hitems => nomatch hitems⟩

/-- Filling in cached names keeps the values. -/
theorem rendered_preRead {plan : AuditPlan} (h : plan.Rendered x limit) (oldValues : Bool)
    (names : NameCache) : (plan.preRead oldValues names).1.Rendered x limit := by
  cases plan with
  | write requestHandle items =>
    intro item hitem
    obtain ⟨item, hmem, rfl⟩ := List.mem_map.1 hitem
    exact h item hmem
  | call requestHandle items =>
    intro item hitem
    obtain ⟨item, hmem, rfl⟩ := List.mem_map.1 hitem
    exact h item hmem
  | _ => exact h

/-- An item may be replaced by one that holds renderings. -/
theorem forall_mem_set {α : Type} {P : α → Prop} {items : List α} (h : ∀ a ∈ items, P a) (i : ℕ)
    {b : α} (hb : P b) : ∀ a ∈ items.set i b, P a := by
  intro a ha
  rcases List.mem_or_eq_of_mem_set ha with hmem | rfl
  · exact h a hmem
  · exact hb

/-- A result of a read adds renderings only. -/
theorem rendered_applyResult {plan plan' : AuditPlan} {names names' : NameCache} {i : ℕ}
    {kind : PreReadKind} {result : DataValue} (h : plan.Rendered x limit)
    (hreceived : ∀ v ∈ result.value, v.Received x limit)
    (happly : plan.applyResult x names i kind result = some (plan', names')) :
    plan'.Rendered x limit := by
  unfold applyResult at happly
  split_ifs at happly
  · split at happly
    · next value requestHandle items hvalue =>
      split at happly
      · next item hitem =>
        obtain ⟨old, hold, heq⟩ := Option.map_eq_some_iff.1 happly
        cases heq
        have hitem := h item (List.mem_of_getElem? hitem)
        refine forall_mem_set h i ⟨fun old' hold' => ?_, hitem.2⟩
        cases hold'
        exact ⟨value, hreceived value hvalue, hold⟩
      · cases happly
    · next text requestHandle items hvalue =>
      split at happly
      · next item hitem =>
        cases happly
        have hitem := h item (List.mem_of_getElem? hitem)
        exact forall_mem_set h i hitem
      · cases happly
    · next text requestHandle items hvalue =>
      split at happly
      · next item hitem =>
        cases happly
        have hitem := h item (List.mem_of_getElem? hitem)
        exact forall_mem_set h i hitem
      · cases happly
    · cases happly
      exact h
  · cases happly
    exact h

/-- The results of the reads add renderings only. -/
theorem rendered_applyPreRead {plan plan' : AuditPlan} {names names' : NameCache}
    {pre : PreRead} {results : List DataValue} (h : plan.Rendered x limit)
    (hreceived : ∀ result ∈ results, ∀ v ∈ result.value, v.Received x limit)
    (happly : plan.applyPreRead x names pre results = some (plan', names')) :
    plan'.Rendered x limit := by
  have hall : ∀ p ∈ pre.targets.zip results, ∀ v ∈ p.2.value, v.Received x limit :=
    fun p hp => hreceived p.2 (List.of_mem_zip hp).2
  unfold applyPreRead at happly
  clear hreceived
  generalize pre.targets.zip results = targets at hall happly
  induction targets generalizing plan names with
  | nil =>
    cases happly
    exact h
  | cons p targets ih =>
    obtain ⟨hp, hall⟩ := List.forall_mem_cons.1 hall
    rw [List.foldlM_cons, Option.bind_eq_bind, Option.bind_eq_some_iff] at happly
    obtain ⟨⟨plan₁, names₁⟩, hresult, happly⟩ := happly
    exact ih (rendered_applyResult h hp hresult) hall happly

/-- The record before a change holds only renderings. -/
theorem constructed_intent {plan : AuditPlan} (h : plan.Rendered x limit) :
    plan.intent.Constructed x limit := by
  cases plan with
  | write requestHandle items =>
    intro json hjson
    obtain ⟨item, hitem, rfl⟩ := List.mem_map.1 hjson
    exact .write item.attributeName (h item hitem).2
  | call requestHandle items =>
    intro json hjson
    obtain ⟨item, hitem, rfl⟩ := List.mem_map.1 hjson
    exact .call item.objectId (h item hitem)
  | historyUpdate requestHandle items =>
    intro json hjson
    obtain ⟨item, hitem, rfl⟩ := List.mem_map.1 hjson
    exact .historyUpdate item.details
  | _ => exact fun json hjson => nomatch hjson

/-- The records of the outcome of a change hold only renderings. -/
theorem constructed_eventsWith {plan : AuditPlan} (h : plan.Rendered x limit)
    (response : ResponseMessage) (unknown : Option String) :
    ∀ event ∈ plan.eventsWith x response unknown, event.Constructed x limit := by
  have hall : ∀ event ∈ plan.eventsAll x response unknown, event.Constructed x limit := by
    intro event hevent
    cases plan with
    | write requestHandle items =>
      obtain ⟨item, hitem, rfl⟩ := List.mem_map.1 hevent
      exact h item hitem
    | call requestHandle items =>
      obtain ⟨item, hitem, rfl⟩ := List.mem_map.1 hevent
      have hmem : item.1 ∈ items := by
        obtain ⟨hlt, hget⟩ := List.mem_zipIdx' hitem
        rw [hget]
        exact List.getElem_mem hlt
      exact h item.1 hmem
    | historyUpdate requestHandle items =>
      obtain ⟨item, hitem, rfl⟩ := List.mem_map.1 hevent
      trivial
    | nodeManagement requestHandle service nodes =>
      obtain ⟨item, hitem, rfl⟩ := List.mem_map.1 hevent
      trivial
    | transferSubscriptions requestHandle subscriptionIds =>
      rw [List.mem_singleton.1 hevent]
      trivial
  intro event hevent
  unfold eventsWith at hevent
  split_ifs at hevent
  · exact hall event (List.mem_of_mem_take hevent)
  · exact hall event hevent

end AuditPlan

/-! ## The events of summarised writes -/

/-- The outcomes of summarised writes hold their renderings. -/
theorem rendered_of_mem_ignoredOutcomes {items : List WriteItem} {response : ResponseMessage}
    {unknown : Option StatusCode} {names : NameCache}
    (h : ∀ item ∈ items, item.Rendered x limit) {write : IgnoredWrite}
    (hwrite : write ∈ ignoredOutcomes x items response unknown names) :
    write.value.Rendered x limit := by
  obtain ⟨item, hitem, rfl⟩ := List.mem_map.1 hwrite
  exact (h item hitem).2

namespace IgnoredWrites

/-- The last values counted are renderings. -/
def Rendered (x : Texts) (limit : ℕ) (nodes : IgnoredWrites) : Prop :=
  ∀ entry ∈ nodes, entry.2.lastValue.Rendered x limit

/-- Counting a write keeps renderings. -/
theorem rendered_add {nodes nodes' : IgnoredWrites} {now : DateTime} {nodeId status : String}
    {displayName : Option String} {value : AuditValue} {client : ClientContext}
    (h : nodes.Rendered x limit) (hvalue : value.Rendered x limit)
    (hadd : nodes.add now nodeId displayName value status client = some nodes') :
    nodes'.Rendered x limit := by
  unfold add at hadd
  dsimp only at hadd
  split at hadd
  · cases hadd
  · cases hadd
    refine List.forall_mem_cons.2 ⟨hvalue, fun entry hentry => ?_⟩
    exact h entry (List.mem_of_mem_filter hentry)

/-- The summaries hold only renderings. -/
theorem constructed_take {nodes : IgnoredWrites} (h : nodes.Rendered x limit) :
    ∀ event ∈ nodes.take, event.Constructed x limit := by
  intro event hevent
  obtain ⟨entry, hentry, rfl⟩ := List.mem_map.1 hevent
  exact h entry ((List.perm_insertionSort _ nodes).mem_iff.1 hentry)

end IgnoredWrites

end AuditGateway
