import AuditGateway.Audit.Event
import Mathlib.Algebra.GroupWithZero.Nat

set_option relaxedAutoImplicit false
set_option autoImplicit false

/-!
# Rendering values

How the relay renders an OPC UA value for the audit trail. A value that the relay only reads as
text is represented by that text. Rendering can panic, and then has no result: the text of a
typed structure is cut at a number of bytes that may lie inside a character.

## Main definitions

* `NodeId`, `StatusCode`, `Variant`, `ExtensionObject`, `DataValue` — the values.
* `Texts` — the texts that the OPC UA and JSON crates make of them.
* `AuditMap.auditValue` — renders a value for the audit trail.
* `Variant.Renderable` — no text has to be cut inside a character.

## Main results

* `AuditMap.auditValue_isSome_iff` — which values are rendered.
-/

namespace AuditGateway

/-! ## Values -/

/-- The identifiers of nodes. -/
inductive Identifier
  | numeric (value : ℕ)
  | string (value : Option String)
  | guid (bytes : List UInt8)
  | byteString (bytes : Option (List UInt8))
  deriving DecidableEq

/-- The id of a node in its namespace. -/
structure NodeId where
  «namespace» : ℕ
  identifier : Identifier
  deriving DecidableEq

/-- The status of a service or of an item. -/
structure StatusCode where
  bits : UInt32
  deriving DecidableEq

namespace StatusCode

/-- The service went well. -/
def good : StatusCode := ⟨0⟩

/-- Something went wrong that nobody expected. -/
def badUnexpectedError : StatusCode := ⟨0x80010000⟩

/-- The gateway itself failed. -/
def badInternalError : StatusCode := ⟨0x80020000⟩

/-- The session is not known. -/
def badSessionIdInvalid : StatusCode := ⟨0x80250000⟩

/-- The signature of the client is wrong. -/
def badApplicationSignatureInvalid : StatusCode := ⟨0x80580000⟩

/-- The channel is less secure than the session. -/
def badSecurityModeInsufficient : StatusCode := ⟨0x80e60000⟩

/-- The server is not there. -/
def badServerNotConnected : StatusCode := ⟨0x800d0000⟩

/-- The upstream channel is not there. -/
def badNotConnected : StatusCode := ⟨0x808a0000⟩

/-- The connection is closed. -/
def badConnectionClosed : StatusCode := ⟨0x80ae0000⟩

/-- The two bits of the severity are zero. -/
def isGood (s : StatusCode) : Bool := s.bits &&& 0xc0000000 = 0

/-- The two bits of the severity are one and zero. -/
def isBad (s : StatusCode) : Bool := s.bits &&& 0xc0000000 = 0x80000000

end StatusCode

/-- The kinds of history update that the relay knows. -/
inductive HistoryDetails
  | updateData
  | updateStructureData
  | updateEvent
  | deleteRawModified
  | deleteAtTime
  | deleteEvent
  deriving DecidableEq

/-- The body of an extension object. -/
inductive ExtensionBody
  | null
  /-- A structure that the decoder does not know, as bytes. -/
  | raw (bytes : Option (List UInt8))
  /-- The details of a history update, with their node and their debug text. -/
  | historyDetails (kind : HistoryDetails) (nodeId : NodeId) (debug : String)
  /-- Any other structure the decoder knows, by its debug text. -/
  | typed (debug : String)

/-- A structured value: the node of its encoding and its body. -/
structure ExtensionObject where
  /-- The text of the binary encoding's node. -/
  binaryTypeId : String
  body : ExtensionBody

/-- The scalar types of variants. -/
inductive ScalarType
  | boolean | sByte | byte | int16 | uInt16 | int32 | uInt32 | int64 | uInt64 | float | double
  | string | dateTime | guid | statusCode | byteString | xmlElement | qualifiedName
  | localizedText | nodeId | expandedNodeId | extensionObject | variant | dataValue
  | diagnosticInfo
  deriving DecidableEq

/-- A value of any type. -/
inductive Variant
  | empty
  | boolean (b : Bool)
  | sByte (n : ℤ)
  | byte (n : ℕ)
  | int16 (n : ℤ)
  | uInt16 (n : ℕ)
  | int32 (n : ℤ)
  | uInt32 (n : ℕ)
  | int64 (n : ℤ)
  | uInt64 (n : ℕ)
  | float (f : Float32)
  | double (f : Float)
  | string (value : Option String)
  | dateTime (text : String)
  | guid (text : String)
  | statusCode (text : String)
  | byteString (value : Option (List UInt8))
  | xmlElement (text : String)
  | qualifiedName (text : String)
  | localizedText (text : String)
  | nodeId (text : String)
  | expandedNodeId (text : String)
  | extensionObject (e : ExtensionObject)
  | variant (inner : Variant)
  | dataValue (value : Option Variant)
  | diagnosticInfo (debug : String)
  | array (valueType : ScalarType) (values : List Variant) (dimensions : Option (List ℕ))

/-- A value with its status and the texts of its timestamps. -/
structure DataValue where
  value : Option Variant := none
  status : Option StatusCode := none
  sourceTimestamp : Option String := none
  serverTimestamp : Option String := none

/-- The texts that the OPC UA and JSON crates make of values. -/
structure Texts where
  json : Json → String
  nodeId : NodeId → String
  statusCode : StatusCode → String
  scalarType : ScalarType → String
  /-- The name of an attribute, if there is one with this number. -/
  attributeId : ℕ → Option String

/-! ## Rendering -/

namespace AuditMap

/-- Byte strings and opaque structures longer than this are truncated in the trail. -/
def maxBytes : ℕ := 4096

/-- Arrays longer than this keep only their first elements in the trail. -/
def maxElements : ℕ := 256

/-- A value whose rendering is still larger than this is replaced by a preview. -/
def maxValueJson : ℕ := 64 * 1024

/-- `String::truncate`: the first `n` bytes of a text. It panics if they end inside a character. -/
def truncate : List Char → ℕ → Option (List Char)
  | _, 0 => some []
  | [], _ => some []
  | c :: cs, n + 1 =>
    if c.utf8Size ≤ n + 1 then (c :: ·) <$> truncate cs (n + 1 - c.utf8Size) else none

/-- The character of a hexadecimal digit. -/
def hexDigit (n : ℕ) : Char := "0123456789abcdef".toList.getD n '0'

/-- Bytes as hexadecimal text. -/
def hexEncode (b : List UInt8) : String :=
  String.ofList (b.flatMap fun x => [hexDigit (x.toNat / 16), hexDigit (x.toNat % 16)])

/-- A natural number as JSON. -/
def count (n : ℕ) : Json := .number (.posInt n)

/-- An integer as JSON. -/
def integer (n : ℤ) : Json :=
  if 0 ≤ n then .number (.posInt n.toNat) else .number (.negInt n)

/-- The members of an object are in the order of their names. -/
def text (s : String) : Json :=
  if s.length > maxText then
    .object [("length", count s.length), ("text", .string (clip s maxText)),
      ("truncated", .bool true)]
  else .string s

/-- A float as JSON: a number, or its name where JSON has none. -/
def float (f : Float) : Json :=
  if f.isFinite then .number (.float f.toBits)
  else if f.isNaN then .string "NaN"
  else if 0 < f then .string "inf"
  else .string "-inf"

/-- Bytes as JSON. -/
def bytes (b : List UInt8) : Json :=
  if b.length > maxBytes then
    .object [("hex", .string (hexEncode (b.take maxBytes))), ("length", count b.length),
      ("truncated", .bool true)]
  else .object [("hex", .string (hexEncode b))]

/-- The debug text of a structure, cut at `maxBytes` bytes. -/
def bodyText (debug : String) : Option String :=
  if debug.utf8ByteSize > maxBytes then
    (truncate debug.toList maxBytes).map fun cut => String.ofList (cut ++ ['…'])
  else some debug

/-- A structured value as JSON, unless its text is cut within a character. -/
def extensionObject (e : ExtensionObject) : Option Json :=
  match e.body with
  | .null => some .null
  | .raw raw =>
    some (.object [("body", raw.elim .null bytes), ("encoding_id", .string e.binaryTypeId)])
  | .historyDetails _ _ debug =>
    (bodyText debug).map fun text =>
      .object [("body", .string text), ("encoding_id", .string e.binaryTypeId)]
  | .typed debug =>
    (bodyText debug).map fun text =>
      .object [("body", .string text), ("encoding_id", .string e.binaryTypeId)]

/-- An array, given its number of elements and the first of them. -/
def arrayJson (n : ℕ) (dimensions : Option (List ℕ)) (values : List Json) : Json :=
  let truncated := decide (n > maxElements)
  let plain :=
    if truncated then
      .object [("length", count n), ("truncated", .bool true), ("values", .array values)]
    else .array values
  match dimensions with
  | some dims =>
    if dims.length > 1 then
      .object [("dimensions", .array (dims.map count)), ("truncated", .bool truncated),
        ("values", .array values)]
    else plain
  | none => plain

mutual

/-- A variant as JSON, unless a text in it is cut within a character. -/
def jsonValue : Variant → Option Json
  | .empty => some .null
  | .boolean b => some (.bool b)
  | .sByte n => some (integer n)
  | .byte n => some (count n)
  | .int16 n => some (integer n)
  | .uInt16 n => some (count n)
  | .int32 n => some (integer n)
  | .uInt32 n => some (count n)
  | .int64 n => some (integer n)
  | .uInt64 n => some (count n)
  | .float f => some (float f.toFloat)
  | .double f => some (float f)
  | .string s => some (s.elim .null text)
  | .dateTime d => some (.string d)
  | .guid g => some (.string g)
  | .statusCode s => some (.string s)
  | .byteString b => some (b.elim .null bytes)
  | .xmlElement s => some (text s)
  | .qualifiedName s => some (text s)
  | .localizedText s => some (text s)
  | .nodeId s => some (text s)
  | .expandedNodeId s => some (text s)
  | .extensionObject e => extensionObject e
  | .variant inner => jsonValue inner
  | .dataValue value => jsonOption value
  | .diagnosticInfo debug => some (.string debug)
  | .array _ values dimensions =>
    (jsonValues maxElements values).map (arrayJson values.length dimensions)

/-- An absent variant is null. -/
def jsonOption : Option Variant → Option Json
  | none => some .null
  | some v => jsonValue v

/-- The first `n` elements of an array. -/
def jsonValues : ℕ → List Variant → Option (List Json)
  | 0, _ => some []
  | _, [] => some []
  | n + 1, v :: vs => (jsonValue v).bind fun j => (jsonValues n vs).map (j :: ·)

end

/-- The scalar type of a variant. -/
def scalarTypeId : Variant → Option ScalarType
  | .empty => none
  | .boolean _ => some .boolean
  | .sByte _ => some .sByte
  | .byte _ => some .byte
  | .int16 _ => some .int16
  | .uInt16 _ => some .uInt16
  | .int32 _ => some .int32
  | .uInt32 _ => some .uInt32
  | .int64 _ => some .int64
  | .uInt64 _ => some .uInt64
  | .float _ => some .float
  | .double _ => some .double
  | .string _ => some .string
  | .dateTime _ => some .dateTime
  | .guid _ => some .guid
  | .statusCode _ => some .statusCode
  | .byteString _ => some .byteString
  | .xmlElement _ => some .xmlElement
  | .qualifiedName _ => some .qualifiedName
  | .localizedText _ => some .localizedText
  | .nodeId _ => some .nodeId
  | .expandedNodeId _ => some .expandedNodeId
  | .extensionObject _ => some .extensionObject
  | .variant _ => some .variant
  | .dataValue _ => some .dataValue
  | .diagnosticInfo _ => some .diagnosticInfo
  | .array .. => none

/-- The name of the data type of a variant. -/
def dataType (x : Texts) : Variant → String
  | .empty => "Null"
  | .array valueType _ _ => x.scalarType valueType ++ "[]"
  | v => ((scalarTypeId v).map x.scalarType).getD "Unknown"

/-- Renders a value for the audit trail. -/
def auditValue (x : Texts) (v : Variant) : Option AuditValue :=
  (jsonValue v).map fun value =>
    let rendered := x.json value
    let value :=
      if rendered.utf8ByteSize > maxValueJson then
        .object [("length", count rendered.utf8ByteSize),
          ("preview", .string (clip rendered maxText)), ("truncated", .bool true)]
      else value
    ⟨dataType x v, value⟩

end AuditMap

/-! ## Which values are rendered -/

/-- The first `n` bytes of a text are whole characters. -/
def Boundary : List Char → ℕ → Prop
  | _, 0 => True
  | [], _ => True
  | c :: cs, n + 1 => c.utf8Size ≤ n + 1 ∧ Boundary cs (n + 1 - c.utf8Size)

/-- The text of a structure needs no cut, or can be cut. -/
def ExtensionObject.Renderable (e : ExtensionObject) : Prop :=
  match e.body with
  | .historyDetails _ _ debug =>
    debug.utf8ByteSize ≤ AuditMap.maxBytes ∨ Boundary debug.toList AuditMap.maxBytes
  | .typed debug =>
    debug.utf8ByteSize ≤ AuditMap.maxBytes ∨ Boundary debug.toList AuditMap.maxBytes
  | _ => True

mutual

/-- No structure in what is shown of the value has a text that would be cut inside a character. -/
def Variant.Renderable : Variant → Prop
  | .extensionObject e => e.Renderable
  | .variant inner => inner.Renderable
  | .dataValue value => RenderableOption value
  | .array _ values _ => RenderableList AuditMap.maxElements values
  | _ => True

/-- An absent variant can be written. -/
def RenderableOption : Option Variant → Prop
  | none => True
  | some v => v.Renderable

/-- The first variants of a list can be written. -/
def RenderableList : ℕ → List Variant → Prop
  | 0, _ => True
  | _, [] => True
  | n + 1, v :: vs => v.Renderable ∧ RenderableList n vs

end

namespace AuditMap

/-- A text can be cut at its boundaries, and nowhere else. -/
theorem truncate_isSome_iff (cs : List Char) (n : ℕ) :
    (truncate cs n).isSome ↔ Boundary cs n := by
  induction cs generalizing n with
  | nil =>
    cases n with
    | zero => simp [truncate, Boundary]
    | succ n => simp [truncate, Boundary]
  | cons c cs ih =>
    cases n with
    | zero => simp [truncate, Boundary]
    | succ n =>
      rw [truncate, Boundary]
      by_cases h : c.utf8Size ≤ n + 1
      · simp [h, ih]
      · simp [h]

/-- A body can be written unless it is cut within a character. -/
theorem bodyText_isSome_iff (debug : String) :
    (bodyText debug).isSome ↔
      debug.utf8ByteSize ≤ AuditMap.maxBytes ∨ Boundary debug.toList AuditMap.maxBytes := by
  unfold bodyText
  by_cases h : debug.utf8ByteSize > maxBytes
  · rw [if_pos h, Option.isSome_map, truncate_isSome_iff]
    constructor
    · exact Or.inr
    · intro hb
      exact hb.resolve_left (by omega)
  · rw [if_neg h]
    exact iff_of_true rfl (.inl (by omega))

/-- A structured value is written iff it can be. -/
theorem extensionObject_isSome_iff (e : ExtensionObject) :
    (extensionObject e).isSome ↔ e.Renderable := by
  unfold extensionObject ExtensionObject.Renderable
  cases e.body with
  | null => simp
  | raw bytes => simp
  | historyDetails kind nodeId debug => simpa using bodyText_isSome_iff debug
  | typed debug => simpa using bodyText_isSome_iff debug

mutual

/-- A variant is written iff it can be. -/
theorem jsonValue_isSome_iff : ∀ v : Variant, (jsonValue v).isSome ↔ v.Renderable
  | .extensionObject e => by
    rw [jsonValue, Variant.Renderable]
    exact extensionObject_isSome_iff e
  | .variant inner => by
    rw [jsonValue, Variant.Renderable]
    exact jsonValue_isSome_iff inner
  | .dataValue value => by
    rw [jsonValue, Variant.Renderable]
    exact jsonOption_isSome_iff value
  | .array valueType values dimensions => by
    rw [jsonValue, Variant.Renderable, Option.isSome_map]
    exact jsonValues_isSome_iff maxElements values
  | .empty => by simp [jsonValue, Variant.Renderable]
  | .boolean _ => by simp [jsonValue, Variant.Renderable]
  | .sByte _ => by simp [jsonValue, Variant.Renderable]
  | .byte _ => by simp [jsonValue, Variant.Renderable]
  | .int16 _ => by simp [jsonValue, Variant.Renderable]
  | .uInt16 _ => by simp [jsonValue, Variant.Renderable]
  | .int32 _ => by simp [jsonValue, Variant.Renderable]
  | .uInt32 _ => by simp [jsonValue, Variant.Renderable]
  | .int64 _ => by simp [jsonValue, Variant.Renderable]
  | .uInt64 _ => by simp [jsonValue, Variant.Renderable]
  | .float _ => by simp [jsonValue, Variant.Renderable]
  | .double _ => by simp [jsonValue, Variant.Renderable]
  | .string _ => by simp [jsonValue, Variant.Renderable]
  | .dateTime _ => by simp [jsonValue, Variant.Renderable]
  | .guid _ => by simp [jsonValue, Variant.Renderable]
  | .statusCode _ => by simp [jsonValue, Variant.Renderable]
  | .byteString _ => by simp [jsonValue, Variant.Renderable]
  | .xmlElement _ => by simp [jsonValue, Variant.Renderable]
  | .qualifiedName _ => by simp [jsonValue, Variant.Renderable]
  | .localizedText _ => by simp [jsonValue, Variant.Renderable]
  | .nodeId _ => by simp [jsonValue, Variant.Renderable]
  | .expandedNodeId _ => by simp [jsonValue, Variant.Renderable]
  | .diagnosticInfo _ => by simp [jsonValue, Variant.Renderable]

/-- An absent variant is written iff it can be. -/
theorem jsonOption_isSome_iff :
    ∀ value : Option Variant, (jsonOption value).isSome ↔ RenderableOption value
  | none => by simp [jsonOption, RenderableOption]
  | some v => by
    rw [jsonOption, RenderableOption]
    exact jsonValue_isSome_iff v

/-- The first variants of a list are written iff they can be. -/
theorem jsonValues_isSome_iff :
    ∀ (n : ℕ) (values : List Variant), (jsonValues n values).isSome ↔ RenderableList n values
  | 0, _ => by simp [jsonValues, RenderableList]
  | _ + 1, [] => by simp [jsonValues, RenderableList]
  | n + 1, v :: vs => by
    rw [jsonValues, RenderableList, ← jsonValue_isSome_iff v, ← jsonValues_isSome_iff n vs]
    cases jsonValue v with
    | none => simp
    | some j => simp

end

/-- **Which values are rendered**: exactly those without a structure whose text would be cut
inside a character. -/
theorem auditValue_isSome_iff (x : Texts) (v : Variant) :
    (auditValue x v).isSome ↔ v.Renderable := by
  rw [auditValue, Option.isSome_map]
  exact jsonValue_isSome_iff v

end AuditMap

/-! ## A structure that cannot be rendered -/

/-- The debug text of a structure with a name in letters of two bytes. -/
def wideDebug : List Char :=
  "Some(Argument \x7b name: UAString \x7b value: Some(\"L".toList ++
    (List.replicate 2025 'é' ++ "\") \x7d, value_rank: -1 \x7d)".toList)

/-- A structure with a long name. -/
def wideArgument : ExtensionObject := ⟨"svr=0;i=298", .typed (String.ofList wideDebug)⟩

/-- Letters of one byte in front of a text. -/
theorem boundary_of_append {p rest : List Char} {n : ℕ} (hp : ∀ a ∈ p, a.utf8Size = 1)
    (h : Boundary (p ++ rest) (p.length + n)) : Boundary rest n := by
  induction p with
  | nil => rwa [List.nil_append, List.length_nil, Nat.zero_add] at h
  | cons a p ih =>
    obtain ⟨ha, hp⟩ := List.forall_mem_cons.1 hp
    rw [List.cons_append, List.length_cons, Nat.succ_add] at h
    obtain ⟨-, h⟩ := h
    rw [ha, Nat.succ_sub_one] at h
    exact ih hp h

/-- An odd number of bytes of a text in letters of two bytes does not end at a letter. -/
theorem not_boundary_replicate (k : ℕ) (rest : List Char) :
    ¬ Boundary (List.replicate (k + 1) 'é' ++ rest) (2 * k + 1) := by
  induction k with
  | zero =>
    rintro ⟨hle, -⟩
    revert hle
    decide
  | succ k ih =>
    rintro ⟨-, hrest⟩
    exact ih hrest

/-- The text of the example has no boundary where it is cut. -/
theorem not_boundary_wideDebug : ¬ Boundary wideDebug AuditMap.maxBytes := by
  intro h
  have hall : ("Some(Argument \x7b name: UAString \x7b value: Some(\"L".toList.all fun a =>
      a.utf8Size = 1) = true := by decide
  have hp : ∀ a ∈ "Some(Argument \x7b name: UAString \x7b value: Some(\"L".toList,
      a.utf8Size = 1 := fun a ha => of_decide_eq_true (List.all_eq_true.1 hall a ha)
  exact not_boundary_replicate 2024 _ (boundary_of_append (n := 2 * 2024 + 1) hp h)

/-- The size of a text is that of its characters. -/
theorem utf8ByteSize_ofList (l : List Char) :
    (String.ofList l).utf8ByteSize = (l.map Char.utf8Size).sum := by
  induction l with
  | nil => rfl
  | cons a l ih =>
    have hcons : a :: l = [a] ++ l := rfl
    rw [hcons, String.ofList_append, String.utf8ByteSize_append, ih, List.map_append,
      List.sum_append, ← String.singleton_eq_ofList, String.utf8ByteSize_singleton]
    rfl

/-- A text in letters of two bytes is twice as long in bytes. -/
theorem lt_utf8ByteSize_wide {p : List Char} (rest : List Char) {m n k : ℕ}
    (hp : (p.map Char.utf8Size).sum = m) (hk : k < m + 2 * n) :
    k < (String.ofList (p ++ (List.replicate n 'é' ++ rest))).utf8ByteSize := by
  have htwo : 'é'.utf8Size = 2 := by decide
  rw [utf8ByteSize_ofList, List.map_append, List.map_append, List.sum_append, List.sum_append,
    List.map_replicate, List.sum_replicate_nat, htwo, hp]
  omega

/-- The text of the example is long enough to be cut. -/
theorem maxBytes_lt_wideDebug : AuditMap.maxBytes < (String.ofList wideDebug).utf8ByteSize := by
  have hprefix : ("Some(Argument \x7b name: UAString \x7b value: Some(\"L".toList.map
      Char.utf8Size).sum = 47 := by decide
  exact lt_utf8ByteSize_wide _ hprefix (by decide)

/-- The text of a structure has to be cut inside a letter. -/
theorem not_renderable_typed {binaryTypeId : String} {debug : List Char}
    (hlong : AuditMap.maxBytes < (String.ofList debug).utf8ByteSize)
    (hcut : ¬ Boundary debug AuditMap.maxBytes) :
    ¬ ExtensionObject.Renderable ⟨binaryTypeId, .typed (String.ofList debug)⟩ := by
  rintro (hsmall | hboundary)
  · omega
  · rw [String.toList_ofList] at hboundary
    exact hcut hboundary

/-- The argument of the example cannot be written. -/
theorem not_renderable_wideArgument : ¬ wideArgument.Renderable :=
  not_renderable_typed maxBytes_lt_wideDebug not_boundary_wideDebug

end AuditGateway
