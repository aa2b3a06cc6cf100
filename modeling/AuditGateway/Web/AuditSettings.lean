import AuditGateway.Audit.Body
import AuditGateway.Audit.Writer
import Mathlib.Algebra.Order.Monoid.Unbundled.WithTop
import Mathlib.Data.List.AList
import Mathlib.Order.WithBot

set_option relaxedAutoImplicit false
set_option autoImplicit false

/-!
# The audit settings

The `[audit]` section of the configuration and the settings in force, and what the tool
`update_audit_settings` lets an MCP client change: its arguments are laid over the section as JSON,
after a look at whether they shorten the retention or turn fail-closed off. How strict settings are
is an order; the look keeps it, except for a fail mode that is spelled as an object.

## Main definitions

* `AuditConfig`, `AuditConfig.toJson`, `AuditConfig.ofJson` — the section and its JSON form.
* `overlay`, `updateAuditSettings` — what the tool makes of its arguments.
* `AuditLive`, `Setting`, `AuditLive.store` — the settings in force, which change one by one.
* `AuditConfig.strictness`, `AuditLive.strictness` — how long records are kept, and fail-closed.

## Main results

* `lookup_overlay` — a field of the overlay.
* `strictness_le_of_ok` — what passes the look is at least as strict.
* `updateAuditSettings_object` — the object that turns fail-closed off.
-/

namespace AuditGateway

/-! ## JSON -/

/-- A JSON object: each key once. -/
abbrev JsonObject := AList fun _ : String => Json

namespace Json

/-- A natural number, where there is one. -/
def asU64 : Json → Option ℕ
  | .number (.posInt n) => some n
  | _ => none

/-- The value is this text. -/
def isText (text : String) : Json → Bool
  | .string s => s = text
  | _ => false

/-- A truth value, where there is one. -/
def toBool : Json → Option Bool
  | .bool b => some b
  | _ => none

/-- An optional path. -/
def toPath : Json → Option (Option String)
  | .null => some none
  | .string s => some (some s)
  | _ => none

end Json

/-- `base` with the fields of `changes` put over it. -/
def overlay (base changes : JsonObject) (skip : List String) : JsonObject :=
  changes.foldl (fun base key value => if key ∈ skip then base else base.insert key value) base

/-- A field of the overlay. -/
theorem lookup_overlay (base changes : JsonObject) (skip : List String) (key : String) :
    (overlay base changes skip).lookup key =
      if key ∈ skip then base.lookup key else (changes.lookup key).or (base.lookup key) := by
  obtain ⟨entries, hnodup⟩ := changes
  show (entries.foldl (fun base entry =>
    if entry.1 ∈ skip then base else base.insert entry.1 entry.2) base).lookup key =
      if key ∈ skip then base.lookup key else (entries.dlookup key).or (base.lookup key)
  induction entries generalizing base with
  | nil => simp
  | cons entry entries ih =>
    obtain ⟨k, v⟩ := entry
    obtain ⟨hk, hnodup⟩ := List.nodupKeys_cons.1 hnodup
    rw [List.foldl_cons, ih _ hnodup]
    by_cases hkey : key = k
    · -- no later field has this key
      subst hkey
      rw [List.dlookup_eq_none.2 hk, List.dlookup_cons_eq]
      by_cases hskip : key ∈ skip
      · simp [hskip]
      · simp [hskip]
    · rw [List.dlookup_cons_ne _ _ hkey]
      by_cases hskip : k ∈ skip
      · simp [hskip]
      · simp [hskip, AList.lookup_insert_ne hkey]

/-! ## The section of the configuration -/

namespace FailMode

/-- The variant called `name`. -/
def ofName (name : String) : Option FailMode :=
  if name = "open" then some .failOpen else if name = "closed" then some .failClosed else none

/-- The name of a mode. -/
def name : FailMode → String
  | .failOpen => "open"
  | .failClosed => "closed"

/-- `serde_json` reads a variant without fields from its name, and from an object that has the name
as its only key with `null` behind it. -/
def ofJson : Json → Option FailMode
  | .string name => ofName name
  | .object [(name, .null)] => ofName name
  | _ => none

/-- `open` as an object. -/
def openObject : Json := .object [("open", .null)]

/-- The two spellings of `open`. -/
theorem eq_of_ofJson_open {value : Json} (h : ofJson value = some .failOpen) :
    value = .string "open" ∨ value = openObject := by
  have hname : ∀ {name : String}, ofName name = some .failOpen → name = "open" := by
    intro name hname
    unfold ofName at hname
    split_ifs at hname with hopen hclosed
    · exact hopen
    · cases hname
  unfold ofJson at h
  split at h
  · rw [hname h]
    exact .inl rfl
  · rw [hname h]
    exact .inr rfl
  · cases h

/-- A mode is read back from its name. -/
theorem ofJson_name (mode : FailMode) : ofJson (.string mode.name) = some mode := by
  cases mode <;> decide

end FailMode

/-- The `[audit]` section. -/
structure AuditConfig where
  database : Option String := none
  /-- Delete audit records older than this many days. `0` keeps everything. -/
  retentionDays : ℕ := 365
  failMode : FailMode := .failOpen
  recordOldValue : Bool := true
  ignoredSummarySecs : ℕ := 3600
  deriving DecidableEq

namespace AuditConfig

/-- The section after a change; the database location is not changed from the web UI. -/
def change (config new : AuditConfig) : AuditConfig := { new with database := config.database }

/-- The keys of the section. -/
def keys : List String :=
  ["database", "retention_days", "fail_mode", "record_old_value", "ignored_summary_secs"]

/-- The section as JSON. -/
def toJson (config : AuditConfig) : JsonObject :=
  [⟨"database", match config.database with
      | none => Json.null
      | some path => .string path⟩,
    ⟨"retention_days", .number (.posInt config.retentionDays)⟩,
    ⟨"fail_mode", .string config.failMode.name⟩,
    ⟨"record_old_value", .bool config.recordOldValue⟩,
    ⟨"ignored_summary_secs", .number (.posInt config.ignoredSummarySecs)⟩].toAList

/-- A field, or its default. -/
def field {α : Type} (o : JsonObject) (key : String) (decode : Json → Option α) (default : α) :
    Option α :=
  match o.lookup key with
  | none => some default
  | some value => decode value

/-- Unknown fields are refused. -/
def ofJson (o : JsonObject) : Option AuditConfig :=
  if o.keys.all (· ∈ keys) then do
    let default : AuditConfig := {}
    let database ← field o "database" Json.toPath default.database
    let retentionDays ← field o "retention_days" (Json.toUInt 32) default.retentionDays
    let failMode ← field o "fail_mode" FailMode.ofJson default.failMode
    let recordOldValue ← field o "record_old_value" Json.toBool default.recordOldValue
    let ignoredSummarySecs ←
      field o "ignored_summary_secs" (Json.toUInt 64) default.ignoredSummarySecs
    some { database, retentionDays, failMode, recordOldValue, ignoredSummarySecs }
  else none

/-- What is read from an object, field by field. -/
theorem field_of_ofJson {o : JsonObject} {config : AuditConfig} (h : ofJson o = some config) :
    field o "retention_days" (Json.toUInt 32) 365 = some config.retentionDays ∧
      field o "fail_mode" FailMode.ofJson .failOpen = some config.failMode := by
  unfold ofJson at h
  split_ifs at h
  simp only [Option.bind_eq_bind, Option.bind_eq_some_iff, Option.some.injEq] at h
  obtain ⟨database, -, retentionDays, hdays, failMode, hmode, recordOldValue, -,
    ignoredSummarySecs, -, rfl⟩ := h
  exact ⟨hdays, hmode⟩

/-- The retention in the section. -/
theorem lookup_toJson_retentionDays (config : AuditConfig) :
    config.toJson.lookup "retention_days" = some (.number (.posInt config.retentionDays)) := by
  simp [toJson, AList.lookup_to_alist, List.dlookup_cons_eq, List.dlookup_cons_ne]

/-- The mode in the section. -/
theorem lookup_toJson_failMode (config : AuditConfig) :
    config.toJson.lookup "fail_mode" = some (.string config.failMode.name) := by
  simp [toJson, AList.lookup_to_alist, List.dlookup_cons_eq, List.dlookup_cons_ne]

end AuditConfig

/-! ## How strict settings are -/

/-- How many days records are kept. -/
def kept (days : ℕ) : WithTop ℕ := if days = 0 then ⊤ else days

/-- What does not shorten the retention keeps at least as much. -/
theorem kept_le_kept {m n : ℕ} (h : ¬(n ≠ 0 ∧ (m = 0 ∨ n < m))) : kept m ≤ kept n := by
  unfold kept
  by_cases hn : n = 0
  · simp [hn]
  · have hm : m ≠ 0 ∧ m ≤ n := by omega
    rw [if_neg hn, if_neg hm.1]
    exact WithTop.coe_le_coe.2 hm.2

/-- Retention and fail mode, ordered by how much of the trail they protect. -/
def strictness (days : ℕ) (mode : FailMode) : WithTop ℕ × Bool :=
  (kept days, mode = .failClosed)

/-- One configuration is at most as strict as another if both of its parts are. -/
theorem strictness_le {days days' : ℕ} {mode mode' : FailMode} :
    strictness days mode ≤ strictness days' mode' ↔
      kept days ≤ kept days' ∧ (mode = .failClosed → mode' = .failClosed) := by
  simp [strictness, Prod.le_def, Bool.le_iff_imp]

/-- How strict a configuration is. -/
def AuditConfig.strictness (config : AuditConfig) : WithTop ℕ × Bool :=
  AuditGateway.strictness config.retentionDays config.failMode

/-! ## What the tool accepts -/

/-- Why the tool refuses. -/
inductive ToolRefusal
  | shorterRetention
  | failClosedOff
  | invalidArguments
  deriving DecidableEq

/-- What the client is told; behind the last text stands the reason of `serde_json`. -/
def ToolRefusal.message : ToolRefusal → String
  | .shorterRetention =>
    "shorter retention deletes records for good: change it in the web UI (Settings)"
  | .failClosedOff =>
    "switching fail-closed off lets writes pass unrecorded: change it in the web UI (Settings)"
  | .invalidArguments => "invalid arguments: "

/-- The arguments give a retention that deletes records. -/
def shortens (config : AuditConfig) (args : JsonObject) : Bool :=
  match (args.lookup "retention_days").bind Json.asU64 with
  | some days =>
    let current := config.retentionDays
    days ≠ 0 ∧ (current = 0 ∨ days < current)
  | none => false

/-- The arguments give the fail mode that lets writes pass unrecorded. -/
def opens (config : AuditConfig) (args : JsonObject) : Bool :=
  ((args.lookup "fail_mode").getD .null).isText "open" ∧ config.failMode = .failClosed

/-- The section that the tool `update_audit_settings` asks for. What deletes history or lets writes
pass unrecorded stays in the web UI. -/
def updateAuditSettings (config : AuditConfig) (args : JsonObject) :
    Except ToolRefusal AuditConfig :=
  if shortens config args then .error .shorterRetention
  else if opens config args then .error .failClosedOff
  else
    match AuditConfig.ofJson (overlay config.toJson args []) with
    | none => .error .invalidArguments
    | some new => .ok new

section Tool

variable {config new : AuditConfig} {args : JsonObject}

/-- What the tool has looked at when it accepts its arguments. -/
theorem updateAuditSettings_eq_ok :
    updateAuditSettings config args = .ok new ↔ shortens config args = false ∧
      opens config args = false ∧
      AuditConfig.ofJson (overlay config.toJson args []) = some new := by
  unfold updateAuditSettings
  cases shortens config args with
  | true => simp
  | false =>
    cases opens config args with
    | true => simp
    | false =>
      cases AuditConfig.ofJson (overlay config.toJson args []) with
      | none => simp
      | some section_ => simp

/-- The retention that is asked for is the one that was looked at. -/
theorem kept_le_of_ok (h : updateAuditSettings config args = .ok new) :
    kept config.retentionDays ≤ kept new.retentionDays := by
  obtain ⟨hshort, -, hdecode⟩ := updateAuditSettings_eq_ok.1 h
  obtain ⟨hdays, -⟩ := AuditConfig.field_of_ofJson hdecode
  unfold AuditConfig.field at hdays
  rw [lookup_overlay, if_neg List.not_mem_nil] at hdays
  unfold shortens at hshort
  cases harg : args.lookup "retention_days" with
  | none =>
    rw [harg, Option.none_or, AuditConfig.lookup_toJson_retentionDays] at hdays
    simp only [Json.toUInt] at hdays
    split_ifs at hdays
    rw [Option.some.inj hdays]
  | some value =>
    rw [harg] at hdays hshort
    -- an argument that is read as `u32` is an unsigned number, so it was looked at
    cases value with
    | number n =>
      cases n with
      | posInt days =>
        simp only [Option.some_or, Json.toUInt] at hdays
        split_ifs at hdays
        obtain rfl : days = new.retentionDays := Option.some.inj hdays
        simp only [Option.bind_some, Json.asU64, decide_eq_false_iff_not] at hshort
        exact kept_le_kept hshort
      | negInt | float => simp [Json.toUInt] at hdays
    | null | bool | string | array | object => simp [Json.toUInt] at hdays

/-- Fail-closed stays on unless `open` is given as an object. -/
theorem failClosed_of_ok (h : updateAuditSettings config args = .ok new)
    (hclosed : config.failMode = .failClosed)
    (hobject : args.lookup "fail_mode" ≠ some FailMode.openObject) :
    new.failMode = .failClosed := by
  obtain ⟨-, hopens, hdecode⟩ := updateAuditSettings_eq_ok.1 h
  obtain ⟨-, hmode⟩ := AuditConfig.field_of_ofJson hdecode
  unfold AuditConfig.field at hmode
  rw [lookup_overlay, if_neg List.not_mem_nil] at hmode
  cases harg : args.lookup "fail_mode" with
  | none =>
    rw [harg, Option.none_or, AuditConfig.lookup_toJson_failMode] at hmode
    rw [← hclosed]
    exact (Option.some.inj ((FailMode.ofJson_name config.failMode).symm.trans hmode)).symm
  | some value =>
    rw [harg] at hmode hobject
    by_contra hnew
    have hopen : new.failMode = .failOpen := by
      cases hmode : new.failMode with
      | failOpen => rfl
      | failClosed => exact absurd hmode hnew
    have hvalue : FailMode.ofJson value = some .failOpen := by
      rw [← hopen]
      exact hmode
    rcases FailMode.eq_of_ofJson_open hvalue with rfl | rfl
    · simp [opens, harg, Json.isText, hclosed] at hopens
    · exact hobject rfl

/-- **What passes the look is at least as strict**, unless `open` is given as an object. -/
theorem strictness_le_of_ok (h : updateAuditSettings config args = .ok new)
    (hobject : config.failMode = .failClosed → args.lookup "fail_mode" ≠ some FailMode.openObject) :
    config.strictness ≤ new.strictness :=
  strictness_le.2 ⟨kept_le_of_ok h, fun hclosed => failClosed_of_ok h hclosed (hobject hclosed)⟩

/-- **The object turns fail-closed off**: whatever else is asked for, no accepted call with it
leaves the fail mode closed, and none is refused for it. -/
theorem updateAuditSettings_object (hobject : args.lookup "fail_mode" = some FailMode.openObject) :
    updateAuditSettings config args ≠ .error .failClosedOff ∧
      ∀ new, updateAuditSettings config args = .ok new → new.failMode = .failOpen := by
  have hopens : opens config args = false := by
    simp [opens, hobject, FailMode.openObject, Json.isText]
  constructor
  · unfold updateAuditSettings
    rw [hopens, if_neg Bool.false_ne_true]
    intro h
    split_ifs at h with hshort
    · cases h
    · split at h
      · cases h
      · cases h
  · intro new h
    obtain ⟨-, -, hdecode⟩ := updateAuditSettings_eq_ok.1 h
    obtain ⟨-, hmode⟩ := AuditConfig.field_of_ofJson hdecode
    unfold AuditConfig.field at hmode
    rw [lookup_overlay, if_neg List.not_mem_nil, hobject, Option.some_or] at hmode
    exact (Option.some.inj hmode).symm

end Tool

/-! ## The settings in force -/

/-- The settings in force, which everything reads when it needs them. -/
structure AuditLive where
  failClosed : Bool := false
  recordOldValue : Bool := false
  retentionDays : ℕ := 0
  ignoredSummarySecs : ℕ := 1
  deriving DecidableEq

/-- The settings, in the order in which they are stored. -/
inductive Setting
  | failClosed
  | recordOldValue
  | retentionDays
  | ignoredSummarySecs
  deriving DecidableEq

/-- All settings. -/
def Setting.all : List Setting :=
  [.failClosed, .recordOldValue, .retentionDays, .ignoredSummarySecs]

namespace AuditLive

/-- One setting is stored; each is an atomic of its own. -/
def store (live : AuditLive) (config : AuditConfig) : Setting → AuditLive
  | .failClosed => { live with failClosed := config.failMode = .failClosed }
  | .recordOldValue => { live with recordOldValue := config.recordOldValue }
  | .retentionDays => { live with retentionDays := config.retentionDays }
  | .ignoredSummarySecs => { live with ignoredSummarySecs := max config.ignoredSummarySecs 1 }

/-- The configuration is put in force. -/
def apply (live : AuditLive) (config : AuditConfig) : AuditLive :=
  Setting.all.foldl (fun live setting => live.store config setting) live

/-- The settings of a gateway that starts. -/
def new (config : AuditConfig) : AuditLive := ({} : AuditLive).apply config

/-- The mode in force. -/
def failMode (live : AuditLive) : FailMode := if live.failClosed then .failClosed else .failOpen

/-- How strict what is in force is. -/
def strictness (live : AuditLive) : WithTop ℕ × Bool :=
  AuditGateway.strictness live.retentionDays live.failMode

/-- Nothing of earlier settings is left. -/
theorem apply_eq_new (live : AuditLive) (config : AuditConfig) :
    live.apply config = new config := rfl

end AuditLive

end AuditGateway
