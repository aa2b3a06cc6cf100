import AuditGateway.Audit.Alarms
import AuditGateway.Audit.Search
import AuditGateway.Audit.Text
import AuditGateway.Relay.Rendered

set_option relaxedAutoImplicit false
set_option autoImplicit false

/-!
# Every record can be read back

Every entry that was ever committed is read back from its body as it was written, with at most the
floats in its values rounded, whatever a client put into them: the decoder bounds how deep they are
nested. So no reader of the trail meets a body that it cannot read.

## Main definitions

* `AuditEntry.Writable` — an entry that the gateway can construct, with its numbers of their types.
* `AuditEntry.ReadsAs` — how it is read back.

## Main results

* `AuditEntry.readsAs` — every such entry is read back.
* `Trail.readable_of_run` — no reader fails in any state that a run reaches.
-/

namespace AuditGateway

variable {json : JsonCrates} {sha256 : ByteArray → List UInt8} {rfc3339 : DateTime → String}

namespace AuditEntry

/-- An entry that the gateway can construct, whose text the other crates print and parse. -/
structure Writable (x : Texts) (limit : ℕ) (json : JsonCrates) (entry : AuditEntry) : Prop where
  constructed : entry.event.Constructed x limit
  typed : entry.event.Typed
  lawful : json.Lawful entry

/-- The body of an entry is read back as `entry'`: an entry of the same kind, which is the type in
the body, with the same columns, and the same but for floats that are rounded. -/
structure ReadsAs (json : JsonCrates) (c : Crates) (entry entry' : AuditEntry) : Prop where
  read : c.fromJson (c.toJson entry) = .ok entry'
  kind : entry'.event.kind = entry.event.kind
  tag : (entry.event.toJson json.time).get? "type" = some (.string entry.event.kind)
  columns : columns c entry' = columns c entry
  fields : entry' = entry.round json.round

/-- **Every entry is read back** that the gateway can construct: the values in it are not nested
too deep, as long as the decoder accepts at most 58 values nested in each other. -/
theorem readsAs {x : Texts} {limit : ℕ} (hlimit : limit ≤ 58) {entry : AuditEntry}
    (h : entry.Writable x limit json) :
    entry.ReadsAs json (json.crates sha256 rfc3339) (entry.round json.round) where
  read := JsonCrates.fromJson_toJson h.lawful h.typed
    (AuditEvent.nested_of_constructed h.constructed) (by rw [JsonCrates.maxDepth]; omega)
  kind := entry.event.kind_round
  tag := by
    rw [AuditEvent.toJson, AuditEvent.tag_eq_kind]
    rfl
  columns := columns_round _ entry
  fields := rfl

end AuditEntry

/-! ## Verification -/

/-- A row whose entry is read back is sound. -/
theorem AuditEntry.ReadsAs.sound {c : Crates} {entry entry' : AuditEntry}
    (h : entry.ReadsAs json c entry') (seq : ℤ) (prevHash : String) :
    (record c seq prevHash entry).Sound c :=
  ⟨rfl, entry', h.read, h.columns⟩

/-- On sound rows the walk fails at a link, or at a gap at the start. -/
theorem verifyRows_error_of_sound {c : Crates} {rows : List Row} (h : ∀ row ∈ rows, row.Sound c)
    {report : VerifyReport} {gap : Option (ℤ × String)} {e : String} (hreport : report.error = none)
    (herror : (verifyRows c report gap rows).error = some e) :
    (∃ report gap, ∃ row ∈ rows, verifyLink report gap row = .error e) ∨
      ∃ seq : ℤ, e = "records up to " ++ toString seq ++
        " are missing and no retention record accounts for them" := by
  induction rows generalizing report gap with
  | nil =>
    cases gap with
    | none =>
      rw [verifyRows, hreport] at herror
      cases herror
    | some g =>
      cases herror
      exact .inr ⟨g.1, rfl⟩
  | cons row rows ih =>
    obtain ⟨hrow, hrows⟩ := List.forall_mem_cons.1 h
    rw [verifyRows] at herror
    cases hlink : verifyLink report gap row with
    | error e' =>
      have hverify : verifyRow c report gap row = .error e' := by
        rw [verifyRow, hlink]
        rfl
      rw [hverify] at herror
      cases herror
      exact .inl ⟨report, gap, row, List.mem_cons_self .., hlink⟩
    | ok gap₁ =>
      have hcontents : ∃ gap₂, verifyContents c gap₁ row = .ok gap₂ := by
        classical
        refine ⟨gap₁.filter fun g => ¬ row.Vouches c g, verifyContents_eq_ok_iff.2 ⟨hrow, ?_⟩⟩
        simp [Option.filter_eq_some_iff]
      obtain ⟨gap₂, hcontents⟩ := hcontents
      have hverify : verifyRow c report gap row = .ok gap₂ := by
        rw [verifyRow, hlink]
        exact hcontents
      rw [hverify] at herror
      have hpass : (report.pass row).error = none := hreport
      rcases ih hrows hpass herror with
        ⟨report', gap', row', hrow', hfail⟩ | hgap
      · exact .inl ⟨report', gap', row', List.mem_cons_of_mem _ hrow', hfail⟩
      · exact .inr hgap

/-! ## Readers of a trail -/

/-- No reader of the trail fails at a body: every row is read as the entry it was written for, every
query returns, every acknowledgement counts, and verification can only fail at a link. -/
structure Trail.Readable (json : JsonCrates) (c : Crates) (s : Trail) : Prop where
  row : ∀ row ∈ s.db.audit.rows, ∃ e ∈ s.entries, row = record c row.seq row.prevHash e ∧
    row.stored c = .ok ⟨row.seq, row.hash, row.prevHash, e.round json.round⟩
  query : ∀ (sql : SqlFunctions) (q : AuditQuery), ∃ records, query c sql s.db q = .ok records
  queryAfter : ∀ (afterSeq : ℤ) (limit : ℕ), ∃ records,
    queryAfter c s.db afterSeq limit = .ok records
  alarms : ∀ row ∈ newestAcks s.db 100, ∃ e ∈ s.entries, row.body = c.toJson e ∧
    ∀ severity, bodyAck c severity row.body = e.event.acknowledges severity
  verify : ∀ e, (verifyChain c s.db).error = some e →
    (∃ report gap, ∃ row ∈ s.db.audit.rows, verifyLink report gap row = .error e) ∨
      ∃ seq : ℤ, e = "records up to " ++ toString seq ++
        " are missing and no retention record accounts for them"

/-- Rounding times does not change what is acknowledged. -/
theorem AuditEvent.acknowledges_round {r : UInt64 → UInt64} (event : AuditEvent)
    (severity : Severity) :
    (event.round r).acknowledges severity = event.acknowledges severity := by
  cases event <;> rfl

/-- A trail is readable if every entry is read back.

**Proof sketch.** Every row that is held is the record of an entry. -/
theorem Trail.Chained.readable {c : Crates} {s : Trail} (hs : s.Chained c)
    (h : ∀ e ∈ s.entries, e.ReadsAs json c (e.round json.round)) : s.Readable json c := by
  have hrow : ∀ row ∈ s.db.audit.rows, ∃ e ∈ s.entries, row = record c row.seq row.prevHash e ∧
      row.stored c = .ok ⟨row.seq, row.hash, row.prevHash, e.round json.round⟩ := by
    intro row hrow
    obtain ⟨e, he, heq⟩ := hs.exists_entry (hs.held.subset hrow)
    have hbody : row.body = c.toJson e := congrArg Row.body heq
    refine ⟨e, he, heq, ?_⟩
    rw [Row.stored, hbody, (h e he).read]
  have hread : ∀ row ∈ s.db.audit.rows, ∃ record, row.stored c = .ok record := by
    intro row hmem
    obtain ⟨e, -, -, hstored⟩ := hrow row hmem
    exact ⟨_, hstored⟩
  have hsound : ∀ row ∈ s.db.audit.rows, row.Sound c := by
    intro row hmem
    obtain ⟨e, he, heq, -⟩ := hrow row hmem
    rw [heq]
    exact (h e he).sound row.seq row.prevHash
  refine ⟨hrow, query_eq_ok hread, queryAfter_eq_ok hread, ?_, ?_⟩
  · intro row hack
    obtain ⟨e, he, heq, -⟩ := hrow row
      (List.mem_of_mem_filter (List.mem_reverse.1 (List.mem_of_mem_take hack)))
    have hbody : row.body = c.toJson e := congrArg Row.body heq
    refine ⟨e, he, hbody, fun severity => ?_⟩
    rw [bodyAck, hbody, (h e he).read]
    exact e.event.acknowledges_round severity
  · intro e herror
    exact verifyRows_error_of_sound hsound rfl herror

/-- **Every record can be read back**: in every state that a run reaches, every entry ever committed
is read back as it was written but for rounded floats, and no reader fails at a body.

The values of a client are nested no deeper than the decoder of the OPC UA library lets them be;
`limit` is this depth, and `hlimit` says that it leaves room for the rest of a body below the
recursion limit of the JSON parser. -/
theorem Trail.readable_of_run {x : Texts} {limit : ℕ} (hlimit : limit ≤ 58) {ops : List Trail.Op}
    {s : Trail}
    (hrun : Machine.run (Trail.step (json.crates sha256 rfc3339)) Trail.init ops = some s)
    (hentries : ∀ e ∈ s.entries, e.Writable x limit json) :
    (∀ e ∈ s.entries, e.ReadsAs json (json.crates sha256 rfc3339) (e.round json.round)) ∧
      s.Readable json (json.crates sha256 rfc3339) := by
  have hreads : ∀ e ∈ s.entries,
      e.ReadsAs json (json.crates sha256 rfc3339) (e.round json.round) :=
    fun e he => AuditEntry.readsAs hlimit (hentries e he)
  exact ⟨hreads, (Trail.chained_of_run hrun).readable hreads⟩

/-! ## A write of nested values -/

namespace Json

mutual

/-- The text of a value without floats, with texts in which nothing has to be escaped. -/
def compact : Json → String
  | .null => "null"
  | .bool b => toString b
  | .number (.posInt n) => toString n
  | .number (.negInt n) => toString n
  | .number (.float _) => "0.0"
  | .string s => "\"" ++ s ++ "\""
  | .array values => "[" ++ ",".intercalate (compactValues values) ++ "]"
  | .object members => "\x7b" ++ ",".intercalate (compactMembers members) ++ "\x7d"

/-- The compact texts of a list of values. -/
def compactValues : List Json → List String
  | [] => []
  | value :: values => compact value :: compactValues values

/-- The compact texts of the members of an object. -/
def compactMembers : List (String × Json) → List String
  | [] => []
  | (key, value) :: members =>
    ("\"" ++ key ++ "\":" ++ compact value) :: compactMembers members

end

end Json

/-- The other crates on the texts of some entries. -/
def JsonCrates.compact (entries : List AuditEntry) : JsonCrates where
  print := Json.compact
  parse text :=
    (entries.map (AuditEntry.toJson rfc3339Auto)).find? fun value => value.compact = text
  round := id
  message _ := "unknown record"
  time := rfc3339Auto
  parseTime text :=
    (entries.flatMap fun e => e.ts :: e.event.instants).find? fun t => rfc3339Auto t = text

/-- The texts of the server in the example. -/
def setpointTexts : Texts where
  json := Json.compact
  nodeId _ := "ns=3;s=Setpoints"
  statusCode _ := "Good"
  scalarType
    | .variant => "Variant"
    | _ => "Int32"
  attributeId _ := some "Value"

/-- An array of an array and a number. -/
def setpoints : Variant :=
  .array .variant [.variant (.array .int32 [.int32 7, .int32 (-2)] none), .variant (.int32 3)] none

/-- Its rendering. -/
def setpointsValue : AuditValue :=
  ⟨"Variant[]", .array [.array [.int 7, .int (-2)], .int 3]⟩

/-- The record of a client that wrote them. -/
def setpointsEntry : AuditEntry :=
  { ts := ⟨1704067200000000000⟩
    target := some "plc"
    client := some { remoteAddr := "10.0.0.5:49152", user := some (.userName "operator") }
    event := .write 42 "ns=3;s=Setpoints" (some "Setpoints") "Value" none none setpointsValue none
      none none "Good" }

/-- The setpoints are written as their values. -/
theorem auditValue_setpoints :
    AuditMap.auditValue setpointTexts setpoints = some setpointsValue := by
  rfl

/-- The setpoints are a request that a client can send. -/
theorem received_setpoints : setpoints.Received setpointTexts 1 := by
  have hscalar : ∀ (limit : ℕ) (n : ℤ), -2 ^ 31 ≤ n ∧ n < 2 ^ 31 →
      Variant.Decoded limit (.int32 n) := fun limit n hn => .scalar limit trivial hn
  have hinner : Variant.Decoded 0 (.array .int32 [.int32 7, .int32 (-2)] none) := by
    refine .array ⟨by decide, by simp⟩ (by simp [Variant.IsArray]) ?_
    rw [List.forall_mem_cons, List.forall_mem_singleton]
    exact ⟨hscalar 0 7 (by decide), hscalar 0 (-2) (by decide)⟩
  refine ⟨.array ⟨by decide, by simp⟩ (by simp [Variant.IsArray]) ?_, ?_⟩
  · rw [List.forall_mem_cons, List.forall_mem_singleton]
    exact ⟨.variant hinner, .variant (hscalar 0 3 (by decide))⟩
  · intro json hjson
    cases hjson
    decide +kernel

/-- An entry without other instants is printed and parsed. -/
theorem JsonCrates.lawful_compact {entry : AuditEntry} (h : entry.event.instants = []) :
    (JsonCrates.compact [entry]).Lawful entry := by
  refine ⟨fun _ => ?_, fun t ht => ?_⟩
  · have hexact : (entry.toJson rfc3339Auto).round id = entry.toJson rfc3339Auto :=
      Json.round_of_exact (fun _ => rfl) _
    simp [compact, hexact]
  · rw [h, List.mem_singleton] at ht
    subst ht
    simp [compact, h]

/-- The entry of the setpoints can be written. -/
theorem writable_setpointsEntry :
    setpointsEntry.Writable setpointTexts 1 (.compact [setpointsEntry]) where
  constructed := by
    refine ⟨fun value hvalue => ?_, setpoints, received_setpoints, auditValue_setpoints⟩
    cases hvalue
  typed := by
    show 42 < 2 ^ 32
    decide
  lawful := JsonCrates.lawful_compact rfl

example : setpointsValue.value.compact = "[[7,-2],3]" := by decide +kernel

/-- It is committed after a start. -/
theorem exists_run_setpointsEntry (c : Crates) : ∃ s,
    Machine.run (Trail.step c) Trail.init [.openStore true ⟨0⟩, .append true [setpointsEntry]] =
      some s ∧ s.entries = [setpointsEntry] := ⟨_, rfl, rfl⟩

/-- A trail in which the setpoints are recorded and read back. -/
theorem Trail.readable_of_run_setpointsEntry : ∃ s,
    Machine.run (Trail.step ((JsonCrates.compact [setpointsEntry]).crates Sha256.digest
        rfc3339Micros)) Trail.init [.openStore true ⟨0⟩, .append true [setpointsEntry]] = some s ∧
      s.Readable (.compact [setpointsEntry])
        ((JsonCrates.compact [setpointsEntry]).crates Sha256.digest rfc3339Micros) := by
  obtain ⟨s, hs, hentries⟩ := exists_run_setpointsEntry
    ((JsonCrates.compact [setpointsEntry]).crates Sha256.digest rfc3339Micros)
  have hwritable : ∀ e ∈ s.entries, e.Writable setpointTexts 1 (.compact [setpointsEntry]) := by
    rw [hentries]
    intro e he
    rw [List.mem_singleton.1 he]
    exact writable_setpointsEntry
  exact ⟨s, hs, (Trail.readable_of_run (by decide) hs hwritable).2⟩

end AuditGateway
