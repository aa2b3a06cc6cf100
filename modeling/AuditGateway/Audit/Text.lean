import AuditGateway.Audit.Store
import AuditGateway.Lib.Sha256

set_option relaxedAutoImplicit false
set_option autoImplicit false

/-!
# Texts of records

What the store relies on of the JSON text of a record, and the functions of the other crates
written out for the records of the gateway itself: the RFC 3339 text of an instant, the JSON
text of such a record, and SHA-256.

## Main definitions

* `ReadsBack` — the text of an entry reads back to the same record fields.
* `rfc3339Micros`, `entryText` — the texts of an instant and of an entry.
* `Crates.plain` — these functions, with a list of entries whose text is read back.

## Main results

* `readsBack_plain` — entries with different texts read back.
-/

namespace AuditGateway

/-- The text of an entry reads back to an entry with the same indexed columns, which is the same
retention record if it is one. -/
def ReadsBack (c : Crates) (e : AuditEntry) : Prop :=
  ∃ e', c.fromJson (c.toJson e) = .ok e' ∧ columns c e' = columns c e ∧
    e'.event.pruned? = e.event.pruned?

/-! ## Instants -/

/-- Year, month and day of a day after the epoch, in the Gregorian calendar. The year is counted
from March, so that the leap day is its last one. -/
def civil (day : ℤ) : ℤ × ℤ × ℤ :=
  let era := (day + 719468) / 146097
  let dayOfEra := (day + 719468) % 146097
  let yearOfEra :=
    (dayOfEra - dayOfEra / 1460 + dayOfEra / 36524 - dayOfEra / 146096) / 365
  let dayOfYear := dayOfEra - (365 * yearOfEra + yearOfEra / 4 - yearOfEra / 100)
  let month := (5 * dayOfYear + 2) / 153
  (era * 400 + yearOfEra + (if month < 10 then 0 else 1),
    if month < 10 then month + 3 else month - 9,
    dayOfYear - (153 * month + 2) / 5 + 1)

/-- A number with leading zeros. -/
def padded (width : ℕ) (n : ℤ) : String :=
  let digits := toString n
  String.ofList (List.replicate (width - digits.length) '0') ++ digits

/-- Date and time of an instant, to the second. -/
def dateTimeText (t : DateTime) : String :=
  let seconds := t.nanos / 1000000000
  let (year, month, day) := civil (seconds / 86400)
  padded 4 year ++ "-" ++ padded 2 month ++ "-" ++ padded 2 day ++ "T" ++
    padded 2 (seconds % 86400 / 3600) ++ ":" ++ padded 2 (seconds % 3600 / 60) ++ ":" ++
    padded 2 (seconds % 60)

/-- An instant with microseconds, as the time column has it. -/
def rfc3339Micros (t : DateTime) : String :=
  dateTimeText t ++ "." ++ padded 6 (t.micros % 1000000) ++ "Z"

/-- An instant with as many digits as it needs, as a body has it. -/
def rfc3339Auto (t : DateTime) : String :=
  let nanos := t.nanos % 1000000000
  let fraction :=
    if nanos = 0 then ""
    else if nanos % 1000000 = 0 then "." ++ padded 3 (nanos / 1000000)
    else if nanos % 1000 = 0 then "." ++ padded 6 (nanos / 1000)
    else "." ++ padded 9 nanos
  dateTimeText t ++ fraction ++ "Z"

example : rfc3339Micros ⟨1709208000000001500⟩ = "2024-02-29T12:00:00.000001Z" := by decide +kernel

/-! ## Records of the gateway itself -/

/-- The JSON text of the events the store and the writer record themselves. -/
def eventText : AuditEvent → String
  | .gatewayStopped => "\x7b\"type\":\"gateway_stopped\"\x7d"
  | .retentionPruned deleted lastSeq lastHash =>
    "\x7b\"type\":\"retention_pruned\",\"deleted\":" ++ toString deleted ++ ",\"last_seq\":" ++
      toString lastSeq ++ ",\"last_hash\":\"" ++ lastHash ++ "\"\x7d"
  | .eventsLost count =>
    "\x7b\"type\":\"events_lost\",\"count\":" ++ toString count ++ "\x7d"
  | .trailTruncated expectedSeq foundSeq =>
    "\x7b\"type\":\"trail_truncated\",\"expected_seq\":" ++ toString expectedSeq ++
      ",\"found_seq\":" ++ toString foundSeq ++ "\x7d"
  | _ => ""

/-- The JSON text of an entry without target and client. -/
def entryText (e : AuditEntry) : String :=
  "\x7b\"ts\":\"" ++ rfc3339Auto e.ts ++ "\",\"event\":" ++ eventText e.event ++ "\x7d"

/-- The functions of the other crates on the gateway's own records. The texts of the entries
`known` are read back. -/
def Crates.plain (known : List AuditEntry) : Crates where
  sha256 := Sha256.digest
  toJson := entryText
  fromJson text :=
    match known.find? fun e => entryText e = text with
    | some e => .ok e
    | none => .error "unknown record"
  rfc3339 := rfc3339Micros

/-- Entries with different texts read back. -/
theorem readsBack_plain {known : List AuditEntry}
    (h : known.Pairwise fun a b => entryText a ≠ entryText b) {e : AuditEntry} (he : e ∈ known) :
    ReadsBack (Crates.plain known) e := by
  refine ⟨e, ?_, rfl, rfl⟩
  obtain ⟨l, m, rfl⟩ := List.append_of_mem he
  have hl : (l.find? fun a => decide (entryText a = entryText e)) = none := by
    rw [List.find?_eq_none]
    intro a ha
    simpa using (List.pairwise_append.1 h).2.2 a ha e (List.mem_cons_self ..)
  have hfind : ((l ++ e :: m).find? fun a => decide (entryText a = entryText e)) = some e := by
    rw [List.find?_append, hl, Option.none_or, List.find?_cons_of_pos (by simp)]
  show (match (l ++ e :: m).find? fun a => decide (entryText a = entryText e) with
    | some e => Except.ok e
    | none => Except.error "unknown record") = Except.ok e
  rw [hfind]

/-- The record of three lost records, one second before midnight, 1 January 2024. -/
def lostEntry : AuditEntry := AuditEntry.new ⟨1704067199000000000⟩ (.eventsLost 3)

/-- The record of a regular stop at midnight. -/
def stoppedEntry : AuditEntry := AuditEntry.new ⟨1704067200000000000⟩ .gatewayStopped

example : entryText stoppedEntry =
    "\x7b\"ts\":\"2024-01-01T00:00:00Z\",\"event\":\x7b\"type\":\"gateway_stopped\"\x7d\x7d" := by
  decide +kernel

/-- Midnight, 2 January 2024. -/
def nextMidnight : DateTime := ⟨1704153600000000000⟩

/-- The functions of the other crates with these two entries read back. -/
def plainCrates : Crates := Crates.plain [lostEntry, stoppedEntry]

/-- Both entries of the examples are read back. -/
theorem readsBack_plainCrates : ∀ e ∈ [lostEntry, stoppedEntry], ReadsBack plainCrates e := by
  have hpairs : [lostEntry, stoppedEntry].Pairwise fun a b => entryText a ≠ entryText b := by
    decide +kernel
  exact fun e he => readsBack_plain hpairs he

end AuditGateway
