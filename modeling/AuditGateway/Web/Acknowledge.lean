import AuditGateway.Audit.Alarms
import AuditGateway.Audit.Chain
import AuditGateway.Audit.Writer

set_option relaxedAutoImplicit false
set_option autoImplicit false

/-!
# Acknowledging alarms

A request to acknowledge the alarms of a severity, in the web UI or through MCP, first reads the
mark, then looks whether anything is open behind it, and then records the acknowledgement. These are
steps of their own, and requests overlap. A request that is overtaken by another one records a lower
number behind a higher one, and the mark goes back.

## Main definitions

* `AckRequest`, `AckCall` — a request and how far it is.
* `AlarmRun`, `AlarmRun.Op`, `AlarmRun.step` — the trail and the requests.
* `AlarmRun.Orderly` — no request is overtaken, and no mark leaves the newest acknowledgements.

## Main results

* `AlarmRun.alarms_of_run` — when the counts are right, and that marks do not go back in such a run.
* `AlarmRun.mark_goes_back` — two requests that overlap.
-/

namespace AuditGateway

/-- Most records a tool of an MCP client reads. -/
def maxRecords : ℕ := 200

/-- A request to acknowledge the alarms of a severity. -/
inductive AckRequest
  /-- In the web UI: all of them. -/
  | web (by_ : String) (severity : Severity)
  /-- Through MCP: those up to a number that the client gives. -/
  | mcp (by_ : String) (severity : Severity) (upTo : ℤ)

namespace AckRequest

/-- The severity that is acknowledged. -/
def severity : AckRequest → Severity
  | .web _ severity => severity
  | .mcp _ severity _ => severity

/-- The user who acknowledges. -/
def actor : AckRequest → String
  | .web by_ _ => by_
  | .mcp by_ _ _ => by_

end AckRequest

/-- How far a request is. -/
inductive AckStage
  /-- Waiting until what was queued is written, and for the marks. -/
  | flushing
  /-- It has the mark of its severity. -/
  | marked
  /-- In the web UI: something is open. -/
  | counted (count : ℕ)
  /-- Waiting until the acknowledgement is committed. -/
  | committing (upTo : ℤ) (count : ℕ)
  | done

/-- A request that is being answered. -/
structure AckCall where
  request : AckRequest
  stage : AckStage := .flushing
  /-- The mark it has read. -/
  mark : ℤ := 0
  /-- How many entries were committed when it read the mark. -/
  seen : ℕ := 0

/-- The entry that records an acknowledgement. -/
def AckCall.entry (call : AckCall) (now : DateTime) (upTo : ℤ) (count : ℕ) : AuditEntry :=
  AuditEntry.new now
    (.alarmsAcknowledged call.request.actor call.request.severity upTo count)

/-- The trail with the requests that acknowledge alarms. -/
structure AlarmRun where
  trail : Trail
  calls : List AckCall

namespace AlarmRun

/-- What a request waits for, and what becomes of it. `reads` says whether a query succeeds. -/
inductive Event
  | marks (reads : Bool)
  | count (reads : Bool)
  | head (reads : Bool)
  | records (reads : Bool)
  /-- The transaction with the acknowledgement and entries of others ended. -/
  | committed (commits : Bool) (now : DateTime) (before after : List AuditEntry)

/-- What can happen. -/
inductive Op
  | trail (op : Trail.Op)
  /-- A request arrives. -/
  | call (request : AckRequest)
  /-- Request number `i` goes on. -/
  | run (i : ℕ) (event : Event)

/-- A new gateway. -/
def init : AlarmRun := ⟨Trail.init, []⟩

/-- Request number `i` has come to a stage. -/
def put (s : AlarmRun) (i : ℕ) (call : AckCall) : AlarmRun :=
  { s with calls := s.calls.set i call }

/-- A request goes on from its stage. -/
def runCall (c : Crates) (s : AlarmRun) (i : ℕ) (call : AckCall) :
    Event → AckStage → AckRequest → Option AlarmRun
  | .marks reads, .flushing, _ =>
    if reads then
      some (s.put i { call with
        stage := .marked
        mark := (alarmMarks c s.trail.db call.request.severity).getD 0
        seen := s.trail.entries.length })
    else some (s.put i { call with stage := .done })
  | .count reads, .marked, .web _ severity =>
    let count := countAfter s.trail.db severity call.mark
    some (s.put i { call with stage := if reads ∧ 0 < count then .counted count else .done })
  | .head reads, .counted count, .web _ _ =>
    some (s.put i { call with
      stage := if reads then .committing (headSeq s.trail.db) count else .done })
  | .records reads, .marked, .mcp _ severity upTo =>
    match queryKinds c s.trail.db severity.kinds call.mark (some (upTo + 1)) maxRecords with
    | .error _ => some (s.put i { call with stage := .done })
    | .ok records =>
      some (s.put i { call with
        stage := if reads ∧ records ≠ [] then .committing upTo records.length else .done })
  | .committed commits now before after, .committing upTo count, _ =>
    let entries := before ++ call.entry now upTo count :: after
    some ({ s with trail := (s.trail.step c (.append commits entries)).getD s.trail }.put i
      { call with stage := .done })
  | _, _, _ => none

/-- One operation. -/
def step (c : Crates) (s : AlarmRun) : Op → Option AlarmRun
  | .trail op => (s.trail.step c op).map fun trail => { s with trail := trail }
  | .call request => some { s with calls := s.calls ++ [{ request := request }] }
  | .run i event => s.calls[i]?.bind fun call => s.runCall c i call event call.stage call.request

/-! ## Which runs -/

/-- An entry is not an acknowledgement. -/
def NoAck (e : AuditEntry) : Prop := e.event.kind ≠ "alarms_acknowledged"

/-- Nobody else acknowledges alarms, and no rows get lost. -/
def OfGateway : Op → Prop
  | .trail (.append _ entries) => ∀ e ∈ entries, NoAck e
  | .trail op => op.Intact
  | .run _ (.committed _ _ before after) => ∀ e ∈ before ++ after, NoAck e
  | _ => True

/-- Nothing is deleted by retention. -/
def NoPruning : Op → Prop
  | .trail (.pruneBefore ..) => False
  | _ => True

/-- When an acknowledgement is committed, no other one of its severity with a higher number was
committed since its request read the mark, and the newest one of each other severity is not the last
of those the store reads. -/
def Orderly (s : AlarmRun) : Op → Prop
  | .run i (.committed ..) =>
    ∀ call, s.calls[i]? = some call → ∀ upTo count, call.stage = .committing upTo count →
      (∀ e ∈ s.trail.entries.drop call.seen, ∀ other,
        e.event.acknowledges call.request.severity = some other → other ≤ upTo) ∧
      ∀ severity ≠ call.request.severity,
        (∃ row ∈ s.trail.db.audit.rows, (s.trail.ackOf severity row).isSome) →
          ∃ row ∈ newestAcks s.trail.db 99, (s.trail.ackOf severity row).isSome
  | _ => True

/-- The mark of a severity as a call of `alarms` finds it. -/
def mark (c : Crates) (s : AlarmRun) (severity : Severity) : ℤ :=
  (alarmMarks c s.trail.db severity).getD 0

variable {c : Crates} {s t : AlarmRun}

/-! ## What a request can do -/

/-- The acknowledgement is committed, with entries of others. -/
def commit (c : Crates) (s : AlarmRun) (commits : Bool) (entries : List AuditEntry) : AlarmRun :=
  { s with trail := (s.trail.step c (.append commits entries)).getD s.trail }

/-- Everything a request can do in one operation. -/
inductive Turn (c : Crates) (s : AlarmRun) (i : ℕ) (call : AckCall) : Event → AlarmRun → Prop
  | ended (event : Event) : Turn c s i call event (s.put i { call with stage := .done })
  | marked (event : Event) (h : call.stage = .flushing) :
    Turn c s i call event (s.put i { call with
      stage := .marked
      mark := s.mark c call.request.severity
      seen := s.trail.entries.length })
  /-- There is a record behind the mark. -/
  | counted (event : Event) (count : ℕ) (h : call.stage = .marked)
      (hopen : ∃ row ∈ s.trail.db.audit.rows, call.mark < row.seq) :
    Turn c s i call event (s.put i { call with stage := .counted count })
  | headRead (event : Event) (count : ℕ) (h : call.stage = .counted count) :
    Turn c s i call event
      (s.put i { call with stage := .committing (headSeq s.trail.db) count })
  /-- There is a record behind the mark, up to the number given. -/
  | shown (event : Event) (upTo : ℤ) (count : ℕ) (h : call.stage = .marked)
      (hopen : call.mark < upTo) :
    Turn c s i call event (s.put i { call with stage := .committing upTo count })
  | committed (commits : Bool) (now : DateTime) (before after : List AuditEntry) (upTo : ℤ)
      (count : ℕ) (h : call.stage = .committing upTo count) :
    Turn c s i call (.committed commits now before after)
      ((s.commit c commits (before ++ call.entry now upTo count :: after)).put i
        { call with stage := .done })

/-- **What a request can do**: every operation of a request is one of its turns. -/
theorem turn {i : ℕ} {call : AckCall} {event : Event}
    (h : s.runCall c i call event call.stage call.request = some t) : Turn c s i call event t := by
  generalize hstage : call.stage = stage at h
  generalize call.request = request at h
  unfold runCall at h
  split at h
  · next request reads =>
    cases reads with
    | false =>
      cases h
      exact .ended _
    | true =>
      cases h
      exact .marked _ hstage
  · next reads by_ severity =>
    cases h
    by_cases hopen : reads = true ∧ 0 < countAfter s.trail.db severity call.mark
    · rw [if_pos hopen]
      refine .counted _ _ hstage ?_
      obtain ⟨row, hrow⟩ := List.exists_mem_of_length_pos hopen.2
      simp only [List.mem_filter, decide_eq_true_eq] at hrow
      exact ⟨row, hrow.1, hrow.2.1⟩
    · rw [if_neg hopen]
      exact .ended _
  · next reads count by_ severity =>
    cases h
    cases reads with
    | false => exact .ended _
    | true => exact .headRead _ count hstage
  · next reads by_ severity upTo =>
    split at h
    · cases h
      exact .ended _
    · next records hquery =>
      cases h
      by_cases hopen : reads = true ∧ records ≠ []
      · rw [if_pos hopen]
        refine .shown _ upTo _ hstage ?_
        obtain ⟨record, hrecord⟩ := List.exists_mem_of_ne_nil records hopen.2
        obtain ⟨row, hrow, -⟩ := (mem_storedRecords hquery).1 hrecord
        have hmem := List.mem_of_mem_take hrow
        rw [List.mem_reverse, List.mem_filter, decide_eq_true_eq] at hmem
        obtain ⟨-, hlt, hbefore, -⟩ := hmem
        have := hbefore (upTo + 1) rfl
        omega
      · rw [if_neg hopen]
        exact .ended _
  · next request commits now before after upTo count =>
    cases h
    exact .committed commits now before after upTo count hstage
  · cases h

/-! ## What every run keeps -/

/-- What holds of a request at its stage. -/
def CallOk (s : AlarmRun) (call : AckCall) : Prop :=
  match call.stage with
  | .marked => 0 ≤ call.mark
  | .counted _ => 0 ≤ call.mark ∧ call.mark < s.trail.head.1
  | .committing upTo _ => 0 ≤ call.mark ∧ call.mark < upTo
  | _ => True

/-- The invariant of every run. -/
structure Inv (c : Crates) (s : AlarmRun) : Prop where
  chained : Trail.Chained c s.trail
  whole : Trail.Whole c s.trail
  pos : ∀ e ∈ s.trail.entries, ∀ severity upTo, e.event.acknowledges severity = some upTo → 0 < upTo
  calls : ∀ call ∈ s.calls, CallOk s call

/-- The invariant holds at the start. -/
theorem inv_init (c : Crates) : Inv c init :=
  ⟨Trail.chained_init c, Trail.whole_init c, by simp [init, Trail.init], by simp [init]⟩

/-- The trail only grows at its end. -/
theorem CallOk.mono (h : s.trail.head.1 ≤ t.trail.head.1) {call : AckCall} (hc : CallOk s call) :
    CallOk t call := by
  unfold CallOk at hc ⊢
  split at hc
  · exact hc
  · exact ⟨hc.1, hc.2.trans_le h⟩
  · exact hc
  · trivial

/-- A request has come to another stage. -/
theorem Inv.put (h : Inv c s) {i : ℕ} {call : AckCall} (hcall : CallOk s call) :
    Inv c (s.put i call) := by
  refine ⟨h.chained, h.whole, h.pos, fun other hother => ?_⟩
  rcases List.mem_or_eq_of_mem_set hother with hother | rfl
  · exact (h.calls other hother).mono le_rfl
  · exact hcall.mono le_rfl

/-- Entries are committed to the trail: those of others, or acknowledgements of something. -/
theorem Inv.trail (h : Inv c s) {op : Trail.Op} {trail : Trail} (hop : op.Intact)
    (hs : s.trail.step c op = some trail)
    (hpos : ∀ commits es, op = .append commits es → ∀ e ∈ es, ∀ severity upTo,
      e.event.acknowledges severity = some upTo → 0 < upTo) :
    Inv c { s with trail := trail } := by
  refine ⟨Trail.chained_step h.chained hs, Trail.whole_step h.chained h.whole hop hs, ?_, ?_⟩
  · obtain ⟨es, hentries, hes⟩ := h.chained.exists_new hs
    intro e he severity upTo hack
    rw [hentries, List.mem_append] at he
    rcases he with he | he
    · exact h.pos e he severity upTo hack
    · rcases hes with ⟨commits, hop⟩ | hes
      · exact hpos commits es hop e he severity upTo hack
      · rw [AuditEvent.acknowledges_eq_none (hes e he)] at hack
        cases hack
  · exact fun call hcall => (h.calls call hcall).mono (h.chained.frame hs).1

/-- An acknowledgement acknowledges what its request says. -/
theorem acknowledges_entry (call : AckCall) (now : DateTime) (upTo : ℤ) (count : ℕ)
    (severity : Severity) : (call.entry now upTo count).event.acknowledges severity =
      if call.request.severity = severity then some upTo else none := rfl

/-- The acknowledgement of a request is committed, or not. -/
theorem Inv.commit (h : Inv c s) {call : AckCall} (hcall : CallOk s call) {upTo : ℤ} {count : ℕ}
    (hstage : call.stage = .committing upTo count) {before after : List AuditEntry}
    (hothers : ∀ e ∈ before ++ after, NoAck e) (commits : Bool) (now : DateTime) :
    Inv c (s.commit c commits (before ++ call.entry now upTo count :: after)) := by
  unfold AlarmRun.commit
  cases hs : s.trail.step c (.append commits (before ++ call.entry now upTo count :: after)) with
  | none => exact h
  | some trail =>
    apply h.trail (by trivial) hs
    rintro _ es ⟨⟩ e he severity n hack
    have hother : ∀ e ∈ before ++ after, e.event.acknowledges severity = none := fun e he =>
      AuditEvent.acknowledges_eq_none (hothers e he) severity
    simp only [List.mem_append, List.mem_cons] at he
    rcases he with he | rfl | he
    · rw [hother e (List.mem_append_left _ he)] at hack
      cases hack
    · unfold CallOk at hcall
      rw [hstage] at hcall
      rw [acknowledges_entry] at hack
      split_ifs at hack
      obtain rfl : upTo = n := Option.some.inj hack
      exact hcall.1.trans_lt hcall.2
    · rw [hother e (List.mem_append_right _ he)] at hack
      cases hack

/-- **Step lemma**: every operation keeps the invariant. -/
theorem inv_step (hread : Trail.AcksReadBack c s.trail.entries) (h : Inv c s) {op : Op}
    (hop : OfGateway op) (hs : s.step c op = some t) : Inv c t := by
  cases op with
  | trail op =>
    obtain ⟨trail, htrail, rfl⟩ := Option.map_eq_some_iff.1 hs
    have hintact : op.Intact := by
      cases op with
      | append => trivial
      | openStore | pruneBefore | stop | lose => exact hop
    apply h.trail hintact htrail
    rintro commits es rfl e he severity upTo hack
    rw [AuditEvent.acknowledges_eq_none (hop e he)] at hack
    cases hack
  | call request =>
    cases hs
    refine ⟨h.chained, h.whole, h.pos, fun call hcall => ?_⟩
    rcases List.mem_append.1 hcall with hcall | hcall
    · exact (h.calls call hcall).mono le_rfl
    · rw [List.mem_singleton.1 hcall]
      trivial
  | run i event =>
    obtain ⟨call, hget, hrun⟩ := Option.bind_eq_some_iff.1 hs
    have hcall := h.calls call (List.mem_of_getElem? hget)
    have hacks : Trail.AcksRead c s.trail := ⟨hread, h.pos⟩
    cases turn hrun with
    | ended => exact h.put trivial
    | marked => exact h.put (hacks.alarmMarks_nonneg h.chained call.request.severity)
    | counted _ count hstage hopen =>
      unfold CallOk at hcall
      rw [hstage] at hcall
      obtain ⟨row, hrow, hlt⟩ := hopen
      exact h.put ⟨hcall, hlt.trans_le (h.chained.seq_le row hrow)⟩
    | headRead _ count hstage =>
      unfold CallOk at hcall
      rw [hstage] at hcall
      exact h.put ⟨hcall.1, hcall.2.trans_le (h.whole.head_le_headSeq h.chained)⟩
    | shown _ upTo count hstage hopen =>
      unfold CallOk at hcall
      rw [hstage] at hcall
      exact h.put ⟨hcall, hopen⟩
    | committed commits now before after upTo count hstage =>
      exact (h.commit hcall hstage hop commits now).put trivial

/-! ## What runs keep in which no request is overtaken -/

/-- The invariant of a run without retention in which no request is overtaken: the newest
acknowledgement of each severity is among those the store reads, and each request has the mark that
was right when it read it. -/
structure InOrder (c : Crates) (s : AlarmRun) : Prop where
  inv : Inv c s
  complete : s.trail.Complete
  recent : ∀ severity, (∃ e ∈ s.trail.entries, (e.event.acknowledges severity).isSome) →
    ∃ e ∈ Trail.newestAckEntries s.trail.entries 100, (e.event.acknowledges severity).isSome
  calls : ∀ call ∈ s.calls, call.seen ≤ s.trail.entries.length ∧
    call.mark = Trail.lastAck (s.trail.entries.take call.seen) call.request.severity

/-- The records are in order at the start. -/
theorem inOrder_init (c : Crates) : InOrder c init :=
  ⟨inv_init c, rfl, by simp [init, Trail.init], by simp [init]⟩

/-- The store finds the mark that the newest acknowledgement of a severity has set. -/
theorem InOrder.mark_eq (h : InOrder c s) (hread : Trail.AcksReadBack c s.trail.entries)
    (severity : Severity) : s.mark c severity = Trail.lastAck s.trail.entries severity := by
  have hacks : Trail.AcksRead c s.trail := ⟨hread, h.inv.pos⟩
  rw [mark, (hacks.mark_eq_iff h.inv.chained severity).2, h.complete.newestMark_eq h.inv.chained]
  rw [h.complete.exists_row_iff h.inv.chained, h.complete.exists_newest_iff h.inv.chained]
  exact h.recent severity

/-- A request has come to another stage, and its mark is still the one it has read. -/
theorem InOrder.put (h : InOrder c s) {i : ℕ} {call : AckCall} (hinv : Inv c (s.put i call))
    (hseen : call.seen ≤ s.trail.entries.length)
    (hmark : call.mark = Trail.lastAck (s.trail.entries.take call.seen) call.request.severity) :
    InOrder c (s.put i call) := by
  refine ⟨hinv, h.complete, h.recent, fun other hother => ?_⟩
  rcases List.mem_or_eq_of_mem_set hother with hother | rfl
  · exact h.calls other hother
  · exact ⟨hseen, hmark⟩

/-- What the requests have read stays what it was when entries are added. -/
theorem InOrder.calls_append (h : InOrder c s) {es : List AuditEntry} :
    ∀ call ∈ s.calls, call.seen ≤ (s.trail.entries ++ es).length ∧
      call.mark = Trail.lastAck ((s.trail.entries ++ es).take call.seen) call.request.severity := by
  intro call hcall
  obtain ⟨hseen, hmark⟩ := h.calls call hcall
  refine ⟨by simp; omega, ?_⟩
  rw [List.take_append_of_le_length hseen]
  exact hmark

/-- Entries that acknowledge nothing are committed. -/
theorem InOrder.others (h : InOrder c s) {trail : Trail} (hinv : Inv c { s with trail := trail })
    (hcomplete : trail.Complete) {es : List AuditEntry}
    (hentries : trail.entries = s.trail.entries ++ es)
    (hes : ∀ e ∈ es, NoAck e) :
    InOrder c { s with trail := trail } ∧
      Trail.lastAck trail.entries = Trail.lastAck s.trail.entries := by
  obtain ⟨hlast, hnewest⟩ := Trail.acks_append hes s.trail.entries
  rw [← hentries] at hlast hnewest
  refine ⟨⟨hinv, hcomplete, fun severity => ?_, ?_⟩, hlast⟩
  · show (∃ e ∈ trail.entries, _) → ∃ e ∈ Trail.newestAckEntries trail.entries 100, _
    rintro ⟨e, he, hack⟩
    rw [hnewest]
    apply h.recent severity
    rw [hentries, List.mem_append] at he
    rcases he with he | he
    · exact ⟨e, he, hack⟩
    · rw [AuditEvent.acknowledges_eq_none (hes e he)] at hack
      cases hack
  · show ∀ call ∈ s.calls, call.seen ≤ trail.entries.length ∧
      call.mark = Trail.lastAck (trail.entries.take call.seen) call.request.severity
    rw [hentries]
    exact h.calls_append

/-- An acknowledgement that is not overtaken raises the mark of its severity.

**Proof sketch.** What was committed since the request read the mark is no higher, and if nothing
was, the mark is still the one it has read, behind which it found something open. -/
theorem InOrder.lastAck_le (h : InOrder c s) {call : AckCall} (hcall : call ∈ s.calls) {upTo : ℤ}
    {count : ℕ} (hstage : call.stage = .committing upTo count)
    (hsince : ∀ e ∈ s.trail.entries.drop call.seen, ∀ other,
      e.event.acknowledges call.request.severity = some other → other ≤ upTo) :
    Trail.lastAck s.trail.entries call.request.severity ≤ upTo := by
  have hok := h.inv.calls call hcall
  unfold CallOk at hok
  rw [hstage] at hok
  obtain ⟨-, hmark⟩ := h.calls call hcall
  have hsplit := Trail.lastAck_append (s.trail.entries.take call.seen)
    (s.trail.entries.drop call.seen) call.request.severity
  rw [List.take_append_drop, ← hmark] at hsplit
  rw [hsplit]
  cases hfound : (s.trail.entries.drop call.seen).reverse.findSome?
      fun e => e.event.acknowledges call.request.severity with
  | none => exact hok.2.le
  | some other =>
    obtain ⟨e, he, hack⟩ := List.exists_of_findSome?_eq_some hfound
    exact hsince e (List.mem_reverse.1 he) other hack

/-- The acknowledgement of a request that is not overtaken is committed, or not. -/
theorem InOrder.commit (h : InOrder c s) {call : AckCall} (hcall : call ∈ s.calls) {upTo : ℤ}
    {count : ℕ} (hstage : call.stage = .committing upTo count) {before after : List AuditEntry}
    (hothers : ∀ e ∈ before ++ after, NoAck e) (commits : Bool) (now : DateTime)
    (hsince : ∀ e ∈ s.trail.entries.drop call.seen, ∀ other,
      e.event.acknowledges call.request.severity = some other → other ≤ upTo)
    (hrecent : ∀ severity ≠ call.request.severity,
      (∃ row ∈ s.trail.db.audit.rows, (s.trail.ackOf severity row).isSome) →
        ∃ row ∈ newestAcks s.trail.db 99, (s.trail.ackOf severity row).isSome) :
    InOrder c (s.commit c commits (before ++ call.entry now upTo count :: after)) ∧
      ∀ severity, Trail.lastAck s.trail.entries severity ≤
        Trail.lastAck
          (s.commit c commits (before ++ call.entry now upTo count :: after)).trail.entries
          severity := by
  have hinv := h.inv.commit (h.inv.calls call hcall) hstage hothers commits now
  unfold AlarmRun.commit at hinv ⊢
  cases hs : s.trail.step c (.append commits (before ++ call.entry now upTo count :: after)) with
  | none => exact ⟨h, fun _ => le_rfl⟩
  | some trail =>
    rw [hs, Option.getD_some] at hinv
    rw [Option.getD_some]
    have hcomplete := h.complete.step h.inv.chained (by simp) (by simp) hs
    obtain ⟨es, hentries, ⟨_, ⟨⟩⟩ | hes⟩ := h.inv.chained.exists_new hs
    · obtain ⟨hlast, hnewest⟩ := Trail.acks_append_cons hothers
        (show (call.entry now upTo count).event.kind = "alarms_acknowledged" from rfl)
        s.trail.entries
      rw [← hentries] at hlast hnewest
      refine ⟨⟨hinv, hcomplete, fun severity => ?_, ?_⟩, fun severity => ?_⟩
      · show (∃ e ∈ trail.entries, _) → ∃ e ∈ Trail.newestAckEntries trail.entries (99 + 1), _
        rw [hnewest]
        rintro ⟨e, he, hack⟩
        by_cases hsame : call.request.severity = severity
        · refine ⟨_, List.mem_cons_self .., ?_⟩
          rw [acknowledges_entry, if_pos hsame]
          rfl
        · have hold : ∃ e ∈ s.trail.entries, (e.event.acknowledges severity).isSome := by
            rw [hentries] at he
            simp only [List.mem_append, List.mem_cons] at he
            have hno : ∀ e ∈ before ++ after, (e.event.acknowledges severity).isSome → False := by
              intro e he hack
              rw [AuditEvent.acknowledges_eq_none (hothers e he)] at hack
              cases hack
            rcases he with he | he | rfl | he
            · exact ⟨e, he, hack⟩
            · exact (hno e (List.mem_append_left _ he) hack).elim
            · rw [acknowledges_entry, if_neg hsame] at hack
              cases hack
            · exact (hno e (List.mem_append_right _ he) hack).elim
          rw [← h.complete.exists_row_iff h.inv.chained] at hold
          obtain ⟨e', he', hack'⟩ := (h.complete.exists_newest_iff h.inv.chained 99 severity).1
            (hrecent severity (Ne.symm hsame) hold)
          exact ⟨e', List.mem_cons_of_mem _ he', hack'⟩
      · show ∀ call ∈ s.calls, call.seen ≤ trail.entries.length ∧
          call.mark = Trail.lastAck (trail.entries.take call.seen) call.request.severity
        rw [hentries]
        exact h.calls_append
      · show _ ≤ Trail.lastAck trail.entries severity
        rw [hlast severity, acknowledges_entry]
        by_cases hsame : call.request.severity = severity
        · rw [if_pos hsame, Option.getD_some, ← hsame]
          exact h.lastAck_le hcall hstage hsince
        · rw [if_neg hsame, Option.getD_none]
    · obtain ⟨hin, hlast⟩ := h.others hinv hcomplete hentries hes
      exact ⟨hin, fun severity => (congrFun hlast severity).ge⟩

/-- **Step lemma** for runs in which no request is overtaken: the invariant is kept, and no mark
goes back. -/
theorem inOrder_step (hread : Trail.AcksReadBack c s.trail.entries) (h : InOrder c s) {op : Op}
    (hop : OfGateway op) (hkeep : NoPruning op) (hsafe : Orderly s op)
    (hs : s.step c op = some t) : InOrder c t ∧ ∀ severity,
      Trail.lastAck s.trail.entries severity ≤ Trail.lastAck t.trail.entries severity := by
  have hinv := inv_step hread h.inv hop hs
  cases op with
  | trail op =>
    obtain ⟨trail, htrail, rfl⟩ := Option.map_eq_some_iff.1 hs
    have hcomplete : trail.Complete := by
      refine h.complete.step h.inv.chained ?_ ?_ htrail
      · rintro _ _ _ _ rfl
        exact hkeep
      · rintro _ rfl
        exact hop
    obtain ⟨es, hentries, hes⟩ := h.inv.chained.exists_new htrail
    have hnone : ∀ e ∈ es, NoAck e := by
      rcases hes with ⟨commits, rfl⟩ | hes
      · exact hop
      · exact hes
    obtain ⟨hin, hlast⟩ := h.others hinv hcomplete hentries hnone
    exact ⟨hin, fun severity => (congrFun hlast severity).ge⟩
  | call request =>
    cases hs
    refine ⟨⟨hinv, h.complete, h.recent, fun call hcall => ?_⟩, fun _ => le_rfl⟩
    rcases List.mem_append.1 hcall with hcall | hcall
    · exact h.calls call hcall
    · rw [List.mem_singleton.1 hcall]
      exact ⟨Nat.zero_le _, rfl⟩
  | run i event =>
    obtain ⟨call, hget, hrun⟩ := Option.bind_eq_some_iff.1 hs
    have hmem := List.mem_of_getElem? hget
    obtain ⟨hseen, hmark⟩ := h.calls call hmem
    cases turn hrun with
    | ended => exact ⟨h.put hinv hseen hmark, fun _ => le_rfl⟩
    | marked =>
      refine ⟨h.put hinv le_rfl ?_, fun _ => le_rfl⟩
      show s.mark c call.request.severity = Trail.lastAck (s.trail.entries.take _) _
      rw [List.take_length]
      exact h.mark_eq hread call.request.severity
    | counted => exact ⟨h.put hinv hseen hmark, fun _ => le_rfl⟩
    | headRead => exact ⟨h.put hinv hseen hmark, fun _ => le_rfl⟩
    | shown => exact ⟨h.put hinv hseen hmark, fun _ => le_rfl⟩
    | committed commits now before after upTo count hstage =>
      obtain ⟨hsince, hrecent⟩ := hsafe call hget upTo count hstage
      obtain ⟨hin, hle⟩ := h.commit hmem hstage hop commits now hsince hrecent
      exact ⟨hin.put hinv (hin.calls call hmem).1 (hin.calls call hmem).2, hle⟩

/-- No operation breaks the chain or forgets an entry. -/
theorem chained_step {op : Op} (h : Trail.Chained c s.trail) (hs : s.step c op = some t) :
    Trail.Chained c t.trail ∧ s.trail.entries ⊆ t.trail.entries := by
  cases op with
  | trail op =>
    obtain ⟨trail, hstep, rfl⟩ := Option.map_eq_some_iff.1 hs
    exact h.keeps hstep
  | call request =>
    cases hs
    exact ⟨h, List.Subset.refl _⟩
  | run i event =>
    obtain ⟨call, -, hrun⟩ := Option.bind_eq_some_iff.1 hs
    cases turn hrun with
    | committed commits now before after upTo count =>
      show Trail.Chained c (s.commit c _ _).trail ∧ _ ⊆ (s.commit c _ _).trail.entries
      unfold AlarmRun.commit
      cases hstep : s.trail.step c
          (.append commits (before ++ call.entry now upTo count :: after)) with
      | none => exact ⟨h, List.Subset.refl _⟩
      | some trail => exact h.keeps hstep
    | ended | marked | counted | headRead | shown => exact ⟨h, List.Subset.refl _⟩

/-- What every run keeps, as long as the acknowledgements are read back. -/
theorem inv_of_run {ops : List Op} (hops : ∀ op ∈ ops, OfGateway op)
    (hr : Machine.run (step c) init ops = some t) :
    Trail.Chained c t.trail ∧ (Trail.AcksReadBack c t.trail.entries → Inv c t) := by
  have hstep : ∀ s op u,
      Trail.Chained c s.trail ∧ (Trail.AcksReadBack c s.trail.entries → Inv c s) →
      OfGateway op → step c s op = some u →
      Trail.Chained c u.trail ∧ (Trail.AcksReadBack c u.trail.entries → Inv c u) := by
    rintro s op u ⟨hchained, h⟩ hop hs
    obtain ⟨hchained', hsub⟩ := chained_step hchained hs
    refine ⟨hchained', fun hread => ?_⟩
    exact inv_step (hread.mono hsub) (h (hread.mono hsub)) hop hs
  exact Machine.run_invariant_of_meets hstep ⟨Trail.chained_init c, fun _ => inv_init c⟩
    (Machine.meets_of_forall_mem (step c) (fun op hop _ => hops op hop) init) hr

/-- What a run keeps in which no request is overtaken, from any of its states on. -/
theorem inOrder_of_run {ops : List Op} (hops : ∀ op ∈ ops, OfGateway op ∧ NoPruning op)
    (hsafe : Machine.Meets (step c) Orderly s ops) (hchained : Trail.Chained c s.trail)
    (h : Trail.AcksReadBack c s.trail.entries → InOrder c s)
    (hr : Machine.run (step c) s ops = some t) :
    Trail.Chained c t.trail ∧ (Trail.AcksReadBack c t.trail.entries →
      Trail.AcksReadBack c s.trail.entries ∧ InOrder c t ∧ ∀ severity,
        Trail.lastAck s.trail.entries severity ≤ Trail.lastAck t.trail.entries severity) := by
  refine Machine.run_invariant_of_meets (I := fun u => Trail.Chained c u.trail ∧
    (Trail.AcksReadBack c u.trail.entries → Trail.AcksReadBack c s.trail.entries ∧ InOrder c u ∧
      ∀ severity, Trail.lastAck s.trail.entries severity ≤
        Trail.lastAck u.trail.entries severity)) ?_ ⟨hchained, fun hread => ?_⟩
    (Machine.meets_and_of_forall_mem (step c) hops hsafe) hr
  · rintro u op v ⟨hchained, h⟩ ⟨⟨hop, hkeep⟩, hsafe⟩ hs
    obtain ⟨hchained', hsub⟩ := chained_step hchained hs
    refine ⟨hchained', fun hread => ?_⟩
    obtain ⟨hreads, hu, hle⟩ := h (hread.mono hsub)
    obtain ⟨hv, hle'⟩ := inOrder_step (hread.mono hsub) hu hop hkeep hsafe hs
    exact ⟨hreads, hv, fun severity => (hle severity).trans (hle' severity)⟩
  · exact ⟨hread, h hread, fun _ => le_rfl⟩

/-- **Alarms** after every run. The marks and counts are right exactly if the newest acknowledgement
of each severity still in the trail is among the 100 that the store reads. And in a run without
retention in which no request is overtaken, no mark goes back. -/
theorem alarms_of_run {ops : List Op} (hops : ∀ op ∈ ops, OfGateway op)
    (hr : Machine.run (step c) init ops = some t) (hread : Trail.AcksReadBack c t.trail.entries) :
    (alarms c t.trail.db = t.trail.openAlarms ↔ t.trail.Recent) ∧
      ∀ (pre post : List Op) (s : AlarmRun), ops = pre ++ post →
        Machine.run (step c) init pre = some s → (∀ op ∈ ops, NoPruning op) →
        Machine.Meets (step c) Orderly init ops →
        ∀ severity, s.mark c severity ≤ t.mark c severity := by
  constructor
  · obtain ⟨hchained, hinv⟩ := inv_of_run hops hr
    exact Trail.AcksRead.alarms_eq_iff ⟨hread, (hinv hread).pos⟩ hchained
  · rintro pre post s rfl hpre hkeep hsafe severity
    obtain ⟨hsafePre, hsafePost⟩ := (Machine.meets_append (step c)).1 hsafe
    have hboth : ∀ op ∈ pre ++ post, OfGateway op ∧ NoPruning op :=
      fun op hop => ⟨hops op hop, hkeep op hop⟩
    have hpost : Machine.run (step c) s post = some t := by
      rw [Machine.run_append, hpre] at hr
      exact hr
    obtain ⟨hchained, hs⟩ := inOrder_of_run (fun op hop => hboth op (List.mem_append_left _ hop))
      hsafePre (Trail.chained_init c) (fun _ => inOrder_init c) hpre
    obtain ⟨-, ht⟩ := inOrder_of_run (fun op hop => hboth op (List.mem_append_right _ hop))
      (hsafePost s hpre) hchained (fun hread => (hs hread).2.1) hpost
    obtain ⟨hreads, hin, hle⟩ := ht hread
    rw [((hs hreads).2.1).mark_eq hreads, hin.mark_eq hread]
    exact hle severity

/-! ## Two requests -/

/-- The JSON text of an entry without client that records a jump of the clock or an
acknowledgement. -/
def ackText (e : AuditEntry) : String :=
  let event :=
    match e.event with
    | .clockJumped seconds => "\"clock_jumped\",\"seconds\":" ++ toString seconds
    | .alarmsAcknowledged by_ severity upToSeq count =>
      "\"alarms_acknowledged\",\"by\":\"" ++ by_ ++ "\",\"severity\":\"" ++
        (match severity with
          | .warning => "warning"
          | .error => "error") ++
        "\",\"up_to_seq\":" ++ toString upToSeq ++ ",\"count\":" ++ toString count
    | _ => ""
  "\x7b\"ts\":\"" ++ rfc3339Auto e.ts ++ "\",\"event\":\x7b\"type\":" ++ event ++ "\x7d\x7d"

/-- A warning. -/
def clockEntry : AuditEntry := AuditEntry.new stoppedEntry.ts (.clockJumped 3600)

/-- Acknowledgements of warnings by two operators. -/
def ackEntries : List AuditEntry :=
  [AuditEntry.new nextMidnight (.alarmsAcknowledged "anna" .warning 1 1),
    AuditEntry.new nextMidnight (.alarmsAcknowledged "ben" .warning 2 2)]

/-- The functions of the other crates with these entries read back. -/
def ackCrates : Crates where
  sha256 := Sha256.digest
  toJson := ackText
  fromJson text :=
    match (clockEntry :: ackEntries).find? fun e => ackText e = text with
    | some e => .ok e
    | none => .error "unknown record"
  rfc3339 := rfc3339Micros

/-- The first operator is about to acknowledge record 1. -/
def firstRequest : List Op :=
  [.trail (.openStore true ⟨0⟩), .trail (.append true [clockEntry]), .call (.web "anna" .warning),
    .run 0 (.marks true), .run 0 (.count true), .run 0 (.head true)]

/-- The acknowledgement is committed. -/
def firstCommit : List Op := [.run 0 (.committed true nextMidnight [] [])]

/-- The second operator acknowledges records 1 and 2. -/
def secondRequest : List Op :=
  [.trail (.append true [clockEntry]), .call (.web "ben" .warning), .run 1 (.marks true),
    .run 1 (.count true), .run 1 (.head true), .run 1 (.committed true nextMidnight [] [])]

/-- The marks and counts after the request of the first operator alone. -/
theorem alarms_of_run_firstCommit : ∃ t,
    Machine.run (step ackCrates) init (firstRequest ++ firstCommit) = some t ∧
      (alarms ackCrates t.trail.db = t.trail.openAlarms ↔ t.trail.Recent) ∧
      ∀ s, Machine.run (step ackCrates) init firstRequest = some s →
        s.mark ackCrates .warning ≤ t.mark ackCrates .warning := by
  have hentries : (Machine.run (step ackCrates) init (firstRequest ++ firstCommit)).map
      (fun t => t.trail.entries) = some (clockEntry :: ackEntries.take 1) := rfl
  obtain ⟨t, ht, hentries⟩ := Option.map_eq_some_iff.1 hentries
  have hread : Trail.AcksReadBack ackCrates t.trail.entries := by
    rw [hentries]
    intro e he severity upToSeq hack
    refine ⟨e, ?_, fun _ => rfl⟩
    simp only [ackEntries, List.take, List.mem_cons, List.not_mem_nil, or_false] at he
    obtain rfl | rfl := he
    · cases hack
    · have hne : ackText clockEntry ≠ ackText
          (AuditEntry.new nextMidnight (.alarmsAcknowledged "anna" .warning 1 1)) := by
        decide +kernel
      simp [ackCrates, ackEntries, hne]
  have hops : ∀ op ∈ firstRequest ++ firstCommit, OfGateway op ∧ NoPruning op := by
    simp [firstRequest, firstCommit, OfGateway, NoPruning, NoAck, clockEntry,
      AuditEntry.new, AuditEvent.kind, Trail.Op.Intact]
  have hsafe : Machine.Meets (step ackCrates) Orderly init (firstRequest ++ firstCommit) := by
    rw [Machine.meets_append]
    constructor
    · exact Machine.meets_of_forall_mem _ (by simp [firstRequest, Orderly]) _
    · intro s hs
      refine ⟨?_, fun _ _ => trivial⟩
      have hnone : (Machine.run (step ackCrates) init firstRequest).map
          (fun s => (s.trail.entries.length, s.calls.map (·.seen), s.trail.db.audit.rows.all
            fun row => Severity.all.all fun severity => (s.trail.ackOf severity row).isNone)) =
          some (1, [1], true) := by decide +kernel
      rw [hs, Option.map_some, Option.some.injEq, Prod.mk.injEq, Prod.mk.injEq] at hnone
      obtain ⟨hlength, hseen, hnone⟩ := hnone
      intro call hcall upTo count _
      have hmem : call.seen ∈ s.calls.map (·.seen) :=
        List.mem_map_of_mem (List.mem_of_getElem? hcall)
      rw [hseen, List.mem_singleton] at hmem
      rw [hmem, ← hlength, List.drop_length]
      refine ⟨by simp, fun severity _ => ?_⟩
      rintro ⟨row, hrow, hack⟩
      rw [List.all_eq_true] at hnone
      have hall := List.all_eq_true.1 (hnone row hrow) severity (by cases severity <;> decide)
      rw [Option.isNone_iff_eq_none] at hall
      rw [hall] at hack
      cases hack
  obtain ⟨hcounts, hmarks⟩ := alarms_of_run (fun op hop => (hops op hop).1) ht hread
  exact ⟨t, ht, hcounts, fun s hs =>
    hmarks firstRequest firstCommit s rfl hs (fun op hop => (hops op hop).2) hsafe .warning⟩

/-- **A mark goes back**: the second request overtakes the first one, which then records the lower
number behind the higher one. -/
theorem mark_goes_back : ∃ s t,
    Machine.run (step ackCrates) init (firstRequest ++ secondRequest) = some s ∧
      Machine.run (step ackCrates) init (firstRequest ++ secondRequest ++ firstCommit) = some t ∧
      (∀ op ∈ firstRequest ++ secondRequest ++ firstCommit, OfGateway op ∧ NoPruning op) ∧
      t.mark ackCrates .warning < s.mark ackCrates .warning := by
  have hs : (Machine.run (step ackCrates) init (firstRequest ++ secondRequest)).map
      (fun s => s.mark ackCrates .warning) = some 2 := by decide +kernel
  have ht : (Machine.run (step ackCrates) init (firstRequest ++ secondRequest ++ firstCommit)).map
      (fun s => s.mark ackCrates .warning) = some 1 := by decide +kernel
  obtain ⟨s, hs, hmark⟩ := Option.map_eq_some_iff.1 hs
  obtain ⟨t, ht, hmark'⟩ := Option.map_eq_some_iff.1 ht
  refine ⟨s, t, hs, ht, ?_, by omega⟩
  simp [firstRequest, secondRequest, firstCommit, OfGateway, NoPruning, NoAck, clockEntry,
    AuditEntry.new, AuditEvent.kind, Trail.Op.Intact]

end AlarmRun

end AuditGateway
