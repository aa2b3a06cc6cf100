import AuditGateway.Audit.Trail
import AuditGateway.Export.QuestDb

set_option relaxedAutoImplicit false
set_option autoImplicit false

/-!
# The exporters

An exporter is a task that reads the trail behind its position in batches, sends each batch to its
destination and moves the position behind it. The positions of all destinations are kept in memory
and in a file. Settings that change stop the tasks and start others; a task that is stopped while
it runs comes as far as its next wait.

A wait of a task is one stage of it, and each operation takes one task from a stage to the next.
So a run of these operations, of those of the trail, of changes of the settings and of stops of
the gateway is one interleaving of all of them.

## Main definitions

* `Position`, `ExportState` — positions, in memory and in the file.
* `gap` — what is missing between a position and the next batch.
* `ExportTask` — an exporter and how far its attempt is.
* `ExportRun`, `ExportRun.Op`, `ExportRun.step` — the gateway as far as it exports.
* `ExportRun.Turn` — everything a task can do in one operation.

## Main results

* `ExportRun.turn` — every operation of a task is one of its turns.
-/

namespace AuditGateway

/-! ## Positions -/

/-- The last record a destination received. -/
structure Position where
  seq : ℤ
  hash : String
  deriving DecidableEq

/-- The position of an exporter that has sent nothing. -/
instance : Inhabited Position := ⟨⟨0, ""⟩⟩

/-- A position as it is stored: older files hold only the number. -/
inductive StoredPosition
  | seq (seq : ℤ)
  | position (position : Position)

/-- What the file says of a position, in either form. -/
def StoredPosition.toPosition : StoredPosition → Position
  | .seq n => ⟨n, ""⟩
  | .position p => p

/-- Positions by name. -/
abbrev Positions := String → Option Position

/-- The file the positions are kept in. -/
inductive StateFile
  | absent
  /-- Cut by a power loss, for example. -/
  | unreadable
  | stored (positions : String → Option StoredPosition)

/-- The positions in the file. -/
def StateFile.positions : StateFile → Positions
  | .stored f => fun name => (f name).map (·.toPosition)
  | _ => fun _ => none

namespace ExportState

/-- Reads the positions. An unreadable file is set aside: exporting starts over. `reads` says
whether the file can be read at all, and `renames` whether the unreadable one can be renamed. -/
def openFile (reads renames : Bool) (file : StateFile) : Option (Positions × StateFile) :=
  match file, reads with
  | .absent, _ => some (file.positions, .absent)
  | _, false => none
  | .unreadable, true => some (file.positions, if renames then .absent else .unreadable)
  | .stored _, true => some (file.positions, file)

/-- The position of a destination, stored under `key`. State files from before keep one position
for each `kind`; that one is taken over by the destination. -/
def positionFor (kind key : String) (positions : Positions) : Position × Positions :=
  match positions key with
  | some p => (p, positions)
  | none =>
    match positions kind with
    | some p => (p, Function.update (Function.update positions kind none) key (some p))
    | none => (default, positions)

/-- Without a position of the kind there is nothing to take over. -/
theorem positionFor_eq {kind key : String} {positions : Positions} (h : positions kind = none) :
    positionFor kind key positions = ((positions key).getD default, positions) := by
  unfold positionFor
  cases positions key with
  | some p => rfl
  | none => simp only [h, Option.getD_none]

/-- The positions in memory after a position was set, and the file if it was written. -/
def set (written : Bool) (name : String) (position : Position) (positions : Positions)
    (file : StateFile) : Positions × StateFile :=
  let positions := Function.update positions name (some position)
  (positions,
    if written then .stored fun name => (positions name).map .position else file)

end ExportState

/-! ## One exporter -/

/-- Checks that `records` continue exactly after `position`. Returns why not. -/
def gap (position : Position) (records : List StoredRecord) (head : ℤ) : Option (ℤ × String) :=
  if head < position.seq then
    some (head, "the audit trail ends at record " ++ toString head ++
      ", before the last exported record " ++ toString position.seq ++
      ": it was cut off or replaced")
  else
    match records.head? with
    | none => none
    | some first =>
      if position.seq = 0 then none
      else if first.seq ≠ position.seq + 1 then
        some (first.seq, "records " ++ toString (position.seq + 1) ++ " to " ++
          toString (first.seq - 1) ++ " were removed before they were exported")
      else if position.hash ≠ "" ∧ first.prevHash ≠ position.hash then
        some (first.seq, "record " ++ toString first.seq ++
          " does not follow the exported record " ++ toString position.seq ++
          ": the trail was rewritten or replaced")
      else none

/-- How far an exporter is. -/
inductive Stage
  /-- Not started yet. -/
  | spawned
  /-- Between two attempts, or waiting for the number of the newest record. -/
  | waiting (position : Position)
  /-- Waiting for the records after its position. -/
  | reading (position : Position) (head : ℤ)
  /-- Waiting until the record of a gap is committed. -/
  | reporting (position : Position) (head : ℤ) (records : List StoredRecord) (entry : AuditEntry)
  /-- The trail is a new one: waiting for the records from its start. -/
  | restarting
  /-- Waiting for the destination. -/
  | sending (position : Position) (records : List StoredRecord)
  /-- The destination has accepted the batch. Its position is set before the next wait. -/
  | saving (position : Position) (records : List StoredRecord)

namespace Stage

/-- The position of the next attempt, if this one fails. -/
def position : Stage → Position
  | .spawned | .restarting => default
  | .waiting p | .reading p _ | .reporting p .. | .sending p _ | .saving p _ => p

/-- Whether the task waits for the trail. -/
def isReading : Stage → Bool
  | .waiting _ | .reading .. | .restarting => true
  | _ => false

/-- The attempt behind the check for a gap. -/
def afterCheck (position : Position) (records : List StoredRecord) : Stage :=
  if records.isEmpty then .waiting position else .sending position records

/-- The attempt once it has read its records. -/
def afterRead (sink : QuestDbSink) (now : DateTime) (position : Position) (head : ℤ)
    (records : List StoredRecord) : Stage :=
  match gap position records head with
  | some (nextSeq, reason) =>
    .reporting position head records
      (AuditEntry.new now (.exportGap sink.name position.seq nextSeq reason))
  | none => afterCheck position records

/-- The attempt behind the report of a gap, whatever became of the report. -/
def afterReport (position : Position) (head : ℤ) (records : List StoredRecord) : Stage :=
  if head < position.seq then .restarting else afterCheck position records

end Stage

/-- An exporter task. -/
structure ExportTask where
  sink : QuestDbSink
  stage : Stage := .spawned
  /-- It was stopped while it runs, and ends at its next wait. -/
  aborted : Bool := false

/-- Stops a task: one that waits is dropped. -/
def ExportTask.abort (task : ExportTask) : Option ExportTask :=
  match task.stage with
  | .saving .. => some { task with aborted := true }
  | _ => none

/-! ## The gateway as far as it exports -/

/-- A batch a destination has accepted, and the position it was read behind. -/
structure Delivery where
  sink : QuestDbSink
  after : ℤ
  records : List StoredRecord

/-- A batch as it was read, and the rows the trail held then. -/
structure BatchRead where
  sink : QuestDbSink
  after : ℤ
  records : List StoredRecord
  rows : List Row

/-- The export settings. -/
structure ExportConfig where
  questdb : Option QuestDbConfig := none

/-- The trail, the file of positions and the exporters. -/
structure ExportRun where
  trail : Trail
  file : StateFile
  /-- The positions in memory, once they were read from the file. -/
  state : Option Positions
  tasks : List ExportTask
  /-- Every batch ever accepted. -/
  deliveries : List Delivery
  /-- Every batch ever read. -/
  reads : List BatchRead

/-- The destinations of a configuration. -/
def sinks (http : HttpCrates) (config : ExportConfig) : Except String (List QuestDbSink) :=
  match config.questdb with
  | none => .ok []
  | some q => (QuestDbSink.new http q).map fun sink => [sink]

namespace ExportRun

/-- What a task waits for, and what becomes of it. -/
inductive Event
  /-- The task runs for the first time. -/
  | start
  /-- The number of the newest record was read. -/
  | headSeq (reads : Bool)
  /-- The records after its position were read. -/
  | after (reads : Bool) (now : DateTime)
  /-- The transaction with the record of a gap ended, or that of the entries of others before
  and after it. -/
  | reported (commits : Bool) (before after : List AuditEntry)
  /-- The first records of a new trail were read. -/
  | afterStart (reads : Bool)
  /-- The destination answered. -/
  | sent (post : ℕ → Body → PostResult)
  /-- The position was set: whether the file was written, and whether that was found to be
  complete. -/
  | saved (written ok : Bool)

/-- What can happen. -/
inductive Op
  /-- Something happens to the trail. -/
  | trail (op : Trail.Op)
  /-- The export settings are applied, at the start or after a change. `reads` and `renames` are
  about the state file. -/
  | apply (config : ExportConfig) (reads renames : Bool)
  /-- Task number `i` goes on. -/
  | run (i : ℕ) (event : Event)
  /-- The state file is lost, or cut by a power loss. -/
  | damage (unreadable : Bool)
  /-- The gateway stops, or is killed. -/
  | stop

/-- A new gateway. -/
def init : ExportRun := ⟨Trail.init, .absent, none, [], [], []⟩

/-- Stops the tasks and starts those of `config`. -/
def apply (http : HttpCrates) (config : ExportConfig) (reads renames : Bool) (s : ExportRun) :
    ExportRun :=
  match sinks http config with
  | .error _ => s
  | .ok sinks =>
    let s := { s with tasks := s.tasks.filterMap ExportTask.abort }
    if sinks.isEmpty then s
    else
      let opened :=
        match s.state with
        | some positions => some (positions, s.file)
        | none => ExportState.openFile reads renames s.file
      match opened with
      | none => s
      | some (positions, file) =>
        { s with
          file := file
          state := some (sinks.foldl
            (fun positions sink =>
              (ExportState.positionFor sink.name sink.key positions).2) positions)
          tasks := s.tasks ++ sinks.map fun sink => { sink := sink } }

/-- Task number `i` has come to a stage. -/
def put (s : ExportRun) (i : ℕ) (task : ExportTask) (stage : Stage) : ExportRun :=
  { s with tasks := s.tasks.set i { task with stage := stage } }

/-- Task number `i` has ended. -/
def drop (s : ExportRun) (i : ℕ) : ExportRun := { s with tasks := s.tasks.eraseIdx i }

/-- The position of a destination is set. -/
def setPosition (s : ExportRun) (written : Bool) (sink : QuestDbSink) (position : Position)
    (positions : Positions) : ExportRun :=
  let (positions, file) := ExportState.set written sink.key position positions s.file
  { s with state := some positions, file := file }

/-- The next batch of a task, `none` if it cannot be read. -/
def fetch (c : Crates) (s : ExportRun) (sink : QuestDbSink) (reads : Bool) (afterSeq : ℤ) :
    Option (List StoredRecord) :=
  if reads then (queryAfter c s.trail.db afterSeq sink.batchSize).toOption else none

/-- A batch was read. -/
def noteRead (s : ExportRun) (sink : QuestDbSink) (afterSeq : ℤ) (records : List StoredRecord) :
    ExportRun :=
  { s with reads := s.reads ++ [⟨sink, afterSeq, records, s.trail.db.audit.rows⟩] }

/-- A batch was accepted. -/
def noteDelivery (s : ExportRun) (sink : QuestDbSink) (afterSeq : ℤ)
    (records : List StoredRecord) : ExportRun :=
  { s with deliveries := s.deliveries ++ [⟨sink, afterSeq, records⟩] }

/-- The record of a gap is written, with entries of others before and after it. -/
def report (c : Crates) (s : ExportRun) (commits : Bool) (before after : List AuditEntry)
    (entry : AuditEntry) : ExportRun :=
  { s with trail := (s.trail.step c (.append commits (before ++ entry :: after))).getD s.trail }

/-- A task goes on from its stage. An attempt that fails leaves the position as it was. -/
def runTask (c : Crates) (s : ExportRun) (i : ℕ) (task : ExportTask) :
    Event → Stage → Option ExportRun
  | .start, .spawned =>
    s.state.map fun positions =>
      let (position, positions) :=
        ExportState.positionFor task.sink.name task.sink.key positions
      { s with state := some positions }.put i task (.waiting position)
  | .headSeq reads, .waiting position =>
    some (s.put i task
      (if reads then .reading position (AuditGateway.headSeq s.trail.db) else .waiting position))
  | .after reads now, .reading position head =>
    match s.fetch c task.sink reads position.seq with
    | none => some (s.put i task (.waiting position))
    | some records =>
      some ((s.noteRead task.sink position.seq records).put i task
        (Stage.afterRead task.sink now position head records))
  | .reported commits before after, .reporting position head records entry =>
    -- whether the record is committed makes no difference to the task
    some ((s.report c commits before after entry).put i task
      (Stage.afterReport position head records))
  | .afterStart reads, .restarting =>
    match s.fetch c task.sink reads 0 with
    | none => some (s.put i task (.waiting default))
    | some records =>
      some ((s.noteRead task.sink 0 records).put i task (Stage.afterCheck default records))
  | .sent post, .sending position records =>
    match QuestDbSink.send post records with
    | .error _ => some (s.put i task (.waiting position))
    | .ok () =>
      some ((s.noteDelivery task.sink position.seq records).put i task (.saving position records))
  | .saved written ok, .saving position records =>
    match s.state, records.getLast? with
    | some positions, some last =>
      let next : Position := ⟨last.seq, last.hash⟩
      let s := s.setPosition written task.sink next positions
      some
        (if task.aborted then s.drop i
        else s.put i task (.waiting (if written ∧ ok then next else position)))
    | _, _ => none
  | _, _ => none

/-- One operation. -/
def step (c : Crates) (http : HttpCrates) (s : ExportRun) : Op → Option ExportRun
  | .trail op => (s.trail.step c op).map fun trail => { s with trail := trail }
  | .apply config reads renames => some (s.apply http config reads renames)
  | .run i event => s.tasks[i]?.bind fun task => s.runTask c i task event task.stage
  | .damage unreadable => some { s with file := if unreadable then .unreadable else .absent }
  | .stop =>
    (s.trail.step c .stop).map fun trail => { s with trail := trail, state := none, tasks := [] }

/-! ## What a task can do -/

/-- Everything a task can do in one operation. -/
inductive Turn (c : Crates) (s : ExportRun) (i : ℕ) (task : ExportTask) :
    Event → Stage → ExportRun → Prop
  | started (positions : Positions) (hs : s.state = some positions) (q : Position × Positions)
      (hq : q = ExportState.positionFor task.sink.name task.sink.key positions) :
    Turn c s i task .start .spawned ({ s with state := some q.2 }.put i task (.waiting q.1))
  /-- The trail could not be read: the next attempt begins at the same position. -/
  | failed (event : Event) (stage : Stage) (h : stage.isReading = true) :
    Turn c s i task event stage (s.put i task (.waiting stage.position))
  | headRead (position : Position) :
    Turn c s i task (.headSeq true) (.waiting position)
      (s.put i task (.reading position (AuditGateway.headSeq s.trail.db)))
  | read (now : DateTime) (position : Position) (head : ℤ) (records : List StoredRecord)
      (h : queryAfter c s.trail.db position.seq task.sink.batchSize = .ok records) :
    Turn c s i task (.after true now) (.reading position head)
      ((s.noteRead task.sink position.seq records).put i task
        (Stage.afterRead task.sink now position head records))
  | reported (commits : Bool) (before after : List AuditEntry) (position : Position) (head : ℤ)
      (records : List StoredRecord) (entry : AuditEntry) :
    Turn c s i task (.reported commits before after) (.reporting position head records entry)
      ((s.report c commits before after entry).put i task
        (Stage.afterReport position head records))
  | restarted (records : List StoredRecord)
      (h : queryAfter c s.trail.db 0 task.sink.batchSize = .ok records) :
    Turn c s i task (.afterStart true) .restarting
      ((s.noteRead task.sink 0 records).put i task (Stage.afterCheck default records))
  /-- The destination did not accept the batch. -/
  | refused (post : ℕ → Body → PostResult) (position : Position) (records : List StoredRecord)
      (e : String) (h : QuestDbSink.send post records = .error e) :
    Turn c s i task (.sent post) (.sending position records) (s.put i task (.waiting position))
  | sent (post : ℕ → Body → PostResult) (position : Position) (records : List StoredRecord)
      (h : QuestDbSink.send post records = .ok ()) :
    Turn c s i task (.sent post) (.sending position records)
      ((s.noteDelivery task.sink position.seq records).put i task (.saving position records))
  | saved (written ok : Bool) (position : Position) (records : List StoredRecord)
      (positions : Positions) (last : StoredRecord) (hs : s.state = some positions)
      (hlast : records.getLast? = some last) (h : task.aborted = false) :
    Turn c s i task (.saved written ok) (.saving position records)
      ((s.setPosition written task.sink ⟨last.seq, last.hash⟩ positions).put i task
        (.waiting (if written ∧ ok then ⟨last.seq, last.hash⟩ else position)))
  /-- A task that was stopped has set its position and is gone. -/
  | dropped (written ok : Bool) (position : Position) (records : List StoredRecord)
      (positions : Positions) (last : StoredRecord) (hs : s.state = some positions)
      (hlast : records.getLast? = some last) (h : task.aborted = true) :
    Turn c s i task (.saved written ok) (.saving position records)
      ((s.setPosition written task.sink ⟨last.seq, last.hash⟩ positions).drop i)

variable {c : Crates}

/-- What an exporter reads behind its position. -/
theorem fetch_eq_some {s : ExportRun} {sink : QuestDbSink} {reads : Bool} {afterSeq : ℤ}
    {records : List StoredRecord} :
    s.fetch c sink reads afterSeq = some records ↔
      reads = true ∧ queryAfter c s.trail.db afterSeq sink.batchSize = .ok records := by
  unfold fetch
  cases reads with
  | false => simp
  | true =>
    cases queryAfter c s.trail.db afterSeq sink.batchSize with
    | error e => simp [Except.toOption]
    | ok found => simp [Except.toOption]

/-- **What a task can do**: every operation of a task is one of its turns. -/
theorem turn {s t : ExportRun} {i : ℕ} {task : ExportTask} {event : Event} {stage : Stage}
    (h : s.runTask c i task event stage = some t) : Turn c s i task event stage t := by
  unfold runTask at h
  split at h
  · obtain ⟨positions, hs, rfl⟩ := Option.map_eq_some_iff.1 h
    exact .started positions hs _ rfl
  · next reads position =>
    cases h
    cases reads with
    | true => exact .headRead position
    | false => exact .failed _ (.waiting position) rfl
  · next reads now position head =>
    split at h
    · cases h
      exact .failed _ (.reading position head) rfl
    · next records hfetch =>
      cases h
      obtain ⟨rfl, hread⟩ := fetch_eq_some.1 hfetch
      exact .read now position head records hread
  · next commits before after position head records entry =>
    cases h
    exact .reported commits before after position head records entry
  · next reads =>
    split at h
    · cases h
      exact .failed _ .restarting rfl
    · next records hfetch =>
      cases h
      obtain ⟨rfl, hread⟩ := fetch_eq_some.1 hfetch
      exact .restarted records hread
  · next post position records =>
    split at h
    · next e hsend =>
      cases h
      exact .refused post position records e hsend
    · next hsend =>
      cases h
      exact .sent post position records hsend
  · next written ok position records =>
    split at h
    · next positions last hs hlast =>
      cases h
      by_cases hab : task.aborted = true
      · rw [if_pos hab]
        exact .dropped written ok position records positions last hs hlast hab
      · rw [if_neg hab]
        exact .saved written ok position records positions last hs hlast (by simpa using hab)
    · cases h
  · cases h

end ExportRun

end AuditGateway
