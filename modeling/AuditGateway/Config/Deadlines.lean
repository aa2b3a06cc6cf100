import AuditGateway.Config.Gateway
import AuditGateway.Lib.Machine
import Mathlib.Tactic.Linarith

set_option relaxedAutoImplicit false
set_option autoImplicit false

/-!
# Times computed from the configuration

Retention subtracts days from the wall clock, every target adds two intervals to the monotonic
clock, and an exporter multiplies its interval by the number of its failures in a row. Each of these
operations panics if its result does not fit its type, and with it ends the task that does it.
Which results fit depends on the configuration and, for the first two, on how early and how late
the clocks can read.

## Main definitions

* `DateTime.minusDays`, `Instant.after`, `Duration.times` — the operations, as far as they fit.
* `Timers`, `Timers.step` — the tasks that compute times, and the operations that panicked.
* `Clocks` — how early and how late the clocks read.
* `Config.Fits` — the configurations whose times fit.

## Main results

* `Timers.inv_step` — with such configurations no operation panics.
* `Timers.no_overflow_iff` — they are all configurations of which this is true.
-/

namespace AuditGateway

/-! ## Operations that panic -/

namespace DateTime

/-- The earliest date: 1 January of the year -262143. -/
def minUtc : DateTime := ⟨-8334601228800 * 10 ^ 9⟩

/-- A date minus a number of days. -/
def minusDays (t : DateTime) (days : ℕ) : Option DateTime :=
  let nanos := t.nanos - days * 86400 * 10 ^ 9
  if minUtc.nanos ≤ nanos then some ⟨nanos⟩ else none

/-- Days are subtracted unless that leads before the first date. -/
theorem minusDays_eq_none {t : DateTime} {days : ℕ} :
    t.minusDays days = none ↔ t.nanos - days * 86400 * 10 ^ 9 < minUtc.nanos := by
  simp [minusDays]

end DateTime

/-- A reading of the monotonic clock, in nanoseconds. -/
structure Instant where
  nanos : ℕ
  deriving DecidableEq

namespace Instant

/-- The whole seconds of an instant. -/
def secs (t : Instant) : ℕ := t.nanos / 10 ^ 9

/-- The seconds of a reading are an `i64`. -/
def maxSecs : ℕ := 2 ^ 63 - 1

/-- A reading some seconds later. -/
def after (t : Instant) (secs : ℕ) : Option Instant :=
  if t.secs + secs ≤ maxSecs then some ⟨t.nanos + secs * 10 ^ 9⟩ else none

/-- Seconds are added unless that leads behind the last instant. -/
theorem after_eq_none {t : Instant} {secs : ℕ} :
    t.after secs = none ↔ maxSecs < t.secs + secs := by
  simp [after]

/-- So they are added as long as there are that many. -/
theorem after_isSome {t : Instant} {secs : ℕ} :
    (t.after secs).isSome ↔ t.secs + secs ≤ maxSecs := by
  simp [after, Option.isSome_ite]

/-- The seconds since an earlier reading. -/
def since (t earlier : Instant) : ℕ := t.nanos - earlier.nanos

/-- A reading at a full second. -/
def ofSecs (secs : ℕ) : Instant := ⟨secs * 10 ^ 9⟩

/-- An instant made of seconds has them. -/
@[simp] theorem secs_ofSecs (secs : ℕ) : (ofSecs secs).secs = secs := by
  simp [ofSecs, Instant.secs]

end Instant

/-- A whole number of seconds times a count; the seconds of a duration are a `u64`. -/
def Duration.times (secs count : ℕ) : Option ℕ :=
  if secs * count < 2 ^ 64 then some (secs * count) else none

/-- A product of seconds overflows at 64 bits. -/
theorem Duration.times_eq_none {secs count : ℕ} :
    Duration.times secs count = none ↔ 2 ^ 64 ≤ secs * count := by
  simp [Duration.times]

/-! ## The tasks -/

/-- The accept loop of a target. -/
structure ServeLoop where
  target : TargetConfig
  nextTrustCheck : Instant
  lastSummary : Instant

/-- What an accept loop goes on with. -/
inductive ServeEvent
  | trustCheck
  | trustChanged
  | summary
  /-- A client, or the report of refused ones. -/
  | other

/-- An exporter: its interval, its failures in a row and how long it waits. -/
structure Exporting where
  interval : ℕ
  failures : ℕ := 0
  delay : ℕ := 0

/-- What is computed. -/
inductive Computed
  | cutoff
  | trustCheck
  | summary
  | backOff
  deriving DecidableEq

/-- The tasks that compute times. -/
structure Timers where
  config : Config
  /-- The last round of retention, while the task lives. -/
  retention : Option (Option (Instant × DateTime)) := some none
  serving : List ServeLoop := []
  exporting : Option Exporting := none
  /-- The operations that panicked. -/
  overflows : List Computed := []

namespace Timers

/-- What the tasks that compute deadlines do. -/
inductive Op
  /-- Settings or targets change. -/
  | configure (config : Config)
  /-- A round of retention. -/
  | retention (mono : Instant) (wall : DateTime)
  /-- The accept loop of a target starts. -/
  | serve (target : TargetConfig) (now : Instant)
  /-- An accept loop goes on. -/
  | turn (i : ℕ) (event : ServeEvent) (now : Instant)
  /-- An accept loop ends. -/
  | stop (i : ℕ)
  /-- The exporter starts, with the settings there are. -/
  | startExport
  /-- An attempt to export; `full` if the batch was. -/
  | attempt (ok full : Bool)

/-- The wall clock moved differently from the time that really passed. -/
def jumped (last : Option (Instant × DateTime)) (mono : Instant) (wall : DateTime) : Bool :=
  match last with
  | none => false
  | some (mono', wall') =>
    let passed := mono.since mono'
    let real := if passed / 10 ^ 6 < 2 ^ 63 then passed else 0
    300 < ((wall.nanos - wall'.nanos - real).tdiv (10 ^ 9)).natAbs

/-- Retention runs when it is due, and computes how far back it goes. -/
def retentionRound (s : Timers) (last : Option (Instant × DateTime)) (mono : Instant)
    (wall : DateTime) : Timers :=
  let s := { s with retention := some (some (mono, wall)) }
  let days := s.config.audit.retentionDays
  if jumped last mono wall then s
  else if days = 0 then s
  else
    match wall.minusDays days with
    | some _ => s
    | none => { s with retention := none, overflows := .cutoff :: s.overflows }

/-- An operation of accept loop number `i` panicked. -/
def loopPanics (s : Timers) (i : ℕ) (computed : Computed) : Timers :=
  { s with serving := s.serving.eraseIdx i, overflows := computed :: s.overflows }

/-- How often the writes to summarised nodes are recorded. -/
def ignoredSummary (s : Timers) : ℕ := max s.config.audit.ignoredSummarySecs 1

/-- An accept loop looks at one of its deadlines. -/
def turnLoop (s : Timers) (i : ℕ) (loop : ServeLoop) (now : Instant) : ServeEvent → Option Timers :=
  fun event =>
  -- both deadlines are computed before anything is waited for
  match loop.lastSummary.after s.ignoredSummary with
  | none => some (s.loopPanics i .summary)
  | some deadline =>
    match event with
    | .trustCheck =>
      if loop.nextTrustCheck.nanos ≤ now.nanos then
        match now.after (max loop.target.discoveryIntervalSecs 10) with
        | none => some (s.loopPanics i .trustCheck)
        | some next =>
          some { s with serving := s.serving.set i { loop with nextTrustCheck := next } }
      else none
    | .trustChanged =>
      some { s with serving := s.serving.set i { loop with nextTrustCheck := now } }
    | .summary =>
      if deadline.nanos ≤ now.nanos then
        some { s with serving := s.serving.set i { loop with lastSummary := now } }
      else none
    | .other => some s

section Turn

variable {s : Timers} {i : ℕ} {loop : ServeLoop} (now : Instant) {deadline : Instant}

/-- A summary interval that is too long stops the loop. -/
theorem turnLoop_of_no_summary (event : ServeEvent)
    (h : loop.lastSummary.after s.ignoredSummary = none) :
    s.turnLoop i loop now event = some (s.loopPanics i .summary) := by
  unfold turnLoop
  rw [h]

/-- A change of trust makes the next check due. -/
theorem turnLoop_trustChanged (h : loop.lastSummary.after s.ignoredSummary = some deadline) :
    s.turnLoop i loop now .trustChanged =
      some { s with serving := s.serving.set i { loop with nextTrustCheck := now } } := by
  unfold turnLoop
  rw [h]

/-- A discovery interval that is too long stops the loop. -/
theorem turnLoop_of_no_trustCheck (h : loop.lastSummary.after s.ignoredSummary = some deadline)
    (hdue : loop.nextTrustCheck.nanos ≤ now.nanos)
    (hnone : now.after (max loop.target.discoveryIntervalSecs 10) = none) :
    s.turnLoop i loop now .trustCheck = some (s.loopPanics i .trustCheck) := by
  unfold turnLoop
  rw [h]
  dsimp only
  rw [if_pos hdue, hnone]

end Turn

/-- The failures in a row are a `u32` that stays at its largest value. -/
def maxFailures : ℕ := 2 ^ 32 - 1

/-- An exporter has made an attempt, and computes when the next one is due. -/
def attempted (s : Timers) (e : Exporting) (ok full : Bool) : Timers :=
  if ok then
    { s with exporting := some { e with failures := 0, delay := if full then 0 else e.interval } }
  else
    let failures := min (e.failures + 1) maxFailures
    match Duration.times e.interval failures with
    | some delay => { s with exporting := some { e with failures, delay := min delay 60 } }
    | none => { s with exporting := none, overflows := .backOff :: s.overflows }

/-- One step of a task. -/
def step (x : ConfigCrates) (s : Timers) : Op → Option Timers
  | .configure config =>
    if config.validate x = .ok () ∧ ∀ loop ∈ s.serving, loop.target ∈ config.targets then
      some { s with config }
    else none
  | .retention mono wall => s.retention.map fun last => s.retentionRound last mono wall
  | .serve target now =>
    if target ∈ s.config.targets then
      match now.after 2 with
      | none => some { s with overflows := .trustCheck :: s.overflows }
      | some next => some { s with serving := s.serving ++ [⟨target, next, now⟩] }
    else none
  | .turn i event now => (s.serving[i]?).bind fun loop => s.turnLoop i loop now event
  | .stop i => some { s with serving := s.serving.eraseIdx i }
  | .startExport =>
    s.config.exports.questdb.map fun q => { s with exporting := some ⟨max q.intervalSecs 1, 0, 0⟩ }
  | .attempt ok full => s.exporting.map fun e => s.attempted e ok full

end Timers

/-! ## Which times fit -/

/-- How early the wall clock reads, and how late the monotonic clock, in seconds. -/
structure Clocks where
  earliest : DateTime
  latest : ℕ

/-- Every time computed from the configuration fits its type. -/
structure Config.Fits (clocks : Clocks) (c : Config) : Prop where
  retention : c.audit.retentionDays = 0 ∨
    DateTime.minUtc.nanos ≤ clocks.earliest.nanos - c.audit.retentionDays * 86400 * 10 ^ 9
  summary : c.targets ≠ [] → clocks.latest + max c.audit.ignoredSummarySecs 1 ≤ Instant.maxSecs
  trustCheck : ∀ t ∈ c.targets, clocks.latest + max t.discoveryIntervalSecs 10 ≤ Instant.maxSecs
  backOff : ∀ q ∈ c.exports.questdb, max q.intervalSecs 1 * Timers.maxFailures < 2 ^ 64

namespace Timers

/-- The clocks read within their bounds, and a configuration that is taken over fits. -/
def Op.Within (clocks : Clocks) : Op → Prop
  | .configure config => config.Fits clocks
  | .retention mono wall => mono.secs ≤ clocks.latest ∧ clocks.earliest.nanos ≤ wall.nanos
  | .serve _ now => now.secs ≤ clocks.latest
  | .turn _ _ now => now.secs ≤ clocks.latest
  | _ => True

/-- What keeps the operations from panicking. -/
structure Inv (clocks : Clocks) (s : Timers) : Prop where
  fits : s.config.Fits clocks
  serving : ∀ loop ∈ s.serving, loop.target ∈ s.config.targets ∧
    loop.lastSummary.secs ≤ clocks.latest
  exporting : ∀ e ∈ s.exporting, e.interval * maxFailures < 2 ^ 64
  overflows : s.overflows = []

/-! ## Times that fit -/

section Fit

variable {x : ConfigCrates} {clocks : Clocks} {s t : Timers}

/-- Later readings of the wall clock fit if the earliest does. -/
theorem minusDays_ne_none {wall : DateTime} {days : ℕ} (hwall : clocks.earliest.nanos ≤ wall.nanos)
    (hfits : DateTime.minUtc.nanos ≤ clocks.earliest.nanos - days * 86400 * 10 ^ 9) :
    wall.minusDays days ≠ none := by
  rw [Ne, DateTime.minusDays_eq_none]
  omega

/-- Earlier readings of the monotonic clock fit if the latest does. -/
theorem after_ne_none {now : Instant} {secs : ℕ} (hnow : now.secs ≤ clocks.latest)
    (hfits : clocks.latest + secs ≤ Instant.maxSecs) : now.after secs ≠ none := by
  rw [Ne, Instant.after_eq_none]
  omega

/-- A smaller number of failures fits if the largest does. -/
theorem times_ne_none {interval failures : ℕ} (hle : failures ≤ maxFailures)
    (hfits : interval * maxFailures < 2 ^ 64) : Duration.times interval failures ≠ none := by
  have hmul : interval * failures ≤ interval * maxFailures := Nat.mul_le_mul_left _ hle
  rw [Ne, Duration.times_eq_none]
  omega

/-- A round of retention keeps the deadlines within bounds. -/
theorem Inv.retentionRound (hs : Inv clocks s) {last : Option (Instant × DateTime)}
    {mono : Instant} {wall : DateTime} (hwall : clocks.earliest.nanos ≤ wall.nanos) :
    Inv clocks (s.retentionRound last mono wall) := by
  unfold Timers.retentionRound
  dsimp only
  split_ifs with hjump hdays
  · exact ⟨hs.fits, hs.serving, hs.exporting, hs.overflows⟩
  · exact ⟨hs.fits, hs.serving, hs.exporting, hs.overflows⟩
  · have hfits := hs.fits.retention.resolve_left hdays
    rcases hsub : wall.minusDays s.config.audit.retentionDays with _ | cutoff
    · exact absurd hsub (minusDays_ne_none hwall hfits)
    · exact ⟨hs.fits, hs.serving, hs.exporting, hs.overflows⟩

/-- A loop that has only changed its times. -/
theorem Inv.setLoop (hs : Inv clocks s) {i : ℕ} {loop : ServeLoop}
    (htarget : loop.target ∈ s.config.targets) (hlast : loop.lastSummary.secs ≤ clocks.latest) :
    Inv clocks { s with serving := s.serving.set i loop } := by
  refine ⟨hs.fits, fun l hl => ?_, hs.exporting, hs.overflows⟩
  rcases List.mem_or_eq_of_mem_set hl with hl | rfl
  · exact hs.serving l hl
  · exact ⟨htarget, hlast⟩

/-- A turn of an accept loop does so. -/
theorem Inv.turnLoop (hs : Inv clocks s) {i : ℕ} {loop : ServeLoop} {now : Instant}
    {event : ServeEvent} (hloop : loop ∈ s.serving) (hnow : now.secs ≤ clocks.latest)
    (h : s.turnLoop i loop now event = some t) : Inv clocks t := by
  obtain ⟨htarget, hlast⟩ := hs.serving loop hloop
  have hsummary := hs.fits.summary (List.ne_nil_of_mem htarget)
  unfold Timers.turnLoop at h
  rcases hdeadline : loop.lastSummary.after s.ignoredSummary with _ | deadline
  · exact absurd hdeadline (after_ne_none hlast hsummary)
  rw [hdeadline] at h
  cases event with
  | trustCheck =>
    dsimp only at h
    split_ifs at h
    rcases hnext : now.after (max loop.target.discoveryIntervalSecs 10) with _ | next
    · exact absurd hnext (after_ne_none hnow (hs.fits.trustCheck _ htarget))
    · rw [hnext] at h
      obtain rfl := Option.some.inj h
      exact hs.setLoop htarget hlast
  | trustChanged =>
    obtain rfl := Option.some.inj h
    exact hs.setLoop htarget hlast
  | summary =>
    dsimp only at h
    split_ifs at h
    obtain rfl := Option.some.inj h
    exact hs.setLoop htarget hnow
  | other =>
    obtain rfl := Option.some.inj h
    exact hs

/-- An attempt of an exporter does so. -/
theorem Inv.attempted (hs : Inv clocks s) {e : Exporting} (he : e ∈ s.exporting)
    (ok full : Bool) : Inv clocks (s.attempted e ok full) := by
  have hfits := hs.exporting e he
  unfold Timers.attempted
  cases ok with
  | true =>
    refine ⟨hs.fits, hs.serving, fun e' he' => ?_, hs.overflows⟩
    obtain rfl := Option.some.inj he'
    exact hfits
  | false =>
    dsimp only
    rcases htimes : Duration.times e.interval (min (e.failures + 1) maxFailures) with _ | delay
    · exact absurd htimes (times_ne_none (min_le_right _ _) hfits)
    · refine ⟨hs.fits, hs.serving, fun e' he' => ?_, hs.overflows⟩
      obtain rfl := Option.some.inj he'
      exact hfits

/-- **No operation panics** in a step with times that fit. -/
theorem inv_step {op : Op} (hs : Inv clocks s) (hop : op.Within clocks)
    (h : step x s op = some t) : Inv clocks t := by
  cases op with
  | configure config =>
    simp only [step] at h
    split_ifs at h with hok
    obtain rfl := Option.some.inj h
    exact ⟨hop, fun loop hl => ⟨hok.2 loop hl, (hs.serving loop hl).2⟩, hs.exporting, hs.overflows⟩
  | retention mono wall =>
    simp only [step, Option.map_eq_some_iff] at h
    obtain ⟨last, -, rfl⟩ := h
    exact hs.retentionRound hop.2
  | serve target now =>
    simp only [step] at h
    split_ifs at h with htarget
    have hfits := hs.fits.trustCheck target htarget
    rcases hnext : now.after 2 with _ | next
    · exact absurd hnext (after_ne_none hop (by omega))
    · rw [hnext] at h
      obtain rfl := Option.some.inj h
      refine ⟨hs.fits, fun loop hl => ?_, hs.exporting, hs.overflows⟩
      rcases List.mem_append.1 hl with hl | hl
      · exact hs.serving loop hl
      · obtain rfl := List.mem_singleton.1 hl
        exact ⟨htarget, hop⟩
  | turn i event now =>
    simp only [step, Option.bind_eq_some_iff] at h
    obtain ⟨loop, hi, h⟩ := h
    exact hs.turnLoop (List.mem_of_getElem? hi) hop h
  | stop i =>
    obtain rfl := Option.some.inj h
    exact ⟨hs.fits, fun loop hl => hs.serving loop (List.mem_of_mem_eraseIdx hl), hs.exporting,
      hs.overflows⟩
  | startExport =>
    simp only [step, Option.map_eq_some_iff] at h
    obtain ⟨q, hq, rfl⟩ := h
    refine ⟨hs.fits, hs.serving, fun e he => ?_, hs.overflows⟩
    obtain rfl := Option.some.inj he
    exact hs.fits.backOff q hq
  | attempt ok full =>
    simp only [step, Option.map_eq_some_iff] at h
    obtain ⟨e, he, rfl⟩ := h
    exact hs.attempted he ok full

end Fit

/-! ## Times that do not fit -/

/-- A gateway that starts with a configuration. -/
def start (config : Config) : Timers := { config }

/-- No operation panics in any run with this configuration. -/
def Steady (x : ConfigCrates) (clocks : Clocks) (c : Config) : Prop :=
  ∀ ops s, (∀ op ∈ ops, Op.Within clocks op) → Machine.run (step x) (start c) ops = some s →
    s.overflows = []

/-- A state of such a run. -/
def Reached (x : ConfigCrates) (clocks : Clocks) (c : Config) (s : Timers) : Prop :=
  ∃ ops, (∀ op ∈ ops, Op.Within clocks op) ∧ Machine.run (step x) (start c) ops = some s

section NoFit

variable {x : ConfigCrates} {clocks : Clocks} {c : Config} {s t : Timers}

/-- The start is reached. -/
theorem reached_start : Reached x clocks c (start c) := ⟨[], by simp, rfl⟩

/-- What is one step behind a reached state is reached. -/
theorem Reached.step {op : Op} (hs : Reached x clocks c s) (hop : op.Within clocks)
    (h : step x s op = some t) : Reached x clocks c t := by
  obtain ⟨ops, hops, hrun⟩ := hs
  refine ⟨ops ++ [op], fun o ho => ?_, (Machine.run_concat_eq_some (Timers.step x)).2 ⟨s, hrun, h⟩⟩
  rcases List.mem_append.1 ho with ho | ho
  · exact hops o ho
  · obtain rfl := List.mem_singleton.1 ho
    exact hop

/-- Nothing overflows with a steady configuration. -/
theorem Steady.overflows (h : Steady x clocks c) (hs : Reached x clocks c s) :
    s.overflows = [] := by
  obtain ⟨ops, hops, hrun⟩ := hs
  exact h ops s hops hrun

/-- The first round of retention has no reading to compare with. -/
theorem Steady.retention (h : Steady x clocks c) : c.audit.retentionDays = 0 ∨
    DateTime.minUtc.nanos ≤ clocks.earliest.nanos - c.audit.retentionDays * 86400 * 10 ^ 9 := by
  by_contra hnot
  obtain ⟨hdays, hmin⟩ := not_or.1 hnot
  have hnone : clocks.earliest.minusDays c.audit.retentionDays = none :=
    DateTime.minusDays_eq_none.2 (not_le.1 hmin)
  have hwithin : (Op.retention ⟨0⟩ clocks.earliest).Within clocks := ⟨Nat.zero_le _, le_rfl⟩
  have hround : Reached x clocks c ((start c).retentionRound none ⟨0⟩ clocks.earliest) :=
    reached_start.step hwithin rfl
  have hover := h.overflows hround
  simp [Timers.retentionRound, jumped, start, hdays, hnone] at hover

/-- The gateway with the accept loop of one target. -/
def withLoop (c : Config) (target : TargetConfig) (nextTrustCheck lastSummary : Instant) : Timers :=
  { config := c, serving := [⟨target, nextTrustCheck, lastSummary⟩] }

/-- The monotonic clock reads latest. -/
theorem exists_latest (clocks : Clocks) : ∃ now : Instant, now.secs = clocks.latest :=
  ⟨.ofSecs clocks.latest, Instant.secs_ofSecs _⟩

/-- An accept loop that starts then. -/
theorem Steady.reached_withLoop (h : Steady x clocks c) {target : TargetConfig}
    (ht : target ∈ c.targets) {now : Instant} (hnow : now.secs = clocks.latest) :
    ∃ next, Reached x clocks c (withLoop c target next now) := by
  have hop : Op.Within clocks (.serve target now) := hnow.le
  have ht' : target ∈ (start c).config.targets := ht
  rcases hnext : now.after 2 with _ | next
  · have hserve : Reached x clocks c { start c with overflows := [.trustCheck] } :=
      reached_start.step hop (by simp only [Timers.step, if_pos ht', hnext]; rfl)
    exact nomatch h.overflows hserve
  · exact ⟨next, reached_start.step hop (by simp only [Timers.step, if_pos ht', hnext]; rfl)⟩

/-- Every turn of an accept loop computes when its next summary is. -/
theorem Steady.summary (h : Steady x clocks c) {target : TargetConfig} (ht : target ∈ c.targets) :
    clocks.latest + max c.audit.ignoredSummarySecs 1 ≤ Instant.maxSecs := by
  obtain ⟨now, hnow⟩ := exists_latest clocks
  obtain ⟨next, hloop⟩ := h.reached_withLoop ht hnow
  rw [← hnow, ← Instant.after_isSome, Option.isSome_iff_ne_none]
  intro hnone
  have hop : Op.Within clocks (.turn 0 .other now) := hnow.le
  have hturn : Reached x clocks c ((withLoop c target next now).loopPanics 0 .summary) :=
    hloop.step hop (turnLoop_of_no_summary now .other hnone)
  simpa [loopPanics] using h.overflows hturn

/-- A change of trust makes the next check of it due at once, and after that check the time of the
next one is computed. -/
theorem Steady.trustCheck (h : Steady x clocks c) {target : TargetConfig}
    (ht : target ∈ c.targets) :
    clocks.latest + max target.discoveryIntervalSecs 10 ≤ Instant.maxSecs := by
  obtain ⟨now, hnow⟩ := exists_latest clocks
  obtain ⟨next, hloop⟩ := h.reached_withLoop ht hnow
  have hsome : (now.after (max c.audit.ignoredSummarySecs 1)).isSome :=
    Instant.after_isSome.2 (hnow ▸ h.summary ht)
  obtain ⟨deadline, hdeadline⟩ := Option.isSome_iff_exists.1 hsome
  rw [← hnow, ← Instant.after_isSome, Option.isSome_iff_ne_none]
  intro hnone
  have hop : ∀ event, Op.Within clocks (.turn 0 event now) := fun _ => hnow.le
  have hchanged : Reached x clocks c (withLoop c target now now) :=
    hloop.step (hop .trustChanged) (turnLoop_trustChanged now hdeadline)
  have hcheck : Reached x clocks c ((withLoop c target now now).loopPanics 0 .trustCheck) :=
    hchanged.step (hop .trustCheck) (turnLoop_of_no_trustCheck now hdeadline le_rfl hnone)
  simpa [loopPanics] using h.overflows hcheck

/-- The exporter after some failures in a row. -/
theorem Steady.reached_failures (h : Steady x clocks c) {q : QuestDbSection}
    (hq : c.exports.questdb = some q) (n : ℕ) (hn : n ≤ maxFailures) :
    max q.intervalSecs 1 * n < 2 ^ 64 ∧ ∃ delay, Reached x clocks c
      { config := c, exporting := some ⟨max q.intervalSecs 1, n, delay⟩ } := by
  have hstart : Op.startExport.Within clocks := trivial
  have hattempt : (Op.attempt false false).Within clocks := trivial
  induction n with
  | zero =>
    refine ⟨by simp, 0, reached_start.step hstart ?_⟩
    simp [Timers.step, start, hq]
  | succ n ih =>
    obtain ⟨-, delay, hreached⟩ := ih (by omega)
    have hmin : min (n + 1) maxFailures = n + 1 := by omega
    rcases htimes : Duration.times (max q.intervalSecs 1) (n + 1) with _ | product
    · have hover : Reached x clocks c { config := c, overflows := [.backOff] } := by
        refine hreached.step hattempt ?_
        simp [Timers.step, attempted, hmin, htimes]
      exact nomatch h.overflows hover
    · have hfits : max q.intervalSecs 1 * (n + 1) < 2 ^ 64 := by
        by_contra hnot
        rw [Duration.times_eq_none.2 (not_lt.1 hnot)] at htimes
        exact nomatch htimes
      refine ⟨hfits, min product 60, hreached.step hattempt ?_⟩
      simp [Timers.step, attempted, hmin, htimes]

end NoFit

/-- **The configurations whose times never overflow**: retention does not reach back before the
earliest date, the intervals of the targets end before the monotonic clock does, and the interval
of the exporter times the largest number of failures is a duration. -/
theorem no_overflow_iff (x : ConfigCrates) (clocks : Clocks) (c : Config) :
    Steady x clocks c ↔ c.Fits clocks := by
  constructor
  · intro h
    refine ⟨h.retention, fun htargets => ?_, fun t ht => h.trustCheck ht, fun q hq => ?_⟩
    · obtain ⟨t, ht⟩ := List.exists_mem_of_ne_nil _ htargets
      exact h.summary ht
    · exact (h.reached_failures hq maxFailures le_rfl).1
  · intro hfits ops s hops hrun
    have hstart : Inv clocks (start c) := ⟨hfits, nofun, nofun, rfl⟩
    have hmeets : Machine.Meets (step x) (fun _ op => Op.Within clocks op) (start c) ops :=
      Machine.meets_of_forall_mem _ (fun op hop _ => hops op hop) _
    have hinv := Machine.run_invariant_of_meets (I := Inv clocks)
      (fun s op t hs hop ht => inv_step hs hop ht) hstart hmeets hrun
    exact hinv.overflows

/-- No text is a node id. -/
def noNodeIds : ConfigCrates := ⟨fun _ => none, id⟩

/-- A target with the usual intervals. -/
def plcTarget : TargetConfig where
  name := "plc"
  listen := ⟨"0.0.0.0:4840"⟩
  endpointUrl := "opc.tcp://10.0.0.1:4840"
  discoveryIntervalSecs := 2 ^ 64 - 1

/-- A section with the usual interval. -/
def questdbSection : QuestDbSection where
  url := "http://10.0.0.2:9000"
  table := "opcua_audit"
  intervalSecs := 2 ^ 64 - 1

/-- Retention, the interval of the target and that of the export are the largest numbers that can
be given. -/
def largest : Config where
  audit := { retentionDays := 2 ^ 32 - 1 }
  exports := { questdb := some questdbSection }
  targets := [plcTarget]

/-- The gateway starts on 1 January 2026, trust changes and the export fails twice. -/
def firstMinute : List Op :=
  [.retention ⟨0⟩ ⟨1767225600 * 10 ^ 9⟩, .serve plcTarget ⟨0⟩, .turn 0 .trustChanged ⟨0⟩,
    .turn 0 .trustCheck ⟨0⟩, .startExport, .attempt false false, .attempt false false]

/-- The configuration is accepted, and retention, the accept loop and the exporter panic. -/
theorem overflows_largest :
    largest.validate noNodeIds = .ok () ∧
      (Machine.run (step noNodeIds) (start largest) firstMinute).map (·.overflows) =
        some [.backOff, .trustCheck, .cutoff] :=
  ⟨rfl, rfl⟩

end Timers

end AuditGateway
