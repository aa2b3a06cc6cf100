import AuditGateway.Targets.Manager

set_option relaxedAutoImplicit false
set_option autoImplicit false

/-!
# The relays of removed targets

The configuration and the map of the relays have a lock each. An upsert holds both, a removal holds
the lock of the configuration to its end and that of the map for a moment. A restart of all relays
holds neither while it stops what it has taken out of the map, then copies the targets, and starts
the relays of its copy under the lock of the map only. So it can start a target that was removed
since, and a removal can return while a restart still has the relay in its hands.

The last field of the state records what was removed, for the statements only.

## Main definitions

* `Removal`, `RestartTask` — a removal and a restart in progress.
* `Lifecycle`, `Lifecycle.Op`, `Lifecycle.step` — the relays, and the lock sections.
* `Lifecycle.Removed` — no relay of a removed target runs.
* `Lifecycle.UpToDate` — a restart starts what is configured, and does not hold what is removed.

## Main results

* `Lifecycle.removed_of_run` — runs in which removed targets stay removed.
* `Lifecycle.removed_again` — a restart that starts a removed target.
* `Lifecycle.manager_upsert`, `Lifecycle.manager_remove` — the changes as the manager makes them.
-/

namespace AuditGateway

/-- A `remove` that holds the lock of the configuration. -/
structure Removal where
  name : String
  /-- The relay that it has taken out of the map and not stopped yet, once it has the map. -/
  taken : Option (List Running) := none

/-- A `stop_all`, alone or as the beginning of a `restart_all`. -/
inductive RestartTask
  /-- These relays are out of the map and not stopped yet. -/
  | stopping (relays : List Running) (restart : Bool)
  /-- It has copied the targets and waits for the map. -/
  | copied (targets : List TargetConfig)

/-- The relays that are still to be stopped. -/
def RestartTask.held : RestartTask → List Running
  | .stopping relays _ => relays
  | .copied _ => []

/-- The targets of the gateway: configuration, file, relays and the calls that change them. -/
structure Lifecycle where
  targets : List TargetConfig
  file : List TargetConfig
  /-- The relays in the map, each under the name of its target. -/
  relays : List Running
  /-- The relays whose place in the map was given to others; they run on. -/
  orphans : List Running := []
  /-- The removal that holds the lock of the configuration. -/
  removing : Option Removal := none
  tasks : List RestartTask := []
  /-- What is still to be started by the `start_all` that holds the lock of the map. -/
  starting : Option (List TargetConfig) := none
  /-- The names of which `remove` has returned, and that were not added again. -/
  gone : List String := []

namespace Lifecycle

/-- The lock sections. -/
inductive Op
  | upsert (target : TargetConfig) (replaces : Option String) (starts : Bool) (write : FileWrite)
      (restarts : Bool)
  /-- A removal checks the name and writes the file. -/
  | remove (name : String) (write : FileWrite)
  /-- It takes the relay out of the map. -/
  | takeRelay
  /-- The relay is stopped. -/
  | stopRelay
  /-- The targets are replaced, and `remove` returns. -/
  | removed
  /-- The map is taken. -/
  | stopAll (restart : Bool)
  /-- Task number `i` stops its relay number `j`. -/
  | stop (i j : ℕ)
  | stopped (i : ℕ)
  /-- Task number `i` copies the targets. -/
  | copy (i : ℕ)
  /-- It has the lock of the map. -/
  | startAll (i : ℕ)
  /-- The next target is started. -/
  | start (starts : Bool)
  | started

/-- The relays that run. -/
def alive (s : Lifecycle) : List Running :=
  s.relays ++ s.orphans ++ s.tasks.flatMap (·.held) ++ (s.removing.bind (·.taken)).getD []

/-- The three copies of the targets. -/
def manager (s : Lifecycle) : Manager where
  targets := s.targets
  file := s.file
  running name := s.relays.find? (·.config.name = name)
  dropped := s.orphans

/-- The relay of a name is taken out of the map. -/
def without (s : Lifecycle) (name : String) : Lifecycle :=
  { s with relays := s.relays.filter (·.config.name ≠ name) }

/-- A relay is put into the map; one that was there runs on. -/
def insert (s : Lifecycle) (r : Running) : Lifecycle :=
  { s with
    relays := s.relays.filter (·.config.name ≠ r.config.name) ++ [r]
    orphans := s.orphans ++ s.relays.filter (·.config.name = r.config.name) }

variable (x : ConfigCrates) (webListen : SocketAddr)

/-- A relay starts only if nothing listens on its address. -/
def startRelay (s : Lifecycle) (target : TargetConfig) (starts : Bool) : Option Running :=
  if starts ∧ s.alive.all (·.config.listen ≠ target.listen) then some (.start x target) else none

/-- The relay of a target is started and put into the map, if it starts. -/
def startTarget (s : Lifecycle) (target : TargetConfig) (starts : Bool) : Lifecycle :=
  match s.startRelay x target starts with
  | some r => s.insert r
  | none => s

/-- The relay that is replaced. -/
def replaced (s : Lifecycle) (replaces : Option String) : Option Running :=
  replaces.bind s.manager.running

/-- The relay that is replaced is stopped. -/
def stopOld (s : Lifecycle) : Option String → Lifecycle
  | some name => s.without name
  | none => s

/-- The old relay is started again as it was started before, if it can be. -/
def restore (s : Lifecycle) (old : Option Running) (restarts : Bool) : Lifecycle :=
  match old with
  | some r => s.startTarget x r.config restarts
  | none => s

/-- An upsert behind its checks: the old relay is stopped, the new one started, the file written. -/
def finishUpsert (s : Lifecycle) (target : TargetConfig) (replaces : Option String)
    (new : List TargetConfig) (starts : Bool) (write : FileWrite) (restarts : Bool) : Lifecycle :=
  let old := s.replaced replaces
  let stopped := s.stopOld replaces
  match stopped.startRelay x target starts with
  | some r =>
    match write with
    | .ok =>
      { stopped.insert r with
        targets := new
        file := new
        gone := s.gone.filter (· ≠ target.name) }
    | .failed => stopped.restore x old restarts
    | .unsynced => { stopped.restore x old restarts with file := new }
  | none => stopped.restore x old restarts

/-- A target is added or replaced. -/
def upsert (s : Lifecycle) (target : TargetConfig) (replaces : Option String) (starts : Bool)
    (write : FileWrite) (restarts : Bool) : Lifecycle :=
  match s.manager.planUpsert x webListen target replaces with
  | .error _ => s
  | .ok new => s.finishUpsert x target replaces new starts write restarts

/-- A removal of a known name goes on if the file is written. -/
def remove (s : Lifecycle) (name : String) (write : FileWrite) : Lifecycle :=
  if s.targets.any (·.name = name) then
    let new := s.targets.filter (·.name ≠ name)
    match write with
    | .ok => { s with file := new, removing := some { name := name } }
    | .failed => s
    | .unsynced => { s with file := new }
  else s

/-- One lock section. What holds a lock keeps the others out of it. -/
def step (s : Lifecycle) : Op → Option Lifecycle
  | .upsert target replaces starts write restarts =>
    match s.removing, s.starting with
    | none, none => some (s.upsert x webListen target replaces starts write restarts)
    | _, _ => none
  | .remove name write =>
    match s.removing with
    | none => some (s.remove name write)
    | some _ => none
  | .takeRelay =>
    match s.removing, s.starting with
    | some ⟨name, none⟩, none =>
      some { s.without name with
        removing := some ⟨name, some (s.relays.filter (·.config.name = name))⟩ }
    | _, _ => none
  | .stopRelay =>
    match s.removing with
    | some ⟨name, some _⟩ => some { s with removing := some ⟨name, some []⟩ }
    | _ => none
  | .removed =>
    match s.removing with
    | some ⟨name, some []⟩ =>
      some { s with
        targets := s.targets.filter (·.name ≠ name)
        removing := none
        gone := name :: s.gone }
    | _ => none
  | .stopAll restart =>
    match s.starting with
    | none => some { s with relays := [], tasks := s.tasks ++ [.stopping s.relays restart] }
    | some _ => none
  | .stop i j =>
    match s.tasks[i]? with
    | some (.stopping relays restart) =>
      if j < relays.length then
        some { s with tasks := s.tasks.set i (.stopping (relays.eraseIdx j) restart) }
      else none
    | _ => none
  | .stopped i =>
    match s.tasks[i]? with
    | some (.stopping [] false) => some { s with tasks := s.tasks.eraseIdx i }
    | _ => none
  | .copy i =>
    match s.tasks[i]?, s.removing with
    | some (.stopping [] true), none => some { s with tasks := s.tasks.set i (.copied s.targets) }
    | _, _ => none
  | .startAll i =>
    match s.tasks[i]?, s.starting with
    | some (.copied targets), none =>
      some { s with tasks := s.tasks.eraseIdx i, starting := some targets }
    | _, _ => none
  | .start starts =>
    match s.starting with
    | some (t :: targets) => some { s.startTarget x t starts with starting := some targets }
    | _ => none
  | .started =>
    match s.starting with
    | some [] => some { s with starting := none }
    | _ => none

/-- The gateway after its start, with the relays that have started. -/
def load (targets : List TargetConfig) (starts : String → Bool) : Lifecycle where
  targets := targets
  file := targets
  relays := (targets.filter fun t => starts t.name).map (Running.start x)

/-! ## What is to hold -/

/-- No relay of a removed target runs, and when nothing is in progress every relay that runs is one
of a target as it is configured. -/
structure Removed (s : Lifecycle) : Prop where
  gone : ∀ r ∈ s.alive, r.config.name ∉ s.gone
  settled : s.removing = none → s.tasks = [] → s.starting = none →
    ∀ r ∈ s.alive, r.config ∈ s.targets

/-- A removal has taken the relay of the name. -/
def TakenFor (s : Lifecycle) (name : String) : Prop :=
  ∃ relays, s.removing = some ⟨name, some relays⟩

/-- What a `start_all` starts is still configured as it was copied, and not about to be removed;
and when `remove` returns, no `stop_all` has a relay of the name in its hands. -/
def UpToDate (s : Lifecycle) : Op → Prop
  | .start starts =>
    ∀ t targets, s.starting = some (t :: targets) → (s.startRelay x t starts).isSome →
      t ∈ s.targets ∧ ¬s.TakenFor t.name
  | .removed =>
    ∀ removal, s.removing = some removal → ∀ task ∈ s.tasks, ∀ r ∈ task.held,
      r.config.name ≠ removal.name
  | _ => True

/-- What every such run keeps. -/
structure Inv (s : Lifecycle) : Prop where
  nodup : (s.targets.map (·.name)).Nodup
  configured : ∀ r ∈ s.relays, r.config ∈ s.targets
  orphans : s.orphans = []
  taken : ∀ r ∈ s.relays, ¬s.TakenFor r.config.name
  targets : ∀ t ∈ s.targets, t.name ∉ s.gone
  gone : ∀ r ∈ s.alive, r.config.name ∉ s.gone

variable {x webListen} {s t : Lifecycle}

/-! ## Relays -/

/-- Where a relay that is alive can be. -/
theorem mem_alive {r : Running} : r ∈ s.alive ↔
    r ∈ s.relays ∨ r ∈ s.orphans ∨ (∃ task ∈ s.tasks, r ∈ task.held) ∨
      ∃ name relays, s.removing = some ⟨name, some relays⟩ ∧ r ∈ relays := by
  have hremoving : r ∈ (s.removing.bind (·.taken)).getD [] ↔
      ∃ name relays, s.removing = some ⟨name, some relays⟩ ∧ r ∈ relays := by
    rcases s.removing with _ | ⟨name, _ | relays⟩ <;> simp
  rw [alive, List.mem_append, List.mem_append, List.mem_append, hremoving, List.mem_flatMap,
    or_assoc, or_assoc]

/-- What it takes to start a relay. -/
theorem startRelay_eq_some {target : TargetConfig} {starts : Bool} {r : Running}
    (h : s.startRelay x target starts = some r) :
    r = .start x target ∧ ∀ q ∈ s.alive, q.config.listen ≠ target.listen := by
  unfold startRelay at h
  split_ifs at h with hfree
  exact ⟨(Option.some.inj h).symm, by simpa using hfree.2⟩

/-- A relay that is put into the map is alive. -/
theorem mem_alive_insert {r q : Running} : q ∈ (s.insert r).alive ↔ q = r ∨ q ∈ s.alive := by
  simp only [mem_alive, insert, List.mem_append, List.mem_filter, List.mem_singleton,
    decide_eq_true_eq]
  by_cases hname : q.config.name = r.config.name
  · simp [hname, or_assoc, or_comm]
  · simp [hname, or_assoc, or_comm]

/-- Taking a target out leaves no new relay alive. -/
theorem mem_alive_without {name : String} {q : Running} (h : q ∈ (s.without name).alive) :
    q ∈ s.alive := by
  simp only [mem_alive, without, List.mem_filter] at h ⊢
  exact h.imp_left And.left

/-- Targets with one name are one target. -/
theorem Inv.eq_of_name_eq (h : Inv s) {u v : TargetConfig} (hu : u ∈ s.targets)
    (hv : v ∈ s.targets) (hname : u.name = v.name) : u = v :=
  List.inj_on_of_nodup_map h.nodup hu hv hname

/-- A relay of a configured target takes no place from another. -/
theorem inv_insert (h : Inv s) {r : Running} (hr : r.config ∈ s.targets)
    (hfree : ∀ q ∈ s.alive, q.config.listen ≠ r.config.listen)
    (htaken : ¬s.TakenFor r.config.name) : Inv (s.insert r) := by
  refine ⟨h.nodup, fun q hq => ?_, ?_, fun q hq => ?_, h.targets, fun q hq => ?_⟩
  · rcases List.mem_append.1 hq with hq | hq
    · exact h.configured q (List.mem_of_mem_filter hq)
    · rwa [List.mem_singleton.1 hq]
  · simp only [insert, h.orphans, List.nil_append, List.filter_eq_nil_iff, decide_eq_true_eq]
    intro q hq hname
    have heq := h.eq_of_name_eq (h.configured q hq) hr hname
    exact hfree q (mem_alive.2 (.inl hq)) (congrArg TargetConfig.listen heq)
  · rcases List.mem_append.1 hq with hq | hq
    · exact h.taken q (List.mem_of_mem_filter hq)
    · rwa [List.mem_singleton.1 hq]
  · rcases mem_alive_insert.1 hq with rfl | hq
    · exact h.targets _ hr
    · exact h.gone q hq

/-- A configured target is started. -/
theorem inv_startTarget (h : Inv s) {target : TargetConfig} {starts : Bool}
    (htarget : (s.startRelay x target starts).isSome →
      target ∈ s.targets ∧ ¬s.TakenFor target.name) :
    Inv (s.startTarget x target starts) := by
  unfold startTarget
  cases hstart : s.startRelay x target starts with
  | none => exact h
  | some r =>
    obtain ⟨rfl, hfree⟩ := startRelay_eq_some hstart
    rw [hstart] at htarget
    exact inv_insert h (htarget rfl).1 hfree (htarget rfl).2

/-- Taking a target out keeps the invariant. -/
theorem inv_without (h : Inv s) (name : String) : Inv (s.without name) :=
  ⟨h.nodup, fun q hq => h.configured q (List.mem_of_mem_filter hq), h.orphans,
    fun q hq => h.taken q (List.mem_of_mem_filter hq), h.targets,
    fun q hq => h.gone q (mem_alive_without hq)⟩

/-- Stopping the old relay keeps the invariant. -/
theorem inv_stopOld (h : Inv s) (replaces : Option String) : Inv (s.stopOld replaces) := by
  cases replaces with
  | none => exact h
  | some name => exact inv_without h name

/-- What is put back is the relay of a configured target. -/
theorem inv_restore (h : Inv s) {old : Option Running}
    (hold : ∀ r, old = some r → r.config ∈ s.targets) (hremoving : s.removing = none)
    (restarts : Bool) : Inv (s.restore x old restarts) := by
  cases old with
  | none => exact h
  | some r =>
    refine inv_startTarget h fun _ => ⟨hold r rfl, ?_⟩
    rintro ⟨relays, htaken⟩
    rw [hremoving] at htaken
    cases htaken

/-- The invariant does not look at the file. -/
theorem Inv.with_file (h : Inv s) (file : List TargetConfig) : Inv { s with file := file } :=
  ⟨h.nodup, h.configured, h.orphans, h.taken, h.targets, h.gone⟩

/-- Stopping the old relay does not change the targets. -/
@[simp] theorem stopOld_targets (s : Lifecycle) (replaces : Option String) :
    (s.stopOld replaces).targets = s.targets := by
  cases replaces <;> rfl

/-- Stopping the old relay does not change what is being removed. -/
@[simp] theorem stopOld_removing (s : Lifecycle) (replaces : Option String) :
    (s.stopOld replaces).removing = s.removing := by
  cases replaces <;> rfl

/-- Stopping the old relay does not change what is gone. -/
@[simp] theorem stopOld_gone (s : Lifecycle) (replaces : Option String) :
    (s.stopOld replaces).gone = s.gone := by
  cases replaces <;> rfl

/-- What stays in the map is not replaced. -/
theorem name_ne_of_mem_stopOld {replaces : Option String} {q : Running}
    (hq : q ∈ (s.stopOld replaces).relays) :
    q ∈ s.relays ∧ ∀ old, replaces = some old → q.config.name ≠ old := by
  cases replaces with
  | none => exact ⟨hq, fun _ => nofun⟩
  | some name =>
    obtain ⟨hq, hname⟩ := List.mem_filter.1 hq
    refine ⟨hq, fun old hold => ?_⟩
    cases hold
    simpa using hname

/-- The new relay runs and its target is saved. -/
theorem inv_saved (h : Inv s) {target : TargetConfig} {replaces : Option String}
    {new : List TargetConfig} (hremoving : s.removing = none)
    (hplan : s.manager.planUpsert x webListen target replaces = .ok new) {starts : Bool}
    {r : Running} (hstart : (s.stopOld replaces).startRelay x target starts = some r) :
    Inv { (s.stopOld replaces).insert r with
      targets := new
      file := new
      gone := s.gone.filter (· ≠ target.name) } := by
  obtain ⟨rfl, hfree⟩ := startRelay_eq_some hstart
  obtain ⟨hnodup, hmem⟩ := Manager.planUpsert_eq_ok h.nodup hplan
  have hstopped := inv_stopOld h replaces
  have hconfigured : ∀ q ∈ (s.stopOld replaces).relays, q.config ∈ new := by
    intro q hq
    obtain ⟨hq, hne⟩ := name_ne_of_mem_stopOld hq
    exact (hmem _).2 (.inr ⟨h.configured q hq, hne⟩)
  refine ⟨hnodup, fun q hq => ?_, ?_, fun q hq => ?_, fun u hu => ?_, fun q hq => ?_⟩
  · rcases List.mem_append.1 hq with hq | hq
    · exact hconfigured q (List.mem_of_mem_filter hq)
    · rw [List.mem_singleton.1 hq]
      exact (hmem _).2 (.inl rfl)
  · simp only [insert, hstopped.orphans, List.nil_append, List.filter_eq_nil_iff,
      decide_eq_true_eq]
    intro q hq hname
    have heq : q.config = target :=
      List.inj_on_of_nodup_map hnodup (hconfigured q hq) ((hmem _).2 (.inl rfl)) hname
    exact hfree q (mem_alive.2 (.inl hq)) (congrArg TargetConfig.listen heq)
  · rintro ⟨relays, htaken⟩
    simp [insert, hremoving] at htaken
  · simp only [List.mem_filter, decide_eq_true_eq, ne_eq, not_and, not_not]
    intro hgone
    rcases (hmem u).1 hu with rfl | ⟨hu, -⟩
    · rfl
    · exact absurd hgone (h.targets u hu)
  · simp only [List.mem_filter, decide_eq_true_eq, ne_eq, not_and, not_not]
    intro hgone
    rcases mem_alive_insert.1 hq with rfl | hq
    · rfl
    · exact absurd hgone (by simpa using hstopped.gone q hq)

/-- An upsert keeps the invariant. -/
theorem inv_upsert (h : Inv s) (hremoving : s.removing = none) (target : TargetConfig)
    (replaces : Option String) (starts : Bool) (write : FileWrite) (restarts : Bool) :
    Inv (s.upsert x webListen target replaces starts write restarts) := by
  unfold upsert
  cases hplan : s.manager.planUpsert x webListen target replaces with
  | error e => exact h
  | ok new =>
    have hrestored : Inv ((s.stopOld replaces).restore x (s.replaced replaces) restarts) := by
      refine inv_restore (inv_stopOld h replaces) (fun r hr => ?_) (by simpa) restarts
      obtain ⟨name, -, hr⟩ := Option.bind_eq_some_iff.1 hr
      simpa using h.configured r (List.mem_of_find?_eq_some hr)
    simp only [finishUpsert]
    cases hstart : (s.stopOld replaces).startRelay x target starts with
    | none => exact hrestored
    | some r =>
      cases write with
      | ok => exact inv_saved h hremoving hplan hstart
      | failed => exact hrestored
      | unsynced => exact hrestored.with_file new

/-! ## Steps and runs -/

/-- A step that starts nothing and configures nothing. -/
theorem Inv.of_alive (h : Inv s) (htargets : t.targets = s.targets) (hgone : t.gone = s.gone)
    (horphans : t.orphans = s.orphans) (hrelays : ∀ r ∈ t.relays, r ∈ s.relays)
    (halive : ∀ r ∈ t.alive, r ∈ s.alive)
    (htaken : ∀ r ∈ t.relays, t.TakenFor r.config.name → s.TakenFor r.config.name) : Inv t where
  nodup := htargets ▸ h.nodup
  configured r hr := htargets ▸ h.configured r (hrelays r hr)
  orphans := horphans.trans h.orphans
  taken r hr hname := h.taken r (hrelays r hr) (htaken r hr hname)
  targets u hu := hgone ▸ h.targets u (htargets ▸ hu)
  gone r hr := hgone ▸ h.gone r (halive r hr)

/-- A removal keeps the invariant. -/
theorem inv_remove (h : Inv s) (hremoving : s.removing = none) (name : String)
    (write : FileWrite) : Inv (s.remove name write) := by
  unfold remove
  split_ifs
  · cases write with
    | ok =>
      refine h.of_alive rfl rfl rfl (fun _ hr => hr) (fun r hr => ?_) ?_
      · simp only [mem_alive, hremoving, Option.some.injEq, Removal.mk.injEq] at hr ⊢
        simpa using hr
      · rintro r - ⟨relays, htaken⟩
        cases htaken
    | failed => exact h
    | unsynced => exact h.with_file _
  · exact h

/-- The relay is in the hands of the removal now. -/
theorem inv_takeRelay (h : Inv s) (name : String) :
    Inv { s.without name with
      removing := some ⟨name, some (s.relays.filter (·.config.name = name))⟩ } := by
  refine ⟨h.nodup, fun q hq => h.configured q (List.mem_of_mem_filter hq), h.orphans,
    fun q hq => ?_, h.targets, fun q hq => h.gone q ?_⟩
  · rintro ⟨relays, htaken⟩
    have hname : q.config.name ≠ name := by simpa using (List.mem_filter.1 hq).2
    exact hname (congrArg Removal.name (Option.some.inj htaken)).symm
  · rcases mem_alive.1 hq with hq | hq | hq | ⟨name', relays, hremoving', hq⟩
    · exact mem_alive.2 (.inl (List.mem_of_mem_filter hq))
    · exact mem_alive.2 (.inr (.inl hq))
    · exact mem_alive.2 (.inr (.inr (.inl hq)))
    · cases hremoving'
      exact mem_alive.2 (.inl (List.mem_of_mem_filter hq))

/-- `remove` returns. -/
theorem inv_removed (h : Inv s) {name : String} (hremoving : s.removing = some ⟨name, some []⟩)
    (hheld : ∀ task ∈ s.tasks, ∀ r ∈ task.held, r.config.name ≠ name) :
    Inv { s with
      targets := s.targets.filter (·.name ≠ name)
      removing := none
      gone := name :: s.gone } := by
  have hrelays : ∀ r ∈ s.relays, r.config.name ≠ name := by
    rintro r hr rfl
    exact h.taken r hr ⟨[], hremoving⟩
  refine ⟨?_, fun r hr => ?_, h.orphans, ?_, fun u hu => ?_, fun r hr => ?_⟩
  · exact h.nodup.sublist (List.filter_sublist.map _)
  · simpa using ⟨h.configured r hr, hrelays r hr⟩
  · rintro r - ⟨relays, htaken⟩
    cases htaken
  · obtain ⟨hu, hname⟩ := List.mem_filter.1 hu
    simpa using ⟨by simpa using hname, h.targets u hu⟩
  · simp only [List.mem_cons, not_or]
    rcases mem_alive.1 hr with hr | hr | ⟨task, htask, hr⟩ | ⟨name', relays, hremoving', -⟩
    · exact ⟨hrelays r hr, h.gone r (mem_alive.2 (.inl hr))⟩
    · rw [show s.orphans = [] from h.orphans] at hr
      cases hr
    · exact ⟨hheld task htask r hr, h.gone r (mem_alive.2 (.inr (.inr (.inl ⟨task, htask, hr⟩))))⟩
    · cases hremoving'

/-- A task goes on that holds no more than before. -/
theorem inv_set_task (h : Inv s) {i : ℕ} {task : RestartTask} (htask : s.tasks[i]? = some task)
    {task' : RestartTask} (hheld : ∀ r ∈ task'.held, r ∈ task.held) :
    Inv { s with tasks := s.tasks.set i task' } := by
  refine h.of_alive rfl rfl rfl (fun _ hr => hr) (fun r hr => ?_) (fun _ _ htaken => htaken)
  rcases mem_alive.1 hr with hr | hr | ⟨task'', htask'', hr⟩ | hr
  · exact mem_alive.2 (.inl hr)
  · exact mem_alive.2 (.inr (.inl hr))
  · refine mem_alive.2 (.inr (.inr (.inl ?_)))
    rcases List.mem_or_eq_of_mem_set htask'' with htask'' | heq
    · exact ⟨task'', htask'', hr⟩
    · exact ⟨task, List.mem_of_getElem? htask, hheld r (heq ▸ hr)⟩
  · exact mem_alive.2 (.inr (.inr (.inr hr)))

/-- The end of a task keeps the invariant. -/
theorem inv_erase_task (h : Inv s) (i : ℕ) (starting : Option (List TargetConfig)) :
    Inv { s with tasks := s.tasks.eraseIdx i, starting := starting } := by
  refine h.of_alive rfl rfl rfl (fun _ hr => hr) (fun r hr => ?_) (fun _ _ htaken => htaken)
  rcases mem_alive.1 hr with hr | hr | ⟨task, htask, hr⟩ | hr
  · exact mem_alive.2 (.inl hr)
  · exact mem_alive.2 (.inr (.inl hr))
  · exact mem_alive.2 (.inr (.inr (.inl ⟨task, List.mem_of_mem_eraseIdx htask, hr⟩)))
  · exact mem_alive.2 (.inr (.inr (.inr hr)))

/-- The relays of the map are in the hands of a task. -/
theorem inv_stopAll (h : Inv s) (restart : Bool) :
    Inv { s with relays := [], tasks := s.tasks ++ [.stopping s.relays restart] } := by
  refine h.of_alive rfl rfl rfl nofun (fun r hr => ?_) nofun
  rcases mem_alive.1 hr with hr | hr | ⟨task, htask, hr⟩ | hr
  · cases hr
  · exact mem_alive.2 (.inr (.inl hr))
  · rcases List.mem_append.1 htask with htask | htask
    · exact mem_alive.2 (.inr (.inr (.inl ⟨task, htask, hr⟩)))
    · rw [List.mem_singleton.1 htask] at hr
      exact mem_alive.2 (.inl hr)
  · exact mem_alive.2 (.inr (.inr (.inr hr)))

/-- Every step keeps the invariant. -/
theorem inv_step (h : Inv s) {op : Op} (hop : UpToDate x s op)
    (ht : s.step x webListen op = some t) : Inv t := by
  cases op with
  | upsert target replaces starts write restarts =>
    simp only [step] at ht
    split at ht
    · next hremoving _ =>
      cases ht
      exact inv_upsert h hremoving target replaces starts write restarts
    · cases ht
  | remove name write =>
    simp only [step] at ht
    split at ht
    · next hremoving =>
      cases ht
      exact inv_remove h hremoving name write
    · cases ht
  | takeRelay =>
    simp only [step] at ht
    split at ht
    · cases ht
      exact inv_takeRelay h _
    · cases ht
  | stopRelay =>
    simp only [step] at ht
    split at ht
    · next name relays hremoving =>
      cases ht
      refine h.of_alive rfl rfl rfl (fun _ hr => hr) (fun r hr => ?_) ?_
      · simp only [mem_alive, Option.some.injEq, Removal.mk.injEq] at hr ⊢
        rcases hr with hr | hr | hr | ⟨name', relays', ⟨-, rfl⟩, hr⟩
        · exact .inl hr
        · exact .inr (.inl hr)
        · exact .inr (.inr (.inl hr))
        · cases hr
      · rintro r - ⟨relays', htaken⟩
        cases htaken
        exact ⟨relays, hremoving⟩
    · cases ht
  | removed =>
    simp only [step] at ht
    split at ht
    · next name hremoving =>
      cases ht
      exact inv_removed h hremoving (hop _ hremoving)
    · cases ht
  | stopAll restart =>
    simp only [step] at ht
    split at ht
    · cases ht
      exact inv_stopAll h restart
    · cases ht
  | stop i j =>
    simp only [step] at ht
    split at ht
    · next relays restart htask =>
      split_ifs at ht
      cases ht
      exact inv_set_task h htask fun r hr => List.mem_of_mem_eraseIdx hr
    · cases ht
  | stopped i =>
    simp only [step] at ht
    split at ht
    · cases ht
      exact inv_erase_task h i s.starting
    · cases ht
  | copy i =>
    simp only [step] at ht
    split at ht
    · next htask _ =>
      cases ht
      exact inv_set_task h htask nofun
    · cases ht
  | startAll i =>
    simp only [step] at ht
    split at ht
    · cases ht
      exact inv_erase_task h i _
    · cases ht
  | start starts =>
    simp only [step] at ht
    split at ht
    · next target targets hstarting =>
      cases ht
      have hstarted := inv_startTarget h (hop target targets hstarting)
      exact ⟨hstarted.nodup, hstarted.configured, hstarted.orphans, hstarted.taken,
        hstarted.targets, hstarted.gone⟩
    · cases ht
  | started =>
    simp only [step] at ht
    split at ht
    · cases ht
      exact ⟨h.nodup, h.configured, h.orphans, h.taken, h.targets, h.gone⟩
    · cases ht

/-- The invariant holds when the gateway has started. -/
theorem inv_load {targets : List TargetConfig}
    (hvalid : validateTargets x webListen targets = .ok ()) (starts : String → Bool) :
    Inv (load x targets starts) := by
  refine ⟨nodup_of_validateTargets hvalid, fun r hr => ?_, rfl, ?_, fun _ _ => nofun,
    fun _ _ => nofun⟩
  · obtain ⟨u, hu, rfl⟩ := List.mem_map.1 hr
    exact List.mem_of_mem_filter hu
  · rintro r - ⟨relays, htaken⟩
    cases htaken

/-- Where the invariant holds, what is removed is gone. -/
theorem Inv.removed (h : Inv s) : Removed s := by
  refine ⟨h.gone, fun hremoving htasks _ r hr => ?_⟩
  rcases mem_alive.1 hr with hr | hr | ⟨task, htask, -⟩ | ⟨name, relays, htaken, -⟩
  · exact h.configured r hr
  · rw [h.orphans] at hr
    cases hr
  · rw [htasks] at htask
    cases htask
  · rw [hremoving] at htaken
    cases htaken

/-- **Removed targets stay removed** in every run in which each `start_all` starts what is still
configured and no `stop_all` holds a relay of a target when its removal returns. -/
theorem removed_of_run {targets : List TargetConfig}
    (hvalid : validateTargets x webListen targets = .ok ()) (starts : String → Bool)
    {ops : List Op}
    (hops : Machine.Meets (step x webListen) (UpToDate x) (load x targets starts) ops)
    (hrun : Machine.run (step x webListen) (load x targets starts) ops = some t) : Removed t :=
  (Machine.run_invariant_of_meets (I := Inv) (fun _ _ _ hs hop ht => inv_step hs hop ht)
    (inv_load hvalid starts) hops hrun).removed

/-! ## The changes of the manager -/

/-- The relay of a name among those that do not have another. -/
theorem find?_filter_name (relays : List Running) (name other : String) :
    (relays.filter (·.config.name ≠ other)).find? (·.config.name = name) =
      if name = other then none else relays.find? (·.config.name = name) := by
  induction relays with
  | nil => simp
  | cons r relays ih =>
    by_cases hother : r.config.name = other
    · rw [List.filter_cons_of_neg (by simpa using hother), ih]
      split_ifs with hname
      · rfl
      · rw [List.find?_cons_of_neg (by simpa [hother] using Ne.symm hname)]
    · rw [List.filter_cons_of_pos (by simpa using hother)]
      by_cases hname : r.config.name = name
      · rw [List.find?_cons_of_pos (by simpa using hname),
          List.find?_cons_of_pos (by simpa using hname), if_neg (hname ▸ hother)]
      · rw [List.find?_cons_of_neg (by simpa using hname),
          List.find?_cons_of_neg (by simpa using hname), ih]

/-- The running relays behind a start. -/
theorem running_insert (s : Lifecycle) (r : Running) : (s.insert r).manager.running =
    Function.update s.manager.running r.config.name (some r) := by
  funext name
  simp only [manager, insert]
  rw [List.find?_append, find?_filter_name, Function.update_apply]
  split_ifs with hname
  · simp [hname]
  · simp [Ne.symm hname]

/-- The running relays behind a stop. -/
theorem running_without (s : Lifecycle) (name : String) : (s.without name).manager.running =
    Function.update s.manager.running name none := by
  funext name'
  simp only [manager, without]
  rw [find?_filter_name, Function.update_apply]

/-- Two managers with the same copies of the targets. -/
def SameCopies (a b : Manager) : Prop :=
  a.targets = b.targets ∧ a.file = b.file ∧ a.running = b.running

/-- Starting a target starts the same copies. -/
theorem sameCopies_startTarget {m : Manager} (h : SameCopies s.manager m) (target : TargetConfig)
    (starts : Bool) : SameCopies (s.startTarget x target starts).manager
      (if (s.startRelay x target starts).isSome then m.insert target.name (.start x target)
        else m) := by
  unfold startTarget
  cases hstart : s.startRelay x target starts with
  | none => exact h
  | some r =>
    obtain ⟨rfl, -⟩ := startRelay_eq_some hstart
    obtain ⟨htargets, hfile, hrunning⟩ := h
    refine ⟨htargets, hfile, (running_insert ..).trans ?_⟩
    rw [hrunning]
    rfl

/-- Stopping the old relay stops the same copies. -/
theorem sameCopies_stopOld (s : Lifecycle) (replaces : Option String) :
    SameCopies (s.stopOld replaces).manager (s.manager.stopOld replaces) := by
  cases replaces with
  | none => exact ⟨rfl, rfl, rfl⟩
  | some name => exact ⟨rfl, rfl, running_without s name⟩

/-- An upsert is that of the manager. -/
theorem manager_upsert (s : Lifecycle) (target : TargetConfig) (replaces : Option String)
    (starts : Bool) (write : FileWrite) (restarts : Bool) :
    ∃ starts' restarts', SameCopies
      (s.upsert x webListen target replaces starts write restarts).manager
      (s.manager.upsert x webListen target replaces starts' write restarts').2 := by
  unfold upsert Manager.upsert
  cases hplan : s.manager.planUpsert x webListen target replaces with
  | error e => exact ⟨starts, restarts, rfl, rfl, rfl⟩
  | ok new =>
    obtain ⟨htargets, hfile, hrunning⟩ := sameCopies_stopOld s replaces
    -- the old relay is started again or not
    obtain ⟨restarts', hrestored⟩ : ∃ restarts', SameCopies
        ((s.stopOld replaces).restore x (s.replaced replaces) restarts).manager
        ((s.manager.stopOld replaces).restore x (s.replaced replaces) restarts') := by
      unfold restore Manager.restore
      cases s.replaced replaces with
      | none => exact ⟨restarts, htargets, hfile, hrunning⟩
      | some r => exact ⟨_, sameCopies_startTarget ⟨htargets, hfile, hrunning⟩ r.config restarts⟩
    simp only [finishUpsert, Manager.finishUpsert]
    cases hstart : (s.stopOld replaces).startRelay x target starts with
    | none => exact ⟨false, restarts', hrestored⟩
    | some r =>
      obtain ⟨rfl, -⟩ := startRelay_eq_some hstart
      refine ⟨true, restarts', ?_⟩
      cases write with
      | ok =>
        refine ⟨rfl, rfl, (running_insert ..).trans ?_⟩
        rw [hrunning]
        rfl
      | failed => exact hrestored
      | unsynced =>
        simp only [if_true, reduceCtorEq, if_false, Manager.written, replaced] at hrestored ⊢
        rw [Manager.restore_file_eq]
        exact ⟨hrestored.1, rfl, hrestored.2.2⟩

/-- A removal that nothing comes between is that of the manager. -/
theorem manager_remove (hremoving : s.removing = none) (hstarting : s.starting = none)
    {name : String} (hname : s.targets.any (·.name = name)) :
    ∃ t, Machine.run (step x webListen) s [.remove name .ok, .takeRelay, .stopRelay, .removed] =
      some t ∧ SameCopies t.manager (s.manager.remove name .ok).2 := by
  simp only [Machine.run, step, hremoving, hstarting, remove, if_pos hname, Option.bind_some]
  refine ⟨_, rfl, ?_⟩
  have hany : s.manager.targets.any (·.name = name) := hname
  simp only [Manager.remove, if_pos hany, if_true]
  exact ⟨rfl, rfl, running_without s name⟩

/-! ## A restart and a removal -/

/-- All relays are stopped, and the targets copied. -/
def stopAndCopy : List Op := [.stopAll true, .stop 0 0, .copy 0]

/-- A target is removed. -/
def removePlc : List Op := [.remove "plc" .ok, .takeRelay, .stopRelay, .removed]

/-- What was copied is started. -/
def startCopied : List Op := [.startAll 0, .start true, .started]

/-- The removal waits for the restart. -/
theorem removed_of_run_plc : ∃ t, Machine.run (step Manager.plainConfig Manager.webAddr)
    (load Manager.plainConfig [Manager.plc] fun _ => true)
    (stopAndCopy ++ startCopied ++ removePlc) = some t ∧ Removed t := by
  have hvalid : validateTargets Manager.plainConfig Manager.webAddr [Manager.plc] = .ok () := by
    decide +kernel
  suffices hops : Machine.Meets (step Manager.plainConfig Manager.webAddr)
      (UpToDate Manager.plainConfig) (load Manager.plainConfig [Manager.plc] fun _ => true)
      (stopAndCopy ++ startCopied ++ removePlc) from
    ⟨_, rfl, removed_of_run hvalid (fun _ => true) hops rfl⟩
  refine Machine.meets_cons_of_eq _ trivial rfl ?_
  refine Machine.meets_cons_of_eq _ trivial rfl ?_
  refine Machine.meets_cons_of_eq _ trivial rfl ?_
  refine Machine.meets_cons_of_eq _ trivial rfl ?_
  refine Machine.meets_cons_of_eq _ (fun target targets hstarting _ => ?_) rfl ?_
  · obtain rfl := (List.cons.inj (Option.some.inj hstarting)).1
    exact ⟨List.mem_singleton_self _, fun ⟨_, htaken⟩ => nomatch htaken⟩
  refine Machine.meets_cons_of_eq _ trivial rfl ?_
  refine Machine.meets_cons_of_eq _ trivial rfl ?_
  refine Machine.meets_cons_of_eq _ trivial rfl ?_
  refine Machine.meets_cons_of_eq _ trivial rfl ?_
  exact ⟨fun _ _ _ htask => (nomatch htask), fun _ _ => trivial⟩

/-- **The target is back**: it is removed between the copy and the start. -/
theorem removed_again : validateTargets Manager.plainConfig Manager.webAddr [Manager.plc] = .ok () ∧
    ¬∀ t, Machine.run (step Manager.plainConfig Manager.webAddr)
      (load Manager.plainConfig [Manager.plc] fun _ => true)
      (stopAndCopy ++ removePlc ++ startCopied) = some t → Removed t := by
  refine ⟨by decide +kernel, fun hall => ?_⟩
  have hgone := (hall _ rfl).gone (.start Manager.plainConfig Manager.plc)
    (List.mem_singleton_self _)
  exact hgone (List.mem_singleton_self _)

end Lifecycle

end AuditGateway
