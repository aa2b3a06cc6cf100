import AuditGateway.Targets.Manager

set_option relaxedAutoImplicit false
set_option autoImplicit false

/-!
# Updates of a target and its groups

Editing a target in the web UI keeps its summarise groups: the request reads them first, and later
replaces the target, groups included, under the lock of the configuration. The groups have their own
requests, which read and change them under the lock. An edit that is overtaken by one of these puts
the old groups back, and so does an edit that fails behind the stop of the relay.

The last field of the state records what was answered, for the statements only.

## Main definitions

* `UpdateCall` — a request that edits a target.
* `GroupRun`, `GroupRun.Op`, `GroupRun.step` — the target manager and these requests.
* `GroupRun.InForce` — the groups are those that the successful changes have made.
* `GroupRun.Current` — an edit works with the groups in force.

## Main results

* `GroupRun.inForce_iff` — which runs keep the groups in force.
* `GroupRun.change_reverted` — an edit that takes a group back.
-/

namespace AuditGateway

/-- How far a request that edits a target is. -/
inductive UpdateStage
  | arrived
  /-- It has read the target as it was configured then. -/
  | read (old : TargetConfig)
  | done

/-- A request to replace the target `name`. -/
structure UpdateCall where
  name : String
  target : TargetConfig
  stage : UpdateStage := .arrived

/-- The target that is to be saved: editing a target keeps its summarised nodes. -/
def UpdateCall.merged (call : UpdateCall) (old : TargetConfig) : TargetConfig :=
  { call.target with summarise := old.summarise }

/-- The manager with the requests that edit its targets. -/
structure GroupRun where
  manager : Manager
  calls : List UpdateCall := []
  /-- The groups of each target as the changes that were answered as successful have made them. -/
  groups : String → Option (List SummariseGroup)

namespace GroupRun

/-- What can happen. -/
inductive Op
  /-- A request to edit a target arrives. -/
  | call (name : String) (target : TargetConfig)
  /-- Request number `i` reads the target. -/
  | read (i : ℕ)
  /-- Request number `i` replaces the target. -/
  | update (i : ℕ) (starts : Bool) (write : FileWrite) (restarts : Bool)
  /-- The groups of a target are changed. -/
  | change (name : String) (change : List SummariseGroup → Except String (List SummariseGroup))
      (write : FileWrite)

/-- Request number `i` has come to a stage. -/
def put (s : GroupRun) (i : ℕ) (call : UpdateCall) (stage : UpdateStage) : GroupRun :=
  { s with calls := s.calls.set i { call with stage := stage } }

/-- The groups of a target go with it when it is renamed. -/
def rename (groups : String → Option (List SummariseGroup)) (old new : String) :
    String → Option (List SummariseGroup) :=
  Function.update (Function.update groups old none) new (groups old)

/-- A change was answered: as successful, or not. -/
def answered (s : GroupRun) (manager : Manager) (result : Except ManagerError Unit)
    (groups : String → Option (List SummariseGroup)) : GroupRun :=
  { s with
    manager := manager
    groups := match result with
      | .ok () => groups
      | .error _ => s.groups }

variable (x : ConfigCrates) (webListen : SocketAddr)

/-- One operation. -/
def step (s : GroupRun) : Op → Option GroupRun
  | .call name target => some { s with calls := s.calls ++ [{ name := name, target := target }] }
  | .read i =>
    s.calls[i]?.bind fun call =>
      match call.stage with
      | .arrived =>
        some (s.put i call (match s.manager.targets.find? (·.name = call.name) with
          | none => .done
          | some old => .read old))
      | _ => none
  | .update i starts write restarts =>
    s.calls[i]?.bind fun call =>
      match call.stage with
      | .read old =>
        let (result, manager) := s.manager.upsert x webListen (call.merged old) (some call.name)
          starts write restarts
        some ((s.answered manager result
          (rename s.groups call.name call.target.name)).put i call .done)
      | _ => none
  | .change name change write =>
    let (result, manager) := s.manager.updateSummarise x webListen name change write
    some (s.answered manager result (Function.update s.groups name
      ((s.groups name).bind fun groups => (change groups).toOption)))

/-! ## What is to hold -/

/-- The names and groups of targets. -/
def named (targets : List TargetConfig) : List (String × List SummariseGroup) :=
  targets.map fun t => (t.name, t.summarise)

/-- In memory, in the file and in the relays the groups are those that the successful changes have
made. -/
structure InForce (s : GroupRun) : Prop where
  memory : ∀ t ∈ s.manager.targets, s.groups t.name = some t.summarise
  file : named s.manager.file = named s.manager.targets
  running : ∀ name r, s.manager.running name = some r →
    ∃ groups, s.groups name = some groups ∧ r.lookup = Lookup.ofGroups x groups

/-- The groups that a request has read are those the target has now. -/
def Fresh (s : GroupRun) (name : String) (old : TargetConfig) : Prop :=
  ∀ t ∈ s.manager.targets, t.name = name → t.summarise = old.summarise

/-- An edit that takes effect has read the groups the target has now. One that fails behind the
stop of a relay has stopped one that was started with the groups it has; and what fails behind the
rename of the file has changed no names and groups. -/
def Current (s : GroupRun) : Op → Prop
  | .update i starts write restarts =>
    ∀ call old, s.calls[i]? = some call → call.stage = .read old →
      ∀ new, s.manager.planUpsert x webListen (call.merged old) (some call.name) = .ok new →
        if starts ∧ write = .ok then s.Fresh call.name old
        else
          (starts → write = .unsynced → call.target.name = call.name ∧ s.Fresh call.name old) ∧
            ∀ r, restarts → s.manager.running call.name = some r →
              Lookup.ofGroups x r.config.summarise = r.lookup
  | .change name change write =>
    ∀ result, s.manager.planSummarise x webListen name change = .ok result →
      write = .unsynced →
        ∀ t ∈ s.manager.targets, t.name = name → change t.summarise = .ok t.summarise
  | _ => True

/-- What every run keeps. -/
structure Inv (s : GroupRun) : Prop where
  nodup : (s.manager.targets.map (·.name)).Nodup
  keyed : Manager.Keyed s.manager

/-- The gateway after its start, with the relays that have started. -/
def load (targets : List TargetConfig) (starts : String → Bool) : GroupRun where
  manager := Manager.load x targets starts
  groups name := (targets.find? (·.name = name)).map (·.summarise)

variable {x webListen} {s t : GroupRun}

/-! ## One change -/

/-- The names and groups are what they were if the one target has its name and groups. -/
theorem named_setTarget_iff {old : String} (target : TargetConfig) {targets : List TargetConfig}
    (hnodup : (targets.map (·.name)).Nodup) (hold : ∃ t ∈ targets, t.name = old) :
    named (Manager.setTarget old target targets) = named targets ↔
      target.name = old ∧ ∀ t ∈ targets, t.name = old → t.summarise = target.summarise := by
  induction targets with
  | nil =>
    obtain ⟨t, ht, -⟩ := hold
    cases ht
  | cons t targets ih =>
    rw [List.map_cons, List.nodup_cons] at hnodup
    unfold Manager.setTarget
    by_cases hname : t.name = old
    · subst hname
      rw [if_pos rfl]
      have hother : ∀ u ∈ targets, u.name ≠ t.name :=
        fun u hu heq => hnodup.1 (heq ▸ List.mem_map_of_mem hu)
      simp only [named, List.map_cons, List.cons.injEq, Prod.mk.injEq, and_true,
        List.forall_mem_cons, forall_const]
      constructor
      · rintro ⟨hname, hsummarise⟩
        exact ⟨hname, hsummarise.symm, fun u hu heq => absurd heq (hother u hu)⟩
      · rintro ⟨hname, hsummarise, -⟩
        exact ⟨hname, hsummarise.symm⟩
    · rw [if_neg hname]
      have hold : ∃ t ∈ targets, t.name = old := by
        obtain ⟨u, hu, heq⟩ := hold
        rcases List.mem_cons.1 hu with rfl | hu
        · exact absurd heq hname
        · exact ⟨u, hu, heq⟩
      have ih := ih hnodup.2 hold
      simp only [named] at ih
      simp [named, ih, hname]

/-- Targets with one name are one target. -/
theorem Inv.eq_of_name_eq (h : Inv s) {u v : TargetConfig} (hu : u ∈ s.manager.targets)
    (hv : v ∈ s.manager.targets) (hname : u.name = v.name) : u = v :=
  List.inj_on_of_nodup_map h.nodup hu hv hname

/-- The new targets of an edit. -/
theorem planUpsert_eq_setTarget {m : Manager} {target : TargetConfig} {old : String}
    {new : List TargetConfig} (h : m.planUpsert x webListen target (some old) = .ok new) :
    new = Manager.setTarget old target m.targets ∧ ∃ t ∈ m.targets, t.name = old := by
  unfold Manager.planUpsert at h
  simp only at h
  split_ifs at h with hold
  exact ⟨(Manager.valid_eq_ok h).1.symm, by simpa using hold⟩

/-- An edit that fails behind the stop of the relay. -/
theorem inForce_iff_of_fails (h : Inv s) (hs : InForce x s) {call : UpdateCall}
    {old : TargetConfig} {new : List TargetConfig}
    (hplan : s.manager.planUpsert x webListen (call.merged old) (some call.name) = .ok new)
    {starts : Bool} {write : FileWrite} {restarts : Bool} {m : Manager}
    (htargets : m.targets = s.manager.targets)
    (hfile : m.file = if starts ∧ write = .unsynced then new else s.manager.file)
    (hrunning : ∀ name, m.running name = if some call.name = some name then
        if restarts then (s.manager.running name).map fun r => Running.start x r.config else none
      else s.manager.running name) (calls : List UpdateCall) :
    InForce x ⟨m, calls, s.groups⟩ ↔
      (starts → write = .unsynced → call.target.name = call.name ∧ s.Fresh call.name old) ∧
        ∀ r, restarts → s.manager.running call.name = some r →
          Lookup.ofGroups x r.config.summarise = r.lookup := by
  obtain ⟨rfl, hold⟩ := planUpsert_eq_setTarget hplan
  have hnamed := named_setTarget_iff (call.merged old) h.nodup hold
  constructor
  · rintro ⟨-, hnames, hlookups⟩
    simp only [hfile, htargets] at hnames
    refine ⟨fun hstarts hwrite => hnamed.1 ?_, fun r hrestarts hr => ?_⟩
    · rwa [if_pos ⟨hstarts, hwrite⟩] at hnames
    · obtain ⟨groups, hgroups, hlookup⟩ := hs.running call.name r hr
      have hagain : m.running call.name = some (.start x r.config) := by
        rw [hrunning, if_pos rfl, if_pos hrestarts, hr]
        rfl
      obtain ⟨groups', hgroups', hlookup'⟩ := hlookups call.name _ hagain
      obtain rfl : groups = groups' := Option.some.inj (hgroups.symm.trans hgroups')
      exact hlookup'.trans hlookup.symm
  · rintro ⟨hwritten, hlookup⟩
    refine ⟨fun u hu => hs.memory u (htargets ▸ hu), ?_, fun name r hr => ?_⟩
    · simp only [hfile, htargets]
      split_ifs with hwrite
      · exact hnamed.2 (hwritten hwrite.1 hwrite.2)
      · exact hs.file
    · simp only [hrunning, Option.some.injEq] at hr
      split_ifs at hr with hname hrestarts
      · subst hname
        obtain ⟨r', hr', rfl⟩ := Option.map_eq_some_iff.1 hr
        obtain ⟨groups, hgroups, heq⟩ := hs.running call.name r' hr'
        exact ⟨groups, hgroups, (hlookup r' hrestarts hr').trans heq⟩
      · exact hs.running name r hr

/-- An edit that takes effect. -/
theorem inForce_iff_of_succeeds (h : Inv s) (hs : InForce x s) {call : UpdateCall}
    {old : TargetConfig} {new : List TargetConfig}
    (hplan : s.manager.planUpsert x webListen (call.merged old) (some call.name) = .ok new)
    {m : Manager} (htargets : m.targets = new) (hfile : m.file = new)
    (hrunning : ∀ name, m.running name =
      if name = call.target.name then some (Running.start x (call.merged old))
      else if some call.name = some name then none
      else s.manager.running name) (calls : List UpdateCall) :
    InForce x ⟨m, calls, rename s.groups call.name call.target.name⟩ ↔
      s.Fresh call.name old := by
  obtain ⟨hnodup, hmem⟩ := Manager.planUpsert_eq_ok h.nodup hplan
  obtain ⟨-, target, htarget, hname⟩ := planUpsert_eq_setTarget hplan
  have hgroups : s.groups call.name = some target.summarise := hname ▸ hs.memory target htarget
  constructor
  · rintro ⟨hmemory, -, -⟩ u hu heq
    obtain rfl : u = target := h.eq_of_name_eq hu htarget (heq.trans hname.symm)
    have hmerged := hmemory (call.merged old) (htargets ▸ (hmem _).2 (.inl rfl))
    simp only [rename, UpdateCall.merged, Function.update_self, hgroups,
      Option.some.injEq] at hmerged
    exact hmerged
  · intro hfresh
    have hsummarise : target.summarise = old.summarise := hfresh target htarget hname
    refine ⟨fun u hu => ?_, by rw [hfile, htargets], fun name r hr => ?_⟩
    · simp only [htargets] at hu
      by_cases hnew : u.name = call.target.name
      · obtain rfl : u = call.merged old :=
          List.inj_on_of_nodup_map hnodup hu ((hmem _).2 (.inl rfl)) hnew
        simp [rename, UpdateCall.merged, hgroups, hsummarise]
      · rcases (hmem u).1 hu with rfl | ⟨hu, hne⟩
        · exact absurd rfl hnew
        · simp only [rename, Function.update_of_ne hnew, Function.update_of_ne (hne _ rfl)]
          exact hs.memory u hu
    · simp only [hrunning, Option.some.injEq] at hr
      split_ifs at hr with hnew hcall
      · cases hr
        subst hnew
        exact ⟨target.summarise, by simp [rename, hgroups], by rw [hsummarise]; rfl⟩
      · simp only [rename, Function.update_of_ne hnew, Function.update_of_ne (Ne.symm hcall)]
        exact hs.running name r hr

/-- The new targets of a change of groups. -/
theorem planSummarise_eq_setTarget {m : Manager} {name : String}
    {change : List SummariseGroup → Except String (List SummariseGroup)}
    {groups : List SummariseGroup} {new : List TargetConfig}
    (h : m.planSummarise x webListen name change = .ok (groups, new)) :
    ∃ target ∈ m.targets, target.name = name ∧ change target.summarise = .ok groups ∧
      new = Manager.setTarget name { target with summarise := groups } m.targets := by
  unfold Manager.planSummarise at h
  cases hfind : m.targets.find? (·.name = name) with
  | none =>
    rw [hfind] at h
    cases h
  | some target =>
    rw [hfind] at h
    simp only at h
    cases hchange : change target.summarise with
    | error e =>
      rw [hchange] at h
      cases h
    | ok groups' =>
      rw [hchange] at h
      simp only at h
      cases hvalid : Manager.valid x webListen
          (Manager.setTarget name { target with summarise := groups' } m.targets) with
      | error e =>
        rw [hvalid] at h
        cases h
      | ok new' =>
        rw [hvalid] at h
        cases h
        exact ⟨target, List.mem_of_find?_eq_some hfind, by simpa using List.find?_some hfind,
          hchange, (Manager.valid_eq_ok hvalid).1.symm⟩

/-- A change of groups that succeeds. -/
theorem inForce_of_changed (h : Inv s) (hs : InForce x s) {name : String}
    {change : List SummariseGroup → Except String (List SummariseGroup)}
    {groups : List SummariseGroup} {new : List TargetConfig}
    (hplan : s.manager.planSummarise x webListen name change = .ok (groups, new)) :
    InForce x ⟨{ s.manager with
        targets := new
        file := new
        running := Function.update s.manager.running name
          ((s.manager.running name).map fun r => { r with lookup := Lookup.ofGroups x groups }) },
      s.calls, Function.update s.groups name
        ((s.groups name).bind fun groups => (change groups).toOption)⟩ := by
  obtain ⟨-, target, htarget, rfl, hchange, hmem⟩ := Manager.planSummarise_eq_ok h.nodup hplan
  have hgroups : ((s.groups target.name).bind fun groups => (change groups).toOption) =
      some groups := by
    rw [hs.memory target htarget, Option.bind_some, hchange]
    rfl
  refine ⟨fun u hu => ?_, rfl, fun name r hr => ?_⟩
  · rcases (hmem u).1 hu with rfl | ⟨hu, hne⟩
    · simp only [Function.update_self, hgroups]
    · simp only [Function.update_of_ne hne]
      exact hs.memory u hu
  · by_cases hname : name = target.name
    · subst hname
      simp only [Function.update_self] at hr ⊢
      obtain ⟨r', -, rfl⟩ := Option.map_eq_some_iff.1 hr
      exact ⟨groups, hgroups, rfl⟩
    · simp only [Function.update_of_ne hname] at hr ⊢
      exact hs.running name r hr

/-- A change of groups that is not saved. -/
theorem inForce_written_iff (h : Inv s) (hs : InForce x s) {name : String}
    {change : List SummariseGroup → Except String (List SummariseGroup)}
    {groups : List SummariseGroup} {new : List TargetConfig}
    (hplan : s.manager.planSummarise x webListen name change = .ok (groups, new))
    {write : FileWrite} (hwrite : write ≠ .ok) :
    InForce x ⟨s.manager.written write new, s.calls, s.groups⟩ ↔
      (write = .unsynced →
        ∀ t ∈ s.manager.targets, t.name = name → change t.summarise = .ok t.summarise) := by
  obtain ⟨target, htarget, rfl, hchange, rfl⟩ := planSummarise_eq_setTarget hplan
  have hnamed := named_setTarget_iff { target with summarise := groups } h.nodup
    ⟨target, htarget, rfl⟩
  cases write with
  | ok => exact absurd rfl hwrite
  | failed => exact iff_of_true hs (fun hunsynced => nomatch hunsynced)
  | unsynced =>
    constructor
    · rintro ⟨-, hfile, -⟩ - u hu hname
      obtain rfl := h.eq_of_name_eq hu htarget hname
      exact hchange.trans (congrArg Except.ok ((hnamed.1 hfile).2 u hu rfl).symm)
    · intro hsame
      refine ⟨hs.memory, hnamed.2 ⟨rfl, fun u hu hname => ?_⟩, hs.running⟩
      obtain rfl := h.eq_of_name_eq hu htarget hname
      have := hchange.symm.trans (hsame rfl u hu rfl)
      cases this
      rfl

/-! ## Steps and runs -/

/-- An edit. -/
theorem inForce_update_iff (h : Inv s) (hs : InForce x s) {i : ℕ} {call : UpdateCall}
    {old : TargetConfig} (hcall : s.calls[i]? = some call) (hstage : call.stage = .read old)
    (starts : Bool) (write : FileWrite) (restarts : Bool) :
    (∀ t, s.step x webListen (.update i starts write restarts) = some t → InForce x t) ↔
      Current x webListen s (.update i starts write restarts) := by
  simp only [step, hcall, Option.bind_some, hstage, Option.some.injEq, forall_eq']
  have hcurrent : Current x webListen s (.update i starts write restarts) ↔
      ∀ new, s.manager.planUpsert x webListen (call.merged old) (some call.name) = .ok new →
        if starts ∧ write = .ok then s.Fresh call.name old
        else
          (starts → write = .unsynced → call.target.name = call.name ∧ s.Fresh call.name old) ∧
            ∀ r, restarts → s.manager.running call.name = some r →
              Lookup.ofGroups x r.config.summarise = r.lookup := by
    refine ⟨fun hall => hall call old hcall hstage, fun hall call' old' hcall' hstage' => ?_⟩
    obtain rfl : call = call' := Option.some.inj (hcall.symm.trans hcall')
    cases hstage.symm.trans hstage'
    exact hall
  rw [hcurrent]
  cases hplan : s.manager.planUpsert x webListen (call.merged old) (some call.name) with
  | error e =>
    rw [Manager.upsert_of_error hplan]
    exact iff_of_true ⟨hs.memory, hs.file, hs.running⟩ fun _ => nofun
  | ok new =>
    simp only [Except.ok.injEq, forall_eq']
    split_ifs with hok
    · obtain ⟨rfl, rfl⟩ := hok
      obtain ⟨m, hm, htargets, hfile, hrunning⟩ := Manager.upsert_of_succeeds hplan restarts
      rw [hm]
      exact inForce_iff_of_succeeds h hs hplan htargets hfile hrunning _
    · obtain ⟨e, hm⟩ := Manager.upsert_of_fails hplan hok restarts
      rw [hm]
      refine inForce_iff_of_fails h hs hplan ?_ ?_ ?_ _
      · exact (Manager.restore_targets ..).trans (Manager.stopOld_targets ..)
      · rfl
      · exact Manager.running_restore h.keyed (some call.name) restarts

/-- A change of groups. -/
theorem inForce_change_iff (h : Inv s) (hs : InForce x s) (name : String)
    (change : List SummariseGroup → Except String (List SummariseGroup)) (write : FileWrite) :
    (∀ t, s.step x webListen (.change name change write) = some t → InForce x t) ↔
      Current x webListen s (.change name change write) := by
  simp only [step, Option.some.injEq, forall_eq', Current]
  cases hplan : s.manager.planSummarise x webListen name change with
  | error e =>
    rw [Manager.updateSummarise_of_error hplan]
    exact iff_of_true ⟨hs.memory, hs.file, hs.running⟩ fun _ => nofun
  | ok result =>
    obtain ⟨groups, new⟩ := result
    simp only [Except.ok.injEq, forall_eq']
    rw [Manager.updateSummarise_eq hplan]
    split_ifs with hwrite
    · subst hwrite
      exact iff_of_true (inForce_of_changed h hs hplan) (fun hunsynced => nomatch hunsynced)
    · exact inForce_written_iff h hs hplan hwrite

/-- **When a step keeps the groups in force.** -/
theorem inForce_step_iff (h : Inv s) (hs : InForce x s) (op : Op) :
    (∀ t, s.step x webListen op = some t → InForce x t) ↔ Current x webListen s op := by
  cases op with
  | call name target =>
    refine iff_of_true ?_ trivial
    rintro t ⟨⟩
    exact ⟨hs.memory, hs.file, hs.running⟩
  | read i =>
    refine iff_of_true (fun t ht => ?_) trivial
    simp only [step] at ht
    obtain ⟨call, -, ht⟩ := Option.bind_eq_some_iff.1 ht
    split at ht
    · cases ht
      exact ⟨hs.memory, hs.file, hs.running⟩
    · cases ht
  | update i starts write restarts =>
    cases hcall : s.calls[i]? with
    | none =>
      refine iff_of_true (fun t ht => ?_) (fun call old hcall' => ?_)
      · simp [step, hcall] at ht
      · rw [hcall] at hcall'
        cases hcall'
    | some call =>
      cases hstage : call.stage with
      | read old => exact inForce_update_iff h hs hcall hstage starts write restarts
      | _ =>
        refine iff_of_true (fun t ht => ?_) (fun call' old hcall' hstage' => ?_)
        · simp [step, hcall, hstage] at ht
        · obtain rfl : call = call' := Option.some.inj (hcall.symm.trans hcall')
          cases hstage.symm.trans hstage'
  | change name change write => exact inForce_change_iff h hs name change write

/-- Every step keeps the invariant. -/
theorem inv_step (h : Inv s) {op : Op} (ht : s.step x webListen op = some t) : Inv t := by
  cases op with
  | call name target =>
    cases ht
    exact ⟨h.nodup, h.keyed⟩
  | read i =>
    simp only [step] at ht
    obtain ⟨call, -, ht⟩ := Option.bind_eq_some_iff.1 ht
    split at ht
    · cases ht
      exact ⟨h.nodup, h.keyed⟩
    · cases ht
  | update i starts write restarts =>
    simp only [step] at ht
    obtain ⟨call, -, ht⟩ := Option.bind_eq_some_iff.1 ht
    split at ht
    · next old _ =>
      cases ht
      exact ⟨Manager.nodup_perform h.nodup (.upsert (call.merged old) _ starts write restarts),
        Manager.keyed_perform h.keyed (.upsert (call.merged old) _ starts write restarts)⟩
    · cases ht
  | change name change write =>
    cases ht
    exact ⟨Manager.nodup_perform h.nodup (.updateSummarise name change write),
      Manager.keyed_perform h.keyed (.updateSummarise name change write)⟩

/-- The invariant holds when the gateway has started. -/
theorem inv_load {targets : List TargetConfig}
    (hvalid : validateTargets x webListen targets = .ok ()) (starts : String → Bool) :
    Inv (load x targets starts) :=
  ⟨nodup_of_validateTargets hvalid, (Manager.inv_load hvalid starts).keyed⟩

/-- The groups in force when the gateway has started. -/
theorem inForce_load {targets : List TargetConfig}
    (hvalid : validateTargets x webListen targets = .ok ()) (starts : String → Bool) :
    InForce x (load x targets starts) := by
  have hfind : ∀ t ∈ targets, targets.find? (·.name = t.name) = some t := by
    intro t ht
    cases hfind : targets.find? (·.name = t.name) with
    | none => simpa using List.find?_eq_none.1 hfind t ht
    | some u =>
      have hname : u.name = t.name := by simpa using List.find?_some hfind
      rw [List.inj_on_of_nodup_map (nodup_of_validateTargets hvalid)
        (List.mem_of_find?_eq_some hfind) ht hname]
  refine ⟨fun t ht => ?_, rfl, fun name r hr => ?_⟩
  · simp only [load, hfind t ht, Option.map_some]
  · simp only [load, Manager.load] at hr ⊢
    split_ifs at hr
    obtain ⟨t, hfind, rfl⟩ := Option.map_eq_some_iff.1 hr
    exact ⟨t.summarise, by rw [hfind]; rfl, rfl⟩

/-- **Groups in force**: over every run, every state has the groups that the successful changes have
made exactly if every edit works with the groups in force. -/
theorem inForce_iff {targets : List TargetConfig}
    (hvalid : validateTargets x webListen targets = .ok ()) (starts : String → Bool)
    (ops : List Op) :
    Machine.Meets (step x webListen)
        (fun s op => ∀ t, s.step x webListen op = some t → InForce x t) (load x targets starts)
        ops ↔
      Machine.Meets (step x webListen) (Current x webListen) (load x targets starts) ops := by
  refine Machine.meets_iff_of_invariant (I := fun s => Inv s ∧ InForce x s) (P := fun _ => True)
    (fun s op hs _ => inForce_step_iff hs.1 hs.2 op) ?_ (fun _ _ => trivial)
    ⟨inv_load hvalid starts, inForce_load hvalid starts⟩
  exact fun s op t hs _ hC ht => ⟨inv_step hs.1 ht, hC t ht⟩

/-! ## An edit that is overtaken -/

/-- An edit moves the target. -/
def movedPlc : TargetConfig := { Manager.plc with endpointUrl := "opc.tcp://plc2" }

/-- The life bit is summarised. -/
def summariseLifeBit : Op :=
  .change "plc" (fun groups => .ok (groups ++ [{ nodes := ["ns=3;i=2"] }])) .ok

/-- The edit reads the target, the group is added, and the target is replaced. -/
def overtaken : List Op :=
  [.call "plc" movedPlc, .read 0, summariseLifeBit, .update 0 true .ok true]

/-- The group is added before the edit reads the target. -/
theorem inForce_iff_movedPlc : Machine.Meets (step Manager.plainConfig Manager.webAddr)
    (fun s op => ∀ t, s.step Manager.plainConfig Manager.webAddr op = some t →
      InForce Manager.plainConfig t) (load Manager.plainConfig [Manager.plc] fun _ => true)
    [summariseLifeBit, .call "plc" movedPlc, .read 0, .update 0 true .ok true] := by
  refine (inForce_iff (by decide +kernel) _ _).2 ?_
  refine Machine.meets_cons_of_eq _ (fun _ _ hunsynced => nomatch hunsynced) rfl ?_
  refine Machine.meets_cons_of_eq _ trivial rfl ?_
  refine Machine.meets_cons_of_eq _ trivial rfl ?_
  refine ⟨fun call old hcall hstage new _ => ?_, fun _ _ => trivial⟩
  rw [if_pos ⟨rfl, rfl⟩]
  obtain rfl := Option.some.inj hcall
  obtain rfl := UpdateStage.read.inj hstage
  intro t ht _
  obtain rfl := List.mem_singleton.1 ht
  rfl

/-- **The group is taken back** by an edit that read the target before. -/
theorem change_reverted : ¬Machine.Meets (step Manager.plainConfig Manager.webAddr)
    (fun s op => ∀ t, s.step Manager.plainConfig Manager.webAddr op = some t →
      InForce Manager.plainConfig t) (load Manager.plainConfig [Manager.plc] fun _ => true)
    overtaken := by
  intro hmeets
  obtain ⟨-, hmeets⟩ := hmeets.2 _ rfl
  obtain ⟨-, hmeets⟩ := hmeets _ rfl
  obtain ⟨hforce, -⟩ := hmeets _ rfl
  have hmemory := (hforce _ rfl).memory _ (List.mem_singleton_self _)
  have hnodes := congrArg (Option.map fun groups => groups.length) hmemory
  revert hnodes
  decide +kernel

end GroupRun

end AuditGateway
