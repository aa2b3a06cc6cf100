import AuditGateway.Config.Target
import AuditGateway.Lib.Machine
import Mathlib.Logic.Function.Basic

set_option relaxedAutoImplicit false
set_option autoImplicit false

/-!
# The target manager

The configured targets are kept in memory, in the configuration file and in the relays that run. A
change holds the lock of the configuration from its beginning to its end. A target that is replaced
is stopped first; if the new one does not start or is not saved, the old one is started again, with
the configuration it was started with before. So summarise groups that were changed since are lost
from the running relay, although they are in the configuration.

## Main definitions

* `Running`, `Manager` — the relays that run, and the three copies of the targets.
* `Manager.upsert`, `Manager.updateSummarise`, `Manager.remove` — the changes.
* `Manager.Agree`, `Manager.Correct` — what a completed change is to leave behind.
* `Manager.Restorable` — the relay that is put back has the groups in force.

## Main results

* `Manager.correct_iff` — which runs keep the three copies in agreement.
* `Manager.groups_lost` — a failed change that takes the groups from the running relay.
-/

namespace AuditGateway

/-- How the writing of the configuration file ends. -/
inductive FileWrite
  | ok
  /-- Before the new file is in place. -/
  | failed
  /-- The new file is in place, but the directory is not flushed. -/
  | unsynced
  deriving DecidableEq

/-- A relay that runs: the configuration it was started with, and the lookup it matches writes
against. -/
structure Running where
  config : TargetConfig
  lookup : Lookup

/-- A relay is started. -/
def Running.start (x : ConfigCrates) (target : TargetConfig) : Running :=
  ⟨target, Lookup.ofGroups x target.summarise⟩

/-- What a relay does: its configuration but for the groups, and the lookup. -/
def Running.settings (r : Running) : TargetConfig × Lookup :=
  ({ r.config with summarise := [] }, r.lookup)

/-- What the relay of a target is to do. -/
def TargetConfig.settings (x : ConfigCrates) (t : TargetConfig) : TargetConfig × Lookup :=
  ({ t with summarise := [] }, Lookup.ofGroups x t.summarise)

/-- Why a change fails. -/
inductive ManagerError
  | unknownTarget (name : String)
  | invalid (e : TargetError)
  /-- The relay does not start. -/
  | start
  | write
  /-- The change of the groups itself fails. -/
  | change (e : String)

/-- The targets in memory and in the file, and the relays by the names of their targets. -/
structure Manager where
  targets : List TargetConfig
  file : List TargetConfig
  running : String → Option Running
  /-- The relays whose handles were replaced; they run on. -/
  dropped : List Running := []

namespace Manager

/-- The first target of a name is replaced. -/
def setTarget (old : String) (target : TargetConfig) : List TargetConfig → List TargetConfig
  | [] => []
  | t :: targets => if t.name = old then target :: targets else t :: setTarget old target targets

/-- The new file is in place, or the old one. A list that is written is read back as it is. -/
def written (s : Manager) (write : FileWrite) (targets : List TargetConfig) : Manager :=
  if write = .failed then s else { s with file := targets }

/-- A relay is put into the map; one that was there runs on. -/
def insert (s : Manager) (name : String) (r : Running) : Manager :=
  { s with
    running := Function.update s.running name (some r)
    dropped := s.dropped ++ (s.running name).toList }

/-- A relay is taken out of the map. -/
def take (s : Manager) (name : String) : Manager :=
  { s with running := Function.update s.running name none }

variable (x : ConfigCrates) (webListen : SocketAddr)

/-- New targets, if they are valid. -/
def valid (new : List TargetConfig) : Except ManagerError (List TargetConfig) :=
  match validateTargets x webListen new with
  | .error e => .error (.invalid e)
  | .ok () => .ok new

/-- The targets with a new one, or with one that takes the place of another. -/
def planUpsert (s : Manager) (target : TargetConfig) (replaces : Option String) :
    Except ManagerError (List TargetConfig) :=
  match replaces with
  | some old =>
    if s.targets.any (·.name = old) then valid x webListen (setTarget old target s.targets)
    else .error (.unknownTarget old)
  | none => valid x webListen (s.targets ++ [target])

/-- The old relay is started again as it was started before, if it can be. -/
def restore (s : Manager) (old : Option Running) (restarts : Bool) : Manager :=
  match old with
  | some r => if restarts then s.insert r.config.name (.start x r.config) else s
  | none => s

/-- The relay that is replaced is stopped. -/
def stopOld (s : Manager) : Option String → Manager
  | some name => s.take name
  | none => s

/-- The old relay is stopped and the new one started and saved; otherwise the old target is put
back as it was. -/
def finishUpsert (s : Manager) (target : TargetConfig) (replaces : Option String)
    (new : List TargetConfig) (starts : Bool) (write : FileWrite) (restarts : Bool) :
    Except ManagerError Unit × Manager :=
  let old := replaces.bind s.running
  let stopped := s.stopOld replaces
  if starts then
    let saved := stopped.written write new
    if write = .ok then
      (.ok (), { saved.insert target.name (.start x target) with targets := new })
    else (.error .write, saved.restore x old restarts)
  else (.error .start, stopped.restore x old restarts)

/-- Adds a target, or replaces the one called `replaces`. -/
def upsert (s : Manager) (target : TargetConfig) (replaces : Option String) (starts : Bool)
    (write : FileWrite) (restarts : Bool) : Except ManagerError Unit × Manager :=
  match s.planUpsert x webListen target replaces with
  | .error e => (.error e, s)
  | .ok new => s.finishUpsert x target replaces new starts write restarts

/-- The targets with the groups of one changed, and its groups. -/
def planSummarise (s : Manager) (name : String)
    (change : List SummariseGroup → Except String (List SummariseGroup)) :
    Except ManagerError (List SummariseGroup × List TargetConfig) :=
  match s.targets.find? (·.name = name) with
  | none => .error (.unknownTarget name)
  | some target =>
    match change target.summarise with
    | .error e => .error (.change e)
    | .ok groups =>
      (valid x webListen (setTarget name { target with summarise := groups } s.targets)).map
        fun new => (groups, new)

/-- Changes a target's summarise groups. The running relay goes on with the new ones. -/
def updateSummarise (s : Manager) (name : String)
    (change : List SummariseGroup → Except String (List SummariseGroup)) (write : FileWrite) :
    Except ManagerError Unit × Manager :=
  match s.planSummarise x webListen name change with
  | .error e => (.error e, s)
  | .ok (groups, new) =>
    let saved := s.written write new
    if write = .ok then
      (.ok (), { saved with
        targets := new
        running := Function.update s.running name
          ((s.running name).map fun r => { r with lookup := Lookup.ofGroups x groups }) })
    else (.error .write, saved)

/-- A target is removed, unless the file cannot be written. -/
def remove (s : Manager) (name : String) (write : FileWrite) : Except ManagerError Unit × Manager :=
  if s.targets.any (·.name = name) then
    let new := s.targets.filter (·.name ≠ name)
    let saved := s.written write new
    if write = .ok then (.ok (), { saved.take name with targets := new })
    else (.error .write, saved)
  else (.error (.unknownTarget name), s)

/-! ## Changes and runs -/

/-- A change, with how its steps end. -/
inductive Op
  | upsert (target : TargetConfig) (replaces : Option String) (starts : Bool) (write : FileWrite)
      (restarts : Bool)
  | updateSummarise (name : String)
      (change : List SummariseGroup → Except String (List SummariseGroup)) (write : FileWrite)
  | remove (name : String) (write : FileWrite)

/-- A change from its beginning to its end. -/
def perform (s : Manager) : Op → Except ManagerError Unit × Manager
  | .upsert target replaces starts write restarts =>
    s.upsert x webListen target replaces starts write restarts
  | .updateSummarise name change write => s.updateSummarise x webListen name change write
  | .remove name write => s.remove name write

/-- One step of the manager. -/
def step (s : Manager) (op : Op) : Option Manager := some (s.perform x webListen op).2

/-- The old relay of a failed change starts again. -/
def Op.Restarts : Op → Prop
  | .upsert _ _ _ _ restarts => restarts
  | _ => True

/-! ## What a change is to leave behind -/

/-- The three copies agree. -/
structure Agree (s : Manager) : Prop where
  file : s.file = s.targets
  running : ∀ name r, s.running name = some r →
    ∃ t ∈ s.targets, t.name = name ∧ r.settings = t.settings x

/-- Nothing has changed in the three copies. -/
structure Same (s t : Manager) : Prop where
  targets : t.targets = s.targets
  file : t.file = s.file
  running : ∀ name, (t.running name).map Running.settings = (s.running name).map Running.settings

/-- After the change the three copies agree, what ran and is still configured runs, and if the
change fails nothing has changed. -/
structure Correct (s : Manager) (op : Op) : Prop where
  agree : Agree x (s.perform x webListen op).2
  runs : ∀ name, (s.running name).isSome →
    (∃ t ∈ (s.perform x webListen op).2.targets, t.name = name) →
    ((s.perform x webListen op).2.running name).isSome
  same : ∀ e, (s.perform x webListen op).1 = .error e → Same s (s.perform x webListen op).2

/-- A change that fails behind the rename of the file has written what was there, and one that
fails behind the stop of a relay has stopped one that was started with the groups it has. -/
def Restorable (s : Manager) : Op → Prop
  | .upsert target replaces starts write _ =>
    ∀ new, s.planUpsert x webListen target replaces = .ok new → ¬(starts ∧ write = .ok) →
      (starts → write = .unsynced → new = s.file) ∧
        ∀ name r, replaces = some name → s.running name = some r →
          Lookup.ofGroups x r.config.summarise = r.lookup
  | .updateSummarise name change write =>
    ∀ groups new, s.planSummarise x webListen name change = .ok (groups, new) →
      write = .unsynced → new = s.file
  | .remove name write =>
    s.targets.any (·.name = name) → write = .unsynced →
      s.targets.filter (·.name ≠ name) = s.file

/-- The key of a relay is the name of its target. -/
def Keyed (s : Manager) : Prop := ∀ name r, s.running name = some r → r.config.name = name

/-- What every correct run keeps. -/
structure Inv (s : Manager) : Prop where
  agree : Agree x s
  nodup : (s.targets.map (·.name)).Nodup

variable {x webListen} {s t : Manager}

/-! ## Lists of targets -/

/-- What is among the targets when one was replaced. -/
theorem mem_setTarget {old : String} {target u : TargetConfig} {targets : List TargetConfig}
    (hnodup : (targets.map (·.name)).Nodup) (hold : ∃ t ∈ targets, t.name = old) :
    u ∈ setTarget old target targets ↔ u = target ∨ u ∈ targets ∧ u.name ≠ old := by
  induction targets with
  | nil =>
    obtain ⟨t, ht, -⟩ := hold
    cases ht
  | cons t targets ih =>
    rw [List.map_cons, List.nodup_cons] at hnodup
    unfold setTarget
    by_cases hname : t.name = old
    · rw [if_pos hname]
      -- no other target has the name
      have hother : ∀ u ∈ targets, u.name ≠ old := by
        intro u hu heq
        exact hnodup.1 (hname ▸ heq ▸ List.mem_map_of_mem hu)
      constructor
      · intro hu
        rcases List.mem_cons.1 hu with rfl | hu
        · exact .inl rfl
        · exact .inr ⟨List.mem_cons_of_mem _ hu, hother u hu⟩
      · rintro (rfl | ⟨hu, hne⟩)
        · exact List.mem_cons_self ..
        · rcases List.mem_cons.1 hu with rfl | hu
          · exact absurd hname hne
          · exact List.mem_cons_of_mem _ hu
    · rw [if_neg hname, List.mem_cons]
      have hold' : ∃ t ∈ targets, t.name = old := by
        obtain ⟨v, hv, heq⟩ := hold
        rcases List.mem_cons.1 hv with rfl | hv
        · exact absurd heq hname
        · exact ⟨v, hv, heq⟩
      rw [ih hnodup.2 hold', List.mem_cons]
      constructor
      · rintro (rfl | rfl | ⟨hu, hne⟩)
        · exact .inr ⟨.inl rfl, hname⟩
        · exact .inl rfl
        · exact .inr ⟨.inr hu, hne⟩
      · rintro (rfl | ⟨rfl | hu, hne⟩)
        · exact .inr (.inl rfl)
        · exact .inl rfl
        · exact .inr (.inr ⟨hu, hne⟩)

/-- Targets that are valid have distinct names. -/
theorem valid_eq_ok {new new' : List TargetConfig} (h : valid x webListen new = .ok new') :
    new = new' ∧ (new.map (·.name)).Nodup := by
  unfold valid at h
  split at h
  · cases h
  · next hvalid =>
    cases h
    exact ⟨rfl, nodup_of_validateTargets hvalid⟩

/-- What the new targets of a change are. -/
theorem planUpsert_eq_ok (hnodup : (s.targets.map (·.name)).Nodup) {target : TargetConfig}
    {replaces : Option String} {new : List TargetConfig}
    (h : s.planUpsert x webListen target replaces = .ok new) :
    (new.map (·.name)).Nodup ∧
      ∀ u, u ∈ new ↔ u = target ∨ u ∈ s.targets ∧ ∀ old, replaces = some old → u.name ≠ old := by
  unfold planUpsert at h
  cases replaces with
  | none =>
    obtain ⟨rfl, hvalid⟩ := valid_eq_ok h
    refine ⟨hvalid, fun u => ?_⟩
    simp [or_comm]
  | some old =>
    simp only at h
    split_ifs at h with hold
    obtain ⟨rfl, hvalid⟩ := valid_eq_ok h
    refine ⟨hvalid, fun u => ?_⟩
    rw [mem_setTarget hnodup (by simpa using hold)]
    simp

/-! ## What a change leaves behind -/

/-- Where the invariant holds, relays are found under the names of their targets. -/
theorem Inv.keyed (h : Inv x s) : Keyed s := by
  intro name r hr
  obtain ⟨t, -, rfl, hsettings⟩ := h.agree.running name r hr
  have hconfig := congrArg Prod.fst hsettings
  simpa [Running.settings, TargetConfig.settings] using congrArg TargetConfig.name hconfig

/-- What agrees stays in agreement where nothing changes. -/
theorem Agree.of_same (h : Agree x s) (hsame : Same s t) : Agree x t := by
  refine ⟨?_, fun name r hr => ?_⟩
  · rw [hsame.file, hsame.targets, h.file]
  · have hrunning := hsame.running name
    rw [hr, Option.map_some] at hrunning
    obtain ⟨r', hr', hsettings⟩ := Option.map_eq_some_iff.1 hrunning.symm
    rw [hsame.targets, ← hsettings]
    exact h.running name r' hr'

/-- A change that fails is correct if it leaves everything as it was. -/
theorem correct_iff_same (h : Inv x s) {op : Op} {e : ManagerError}
    (he : (s.perform x webListen op).1 = .error e) :
    Correct x webListen s op ↔ Same s (s.perform x webListen op).2 := by
  refine ⟨fun hcorrect => hcorrect.same e he, fun hsame => ⟨h.agree.of_same hsame, ?_, ?_⟩⟩
  · intro name hname _
    have hrunning := congrArg Option.isSome (hsame.running name)
    rwa [Option.isSome_map, Option.isSome_map, hname] at hrunning
  · exact fun _ _ => hsame

/-- A state is the same as itself. -/
theorem Same.refl (s : Manager) : Same s s := ⟨rfl, rfl, fun _ => rfl⟩

/-- The relay that was stopped runs again, as it was started before, if it starts. -/
theorem running_restore (h : Keyed s) (replaces : Option String) (restarts : Bool)
    (name : String) :
    ((s.stopOld replaces).restore x (replaces.bind s.running) restarts).running name =
      if replaces = some name then
        if restarts then (s.running name).map fun r => Running.start x r.config else none
      else s.running name := by
  cases replaces with
  | none => simp [stopOld, restore]
  | some old =>
    simp only [Option.bind_some, Option.some.injEq]
    by_cases hname : old = name
    · subst hname
      rw [if_pos rfl]
      cases hold : s.running old with
      | none => simp [stopOld, restore, take]
      | some r =>
        cases restarts with
        | false => simp [stopOld, restore, take]
        | true => simp [stopOld, restore, take, insert, h old r hold]
    · rw [if_neg hname]
      cases hold : s.running old with
      | none => simp [stopOld, restore, take, Function.update_of_ne (Ne.symm hname)]
      | some r =>
        cases restarts with
        | false => simp [stopOld, restore, take, Function.update_of_ne (Ne.symm hname)]
        | true =>
          simp [stopOld, restore, take, insert, h old r hold,
            Function.update_of_ne (Ne.symm hname)]

/-- Restarting the old relay does not change the targets. -/
@[simp] theorem restore_targets (s : Manager) (old : Option Running) (restarts : Bool) :
    (s.restore x old restarts).targets = s.targets := by
  unfold restore
  split
  · split_ifs <;> rfl
  · rfl

/-- Restarting the old relay does not change the file. -/
@[simp] theorem restore_file (s : Manager) (old : Option Running) (restarts : Bool) :
    (s.restore x old restarts).file = s.file := by
  unfold restore
  split
  · split_ifs <;> rfl
  · rfl

/-- Stopping the old relay does not change the targets. -/
@[simp] theorem stopOld_targets (s : Manager) (replaces : Option String) :
    (s.stopOld replaces).targets = s.targets := by
  cases replaces <;> rfl

/-- Stopping the old relay does not change the file. -/
@[simp] theorem stopOld_file (s : Manager) (replaces : Option String) :
    (s.stopOld replaces).file = s.file := by
  cases replaces <;> rfl

/-- What is put back is what was there, if the relay was started with the groups it has. -/
theorem same_restore_iff (h : Inv x s) (replaces : Option String) (file : List TargetConfig) :
    Same s { (s.stopOld replaces).restore x (replaces.bind s.running) true with file := file } ↔
      file = s.file ∧ ∀ name r, replaces = some name → s.running name = some r →
        Lookup.ofGroups x r.config.summarise = r.lookup := by
  constructor
  · rintro ⟨-, hfile, hrunning⟩
    refine ⟨hfile, fun name r hreplaces hr => ?_⟩
    have hname := hrunning name
    simp only [running_restore h.keyed, if_pos hreplaces, hr, Option.map_some, if_true,
      Option.some.injEq] at hname
    exact congrArg Prod.snd hname
  · rintro ⟨hfile, hlookup⟩
    refine ⟨by simp, hfile, fun name => ?_⟩
    simp only [running_restore h.keyed, if_true]
    split_ifs with hreplaces
    · cases hr : s.running name with
      | none => rfl
      | some r =>
        simp only [Option.map_some, Option.some.injEq]
        exact Prod.ext rfl (hlookup name r hreplaces hr)
    · rfl

/-- Restarting the old relay does not look at the file. -/
theorem restore_file_eq (s : Manager) (file : List TargetConfig) (old : Option Running)
    (restarts : Bool) : ({ s with file := file } : Manager).restore x old restarts =
      { s.restore x old restarts with file := file } := by
  unfold restore
  split
  · split_ifs <;> rfl
  · rfl

/-- An upsert whose targets are valid. -/
theorem upsert_eq {target : TargetConfig} {replaces : Option String} {new : List TargetConfig}
    (hplan : s.planUpsert x webListen target replaces = .ok new) (starts : Bool)
    (write : FileWrite) (restarts : Bool) :
    s.upsert x webListen target replaces starts write restarts =
      s.finishUpsert x target replaces new starts write restarts := by
  unfold upsert
  rw [hplan]

/-- An upsert whose targets are not. -/
theorem upsert_of_error {target : TargetConfig} {replaces : Option String} {e : ManagerError}
    (hplan : s.planUpsert x webListen target replaces = .error e) (starts : Bool)
    (write : FileWrite) (restarts : Bool) :
    s.upsert x webListen target replaces starts write restarts = (.error e, s) := by
  unfold upsert
  rw [hplan]

/-- What an upsert leaves behind that fails behind the stop of the old relay. -/
theorem upsert_of_fails {target : TargetConfig} {replaces : Option String}
    {new : List TargetConfig} (hplan : s.planUpsert x webListen target replaces = .ok new)
    {starts : Bool} {write : FileWrite} (hfails : ¬(starts ∧ write = .ok)) (restarts : Bool) :
    ∃ e, s.upsert x webListen target replaces starts write restarts =
      (.error e, { (s.stopOld replaces).restore x (replaces.bind s.running) restarts with
        file := if starts ∧ write = .unsynced then new else s.file }) := by
  rw [upsert_eq hplan]
  unfold finishUpsert
  cases starts with
  | false =>
    refine ⟨.start, Prod.ext rfl ?_⟩
    simp only [Bool.false_eq_true, false_and, if_false]
    rw [← stopOld_file s replaces, ← restore_file (x := x) (s.stopOld replaces)
      (replaces.bind s.running) restarts]
  | true =>
    cases write with
    | ok => exact absurd ⟨rfl, rfl⟩ hfails
    | failed =>
      refine ⟨.write, Prod.ext rfl ?_⟩
      rw [← stopOld_file s replaces, ← restore_file (x := x) (s.stopOld replaces)
        (replaces.bind s.running) restarts]
      rfl
    | unsynced => exact ⟨.write, Prod.ext rfl (restore_file_eq ..)⟩

/-- What an upsert leaves behind that succeeds. -/
theorem upsert_of_succeeds {target : TargetConfig} {replaces : Option String}
    {new : List TargetConfig} (hplan : s.planUpsert x webListen target replaces = .ok new)
    (restarts : Bool) :
    ∃ t : Manager, s.upsert x webListen target replaces true .ok restarts = (.ok (), t) ∧
      t.targets = new ∧ t.file = new ∧ ∀ name, t.running name =
        if name = target.name then some (Running.start x target)
        else if replaces = some name then none
        else s.running name := by
  refine ⟨_, upsert_eq hplan .., rfl, rfl, fun name => ?_⟩
  by_cases hname : name = target.name
  · subst hname
    rw [if_pos rfl]
    exact Function.update_self ..
  · rw [if_neg hname]
    refine (Function.update_of_ne hname _ _).trans ?_
    cases replaces with
    | none => rfl
    | some old =>
      simp only [Option.some.injEq]
      by_cases hold : old = name
      · subst hold
        rw [if_pos rfl]
        exact Function.update_self ..
      · rw [if_neg hold]
        exact Function.update_of_ne (Ne.symm hold) ..

/-- An upsert that fails behind the stop of the old relay. -/
theorem correct_iff_of_fails (h : Inv x s) {target : TargetConfig} {replaces : Option String}
    {new : List TargetConfig} (hplan : s.planUpsert x webListen target replaces = .ok new)
    {starts : Bool} {write : FileWrite} (hfails : ¬(starts ∧ write = .ok)) :
    Correct x webListen s (.upsert target replaces starts write true) ↔
      (starts → write = .unsynced → new = s.file) ∧ ∀ name r, replaces = some name →
        s.running name = some r → Lookup.ofGroups x r.config.summarise = r.lookup := by
  obtain ⟨e, hstate⟩ := upsert_of_fails hplan hfails true
  have hstate : s.perform x webListen (.upsert target replaces starts write true) =
      (.error e, _) := hstate
  rw [correct_iff_same h (congrArg Prod.fst hstate), congrArg Prod.snd hstate,
    same_restore_iff h]
  refine and_congr_left fun _ => ?_
  by_cases hwrite : starts ∧ write = .unsynced
  · rw [if_pos hwrite]
    exact ⟨fun hfile _ _ => hfile, fun hfile => hfile hwrite.1 hwrite.2⟩
  · rw [if_neg hwrite]
    exact ⟨fun _ hstarts hunsynced => absurd ⟨hstarts, hunsynced⟩ hwrite, fun _ => rfl⟩

/-- An upsert that succeeds. -/
theorem correct_of_succeeds (h : Inv x s) {target : TargetConfig} {replaces : Option String}
    {new : List TargetConfig} (hplan : s.planUpsert x webListen target replaces = .ok new)
    (restarts : Bool) : Correct x webListen s (.upsert target replaces true .ok restarts) := by
  obtain ⟨-, hmem⟩ := planUpsert_eq_ok h.nodup hplan
  obtain ⟨t, hstate, htargets, hfile, hrunning⟩ := upsert_of_succeeds hplan restarts
  have hstate : s.perform x webListen (.upsert target replaces true .ok restarts) = (.ok (), t) :=
    hstate
  refine ⟨?_, ?_, ?_⟩
  · rw [hstate]
    refine ⟨hfile.trans htargets.symm, fun name r hr => ?_⟩
    rw [hrunning] at hr
    rw [htargets]
    split_ifs at hr with hname hreplaces
    · cases hr
      exact ⟨target, (hmem target).2 (.inl rfl), hname.symm, rfl⟩
    · obtain ⟨u, hu, rfl, hsettings⟩ := h.agree.running name r hr
      refine ⟨u, (hmem u).2 (.inr ⟨hu, ?_⟩), rfl, hsettings⟩
      rintro old rfl rfl
      exact hreplaces rfl
  · rw [hstate, htargets]
    rintro name hname ⟨u, hu, rfl⟩
    rw [hrunning]
    split_ifs with htarget hreplaces
    · rfl
    · rcases (hmem u).1 hu with rfl | ⟨-, hne⟩
      · exact absurd rfl htarget
      · exact absurd rfl (hne _ hreplaces)
    · exact hname
  · rw [hstate]
    rintro e ⟨⟩

/-- What a change of groups makes of the targets. -/
theorem planSummarise_eq_ok (hnodup : (s.targets.map (·.name)).Nodup) {name : String}
    {change : List SummariseGroup → Except String (List SummariseGroup)}
    {groups : List SummariseGroup} {new : List TargetConfig}
    (h : s.planSummarise x webListen name change = .ok (groups, new)) :
    (new.map (·.name)).Nodup ∧ ∃ target ∈ s.targets, target.name = name ∧
      change target.summarise = .ok groups ∧
      ∀ u, u ∈ new ↔ u = { target with summarise := groups } ∨ u ∈ s.targets ∧ u.name ≠ name := by
  unfold planSummarise at h
  cases hfind : s.targets.find? (·.name = name) with
  | none =>
    rw [hfind] at h
    cases h
  | some target =>
    rw [hfind] at h
    simp only at h
    have htarget := List.mem_of_find?_eq_some hfind
    have hname : target.name = name := by simpa using List.find?_some hfind
    cases hchange : change target.summarise with
    | error e =>
      rw [hchange] at h
      cases h
    | ok groups' =>
      rw [hchange] at h
      simp only at h
      cases hvalid : valid x webListen
          (setTarget name { target with summarise := groups' } s.targets) with
      | error e =>
        rw [hvalid] at h
        cases h
      | ok new' =>
        rw [hvalid] at h
        cases h
        obtain ⟨rfl, hnew⟩ := valid_eq_ok hvalid
        exact ⟨hnew, target, htarget, hname, hchange, fun u =>
          mem_setTarget hnodup ⟨target, htarget, hname⟩⟩

/-- Two targets with one name are one target. -/
theorem Inv.eq_of_name_eq (h : Inv x s) {t u : TargetConfig} (ht : t ∈ s.targets)
    (hu : u ∈ s.targets) (hname : t.name = u.name) : t = u :=
  List.inj_on_of_nodup_map h.nodup ht hu hname

/-- What a change of groups leaves behind. -/
theorem updateSummarise_eq {name : String}
    {change : List SummariseGroup → Except String (List SummariseGroup)}
    {groups : List SummariseGroup} {new : List TargetConfig}
    (hplan : s.planSummarise x webListen name change = .ok (groups, new)) (write : FileWrite) :
    s.updateSummarise x webListen name change write =
      if write = .ok then
        (.ok (), { s with
          targets := new
          file := new
          running := Function.update s.running name
            ((s.running name).map fun r => { r with lookup := Lookup.ofGroups x groups }) })
      else (.error .write, s.written write new) := by
  unfold updateSummarise
  rw [hplan]
  cases write <;> rfl

/-- A change of groups that is refused. -/
theorem updateSummarise_of_error {name : String}
    {change : List SummariseGroup → Except String (List SummariseGroup)} {e : ManagerError}
    (hplan : s.planSummarise x webListen name change = .error e) (write : FileWrite) :
    s.updateSummarise x webListen name change write = (.error e, s) := by
  unfold updateSummarise
  rw [hplan]

/-- A change of groups that succeeds. -/
theorem correct_of_summarised (h : Inv x s) {name : String}
    {change : List SummariseGroup → Except String (List SummariseGroup)}
    {groups : List SummariseGroup} {new : List TargetConfig}
    (hplan : s.planSummarise x webListen name change = .ok (groups, new)) :
    Correct x webListen s (.updateSummarise name change .ok) := by
  obtain ⟨-, target, htarget, hname, -, hmem⟩ := planSummarise_eq_ok h.nodup hplan
  have hstate : s.perform x webListen (.updateSummarise name change .ok) = (.ok (), _) :=
    updateSummarise_eq hplan .ok
  refine ⟨?_, ?_, ?_⟩
  · rw [hstate]
    refine ⟨rfl, fun name' r hr => ?_⟩
    by_cases heq : name' = name
    · subst heq
      simp only [Function.update_self] at hr
      obtain ⟨r', hr', rfl⟩ := Option.map_eq_some_iff.1 hr
      obtain ⟨t, ht, hname', hsettings⟩ := h.agree.running name' r' hr'
      obtain rfl : t = target := h.eq_of_name_eq ht htarget (hname'.trans hname.symm)
      refine ⟨_, (hmem _).2 (.inl rfl), hname, ?_⟩
      have hconfig : r'.settings.1 = (t.settings x).1 := congrArg Prod.fst hsettings
      exact Prod.ext hconfig rfl
    · simp only [Function.update_of_ne heq] at hr
      obtain ⟨u, hu, rfl, hsettings⟩ := h.agree.running name' r hr
      exact ⟨u, (hmem u).2 (.inr ⟨hu, heq⟩), rfl, hsettings⟩
  · rw [hstate]
    intro name' hname' _
    by_cases heq : name' = name
    · subst heq
      simpa using hname'
    · simpa [Function.update_of_ne heq] using hname'
  · rw [hstate]
    rintro e ⟨⟩

/-- The file is what it was, or what was to be written. -/
theorem same_written_iff (s : Manager) (write : FileWrite) (hwrite : write ≠ .ok)
    (new : List TargetConfig) :
    Same s (s.written write new) ↔ (write = .unsynced → new = s.file) := by
  cases write with
  | ok => exact absurd rfl hwrite
  | failed => exact ⟨fun _ hunsynced => (nomatch hunsynced), fun _ => Same.refl s⟩
  | unsynced =>
    exact ⟨fun hsame _ => hsame.file, fun hfile => ⟨rfl, hfile rfl, fun _ => rfl⟩⟩

/-- A change of groups. -/
theorem correct_updateSummarise_iff (h : Inv x s) (name : String)
    (change : List SummariseGroup → Except String (List SummariseGroup)) (write : FileWrite) :
    Correct x webListen s (.updateSummarise name change write) ↔
      Restorable x webListen s (.updateSummarise name change write) := by
  cases hplan : s.planSummarise x webListen name change with
  | error e =>
    have hstate : s.perform x webListen (.updateSummarise name change write) = (.error e, s) :=
      updateSummarise_of_error hplan write
    rw [correct_iff_same h (congrArg Prod.fst hstate), congrArg Prod.snd hstate]
    refine ⟨fun _ groups new hok => ?_, fun _ => Same.refl s⟩
    rw [hplan] at hok
    cases hok
  | ok result =>
    obtain ⟨groups, new⟩ := result
    by_cases hwrite : write = .ok
    · subst hwrite
      exact ⟨fun _ _ _ _ hunsynced => (nomatch hunsynced), fun _ => correct_of_summarised h hplan⟩
    · have hstate : s.perform x webListen (.updateSummarise name change write) =
          (.error .write, s.written write new) :=
        (updateSummarise_eq hplan write).trans (if_neg hwrite)
      rw [correct_iff_same h (congrArg Prod.fst hstate), congrArg Prod.snd hstate,
        same_written_iff s write hwrite]
      constructor
      · rintro hfile groups' new' hok
        rw [hplan] at hok
        cases hok
        exact hfile
      · exact fun hall => hall groups new hplan

/-- A target is removed. -/
theorem correct_remove_iff (h : Inv x s) (name : String) (write : FileWrite) :
    Correct x webListen s (.remove name write) ↔ Restorable x webListen s (.remove name write) := by
  by_cases hany : s.targets.any (·.name = name)
  · by_cases hwrite : write = .ok
    · subst hwrite
      have hstate : s.perform x webListen (.remove name .ok) =
          (.ok (), { s.take name with
            targets := s.targets.filter (·.name ≠ name)
            file := s.targets.filter (·.name ≠ name) }) := by
        show s.remove name .ok = _
        unfold remove
        rw [if_pos hany]
        rfl
      refine ⟨fun _ _ hunsynced => (nomatch hunsynced), fun _ => ⟨?_, ?_, ?_⟩⟩
      · rw [hstate]
        refine ⟨rfl, fun name' r hr => ?_⟩
        by_cases heq : name' = name
        · subst heq
          simp [take] at hr
        · simp only [take, Function.update_of_ne heq] at hr
          obtain ⟨u, hu, rfl, hsettings⟩ := h.agree.running name' r hr
          exact ⟨u, by simp [hu, heq], rfl, hsettings⟩
      · rw [hstate]
        rintro name' hname' ⟨u, hu, rfl⟩
        simp only [List.mem_filter, decide_eq_true_eq, ne_eq] at hu
        simp only [take, Function.update_of_ne hu.2]
        exact hname'
      · rw [hstate]
        rintro e ⟨⟩
    · have hstate : s.perform x webListen (.remove name write) =
          (.error .write, s.written write (s.targets.filter (·.name ≠ name))) := by
        show s.remove name write = _
        unfold remove
        rw [if_pos hany]
        exact if_neg hwrite
      rw [correct_iff_same h (congrArg Prod.fst hstate), congrArg Prod.snd hstate,
        same_written_iff s write hwrite]
      exact ⟨fun hfile _ => hfile, fun hfile => hfile hany⟩
  · have hstate : s.perform x webListen (.remove name write) =
        (.error (.unknownTarget name), s) := by
      show s.remove name write = _
      unfold remove
      exact if_neg hany
    rw [correct_iff_same h (congrArg Prod.fst hstate), congrArg Prod.snd hstate]
    exact ⟨fun _ hany' => absurd hany' hany, fun _ => Same.refl s⟩

/-- **When a change is correct**: exactly if what it puts back is what was there. -/
theorem correct_iff_restorable (h : Inv x s) {op : Op} (hop : op.Restarts) :
    Correct x webListen s op ↔ Restorable x webListen s op := by
  cases op with
  | upsert target replaces starts write restarts =>
    obtain rfl : restarts = true := hop
    cases hplan : s.planUpsert x webListen target replaces with
    | error e =>
      have hstate : s.perform x webListen (.upsert target replaces starts write true) =
          (.error e, s) := upsert_of_error hplan starts write true
      rw [correct_iff_same h (congrArg Prod.fst hstate), congrArg Prod.snd hstate]
      refine ⟨fun _ new hok => ?_, fun _ => Same.refl s⟩
      rw [hplan] at hok
      cases hok
    | ok new =>
      by_cases hok : starts ∧ write = .ok
      · obtain ⟨rfl, rfl⟩ := hok
        exact ⟨fun _ _ _ hfails => absurd ⟨rfl, rfl⟩ hfails,
          fun _ => correct_of_succeeds h hplan true⟩
      · rw [correct_iff_of_fails h hplan hok]
        constructor
        · rintro hback new' hplan' -
          rw [hplan] at hplan'
          cases hplan'
          exact hback
        · exact fun hall => hall new hplan hok
  | updateSummarise name change write => exact correct_updateSummarise_iff h name change write
  | remove name write => exact correct_remove_iff h name write

/-! ## Runs -/

/-- Writing the file does not change the targets. -/
@[simp] theorem written_targets (s : Manager) (write : FileWrite) (new : List TargetConfig) :
    (s.written write new).targets = s.targets := by
  unfold written
  split_ifs <;> rfl

/-- Writing the file does not change the running relays. -/
@[simp] theorem written_running (s : Manager) (write : FileWrite) (new : List TargetConfig) :
    (s.written write new).running = s.running := by
  unfold written
  split_ifs <;> rfl

/-- The names stay different, also when a change fails. -/
theorem nodup_perform (h : (s.targets.map (·.name)).Nodup) (op : Op) :
    ((s.perform x webListen op).2.targets.map (·.name)).Nodup := by
  cases op with
  | upsert target replaces starts write restarts =>
    show ((s.upsert x webListen target replaces starts write restarts).2.targets.map _).Nodup
    unfold upsert
    split
    · exact h
    · next new hplan =>
      unfold finishUpsert
      split_ifs
      · exact (planUpsert_eq_ok h hplan).1
      · simpa using h
      · simpa using h
  | updateSummarise name change write =>
    show ((s.updateSummarise x webListen name change write).2.targets.map _).Nodup
    unfold updateSummarise
    split
    · exact h
    · next groups new hplan =>
      split_ifs
      · exact (planSummarise_eq_ok h hplan).1
      · simpa using h
  | remove name write =>
    show ((s.remove name write).2.targets.map _).Nodup
    unfold remove
    split_ifs
    · exact h.sublist (List.Sublist.map _ List.filter_sublist)
    · simpa using h
    · exact h

/-- What runs has the name it is found under. -/
theorem keyed_perform (h : Keyed s) (op : Op) : Keyed (s.perform x webListen op).2 := by
  intro name r hr
  cases op with
  | upsert target replaces starts write restarts =>
    simp only [perform] at hr
    cases hplan : s.planUpsert x webListen target replaces with
    | error e =>
      rw [upsert_of_error hplan] at hr
      exact h name r hr
    | ok new =>
      by_cases hok : starts ∧ write = .ok
      · obtain ⟨rfl, rfl⟩ := hok
        obtain ⟨m, hm, -, -, hrunning⟩ := upsert_of_succeeds hplan restarts
        rw [hm, hrunning] at hr
        split_ifs at hr with hname
        · cases hr
          exact hname.symm
        · exact h name r hr
      · obtain ⟨e, hm⟩ := upsert_of_fails hplan hok restarts
        rw [hm] at hr
        simp only [running_restore h] at hr
        split_ifs at hr
        · obtain ⟨r', hr', rfl⟩ := Option.map_eq_some_iff.1 hr
          exact h name r' hr'
        · exact h name r hr
  | updateSummarise name' change write =>
    simp only [perform] at hr
    cases hplan : s.planSummarise x webListen name' change with
    | error e =>
      rw [updateSummarise_of_error hplan] at hr
      exact h name r hr
    | ok result =>
      rw [updateSummarise_eq hplan] at hr
      split_ifs at hr
      · by_cases hname : name = name'
        · subst hname
          simp only [Function.update_self] at hr
          obtain ⟨r', hr', rfl⟩ := Option.map_eq_some_iff.1 hr
          exact h name r' hr'
        · simp only [Function.update_of_ne hname] at hr
          exact h name r hr
      · exact h name r (by simpa using hr)
  | remove name' write =>
    simp only [perform, remove] at hr
    split_ifs at hr
    · by_cases hname : name = name'
      · subst hname
        simp [take] at hr
      · simp only [take, Function.update_of_ne hname, written_running] at hr
        exact h name r hr
    · exact h name r (by simpa using hr)
    · exact h name r hr

/-- A gateway that has loaded its configuration; `starts` says which targets could be started. -/
def load (x : ConfigCrates) (targets : List TargetConfig) (starts : String → Bool) : Manager where
  targets := targets
  file := targets
  running name :=
    if starts name then (targets.find? (·.name = name)).map (Running.start x) else none

/-- The invariant holds when the gateway has started. -/
theorem inv_load {targets : List TargetConfig}
    (hvalid : validateTargets x webListen targets = .ok ()) (starts : String → Bool) :
    Inv x (load x targets starts) := by
  refine ⟨⟨rfl, fun name r hr => ?_⟩, nodup_of_validateTargets hvalid⟩
  simp only [load] at hr
  split_ifs at hr
  obtain ⟨t, hfind, rfl⟩ := Option.map_eq_some_iff.1 hr
  exact ⟨t, List.mem_of_find?_eq_some hfind, by simpa using List.find?_some hfind, rfl⟩

/-- **The three copies** over every run of changes: they agree behind every change, and every change
that fails leaves them as they were, exactly if the changes put back what was there. -/
theorem correct_iff {targets : List TargetConfig}
    (hvalid : validateTargets x webListen targets = .ok ()) (starts : String → Bool)
    {ops : List Op} (hops : ∀ op ∈ ops, op.Restarts) :
    Machine.Meets (step x webListen) (Correct x webListen) (load x targets starts) ops ↔
      Machine.Meets (step x webListen) (Restorable x webListen) (load x targets starts) ops := by
  refine Machine.meets_iff_of_invariant (I := Inv x) (P := Op.Restarts)
    (fun s op hs hop => correct_iff_restorable hs hop) ?_ hops (inv_load hvalid starts)
  rintro s op t hs - hcorrect ⟨⟩
  exact ⟨hcorrect.agree, nodup_perform hs.nodup op⟩

/-! ## A target with a group -/

/-- Only one text names a node. -/
def plainConfig : ConfigCrates where
  parseNodeId text := if text = "ns=3;i=2" then some ⟨3, .numeric 2⟩ else none
  escapeDebug text := text

/-- The target of the example. -/
def plc : TargetConfig :=
  { name := "plc", listen := ⟨"0.0.0.0:4841"⟩, endpointUrl := "opc.tcp://plc" }

/-- The address of the web interface. -/
def webAddr : SocketAddr := ⟨"127.0.0.1:8080"⟩

/-- The life bit is summarised. -/
def summariseLifeBit : Op :=
  .updateSummarise "plc" (fun groups => .ok (groups ++ [{ nodes := ["ns=3;i=2"] }])) .ok

/-- The target moves, and the new relay starts or not. -/
def movePlc (starts : Bool) : Op :=
  .upsert { plc with endpointUrl := "opc.tcp://plc2", summarise := [{ nodes := ["ns=3;i=2"] }] }
    (some "plc") starts .ok true

/-- The groups of a target, and its move. -/
theorem correct_iff_movePlc : Machine.Meets (step plainConfig webAddr)
    (Correct plainConfig webAddr) (load plainConfig [plc] fun _ => true)
    [summariseLifeBit, movePlc true] := by
  refine (correct_iff (by decide +kernel) _ (by simp [summariseLifeBit, movePlc, Op.Restarts])).2 ?_
  refine Machine.meets_cons_of_eq _ (fun _ _ _ hunsynced => nomatch hunsynced) rfl ?_
  exact ⟨fun _ _ hfails => absurd ⟨rfl, rfl⟩ hfails, fun _ _ => trivial⟩

/-- **The groups are lost**: the new relay does not start, and the old one runs again with the
groups it was started with. -/
theorem groups_lost : (∀ op ∈ [summariseLifeBit, movePlc false], op.Restarts) ∧
    ¬Machine.Meets (step plainConfig webAddr) (Correct plainConfig webAddr)
      (load plainConfig [plc] fun _ => true) [summariseLifeBit, movePlc false] := by
  refine ⟨by simp [summariseLifeBit, movePlc, Op.Restarts], fun hcorrect => ?_⟩
  obtain ⟨hcorrect, -⟩ := hcorrect.2 _ rfl
  have hrunning := (hcorrect.same _ (by rfl)).running "plc"
  have hnodes := congrArg (Option.map fun settings => settings.2.all) hrunning
  revert hnodes
  decide +kernel

end Manager

end AuditGateway
