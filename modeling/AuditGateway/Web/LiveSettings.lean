import Mathlib.Data.List.Perm.Basic
import AuditGateway.Web.ExportSettings
import AuditGateway.Web.Settings

set_option relaxedAutoImplicit false
set_option autoImplicit false

/-!
# Live settings and the configuration

Requests for the audit and the export settings change the configuration under its lock, and what
runs behind it: the audit settings in force are stored one by one, and the exporters are stopped in
one step and started in a later one. Two requests can do so in one order in the configuration and in
another live, so that the gateway does not do what its configuration says.

## Main definitions

* `LiveRun`, `LiveRun.step` — the requests for both sections, and the file.
* `LiveRun.Agree` — what runs is what is configured.
* `LiveRun.Timely` — what is applied is what is configured, or a request that will apply that is
  still to come.

## Main results

* `LiveRun.agree_of_run` — runs behind which the configuration is in force.
* `LiveRun.failOpen_runs` — a gateway that is configured to fail closed, and fails open.
-/

namespace AuditGateway

/-- The requests for both sections, and the audit section in the file. -/
structure LiveRun where
  audit : SettingsRun
  auditFile : AuditConfig
  exports : ExportChanges

/-- The section that a request puts into the configuration if it is saved. -/
def SettingsRun.writes (s : SettingsRun) : SettingsRun.Op → Option AuditConfig
  | .call _ => none
  | .run i event =>
    (s.calls[i]?.bind fun call =>
      match event, call.stage, call.request.body with
      | .update _, .arrived, .web new | .update _, .checked _ new, .mcp _ =>
        if call.request.isAdmin then some (s.config.change new) else none
      | _, _, _ => none).filter fun new => new.ignoredSummarySecs ≠ 0

/-- The section in the configuration is replaced. -/
def SettingsRun.Op.saves : SettingsRun.Op → Bool
  | .run _ (.update saves) => saves
  | _ => false

/-- A setting has the same value in two sections. -/
def Setting.SameAt (setting : Setting) (a b : AuditConfig) : Prop :=
  ∀ live : AuditLive, live.store a setting = live.store b setting

/-- A setting in force is that of a section. -/
def Setting.InForce (setting : Setting) (live : AuditLive) (config : AuditConfig) : Prop :=
  live.store config setting = live

/-- A request is still to store the value that a setting has in a section. -/
def SettingsCall.Stores (setting : Setting) (config : AuditConfig) (call : SettingsCall) : Prop :=
  ∃ old new rest, call.stage = .applying old new rest ∧ setting ∈ rest ∧ setting.SameAt new config

/-- A request that has put a section into the configuration is still to stop the exporters. -/
def ExportCall.Drains (section_ : Option QuestDbSection) (call : ExportCall) : Prop :=
  call.stage = .updated section_ ∨ call.stage = .prepared section_

/-- What a request that has stopped the exporters is still to start. -/
def ExportCall.starting (call : ExportCall) : List QuestDbSection :=
  match call.stage with
  | .drained q | .opened q => [q]
  | _ => []

namespace LiveRun

/-- What can happen. -/
inductive Op
  /-- `unsynced` says that an update that does not save fails behind the rename of the file. -/
  | audit (op : SettingsRun.Op) (unsynced : Bool)
  | exports (op : ExportChanges.Op)

variable (x : ServerCrates) (dataDir : String)

/-- The new section is in the file, or what was there. -/
def written (file : AuditConfig) (inPlace : Bool) : Option AuditConfig → AuditConfig
  | some new => if inPlace then new else file
  | none => file

/-- One operation. -/
def step (s : LiveRun) : Op → Option LiveRun
  | .audit op unsynced =>
    (s.audit.step op).map fun audit =>
      { s with
        audit := audit
        auditFile := written s.auditFile (op.saves || unsynced) (s.audit.writes op) }
  | .exports op => (s.exports.step x dataDir op).map fun exports => { s with exports := exports }

/-- A gateway that has loaded its configuration. -/
def load (config : AuditConfig) (section_ : Option QuestDbSection)
    (files : String → Option String) : LiveRun where
  audit := .init config
  auditFile := config
  exports := .load section_ files

/-! ## What is to hold -/

/-- All requests are answered. -/
structure Finished (s : LiveRun) : Prop where
  audit : ∀ call ∈ s.audit.calls,
    call.stage = .done ∨ ∃ old new, call.stage = .applying old new []
  exports : ∀ call ∈ s.exports.calls, ∃ result, call.stage = .done result

/-- What runs is what is configured, in memory and in the file. -/
structure Agree (s : LiveRun) : Prop where
  live : s.audit.live = .new s.audit.config
  auditFile : s.auditFile = s.audit.config
  exportFile : s.exports.file = s.exports.memory
  tasks : s.exports.tasks = s.exports.memory.toList

/-! ## Which runs -/

/-- A setting is stored as it is configured, or another request is still to do that; and an update
that fails behind the rename of the file has written what was there. -/
def TimelyAudit (s : SettingsRun) (file : AuditConfig) (unsynced : Bool) :
    SettingsRun.Op → Prop
  | .call _ => True
  | .run i (.update saves) =>
    ∀ new, s.writes (.run i (.update saves)) = some new → saves = false → unsynced → new = file
  | .run i .store => ∀ call old new setting rest, s.calls[i]? = some call →
    call.stage = .applying old new (setting :: rest) →
      setting.SameAt new s.config ∨ Machine.Others s.calls i (SettingsCall.Stores setting s.config)
  | .run _ .read => True

/-- The exporters that run and those that are still to be started, without those of a request, are
those of the configuration. -/
def ExportSettled (s : ExportChanges) (tasks starting : List QuestDbSection) : Prop :=
  (tasks ++ starting).Perm s.memory.toList

/-- When a request stops the exporters, its section is the one that is configured, and no other has
stopped them that is still to start its own; or another request whose section is configured is still
to stop them. A request does not fail behind the update but in that last case, or if what runs and
is still to be started without it is what is configured. And an update that fails behind the rename
of the file has written what was there. -/
def TimelyExport (s : ExportChanges) : ExportChanges.Op → Prop
  | .call _ _ => True
  | .run i event => ∀ call, s.calls[i]? = some call →
    match event, call.stage with
    | .update .unsynced, .placed section_ =>
      (section_.map (·.validate)).getD (.ok ()) = .ok () → section_ = s.file
    | .prepare, .updated section_ => ∀ e, s.sinks x section_ = .error e →
      Machine.Others s.calls i (ExportCall.Drains s.memory) ∨
        ExportSettled s s.tasks ((s.calls.eraseIdx i).flatMap (·.starting))
    | .drain, .prepared section_ =>
      Machine.Others s.calls i (ExportCall.Drains s.memory) ∨
        ExportSettled s section_.toList ((s.calls.eraseIdx i).flatMap (·.starting))
    | .openState ok, .drained _ => ¬(s.stateOpen ∨ ok) →
      Machine.Others s.calls i (ExportCall.Drains s.memory) ∨
        ExportSettled s s.tasks ((s.calls.eraseIdx i).flatMap (·.starting))
    | _, _ => True

/-- What is applied is what is configured, or a request that will apply that is still to come. -/
def Timely (s : LiveRun) : Op → Prop
  | .audit op unsynced => TimelyAudit s.audit s.auditFile unsynced op
  | .exports op => TimelyExport x s.exports op

/-- Every audit setting is in force or about to be, and the file is what is configured. -/
structure AuditInv (s : SettingsRun) (file : AuditConfig) : Prop where
  file : file = s.config
  settings : ∀ setting : Setting, setting.InForce s.live s.config ∨
    ∃ call ∈ s.calls, call.Stores setting s.config

/-- The exporters are right, or a request is still to stop them, and the file is what is
configured. -/
structure ExportInv (s : ExportChanges) : Prop where
  file : s.file = s.memory
  exporters : (∃ call ∈ s.calls, call.Drains s.memory) ∨
    ExportSettled s s.tasks (s.calls.flatMap (·.starting))

variable {x dataDir} {s t : LiveRun}

/-! ## The audit settings -/

section Audit

variable {a b : SettingsRun} {file config : AuditConfig} {setting : Setting}

/-- What is stored is in force. -/
theorem inForce_store {live : AuditLive} {new : AuditConfig} (h : setting.SameAt new config) :
    setting.InForce (live.store new setting) config := by
  have hsame := h (live.store new setting)
  have htwice : (live.store new setting).store new setting = live.store new setting := by
    cases setting <;> rfl
  exact hsame.symm.trans htwice

/-- Another setting that is in force stays in force. -/
theorem inForce_store_of_ne {live : AuditLive} {other : Setting} (hne : other ≠ setting)
    (h : other.InForce live config) (new : AuditConfig) :
    other.InForce (live.store new setting) config := by
  have hcomm : (live.store new setting).store config other =
      (live.store config other).store new setting := by
    cases setting <;> cases other <;> first | rfl | exact absurd rfl hne
  unfold Setting.InForce at h ⊢
  rw [hcomm, h]

/-- Settings that are all in force are those of the section. -/
theorem eq_new_of_inForce {live : AuditLive}
    (h : ∀ setting : Setting, setting.InForce live config) :
    live = .new config := by
  rw [← AuditLive.apply_eq_new live config]
  unfold AuditLive.apply Setting.all
  simp only [List.foldl_cons, List.foldl_nil]
  rw [show live.store config .failClosed = live from h _,
    show live.store config .recordOldValue = live from h _,
    show live.store config .retentionDays = live from h _,
    show live.store config .ignoredSummarySecs = live from h _]

/-- A request that was not to store anything goes on. -/
theorem stores_put {i : ℕ} {call : SettingsCall} (hcall : a.calls[i]? = some call)
    (hnot : ∀ old new rest, call.stage ≠ .applying old new rest) (stage : SettingsStage)
    (h : ∃ c ∈ a.calls, c.Stores setting config) :
    ∃ c ∈ (a.put i call stage).calls, c.Stores setting config := by
  rcases (Machine.exists_mem_iff hcall _).1 h with ⟨old, new, rest, hstage, -⟩ | hothers
  · exact absurd hstage (hnot old new rest)
  · exact (Machine.exists_mem_set_iff hcall _ _).2 (.inr hothers)

/-- A call that goes on keeps the invariant of the settings. -/
theorem AuditInv.put (h : AuditInv a file) {i : ℕ} {call : SettingsCall}
    (hcall : a.calls[i]? = some call) (hnot : ∀ old new rest, call.stage ≠ .applying old new rest)
    (stage : SettingsStage) : AuditInv (a.put i call stage) file :=
  ⟨h.file, fun setting => (h.settings setting).imp_right (stores_put hcall hnot stage)⟩

/-- The section is replaced, and its settings are to be stored. -/
theorem auditInv_putAudit (h : AuditInv a file) {i : ℕ} {call : SettingsCall}
    (hcall : a.calls[i]? = some call) (hnot : ∀ old new rest, call.stage ≠ .applying old new rest)
    {new : AuditConfig} {saves unsynced : Bool} {writes : Option AuditConfig}
    (hwrites : writes = (if call.request.isAdmin then some (a.config.change new) else none).filter
      fun new => new.ignoredSummarySecs ≠ 0)
    (htimely : ∀ new, writes = some new → saves = false → unsynced → new = file) :
    AuditInv (a.putAudit i call new saves) (written file (saves || unsynced) writes) := by
  have hput := h.put hcall hnot .done
  unfold SettingsRun.putAudit
  by_cases hadmin : call.request.isAdmin
  · by_cases hvalid : (a.config.change new).ignoredSummarySecs ≠ 0
    · rw [if_pos hadmin, Option.filter_some, if_pos (by simpa using hvalid)] at hwrites
      rw [hwrites, if_pos hadmin]
      cases hsaves : saves with
      | true =>
        -- every setting is to be stored by this request
        rw [if_pos ⟨hvalid, rfl⟩]
        refine ⟨rfl, fun setting => .inr ?_⟩
        refine (Machine.exists_mem_set_iff hcall _ _).2 (.inl ⟨_, _, _, rfl, ?_, fun _ => rfl⟩)
        cases setting <;> decide
      | false =>
        rw [if_neg fun hand => nomatch hand.2]
        refine ⟨?_, hput.settings⟩
        simp only [written, Bool.false_or]
        split_ifs with hunsynced
        · exact (htimely _ hwrites hsaves hunsynced).trans hput.file
        · exact hput.file
    · rw [if_pos hadmin, Option.filter_some, if_neg (by simpa using hvalid)] at hwrites
      rw [hwrites, if_pos hadmin, if_neg fun hand => hvalid hand.1]
      exact hput
  · rw [if_neg hadmin] at hwrites
    rw [hwrites, if_neg hadmin]
    exact hput

/-- A timely step keeps the invariant of the settings. -/
theorem auditInv_step (h : AuditInv a file) {op : SettingsRun.Op} {unsynced : Bool}
    (htimely : TimelyAudit a file unsynced op) (hb : a.step op = some b) :
    AuditInv b (written file (op.saves || unsynced) (a.writes op)) := by
  cases op with
  | call request =>
    cases hb
    refine ⟨h.file, fun setting => (h.settings setting).imp_right ?_⟩
    rintro ⟨c, hc, hstores⟩
    exact ⟨c, List.mem_append_left _ hc, hstores⟩
  | run i event =>
    obtain ⟨call, hcall, hb⟩ := Option.bind_eq_some_iff.1 hb
    generalize hstage : call.stage = stage at hb
    generalize hbody : call.request.body = body at hb
    unfold SettingsRun.runCall at hb
    split at hb
    · -- the configuration is read
      have hput := fun stage => h.put hcall (fun _ _ _ => hstage ▸ nofun) stage
      have hwrites : a.writes (.run i .read) = none := by simp [SettingsRun.writes, hcall]
      rw [hwrites]
      split_ifs at hb
      · split at hb
        · cases hb
          exact hput _
        · cases hb
          exact hput _
      · cases hb
        exact hput _
    · cases hb
      refine auditInv_putAudit h hcall (fun _ _ _ => hstage ▸ nofun) ?_ htimely
      simp [SettingsRun.writes, hcall, hstage, hbody]
    · cases hb
      refine auditInv_putAudit h hcall (fun _ _ _ => hstage ▸ nofun) ?_ htimely
      simp [SettingsRun.writes, hcall, hstage, hbody]
    · next old new setting rest _ =>
      cases hb
      have hwrites : a.writes (.run i .store) = none := by simp [SettingsRun.writes, hcall]
      rw [hwrites]
      refine ⟨h.file, fun other => ?_⟩
      have hset := Machine.exists_mem_set_iff hcall
        { call with stage := SettingsStage.applying old new rest } (·.Stores other a.config)
      have hsame := htimely call old new setting rest hcall hstage
      by_cases hother : other = setting
      · subst hother
        rcases hsame with hsame | hothers
        · exact .inl (inForce_store hsame)
        · exact .inr (hset.2 (.inr hothers))
      · rcases h.settings other with hforce | hstores
        · exact .inl (inForce_store_of_ne hother hforce new)
        · refine .inr (hset.2 ?_)
          rcases (Machine.exists_mem_iff hcall _).1 hstores with
            ⟨old', new', rest', hstage', hmem, hsame'⟩ | hothers
          · cases hstage.symm.trans hstage'
            rcases List.mem_cons.1 hmem with rfl | hmem
            · exact absurd rfl hother
            · exact .inl ⟨old, new, rest, rfl, hmem, hsame'⟩
          · exact .inr hothers
    · cases hb

end Audit

/-! ## The exporters -/

section Exports

variable {a b : ExportChanges} {i : ℕ} {call : ExportCall}

/-- What the requests are still to start, with one request in front. -/
theorem perm_starting (hcall : a.calls[i]? = some call) :
    (a.calls.flatMap (·.starting)).Perm
      (call.starting ++ (a.calls.eraseIdx i).flatMap (·.starting)) := by
  obtain ⟨hi, rfl⟩ := List.getElem?_eq_some_iff.1 hcall
  exact (List.getElem_cons_eraseIdx_perm hi).symm.flatMap_right _

/-- What they are still to start when one request has changed. -/
theorem perm_starting_set (hcall : a.calls[i]? = some call) (call' : ExportCall) :
    ((a.calls.set i call').flatMap (·.starting)).Perm
      (call'.starting ++ (a.calls.eraseIdx i).flatMap (·.starting)) := by
  obtain ⟨hi, -⟩ := List.getElem?_eq_some_iff.1 hcall
  exact (List.set_perm_cons_eraseIdx hi call').flatMap_right _

/-- A request goes on that stops or starts nothing more or less than before, or there is another
that is still to stop the exporters. -/
theorem exporters_set (hcall : a.calls[i]? = some call) (call' : ExportCall)
    {memory : Option QuestDbSection} {tasks : List QuestDbSection}
    (h : call'.Drains memory ∨ Machine.Others a.calls i (ExportCall.Drains memory) ∨
      (tasks ++ (call'.starting ++ (a.calls.eraseIdx i).flatMap (·.starting))).Perm
        memory.toList) :
    (∃ c ∈ a.calls.set i call', c.Drains memory) ∨
      (tasks ++ (a.calls.set i call').flatMap (·.starting)).Perm memory.toList := by
  rcases h with hdrains | hothers | hperm
  · exact .inl ((Machine.exists_mem_set_iff hcall _ _).2 (.inl hdrains))
  · exact .inl ((Machine.exists_mem_set_iff hcall _ _).2 (.inr hothers))
  · exact .inr (((perm_starting_set hcall call').append_left tasks).trans hperm)

/-- Where the exporters stand, seen from one request. -/
theorem ExportInv.cases (h : ExportInv a) (hcall : a.calls[i]? = some call) :
    call.Drains a.memory ∨ Machine.Others a.calls i (ExportCall.Drains a.memory) ∨
      (a.tasks ++ (call.starting ++ (a.calls.eraseIdx i).flatMap (·.starting))).Perm
        a.memory.toList := by
  rcases h.exporters with hdrains | hsettled
  · exact ((Machine.exists_mem_iff hcall _).1 hdrains).imp_right .inl
  · exact .inr (.inr (((perm_starting hcall).symm.append_left a.tasks).trans hsettled))

/-- Before the update, and when a request is refused. -/
theorem exportInv_quiet (h : ExportInv a) (hcall : a.calls[i]? = some call) {stage : ExportStage}
    (hquiet : ExportChanges.Quiet a b i call stage) : ExportInv b := by
  have hnone : ∀ c : ExportCall, ExportChanges.applying c.stage = false →
      (∀ section_, ¬c.Drains section_) ∧ c.starting = [] := by
    intro c happlying
    unfold ExportCall.Drains ExportCall.starting
    constructor
    · rintro section_ (hstage | hstage)
      · rw [hstage] at happlying
        cases happlying
      · rw [hstage] at happlying
        cases happlying
    · cases hstage : c.stage with
      | drained q | opened q =>
        rw [hstage] at happlying
        cases happlying
      | _ => rfl
  refine ⟨by rw [hquiet.file, hquiet.memory, h.file], ?_⟩
  unfold ExportSettled
  rw [hquiet.calls, hquiet.memory, hquiet.tasks]
  refine exporters_set hcall _ ?_
  rcases h.cases hcall with hdrains | hothers | hperm
  · exact absurd hdrains ((hnone call hquiet.before).1 _)
  · exact .inr (.inl hothers)
  · rw [(hnone call hquiet.before).2] at hperm
    rw [(hnone { call with stage := stage } hquiet.after).2]
    exact .inr (.inr hperm)

/-- The section is replaced under the lock. -/
theorem exportInv_update (h : ExportInv a) (hcall : a.calls[i]? = some call)
    {section_ : Option QuestDbSection} (hstage : call.stage = .placed section_) {write : FileWrite}
    (htimely : TimelyExport x a (.run i (.update write))) :
    ExportInv (a.update i call section_ write) := by
  have hrefuse : ∀ e, ExportInv (a.refuse i call e) :=
    fun e => exportInv_quiet h hcall ⟨rfl, rfl, rfl, rfl, by rw [hstage]; rfl, rfl⟩
  unfold ExportChanges.update
  split
  · exact hrefuse _
  · next hvalid =>
    cases write with
    | ok => exact ⟨rfl, exporters_set hcall _ (.inl (.inl rfl))⟩
    | failed => exact hrefuse _
    | unsynced =>
      have hsame := htimely call hcall
      rw [hstage] at hsame
      exact ⟨(hsame hvalid).trans (hrefuse .writeConfig).file, (hrefuse .writeConfig).exporters⟩

/-- A timely step keeps the invariant of the export. -/
theorem exportInv_step (h : ExportInv a) {op : ExportChanges.Op} (htimely : TimelyExport x a op)
    (hb : a.step x dataDir op = some b) : ExportInv b := by
  cases op with
  | call isAdmin input =>
    cases hb
    refine ⟨h.file, h.exporters.imp ?_ fun hsettled => ?_⟩
    · rintro ⟨c, hc, hdrains⟩
      exact ⟨c, List.mem_append_left _ hc, hdrains⟩
    · simpa [ExportSettled, ExportCall.starting] using hsettled
  | run i event =>
    obtain ⟨call, hcall, hb⟩ := Option.bind_eq_some_iff.1 hb
    have hsame := htimely call hcall
    generalize hstage : call.stage = stage at hb
    rw [hstage] at hsame
    have hcases := h.cases hcall
    unfold ExportChanges.runCall at hb
    split at hb
    · -- the section is read
      split_ifs at hb
      · cases hb
        exact exportInv_quiet h hcall ⟨rfl, rfl, rfl, rfl, by rw [hstage]; rfl, rfl⟩
      · cases hb
        exact exportInv_quiet h hcall ⟨rfl, rfl, rfl, rfl, by rw [hstage]; rfl, rfl⟩
    · cases hb
      obtain ⟨stage, hquiet, -⟩ := ExportChanges.turn_writeCa (x := x) hstage _
      exact exportInv_quiet h hcall hquiet
    · split at hb
      · cases hb
        exact exportInv_quiet h hcall ⟨rfl, rfl, rfl, rfl, by rw [hstage]; rfl, rfl⟩
      · cases hb
        exact exportInv_quiet h hcall ⟨rfl, rfl, rfl, rfl, by rw [hstage]; rfl, rfl⟩
    · cases hb
      obtain ⟨stage, hquiet, -⟩ := ExportChanges.turn_placeCa (x := x) hstage _
      exact exportInv_quiet h hcall hquiet
    · cases hb
      exact exportInv_update h hcall hstage htimely
    · -- the new exporter is made
      simp only [ExportCall.Drains, ExportCall.starting, hstage, reduceCtorEq, or_false,
        ExportStage.updated.injEq] at hcases
      split at hb
      · next e hsinks =>
        cases hb
        exact ⟨h.file, exporters_set hcall _ (.inr (hsame e hsinks))⟩
      · cases hb
        refine ⟨h.file, exporters_set hcall _ (hcases.imp_left fun hmemory => ?_)⟩
        rw [hmemory]
        exact .inr rfl
    · -- the exporters are stopped
      next section_ _ =>
      cases hb
      refine ⟨h.file, exporters_set hcall _ (.inr (hsame.imp_right fun hsettled => ?_))⟩
      cases section_ with
      | none => exact hsettled
      | some q => exact hsettled
    · -- the positions are opened
      simp only [ExportCall.Drains, ExportCall.starting, hstage, reduceCtorEq, or_false,
        false_or] at hcases
      split_ifs at hb with hopen
      · cases hb
        exact ⟨h.file, exporters_set hcall _ (.inr hcases)⟩
      · cases hb
        exact ⟨h.file, exporters_set hcall _ (.inr (hsame hopen))⟩
    · -- the new exporter is started
      next q _ =>
      cases hb
      simp only [ExportCall.Drains, ExportCall.starting, hstage, reduceCtorEq, or_false,
        false_or] at hcases
      refine ⟨h.file, exporters_set hcall _ (.inr (hcases.imp_right fun hperm => ?_))⟩
      show (a.tasks ++ [q] ++ ([] ++ (a.calls.eraseIdx i).flatMap ExportCall.starting)).Perm _
      rw [List.nil_append, List.append_assoc]
      exact hperm
    · cases hb

end Exports

/-! ## Runs -/

/-- A timely step keeps both invariants. -/
theorem inv_step {op : Op} (h : AuditInv s.audit s.auditFile ∧ ExportInv s.exports)
    (htimely : Timely x s op) (ht : s.step x dataDir op = some t) :
    AuditInv t.audit t.auditFile ∧ ExportInv t.exports := by
  cases op with
  | audit op unsynced =>
    obtain ⟨audit, haudit, rfl⟩ := Option.map_eq_some_iff.1 ht
    exact ⟨auditInv_step h.1 htimely haudit, h.2⟩
  | exports op =>
    obtain ⟨exports, hexports, rfl⟩ := Option.map_eq_some_iff.1 ht
    exact ⟨h.1, exportInv_step h.2 htimely hexports⟩

/-- Both invariants hold at the start. -/
theorem inv_load (config : AuditConfig) (section_ : Option QuestDbSection)
    (files : String → Option String) :
    AuditInv (load config section_ files).audit (load config section_ files).auditFile ∧
      ExportInv (load config section_ files).exports := by
  refine ⟨⟨rfl, fun setting => .inl ?_⟩, rfl, .inr ?_⟩
  · cases setting <;> rfl
  · simp [ExportSettled, load, ExportChanges.load]

/-- When nothing is in progress, what is about to be in force is. -/
theorem agree_of_inv (h : AuditInv s.audit s.auditFile ∧ ExportInv s.exports)
    (hfinished : Finished s) : Agree s := by
  refine ⟨eq_new_of_inForce fun setting => ?_, h.1.file, h.2.file, ?_⟩
  · rcases h.1.settings setting with hforce | ⟨call, hcall, old, new, rest, hstage, hmem, -⟩
    · exact hforce
    · rcases hfinished.audit call hcall with hdone | ⟨old', new', hstored⟩
      · cases hstage.symm.trans hdone
      · cases hstage.symm.trans hstored
        cases hmem
  · have hstarting : s.exports.calls.flatMap (·.starting) = [] := by
      refine List.flatMap_eq_nil_iff.2 fun call hcall => ?_
      obtain ⟨result, hdone⟩ := hfinished.exports call hcall
      simp only [ExportCall.starting, hdone]
    rcases h.2.exporters with ⟨call, hcall, hdrains⟩ | hsettled
    · obtain ⟨result, hdone⟩ := hfinished.exports call hcall
      rcases hdrains with hstage | hstage
      · cases hstage.symm.trans hdone
      · cases hstage.symm.trans hdone
    · unfold ExportSettled at hsettled
      rw [hstarting, List.append_nil] at hsettled
      cases hmemory : s.exports.memory with
      | none =>
        rw [hmemory] at hsettled
        exact hsettled.eq_nil
      | some q =>
        rw [hmemory] at hsettled
        exact List.perm_singleton.1 hsettled

/-- **What runs is what is configured** when all requests are answered, in every run in which what
is applied is what is configured, or a request that will apply that is still to come. -/
theorem agree_of_run {config : AuditConfig} {section_ : Option QuestDbSection}
    {files : String → Option String} {ops : List Op}
    (hops : Machine.Meets (step x dataDir) (Timely x) (load config section_ files) ops)
    (hrun : Machine.run (step x dataDir) (load config section_ files) ops = some t)
    (hfinished : Finished t) : Agree t := by
  refine agree_of_inv ?_ hfinished
  exact Machine.run_invariant_of_meets (fun _ _ _ hs hop ht => inv_step hs hop ht)
    (inv_load config section_ files) hops hrun

/-! ## Two requests for the fail mode -/

/-- An administrator asks for a fail mode. -/
def askFailMode (mode : FailMode) : Op :=
  .audit (.call { isAdmin := true, body := .web { failMode := mode } }) false

/-- The configuration of a request is saved. -/
def saveAudit (i : ℕ) : Op := .audit (.run i (.update true)) false

/-- The settings are stored one by one. -/
def store (i : ℕ) (rest : List Setting) : List Op :=
  List.replicate rest.length (.audit (.run i .store) false)

/-- A gateway with requests for both sections. -/
def serving (exports : ExportChanges) (config : AuditConfig) (live : AuditLive)
    (calls : List SettingsCall) : LiveRun where
  audit := ⟨config, live, calls⟩
  auditFile := config
  exports := exports

/-- A request of an administrator for a fail mode. -/
def asking (mode : FailMode) (stage : SettingsStage) : SettingsCall where
  request := ⟨true, .web { failMode := mode }⟩
  stage := stage

section Serving

variable {exports : ExportChanges} {config old new : AuditConfig} {live : AuditLive}
  {calls : List SettingsCall} {i : ℕ}

/-- One store. -/
theorem step_store {call : SettingsCall} {setting : Setting} {rest : List Setting}
    (hcall : calls[i]? = some call) (hstage : call.stage = .applying old new (setting :: rest)) :
    (serving exports config live calls).step x dataDir (.audit (.run i .store) false) =
      some (serving exports config (live.store new setting)
        (calls.set i { call with stage := .applying old new rest })) := by
  have haudit : (serving exports config live calls).audit.step (.run i .store) =
      some ⟨config, live.store new setting,
        calls.set i { call with stage := .applying old new rest }⟩ := by
    simp only [SettingsRun.step, serving, hcall, Option.bind_some, hstage]
    rfl
  have hwrites : (serving exports config live calls).audit.writes (.run i .store) = none := by
    simp [SettingsRun.writes, serving, hcall]
  simp only [step, haudit, Option.map_some, hwrites, written]
  rfl

/-- All stores of a request, if nothing comes between. -/
theorem run_store (call : SettingsCall) {rest : List Setting} (hcall : calls[i]? = some call)
    (hstage : call.stage = .applying old new rest) :
    Machine.run (step x dataDir) (serving exports config live calls) (store i rest) =
      some (serving exports config (rest.foldl (·.store new) live)
        (calls.set i { call with stage := .applying old new [] })) := by
  induction rest generalizing live calls call with
  | nil =>
    have hset : calls.set i { call with stage := .applying old new [] } = calls := by
      obtain ⟨hi, hget⟩ := List.getElem?_eq_some_iff.1 hcall
      rw [← hstage, ← hget]
      exact List.set_getElem_self hi
    rw [hset]
    rfl
  | cons setting rest ih =>
    refine (Machine.run_cons_eq_some _).2 ⟨_, step_store hcall hstage, ?_⟩
    have hnext : (calls.set i { call with stage := .applying old new rest })[i]? =
        some { call with stage := .applying old new rest } := by
      rw [List.getElem?_set_self', hcall]
      rfl
    have hrest := @ih (live.store new setting) _ _ hnext rfl
    rwa [List.set_set] at hrest

/-- The stores of a request whose section is the one that is configured, or of one behind which
another request is still to store that. -/
theorem meets_store (call : SettingsCall) {rest : List Setting} (hcall : calls[i]? = some call)
    (hstage : call.stage = .applying old new rest)
    (h : ∀ setting ∈ rest, setting.SameAt new config ∨
      Machine.Others calls i (SettingsCall.Stores setting config)) :
    Machine.Meets (step x dataDir) (Timely x) (serving exports config live calls)
      (store i rest) := by
  induction rest generalizing live calls call with
  | nil => trivial
  | cons setting rest ih =>
    have hnext : (calls.set i { call with stage := .applying old new rest })[i]? =
        some { call with stage := .applying old new rest } := by
      rw [List.getElem?_set_self', hcall]
      rfl
    refine Machine.meets_cons_of_eq _ ?_ (step_store hcall hstage)
      (ih _ hnext rfl fun other hother => ?_)
    · intro call' old' new' setting' rest' hcall' hstage'
      obtain rfl := Option.some.inj (hcall.symm.trans hcall')
      cases hstage.symm.trans hstage'
      exact h setting (List.mem_cons_self ..)
    · rw [Machine.others_set_iff]
      exact h other (List.mem_cons_of_mem _ hother)

/-- A request is saved. -/
theorem step_saveAudit {mode : FailMode} (hcall : calls[i]? = some (asking mode .arrived)) :
    (serving exports config live calls).step x dataDir (saveAudit i) =
      some (serving exports (config.change { failMode := mode }) live
        (calls.set i (asking mode
          (.applying config (config.change { failMode := mode }) Setting.all)))) := by
  have haudit : (serving exports config live calls).audit.step (.run i (.update true)) =
      some ⟨config.change { failMode := mode }, live, calls.set i (asking mode
        (.applying config (config.change { failMode := mode }) Setting.all))⟩ := by
    simp only [SettingsRun.step, serving, hcall, Option.bind_some]
    rfl
  have hwrites : (serving exports config live calls).audit.writes (.run i (.update true)) =
      some (config.change { failMode := mode }) := by
    simp [SettingsRun.writes, serving, hcall, asking, AuditConfig.change]
  simp only [step, saveAudit, haudit, Option.map_some, hwrites, written]
  rfl

/-- A request arrives. -/
theorem step_ask (mode : FailMode) :
    (serving exports config live calls).step x dataDir (askFailMode mode) =
      some (serving exports config live (calls ++ [asking mode .arrived])) := rfl

/-- A request for the export goes on. -/
theorem step_exports {after : ExportChanges} {op : ExportChanges.Op}
    (h : exports.step x dataDir op = some after) :
    (serving exports config live calls).step x dataDir (.exports op) =
      some (serving after config live calls) := by
  simp only [step, serving, h, Option.map_some]

end Serving

/-- Two requests arrive and are saved. -/
def bothSaved : List Op :=
  [askFailMode .failOpen, askFailMode .failClosed, saveAudit 0, saveAudit 1]

/-- The requests behind that, which have come to some settings. -/
def bothSaving (first second : List Setting) : List SettingsCall :=
  [asking .failOpen (.applying {} {} first),
    asking .failClosed (.applying {} { failMode := .failClosed } second)]

/-- They are both saved before they store anything. -/
theorem meets_bothSaved (exports : ExportChanges) :
    Machine.Meets (step x dataDir) (Timely x) (serving exports {} (.new {}) []) bothSaved ∧
      Machine.run (step x dataDir) (serving exports {} (.new {}) []) bothSaved =
        some (serving exports { failMode := .failClosed } (.new {})
          (bothSaving Setting.all Setting.all)) :=
  Machine.meets_run_cons _ trivial (step_ask .failOpen) <|
    Machine.meets_run_cons _ trivial (step_ask .failClosed) <|
      Machine.meets_run_cons _ (fun _ _ hsaves => nomatch hsaves) (step_saveAudit rfl) <|
        Machine.meets_run_cons _ (fun _ _ hsaves => nomatch hsaves) (step_saveAudit rfl)
          ⟨trivial, rfl⟩

/-- A request turns the export off in the configuration. -/
def turnOff : List Op :=
  [.exports (.call true none), .exports (.run 0 .read), .exports (.run 0 (.writeCa .ok)),
    .exports (.run 0 .check), .exports (.run 0 (.placeCa true)), .exports (.run 0 (.update .ok)),
    .exports (.run 0 .prepare)]

/-- The exporters that run, and a request without a section that has come to a stage. -/
def turningOff (tasks : List QuestDbSection) (stage : ExportStage) : ExportChanges :=
  ⟨none, none, fun _ => none, tasks, true, [⟨true, none, stage⟩]⟩

section TurnOff

variable (q : QuestDbSection) (config : AuditConfig) (live : AuditLive) (calls : List SettingsCall)

/-- Up to where it stops the exporters. -/
theorem meets_turnOff :
    Machine.Meets (step x dataDir) (Timely x)
        (serving (.load (some q) fun _ => none) config live calls) turnOff ∧
      Machine.run (step x dataDir) (serving (.load (some q) fun _ => none) config live calls)
        turnOff = some (serving (turningOff [q] (.prepared none)) config live calls) := by
  refine Machine.meets_run_cons _ trivial (step_exports rfl) ?_
  refine Machine.meets_run_cons _ ?_ (step_exports rfl) ?_
  · rintro call ⟨⟩
    trivial
  refine Machine.meets_run_cons _ ?_ (step_exports rfl) ?_
  · rintro call ⟨⟩
    trivial
  refine Machine.meets_run_cons _ ?_ (step_exports rfl) ?_
  · rintro call ⟨⟩
    trivial
  refine Machine.meets_run_cons _ ?_ (step_exports rfl) ?_
  · rintro call ⟨⟩
    trivial
  refine Machine.meets_run_cons _ ?_ (step_exports rfl) ?_
  · rintro call ⟨⟩
    trivial
  refine Machine.meets_run_cons _ ?_ (step_exports rfl) ⟨trivial, rfl⟩
  -- no exporter is made for no section
  rintro call ⟨⟩ e ⟨⟩

/-- It stops them. -/
theorem meets_drain :
    Machine.Meets (step x dataDir) (Timely x)
        (serving (turningOff [q] (.prepared none)) config live calls)
        [.exports (.run 0 .drain)] ∧
      Machine.run (step x dataDir) (serving (turningOff [q] (.prepared none)) config live calls)
        [.exports (.run 0 .drain)] =
          some (serving (turningOff [] (.done (.ok ()))) config live calls) := by
  refine Machine.meets_run_cons _ ?_ (step_exports rfl) ⟨trivial, rfl⟩
  rintro call ⟨⟩
  exact .inr (List.Perm.refl _)

end TurnOff

/-- Two requests for the fail mode store in the order in which they were saved, and the export is
turned off between their steps. -/
def inTurn : List Op :=
  bothSaved ++ (turnOff ++ (store 0 Setting.all ++ ([.exports (.run 0 .drain)] ++
    store 1 Setting.all)))

variable (x dataDir) in
/-- Every step applies what is configured, or another request is still to do that. -/
theorem meets_inTurn (q : QuestDbSection) :
    Machine.Meets (step x dataDir) (Timely x) (load {} (some q) fun _ => none) inTurn ∧
      Machine.run (step x dataDir) (load {} (some q) fun _ => none) inTurn =
        some (serving (turningOff [] (.done (.ok ()))) { failMode := .failClosed }
          (.new { failMode := .failClosed }) (bothSaving [] [])) := by
  have hfirst : Machine.Meets (step x dataDir) (Timely x)
      (serving (turningOff [q] (.prepared none)) { failMode := .failClosed } (.new {})
        (bothSaving Setting.all Setting.all)) (store 0 Setting.all) ∧
      Machine.run (step x dataDir) (serving (turningOff [q] (.prepared none))
        { failMode := .failClosed } (.new {}) (bothSaving Setting.all Setting.all))
        (store 0 Setting.all) = some (serving (turningOff [q] (.prepared none))
          { failMode := .failClosed } (.new {}) (bothSaving [] Setting.all)) := by
    refine ⟨meets_store (asking .failOpen (.applying {} {} Setting.all)) rfl rfl ?_,
      run_store (asking .failOpen (.applying {} {} Setting.all)) rfl rfl⟩
    -- the second request is still to store what is configured
    exact fun setting hmem => .inr ⟨1, by decide, _, rfl, _, _, _, rfl, hmem, fun _ => rfl⟩
  refine Machine.meets_run_append _ (meets_bothSaved _) ?_
  refine Machine.meets_run_append _ (meets_turnOff q _ _ _) ?_
  refine Machine.meets_run_append _ hfirst (Machine.meets_run_append _ (meets_drain q _ _ _) ?_)
  exact ⟨meets_store (asking .failClosed (.applying {} { failMode := .failClosed } Setting.all))
      rfl rfl fun _ _ => .inl fun _ => rfl,
    run_store (asking .failClosed (.applying {} { failMode := .failClosed } Setting.all)) rfl rfl⟩

/-- Both requests for the fail mode are answered. -/
theorem finished_bothSaving {exports : ExportChanges} {config : AuditConfig} {live : AuditLive}
    (h : ∀ call ∈ exports.calls, ∃ result, call.stage = .done result) :
    Finished (serving exports config live (bothSaving [] [])) := by
  refine ⟨fun call hcall => .inr ?_, h⟩
  rcases List.mem_cons.1 hcall with rfl | hcall
  · exact ⟨_, _, rfl⟩
  · rw [List.mem_singleton.1 hcall]
    exact ⟨_, _, rfl⟩

/-- Two requests and an export, one after the other. -/
theorem agree_of_run_inTurn : ∃ t, Machine.run (step ExportChanges.plainServers "data")
    (load {} (some ExportChanges.questdb) fun _ => none) inTurn = some t ∧
      t.audit.live.failMode = .failClosed ∧ t.exports.memory = none ∧ Agree t := by
  obtain ⟨hmeets, hrun⟩ := meets_inTurn ExportChanges.plainServers "data" ExportChanges.questdb
  refine ⟨_, hrun, rfl, rfl, agree_of_run hmeets hrun (finished_bothSaving fun call hcall => ?_)⟩
  rw [List.mem_singleton.1 hcall]
  exact ⟨_, rfl⟩

/-- Two requests are saved, and the one that was saved first stores last. -/
def crossed : List Op := bothSaved ++ (store 1 Setting.all ++ store 0 Setting.all)

/-- The run in which two requests cross. -/
theorem run_crossed : Machine.run (step x dataDir) (load {} none fun _ => none) crossed =
    some (serving (.load none fun _ => none) { failMode := .failClosed } (.new {})
      (bothSaving [] [])) := by
  have hfirst : Machine.run (step x dataDir) (serving (.load none fun _ => none)
      { failMode := .failClosed } (.new {}) (bothSaving Setting.all Setting.all))
      (store 1 Setting.all) = some (serving (.load none fun _ => none)
        { failMode := .failClosed } (.new { failMode := .failClosed })
        (bothSaving Setting.all [])) :=
    run_store (asking .failClosed (.applying {} { failMode := .failClosed } Setting.all))
      rfl rfl
  have hsecond : Machine.run (step x dataDir) (serving (.load none fun _ => none)
      { failMode := .failClosed } (.new { failMode := .failClosed }) (bothSaving Setting.all []))
      (store 0 Setting.all) = some (serving (.load none fun _ => none)
        { failMode := .failClosed } (.new {}) (bothSaving [] [])) :=
    run_store (asking .failOpen (.applying {} {} Setting.all)) rfl rfl
  refine (Machine.run_append ..).trans (Option.bind_eq_some_iff.2 ⟨_, (meets_bothSaved _).2, ?_⟩)
  exact (Machine.run_append ..).trans (Option.bind_eq_some_iff.2 ⟨_, hfirst, hsecond⟩)

/-- **Configured to fail closed, and fails open**. -/
theorem failOpen_runs : ¬∀ t, Machine.run (step ExportChanges.plainServers "data")
    (load {} none fun _ => none) crossed = some t → Finished t → Agree t := by
  intro hall
  have hfinished : Finished (serving (.load none fun _ => none) { failMode := .failClosed }
      (.new {}) (bothSaving [] [])) :=
    finished_bothSaving fun _ hcall => absurd hcall List.not_mem_nil
  have hlive := (hall _ run_crossed hfinished).live
  exact absurd (congrArg AuditLive.failClosed hlive) (by decide)

end LiveRun

end AuditGateway
