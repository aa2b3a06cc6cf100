import AuditGateway.Lib.Machine
import AuditGateway.Web.AuditSettings

set_option relaxedAutoImplicit false
set_option autoImplicit false

/-!
# Changes of the audit settings

Administrators change the audit settings in the web UI, and MCP clients through a tool. A change
through MCP reads the configuration and looks whether it would weaken it, and later puts a whole
section in its place; the settings in force follow one by one, after the lock of the configuration
is released. So a change that was made meanwhile can be undone, and settings that were tightened
meanwhile are weakened again.

## Main definitions

* `SettingsRequest`, `SettingsCall` — a request and how far it is.
* `SettingsRun`, `SettingsRun.Op`, `SettingsRun.step` — the configuration, the settings in force and
  the requests.
* `SettingsRun.Fresh` — a change through MCP works with what is still so.

## Main results

* `SettingsRun.not_weakened` — in a run of such changes no step through MCP weakens anything.
* `SettingsRun.weakened` — an administrator's change is undone.
-/

namespace AuditGateway

/-- What the new section is to be. -/
inductive SettingsBody
  /-- In the web UI: all of it. -/
  | web (new : AuditConfig)
  /-- Through MCP: what the arguments of the tool change. -/
  | mcp (args : JsonObject)

/-- A request to change the audit settings. -/
structure SettingsRequest where
  isAdmin : Bool
  body : SettingsBody

/-- How far a request is. -/
inductive SettingsStage
  | arrived
  /-- Through MCP: `read` was the section, and `new` passed the look at it. -/
  | checked (read new : AuditConfig)
  /-- The section `old` was replaced by `new`, and these settings are to be stored. -/
  | applying (old new : AuditConfig) (rest : List Setting)
  | done

/-- A request that is being answered. -/
structure SettingsCall where
  request : SettingsRequest
  stage : SettingsStage := .arrived

/-- The section in memory and in the file, the settings in force, and the requests. -/
structure SettingsRun where
  config : AuditConfig
  live : AuditLive
  calls : List SettingsCall

namespace SettingsRun

/-- What a request waits for. -/
inductive Event
  /-- Through MCP: the configuration is read. -/
  | read
  /-- It has the lock of the configuration. `saves` says whether the other sections are valid and
  the file is written. -/
  | update (saves : Bool)
  /-- The next setting is stored. -/
  | store

/-- What can happen. -/
inductive Op
  | call (request : SettingsRequest)
  /-- Request number `i` goes on. -/
  | run (i : ℕ) (event : Event)

/-- A gateway that has loaded its configuration. -/
def init (config : AuditConfig) : SettingsRun := ⟨config, .new config, []⟩

/-- Request number `i` has come to a stage. -/
def put (s : SettingsRun) (i : ℕ) (call : SettingsCall) (stage : SettingsStage) : SettingsRun :=
  { s with calls := s.calls.set i { call with stage := stage } }

/-- The arguments the tool knows. -/
def updateAuditSettingsArgs : List String :=
  ["retention_days", "fail_mode", "record_old_value", "ignored_summary_secs"]

/-- The section is replaced if an administrator asks for it, and it is valid. -/
def putAudit (s : SettingsRun) (i : ℕ) (call : SettingsCall) (new : AuditConfig) (saves : Bool) :
    SettingsRun :=
  if call.request.isAdmin then
    if (s.config.change new).ignoredSummarySecs ≠ 0 ∧ saves then
      { s with config := s.config.change new }.put i call
        (.applying s.config (s.config.change new) Setting.all)
    else s.put i call .done
  else s.put i call .done

/-- A request goes on from its stage. -/
def runCall (s : SettingsRun) (i : ℕ) (call : SettingsCall) :
    Event → SettingsStage → SettingsBody → Option SettingsRun
  | .read, .arrived, .mcp args =>
    if args.keys.all (· ∈ updateAuditSettingsArgs) then
      match updateAuditSettings s.config args with
      | .error _ => some (s.put i call .done)
      | .ok new => some (s.put i call (.checked s.config new))
    else some (s.put i call .done)
  | .update saves, .arrived, .web new => some (s.putAudit i call new saves)
  | .update saves, .checked _ new, .mcp _ => some (s.putAudit i call new saves)
  | .store, .applying old new (setting :: rest), _ =>
    some ({ s with live := s.live.store new setting }.put i call (.applying old new rest))
  | _, _, _ => none

/-- One operation. -/
def step (s : SettingsRun) : Op → Option SettingsRun
  | .call request => some { s with calls := s.calls ++ [{ request := request }] }
  | .run i event =>
    s.calls[i]?.bind fun call => s.runCall i call event call.stage call.request.body

/-! ## Which runs -/

/-- A step of a change through MCP. -/
def OfMcp (s : SettingsRun) : Op → Prop
  | .call _ => False
  | .run i _ => ∃ call, s.calls[i]? = some call ∧ ∃ args, call.request.body = .mcp args

/-- A step of a change through MCP works with what is still so. When the configuration is read with
fail-closed on, `open` is not given as an object. When the section is replaced, nothing was
tightened since it was read. And when a setting is stored, the one in force is not stricter than
the one that was replaced in the configuration. -/
def Fresh (s : SettingsRun) : Op → Prop
  | .call _ => True
  | .run i event => ∀ call, s.calls[i]? = some call → ∀ args, call.request.body = .mcp args →
    match event, call.stage with
    | .read, _ =>
      s.config.failMode = .failClosed → args.lookup "fail_mode" ≠ some FailMode.openObject
    | .update _, .checked read _ => s.config.strictness ≤ read.strictness
    | .store, .applying old _ (.retentionDays :: _) =>
      kept s.live.retentionDays ≤ kept old.retentionDays
    | .store, .applying old _ (.failClosed :: _) =>
      s.live.failMode = .failClosed → old.failMode = .failClosed
    | _, _ => True

variable {s t : SettingsRun}

/-! ## What a request can do -/

/-- Everything a request can do in one operation. -/
inductive Turn (s : SettingsRun) (i : ℕ) (call : SettingsCall) : Event → SettingsRun → Prop
  | ended (event : Event) : Turn s i call event (s.put i call .done)
  | checked (args : JsonObject) (new : AuditConfig) (hbody : call.request.body = .mcp args)
      (hok : updateAuditSettings s.config args = .ok new) :
    Turn s i call .read (s.put i call (.checked s.config new))
  /-- In the web UI the section is replaced without a look. -/
  | replaced (new : AuditConfig) (saves : Bool) (hbody : call.request.body = .web new) :
    Turn s i call (.update saves) (s.putAudit i call new saves)
  | updated (read new : AuditConfig) (saves : Bool) (hstage : call.stage = .checked read new) :
    Turn s i call (.update saves) (s.putAudit i call new saves)
  | stored (old new : AuditConfig) (setting : Setting) (rest : List Setting)
      (hstage : call.stage = .applying old new (setting :: rest)) :
    Turn s i call .store
      ({ s with live := s.live.store new setting }.put i call (.applying old new rest))

/-- **What a request can do**: every operation of a request is one of its turns. -/
theorem turn {i : ℕ} {call : SettingsCall} {event : Event}
    (h : s.runCall i call event call.stage call.request.body = some t) : Turn s i call event t := by
  generalize hstage : call.stage = stage at h
  generalize hbody : call.request.body = body at h
  unfold runCall at h
  split at h
  · next args =>
    split_ifs at h with hargs
    · split at h
      · cases h
        exact .ended _
      · next new hok =>
        cases h
        exact .checked args new hbody hok
    · cases h
      exact .ended _
  · next saves new =>
    cases h
    exact .replaced new saves hbody
  · next saves read new args =>
    cases h
    exact .updated read new saves hstage
  · next body old new setting rest =>
    cases h
    exact .stored old new setting rest hstage
  · cases h

/-! ## What a run keeps -/

/-- A change through MCP carries a section that is at least as strict as the one it is made from. -/
def CallOk (call : SettingsCall) : Prop :=
  ∀ args, call.request.body = .mcp args →
    match call.stage with
    | .checked read new => read.strictness ≤ new.strictness
    | .applying old new _ => old.strictness ≤ new.strictness
    | _ => True

/-- What every run of such changes keeps. -/
def Inv (s : SettingsRun) : Prop := ∀ call ∈ s.calls, CallOk call

/-- The invariant holds at the start. -/
theorem inv_init (config : AuditConfig) : Inv (init config) := by
  intro call hcall
  cases hcall

/-- A request has come to another stage. -/
theorem Inv.put (h : Inv s) (i : ℕ) (call : SettingsCall) {stage : SettingsStage}
    (hcall : CallOk { call with stage := stage }) : Inv (s.put i call stage) := by
  intro other hother
  rcases List.mem_or_eq_of_mem_set hother with hother | rfl
  · exact h other hother
  · exact hcall

/-- The section is replaced by one that is as strict for a change through MCP. -/
theorem Inv.putAudit (h : Inv s) (i : ℕ) (call : SettingsCall) {new : AuditConfig}
    (hnew : ∀ args, call.request.body = .mcp args → s.config.strictness ≤ new.strictness)
    (saves : Bool) : Inv (s.putAudit i call new saves) := by
  unfold SettingsRun.putAudit
  split_ifs
  · exact Inv.put (s := { s with config := _ }) h i call hnew
  · exact h.put i call fun _ _ => trivial
  · exact h.put i call fun _ _ => trivial

/-- The new section is in the configuration, or nothing has changed. -/
theorem putAudit_strictness (s : SettingsRun) (i : ℕ) (call : SettingsCall) (new : AuditConfig)
    (saves : Bool) : (s.putAudit i call new saves).live = s.live ∧
      ((s.putAudit i call new saves).config.strictness = new.strictness ∨
        (s.putAudit i call new saves).config = s.config) := by
  unfold putAudit
  split_ifs
  · exact ⟨rfl, .inl rfl⟩
  · exact ⟨rfl, .inr rfl⟩
  · exact ⟨rfl, .inr rfl⟩

/-- **Step lemma**: a step that works with what is still so keeps the invariant. -/
theorem inv_step (h : Inv s) {op : Op} (hfresh : Fresh s op) (hs : s.step op = some t) : Inv t := by
  cases op with
  | call request =>
    cases hs
    intro call hcall
    rcases List.mem_append.1 hcall with hcall | hcall
    · exact h call hcall
    · rw [List.mem_singleton.1 hcall]
      intro args _
      trivial
  | run i event =>
    obtain ⟨call, hget, hrun⟩ := Option.bind_eq_some_iff.1 hs
    have hcall := h call (List.mem_of_getElem? hget)
    have hfresh := hfresh call hget
    cases turn hrun with
    | ended => exact h.put i call fun _ _ => trivial
    | checked args new hbody hok =>
      refine h.put i call fun args' hbody' => ?_
      obtain rfl : args = args' := by
        rw [hbody] at hbody'
        exact SettingsBody.mcp.inj hbody'
      exact strictness_le_of_ok hok (hfresh args hbody)
    | replaced new saves hbody =>
      refine h.putAudit i call (fun args hmcp => ?_) saves
      rw [hbody] at hmcp
      cases hmcp
    | updated read new saves hstage =>
      refine h.putAudit i call (fun args hmcp => ?_) saves
      have hread := hfresh args hmcp
      have hnew := hcall args hmcp
      simp only [hstage] at hread hnew
      exact hread.trans hnew
    | stored old new setting rest hstage =>
      refine Inv.put (s := { s with live := _ }) h i call fun args hmcp => ?_
      have hnew := hcall args hmcp
      rw [hstage] at hnew
      exact hnew

/-- **Step lemma**: a step through MCP that works with what is still so weakens nothing. -/
theorem strictness_le_step (h : Inv s) {op : Op} (hfresh : Fresh s op) (hmcp : OfMcp s op)
    (hs : s.step op = some t) :
    s.config.strictness ≤ t.config.strictness ∧ s.live.strictness ≤ t.live.strictness := by
  cases op with
  | call => exact hmcp.elim
  | run i event =>
    obtain ⟨call, hget, args, hbody⟩ := hmcp
    obtain ⟨call', hget', hrun⟩ := Option.bind_eq_some_iff.1 hs
    obtain rfl : call = call' := Option.some.inj (hget.symm.trans hget')
    have hcall := h call (List.mem_of_getElem? hget) args hbody
    have hfresh := hfresh call hget args hbody
    cases turn hrun with
    | ended => exact ⟨le_rfl, le_rfl⟩
    | checked => exact ⟨le_rfl, le_rfl⟩
    | replaced new saves hweb =>
      rw [hbody] at hweb
      cases hweb
    | updated read new saves hstage =>
      simp only [hstage] at hfresh hcall
      obtain ⟨hlive, hconfig | hconfig⟩ := putAudit_strictness s i call new saves
      · rw [hlive, hconfig]
        exact ⟨hfresh.trans hcall, le_rfl⟩
      · rw [hlive, hconfig]
        exact ⟨le_rfl, le_rfl⟩
    | stored old new setting rest hstage =>
      simp only [hstage] at hfresh hcall
      refine ⟨le_rfl, ?_⟩
      obtain ⟨hdays, hmode⟩ := strictness_le.1 hcall
      cases setting with
      | failClosed =>
        refine strictness_le.2 ⟨le_rfl, fun hclosed => ?_⟩
        have hnew := hmode (hfresh hclosed)
        simp [AuditLive.store, AuditLive.failMode, put, hnew]
      | retentionDays =>
        exact strictness_le.2 ⟨hfresh.trans hdays, fun hclosed => hclosed⟩
      | recordOldValue | ignoredSummarySecs => exact le_rfl

/-- **Changes through MCP** whose steps work with what is still so weaken neither the configuration
nor the settings in force at any of their steps, whatever administrators change meanwhile. -/
theorem not_weakened {config : AuditConfig} {ops : List Op}
    (hfresh : Machine.Meets step Fresh (init config) ops) {pre post : List Op} {op : Op}
    (hops : ops = pre ++ op :: post) (hpre : Machine.run step (init config) pre = some s)
    (hs : s.step op = some t) (hmcp : OfMcp s op) :
    s.config.strictness ≤ t.config.strictness ∧ s.live.strictness ≤ t.live.strictness := by
  subst hops
  obtain ⟨hfreshPre, hfreshPost⟩ := (Machine.meets_append step).1 hfresh
  have hinv : Inv s := Machine.run_invariant_of_meets (fun u op v hu hC huv => inv_step hu hC huv)
    (inv_init config) hfreshPre hpre
  exact strictness_le_step hinv (hfreshPost s hpre).1 hmcp hs

/-! ## An administrator and an assistant -/

/-- Old values are no longer recorded. -/
def noOldValues : JsonObject := [⟨"record_old_value", .bool false⟩].toAList

/-- Records are kept for ever, and every write is recorded. -/
def strictest : AuditConfig := { retentionDays := 0, failMode := .failClosed }

/-- The assistant asks for no old values, and the tool has read the configuration. -/
def assistantReads : List Op := [.call ⟨true, .mcp noOldValues⟩, .run 0 .read]

/-- The administrator's change, up to its last setting. -/
def adminChange : List Op :=
  [.call ⟨true, .web strictest⟩, .run 1 (.update true), .run 1 .store, .run 1 .store, .run 1 .store,
    .run 1 .store]

/-- A step of a request in the web UI works with nothing that was read before. -/
theorem fresh_of_web {i : ℕ} {event : Event} {call : SettingsCall} {new : AuditConfig}
    (hcall : s.calls[i]? = some call) (hweb : call.request.body = .web new) :
    Fresh s (.run i event) := by
  intro call' hcall' args hmcp
  obtain rfl : call = call' := Option.some.inj (hcall.symm.trans hcall')
  rw [hweb] at hmcp
  cases hmcp

/-- The administrator's section is in the configuration when the tool reads it, and its settings are
stored before the tool writes. -/
def adminFirst : List Op :=
  [.call ⟨true, .mcp noOldValues⟩, .call ⟨true, .web strictest⟩, .run 1 (.update true),
    .run 0 .read, .run 1 .store, .run 1 .store, .run 1 .store, .run 1 .store]

/-- A change through MCP behind one that makes everything stricter. -/
theorem not_weakened_adminFirst : ∃ s t,
    Machine.run step (init {}) adminFirst = some s ∧ s.step (.run 0 (.update true)) = some t ∧
      s.config.failMode = .failClosed ∧ t.config.recordOldValue = false ∧
      s.config.strictness ≤ t.config.strictness ∧ s.live.strictness ≤ t.live.strictness := by
  refine ⟨_, _, rfl, rfl, rfl, rfl, ?_⟩
  have hfresh : Machine.Meets step Fresh (init {}) (adminFirst ++ [.run 0 (.update true)]) := by
    refine Machine.meets_cons_of_eq _ trivial rfl (Machine.meets_cons_of_eq _ trivial rfl ?_)
    refine Machine.meets_cons_of_eq _ (fresh_of_web rfl rfl) rfl ?_
    refine Machine.meets_cons_of_eq _ ?_ rfl ?_
    · -- the tool reads with fail-closed on
      rintro call ⟨⟩ args ⟨⟩ -
      exact nofun
    refine Machine.meets_cons_of_eq _ (fresh_of_web rfl rfl) rfl ?_
    refine Machine.meets_cons_of_eq _ (fresh_of_web rfl rfl) rfl ?_
    refine Machine.meets_cons_of_eq _ (fresh_of_web rfl rfl) rfl ?_
    refine Machine.meets_cons_of_eq _ (fresh_of_web rfl rfl) rfl ?_
    refine ⟨?_, fun _ _ => trivial⟩
    rintro call ⟨⟩ args ⟨⟩
    exact le_refl (AuditConfig.strictness _)
  exact not_weakened hfresh rfl (show Machine.run step (init {}) adminFirst = some _ from rfl) rfl
    (by exact ⟨_, rfl, noOldValues, rfl⟩)

/-- **An administrator's change is undone**: the section that the tool has read replaces the one
that was tightened meanwhile, and then fail-closed is turned off. -/
theorem weakened : ∃ s t u,
    Machine.run step (init {}) (assistantReads ++ adminChange) = some s ∧
      s.step (.run 0 (.update true)) = some t ∧ OfMcp s (.run 0 (.update true)) ∧
      ¬s.config.strictness ≤ t.config.strictness ∧
      t.step (.run 0 .store) = some u ∧ OfMcp t (.run 0 .store) ∧
      ¬t.live.strictness ≤ u.live.strictness := by
  refine ⟨_, _, _, rfl, rfl, ⟨_, rfl, noOldValues, rfl⟩, ?_, rfl, ⟨_, rfl, noOldValues, rfl⟩, ?_⟩
  · exact fun h => nomatch (strictness_le.1 h).2 rfl
  · exact fun h => nomatch (strictness_le.1 h).2 rfl

end SettingsRun

end AuditGateway
