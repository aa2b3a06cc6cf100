import AuditGateway.Relay.Connection
import Mathlib.Data.List.Perm.Subperm

set_option relaxedAutoImplicit false
set_option autoImplicit false

/-!
# Tasks and their requests

Every task has a number of its own. A task is new, then it waits for a commit or for its answer;
what was handed over belongs to a task that has run, and not to one that still waits for a
commit.

## Main definitions

* `Connection.Tracked` — the tasks of a connection and what was handed over for them.
* `Connection.Renders` — the steps in which no task panics over a value it cannot render.
* `Connection.Kept` — every request whose task has run was planned, and no audited one was
  dropped.

## Main results

* `Connection.tracked_step` — every step keeps track of the tasks.
* `Connection.kept_step` — a step that renders all its values drops no audited request.
-/

namespace AuditGateway

/-- The request that something was handed over for. -/
def Sent.id : Sent → ℕ
  | read id _ => id
  | request id _ => id

/-- It is the request of the task, or the read in front of it. -/
def Sent.IsFor : Sent → Task → Prop
  | read id _, task => id = task.id
  | request id message, task => id = task.id ∧ message = task.request

/-- A message for a task carries its number. -/
theorem Sent.IsFor.id_eq {m : Sent} {task : Task} (h : m.IsFor task) : m.id = task.id := by
  cases m with
  | read id pre => exact h
  | request id message => exact h.1

/-- The reads of a task are for items of its plan. -/
def Forward.Targets (f : Forward) : Prop :=
  ∀ plan ∈ f.plan, ∀ pre ∈ f.preRead, plan.Targets pre

/-- A task keeps reads for items of its plan only. -/
theorem targets_of_prepare {x : Texts} {settings : Settings} {names : NameCache}
    {client : ClientContext} {request : RequestMessage} {f : Forward}
    (h : prepare x settings names client request = some f) : f.Targets := by
  rw [prepare, Option.map_eq_some_iff] at h
  obtain ⟨p, -, rfl⟩ := h
  intro plan hplan pre hpre
  dsimp only at hplan hpre
  split at hplan
  · next kept heq =>
    simp only [heq] at hpre
    obtain rfl := Option.some.inj hplan
    exact AuditPlan.targets_preRead hpre
  · cases hplan

/-- A task that has its answer does not panic if the old values can be rendered. -/
theorem Forward.applied_isSome (x : Texts) (names : NameCache) {f : Forward} (h : f.Targets)
    {read : Option (List DataValue)}
    (hr : ∀ pre ∈ f.preRead, ∀ results ∈ read, pre.Renderable results) :
    (f.applied x names read).isSome := by
  unfold applied
  split
  · next plan pre results hplan hpre =>
    rw [Option.isSome_map]
    exact AuditPlan.applyPreRead_isSome x names (h plan hplan pre hpre) (hr pre hpre results rfl)
  · rfl

namespace Connection

variable {x : Texts} {ctx : Ctx} {s t : Connection} {task : Task}

/-- The tasks that have run and wait. -/
def waitingTasks (s : Connection) : List Task := s.committing.map (·.1) ++ s.awaiting.map (·.1)

/-- The tasks that have run. -/
def startedTasks (s : Connection) : List Task := s.started.map (·.task)

/-- What is known of the tasks of a connection in every state. -/
structure Tracked (s : Connection) : Prop where
  lt : ∀ task ∈ s.startedTasks ++ s.fresh, task.id < s.received.length
  nodup : ((s.startedTasks ++ s.fresh).map (·.id)).Nodup
  audited : ∀ task ∈ s.startedTasks ++ s.fresh,
    task.audited = (isAudited task.request || isSessionService task.request)
  waiting_nodup : (s.waitingTasks.map (·.id)).Nodup
  waiting_started : ∀ task ∈ s.waitingTasks, task ∈ s.startedTasks
  sent_started : ∀ m ∈ s.sent, ∃ task ∈ s.startedTasks, m.IsFor task
  sent_not_committing : ∀ m ∈ s.sent, ∀ p ∈ s.committing, m.id ≠ p.1.id
  targets : ∀ p ∈ s.committing, p.2.1.Targets
  targets' : ∀ p ∈ s.awaiting, ∀ f, p.2 = .forward f → f.Targets

namespace Tracked

/-- Two tasks that have run and have the same number are the same. -/
theorem started_eq (h : Tracked s) {a b : Started} (ha : a ∈ s.started) (hb : b ∈ s.started)
    (hid : a.task.id = b.task.id) : a = b := by
  have hnodup := h.nodup
  rw [List.map_append, List.nodup_append, startedTasks, List.map_map] at hnodup
  exact List.inj_on_of_nodup_map hnodup.1 ha hb hid

/-- Tasks may leave, and new ones may be put in another order. -/
theorem shrink (h : Tracked s) (hreceived : s.received.length ≤ t.received.length)
    (hstarted : t.started = s.started) (hsent : t.sent = s.sent) (hfresh : t.fresh.Subperm s.fresh)
    (hcommitting : t.committing.Sublist s.committing) (hawaiting : t.awaiting.Sublist s.awaiting) :
    Tracked t := by
  have htasks : t.startedTasks = s.startedTasks := by rw [startedTasks, hstarted, startedTasks]
  have hsub : (t.startedTasks ++ t.fresh).Subperm (s.startedTasks ++ s.fresh) := by
    rw [htasks]
    exact (List.Subperm.refl _).append hfresh
  have hwaiting : t.waitingTasks.Sublist s.waitingTasks :=
    (hcommitting.map _).append (hawaiting.map _)
  refine ⟨fun a ha => ?_, ?_, fun a ha => h.audited a (hsub.subset ha),
    (hwaiting.map _).nodup h.waiting_nodup, fun a ha => ?_, fun m hm => ?_, fun m hm p hp => ?_,
    fun p hp => h.targets p (hcommitting.subset hp),
    fun p hp => h.targets' p (hawaiting.subset hp)⟩
  · exact Nat.lt_of_lt_of_le (h.lt a (hsub.subset ha)) hreceived
  · obtain ⟨l, hperm, hl⟩ := hsub
    exact (hperm.map _).nodup_iff.1 ((hl.map _).nodup h.nodup)
  · rw [htasks]
    exact h.waiting_started a (hwaiting.subset ha)
  · rw [hsent] at hm
    rw [htasks]
    exact h.sent_started m hm
  · rw [hsent] at hm
    exact h.sent_not_committing m hm p (hcommitting.subset hp)

/-- A step that keeps the tasks keeps them tracked. -/
theorem frame (h : Tracked s) (hframe : Frame s t) : Tracked t := by
  refine h.shrink ?_ hframe.started hframe.sent ?_ ?_ ?_
  · rw [hframe.received]
  · rw [hframe.fresh]
  · rw [hframe.committing]
  · rw [hframe.awaiting]

/-- A panic keeps them tracked. -/
theorem panic (h : Tracked s) : Tracked s.panic := by
  unfold Connection.panic
  split_ifs
  · exact h.shrink le_rfl rfl rfl List.nil_subperm (List.nil_sublist _) (List.nil_sublist _)
  · exact h.shrink le_rfl rfl rfl (List.Subperm.refl _) (List.Sublist.refl _) (List.Sublist.refl _)

/-- A request is handed over for a task that waits for nothing else. -/
theorem handed (h : Tracked s) (hstarted : task ∈ s.startedTasks)
    (hnew : task.id ∉ s.waitingTasks.map (·.id)) {awaiting : Awaiting}
    (htargets : ∀ f, awaiting = .forward f → f.Targets) (preRead : Option PreRead) :
    Tracked (s.handed task awaiting preRead) := by
  have hsent : ∀ m ∈ (s.handed task awaiting preRead).sent, m ∈ s.sent ∨ m.IsFor task := by
    intro m hm
    rcases List.mem_append.1 hm with hm | hm
    · rcases List.mem_append.1 hm with hm | hm
      · exact .inl hm
      · obtain ⟨pre, -, rfl⟩ := Option.map_eq_some_iff.1 (Option.mem_toList.1 hm)
        exact .inr rfl
    · rw [List.mem_singleton.1 hm]
      exact .inr ⟨rfl, rfl⟩
  have hwaiting : (s.handed task awaiting preRead).waitingTasks = s.waitingTasks ++ [task] := by
    simp [waitingTasks, Connection.handed]
  refine ⟨h.lt, h.nodup, h.audited, ?_, ?_, fun m hm => ?_, fun m hm p hp hid => ?_, h.targets,
    fun p hp => ?_⟩
  · rw [hwaiting, List.map_append, List.nodup_append]
    refine ⟨h.waiting_nodup, List.nodup_singleton _, fun a ha b hb hab => hnew ?_⟩
    rw [hab, List.mem_singleton.1 hb] at ha
    exact ha
  · rw [hwaiting]
    intro a ha
    rcases List.mem_append.1 ha with ha | ha
    · exact h.waiting_started a ha
    · rw [List.mem_singleton.1 ha]
      exact hstarted
  · rcases hsent m hm with hm | hm
    · exact h.sent_started m hm
    · exact ⟨task, hstarted, hm⟩
  · rcases hsent m hm with hm | hm
    · exact h.sent_not_committing m hm p hp hid
    · refine hnew ?_
      rw [← hm.id_eq, hid]
      exact List.mem_map_of_mem (List.mem_append_left _ (List.mem_map_of_mem hp))
  · rcases List.mem_append.1 hp with hp | hp
    · exact h.targets' p hp
    · rw [List.mem_singleton.1 hp]
      exact htargets

/-- A task that waits for nothing else asks for a commit before anything is handed over. -/
theorem held (h : Tracked s) (hstarted : task ∈ s.startedTasks)
    (hnew : task.id ∉ s.waitingTasks.map (·.id)) (hsent : ∀ m ∈ s.sent, m.id ≠ task.id)
    {f : Forward} (htargets : f.Targets) (entry : AuditEntry) :
    Tracked { s with committing := s.committing ++ [(task, f, entry)] } := by
  set u := { s with committing := s.committing ++ [(task, f, entry)] } with hu
  have hwaiting : u.waitingTasks.Perm (task :: s.waitingTasks) := by
    simp only [hu, waitingTasks, List.map_append, List.map_cons, List.map_nil, List.append_assoc]
    exact List.perm_middle
  refine ⟨h.lt, h.nodup, h.audited, ?_, fun a ha => ?_, h.sent_started, fun m hm p hp => ?_,
    fun p hp => ?_, h.targets'⟩
  · rw [(hwaiting.map _).nodup_iff, List.map_cons, List.nodup_cons]
    exact ⟨hnew, h.waiting_nodup⟩
  · rcases List.mem_cons.1 (hwaiting.mem_iff.1 ha) with rfl | ha
    · exact hstarted
    · exact h.waiting_started a ha
  · rcases List.mem_append.1 hp with hp | hp
    · exact h.sent_not_committing m hm p hp
    · rw [List.mem_singleton.1 hp]
      exact hsent m hm
  · rcases List.mem_append.1 hp with hp | hp
    · exact h.targets p hp
    · rw [List.mem_singleton.1 hp]
      exact htargets

end Tracked

/-! ## Every step keeps track of the tasks -/

/-- Tasks with different numbers, looked up by their numbers. -/
theorem filterMap_find?_id {tasks : List Task} (h : (tasks.map (·.id)).Nodup) :
    (tasks.map (·.id)).filterMap (fun id => tasks.find? fun task => task.id = id) = tasks := by
  rw [List.filterMap_map]
  calc tasks.filterMap ((fun id => tasks.find? fun task => task.id = id) ∘ fun task => task.id)
      = tasks.filterMap some := by
        refine List.filterMap_congr fun task htask => ?_
        have hsome : (tasks.find? fun t => decide (t.id = task.id)).isSome := by
          rw [List.find?_isSome]
          exact ⟨task, htask, by simp⟩
        obtain ⟨found, hfound⟩ := Option.isSome_iff_exists.1 hsome
        have hid : found.id = task.id := by simpa using List.find?_some hfound
        have hmem := List.mem_of_find?_eq_some hfound
        rw [Function.comp_apply, hfound, List.inj_on_of_nodup_map h hmem htask hid]
    _ = tasks := List.filterMap_some

/-- Receiving a request keeps the tasks tracked. -/
theorem tracked_receive (h : Tracked s) (message : RequestMessage)
    (upstream : Except StatusCode Unit) : Tracked (s.receive message upstream) := by
  have hlength : s.received.length ≤ (s.received ++ [message]).length := by
    rw [List.length_append]
    omega
  have hsame : ∀ {t : Connection}, t.received = s.received ++ [message] → t.started = s.started →
      t.sent = s.sent → t.fresh = s.fresh → t.committing = s.committing →
      t.awaiting = s.awaiting → Tracked t := by
    intro t hreceived hstarted hsent hfresh hcommitting hawaiting
    refine h.shrink ?_ hstarted hsent ?_ ?_ ?_
    · rw [hreceived]
      exact hlength
    · rw [hfresh]
    · rw [hcommitting]
    · rw [hawaiting]
  unfold receive
  dsimp only
  split_ifs
  · split
    · exact hsame rfl rfl rfl rfl rfl rfl
    · exact hsame rfl rfl rfl rfl rfl rfl
  · split
    · exact hsame rfl rfl rfl rfl rfl rfl
    · -- the new task has the next number
      set task : Task := ⟨s.received.length, message, isAudited message || isSessionService message⟩
        with htask
      have hall : ∀ a ∈ s.startedTasks ++ (s.fresh ++ [task]),
          a ∈ s.startedTasks ++ s.fresh ∨ a = task := by
        intro a ha
        rw [← List.append_assoc] at ha
        exact (List.mem_append.1 ha).imp_right List.mem_singleton.1
      refine ⟨fun a ha => ?_, ?_, fun a ha => ?_, h.waiting_nodup, h.waiting_started,
        h.sent_started, h.sent_not_committing, h.targets, h.targets'⟩
      · show a.id < (s.received ++ [message]).length
        rw [List.length_append, List.length_singleton]
        rcases hall a ha with ha | rfl
        · have := h.lt a ha
          omega
        · exact Nat.lt_succ_self _
      · show ((s.startedTasks ++ (s.fresh ++ [task])).map (·.id)).Nodup
        rw [← List.append_assoc, List.map_append, List.nodup_append]
        refine ⟨h.nodup, List.nodup_singleton _, fun a ha b hb hab => ?_⟩
        obtain ⟨old, hold, rfl⟩ := List.mem_map.1 ha
        have := h.lt old hold
        rw [hab, List.mem_singleton.1 hb] at this
        exact Nat.lt_irrefl _ this
      · rcases hall a ha with ha | rfl
        · exact h.audited a ha
        · rfl

/-- Finished tasks keep the tasks tracked. -/
theorem tracked_finishAudited (h : Tracked s) {order : List ℕ}
    (hs : step x ctx s (.finishAudited order) = some t) : Tracked t := by
  obtain ⟨hguard, rfl⟩ := step_finishAudited hs
  have hnodup : ((s.fresh.filter (·.audited)).map (·.id)).Nodup := by
    have hnodup := h.nodup
    rw [List.map_append, List.nodup_append] at hnodup
    exact (List.filter_sublist.map _).nodup hnodup.2.1
  refine h.shrink le_rfl rfl rfl ?_ List.filter_sublist List.filter_sublist
  have hperm := hguard.2.filterMap fun id =>
    (s.fresh.filter (·.audited)).find? fun task => task.id = id
  rw [filterMap_find?_id hnodup] at hperm
  exact hperm.subperm.trans List.filter_sublist.subperm

/-- A panic does not change what was started. -/
theorem started_panic (s : Connection) : s.panic.started = s.started := by
  unfold panic
  split_ifs <;> rfl

/-- A panic does not change what was sent. -/
theorem sent_panic (s : Connection) : s.panic.sent = s.sent := by
  unfold panic
  split_ifs <;> rfl

/-- A panic does not change what was answered. -/
theorem responses_panic (s : Connection) : s.panic.responses = s.responses := by
  unfold panic
  split_ifs <;> rfl

/-- A panic only takes out of what is being committed. -/
theorem committing_panic_sublist (s : Connection) :
    s.panic.committing.Sublist s.committing := by
  unfold panic
  split_ifs
  · exact List.nil_sublist _
  · exact List.Sublist.refl _

/-- No task that has run has the number of a new one. -/
theorem Tracked.new_of_fresh (h : Tracked s) {fresh : List Task}
    (hfresh : s.fresh = task :: fresh) : ∀ st ∈ s.started, st.task.id ≠ task.id := by
  intro st hst
  have hnodup := h.nodup
  rw [hfresh, List.map_append, List.nodup_append] at hnodup
  exact hnodup.2.2 st.task.id (List.mem_map_of_mem (List.mem_map_of_mem hst)) task.id (by simp)

/-- The next new task runs. -/
theorem Tracked.begin (h : Tracked s) {fresh : List Task} (hfresh : s.fresh = task :: fresh)
    (st : Started) (hst : st.task = task) :
    Tracked { s with fresh := fresh, started := s.started ++ [st] } ∧
      task.id ∉ s.waitingTasks.map (·.id) ∧ ∀ m ∈ s.sent, m.id ≠ task.id := by
  have hall : ({ s with fresh := fresh, started := s.started ++ [st] } : Connection).startedTasks ++
      fresh = s.startedTasks ++ s.fresh := by
    simp [startedTasks, hfresh, hst]
  have hnew : ∀ a ∈ s.startedTasks, a.id ≠ task.id := by
    intro a ha
    obtain ⟨old, hold, rfl⟩ := List.mem_map.1 ha
    exact h.new_of_fresh hfresh old hold
  have hsub : s.startedTasks ⊆
      ({ s with fresh := fresh, started := s.started ++ [st] } : Connection).startedTasks := by
    simp [startedTasks]
  refine ⟨⟨?_, ?_, ?_, h.waiting_nodup, fun a ha => hsub (h.waiting_started a ha),
    fun m hm => ?_, h.sent_not_committing, h.targets, h.targets'⟩, fun hmem => ?_,
    fun m hm => ?_⟩
  · rw [hall]
    exact h.lt
  · rw [hall]
    exact h.nodup
  · rw [hall]
    exact h.audited
  · obtain ⟨a, ha, hfor⟩ := h.sent_started m hm
    exact ⟨a, hsub ha, hfor⟩
  · obtain ⟨a, ha, hid⟩ := List.mem_map.1 hmem
    exact hnew a (h.waiting_started a ha) hid
  · obtain ⟨a, ha, hfor⟩ := h.sent_started m hm
    rw [hfor.id_eq]
    exact hnew a ha

/-- A task that runs for the first time answers, waits, or hands its request over. -/
theorem Tracked.start (h : Tracked s) (hstarted : task ∈ s.startedTasks)
    (hnew : task.id ∉ s.waitingTasks.map (·.id)) (hsent : ∀ m ∈ s.sent, m.id ≠ task.id)
    {settings : Settings} (hcase : StartCase x ctx settings task s t) : Tracked t := by
  have hframe : ∀ {u : Connection}, Frame s u → Tracked u ∧ task ∈ u.startedTasks ∧
      task.id ∉ u.waitingTasks.map (·.id) ∧ ∀ m ∈ u.sent, m.id ≠ task.id := by
    intro u hu
    refine ⟨h.frame hu, ?_, ?_, ?_⟩
    · rwa [startedTasks, hu.started]
    · rwa [waitingTasks, hu.committing, hu.awaiting]
    · rwa [hu.sent]
  cases hcase with
  | answered hu => exact h.frame hu
  | panicked u hu hf ht =>
    rw [ht]
    exact (h.frame hu).panic
  | held u f entry hu hf hentry ht =>
    obtain ⟨hu, hin, hout, hunsent⟩ := hframe hu
    rw [ht]
    exact hu.held hin hout hunsent (targets_of_prepare hf) entry
  | sent u f awaiting preRead hu hf hintent hawaiting ht =>
    obtain ⟨hu, hin, hout, hunsent⟩ := hframe hu
    rw [ht]
    refine hu.handed hin hout (fun g hg => ?_) preRead
    rw [hawaiting g hg]
    exact targets_of_prepare hf

/-- A poll keeps the tasks tracked. -/
theorem tracked_poll (h : Tracked s) {settings : Settings}
    {checks : Except StatusCode UserIdentity}
    (hs : step x ctx s (.poll settings checks) = some t) : Tracked t := by
  obtain ⟨task, fresh, hfresh, -, rfl⟩ := step_poll hs
  obtain ⟨htracked, hnew, hsent⟩ := h.begin hfresh
    ⟨task, settings, attributed ctx s.shared.sessions task.request⟩ rfl
  exact htracked.start (by simp [startedTasks]) hnew hsent (start_cases _ settings checks)

/-- A task that waits for its commit stops waiting for it. -/
theorem Tracked.release (h : Tracked s) {id : ℕ} {p : Task × Forward × AuditEntry}
    (hfind : s.committing.find? (fun p => p.1.id = id) = some p) :
    Tracked { s with committing := s.committing.eraseP fun p => p.1.id = id } ∧
      p.1.id = id ∧ p ∈ s.committing ∧ p.1 ∈ s.startedTasks ∧
      p.1.id ∉ (({ s with committing := s.committing.eraseP fun p => p.1.id = id } :
        Connection).waitingTasks).map (·.id) := by
  have hmem := List.mem_of_find?_eq_some hfind
  have hperm := ((Machine.perm_of_find? hfind).map (·.1)).append_right (s.awaiting.map (·.1))
  have hnodup := ((hperm.map (·.id)).nodup_iff).1 h.waiting_nodup
  rw [List.map_cons, List.cons_append, List.map_cons, List.nodup_cons] at hnodup
  refine ⟨?_, by simpa using List.find?_some hfind, hmem, h.waiting_started _ ?_, hnodup.1⟩
  · exact h.shrink le_rfl rfl rfl (List.Subperm.refl _) List.eraseP_sublist (List.Sublist.refl _)
  · exact List.mem_append_left _ (List.mem_map_of_mem hmem)

/-- A commit keeps the tasks tracked. -/
theorem tracked_committed (h : Tracked s) {id instant : ℕ} {ok : Bool} {now : DateTime}
    (hs : step x ctx s (.committed id ok now instant) = some t) : Tracked t := by
  obtain ⟨task, f, entry, hfind, -, hcase⟩ := step_committed hs
  obtain ⟨htracked, -, hmem, hstarted, hnew⟩ := h.release hfind
  rcases hcase with ⟨-, rfl⟩ | ⟨-, rfl⟩
  · have hrecord := htracked.frame (frame_record _ id entry)
    rcases handOver_cases x ctx
      (record { s with committing := s.committing.eraseP fun p => p.1.id = id } id entry) task
      (.forward f) f.preRead now instant with heq | hframe
    · rw [heq]
      refine hrecord.handed hstarted hnew (fun g hg => ?_) f.preRead
      rw [← Awaiting.forward.inj hg]
      exact h.targets _ hmem
    · exact hrecord.frame hframe
  · exact htracked.frame (frame_respond ..)

/-- An answer keeps the tasks tracked. -/
theorem tracked_answer (h : Tracked s) {id instant : ℕ} {answer : Answer}
    {read : Option (List DataValue)} {checks : Except StatusCode Unit} {now : DateTime}
    (hs : step x ctx s (.answer id answer read checks now instant) = some t) : Tracked t := by
  obtain ⟨task, awaiting, hfind, -, rfl⟩ := step_answer hs
  have htracked : Tracked { s with awaiting := s.awaiting.eraseP fun p => p.1.id = id } :=
    h.shrink le_rfl rfl rfl (List.Subperm.refl _) (List.Sublist.refl _) List.eraseP_sublist
  rcases frame_complete x ctx _ task awaiting answer read checks now instant with
    hframe | ⟨heq, -⟩
  · exact htracked.frame hframe
  · rw [heq]
    exact htracked.panic

/-- **Step lemma**: every step keeps track of the tasks. -/
theorem tracked_step (h : Tracked s) {op : Op} (hs : step x ctx s op = some t) : Tracked t := by
  have hsame : ∀ (shared : Shared) (loop : Loop) (upstreamOpen : Bool),
      Tracked { s with shared := shared, loop := loop, upstreamOpen := upstreamOpen } :=
    fun _ _ _ => h.shrink le_rfl rfl rfl (List.Subperm.refl _) (List.Sublist.refl _)
      (List.Sublist.refl _)
  cases op with
  | elsewhere shared =>
    cases hs
    exact hsame ..
  | receive message upstream =>
    rcases step_receive hs with ⟨-, rfl⟩ | ⟨-, rfl⟩
    · exact tracked_receive h message upstream
    · refine h.shrink ?_ rfl rfl (List.Subperm.refl _) (List.Sublist.refl _) (List.Sublist.refl _)
      rw [List.length_append]
      omega
  | upstreamClosed =>
    cases hs
    exact hsame ..
  | close =>
    obtain ⟨-, rfl⟩ := step_close hs
    exact hsame ..
  | stop =>
    obtain ⟨-, rfl⟩ := step_stop hs
    exact hsame ..
  | finishAudited order => exact tracked_finishAudited h hs
  | giveUp =>
    obtain ⟨-, rfl⟩ := step_giveUp hs
    exact h.shrink le_rfl rfl rfl List.nil_subperm (List.nil_sublist _) (List.nil_sublist _)
  | poll settings checks => exact tracked_poll h hs
  | committed id ok now instant => exact tracked_committed h hs
  | answer id answer read checks now instant => exact tracked_answer h hs

/-- No task is there at the start. -/
theorem tracked_start (shared : Shared) : Tracked { shared := shared } where
  lt := fun _ htask => nomatch htask
  nodup := List.nodup_nil
  audited := fun _ htask => nomatch htask
  waiting_nodup := List.nodup_nil
  waiting_started := fun _ htask => nomatch htask
  sent_started := fun _ hm => nomatch hm
  sent_not_committing := fun _ hm => nomatch hm
  targets := fun _ hp => nomatch hp
  targets' := fun _ hp => nomatch hp

/-! ## Steps in which nothing is handed over -/

/-- No task runs for the first time, nothing is handed over, and no task asks for a commit. -/
structure Quiet (s t : Connection) : Prop where
  started : t.started = s.started
  sent : t.sent = s.sent
  committing : t.committing.Sublist s.committing
  responses : s.responses <+: t.responses

/-- A step that keeps the tasks is quiet. -/
theorem Frame.quiet (h : Frame s t) : Quiet s t where
  started := h.started
  sent := h.sent
  committing := by rw [h.committing]
  responses := h.responses

/-- A panic is quiet. -/
theorem quiet_panic (s : Connection) : Quiet s s.panic where
  started := started_panic s
  sent := sent_panic s
  committing := committing_panic_sublist s
  responses := by rw [responses_panic]

/-- Receiving a request is quiet. -/
theorem quiet_receive (s : Connection) (message : RequestMessage)
    (upstream : Except StatusCode Unit) : Quiet s (s.receive message upstream) := by
  unfold receive
  dsimp only
  split_ifs
  · split
    · exact ⟨rfl, rfl, List.Sublist.refl _, List.prefix_refl _⟩
    · exact ⟨rfl, rfl, List.Sublist.refl _, List.prefix_refl _⟩
  · split
    · exact ⟨rfl, rfl, List.Sublist.refl _, List.prefix_append ..⟩
    · exact ⟨rfl, rfl, List.Sublist.refl _, List.prefix_refl _⟩

/-- The steps in which no task runs for the first time or gets its commit. -/
theorem quiet_step {op : Op} (hpoll : ∀ settings checks, op ≠ .poll settings checks)
    (hcommitted : ∀ id ok now instant, op ≠ .committed id ok now instant)
    (hs : step x ctx s op = some t) : Quiet s t := by
  cases op with
  | elsewhere shared =>
    cases hs
    exact ⟨rfl, rfl, List.Sublist.refl _, List.prefix_refl _⟩
  | receive message upstream =>
    rcases step_receive hs with ⟨-, rfl⟩ | ⟨-, rfl⟩
    · exact quiet_receive s message upstream
    · exact ⟨rfl, rfl, List.Sublist.refl _, List.prefix_refl _⟩
  | upstreamClosed =>
    cases hs
    exact ⟨rfl, rfl, List.Sublist.refl _, List.prefix_refl _⟩
  | close =>
    obtain ⟨-, rfl⟩ := step_close hs
    exact ⟨rfl, rfl, List.Sublist.refl _, List.prefix_refl _⟩
  | stop =>
    obtain ⟨-, rfl⟩ := step_stop hs
    exact ⟨rfl, rfl, List.Sublist.refl _, List.prefix_refl _⟩
  | finishAudited order =>
    obtain ⟨-, rfl⟩ := step_finishAudited hs
    exact ⟨rfl, rfl, List.filter_sublist, List.prefix_refl _⟩
  | giveUp =>
    obtain ⟨-, rfl⟩ := step_giveUp hs
    exact ⟨rfl, rfl, List.nil_sublist _, List.prefix_refl _⟩
  | poll settings checks => exact absurd rfl (hpoll settings checks)
  | committed id ok now instant => exact absurd rfl (hcommitted id ok now instant)
  | answer id answer read checks now instant =>
    obtain ⟨task, awaiting, hfind, -, rfl⟩ := step_answer hs
    rcases frame_complete x ctx { s with awaiting := s.awaiting.eraseP fun p => p.1.id = id }
      task awaiting answer read checks now instant with hframe | ⟨heq, -⟩
    · exact ⟨hframe.started, hframe.sent, hframe.quiet.committing, hframe.responses⟩
    · have hquiet := quiet_panic { s with awaiting := s.awaiting.eraseP fun p => p.1.id = id }
      rw [heq]
      exact ⟨hquiet.started, hquiet.sent, hquiet.committing, hquiet.responses⟩

/-! ## Audited requests are kept -/

/-- The steps in which no task panics over a value that cannot be rendered: the request of a task
that runs for the first time can be planned, and while audited requests are seen through, the
results of their reads can be applied. -/
def Renders (s : Connection) : Op → Prop
  | .poll _ _ => ∀ task ∈ s.fresh.head?, task.request.Renderable
  | .answer id _ read _ _ _ => s.loop = .draining → ∀ p ∈ s.awaiting, p.1.id = id →
      ∀ f, p.2 = .forward f → ∀ pre ∈ f.preRead, ∀ results ∈ read, pre.Renderable results
  | _ => True

/-- Every request whose task has run was planned, those that are audited and no others have a
plan, and no audited request was dropped. -/
structure Kept (x : Texts) (s : Connection) : Prop where
  tracked : Tracked s
  planned : ∀ st ∈ s.started, ∃ p, AuditMap.plan x st.task.request = some p ∧
    (p.isSome ↔ isAudited st.task.request)
  kept : ∀ task ∈ s.dropped, ¬ isAudited task.request

namespace Kept

/-- A step in which no task runs for the first time and none is dropped. -/
theorem of_eq (h : Kept x s) (htracked : Tracked t) (hstarted : t.started = s.started)
    (hdropped : t.dropped = s.dropped) : Kept x t := by
  refine ⟨htracked, ?_, ?_⟩
  · rw [hstarted]
    exact h.planned
  · rw [hdropped]
    exact h.kept

/-- A step that keeps the tasks keeps their records. -/
theorem frame (h : Kept x s) (hframe : Frame s t) : Kept x t :=
  h.of_eq (h.tracked.frame hframe) hframe.started hframe.dropped

/-- A request that can be rendered is planned. -/
theorem begin (h : Kept x s) {st : Started} (hr : st.task.request.Renderable)
    (htracked : Tracked t) (hstarted : t.started = s.started ++ [st])
    (hdropped : t.dropped = s.dropped) : Kept x t := by
  refine ⟨htracked, fun a ha => ?_, ?_⟩
  · rw [hstarted] at ha
    rcases List.mem_append.1 ha with ha | ha
    · exact h.planned a ha
    · obtain rfl := List.mem_singleton.1 ha
      obtain ⟨p, hp⟩ := Option.isSome_iff_exists.1 ((AuditMap.plan_isSome_iff x _).2 hr)
      exact ⟨p, hp, AuditMap.isSome_of_plan_eq hp⟩
  · rw [hdropped]
    exact h.kept

/-- When the client is gone, only tasks that are not audited are dropped. -/
theorem drop (h : Kept x s) (htracked : Tracked t) (hstarted : t.started = s.started)
    (hdropped : t.dropped = s.dropped ++ s.tasks.filter fun task => !task.audited) :
    Kept x t := by
  refine ⟨htracked, ?_, fun task htask haudited => ?_⟩
  · rw [hstarted]
    exact h.planned
  · rw [hdropped] at htask
    rcases List.mem_append.1 htask with htask | htask
    · exact h.kept task htask haudited
    · obtain ⟨htask, hnot⟩ := List.mem_filter.1 htask
      have hmem : task ∈ s.startedTasks ++ s.fresh := by
        rcases List.mem_append.1 htask with htask | htask
        · exact List.mem_append_right _ htask
        · exact List.mem_append_left _ (h.tracked.waiting_started task htask)
      have haud := h.tracked.audited task hmem
      rw [haudited, Bool.true_or] at haud
      rw [haud] at hnot
      cases hnot

end Kept

/-- A panic drops nothing as long as the client is there. -/
theorem dropped_panic (h : s.loop ≠ .draining) : s.panic.dropped = s.dropped := by
  rw [panic, if_neg h]

/-- A poll keeps the records. -/
theorem kept_poll (h : Kept x s) {settings : Settings} {checks : Except StatusCode UserIdentity}
    (hr : Renders s (.poll settings checks))
    (hs : step x ctx s (.poll settings checks) = some t) : Kept x t := by
  have htracked := tracked_poll h.tracked hs
  obtain ⟨task, fresh, hfresh, -, rfl⟩ := step_poll hs
  have hr : task.request.Renderable := hr task (by rw [hfresh]; rfl)
  set st : Started := ⟨task, settings, attributed ctx s.shared.sessions task.request⟩
  have hst : st.task.request.Renderable := hr
  set u : Connection := { s with fresh := fresh, started := s.started ++ [st] }
  cases @start_cases x ctx task u settings checks with
  | answered hu => exact h.begin hst htracked hu.started hu.dropped
  | panicked v hu hf ht =>
    -- the request can be planned
    rw [prepare, Option.map_eq_none_iff] at hf
    have hsome := (AuditMap.plan_isSome_iff x task.request).2 hr
    rw [hf] at hsome
    cases hsome
  | held v f entry hu hf hentry ht =>
    refine h.begin hst htracked ?_ ?_
    · rw [ht]
      exact hu.started
    · rw [ht]
      exact hu.dropped
  | sent v f awaiting preRead hu hf hintent hawaiting ht =>
    refine h.begin hst htracked ?_ ?_
    · rw [ht]
      exact hu.started
    · rw [ht]
      exact hu.dropped

/-- A commit keeps the records. -/
theorem kept_committed (h : Kept x s) {id instant : ℕ} {ok : Bool} {now : DateTime}
    (hs : step x ctx s (.committed id ok now instant) = some t) : Kept x t := by
  have htracked := tracked_committed h.tracked hs
  obtain ⟨task, f, entry, hfind, -, hcase⟩ := step_committed hs
  rcases hcase with ⟨-, rfl⟩ | ⟨-, rfl⟩
  · rcases handOver_cases x ctx
      (record { s with committing := s.committing.eraseP fun p => p.1.id = id } id entry) task
      (.forward f) f.preRead now instant with heq | hframe
    · refine h.of_eq htracked ?_ ?_
      · rw [heq]
        rfl
      · rw [heq]
        rfl
    · exact h.of_eq htracked hframe.started hframe.dropped
  · exact h.of_eq htracked rfl rfl

/-- An answer keeps the records. -/
theorem kept_answer (h : Kept x s) {id instant : ℕ} {answer : Answer}
    {read : Option (List DataValue)} {checks : Except StatusCode Unit} {now : DateTime}
    (hr : Renders s (.answer id answer read checks now instant))
    (hs : step x ctx s (.answer id answer read checks now instant) = some t) : Kept x t := by
  have htracked := tracked_answer h.tracked hs
  obtain ⟨task, awaiting, hfind, -, rfl⟩ := step_answer hs
  rcases frame_complete x ctx { s with awaiting := s.awaiting.eraseP fun p => p.1.id = id } task
    awaiting answer read checks now instant with hframe | ⟨heq, f, hforward, happlied⟩
  · exact h.of_eq htracked hframe.started hframe.dropped
  · by_cases hdraining : s.loop = .draining
    · -- the old values can be rendered
      have hmem := List.mem_of_find?_eq_some hfind
      have hid : task.id = id := by simpa using List.find?_some hfind
      have hsome := Forward.applied_isSome x s.shared.names
        (h.tracked.targets' _ hmem f hforward) (hr hdraining _ hmem hid f hforward)
      rw [happlied] at hsome
      cases hsome
    · refine h.of_eq htracked ?_ ?_
      · rw [heq]
        exact started_panic _
      · rw [heq]
        exact dropped_panic hdraining

/-- **Step lemma**: a step that renders all its values keeps every audited request. -/
theorem kept_step (h : Kept x s) {op : Op} (hr : Renders s op)
    (hs : step x ctx s op = some t) : Kept x t := by
  have htracked := tracked_step h.tracked hs
  cases op with
  | elsewhere shared =>
    cases hs
    exact h.of_eq htracked rfl rfl
  | receive message upstream =>
    have heq : t.started = s.started ∧ t.dropped = s.dropped := by
      simp only [step] at hs
      split at hs
      · cases hs
        unfold receive
        dsimp only
        split_ifs
        · split <;> exact ⟨rfl, rfl⟩
        · split <;> exact ⟨rfl, rfl⟩
      · cases hs
        exact ⟨rfl, rfl⟩
      · cases hs
    exact h.of_eq htracked heq.1 heq.2
  | upstreamClosed =>
    cases hs
    exact h.of_eq htracked rfl rfl
  | close =>
    obtain ⟨-, rfl⟩ := step_close hs
    exact h.of_eq htracked rfl rfl
  | stop =>
    obtain ⟨-, rfl⟩ := step_stop hs
    exact h.of_eq htracked rfl rfl
  | finishAudited order =>
    obtain ⟨-, rfl⟩ := step_finishAudited hs
    exact h.drop htracked rfl rfl
  | giveUp =>
    obtain ⟨-, rfl⟩ := step_giveUp hs
    exact h.of_eq htracked rfl rfl
  | poll settings checks => exact kept_poll h hr hs
  | committed id ok now instant => exact kept_committed h hs
  | answer id answer read checks now instant => exact kept_answer h hr hs

/-- Nothing is to be kept at the start. -/
theorem kept_start (x : Texts) (shared : Shared) : Kept x { shared := shared } :=
  ⟨tracked_start shared, fun _ hst => (nomatch hst), fun _ htask => (nomatch htask)⟩

end Connection

end AuditGateway
