import AuditGateway.Relay.Tasks
import Mathlib.Data.List.Sort

set_option relaxedAutoImplicit false
set_option autoImplicit false

/-!
# The order of requests

Requests are handed over to the upstream connection in the order the client sent them, as long
as none of them overtakes an earlier one that waits for the commit of its intent, and the tasks
that were not polled yet when the client was gone are collected in that order. What was handed
over, what waits for a commit and what is not polled yet is then a part of what the client sent,
in the same order.

## Main definitions

* `Connection.line` — the requests handed over, waiting and not polled yet, in this order.
* `Connection.InOrder` — the line is a part of what the client sent.
* `Connection.KeepsPlace` — the steps in which no request overtakes another.

## Main results

* `Connection.inOrder_step` — these steps keep the order.
* `Connection.requests_in_order` — so does every run of them.
* `Connection.request_overtakes` — a read that overtakes a write.
-/

namespace AuditGateway

/-- The request that was handed over, with its number. -/
def Sent.request? : Sent → Option (RequestMessage × ℕ)
  | read .. => none
  | request id message => some (message, id)

/-- The requests among what was handed over. -/
def requests (sent : List Sent) : List (RequestMessage × ℕ) := sent.filterMap Sent.request?

/-- The request of a task, with its number. -/
def Task.tag (task : Task) : RequestMessage × ℕ := (task.request, task.id)

namespace Connection

variable {x : Texts} {ctx : Ctx} {s t u : Connection}

/-- What was handed over, what waits for a commit, and what is not polled yet. -/
def line (s : Connection) : List (RequestMessage × ℕ) :=
  requests s.sent ++ (s.committing.map (fun p => p.1.tag) ++ s.fresh.map Task.tag)

/-- The line is a part of what the client sent, in the same order. -/
def InOrder (s : Connection) : Prop := s.line.Sublist s.received.zipIdx

/-- The steps in which no request overtakes another: a request that waits for no commit itself
starts only when no other one waits, commits succeed in the order of the requests, and new
tasks are collected in this order when the client is gone. -/
def KeepsPlace (x : Texts) (ctx : Ctx) (s : Connection) : Op → Prop
  | .poll settings _ => s.committing = [] ∨ ∀ task ∈ s.fresh.head?,
    (intentOf x ctx settings s.shared.names (attributed ctx s.shared.sessions task.request)
      task.request).isSome
  | .committed id ok _ _ => ok = true → ∀ p ∈ s.committing, id ≤ p.1.id
  | .finishAudited order => order.Pairwise (· < ·)
  | _ => True

/-! ## The line -/

/-- The requests of two lists of messages. -/
@[simp] theorem requests_append (l m : List Sent) :
    requests (l ++ m) = requests l ++ requests m := List.filterMap_append ..

/-- A task that is handed over sends its request at once. -/
theorem requests_handed (s : Connection) (task : Task) (awaiting : Awaiting)
    (preRead : Option PreRead) :
    requests (s.handed task awaiting preRead).sent = requests s.sent ++ [task.tag] := by
  have hread : requests (preRead.map (Sent.read task.id)).toList = [] := by
    cases preRead <;> rfl
  rw [handed, requests_append, requests_append, hread, List.append_nil]
  rfl

/-- What waits in line is kept. -/
theorem Frame.line_eq (h : Frame s t) : t.line = s.line := by
  rw [line, h.sent, h.committing, h.fresh, line]

/-- A frame around a step in which tasks only leave the line. -/
theorem InOrder.of_sublist (h : InOrder s) (hline : t.line.Sublist s.line)
    (hreceived : t.received = s.received) : InOrder t := by
  rw [InOrder, hreceived]
  exact hline.trans h

/-- What was handed over stays when all tasks are dropped. -/
theorem sublist_line (s : Connection) : (requests s.sent ++ ([] ++ [])).Sublist s.line := by
  rw [List.append_nil, List.append_nil, line]
  exact List.sublist_append_left ..

/-- A panic only takes out of the line. -/
theorem line_panic_sublist (s : Connection) : s.panic.line.Sublist s.line := by
  unfold panic
  split_ifs
  · exact sublist_line s
  · exact List.Sublist.refl _

/-- A panic does not change what was received. -/
theorem received_panic (s : Connection) : s.panic.received = s.received := by
  unfold panic
  split_ifs <;> rfl

/-- Numbers grow along the line. -/
theorem InOrder.pairwise_lt (h : InOrder s) :
    (s.line.map Prod.snd).Pairwise (· < ·) := by
  have hsub := h.map Prod.snd
  rw [List.zipIdx_map_snd] at hsub
  exact List.pairwise_lt_range' .. |>.sublist hsub

/-- The numbers of what waits for a commit and of what is not polled yet. -/
theorem InOrder.ids (h : InOrder s) :
    ((s.committing.map fun p => p.1.id) ++ s.fresh.map (·.id)).Pairwise (· < ·) := by
  have hline := h.pairwise_lt
  rw [line, List.map_append, List.map_append, List.map_map, List.map_map] at hline
  exact (List.pairwise_append.1 hline).2.1

/-! ## Every step that keeps its place keeps the order -/

/-- Receiving a request keeps the order. -/
theorem inOrder_receive (h : InOrder s) (message : RequestMessage)
    (upstream : Except StatusCode Unit) : InOrder (s.receive message upstream) := by
  -- a request that starts no task only makes the list longer that the line is a part of
  have hskip : s.line.Sublist (s.received ++ [message]).zipIdx := by
    rw [List.zipIdx_append]
    exact h.trans (List.sublist_append_left ..)
  unfold receive
  dsimp only
  split_ifs
  · split
    · exact hskip
    · exact hskip
  · split
    · exact hskip
    · show (requests s.sent ++ (s.committing.map (fun p => p.1.tag) ++
        (s.fresh ++ [_]).map Task.tag)).Sublist (s.received ++ [message]).zipIdx
      rw [List.map_append, ← List.append_assoc, ← List.append_assoc, List.zipIdx_append,
        List.append_assoc (requests s.sent)]
      refine h.append ?_
      rw [Nat.zero_add]
      exact List.Sublist.refl _

/-- Finished tasks keep the order. -/
theorem inOrder_finishAudited (h : InOrder s) {order : List ℕ} (hsorted : order.Pairwise (· < ·))
    (hs : step x ctx s (.finishAudited order) = some t) : InOrder t := by
  obtain ⟨hguard, rfl⟩ := step_finishAudited hs
  have hfresh := (List.pairwise_append.1 h.ids).2.1
  have hkept : ((s.fresh.filter (·.audited)).map (·.id)).Pairwise (· < ·) :=
    hfresh.sublist (List.filter_sublist.map _)
  -- both orders are sorted, so they are the same
  have horder : order = (s.fresh.filter (·.audited)).map (·.id) :=
    hguard.2.eq_of_pairwise (fun a b _ _ hab hba => by omega) hsorted hkept
  refine h.of_sublist ?_ rfl
  show (requests s.sent ++ ((s.committing.filter fun p => p.1.audited).map (fun p => p.1.tag) ++
    (order.filterMap fun id => (s.fresh.filter (·.audited)).find? fun task =>
      task.id = id).map Task.tag)).Sublist _
  rw [horder, filterMap_find?_id (hkept.imp fun hlt => by omega)]
  exact (List.Sublist.refl _).append
    ((List.filter_sublist.map _).append (List.filter_sublist.map _))

/-- The next task leaves the list of new tasks. -/
theorem inOrder_start (h : InOrder s) {task : Task} {fresh : List Task}
    (hfresh : s.fresh = task :: fresh) {settings : Settings}
    (hplace : s.committing = [] ∨ (intentOf x ctx settings s.shared.names
      (attributed ctx s.shared.sessions task.request) task.request).isSome)
    (u : Connection) (hu : u = { s with fresh := fresh, started := u.started })
    (ht : StartCase x ctx settings task u t) : InOrder t := by
  have hline : s.line = requests s.sent ++ (s.committing.map (fun p => p.1.tag) ++
      task.tag :: fresh.map Task.tag) := by
    rw [line, hfresh, List.map_cons]
  have hline' : u.line = requests s.sent ++ (s.committing.map (fun p => p.1.tag) ++
      fresh.map Task.tag) := by rw [hu, line]
  have hsub : u.line.Sublist s.line := by
    rw [hline, hline']
    exact (List.Sublist.refl _).append
      ((List.Sublist.refl _).append (List.sublist_cons_self ..))
  have hreceived : u.received = s.received := by rw [hu]
  cases ht with
  | answered hframe =>
    refine h.of_sublist ?_ (hframe.received.trans hreceived)
    rw [hframe.line_eq]
    exact hsub
  | panicked v hframe _ ht =>
    rw [ht]
    refine h.of_sublist ?_ ((received_panic v).trans (hframe.received.trans hreceived))
    refine (line_panic_sublist v).trans ?_
    rw [hframe.line_eq]
    exact hsub
  | held v f entry hframe hf hentry ht =>
    -- the task is behind all that wait, and in front of all new ones
    rw [ht]
    refine h.of_sublist ?_ (hframe.received.trans hreceived)
    show (requests v.sent ++ ((v.committing ++ [(task, f, entry)]).map (fun p => p.1.tag) ++
      v.fresh.map Task.tag)).Sublist _
    rw [hframe.sent, hframe.committing, hframe.fresh, hu, hline]
    simp
  | sent v f awaiting preRead hframe hf hintent _ ht =>
    -- nobody waits, so the task is behind all that was handed over
    have hnone : s.committing = [] := by
      rcases hplace with hnone | hsome
      · exact hnone
      · rw [hu] at hf
        rw [intentOf_eq hf, hintent] at hsome
        cases hsome
    rw [ht]
    refine h.of_sublist ?_ (hframe.received.trans hreceived)
    show (requests (v.handed task awaiting preRead).sent ++
      (v.committing.map (fun p => p.1.tag) ++ v.fresh.map Task.tag)).Sublist _
    rw [requests_handed, hframe.sent, hframe.committing, hframe.fresh, hu, hline, hnone]
    simp

/-- A poll that keeps the places keeps the order. -/
theorem inOrder_poll (h : InOrder s) {settings : Settings}
    {checks : Except StatusCode UserIdentity}
    (hplace : KeepsPlace x ctx s (.poll settings checks))
    (hs : step x ctx s (.poll settings checks) = some t) : InOrder t := by
  obtain ⟨task, fresh, hfresh, -, rfl⟩ := step_poll hs
  refine inOrder_start h hfresh ?_ _ rfl (start_cases _ settings checks)
  refine hplace.imp_right fun hsome => hsome task ?_
  rw [hfresh]
  rfl

/-- A commit of the oldest intent keeps the order. -/
theorem inOrder_committed (h : InOrder s) {id instant : ℕ} {ok : Bool} {now : DateTime}
    (hplace : ok = true → ∀ p ∈ s.committing, id ≤ p.1.id)
    (hs : step x ctx s (.committed id ok now instant) = some t) : InOrder t := by
  obtain ⟨task, f, entry, hfind, -, hcase⟩ := step_committed hs
  have herase : (s.committing.eraseP fun p => p.1.id = id).Sublist s.committing :=
    List.eraseP_sublist
  have hsub : (requests s.sent ++ ((s.committing.eraseP fun p => p.1.id = id).map
      (fun p => p.1.tag) ++ s.fresh.map Task.tag)).Sublist s.line :=
    (List.Sublist.refl _).append ((herase.map _).append (List.Sublist.refl _))
  rcases hcase with ⟨hok, rfl⟩ | ⟨-, rfl⟩
  · rcases handOver_cases x ctx
      (record { s with committing := s.committing.eraseP fun p => p.1.id = id } id entry) task
      (.forward f) f.preRead now instant with heq | hframe
    · -- the task is the first of those that wait
      rw [heq]
      refine h.of_sublist ?_ rfl
      have hid : task.id = id := by simpa using List.find?_some hfind
      have hfirst : ∃ rest, s.committing = (task, f, entry) :: rest := by
        cases hcommitting : s.committing with
        | nil => rw [hcommitting] at hfind; cases hfind
        | cons p rest =>
          have hids := (List.pairwise_append.1 h.ids).1
          rw [hcommitting, List.map_cons, List.pairwise_cons] at hids
          have hle := hplace hok p (by rw [hcommitting]; exact List.mem_cons_self ..)
          rw [hcommitting, List.find?_cons] at hfind
          by_cases hp : p.1.id = id
          · rw [decide_eq_true hp] at hfind
            exact ⟨rest, by rw [Option.some.inj hfind]⟩
          · rw [decide_eq_false hp] at hfind
            have hlt := hids.1 _ (List.mem_map_of_mem (List.mem_of_find?_eq_some hfind))
            dsimp only at hlt
            omega
      obtain ⟨rest, hrest⟩ := hfirst
      show (requests (handed (record { s with committing := _ } id entry) task _ _).sent ++
        ((s.committing.eraseP fun p => p.1.id = id).map (fun p => p.1.tag) ++
          s.fresh.map Task.tag)).Sublist _
      rw [requests_handed, line, hrest, List.eraseP_cons_of_pos (by simpa using hid)]
      show (requests s.sent ++ [task.tag] ++ _).Sublist _
      simp
    · refine h.of_sublist ?_ hframe.received
      rw [hframe.line_eq]
      exact hsub
  · exact h.of_sublist hsub rfl

/-- An answer keeps the order. -/
theorem inOrder_answer (h : InOrder s) {id instant : ℕ} {answer : Answer}
    {read : Option (List DataValue)} {checks : Except StatusCode Unit} {now : DateTime}
    (hs : step x ctx s (.answer id answer read checks now instant) = some t) : InOrder t := by
  obtain ⟨task, awaiting, hfind, -, rfl⟩ := step_answer hs
  rcases frame_complete x ctx
    { s with awaiting := s.awaiting.eraseP fun p => p.1.id = id } task awaiting answer read
      checks now instant with hframe | ⟨heq, -⟩
  · refine h.of_sublist ?_ hframe.received
    rw [hframe.line_eq]
    exact List.Sublist.refl _
  · rw [heq]
    refine h.of_sublist ?_ (received_panic _)
    exact line_panic_sublist _

/-- **Step lemma**: a step in which no request overtakes another keeps the order. -/
theorem inOrder_step (h : InOrder s) {op : Op} (hplace : KeepsPlace x ctx s op)
    (hs : step x ctx s op = some t) : InOrder t := by
  cases op with
  | elsewhere shared =>
    cases hs
    exact h
  | receive message upstream =>
    rcases step_receive hs with ⟨-, rfl⟩ | ⟨-, rfl⟩
    · exact inOrder_receive h message upstream
    · show s.line.Sublist (s.received ++ [message]).zipIdx
      rw [List.zipIdx_append]
      exact h.trans (List.sublist_append_left ..)
  | upstreamClosed =>
    cases hs
    exact h
  | close =>
    obtain ⟨-, rfl⟩ := step_close hs
    exact h
  | stop =>
    obtain ⟨-, rfl⟩ := step_stop hs
    exact h
  | finishAudited order => exact inOrder_finishAudited h hplace hs
  | giveUp =>
    obtain ⟨-, rfl⟩ := step_giveUp hs
    exact h.of_sublist (sublist_line s) rfl
  | poll settings checks => exact inOrder_poll h hplace hs
  | committed id ok now instant => exact inOrder_committed h hplace hs
  | answer id answer read checks now instant => exact inOrder_answer h hs

/-- **Requests are handed over in client order**, in every run of a connection in which no
request overtakes an earlier one that waits for the commit of its intent: what was handed over
is a part of what the client sent, in the same order and each at most once. -/
theorem requests_in_order (shared : Shared) {ops : List Op}
    (hplace : Machine.Meets (step x ctx) (KeepsPlace x ctx) { shared := shared } ops)
    (hr : Machine.run (step x ctx) { shared := shared } ops = some t) :
    (requests t.sent).Sublist t.received.zipIdx := by
  have h : InOrder t := Machine.run_invariant_of_meets
    (fun _ _ _ h hop hs => inOrder_step h hop hs)
    (show InOrder { shared := shared } from List.Sublist.refl []) hplace hr
  exact (List.sublist_append_left ..).trans h

/-- A write and a read behind it, in fail-open mode. -/
def openRun : List Op :=
  [.receive plainWrite (.ok ()), .receive plainRead (.ok ()),
    .poll (plainSettings .failOpen) (.ok .anonymous),
    .poll (plainSettings .failOpen) (.ok .anonymous)]

/-- Two requests of a session reach the server in the order of the client. -/
theorem requests_in_order_openRun : ∃ t,
    Machine.run (step plainTexts plainCtx) { shared := noSessions } openRun = some t ∧
      (requests t.sent).map Prod.snd = [0, 1] ∧ (requests t.sent).Sublist t.received.zipIdx := by
  obtain ⟨t, ht⟩ := Option.isSome_iff_exists.1
    (show (Machine.run (step plainTexts plainCtx) { shared := noSessions } openRun).isSome =
      true from rfl)
  have hsent : (Machine.run (step plainTexts plainCtx) { shared := noSessions } openRun).map
      (fun t => (requests t.sent).map Prod.snd) = some [0, 1] := rfl
  rw [ht, Option.map_some, Option.some.injEq] at hsent
  refine ⟨t, ht, hsent, requests_in_order noSessions ?_ ht⟩
  -- nobody ever waits for a commit
  refine ⟨trivial, fun t₁ h₁ => ⟨trivial, fun t₂ h₂ => ⟨.inl ?_, fun t₃ h₃ => ⟨.inl ?_, ?_⟩⟩⟩⟩
  · obtain rfl := Option.some.inj h₁
    obtain rfl := Option.some.inj h₂
    rfl
  · obtain rfl := Option.some.inj h₁
    obtain rfl := Option.some.inj h₂
    obtain rfl := Option.some.inj h₃
    rfl
  · exact fun _ _ => trivial

/-- The same in fail-closed mode; the commit of the intent takes longer than the read. -/
def overtakingRun : List Op :=
  [.receive plainWrite (.ok ()), .receive plainRead (.ok ()),
    .poll (plainSettings .failClosed) (.ok .anonymous),
    .poll (plainSettings .failClosed) (.ok .anonymous), .committed 0 true ⟨0⟩ 0]

/-- The read overtakes the write. -/
theorem request_overtakes : ∃ t,
    Machine.run (step plainTexts plainCtx) { shared := noSessions } overtakingRun = some t ∧
      (requests t.sent).map Prod.snd = [1, 0] ∧
      ¬ (requests t.sent).Sublist t.received.zipIdx := by
  obtain ⟨t, ht⟩ := Option.isSome_iff_exists.1
    (show (Machine.run (step plainTexts plainCtx) { shared := noSessions }
      overtakingRun).isSome = true
      from rfl)
  have hsent : (Machine.run (step plainTexts plainCtx) { shared := noSessions } overtakingRun).map
      (fun t => ((requests t.sent).map Prod.snd, t.received.length)) = some ([1, 0], 2) := rfl
  rw [ht, Option.map_some, Option.some.injEq, Prod.mk.injEq] at hsent
  refine ⟨t, ht, hsent.1, fun hsub => ?_⟩
  have hids := hsub.map Prod.snd
  rw [List.zipIdx_map_snd, hsent.1, hsent.2] at hids
  revert hids
  decide

end Connection

end AuditGateway
