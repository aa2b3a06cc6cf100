import AuditGateway.Audit.WriterOrder

set_option relaxedAutoImplicit false
set_option autoImplicit false

/-!
# How the audit moves on

Whoever waits for an audit call relies on little of what the audit does meanwhile: entries are
handed in under new numbers, nothing that was logged or written goes away, and a caller returns
only by reading its own answer.

## Main definitions

* `Pipeline.Evolves` — the audit moves on.
* `Pipeline.Queues` — who queues what.

## Main results

* `Pipeline.evolves_step` — every step of the audit moves it on.
* `Pipeline.queues_step` — commands are queued by their callers only.
-/

namespace AuditGateway

namespace Pipeline

variable {c : Crates} {s t : Pipeline}

/-- The audit moves on: numbers of calls grow, entries are handed in under new numbers, and rows
stay. -/
structure Evolves (s t : Pipeline) : Prop where
  calls_le : s.calls ≤ t.calls
  items_old : ∀ item ∈ items (t.holding ++ t.queued),
    item ∈ items (s.holding ++ s.queued) ∨ item.id = s.calls
  log_prefix : s.log <+: t.log
  written_prefix : s.trail.written <+: t.trail.written

namespace Evolves

/-- Nothing has happened. -/
theorem refl (s : Pipeline) : Evolves s s :=
  ⟨le_rfl, fun _ hitem => .inl hitem, List.prefix_refl _, List.prefix_refl _⟩

/-- Callers and commands only move. -/
theorem of_sublist {holding : List Command} (h : holding.Sublist s.holding)
    (hholding : t.holding = holding) (hqueued : t.queued = s.queued) (hcalls : t.calls = s.calls)
    (hlog : s.log <+: t.log) (hwritten : s.trail.written <+: t.trail.written) : Evolves s t := by
  refine ⟨hcalls.ge, fun item hitem => .inl ?_, hlog, hwritten⟩
  rw [hholding, hqueued, mem_items, List.mem_append] at hitem
  rw [mem_items, List.mem_append]
  exact hitem.imp_left fun hmem => h.subset hmem

/-- A new call holds its command. -/
theorem hold (s : Pipeline) {t : Pipeline} {command : Command} (hid : command.id = s.calls)
    (hholding : t.holding = s.holding ++ [command]) (hqueued : t.queued = s.queued)
    (hcalls : t.calls = s.calls + 1) (hlog : t.log = s.log) (htrail : t.trail = s.trail) :
    Evolves s t := by
  refine ⟨by omega, fun item hitem => ?_, by rw [hlog], by rw [htrail]⟩
  rw [hholding, hqueued, mem_items, List.append_assoc, List.mem_append, List.mem_append,
    List.mem_singleton] at hitem
  rw [mem_items, List.mem_append]
  rcases hitem with hitem | hitem | hitem
  · exact .inl (.inl hitem)
  · rw [← hitem] at hid
    exact .inr hid
  · exact .inl (.inr hitem)

end Evolves

/-- A commit writes behind the rows that are there. -/
theorem written_prefix_of_append {commits : Bool} {entries : List AuditEntry} {seqs : List ℤ}
    {before after : Trail} (h : before.append c commits entries = .ok (seqs, after)) :
    before.written <+: after.written := by
  unfold Trail.append at h
  split at h
  · cases h
  · next store hstore =>
    cases hres : AuditGateway.append c commits before.db store entries with
    | error e =>
      rw [hres] at h
      cases h
    | ok res =>
      rw [hres] at h
      cases h
      exact List.prefix_append ..

/-- A caller hands an entry in. -/
theorem evolves_record {entry : AuditEntry} {waits : Bool}
    (hs : step c s (.record entry waits) = some t) : Evolves s t ∧ t.returned = s.returned := by
  rcases step_record hs with rfl | ⟨acked, rfl⟩
  · refine ⟨⟨Nat.le_succ _, fun item hitem => ?_, List.prefix_refl _, List.prefix_refl _⟩, rfl⟩
    have hitem' : Command.append item ∈
        s.holding ++ (s.queued ++ [.append ⟨s.calls, entry, false⟩]) := mem_items.1 hitem
    rw [← List.append_assoc] at hitem'
    rcases List.mem_append.1 hitem' with hmem | hmem
    · exact .inl (mem_items.2 hmem)
    · obtain rfl := Command.append.inj (List.mem_singleton.1 hmem)
      exact .inr rfl
  · exact ⟨.hold s rfl rfl rfl rfl rfl rfl, rfl⟩

/-- A caller gets room. -/
theorem evolves_send {id : ℕ} (hs : step c s (.send id) = some t) :
    Evolves s t ∧ t.returned = s.returned := by
  obtain ⟨command, hfind, rfl⟩ := step_send hs
  refine ⟨⟨le_rfl, fun item hitem => .inl ?_, List.prefix_refl _, List.prefix_refl _⟩, rfl⟩
  have hitem' : Command.append item ∈ (s.holding.eraseP fun command => command.id = id) ++
      (s.queued ++ [command]) := mem_items.1 hitem
  rw [mem_items]
  simp only [List.mem_append, List.mem_singleton] at hitem' ⊢
  rcases hitem' with hmem | hmem | hmem
  · exact .inl (List.mem_of_mem_eraseP hmem)
  · exact .inr hmem
  · rw [hmem]
    exact .inl (List.mem_of_find?_eq_some hfind)

/-- A caller has waited for too long. -/
theorem evolves_timeout {id : ℕ} (hs : step c s (.timeout id) = some t) :
    Evolves s t ∧ t.returned = s.returned := by
  obtain ⟨entry, -, rfl⟩ := step_timeout hs
  exact ⟨.of_sublist List.eraseP_sublist rfl rfl rfl (List.prefix_refl _) (List.prefix_refl _),
    rfl⟩

/-- A caller is dropped. -/
theorem evolves_cancel {id : ℕ} (hs : step c s (.cancel id) = some t) :
    Evolves s t ∧ t.returned = s.returned := by
  rcases step_cancel hs with ⟨command, -, rfl⟩ | ⟨-, rfl⟩ | ⟨answer, -, rfl⟩
  · exact ⟨.of_sublist List.eraseP_sublist rfl rfl rfl (List.prefix_refl _) (List.prefix_refl _),
      rfl⟩
  · exact ⟨.of_sublist (List.Sublist.refl _) rfl rfl rfl (List.prefix_refl _)
      (List.prefix_refl _), rfl⟩
  · exact ⟨.of_sublist (List.Sublist.refl _) rfl rfl rfl (List.prefix_refl _)
      (List.prefix_refl _), rfl⟩

/-- A caller that reads its answer returns. -/
theorem evolves_finish {id : ℕ} (hs : step c s (.finish id) = some t) :
    Evolves s t ∧ ∀ p ∈ t.returned, p ∈ s.returned ∨ p.1 = id := by
  obtain ⟨answer, hfind, rfl⟩ := step_finish hs
  have hread : ∀ u : Pipeline, Evolves u (u.read id answer) ∧
      (u.read id answer).returned = u.returned := by
    intro u
    unfold Pipeline.read
    split
    · exact ⟨.refl u, rfl⟩
    · exact ⟨.of_sublist (List.Sublist.refl _) rfl rfl rfl (List.prefix_refl _)
        (List.prefix_refl _), rfl⟩
    · exact ⟨.of_sublist (List.Sublist.refl _) rfl rfl rfl (List.prefix_refl _)
        (List.prefix_refl _), rfl⟩
  obtain ⟨hevolves, hreturned⟩ := hread { s with
    answers := s.answers.eraseP fun answer => answer.1 = id
    returned := s.returned ++ [(id, answer)] }
  refine ⟨⟨hevolves.calls_le, hevolves.items_old, hevolves.log_prefix,
    hevolves.written_prefix⟩, fun p hp => ?_⟩
  rw [hreturned] at hp
  refine (List.mem_append.1 hp).imp_right fun hp => ?_
  rw [List.mem_singleton.1 hp]

/-! ## The writer -/

/-- The writer, a restart and a change of the mode. -/
def Op.ofWriter : Op → Bool
  | recv | tryRecvEmpty | startBatch _ | write _ | finishCommand .. | panic | restart .. => true
  | setMode _ => true
  | _ => false

/-- The callers are where they were; the log and the trail grow. -/
structure Writes (s t : Pipeline) : Prop where
  holding : t.holding = s.holding
  queued : t.queued = s.queued
  calls : t.calls = s.calls
  returned : t.returned = s.returned
  log_prefix : s.log <+: t.log
  written_prefix : s.trail.written <+: t.trail.written

/-- A step that leaves the trail and the callers alone writes nothing. -/
theorem Writes.of_eq (hholding : t.holding = s.holding) (hqueued : t.queued = s.queued)
    (hcalls : t.calls = s.calls) (hreturned : t.returned = s.returned) (hlog : t.log = s.log)
    (htrail : t.trail = s.trail) : Writes s t :=
  ⟨hholding, hqueued, hcalls, hreturned, by rw [hlog], by rw [htrail]⟩

/-- A batch that is written is a step of the pipeline. -/
theorem Writes.evolves (h : Writes s t) : Evolves s t :=
  .of_sublist (List.Sublist.refl _) h.holding h.queued h.calls h.log_prefix h.written_prefix

/-- What the writer does to the callers, and to the trail. -/
theorem writes_step {op : Op} (h : Ordered c s) (hs : step c s op = some t)
    (hop : op.ofWriter = true) : Writes s t := by
  cases op with
  | setMode mode =>
    cases hs
    exact .of_eq rfl rfl rfl rfl rfl rfl
  | recv =>
    obtain ⟨writer, queue, hc⟩ := collected_recv hs
    rw [hc.eq]
    exact .of_eq rfl rfl rfl rfl rfl rfl
  | tryRecvEmpty =>
    obtain ⟨writer, queue, hc⟩ := collected_tryRecvEmpty hs
    rw [hc.eq]
    exact .of_eq rfl rfl rfl rfl rfl rfl
  | startBatch now =>
    rcases startBatch_cases h hs with ⟨writer, queue, hc⟩ | ⟨item, batch, after, hw, rfl⟩
    · rw [hc.eq]
      exact .of_eq rfl rfl rfl rfl rfl rfl
    · exact .of_eq rfl rfl rfl rfl rfl rfl
  | write commits =>
    obtain ⟨batch, after, lostBefore, now, -, hcase⟩ := step_write hs
    rcases hcase with ⟨seqs, trail, happend, rfl⟩ | ⟨e, -, rfl⟩
    · exact ⟨rfl, rfl, rfl, rfl, List.prefix_append .., written_prefix_of_append happend⟩
    · exact .of_eq rfl rfl rfl rfl rfl rfl
  | finishCommand commits now stamp =>
    rcases step_finishCommand hs with ⟨id, cutoff, -, hcase⟩ | ⟨id, -, rfl⟩
    · rcases hcase with ⟨n, trail, hprune, rfl⟩ | ⟨e, rfl⟩
      · exact ⟨rfl, rfl, rfl, rfl, List.prefix_refl _, (step_of_pruneBefore hprune).2.2.1⟩
      · exact .of_eq rfl rfl rfl rfl rfl rfl
    · exact .of_eq rfl rfl rfl rfl rfl rfl
  | panic =>
    rcases step_panic hs with ⟨batch, after, lostBefore, now, -, rfl⟩ | ⟨id, cutoff, -, rfl⟩
    · exact .of_eq rfl rfl rfl rfl rfl rfl
    · exact .of_eq rfl rfl rfl rfl rfl rfl
  | restart commits now =>
    obtain ⟨-, db, store, -, rfl⟩ := step_restart hs
    exact ⟨rfl, rfl, rfl, rfl, List.prefix_refl _, List.prefix_append ..⟩
  | _ => cases hop

/-- **What a step of the audit keeps**; only a caller that reads its answer returns. -/
theorem evolves_step {op : Op} (h : Ordered c s) (hs : step c s op = some t) :
    Evolves s t ∧ ∀ p ∈ t.returned, p ∈ s.returned ∨ op = .finish p.1 := by
  have hreturned : Evolves s t ∧ t.returned = s.returned →
      Evolves s t ∧ ∀ p ∈ t.returned, p ∈ s.returned ∨ op = .finish p.1 := by
    rintro ⟨hevolves, heq⟩
    refine ⟨hevolves, fun p hp => ?_⟩
    rw [heq] at hp
    exact .inl hp
  cases op with
  | record entry waits => exact hreturned (evolves_record hs)
  | recordCommitted entry =>
    cases hs
    exact hreturned ⟨.hold s rfl rfl rfl rfl rfl rfl, rfl⟩
  | pruneBefore cutoff =>
    cases hs
    exact hreturned ⟨.hold s rfl rfl rfl rfl rfl rfl, rfl⟩
  | flush =>
    cases hs
    exact hreturned ⟨.hold s rfl rfl rfl rfl rfl rfl, rfl⟩
  | send id => exact hreturned (evolves_send hs)
  | timeout id => exact hreturned (evolves_timeout hs)
  | cancel id => exact hreturned (evolves_cancel hs)
  | finish id =>
    obtain ⟨hevolves, hfinish⟩ := evolves_finish hs
    refine ⟨hevolves, fun p hp => (hfinish p hp).imp_right ?_⟩
    rintro rfl
    rfl
  | _ =>
    have hwrites := writes_step h hs rfl
    exact hreturned ⟨hwrites.evolves, hwrites.returned⟩

/-! ## What is queued -/

/-- Commands are queued by callers that hold them or that have just called, and a flush is held
until it is queued. -/
structure Queues (op : Op) (s t : Pipeline) : Prop where
  queued : ∃ l, t.queued = s.queued ++ l ∧ ∀ d ∈ l, d ∈ s.holding ∨ d.id = s.calls
  holding : ∀ d ∈ t.holding, d ∈ s.holding ∨ d.id = s.calls
  flush : ∀ k, op ≠ .cancel k → .flush k ∈ s.holding →
    .flush k ∈ t.holding ∨ .flush k ∈ t.queued

/-- Nothing is queued, and nobody stops holding. -/
theorem Queues.of_eq {op : Op} (hholding : t.holding = s.holding) (hqueued : t.queued = s.queued) :
    Queues op s t := by
  refine ⟨⟨[], by rw [hqueued, List.append_nil], fun _ hd => nomatch hd⟩, fun d hd => .inl ?_,
    fun k _ hk => .inl ?_⟩
  · rwa [hholding] at hd
  · rwa [hholding]

/-- A new call holds its command. -/
theorem Queues.hold {op : Op} {command : Command} (hid : command.id = s.calls)
    (hholding : t.holding = s.holding ++ [command]) (hqueued : t.queued = s.queued) :
    Queues op s t := by
  refine ⟨⟨[], by rw [hqueued, List.append_nil], fun _ hd => nomatch hd⟩, fun d hd => ?_,
    fun k _ hk => .inl ?_⟩
  · rw [hholding] at hd
    rcases List.mem_append.1 hd with hd | hd
    · exact .inl hd
    · rw [List.mem_singleton.1 hd]
      exact .inr hid
  · rw [hholding]
    exact List.mem_append_left _ hk

/-- A caller stops holding its command. -/
theorem mem_eraseP_of_holding (h : Ordered c s) {id : ℕ} {command d : Command}
    (hfind : s.holding.find? (fun command => command.id = id) = some command)
    (hd : d ∈ s.holding) (hne : d ≠ command) :
    d ∈ s.holding.eraseP fun command => command.id = id := by
  have hid : command.id = id := by simpa using List.find?_some hfind
  refine (List.mem_eraseP_of_neg ?_).2 hd
  rw [decide_eq_true_eq]
  intro heq
  exact hne (h.eq_of_holding hd (List.mem_of_find?_eq_some hfind) (heq.trans hid.symm))

/-- Every operation queues what it says. -/
theorem queues_step {op : Op} (h : Ordered c s) (hs : step c s op = some t) : Queues op s t := by
  cases op with
  | record entry waits =>
    rcases step_record hs with rfl | ⟨acked, rfl⟩
    · refine ⟨⟨[.append ⟨s.calls, entry, false⟩], rfl, fun d hd => .inr ?_⟩, fun d hd => .inl hd,
        fun k _ hk => .inl hk⟩
      rw [List.mem_singleton.1 hd]
      rfl
    · exact .hold rfl rfl rfl
  | recordCommitted entry =>
    cases hs
    exact .hold rfl rfl rfl
  | pruneBefore cutoff =>
    cases hs
    exact .hold rfl rfl rfl
  | flush =>
    cases hs
    exact .hold rfl rfl rfl
  | send id =>
    obtain ⟨command, hfind, rfl⟩ := step_send hs
    have hmem := List.mem_of_find?_eq_some hfind
    refine ⟨⟨[command], rfl, fun d hd => .inl ?_⟩,
      fun d hd => .inl (List.mem_of_mem_eraseP hd), fun k _ hk => ?_⟩
    · rwa [List.mem_singleton.1 hd]
    · by_cases heq : .flush k = command
      · rw [heq]
        exact .inr (List.mem_append_right _ (List.mem_singleton_self _))
      · exact .inl (mem_eraseP_of_holding h hfind hk heq)
  | timeout id =>
    obtain ⟨entry, hfind, rfl⟩ := step_timeout hs
    exact ⟨⟨[], (List.append_nil _).symm, fun _ hd => by cases hd⟩,
      fun d hd => .inl (List.mem_of_mem_eraseP hd),
      fun k _ hk => .inl (mem_eraseP_of_holding h hfind hk fun heq => by cases heq)⟩
  | cancel id =>
    rcases step_cancel hs with ⟨command, hfind, rfl⟩ | ⟨-, rfl⟩ | ⟨answer, -, rfl⟩
    · refine ⟨⟨[], (List.append_nil _).symm, fun _ hd => by cases hd⟩,
        fun d hd => .inl (List.mem_of_mem_eraseP hd), fun k hne hk => .inl ?_⟩
      refine mem_eraseP_of_holding h hfind hk fun heq => hne ?_
      have hid : command.id = id := by simpa using List.find?_some hfind
      rw [← hid, ← heq]
      rfl
    · exact .of_eq rfl rfl
    · exact .of_eq rfl rfl
  | finish id =>
    obtain ⟨answer, hfind, rfl⟩ := step_finish hs
    unfold Pipeline.read
    split
    · exact .of_eq rfl rfl
    · exact .of_eq rfl rfl
    · exact .of_eq rfl rfl
  | _ =>
    have hwrites := writes_step h hs rfl
    exact .of_eq hwrites.holding hwrites.queued

end Pipeline

end AuditGateway
