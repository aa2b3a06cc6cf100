import AuditGateway.Config.Target
import AuditGateway.Export.QuestDb

set_option relaxedAutoImplicit false
set_option autoImplicit false

/-!
# What a sent batch has come to

A batch counts as sent when `QuestDbSink::send` returns. What the server has stored by then is
read off the requests of the call and their answers: every record by its full line, or, where
the server refused the full line as invalid, by its minimal line.

## Main definitions

* `HttpAnswer`, `QuestDbSink.post` — an answer, and what `post` makes of it.
* `QuestDbSink.exchanges` — the requests of a call with their answers.
* `QuestDbSink.Delivered` — the server has every record in a line it is meant to have.
* `QuestDbSink.Honest` — a call that returns has delivered, and no failure goes unnoticed.

## Main results

* `QuestDbSink.honest_iff` — which answers make a call honest.
-/

namespace AuditGateway

/-- What comes of a request: no answer (a refused connection, a failed handshake, a timeout), or a
status with the body as far as it could be read. The timeout ends with the status, so the body is
assumed to end. -/
inductive HttpAnswer
  | failed (error : String)
  | answered (status : HttpStatus) (body : Option String)

/-- A status between 200 and 299. -/
def HttpStatus.isSuccess (status : HttpStatus) : Bool := 200 ≤ status.code && status.code < 300

namespace QuestDbSink

/-- `none` on success, else the status and the server's reason. -/
def post : HttpAnswer → PostResult
  | .failed error => .error error
  | .answered status body =>
    if status.isSuccess then .ok none else .ok (some (status, trim (body.getD "")))

/-- A request and what `post` returned. -/
abbrev Exchange := Body × PostResult

/-- The requests of `sendEach`. -/
def eachExchanges (post : ℕ → Body → PostResult) (n : ℕ) : List StoredRecord → List Exchange
  | [] => []
  | record :: records =>
    let full := Body.lines [record]
    (full, post n full) ::
      match post n full with
      | .error _ => []
      | .ok none => eachExchanges post (n + 1) records
      | .ok (some (_, text)) =>
        let minimal := Body.minimal record text
        (minimal, post (n + 1) minimal) ::
          match post (n + 1) minimal with
          | .ok none => eachExchanges post (n + 2) records
          | _ => []

/-- The requests of `send`. -/
def exchanges (post : ℕ → Body → PostResult) (records : List StoredRecord) : List Exchange :=
  (.lines records, post 0 (.lines records)) ::
    match post 0 (.lines records) with
    | .ok (some (status, _)) => if status.code ≠ 400 then [] else eachExchanges post 1 records
    | _ => []

/-- The records one by one: each accepted with its full line, or refused with it as invalid and
accepted with its minimal line. -/
inductive Settled : List StoredRecord → List Exchange → Prop
  | nil : Settled [] []
  | full {record : StoredRecord} {records : List StoredRecord} {rest : List Exchange}
      (h : Settled records rest) :
      Settled (record :: records) ((.lines [record], .ok none) :: rest)
  | minimal {record : StoredRecord} {records : List StoredRecord} {rest : List Exchange}
      {status : HttpStatus} {text : String} (hstatus : status.code = 400)
      (h : Settled records rest) :
      Settled (record :: records) ((.lines [record], .ok (some (status, text))) ::
        (.minimal record text, .ok none) :: rest)

/-- The server accepted the batch, or refused it as invalid and settled every record of it. -/
def Delivered (records : List StoredRecord) (done : List Exchange) : Prop :=
  done = [(.lines records, .ok none)] ∨
    ∃ status text rest, status.code = 400 ∧
      done = (.lines records, .ok (some (status, text))) :: rest ∧ Settled records rest

/-- The answers a request may get without a failure: it is accepted, or, with full lines, refused
as invalid. -/
def Fair : Exchange → Prop
  | (_, .ok none) => True
  | (.lines _, .ok (some (status, _))) => status.code = 400
  | _ => False

/-- An answer of success is fair. -/
@[simp] theorem fair_accepted (body : Body) : Fair (body, .ok none) := by cases body <;> trivial

/-- A refusal of full lines is fair if it is for their contents. -/
@[simp] theorem fair_refused (records : List StoredRecord) (status : HttpStatus) (text : String) :
    Fair (.lines records, .ok (some (status, text))) ↔ status.code = 400 := Iff.rfl

/-- If the call returns, its records are delivered; any other answer makes it an error. -/
def Honest (post : ℕ → Body → PostResult) (records : List StoredRecord) : Prop :=
  (send post records = .ok () → Delivered records (exchanges post records)) ∧
    ∀ e ∈ exchanges post records, ¬ Fair e → ∃ error, send post records = .error error

/-- For every record on its own, the full line or else the minimal line is accepted. -/
def Passes (post : ℕ → Body → PostResult) (n : ℕ) : List StoredRecord → Prop
  | [] => True
  | record :: records =>
    match post n (.lines [record]) with
    | .error _ => False
    | .ok none => Passes post (n + 1) records
    | .ok (some (_, text)) =>
      post (n + 1) (.minimal record text) = .ok none ∧ Passes post (n + 2) records

/-- The full line of some record on its own is refused with another status than 400. -/
def Degrades (post : ℕ → Body → PostResult) (n : ℕ) : List StoredRecord → Prop
  | [] => False
  | record :: records =>
    match post n (.lines [record]) with
    | .error _ => False
    | .ok none => Degrades post (n + 1) records
    | .ok (some (status, _)) => status.code ≠ 400 ∨ Degrades post (n + 2) records

/-! ## One by one -/

section Each

variable {post : ℕ → Body → PostResult}

/-- The records are through exactly if each of them passes. -/
theorem sendEach_eq_ok_iff (n : ℕ) (records : List StoredRecord) :
    sendEach post n records = .ok () ↔ Passes post n records := by
  induction records generalizing n with
  | nil => simp [sendEach, Passes]
  | cons record records ih =>
    rw [sendEach, Passes]
    rcases post n (.lines [record]) with e | _ | ⟨status, text⟩
    · simp
    · exact ih (n + 1)
    · dsimp only
      rcases post (n + 1) (.minimal record text) with e | _ | ⟨status', text'⟩
      · simp
      · simpa using ih (n + 2)
      · simp

/-- Records that are through are settled, unless one of them was degraded. -/
theorem settled_of_passes {n : ℕ} {records : List StoredRecord} (hpass : Passes post n records)
    (hgood : ¬ Degrades post n records) : Settled records (eachExchanges post n records) := by
  induction records generalizing n with
  | nil => exact .nil
  | cons record records ih =>
    rw [Passes] at hpass
    rw [Degrades] at hgood
    rw [eachExchanges]
    generalize post n (.lines [record]) = answer at hpass hgood ⊢
    rcases answer with e | _ | ⟨status, text⟩
    · exact hpass.elim
    · exact .full (ih hpass hgood)
    · dsimp only at hpass hgood ⊢
      obtain ⟨hstatus, hrest⟩ := not_or.1 hgood
      rw [hpass.1]
      exact .minimal (not_not.1 hstatus) (ih hpass.2 hrest)

/-- If the records are through, an unfair answer among theirs degraded a record. -/
theorem degrades_iff_of_passes {n : ℕ} {records : List StoredRecord}
    (hpass : Passes post n records) :
    Degrades post n records ↔ ∃ e ∈ eachExchanges post n records, ¬ Fair e := by
  induction records generalizing n with
  | nil => simp [Degrades, eachExchanges]
  | cons record records ih =>
    rw [Passes] at hpass
    rw [Degrades, eachExchanges]
    generalize post n (.lines [record]) = answer at hpass ⊢
    rcases answer with e | _ | ⟨status, text⟩
    · exact hpass.elim
    · simp only [List.exists_mem_cons_iff, fair_accepted, not_true, false_or]
      exact ih hpass
    · dsimp only at hpass ⊢
      rw [hpass.1]
      simp only [List.exists_mem_cons_iff, fair_accepted, fair_refused, not_true, false_or]
      rw [ih hpass.2]

end Each

/-! ## The call -/

section Call

variable {post : ℕ → Body → PostResult} {records : List StoredRecord}

/-- The batch as a whole is refused as invalid. -/
def Refused (post : ℕ → Body → PostResult) (records : List StoredRecord) : Prop :=
  ∃ status text, status.code = 400 ∧ post 0 (.lines records) = .ok (some (status, text))

/-- After a refused batch the records go one by one. -/
theorem send_of_refused (h : Refused post records) :
    send post records = sendEach post 1 records ∧
      ∃ status text, status.code = 400 ∧ exchanges post records =
        (.lines records, .ok (some (status, text))) :: eachExchanges post 1 records := by
  obtain ⟨status, text, hstatus, hpost⟩ := h
  refine ⟨by simp [send, hpost, hstatus], status, text, hstatus, ?_⟩
  simp [exchanges, hpost, hstatus]

/-- A call whose batch is not refused as invalid is honest. -/
theorem honest_of_not_refused (h : ¬ Refused post records) : Honest post records := by
  rw [Honest, send, exchanges]
  generalize hpost : post 0 (.lines records) = answer
  rcases answer with e | _ | ⟨status, text⟩
  · exact ⟨fun h => (nomatch h), fun _ _ _ => ⟨e, rfl⟩⟩
  · refine ⟨fun _ => .inl rfl, fun e he hfair => ?_⟩
    obtain rfl := List.mem_singleton.1 he
    exact absurd (fair_accepted _) hfair
  · have hstatus : status.code ≠ 400 := fun hs => h ⟨status, text, hs, hpost⟩
    simp only [hstatus, ne_eq, not_false_eq_true, if_true]
    exact ⟨fun h => (nomatch h), fun _ _ _ => ⟨_, rfl⟩⟩

/-- A call whose records do not all pass returns an error. -/
theorem error_of_not_passes (n : ℕ) (h : ¬ Passes post n records) :
    ∃ error, sendEach post n records = .error error := by
  rcases hsend : sendEach post n records with error | ⟨⟩
  · exact ⟨error, rfl⟩
  · exact absurd ((sendEach_eq_ok_iff n records).1 hsend) h

/-- **A call is honest except for one kind of answers**: the batch is refused as invalid, then a
full line is refused for another reason, and yet every record gets through in the one or the other
line. -/
theorem honest_iff (answers : ℕ → Body → HttpAnswer) (records : List StoredRecord) :
    Honest (fun n body => QuestDbSink.post (answers n body)) records ↔
      ¬ (Refused (fun n body => QuestDbSink.post (answers n body)) records ∧
        Passes (fun n body => QuestDbSink.post (answers n body)) 1 records ∧
        Degrades (fun n body => QuestDbSink.post (answers n body)) 1 records) := by
  generalize (fun n body => QuestDbSink.post (answers n body)) = post
  by_cases href : Refused post records
  swap
  · exact iff_of_true (honest_of_not_refused href) fun h => href h.1
  obtain ⟨hsend, status, text, hstatus, hlog⟩ := send_of_refused href
  by_cases hpass : Passes post 1 records
  swap
  · -- the call fails, whatever the answers were
    obtain ⟨error, herror⟩ := error_of_not_passes 1 hpass
    rw [← hsend] at herror
    refine iff_of_true ⟨fun h => ?_, fun _ _ _ => ⟨error, herror⟩⟩ fun h => hpass h.2.1
    simp [herror] at h
  have hok : send post records = .ok () := hsend.trans ((sendEach_eq_ok_iff 1 records).2 hpass)
  simp only [href, hpass, true_and]
  constructor
  · intro h hdegrades
    obtain ⟨e, he, hfair⟩ := (degrades_iff_of_passes hpass).1 hdegrades
    have hmem : e ∈ exchanges post records := hlog ▸ List.mem_cons_of_mem _ he
    obtain ⟨error, herror⟩ := h.2 e hmem hfair
    simp [hok] at herror
  · intro hgood
    refine ⟨fun _ => .inr ⟨status, text, _, hstatus, hlog, settled_of_passes hpass hgood⟩, ?_⟩
    intro e he hfair
    rw [hlog] at he
    rcases List.mem_cons.1 he with rfl | he
    · exact absurd hstatus hfair
    · exact absurd ((degrades_iff_of_passes hpass).2 ⟨e, he, hfair⟩) hgood

end Call

/-- The gateway has stopped. -/
def stopped : StoredRecord := ⟨7, "ab", "cd", AuditEntry.new ⟨0⟩ .gatewayStopped⟩

/-- The batch is refused as invalid; the server is overloaded when the record comes on its own, and
accepts its minimal line. -/
def overloaded (n : ℕ) (_ : Body) : HttpAnswer :=
  match n with
  | 0 => .answered ⟨400, "400 Bad Request"⟩ (some "bad line")
  | 1 => .answered ⟨503, "503 Service Unavailable"⟩ (some "try again later")
  | _ => .answered ⟨204, "204 No Content"⟩ none

/-- The record is replaced by its minimal line because the server was overloaded, and the call
returns all the same. -/
theorem not_honest_overloaded :
    send (fun n body => QuestDbSink.post (overloaded n body)) [stopped] = .ok () ∧
      ¬ Honest (fun n body => QuestDbSink.post (overloaded n body)) [stopped] := by
  have hsend : send (fun n body => QuestDbSink.post (overloaded n body)) [stopped] = .ok () := rfl
  refine ⟨hsend, fun h => ?_⟩
  obtain ⟨error, herror⟩ := h.2 (.lines [stopped],
    .ok (some (⟨503, "503 Service Unavailable"⟩, "try again later")))
    (List.mem_cons_of_mem _ (List.mem_cons_self ..)) (by simp)
  rw [hsend] at herror
  exact nomatch herror

end QuestDbSink

end AuditGateway
