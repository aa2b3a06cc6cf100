import AuditGateway.Audit.Event
import Mathlib.Data.List.Induction

set_option relaxedAutoImplicit false
set_option autoImplicit false

/-!
# Whether a target trusts the gateway

The periodic check and the connections of clients say whether a target accepts the gateway. A change
into a problem, or out of one, is one record. What is recorded depends on the result before only, so
a problem that is interrupted by a result of another kind, such as an unreachable target, is
recorded again, and its end is not.

## Main definitions

* `GatewayTrust`, `setGatewayTrust` — the results, and what is recorded of them.
* `openProblem`, `dueRecord` — the problem that is not solved yet, and what should be recorded.
* `RecordedOnce` — each change is recorded once.
* `Unbroken` — what follows an interruption is no news of the problem before it.

## Main results

* `openProblem_eq_some_iff` — the last problem since the target last accepted the gateway.
* `recordedOnce_iff` — when each change is recorded once.
* `not_recordedOnce_unreachable` — a target that could not be reached in between.
-/

namespace AuditGateway

/-! ## Results -/

/-- The result of opening a secure channel to the target with the gateway's certificate. -/
inductive GatewayTrust
  | unknown
  /-- The target offers no secure endpoint. -/
  | noSecureEndpoint
  /-- Not tried: the gateway does not trust the target's certificate yet. -/
  | targetNotTrusted
  /-- The target refused the gateway's certificate. -/
  | refused (detail : String)
  /-- The target accepted the gateway. -/
  | trusted (policy : String)
  /-- Something else went wrong. -/
  | failed (detail : String)
  deriving DecidableEq

namespace GatewayTrust

/-- The gateway is refused by the server. -/
def isRefused : GatewayTrust → Bool
  | .refused _ => true
  | _ => false

/-- The gateway has a problem of trust. -/
def problem : GatewayTrust → Bool
  | .refused _ => true
  | .targetNotTrusted => true
  | _ => false

end GatewayTrust

/-- The detail of a refusal. -/
def refusedDetail (detail : String) : String :=
  detail ++ "; the target probably does not trust the gateway's certificate yet " ++
    "(trust it on the target, e.g. move it from its rejected to its trusted certificates)"

/-- What is recorded of a result that is not the one before. -/
def trustEvent (endpointUrl : String) (before : GatewayTrust) : GatewayTrust → Option AuditEvent
  | .refused detail =>
    if before.isRefused then none
    else some (.targetRefusedGateway endpointUrl (refusedDetail detail))
  | .targetNotTrusted =>
    if before ≠ .targetNotTrusted then some (.targetNotTrusted endpointUrl) else none
  | .trusted policy =>
    if before.problem then some (.targetTrustRestored endpointUrl policy) else none
  | _ => none

/-- Stores a result. What changed is recorded. -/
def setGatewayTrust (endpointUrl : String) (before result : GatewayTrust) :
    GatewayTrust × Option AuditEvent :=
  if before = result then (before, none) else (result, trustEvent endpointUrl before result)

/-- The status after some results. -/
def trustAfter (endpointUrl : String) (results : List GatewayTrust) : GatewayTrust :=
  results.foldl (fun trust result => (setGatewayTrust endpointUrl trust result).1) .unknown

/-- What is recorded of a result after others. -/
def recordAt (endpointUrl : String) (before : List GatewayTrust) (result : GatewayTrust) :
    Option AuditEvent :=
  (setGatewayTrust endpointUrl (trustAfter endpointUrl before) result).2

/-! ## Problems -/

/-- The kinds of problems. -/
inductive TrustProblem
  | refused
  | notTrusted
  deriving DecidableEq

namespace GatewayTrust

/-- The kind of a problem of trust. -/
def kind : GatewayTrust → Option TrustProblem
  | .refused _ => some .refused
  | .targetNotTrusted => some .notTrusted
  | _ => none

/-- The server accepts the gateway. -/
def accepts : GatewayTrust → Bool
  | .trusted _ => true
  | _ => false

end GatewayTrust

/-- The last problem that is not solved yet. -/
def openProblem (results : List GatewayTrust) : Option TrustProblem :=
  results.foldl (fun last result => if result.accepts then none else result.kind.or last) none

/-- What should be recorded of a result: a problem of another kind than the last one, and the end
of all problems. -/
def dueRecord (endpointUrl : String) (last : Option TrustProblem) :
    GatewayTrust → Option AuditEvent
  | .refused detail =>
    if last = some .refused then none
    else some (.targetRefusedGateway endpointUrl (refusedDetail detail))
  | .targetNotTrusted =>
    if last = some .notTrusted then none else some (.targetNotTrusted endpointUrl)
  | .trusted policy =>
    if last = none then none else some (.targetTrustRestored endpointUrl policy)
  | _ => none

/-- Of every result there is the record that should be there. -/
def RecordedOnce (endpointUrl : String) (results : List GatewayTrust) : Prop :=
  ∀ before result after, results = before ++ result :: after →
    recordAt endpointUrl before result = dueRecord endpointUrl (openProblem before) result

/-- Right behind a result that is neither a problem nor an acceptance comes no news of the problem
that is open: neither the same problem again nor its end. -/
def Unbroken (results : List GatewayTrust) : Prop :=
  ∀ before other result after, results = before ++ other :: result :: after →
    other.kind = none → other.accepts = false → ∀ problem ∈ openProblem before,
      result.kind ≠ some problem ∧ result.accepts = false

/-- The problem that is open behind one more result. -/
theorem openProblem_append (results : List GatewayTrust) (result : GatewayTrust) :
    openProblem (results ++ [result]) =
      if result.accepts then none else result.kind.or (openProblem results) := by
  rw [openProblem, List.foldl_append]
  rfl

/-- The open problem is the last one since the target last accepted the gateway. -/
theorem openProblem_eq_some_iff {results : List GatewayTrust} {problem : TrustProblem} :
    openProblem results = some problem ↔
      ∃ before result after, results = before ++ result :: after ∧ result.kind = some problem ∧
        ∀ other ∈ after, other.kind = none ∧ other.accepts = false := by
  induction results using List.reverseRecOn with
  | nil =>
    refine iff_of_false nofun ?_
    rintro ⟨before, result, after, heq, -⟩
    simp at heq
  | append_singleton results last ih =>
    rw [openProblem_append]
    constructor
    · intro h
      split_ifs at h with haccepts
      cases hkind : last.kind with
      | some k =>
        rw [hkind, Option.some_or] at h
        exact ⟨results, last, [], rfl, hkind.trans h, by simp⟩
      | none =>
        rw [hkind, Option.none_or] at h
        obtain ⟨before, result, after, rfl, hresult, hafter⟩ := ih.1 h
        refine ⟨before, result, after ++ [last], by simp, hresult, fun other hother => ?_⟩
        rcases List.mem_append.1 hother with hother | hother
        · exact hafter other hother
        · rw [List.mem_singleton.1 hother]
          exact ⟨hkind, by simpa using haccepts⟩
    · rintro ⟨before, result, after, heq, hresult, hafter⟩
      induction after using List.reverseRecOn with
      | nil =>
        obtain ⟨-, hlast⟩ := List.append_inj' heq rfl
        obtain rfl : last = result := by simpa using hlast
        have haccepts : last.accepts = false := by
          cases last with
          | trusted policy => cases hresult
          | _ => rfl
        rw [haccepts, hresult]
        rfl
      | append_singleton after other _ =>
        rw [← List.cons_append, ← List.append_assoc] at heq
        obtain ⟨hinit, hlast⟩ := List.append_inj' heq rfl
        obtain rfl : last = other := by simpa using hlast
        obtain ⟨hkind, haccepts⟩ := hafter last (by simp)
        rw [haccepts, hkind]
        refine ih.2 ⟨before, result, after, hinit, hresult, fun q hq => hafter q (by simp [hq])⟩

/-! ## One result -/

section Step

variable {endpointUrl : String}

/-- The status is the last result. -/
theorem trustAfter_append (results : List GatewayTrust) (result : GatewayTrust) :
    trustAfter endpointUrl (results ++ [result]) = result := by
  rw [trustAfter, List.foldl_append]
  generalize hbefore : results.foldl _ GatewayTrust.unknown = before
  show (setGatewayTrust endpointUrl before result).1 = result
  unfold setGatewayTrust
  by_cases hsame : before = result
  · rw [if_pos hsame]
    exact hsame
  · rw [if_neg hsame]

/-- What is recorded goes by the result before: as it should, if that tells the open problem. -/
theorem record_of_told {before result : GatewayTrust} {last : Option TrustProblem}
    (h : last = before.kind) :
    (setGatewayTrust endpointUrl before result).2 = dueRecord endpointUrl last result := by
  subst h
  by_cases hsame : before = result
  · subst hsame
    rw [setGatewayTrust, if_pos rfl]
    cases before with
    | _ => rfl
  · rw [setGatewayTrust, if_neg hsame]
    cases result with
    | refused detail => cases before <;> rfl
    | targetNotTrusted => cases before <;> rfl
    | trusted policy => cases before <;> rfl
    | _ => rfl

/-- Behind another result nothing is known of the open problem. -/
theorem record_of_other {before result : GatewayTrust} {last : TrustProblem}
    (h : before.kind = none) :
    (setGatewayTrust endpointUrl before result).2 = dueRecord endpointUrl (some last) result ↔
      result.kind ≠ some last ∧ result.accepts = false := by
  rw [record_of_told h.symm]
  cases result with
  | refused detail => cases last <;> simp [dueRecord, GatewayTrust.kind, GatewayTrust.accepts]
  | targetNotTrusted => cases last <;> simp [dueRecord, GatewayTrust.kind, GatewayTrust.accepts]
  | trusted policy => simp [dueRecord, GatewayTrust.accepts]
  | _ => simp [dueRecord, GatewayTrust.kind, GatewayTrust.accepts]

end Step

/-! ## All results -/

/-- **Each change of trust is recorded once** exactly if no news of an open problem comes right
behind a result of another kind.

**Proof sketch.** The status is the last result. A problem or an acceptance tells what is open, so
what follows it is recorded as it should be. Any other result hides an open problem: what follows is
taken for the first of its kind, and its end for no change. -/
theorem recordedOnce_iff (endpointUrl : String) (results : List GatewayTrust) :
    RecordedOnce endpointUrl results ↔ Unbroken results := by
  constructor
  · intro h before other result after heq hkind haccepts problem hproblem
    have hrecord := h (before ++ [other]) result after (by simp [heq])
    rw [openProblem_append, haccepts, hkind, recordAt, trustAfter_append] at hrecord
    have hopen : openProblem before = some problem := hproblem
    rw [if_neg (by simp), Option.none_or, hopen] at hrecord
    exact (record_of_other hkind).1 hrecord
  · intro h before result after heq
    induction before using List.reverseRecOn with
    | nil => exact record_of_told rfl
    | append_singleton before other _ =>
      rw [recordAt, trustAfter_append, openProblem_append]
      by_cases haccepts : other.accepts
      · rw [if_pos haccepts]
        refine record_of_told ?_
        cases other with
        | trusted policy => rfl
        | _ => cases haccepts
      · rw [if_neg haccepts]
        have haccepts : other.accepts = false := by simpa using haccepts
        cases hkind : other.kind with
        | some k => exact record_of_told (Option.some_or.trans hkind.symm)
        | none =>
          rw [Option.none_or]
          cases hopen : openProblem before with
          | none => exact record_of_told hkind.symm
          | some problem =>
            refine (record_of_other hkind).2 ?_
            exact h before other result after (by simp [heq]) hkind haccepts problem hopen

/-- A target that refused the gateway, could not be reached, and then accepted it: the end of the
problem is not recorded. -/
theorem not_recordedOnce_unreachable :
    ¬ ∀ results, RecordedOnce "opc.tcp://plc:4840" results := by
  intro h
  have hlast := h [.refused "BadSecurityChecksFailed", .failed "connection refused",
    .trusted "Basic256Sha256"]
    [.refused "BadSecurityChecksFailed", .failed "connection refused"]
    (.trusted "Basic256Sha256") [] rfl
  cases hlast

end AuditGateway
