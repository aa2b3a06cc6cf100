import AuditGateway.Targets.Availability
import Mathlib.Data.List.Induction

set_option relaxedAutoImplicit false
set_option autoImplicit false

/-!
# Changes of a target's endpoints

A discovery sorts the endpoints of the server by their security levels and compares their summaries,
one after the other, with those of the answer before. So endpoints of one level that the server
lists in another order are a change, and an empty answer in between hides one.

## Main definitions

* `discovered` — an answer of the server as it is applied.
* `lastNonempty`, `ReportedExactly` — the answer to compare with, and what should be reported.
* `Comparable` — answers for which the comparison is right.

## Main results

* `reported_iff` — when a change is reported.
* `reportedExactly_iff` — when exactly the changes are.
* `not_reportedExactly_shuffled` — the same endpoints in another order.
-/

namespace AuditGateway

/-- The endpoints with the highest security level first; endpoints of a level stay in order. -/
def sortEndpoints (endpoints : List EndpointDescription) : List EndpointDescription :=
  endpoints.mergeSort fun a b => decide (b.securityLevel ≤ a.securityLevel)

/-- What a caller has from an answer of the server. -/
def discovered (answer : DiscoveryResult) : DiscoveryResult := answer.map sortEndpoints

section Changes

variable (x : EndpointTexts) (endpointUrl : String)

/-- The status after some answers, each with its time. -/
def statusAfter (answers : List (DateTime × DiscoveryResult)) : TargetStatus :=
  answers.foldl (fun status answer =>
    (applyDiscovery x endpointUrl answer.1 (discovered answer.2) status).1) {}

/-- A change of the endpoints is recorded with an answer after others. -/
def Reported (earlier : List (DateTime × DiscoveryResult)) (answer : DateTime × DiscoveryResult) :
    Prop :=
  ∃ before after, .upstreamEndpointsChanged endpointUrl before after ∈
    (applyDiscovery x endpointUrl answer.1 (discovered answer.2)
      (statusAfter x endpointUrl earlier)).2

end Changes

/-- The endpoints of an answer, if there is one. -/
def endpointsOf? (answer : DateTime × DiscoveryResult) : Option (List EndpointDescription) :=
  answer.2.toOption

/-- The last answer that is no failure. -/
def lastAnswer (answers : List (DateTime × DiscoveryResult)) : Option (List EndpointDescription) :=
  (answers.filterMap endpointsOf?).getLast?

/-- The last answer with endpoints. -/
def lastNonempty (answers : List (DateTime × DiscoveryResult)) :
    Option (List EndpointDescription) :=
  ((answers.filterMap endpointsOf?).filter (· ≠ [])).getLast?

/-- The summaries of some endpoints. -/
def summaries (x : EndpointTexts) (endpoints : List EndpointDescription) : List String :=
  endpoints.map (·.summary x)

/-- An answer with endpoints is reported as a change exactly if the collection of their summaries
is not that of the last answer with endpoints. -/
def ReportedExactly (x : EndpointTexts) (endpointUrl : String)
    (answers : List (DateTime × DiscoveryResult)) : Prop :=
  ∀ earlier now endpoints later, answers = earlier ++ (now, .ok endpoints) :: later →
    endpoints ≠ [] → (Reported x endpointUrl earlier (now, .ok endpoints) ↔
      ∃ last, lastNonempty earlier = some last ∧
        ¬ (summaries x last).Perm (summaries x endpoints))

/-- Each answer with endpoints either follows the last one directly, failures aside, and has the
same summaries in the same order when it has the same summaries; or it follows an empty answer and
has the same summaries. -/
def Comparable (x : EndpointTexts) (answers : List (DateTime × DiscoveryResult)) : Prop :=
  ∀ earlier now endpoints later, answers = earlier ++ (now, .ok endpoints) :: later →
    endpoints ≠ [] → ∀ last, lastNonempty earlier = some last →
      (lastAnswer earlier = some [] → (summaries x last).Perm (summaries x endpoints)) ∧
      (lastAnswer earlier ≠ some [] → (summaries x last).Perm (summaries x endpoints) →
        summaries x (sortEndpoints last) = summaries x (sortEndpoints endpoints))

/-! ## The endpoints that are remembered -/

/-- Sorting endpoints only changes their order. -/
theorem sortEndpoints_perm (endpoints : List EndpointDescription) :
    (sortEndpoints endpoints).Perm endpoints := List.mergeSort_perm _ _

/-- Only no endpoints are sorted to none. -/
theorem sortEndpoints_eq_nil_iff {endpoints : List EndpointDescription} :
    sortEndpoints endpoints = [] ↔ endpoints = [] := by
  constructor
  · intro h
    exact List.Perm.nil_eq (h ▸ sortEndpoints_perm endpoints) |>.symm
  · rintro rfl
    exact List.mergeSort_nil

section Remembered

variable {x : EndpointTexts} {endpointUrl : String}

/-- The endpoints of the last answer are remembered, failures aside. -/
theorem rawEndpoints_statusAfter (answers : List (DateTime × DiscoveryResult)) :
    (statusAfter x endpointUrl answers).rawEndpoints =
      ((lastAnswer answers).map sortEndpoints).getD [] := by
  induction answers using List.reverseRecOn with
  | nil => rfl
  | append_singleton answers answer ih =>
    have hstatus : statusAfter x endpointUrl (answers ++ [answer]) =
        (applyDiscovery x endpointUrl answer.1 (discovered answer.2)
          (statusAfter x endpointUrl answers)).1 := by
      rw [statusAfter, List.foldl_append]
      rfl
    obtain ⟨now, result⟩ := answer
    cases result with
    | ok endpoints =>
      have hsome : endpointsOf? (now, .ok endpoints) = some endpoints := rfl
      rw [hstatus, lastAnswer, List.filterMap_append, List.filterMap_cons_some hsome,
        List.filterMap_nil, List.getLast?_concat]
      rfl
    | error reason =>
      have hnone : endpointsOf? (now, .error reason) = none := rfl
      rw [hstatus, lastAnswer, List.filterMap_append, List.filterMap_cons_none hnone,
        List.filterMap_nil, List.append_nil]
      exact ih

/-- **When a change is reported**: if the answer before had endpoints, and their summaries in order
are not those of this answer. -/
theorem reported_iff {earlier : List (DateTime × DiscoveryResult)} {now : DateTime}
    {endpoints : List EndpointDescription} :
    Reported x endpointUrl earlier (now, .ok endpoints) ↔
      ∃ last, lastAnswer earlier = some last ∧ last ≠ [] ∧
        summaries x (sortEndpoints last) ≠ summaries x (sortEndpoints endpoints) := by
  have hraw : (statusAfter x endpointUrl earlier).rawEndpoints =
      ((lastAnswer earlier).map sortEndpoints).getD [] := rawEndpoints_statusAfter earlier
  have hmem : ∀ (p : Prop) [Decidable p] (url : String) (n : ℕ) (b a : List String),
      AuditEvent.upstreamEndpointsChanged endpointUrl b a ∉
        if p then [AuditEvent.upstreamAvailable url n] else [] := by
    intro p _ url n b a hin
    split_ifs at hin
    · cases List.mem_singleton.1 hin
    · cases hin
  have hreported : Reported x endpointUrl earlier (now, .ok endpoints) ↔
      ((statusAfter x endpointUrl earlier).rawEndpoints.map (·.summary x) ≠ [] ∧
        (statusAfter x endpointUrl earlier).rawEndpoints.map (·.summary x) ≠
          (sortEndpoints endpoints).map (·.summary x)) := by
    constructor
    · rintro ⟨before, after, hin⟩
      rcases List.mem_append.1 hin with hin | hin
      · exact (hmem _ _ _ _ _ hin).elim
      · by_contra hnot
        rw [if_neg hnot] at hin
        cases hin
    · intro h
      have hchanged := List.mem_singleton_self (AuditEvent.upstreamEndpointsChanged endpointUrl
        ((statusAfter x endpointUrl earlier).rawEndpoints.map (·.summary x))
        ((sortEndpoints endpoints).map (·.summary x)))
      refine ⟨_, _, List.mem_append_right _ (?_ : AuditEvent.upstreamEndpointsChanged endpointUrl
        ((statusAfter x endpointUrl earlier).rawEndpoints.map (·.summary x))
        ((sortEndpoints endpoints).map (·.summary x)) ∈ _)⟩
      rw [if_pos h]
      exact hchanged
  rw [hreported, hraw]
  cases lastAnswer earlier with
  | none => simp
  | some last =>
    simp only [Option.map_some, Option.getD_some, ne_eq, List.map_eq_nil_iff,
      sortEndpoints_eq_nil_iff, Option.some.injEq, exists_eq_left']
    rfl

/-- Without an empty answer behind it, the last answer with endpoints is the last answer. -/
theorem lastAnswer_of_lastNonempty {answers : List (DateTime × DiscoveryResult)}
    {last : List EndpointDescription} (h : lastNonempty answers = some last)
    (hempty : lastAnswer answers ≠ some []) : lastAnswer answers = some last := by
  unfold lastNonempty lastAnswer at *
  generalize answers.filterMap endpointsOf? = lists at *
  induction lists using List.reverseRecOn with
  | nil => cases h
  | append_singleton lists endpoints _ =>
    rw [List.getLast?_concat] at hempty ⊢
    have hne : endpoints ≠ [] := fun heq => hempty (congrArg some heq)
    rw [List.filter_append, List.filter_cons_of_pos (by simpa using hne), List.filter_nil,
      List.getLast?_concat] at h
    exact h

/-- A last answer with endpoints is the last one with endpoints. -/
theorem lastNonempty_of_lastAnswer {answers : List (DateTime × DiscoveryResult)}
    {last : List EndpointDescription} (h : lastAnswer answers = some last) (hne : last ≠ []) :
    lastNonempty answers = some last := by
  unfold lastNonempty
  unfold lastAnswer at h
  obtain ⟨lists, heq⟩ := List.getLast?_eq_some_iff.1 h
  rw [heq, List.filter_append, List.filter_cons_of_pos (by simpa using hne), List.filter_nil,
    List.getLast?_concat]

/-- Sorting does not change which summaries are the same up to order. -/
theorem perm_sortEndpoints_iff {a b : List EndpointDescription} :
    (summaries x (sortEndpoints a)).Perm (summaries x (sortEndpoints b)) ↔
      (summaries x a).Perm (summaries x b) := by
  have ha : (summaries x (sortEndpoints a)).Perm (summaries x a) := (sortEndpoints_perm a).map _
  have hb : (summaries x (sortEndpoints b)).Perm (summaries x b) := (sortEndpoints_perm b).map _
  exact ⟨fun h => ha.symm.trans (h.trans hb), fun h => ha.trans (h.trans hb.symm)⟩

/-- One answer with endpoints. -/
theorem reported_right_iff {earlier : List (DateTime × DiscoveryResult)} {now : DateTime}
    {endpoints : List EndpointDescription} :
    (Reported x endpointUrl earlier (now, .ok endpoints) ↔
      ∃ last, lastNonempty earlier = some last ∧
        ¬ (summaries x last).Perm (summaries x endpoints)) ↔
    ∀ last, lastNonempty earlier = some last →
      (lastAnswer earlier = some [] → (summaries x last).Perm (summaries x endpoints)) ∧
      (lastAnswer earlier ≠ some [] → (summaries x last).Perm (summaries x endpoints) →
        summaries x (sortEndpoints last) = summaries x (sortEndpoints endpoints)) := by
  rw [reported_iff]
  constructor
  · intro h last hlast
    refine ⟨fun hempty => ?_, fun hanswer hperm => ?_⟩
    · by_contra hdiffer
      obtain ⟨other, hother, hne, -⟩ := h.2 ⟨last, hlast, hdiffer⟩
      exact hne (Option.some.inj (hother.symm.trans hempty))
    · by_contra hdiffer
      have hlastAnswer := lastAnswer_of_lastNonempty hlast hanswer
      have hne : last ≠ [] := fun heq => hanswer (heq ▸ hlastAnswer)
      obtain ⟨other, hother, hchanged⟩ := h.1 ⟨last, hlastAnswer, hne, hdiffer⟩
      obtain rfl := Option.some.inj (hlast.symm.trans hother)
      exact hchanged hperm
  · intro h
    constructor
    · rintro ⟨last, hanswer, hne, hdiffer⟩
      have hlast := lastNonempty_of_lastAnswer hanswer hne
      refine ⟨last, hlast, fun hperm => hdiffer ?_⟩
      exact (h last hlast).2 (fun hempty => hne (Option.some.inj (hanswer.symm.trans hempty))) hperm
    · rintro ⟨last, hlast, hdiffer⟩
      have hanswer : lastAnswer earlier ≠ some [] := fun hempty => hdiffer ((h last hlast).1 hempty)
      have hlastAnswer := lastAnswer_of_lastNonempty hlast hanswer
      refine ⟨last, hlastAnswer, fun heq => hanswer (heq ▸ hlastAnswer), fun hsame => hdiffer ?_⟩
      exact perm_sortEndpoints_iff.1 (hsame ▸ List.Perm.refl _)

end Remembered

/-- **Exactly the changes of endpoints are reported** if and only if each answer with endpoints is
comparable with the last one. -/
theorem reportedExactly_iff (x : EndpointTexts) (endpointUrl : String)
    (answers : List (DateTime × DiscoveryResult)) :
    ReportedExactly x endpointUrl answers ↔ Comparable x answers := by
  constructor
  · intro h earlier now endpoints later heq hne
    exact reported_right_iff.1 (h earlier now endpoints later heq hne)
  · intro h earlier now endpoints later heq hne
    exact reported_right_iff.2 (h earlier now endpoints later heq hne)

/-! ## The same endpoints in another order -/

/-- An endpoint of a server that assigns no levels. -/
def flatEndpoint (mode : MessageSecurityMode) : EndpointDescription where
  endpointUrl := "opc.tcp://plc:4840"
  server := ⟨"urn:plc", "", "PLC", none⟩
  serverCertificate := []
  securityMode := mode
  securityPolicyUri := "http://opcfoundation.org/UA/SecurityPolicy#Basic256Sha256"
  userIdentityTokens := none
  transportProfileUri := ""
  securityLevel := 0

/-- Endpoints that differ in their mode only stay as they are. -/
theorem sortEndpoints_flat (a b : MessageSecurityMode) :
    sortEndpoints [flatEndpoint a, flatEndpoint b] = [flatEndpoint a, flatEndpoint b] := by
  exact List.mergeSort_of_pairwise (List.pairwise_pair.2 (decide_eq_true (Nat.le_refl 0)))

/-- The summary of such an endpoint. -/
theorem summary_flat (a : MessageSecurityMode) : (flatEndpoint a).summary Availability.noTexts =
    "Unknown" ++ " " ++ a.debug ++ " [" ++ "no certificate" ++ "] " ++ "" := by
  have hsort : ([] : List String).mergeSort (fun a b => decide (a ≤ b)) = [] := List.mergeSort_nil
  simp only [EndpointDescription.summary, flatEndpoint, Option.getD_none, List.map_nil, hsort]
  rfl

/-- The same two endpoints in another order are reported as a change, and another endpoint behind
an empty answer is not. -/
theorem not_reportedExactly_shuffled :
    ¬ ReportedExactly Availability.noTexts "opc.tcp://plc:4840"
      [(⟨0⟩, .ok [flatEndpoint .sign, flatEndpoint .none]),
        (⟨1⟩, .ok [flatEndpoint .none, flatEndpoint .sign])] ∧
    ¬ ReportedExactly Availability.noTexts "opc.tcp://plc:4840"
      [(⟨0⟩, .ok [flatEndpoint .sign]), (⟨1⟩, .ok []), (⟨2⟩, .ok [flatEndpoint .none])] := by
  have hdiffer : summaries Availability.noTexts [flatEndpoint .sign] ≠
      summaries Availability.noTexts [flatEndpoint .none] := by
    simp only [summaries, List.map_cons, List.map_nil, summary_flat]
    decide
  constructor
  · intro h
    have hiff := h [(⟨0⟩, .ok [flatEndpoint .sign, flatEndpoint .none])] ⟨1⟩ _ [] rfl (by simp)
    have hreported : Reported Availability.noTexts "opc.tcp://plc:4840"
        [(⟨0⟩, .ok [flatEndpoint .sign, flatEndpoint .none])]
        (⟨1⟩, .ok [flatEndpoint .none, flatEndpoint .sign]) := by
      refine reported_iff.2 ⟨[flatEndpoint .sign, flatEndpoint .none], rfl, by simp, ?_⟩
      rw [sortEndpoints_flat, sortEndpoints_flat]
      exact fun heq => hdiffer (congrArg (List.take 1) heq)
    obtain ⟨last, hlast, hchanged⟩ := hiff.1 hreported
    cases hlast
    exact hchanged (List.Perm.swap ..)
  · intro h
    have hiff := h [(⟨0⟩, .ok [flatEndpoint .sign]), (⟨1⟩, .ok [])] ⟨2⟩ _ [] rfl (by simp)
    have hreported := hiff.2 ⟨[flatEndpoint .sign], rfl, fun hperm =>
      hdiffer (List.perm_singleton.1 hperm)⟩
    obtain ⟨last, hlast, hne, -⟩ := reported_iff.1 hreported
    cases hlast
    exact hne rfl

end AuditGateway
