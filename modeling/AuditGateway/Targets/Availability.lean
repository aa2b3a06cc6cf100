import AuditGateway.Audit.Event
import AuditGateway.Lib.Machine
import AuditGateway.Relay.Endpoints
import Mathlib.Data.List.Destutter

set_option relaxedAutoImplicit false
set_option autoImplicit false

/-!
# The availability of a target

The monitor of a target and everyone who asks for a check ask the server for its endpoints and
apply what they get to the status of the target. Only the change of the status is under the lock;
the records of what has changed are queued behind it, one after the other, by the call that made
the change. So the trail tells the changes in the order in which the calls queue their records,
which is that of the changes only as long as no call overtakes an earlier one.

## Main definitions

* `applyDiscovery` — the locked part of a call: the new status, and what is to be recorded.
* `Availability`, `Availability.step` — the calls for one target, its records and every order of
  their steps.
* `Availability.Truthful` — the records alternate and end with the state that is shown.
* `Availability.KeepsTurn` — the steps in which no record overtakes an earlier one.

## Main results

* `Availability.inv_step` — these steps keep the records in the order of the changes.
* `Availability.truthful_of_run` — a run of them has a truthful trail.
* `Availability.overtaken` — two calls whose records change places.
-/

namespace AuditGateway

/-! ## What a discovery changes -/

/-- What is known of the availability of a target. -/
inductive UpstreamState
  | unknown
  | available
  | unavailable
  deriving DecidableEq

/-- The status of a target, as far as a discovery changes it. -/
structure TargetStatus where
  state : UpstreamState := .unknown
  lastCheck : Option DateTime := none
  lastError : Option String := none
  rawEndpoints : List EndpointDescription := []

/-- The texts of the OPC UA crate that a summary of an endpoint is made of. -/
structure EndpointTexts where
  fromUri : String → SecurityPolicy
  policyName : SecurityPolicy → String
  /-- The thumbprint of a certificate, if these bytes are one. -/
  thumbprint : List UInt8 → Option String

/-- A security mode as it is printed. -/
def MessageSecurityMode.debug : MessageSecurityMode → String
  | .invalid => "Invalid"
  | .none => "None"
  | .sign => "Sign"
  | .signAndEncrypt => "SignAndEncrypt"

/-- A type of token as it is printed. -/
def UserTokenType.debug : UserTokenType → String
  | .anonymous => "Anonymous"
  | .userName => "UserName"
  | .certificate => "Certificate"
  | .issuedToken => "IssuedToken"

/-- A one-line summary of an endpoint's security, to notice changes. -/
def EndpointDescription.summary (x : EndpointTexts) (endpoint : EndpointDescription) : String :=
  let thumbprint := (x.thumbprint endpoint.serverCertificate).getD "no certificate"
  let tokens := (endpoint.userIdentityTokens.getD []).map fun t => t.tokenType.debug
  let tokens := (tokens.mergeSort fun a b => decide (a ≤ b)).destutter (· ≠ ·)
  x.policyName (x.fromUri endpoint.securityPolicyUri) ++ " " ++ endpoint.securityMode.debug ++
    " [" ++ thumbprint ++ "] " ++ "+".intercalate tokens

/-- What a caller has from asking the server. -/
abbrev DiscoveryResult := Except String (List EndpointDescription)

/-- The part of a call under the lock: the new status, and what the call is to record. -/
def applyDiscovery (x : EndpointTexts) (endpointUrl : String) (now : DateTime)
    (result : DiscoveryResult) (status : TargetStatus) : TargetStatus × List AuditEvent :=
  match result with
  | .ok endpoints =>
    let before := status.rawEndpoints.map (·.summary x)
    let after := endpoints.map (·.summary x)
    let event := if status.state ≠ .available then
        [.upstreamAvailable endpointUrl endpoints.length] else []
    -- the gateway follows the server: what it offers changes what clients are offered
    let changed := if before ≠ [] ∧ before ≠ after then
        [.upstreamEndpointsChanged endpointUrl before after] else []
    (⟨.available, some now, none, endpoints⟩, event ++ changed)
  | .error reason =>
    let event := if status.state ≠ .unavailable then
        [.upstreamUnavailable endpointUrl reason] else []
    (⟨.unavailable, some now, some reason, status.rawEndpoints⟩, event)

/-- What a record says about the availability. -/
def AuditEvent.told? : AuditEvent → Option UpstreamState
  | .upstreamAvailable .. => some .available
  | .upstreamUnavailable .. => some .unavailable
  | _ => none

/-- What the records of a list say about the availability. -/
def told (events : List AuditEvent) : List UpstreamState := events.filterMap AuditEvent.told?

/-- What the trail should have said last. -/
def UpstreamState.shown? : UpstreamState → Option UpstreamState
  | .unknown => none
  | state => some state

/-- A known state is shown. -/
theorem UpstreamState.shown?_of_ne {state : UpstreamState} (h : state ≠ .unknown) :
    state.shown? = some state := by
  cases state
  · exact absurd rfl h
  · rfl
  · rfl

/-- No record tells nothing. -/
@[simp] theorem told_nil : told [] = [] := rfl

/-- What two lists of records tell. -/
@[simp] theorem told_append (l m : List AuditEvent) : told (l ++ m) = told l ++ told m :=
  List.filterMap_append ..

/-- What a list of records tells begins with what its first one tells. -/
theorem told_cons (e : AuditEvent) (l : List AuditEvent) :
    told (e :: l) = e.told?.toList ++ told l := by
  rw [told, List.filterMap_cons]
  cases e.told? <;> rfl

/-- A call tells the state it leaves behind, if it found another one. -/
theorem told_applyDiscovery (x : EndpointTexts) (url : String) (now : DateTime)
    (result : DiscoveryResult) (status : TargetStatus) :
    let after := (applyDiscovery x url now result status).1.state
    after ≠ .unknown ∧
      told (applyDiscovery x url now result status).2 =
        if status.state = after then [] else [after] := by
  cases result with
  | error reason =>
    refine ⟨nofun, ?_⟩
    by_cases h : status.state = .unavailable <;> simp [applyDiscovery, h, told, AuditEvent.told?]
  | ok endpoints =>
    refine ⟨nofun, ?_⟩
    have hchanged (p : Prop) [Decidable p] (before after : List String) :
        told (if p then [.upstreamEndpointsChanged url before after] else []) = [] := by
      split_ifs <;> rfl
    simp only [applyDiscovery, told_append, hchanged, List.append_nil]
    by_cases h : status.state = .available <;> simp [h, told, AuditEvent.told?]

/-! ## The calls -/

/-- The calls for one target. -/
structure Availability where
  status : TargetStatus := {}
  /-- The calls that wait for the lock, each with what the server has answered. -/
  waiting : List DiscoveryResult := []
  /-- The calls that had the lock, in this order, each with what it still has to record. -/
  recording : List (List AuditEvent) := []
  /-- The records of the target that are queued. -/
  queue : List AuditEvent := []
  /-- The records of the target that are stored. -/
  trail : List AuditEvent := []

namespace Availability

/-- What can happen to the state of a target. -/
inductive Op
  /-- The monitor, or someone who checks now, has an answer. -/
  | discovered (result : DiscoveryResult)
  /-- A waiting call gets the lock. -/
  | apply (i : ℕ) (now : DateTime)
  /-- A call queues the next of its records. -/
  | record (i : ℕ)
  /-- A call that has recorded everything returns. -/
  | finish (i : ℕ)
  /-- The writer stores a record. -/
  | store

/-- One step of the state of a target. -/
def step (x : EndpointTexts) (url : String) (s : Availability) : Op → Option Availability
  | .discovered result => some { s with waiting := s.waiting ++ [result] }
  | .apply i now =>
    (s.waiting[i]?).map fun result =>
      let (status, events) := applyDiscovery x url now result s.status
      { s with status, waiting := s.waiting.eraseIdx i, recording := s.recording ++ [events] }
  | .record i =>
    match s.recording[i]? with
    | some (event :: events) =>
      some { s with recording := s.recording.set i events, queue := s.queue ++ [event] }
    | _ => none
  | .finish i =>
    match s.recording[i]? with
    | some [] => some { s with recording := s.recording.eraseIdx i }
    | _ => none
  | .store =>
    match s.queue with
    | event :: queue => some { s with queue, trail := s.trail ++ [event] }
    | [] => none

/-- No call is running, and every record is stored. -/
def Idle (s : Availability) : Prop := s.waiting = [] ∧ s.recording = [] ∧ s.queue = []

/-- The records of the availability alternate, and when no call is running the last of them agrees
with the state that is shown. -/
def Truthful (s : Availability) : Prop :=
  (told s.trail).IsChain (· ≠ ·) ∧
    (s.Idle → (told s.trail).getLast? = s.status.state.shown?)

/-- A call queues a record of the availability only after the calls that had the lock before it
have queued theirs. -/
def KeepsTurn (s : Availability) : Op → Prop
  | .record i =>
    ∀ event ∈ (s.recording[i]?).bind List.head?, event.told?.isSome →
      told (s.recording.take i).flatten = []
  | _ => True

/-- What is told of the availability: stored, queued and not queued yet, in this order. -/
def line (s : Availability) : List UpstreamState :=
  told s.trail ++ (told s.queue ++ told s.recording.flatten)

/-- The changes are told in their order, and the last of them is the state that is shown. -/
structure Inv (s : Availability) : Prop where
  chain : s.line.IsChain (· ≠ ·)
  last : s.line.getLast? = s.status.state.shown?

/-! ## A step -/

section Step

variable {x : EndpointTexts} {url : String} {s t : Availability}

/-- What a call takes off its records is the first of them that tells something, if the calls
before it have nothing left to tell. -/
theorem told_flatten_of_take {calls : List (List AuditEvent)} {i : ℕ} {event : AuditEvent}
    {events : List AuditEvent} (hi : calls[i]? = some (event :: events))
    (hfirst : event.told?.isSome → told (calls.take i).flatten = []) :
    event.told?.toList ++ told (calls.set i events).flatten = told calls.flatten := by
  induction calls generalizing i with
  | nil => simp at hi
  | cons call calls ih =>
    cases i with
    | zero =>
      obtain rfl : call = event :: events := by simpa using hi
      simp [told_cons]
    | succ i =>
      rw [List.getElem?_cons_succ] at hi
      simp only [List.take_succ_cons, List.flatten_cons, told_append,
        List.append_eq_nil_iff] at hfirst
      have ih := ih hi fun h => (hfirst h).2
      simp only [List.set_cons_succ, List.flatten_cons, told_append]
      rw [← ih]
      cases h : event.told? with
      | none => rfl
      | some state => simp [(hfirst (by simp [h])).1]

/-- A call that has nothing left leaves nothing untold. -/
theorem told_flatten_eraseIdx {calls : List (List AuditEvent)} {i : ℕ} (hi : calls[i]? = some []) :
    told (calls.eraseIdx i).flatten = told calls.flatten := by
  induction calls generalizing i with
  | nil => rfl
  | cons call calls ih =>
    cases i with
    | zero =>
      obtain rfl : call = [] := by simpa using hi
      rfl
    | succ i =>
      rw [List.getElem?_cons_succ] at hi
      simp only [List.eraseIdx_cons_succ, List.flatten_cons, told_append, ih hi]

/-- Only a change of the state adds to what is told, and it adds the new state. -/
theorem line_step {op : Op} (hturn : s.KeepsTurn op) (h : step x url s op = some t) :
    (t.line = s.line ∧ t.status.state = s.status.state) ∨
      (t.line = s.line ++ [t.status.state] ∧ t.status.state ≠ s.status.state ∧
        t.status.state ≠ .unknown) := by
  cases op with
  | discovered result =>
    obtain rfl := Option.some.inj h
    exact .inl ⟨rfl, rfl⟩
  | apply i now =>
    simp only [step, Option.map_eq_some_iff] at h
    obtain ⟨result, -, rfl⟩ := h
    obtain ⟨hknown, htold⟩ := told_applyDiscovery x url now result s.status
    generalize applyDiscovery x url now result s.status = after at hknown htold
    simp only [line, List.flatten_concat, told_append, htold]
    by_cases hsame : s.status.state = after.1.state
    · exact .inl ⟨by simp [hsame], hsame.symm⟩
    · exact .inr ⟨by simp [hsame], Ne.symm hsame, hknown⟩
  | record i =>
    simp only [step] at h
    rcases hi : s.recording[i]? with _ | _ | ⟨event, events⟩
    · simp [hi] at h
    · simp [hi] at h
    · rw [hi] at h
      obtain rfl := Option.some.inj h
      have hfirst : event.told?.isSome → told (s.recording.take i).flatten = [] :=
        hturn event (by simp [hi])
      refine .inl ⟨?_, rfl⟩
      simp only [line, told_append, told_cons, told_nil, List.append_nil, List.append_assoc]
      rw [told_flatten_of_take hi hfirst]
  | finish i =>
    simp only [step] at h
    rcases hi : s.recording[i]? with _ | _ | ⟨event, events⟩
    · simp [hi] at h
    · rw [hi] at h
      obtain rfl := Option.some.inj h
      exact .inl ⟨by simp only [line, told_flatten_eraseIdx hi], rfl⟩
    · simp [hi] at h
  | store =>
    simp only [step] at h
    rcases hq : s.queue with _ | ⟨event, queue⟩
    · simp [hq] at h
    · rw [hq] at h
      obtain rfl := Option.some.inj h
      refine .inl ⟨?_, rfl⟩
      simp only [line, hq, told_append, told_cons, told_nil, List.append_nil, List.append_assoc]

/-- **A step that keeps the turn** keeps the changes in order. -/
theorem inv_step {op : Op} (hs : s.Inv) (hturn : s.KeepsTurn op) (h : step x url s op = some t) :
    t.Inv := by
  rcases line_step hturn h with ⟨hline, hstate⟩ | ⟨hline, hchange, hknown⟩
  · exact ⟨hline ▸ hs.chain, by rw [hline, hstate, hs.last]⟩
  · refine ⟨?_, by rw [hline, List.getLast?_concat, UpstreamState.shown?_of_ne hknown]⟩
    rw [hline, List.isChain_append]
    refine ⟨hs.chain, List.isChain_singleton _, fun a ha b hb => ?_⟩
    obtain rfl : t.status.state = b := by simpa using hb
    rw [hs.last] at ha
    -- the last change was to the state that this one leaves
    intro hab
    subst hab
    cases hstate : s.status.state <;> simp_all [UpstreamState.shown?]

end Step

/-- In the order of the changes the trail is truthful. -/
theorem Inv.truthful {s : Availability} (h : s.Inv) : s.Truthful := by
  refine ⟨h.chain.left_of_append, fun ⟨_, hrecording, hqueue⟩ => ?_⟩
  have hline : s.line = told s.trail := by simp [line, hrecording, hqueue]
  rw [← hline, h.last]

/-- **The trail of a target is truthful** in every state that a run reaches in which no call
overtakes an earlier one with its record. -/
theorem truthful_of_run (x : EndpointTexts) (url : String) {ops : List Op} {s : Availability}
    (hturn : Machine.Meets (step x url) KeepsTurn {} ops)
    (h : Machine.run (step x url) {} ops = some s) : s.Truthful := by
  have hstart : Inv {} := ⟨List.isChain_nil, rfl⟩
  have hinv := Machine.run_invariant_of_meets (I := Inv)
    (fun s op t hs hop ht => inv_step hs hop ht) hstart hturn h
  exact hinv.truthful

/-- The texts of an OPC UA crate that knows no policy and no certificate. -/
def noTexts : EndpointTexts := ⟨fun _ => .unknown, fun _ => "Unknown", fun _ => none⟩

/-- The monitor reaches the server, and a check finds it gone: the check waits for the lock until
the monitor has queued its record. -/
def monitorFirst : List Op :=
  [.discovered (.ok []), .apply 0 ⟨0⟩, .discovered (.error "refused"), .record 0, .finish 0,
    .apply 0 ⟨1⟩, .record 0, .store, .store, .finish 0]

/-- The status after both. -/
def refused : TargetStatus := ⟨.unavailable, some ⟨1⟩, some "refused", []⟩

/-- The monitor reaches the server and a check finds it gone, one behind the other. -/
theorem truthful_of_run_monitorFirst :
    Machine.run (step noTexts "opc.tcp://plc") {} monitorFirst = some { status := refused, trail :=
      [.upstreamAvailable "opc.tcp://plc" 0, .upstreamUnavailable "opc.tcp://plc" "refused"] } ∧
    Truthful { status := refused, trail :=
      [.upstreamAvailable "opc.tcp://plc" 0, .upstreamUnavailable "opc.tcp://plc" "refused"] } := by
  have hturn : Machine.Meets (step noTexts "opc.tcp://plc") KeepsTurn {} monitorFirst := by
    refine Machine.meets_cons_of_eq _ trivial rfl <| Machine.meets_cons_of_eq _ trivial rfl <|
      Machine.meets_cons_of_eq _ trivial rfl <| Machine.meets_cons_of_eq _ ?_ rfl <|
      Machine.meets_cons_of_eq _ trivial rfl <| Machine.meets_cons_of_eq _ trivial rfl <|
      Machine.meets_cons_of_eq _ ?_ rfl <| Machine.meets_cons_of_eq _ trivial rfl <|
      Machine.meets_cons_of_eq _ trivial rfl <| Machine.meets_cons_of_eq _ trivial rfl trivial
    · exact fun _ _ _ => rfl
    · exact fun _ _ _ => rfl
  exact ⟨rfl, truthful_of_run noTexts "opc.tcp://plc" hturn rfl⟩

/-- The check has the lock after the monitor and queues its record before it. -/
def checkFirst : List Op :=
  [.discovered (.ok []), .apply 0 ⟨0⟩, .discovered (.error "refused"), .apply 0 ⟨1⟩, .record 1,
    .record 0, .store, .store, .finish 0, .finish 0]

/-- The target is shown as unavailable, and the trail ends with its being available. -/
theorem overtaken :
    Machine.run (step noTexts "opc.tcp://plc") {} checkFirst = some { status := refused, trail :=
      [.upstreamUnavailable "opc.tcp://plc" "refused", .upstreamAvailable "opc.tcp://plc" 0] } ∧
    ¬ Truthful { status := refused, trail :=
      [.upstreamUnavailable "opc.tcp://plc" "refused", .upstreamAvailable "opc.tcp://plc" 0] } := by
  refine ⟨rfl, fun h => ?_⟩
  have hlast := h.2 ⟨rfl, rfl, rfl⟩
  exact absurd hlast (by decide)

end Availability

end AuditGateway
