import AuditGateway.Config.Migration

set_option relaxedAutoImplicit false
set_option autoImplicit false

/-!
# Valid groups

What it takes for the summarise groups of a target to be valid, and whether a write then belongs to
at most one of them. Validation compares the clients of two groups as they are written; the lookup
files a group under its client without the blanks around it.

## Main definitions

* `SummariseGroup.Valid` — a group that is valid on its own.
* `SummariseGroup.key` — the client that a group is filed under.
* `OneGroupEach` — no node is in two groups that apply to the same writes.

## Main results

* `validateSummarise_eq_ok_iff` — which groups are valid.
* `oneGroup_iff` — a write belongs to one group at most, if clients that are the same without blanks
  share no node.
* `not_oneGroup_blankClient` — groups that are valid and share a node.
-/

namespace AuditGateway

variable {x : ConfigCrates}

/-! ## Which groups are valid -/

/-- A group that is valid on its own. -/
structure SummariseGroup.Valid (x : ConfigCrates) (g : SummariseGroup) : Prop where
  name : ∀ n ∈ g.name, trim n ≠ "" ∧ n.length ≤ 100
  client : ∀ c ∈ g.client, trim c ≠ "" ∧ c.utf8ByteSize ≤ 256
  parses : ∀ n ∈ g.nodes, (parseNode x n).isSome
  nodup : (g.nodes.filterMap (parseNode x)).Nodup
  named : ∀ e ∈ g.names, e.1 ∈ g.nodes

/-- The name and the client, which no two groups share. -/
def SummariseGroup.identity (g : SummariseGroup) : Option String × Option String :=
  (g.name, g.client)

namespace TargetConfig

/-- Nodes are valid if they can be parsed, differ, and were not seen before. -/
theorem validateNodes_eq_ok_iff {name label : String} {seen : List NodeId} {nodes : List String} :
    validateNodes x name label seen nodes = .ok () ↔
      (∀ n ∈ nodes, (parseNode x n).isSome) ∧ (nodes.filterMap (parseNode x)).Nodup ∧
        ∀ node ∈ nodes.filterMap (parseNode x), node ∉ seen := by
  induction nodes generalizing seen with
  | nil => simp [validateNodes]
  | cons n nodes ih =>
    unfold validateNodes
    cases hparse : parseNode x n with
    | none => simp [hparse]
    | some node =>
      by_cases hseen : node ∈ seen
      · simp [hparse, hseen]
      · rw [List.filterMap_cons_some hparse, List.forall_mem_cons, List.forall_mem_cons,
          List.nodup_cons, hparse]
        simp only [hseen, if_false, ih, Option.isSome_some, true_and, not_false_eq_true,
          List.mem_cons, not_or]
        constructor
        · rintro ⟨hall, hnodup, hnew⟩
          exact ⟨hall, ⟨fun hmem => (hnew node hmem).1 rfl, hnodup⟩, fun m hm => (hnew m hm).2⟩
        · rintro ⟨hall, ⟨hfirst, hnodup⟩, hnew⟩
          refine ⟨hall, hnodup, fun m hm => ⟨?_, hnew m hm⟩⟩
          rintro rfl
          exact hfirst hm

/-- The first group is checked, and then the others with it seen. -/
theorem validateGroups_cons_eq_ok_iff {name : String} {seen : List (Option String × Option String)}
    {g : SummariseGroup} {groups : List SummariseGroup} :
    validateGroups x name seen (g :: groups) = .ok () ↔
      g.identity ∉ seen ∧ g.Valid x ∧
        validateGroups x name (g.identity :: seen) groups = .ok () := by
  rw [validateGroups]
  constructor
  · intro h
    split_ifs at h with hseen hname hclient
    cases hnodes : validateNodes x name g.label [] g.nodes with
    | error e => simp [hnodes] at h
    | ok =>
      cases hstray : (g.names.map (·.1)).find? (· ∉ g.nodes) with
      | some extra =>
        simp only [hnodes, hstray] at h
        cases h
      | none =>
        simp only [hnodes, hstray] at h
        obtain ⟨hparses, hnodup, -⟩ := validateNodes_eq_ok_iff.1 hnodes
        refine ⟨hseen, ⟨fun n hn => ?_, fun c hc => ?_, hparses, hnodup, fun e he => ?_⟩, h⟩
        · simpa [Option.mem_def.1 hn] using hname
        · simpa [Option.mem_def.1 hc] using hclient
        · simpa using List.find?_eq_none.1 hstray e.1 (List.mem_map.2 ⟨e, he, rfl⟩)
  · rintro ⟨hseen, hvalid, h⟩
    have hnew : (g.name, g.client) ∉ seen := hseen
    have hname : (g.name.any fun n => trim n = "" || 100 < n.length) = false := by
      cases hn : g.name with
      | none => rfl
      | some n =>
        obtain ⟨hblank, hlong⟩ := hvalid.name n hn
        simp [hblank, hlong]
    have hclient : (g.client.any fun c => trim c = "" || 256 < c.utf8ByteSize) = false := by
      cases hc : g.client with
      | none => rfl
      | some c =>
        obtain ⟨hblank, hlong⟩ := hvalid.client c hc
        simp [hblank, hlong]
    have hnodes : validateNodes x name g.label [] g.nodes = .ok () :=
      validateNodes_eq_ok_iff.2 ⟨hvalid.parses, hvalid.nodup, by simp⟩
    have hstray : (g.names.map (·.1)).find? (· ∉ g.nodes) = none := by
      rw [List.find?_eq_none]
      intro n hn
      obtain ⟨e, he, rfl⟩ := List.mem_map.1 hn
      simpa using hvalid.named e he
    rw [if_neg hnew, hname, hclient, hnodes, hstray]
    exact h

/-- The groups one by one. -/
theorem validateGroups_eq_ok_iff {name : String} {seen : List (Option String × Option String)}
    {groups : List SummariseGroup} :
    validateGroups x name seen groups = .ok () ↔
      (∀ g ∈ groups, g.Valid x) ∧ (groups.map (·.identity)).Nodup ∧
        ∀ g ∈ groups, g.identity ∉ seen := by
  induction groups generalizing seen with
  | nil => simp [validateGroups]
  | cons g groups ih =>
    rw [validateGroups_cons_eq_ok_iff, ih, List.forall_mem_cons, List.forall_mem_cons,
      List.map_cons, List.nodup_cons]
    constructor
    · rintro ⟨hseen, hvalid, hall, hnodup, hnew⟩
      refine ⟨⟨hvalid, hall⟩, ⟨fun hmem => ?_, hnodup⟩, hseen, fun b hb hmem => ?_⟩
      · obtain ⟨b, hb, heq⟩ := List.mem_map.1 hmem
        exact hnew b hb (heq ▸ List.mem_cons_self ..)
      · exact hnew b hb (List.mem_cons_of_mem _ hmem)
    · rintro ⟨⟨hvalid, hall⟩, ⟨hfirst, hnodup⟩, hseen, hnew⟩
      refine ⟨hseen, hvalid, hall, hnodup, fun b hb hmem => ?_⟩
      rcases List.mem_cons.1 hmem with heq | hmem
      · exact hfirst (List.mem_map.2 ⟨b, hb, heq⟩)
      · exact hnew b hb hmem

end TargetConfig

/-- There is no overlap if no two groups that apply to the same writes share a node. -/
theorem summariseOverlap_eq_none_iff {groups : List SummariseGroup} :
    summariseOverlap x groups = none ↔ Unshared x groups := by
  unfold Unshared
  induction groups with
  | nil => simp [summariseOverlap]
  | cons a groups ih =>
    rw [summariseOverlap, Option.or_eq_none_iff, ih, List.pairwise_cons]
    refine and_congr_left fun _ => ?_
    rw [List.findSome?_eq_none_iff]
    constructor
    · intro h b hb hoverlap node ha hb'
      obtain ⟨n, hn, hparse⟩ := List.mem_filterMap.1 hb'
      have hfirst := h b (List.mem_filter.2 ⟨hb, hoverlap⟩)
      rw [Option.map_eq_none_iff] at hfirst
      have hin : (parseNode x n).any (· ∈ a.nodes.filterMap (parseNode x)) = true := by
        rw [hparse]
        exact decide_eq_true ha
      exact List.find?_eq_none.1 hfirst n hn hin
    · intro h b hb
      obtain ⟨hb, hoverlap⟩ := List.mem_filter.1 hb
      rw [Option.map_eq_none_iff, List.find?_eq_none]
      intro n hn hin
      obtain ⟨node, hparse, hmem⟩ := (Option.any_eq_true _ _).1 hin
      exact h b hb hoverlap node (of_decide_eq_true hmem)
        (List.mem_filterMap.2 ⟨n, hn, hparse⟩)

/-- **Which groups of a target are valid.** -/
theorem validateSummarise_eq_ok_iff {t : TargetConfig} :
    t.validateSummarise x = .ok () ↔
      t.summarise.length ≤ maxSummariseGroups ∧
      (t.summarise.map fun g => g.nodes.length).sum ≤ maxSummarisedNodes ∧
      (∀ g ∈ t.summarise, g.Valid x) ∧ (t.summarise.map (·.identity)).Nodup ∧
      Unshared x t.summarise := by
  unfold TargetConfig.validateSummarise
  dsimp only
  rw [← summariseOverlap_eq_none_iff]
  constructor
  · intro h
    split_ifs at h with hgroups hnodes
    cases hvalid : TargetConfig.validateGroups x t.name [] t.summarise with
    | error e => simp [hvalid] at h
    | ok =>
      obtain ⟨hall, hnodup, -⟩ := TargetConfig.validateGroups_eq_ok_iff.1 hvalid
      cases hoverlap : summariseOverlap x t.summarise with
      | some o => simp [hvalid, hoverlap] at h
      | none => exact ⟨by omega, by omega, hall, hnodup, rfl⟩
  · rintro ⟨hgroups, hnodes, hall, hnodup, hoverlap⟩
    have hvalid : TargetConfig.validateGroups x t.name [] t.summarise = .ok () :=
      TargetConfig.validateGroups_eq_ok_iff.2 ⟨hall, hnodup, by simp⟩
    rw [if_neg (by omega), if_neg (by omega), hvalid, hoverlap]

/-! ## A write belongs to one group at most -/

/-- The client that the lookup files a group under. -/
def SummariseGroup.key (g : SummariseGroup) : Option String := g.client.map trim

/-- The lookup applies both groups to the same writes. -/
def SameWrites (a b : SummariseGroup) : Prop :=
  a.client = none ∨ b.client = none ∨ a.key = b.key

/-- No two groups that the lookup applies to the same writes share a node. -/
def OneGroupEach (x : ConfigCrates) (groups : List SummariseGroup) : Prop :=
  groups.Pairwise fun a b => SameWrites a b → ∀ node, a.Holds x node → ¬ b.Holds x node

/-- When a group loses a node, the lookup no longer has the node for the group's client, and a
write by the client is summarised only under another name of the client, by a group for that
name. -/
def Removable (x : ConfigCrates) (groups : List SummariseGroup) : Prop :=
  ∀ before g after g' node, groups = before ++ g :: after → g.Holds x node →
    g'.client = g.client → ¬ g'.Holds x node →
    node ∉ (Lookup.ofGroups x (before ++ g' :: after)).all ∧
    (∀ key, g.client = none ∨ g.key = some key →
      ¬ (Lookup.ofGroups x (before ++ g' :: after)).forClient node key) ∧
    ∀ client, g.AppliesTo client → (Summarised x (before ++ g' :: after) node client ↔
      ∃ b ∈ before ++ after, b.Holds x node ∧ b.AppliesTo client ∧ ¬ SameWrites g b)

/-- Groups whose clients differ only in blanks around them share no node. -/
def Distinct (x : ConfigCrates) (groups : List SummariseGroup) : Prop :=
  groups.Pairwise fun a b => a.client ≠ b.client → a.key = b.key →
    ∀ node, a.Holds x node → ¬ b.Holds x node

/-- Two groups for the same writes, the other way round. -/
theorem SameWrites.symm {a b : SummariseGroup} (h : SameWrites a b) : SameWrites b a := by
  rcases h with h | h | h
  · exact .inr (.inl h)
  · exact .inl h
  · exact .inr (.inr h.symm)

/-- For groups that are valid, only blanks make a difference. -/
theorem oneGroupEach_iff_distinct {groups : List SummariseGroup} (h : Unshared x groups) :
    OneGroupEach x groups ↔ Distinct x groups := by
  have hkeep : ∀ a b : SummariseGroup,
      (groupsOverlap a b → ∀ node, a.Holds x node → ¬ b.Holds x node) →
      ((SameWrites a b → ∀ node, a.Holds x node → ¬ b.Holds x node) ↔
        (a.client ≠ b.client → a.key = b.key → ∀ node, a.Holds x node → ¬ b.Holds x node)) := by
    intro a b hoverlap
    constructor
    · intro hsame hne hkey
      exact hsame (.inr (.inr hkey))
    · intro hdistinct hsame
      by_cases hover : groupsOverlap a b
      · exact hoverlap hover
      · -- both have a client, and the two differ
        simp only [groupsOverlap, Bool.or_eq_true, Option.isNone_iff_eq_none, decide_eq_true_eq,
          not_or] at hover
        obtain ⟨⟨ha, hb⟩, hne⟩ := hover
        rcases hsame with h | h | h
        · exact (ha h).elim
        · exact (hb h).elim
        · exact hdistinct hne h
  constructor
  · intro hone
    exact List.Pairwise.imp₂ (fun a b hab hoverlap => (hkeep a b hoverlap).1 hab) hone h
  · intro hdistinct
    exact List.Pairwise.imp₂ (fun a b hab hoverlap => (hkeep a b hoverlap).2 hab) hdistinct h

/-- Where no node is shared, removing it from its group is enough. -/
theorem removable_of_oneGroupEach {groups : List SummariseGroup} (h : OneGroupEach x groups) :
    Removable x groups := by
  rintro before g after g' node rfl hg hclient hg'
  have hothers : ∀ b ∈ before ++ after, b.Holds x node → ¬ SameWrites g b := by
    intro b hb hholds hsame
    rcases List.mem_append.1 hb with hb | hb
    · exact (List.pairwise_append.1 h).2.2 b hb g (List.mem_cons_self ..) hsame.symm node hholds hg
    · obtain ⟨hfirst, -⟩ := List.pairwise_cons.1 (List.pairwise_append.1 h).2.1
      exact hfirst b hb hsame node hg hholds
  have hleft : ∀ b ∈ before ++ g' :: after, b.Holds x node → b ∈ before ++ after := by
    intro b hb hholds
    rcases List.mem_append.1 hb with hb | hb
    · exact List.mem_append_left _ hb
    · rcases List.mem_cons.1 hb with rfl | hb
      · exact (hg' hholds).elim
      · exact List.mem_append_right _ hb
  refine ⟨fun hmem => ?_, fun key hkey hmem => ?_, fun client happlies => ?_⟩
  · obtain ⟨b, hb, hnone, hholds⟩ := mem_all_ofGroups.1 hmem
    exact hothers b (hleft b hb hholds) hholds (.inr (.inl hnone))
  · obtain ⟨b, hb, hbkey, hholds⟩ := forClient_ofGroups.1 hmem
    refine hothers b (hleft b hb hholds) hholds ?_
    rcases hkey with hnone | hkey
    · exact .inl hnone
    · exact .inr (.inr (hkey.trans hbkey.symm))
  · rw [matches_ofGroups]
    constructor
    · rintro ⟨b, hb, hholds, happ⟩
      have hb := hleft b hb hholds
      exact ⟨b, hb, hholds, happ, hothers b hb hholds⟩
    · rintro ⟨b, hb, hholds, happ, -⟩
      refine ⟨b, ?_, hholds, happ⟩
      rcases List.mem_append.1 hb with hb | hb
      · exact List.mem_append_left _ hb
      · exact List.mem_append_right _ (List.mem_cons_of_mem _ hb)

/-- **A write belongs to at most one group**, and stops being summarised when its node is removed
from the group, exactly if no two groups of the valid target whose clients differ only in blanks
share a node. The writes of a group are those of its client by the name it was filed under; a client
that is known by its address and by a URI can be in one group under each. -/
theorem oneGroup_iff {webListen : SocketAddr} {names : List String} {listens : List SocketAddr}
    {t : TargetConfig} (h : t.validate x webListen names listens = .ok ()) :
    (OneGroupEach x t.summarise ∧ Removable x t.summarise) ↔ Distinct x t.summarise := by
  have hvalid : t.validateSummarise x = .ok () := by
    unfold TargetConfig.validate at h
    split_ifs at h
    exact h
  obtain ⟨-, -, -, -, hunshared⟩ := validateSummarise_eq_ok_iff.1 hvalid
  rw [oneGroupEach_iff_distinct hunshared |>.symm]
  exact ⟨And.left, fun hone => ⟨hone, removable_of_oneGroupEach hone⟩⟩

/-! ## Two clients, and a client with a blank -/

/-- Two spellings of the node of the server's time. -/
def clockNodes : ConfigCrates where
  parseNodeId s := if s = "i=2258" ∨ s = "ns=0;i=2258" then some ⟨0, .numeric 2258⟩ else none
  escapeDebug := id

/-- The node is summarised for two clients. -/
def clientsTarget (a b : String) : TargetConfig where
  name := "plc"
  listen := ⟨"0.0.0.0:4840"⟩
  endpointUrl := "opc.tcp://plc:4840"
  summarise :=
    [{ client := some a, nodes := ["i=2258"] }, { client := some b, nodes := ["i=2258"] }]

/-- Two clients that are different without blanks share a node. -/
theorem oneGroup_iff_clientsTarget :
    (OneGroupEach clockNodes (clientsTarget "10.0.0.5" "10.0.0.6").summarise ∧
      Removable clockNodes (clientsTarget "10.0.0.5" "10.0.0.6").summarise) ↔
    Distinct clockNodes (clientsTarget "10.0.0.5" "10.0.0.6").summarise :=
  @oneGroup_iff clockNodes ⟨"127.0.0.1:8443"⟩ [] [] (clientsTarget "10.0.0.5" "10.0.0.6") rfl

/-- A client with a blank in front is valid next to the same client without: both groups have the
node, and without it in the first its writes are still summarised. -/
theorem not_oneGroup_blankClient :
    (clientsTarget "10.0.0.5" " 10.0.0.5").validate clockNodes ⟨"127.0.0.1:8443"⟩ [] [] = .ok () ∧
    ¬ OneGroupEach clockNodes (clientsTarget "10.0.0.5" " 10.0.0.5").summarise ∧
    ¬ Removable clockNodes (clientsTarget "10.0.0.5" " 10.0.0.5").summarise := by
  have hholds : ∀ c : String, SummariseGroup.Holds clockNodes
      { client := some c, nodes := ["i=2258"] } ⟨0, .numeric 2258⟩ := by
    intro c
    exact List.mem_filterMap.2 ⟨"i=2258", List.mem_singleton_self _, rfl⟩
  refine ⟨rfl, fun hone => ?_, fun hremovable => ?_⟩
  · obtain ⟨hfirst, -⟩ := List.pairwise_cons.1 hone
    exact hfirst _ (List.mem_singleton_self _) (.inr (.inr rfl)) _ (hholds _) (hholds _)
  · obtain ⟨-, hkeys, -⟩ := hremovable [] _ _ { client := some "10.0.0.5" } _ rfl
      (hholds "10.0.0.5") rfl (by simp [SummariseGroup.Holds])
    exact hkeys "10.0.0.5" (.inr rfl) rfl

end AuditGateway
