import AuditGateway.Config.Groups
import AuditGateway.Lib.Partial
import Mathlib.Algebra.GroupWithZero.Nat
import Mathlib.Algebra.Order.BigOperators.Group.List
import Mathlib.Algebra.Order.Group.Nat
import Mathlib.Data.List.Pairwise

set_option relaxedAutoImplicit false
set_option autoImplicit false

/-!
# Starting with an older configuration

Whether a configuration with rules of the old form is still valid when its rules have become groups
and shared nodes are dropped. Rules are compared by their texts when they become groups, and
validation compares the nodes that the texts name.

## Main definitions

* `IgnoreRule.Valid` — a rule that was valid.
* `ruleClients`, `ruleHolders` — the clients of some rules, and those with a rule for a node.
* `SpeltAlike` — every client that keeps a node has one spelling of it.

## Main results

* `Migrated.addRule`, `migrated_migrateIgnore` — what the rules become.
* `validateSummarise_migrated_iff` — when the groups of a target are valid.
* `oldTargets_load_iff` — when the targets of an older configuration are.
* `not_load_twoSpellings` — rules that name a node in two ways.
-/

namespace AuditGateway

variable {x : ConfigCrates}

/-! ## Rules of the old form -/

/-- A rule that was valid: its node parses, and its client is absent, blank or not too long. -/
structure IgnoreRule.Valid (x : ConfigCrates) (rule : IgnoreRule) : Prop where
  parses : (parseNode x rule.nodeId).isSome
  client : ∀ c ∈ rule.client, trim c = "" ∨ c.utf8ByteSize ≤ 256

/-- The clients of some rules, in the order of their first rules. -/
def ruleClients (rules : List IgnoreRule) : List (Option String) :=
  rules.foldl (fun clients rule =>
    if rule.forClient ∈ clients then clients else clients ++ [rule.forClient]) []

/-- The clients with a rule for a node, in the same order. -/
def ruleHolders (x : ConfigCrates) (rules : List IgnoreRule) (node : NodeId) :
    List (Option String) :=
  (ruleClients rules).filter fun c =>
    rules.any fun rule => rule.forClient = c && parseNode x rule.nodeId = some node

/-- Where a client has two spellings of a node, its group loses the node: the first client with
the node is everyone, and this one is not, or the other way round. -/
def SpeltAlike (x : ConfigCrates) (rules : List IgnoreRule) : Prop :=
  ∀ r ∈ rules, ∀ s ∈ rules, r.forClient = s.forClient → trim r.nodeId ≠ trim s.nodeId →
    ∀ node, parseNode x r.nodeId = some node → parseNode x s.nodeId = some node →
      ((ruleHolders x rules node).head? = some none ↔ r.forClient ≠ none)

/-- A client that no rule had is behind the others. -/
theorem ruleClients_append (rules : List IgnoreRule) (rule : IgnoreRule) :
    ruleClients (rules ++ [rule]) =
      if rule.forClient ∈ ruleClients rules then ruleClients rules
      else ruleClients rules ++ [rule.forClient] := by
  rw [ruleClients, List.foldl_append]
  rfl

/-- Every client is there once. -/
theorem nodup_ruleClients (rules : List IgnoreRule) : (ruleClients rules).Nodup := by
  induction rules using List.reverseRecOn with
  | nil => exact List.nodup_nil
  | append_singleton rules rule ih =>
    rw [ruleClients_append]
    split_ifs with hmem
    · exact ih
    · exact List.Nodup.append ih (List.nodup_singleton _) (List.disjoint_singleton.2 hmem)

/-- The clients are those of the rules. -/
theorem mem_ruleClients {rules : List IgnoreRule} {c : Option String} :
    c ∈ ruleClients rules ↔ ∃ rule ∈ rules, rule.forClient = c := by
  induction rules using List.reverseRecOn with
  | nil => simp [ruleClients]
  | append_singleton rules rule ih =>
    rw [ruleClients_append]
    simp only [List.mem_append, List.mem_singleton, or_and_right, exists_or, exists_eq_left, ← ih]
    split_ifs with hmem
    · constructor
      · exact .inl
      · rintro (h | rfl)
        · exact h
        · exact hmem
    · rw [List.mem_append, List.mem_singleton, eq_comm (a := c)]

/-! ## What the rules become -/

/-- The groups of some rules: one for each client, with the texts of its rules. -/
structure Migrated (rules : List IgnoreRule) (groups : List SummariseGroup) : Prop where
  clients : groups.map (·.client) = ruleClients rules
  unnamed : ∀ g ∈ groups, g.name = none
  nodup : ∀ g ∈ groups, g.nodes.Nodup
  nodes : ∀ g ∈ groups, ∀ n,
    n ∈ g.nodes ↔ ∃ rule ∈ rules, rule.forClient = g.client ∧ trim rule.nodeId = n
  named : ∀ g ∈ groups, ∀ e ∈ g.names, e.1 ∈ g.nodes
  total : (groups.map fun g => g.nodes.length).sum ≤ rules.length

/-- A rule goes into the group for its client, or into a new one. -/
theorem addRule_cases (groups : List SummariseGroup) (rule : IgnoreRule) :
    (∃ before g after, groups = before ++ g :: after ∧ g.client = rule.forClient ∧
      addRule groups rule = before ++ g.addNode (trim rule.nodeId) rule.name :: after) ∨
    ((∀ g ∈ groups, g.client ≠ rule.forClient) ∧ addRule groups rule = groups ++
      [{ client := rule.forClient : SummariseGroup }.addNode (trim rule.nodeId) rule.name]) := by
  unfold addRule
  cases hfound : groups.findIdx? fun g => g.client = rule.forClient with
  | none =>
    refine .inr ⟨fun g hg => ?_, rfl⟩
    simpa using List.findIdx?_eq_none_iff.1 hfound g hg
  | some i =>
    obtain ⟨hlt, hclient, -⟩ := List.findIdx?_eq_some_iff_getElem.1 hfound
    refine .inl ⟨groups.take i, groups[i], groups.drop (i + 1), ?_, by simpa using hclient, ?_⟩
    · rw [List.getElem_cons_drop, List.take_append_drop]
    · exact List.modify_eq_take_cons_drop hlt

/-- A node is added behind the others, if it is new. -/
theorem nodes_addNode (g : SummariseGroup) (n : String) (name : Option String) :
    (g.addNode n name).nodes = if n ∈ g.nodes then g.nodes else g.nodes ++ [n] := by
  unfold SummariseGroup.addNode
  dsimp only
  split <;> split_ifs <;> rfl

/-- The name of a group stays when a node is added. -/
theorem name_addNode (g : SummariseGroup) (n : String) (name : Option String) :
    (g.addNode n name).name = g.name := by
  unfold SummariseGroup.addNode
  dsimp only
  split <;> split_ifs <;> rfl

/-- The nodes behind an addition. -/
theorem mem_nodes_addNode {g : SummariseGroup} {n m : String} {name : Option String} :
    m ∈ (g.addNode n name).nodes ↔ m ∈ g.nodes ∨ m = n := by
  rw [nodes_addNode]
  split_ifs with hmem
  · constructor
    · exact .inl
    · rintro (h | rfl)
      · exact h
      · exact hmem
  · rw [List.mem_append, List.mem_singleton]

/-- A name that is new belongs to the node that was added. -/
theorem mem_names_addNode {g : SummariseGroup} {n : String} {name : Option String}
    {e : String × String} (h : e ∈ (g.addNode n name).names) : e ∈ g.names ∨ e.1 = n := by
  have hnames : (g.addNode n name).names = g.names ∨
      ∃ value, (g.addNode n name).names = insertName n value g.names := by
    unfold SummariseGroup.addNode
    dsimp only
    split
    · next value hvalue =>
      refine .inr ⟨value, ?_⟩
      split_ifs <;> rfl
    · refine .inl ?_
      split_ifs <;> rfl
  rcases hnames with heq | ⟨value, heq⟩
  · exact .inl (heq ▸ h)
  · rw [heq, insertName, List.mem_orderedInsert] at h
    rcases h with rfl | h
    · exact .inr rfl
    · exact .inl (List.mem_filter.1 h).1

/-- A group after a rule is one of another client, or has the rule's node as well. -/
theorem mem_addRule {groups : List SummariseGroup} (hnodup : (groups.map (·.client)).Nodup)
    {rule : IgnoreRule} {b : SummariseGroup} (h : b ∈ addRule groups rule) :
    (b ∈ groups ∧ b.client ≠ rule.forClient) ∨
      ∃ g : SummariseGroup, (g ∈ groups ∨ (g = { client := rule.forClient } ∧
        ∀ a ∈ groups, a.client ≠ rule.forClient)) ∧ g.client = rule.forClient ∧
        b = g.addNode (trim rule.nodeId) rule.name := by
  rcases addRule_cases groups rule with ⟨before, g, after, rfl, hclient, heq⟩ | ⟨hnew, heq⟩
  · rw [heq] at h
    rw [List.map_append, List.map_cons, List.nodup_middle, List.nodup_cons, ← List.map_append]
      at hnodup
    have hother : ∀ a ∈ before ++ after, a.client ≠ rule.forClient := by
      intro a ha heq
      exact hnodup.1 (List.mem_map.2 ⟨a, ha, heq.trans hclient.symm⟩)
    rcases List.mem_append.1 h with h | h
    · exact .inl ⟨List.mem_append_left _ h, hother b (List.mem_append_left _ h)⟩
    · rcases List.mem_cons.1 h with rfl | h
      · exact .inr ⟨g, .inl (by simp), hclient, rfl⟩
      · exact .inl ⟨by simp [h], hother b (List.mem_append_right _ h)⟩
  · rw [heq] at h
    rcases List.mem_append.1 h with h | h
    · exact .inl ⟨h, hnew b h⟩
    · exact .inr ⟨_, .inr ⟨rfl, hnew⟩, rfl, List.mem_singleton.1 h⟩

/-- At most one node is added. -/
theorem length_nodes_addNode_le (g : SummariseGroup) (n : String) (name : Option String) :
    (g.addNode n name).nodes.length ≤ g.nodes.length + 1 := by
  rw [nodes_addNode]
  split_ifs
  · omega
  · rw [List.length_append, List.length_singleton]

section AddRule

variable {rules : List IgnoreRule} {groups : List SummariseGroup}

/-- Migrated groups are for different clients. -/
theorem Migrated.nodup_clients (h : Migrated rules groups) :
    (groups.map (·.client)).Nodup := by
  rw [h.clients]
  exact nodup_ruleClients rules

/-- The texts of a client's rules, in a group for it that is there or new. -/
theorem Migrated.nodes_of_client (h : Migrated rules groups) {rule : IgnoreRule}
    {g : SummariseGroup} (hg : g ∈ groups ∨ (g = { client := rule.forClient } ∧
      ∀ a ∈ groups, a.client ≠ rule.forClient)) (n : String) :
    n ∈ g.nodes ↔ ∃ r ∈ rules, r.forClient = g.client ∧ trim r.nodeId = n := by
  rcases hg with hg | ⟨rfl, hnew⟩
  · exact h.nodes g hg n
  · refine iff_of_false (by simp) ?_
    rintro ⟨r, hr, hclient, -⟩
    have hmem : r.forClient ∈ groups.map (·.client) := by
      rw [h.clients]
      exact mem_ruleClients.2 ⟨r, hr, rfl⟩
    obtain ⟨a, ha, heq⟩ := List.mem_map.1 hmem
    exact hnew a ha (heq.trans hclient)

/-- A further rule. -/
theorem Migrated.addRule (h : Migrated rules groups) (rule : IgnoreRule) :
    Migrated (rules ++ [rule]) (addRule groups rule) where
  clients := by
    rw [ruleClients_append, ← h.clients]
    rcases addRule_cases groups rule with ⟨before, g, after, rfl, hclient, heq⟩ | ⟨hnew, heq⟩
    · rw [heq, if_pos (List.mem_map.2 ⟨g, by simp, hclient⟩)]
      simp
    · rw [heq, if_neg, List.map_append, List.map_singleton, client_addNode]
      intro hmem
      obtain ⟨a, ha, heq⟩ := List.mem_map.1 hmem
      exact hnew a ha heq
  unnamed := by
    intro b hb
    obtain ⟨hb, -⟩ | ⟨g, hg, -, rfl⟩ := mem_addRule h.nodup_clients hb
    · exact h.unnamed b hb
    · rw [name_addNode]
      rcases hg with hg | ⟨rfl, -⟩
      · exact h.unnamed g hg
      · rfl
  nodup := by
    intro b hb
    obtain ⟨hb, -⟩ | ⟨g, hg, -, rfl⟩ := mem_addRule h.nodup_clients hb
    · exact h.nodup b hb
    · have hnodup : g.nodes.Nodup := by
        rcases hg with hg | ⟨rfl, -⟩
        · exact h.nodup g hg
        · exact List.nodup_nil
      rw [nodes_addNode]
      split_ifs with hmem
      · exact hnodup
      · exact List.Nodup.append hnodup (List.nodup_singleton _) (List.disjoint_singleton.2 hmem)
  nodes := by
    intro b hb n
    simp only [List.mem_append, List.mem_singleton, or_and_right, exists_or, exists_eq_left]
    obtain ⟨hb, hne⟩ | ⟨g, hg, hclient, rfl⟩ := mem_addRule h.nodup_clients hb
    · rw [h.nodes b hb n]
      exact ⟨.inl, fun hor => hor.resolve_right fun hnew => hne hnew.1.symm⟩
    · rw [mem_nodes_addNode, client_addNode, h.nodes_of_client hg n]
      refine or_congr_right ⟨fun heq => ⟨hclient.symm, heq.symm⟩, fun hnew => hnew.2.symm⟩
  named := by
    intro b hb e he
    obtain ⟨hb, -⟩ | ⟨g, hg, -, rfl⟩ := mem_addRule h.nodup_clients hb
    · exact h.named b hb e he
    · rw [mem_nodes_addNode]
      rcases mem_names_addNode he with hold | hnew
      · rcases hg with hg | ⟨rfl, -⟩
        · exact .inl (h.named g hg e hold)
        · cases hold
      · exact .inr hnew
  total := by
    have htotal := h.total
    rw [List.length_append, List.length_singleton]
    rcases addRule_cases groups rule with ⟨before, g, after, rfl, -, heq⟩ | ⟨-, heq⟩
    · have hone := length_nodes_addNode_le g (trim rule.nodeId) rule.name
      rw [heq]
      simp only [List.map_append, List.map_cons, List.sum_append, List.sum_cons] at htotal ⊢
      omega
    · have hone := length_nodes_addNode_le { client := rule.forClient : SummariseGroup }
        (trim rule.nodeId) rule.name
      rw [heq]
      simp only [List.map_append, List.map_cons, List.map_nil, List.sum_append, List.sum_cons,
        List.sum_nil, List.length_nil] at htotal hone ⊢
      omega

end AddRule

/-- **What the rules become.** -/
theorem migrated_migrateIgnore (rules : List IgnoreRule) :
    Migrated rules (rules.foldl AuditGateway.addRule []) := by
  induction rules using List.reverseRecOn with
  | nil => exact ⟨rfl, nofun, nofun, nofun, nofun, Nat.le_refl 0⟩
  | append_singleton rules rule ih =>
    rw [List.foldl_append]
    exact ih.addRule rule

/-! ## What is left when shared nodes are dropped -/

/-- A group and what is left of it: a node stays with all its spellings, or goes with them. -/
structure GroupKept (x : ConfigCrates) (before after : SummariseGroup) : Prop where
  client : after.client = before.client
  name : after.name = before.name
  nodes : after.nodes.Sublist before.nodes
  whole : ∀ n ∈ before.nodes, ∀ node, parseNode x n = some node → after.Holds x node →
    n ∈ after.nodes
  named : (∀ e ∈ before.names, e.1 ∈ before.nodes) → ∀ e ∈ after.names, e.1 ∈ after.nodes

/-- Nothing is lost of a group that stays. -/
theorem GroupKept.refl (g : SummariseGroup) : GroupKept x g g :=
  ⟨rfl, rfl, .refl _, fun _ hn _ _ _ => hn, id⟩

/-- What is kept in two steps is kept. -/
theorem GroupKept.trans {a b c : SummariseGroup} (hab : GroupKept x a b) (hbc : GroupKept x b c) :
    GroupKept x a c where
  client := hbc.client.trans hab.client
  name := hbc.name.trans hab.name
  nodes := hbc.nodes.trans hab.nodes
  whole := by
    intro n hn node hparse hholds
    have hb : b.Holds x node := (hbc.nodes.filterMap (parseNode x)).subset hholds
    exact hbc.whole n (hab.whole n hn node hparse hb) node hparse hholds
  named := fun h => hbc.named (hab.named h)

/-- Dropping nodes keeps the rest of a group. -/
theorem kept_dropFrom (a b : SummariseGroup) : GroupKept x b (dropFrom x a b) := by
  by_cases hoverlap : groupsOverlap a b
  · rw [dropFrom, if_pos hoverlap]
    refine ⟨rfl, rfl, List.filter_sublist, ?_, ?_⟩
    · intro n hn node hparse hholds
      obtain ⟨m, hm, hmparse⟩ := List.mem_filterMap.1 hholds
      refine List.mem_filter.2 ⟨hn, ?_⟩
      rw [hparse, ← hmparse]
      exact (List.mem_filter.1 hm).2
    · intro _ e he
      exact of_decide_eq_true (List.mem_filter.1 he).2
  · rw [dropFrom, if_neg hoverlap]
    exact .refl b

/-- Every group is kept but for the nodes that are dropped. -/
theorem forall₂_kept_dropOverlaps (target : String) (groups : List SummariseGroup) :
    List.Forall₂ (GroupKept x) groups (dropOverlaps x target groups).1 := by
  induction groups using drop_induction (x := x) with
  | nil => simp [dropOverlaps]
  | cons g groups ih =>
    rw [dropOverlaps_cons]
    refine .cons (.refl g) ((List.forall₂_map_left_iff.1 ih).imp ?_)
    exact fun b c h => (kept_dropFrom g b).trans h

/-- A node stays with the clients that come first: everyone, or all the others. -/
theorem mem_keepFirst_iff {clients : List (Option String)} {c : Option String} :
    c ∈ keepFirst clients ↔ c ∈ clients ∧ (clients.head? = some none ↔ c = none) := by
  by_cases hhead : clients.head? = some none
  · obtain ⟨rest, rfl⟩ := List.head?_eq_some_iff.1 hhead
    rw [keepFirst_of_everyone, List.mem_singleton]
    simp only [hhead, true_iff]
    exact ⟨fun h => ⟨h ▸ List.mem_cons_self .., h⟩, And.right⟩
  · rw [mem_keepFirst_of_head hhead]
    simp only [hhead, false_iff]

/-- A list has different images if its elements do. -/
theorem nodup_filterMap_iff {α β : Type*} {f : α → Option β} {l : List α} (hl : l.Nodup) :
    (l.filterMap f).Nodup ↔
      ∀ a ∈ l, ∀ b ∈ l, a ≠ b → ∀ c, f a = some c → f b ≠ some c := by
  unfold List.Nodup
  rw [List.pairwise_filterMap]
  constructor
  · intro h a ha b hb hne c hac hbc
    have hsymm : Std.Symm fun a a' => ∀ b, f a = some b → ∀ b', f a' = some b' → b ≠ b' :=
      ⟨fun a a' h b hb b' hb' => (h b' hb' b hb).symm⟩
    exact h.forall ha hb hne c hac c hbc rfl
  · intro h
    refine hl.pairwise_of_forall_ne fun a ha b hb hne c hac d hbd heq => ?_
    exact h a ha b hb hne c hac (heq ▸ hbd)

section Left

variable {rules : List IgnoreRule} {groups left : List SummariseGroup}

/-- Who has a node before shared nodes are dropped. -/
theorem Migrated.holderClients_eq (h : Migrated rules groups) (node : NodeId) :
    holderClients x node groups = ruleHolders x rules node := by
  unfold holderClients ruleHolders
  rw [← h.clients, List.filter_map]
  refine congrArg (List.map _) (List.filter_congr fun g hg => ?_)
  rw [Function.comp_apply, Bool.eq_iff_iff, decide_eq_true_eq, List.any_eq_true]
  constructor
  · intro hholds
    obtain ⟨n, hn, hparse⟩ := List.mem_filterMap.1 hholds
    obtain ⟨rule, hrule, hclient, rfl⟩ := (h.nodes g hg n).1 hn
    rw [parseNode_trim] at hparse
    exact ⟨rule, hrule, by simp [hclient, hparse]⟩
  · rintro ⟨rule, hrule, hboth⟩
    simp only [Bool.and_eq_true, decide_eq_true_eq] at hboth
    refine List.mem_filterMap.2 ⟨trim rule.nodeId, ?_, (parseNode_trim ..).trans hboth.2⟩
    exact (h.nodes g hg _).2 ⟨rule, hrule, hboth.1, rfl⟩

/-- The groups that are left have the clients they had. -/
theorem map_client_left (h : List.Forall₂ (GroupKept x) groups left) :
    left.map (·.client) = groups.map (·.client) := by
  induction h with
  | nil => rfl
  | cons hgc _ ih => rw [List.map_cons, List.map_cons, hgc.client, ih]

/-- There are no more nodes than before. -/
theorem sum_length_left_le (h : List.Forall₂ (GroupKept x) groups left) :
    (left.map fun g => g.nodes.length).sum ≤ (groups.map fun g => g.nodes.length).sum := by
  induction h with
  | nil => exact Nat.le_refl 0
  | cons hgc _ ih =>
    have hle := hgc.nodes.length_le
    simp only [List.map_cons, List.sum_cons]
    omega

/-- **Every node is once in its group** exactly if each client that keeps a node has one spelling of
it. -/
theorem nodup_left_iff (h : Migrated rules groups) (target : String) :
    (∀ g ∈ (dropOverlaps x target groups).1, (g.nodes.filterMap (parseNode x)).Nodup) ↔
      SpeltAlike x rules := by
  have hkept := forall₂_kept_dropOverlaps (x := x) target groups
  have hholders : ∀ (node : NodeId) (c : Option String),
      c ∈ holderClients x node (dropOverlaps x target groups).1 ↔
        c ∈ ruleHolders x rules node ∧
          ((ruleHolders x rules node).head? = some none ↔ c = none) := by
    intro node c
    rw [holderClients_dropOverlaps, h.holderClients_eq, mem_keepFirst_iff]
  constructor
  · intro hnodup r hr s hs hclient hne node hparse hparse'
    by_contra hkeeps
    have hkeeps : (ruleHolders x rules node).head? = some none ↔ r.forClient = none := by
      by_cases hnone : r.forClient = none <;> simp_all
    have hholder : r.forClient ∈ ruleHolders x rules node :=
      List.mem_filter.2 ⟨mem_ruleClients.2 ⟨r, hr, rfl⟩,
        List.any_eq_true.2 ⟨r, hr, by simp [hparse]⟩⟩
    obtain ⟨b, hb, heq⟩ := List.mem_map.1 ((hholders node _).2 ⟨hholder, hkeeps⟩)
    obtain ⟨hb, hholds⟩ := List.mem_filter.1 hb
    obtain ⟨g, hg, hgb⟩ := exists_of_mem_right hkept hb
    have hgclient : g.client = r.forClient := hgb.client.symm.trans heq
    have hin : ∀ q ∈ rules, q.forClient = r.forClient → parseNode x q.nodeId = some node →
        trim q.nodeId ∈ b.nodes := by
      intro q hq hqclient hqparse
      refine hgb.whole _ ((h.nodes g hg _).2 ⟨q, hq, hqclient.trans hgclient.symm, rfl⟩) node ?_
        (of_decide_eq_true hholds)
      rw [parseNode_trim, hqparse]
    refine (nodup_filterMap_iff (hgb.nodes.nodup (h.nodup g hg))).1 (hnodup b hb) _
      (hin r hr rfl hparse) _ (hin s hs hclient.symm hparse') hne node ?_ ?_
    · rw [parseNode_trim, hparse]
    · rw [parseNode_trim, hparse']
  · intro halike b hb
    obtain ⟨g, hg, hgb⟩ := exists_of_mem_right hkept hb
    refine (nodup_filterMap_iff (hgb.nodes.nodup (h.nodup g hg))).2 ?_
    intro n hn m hm hne node hparse hparse'
    obtain ⟨r, hr, hrclient, rfl⟩ := (h.nodes g hg n).1 (hgb.nodes.subset hn)
    obtain ⟨s, hs, hsclient, rfl⟩ := (h.nodes g hg m).1 (hgb.nodes.subset hm)
    have hholder : b.client ∈ holderClients x node (dropOverlaps x target groups).1 :=
      List.mem_map.2 ⟨b, List.mem_filter.2 ⟨hb,
        decide_eq_true (List.mem_filterMap.2 ⟨_, hn, hparse⟩)⟩, rfl⟩
    rw [parseNode_trim] at hparse hparse'
    have hloses := halike r hr s hs (hrclient.trans hsclient.symm) hne node hparse hparse'
    have hkeeps := ((hholders node _).1 hholder).2
    rw [hgb.client, ← hrclient] at hkeeps
    by_cases hnone : r.forClient = none <;> simp_all

end Left

/-! ## When the targets are valid -/

/-- A text without blanks is no longer. -/
theorem utf8ByteSize_trim_le (s : String) : (trim s).utf8ByteSize ≤ s.utf8ByteSize := by
  have hsublist : ((s.toList.dropWhile isWhitespace).reverse.dropWhile isWhitespace).reverse.Sublist
      s.toList := by
    have hend := (List.dropWhile_sublist isWhitespace
      (l := (s.toList.dropWhile isWhitespace).reverse)).reverse
    rw [List.reverse_reverse] at hend
    exact hend.trans (List.dropWhile_sublist isWhitespace)
  conv_rhs => rw [← String.ofList_toList (s := s)]
  rw [trim, utf8ByteSize_ofList, utf8ByteSize_ofList]
  exact (hsublist.map _).sum_le_sum fun n _ => Nat.zero_le n

/-- The client of a rule that was valid may be that of a group. -/
theorem IgnoreRule.Valid.forClient {rule : IgnoreRule} (h : rule.Valid x) :
    ∀ c ∈ rule.forClient, trim c ≠ "" ∧ c.utf8ByteSize ≤ 256 := by
  intro c hc
  obtain ⟨hmap, hblank⟩ := Option.filter_eq_some_iff.1 hc
  obtain ⟨raw, hraw, rfl⟩ := Option.map_eq_some_iff.1 hmap
  have hne : trim raw ≠ "" := of_decide_eq_true hblank
  rw [trim_trim]
  exact ⟨hne, (utf8ByteSize_trim_le raw).trans ((h.client raw hraw).resolve_left hne)⟩

/-- **When the groups of a target are valid**: there are not too many clients, and each client that
keeps a node has one spelling of it. -/
theorem validateSummarise_migrated_iff {t : TargetSection} (hold : t.summarise = [])
    (hrules : ∀ rule ∈ t.ignore, rule.Valid x) (hmax : t.ignore.length ≤ maxSummarisedNodes) :
    (t.migrateIgnore.dropSummariseOverlaps x).1.toTargetConfig.validateSummarise x = .ok () ↔
      (ruleClients t.ignore).length ≤ maxSummariseGroups ∧ SpeltAlike x t.ignore := by
  have hmigrated := migrated_migrateIgnore t.ignore
  have hsummarise : (t.migrateIgnore.dropSummariseOverlaps x).1.toTargetConfig.summarise =
      (dropOverlaps x t.name (t.ignore.foldl addRule [])).1 := by
    rw [← hold]
    rfl
  have hkept := forall₂_kept_dropOverlaps (x := x) t.name (t.ignore.foldl addRule [])
  have hlength := congrArg List.length ((map_client_left hkept).trans hmigrated.clients)
  rw [List.length_map] at hlength
  rw [validateSummarise_eq_ok_iff, hsummarise, ← nodup_left_iff hmigrated t.name, hlength]
  constructor
  · rintro ⟨hgroups, -, hvalid, -⟩
    exact ⟨hgroups, fun g hg => (hvalid g hg).nodup⟩
  · rintro ⟨hgroups, hnodup⟩
    refine ⟨hgroups, ?_, fun b hb => ?_, ?_, ?_⟩
    · exact ((sum_length_left_le hkept).trans hmigrated.total).trans hmax
    · obtain ⟨g, hg, hgb⟩ := exists_of_mem_right hkept hb
      refine ⟨?_, ?_, fun n hn => ?_, hnodup b hb, hgb.named (hmigrated.named g hg)⟩
      · rw [hgb.name, hmigrated.unnamed g hg]
        nofun
      · have hmem : b.client ∈ ruleClients t.ignore := by
          rw [hgb.client, ← hmigrated.clients]
          exact List.mem_map.2 ⟨g, hg, rfl⟩
        obtain ⟨rule, hrule, hclient⟩ := mem_ruleClients.1 hmem
        rw [← hclient]
        exact (hrules rule hrule).forClient
      · obtain ⟨rule, hrule, -, rfl⟩ := (hmigrated.nodes g hg n).1 (hgb.nodes.subset hn)
        rw [parseNode_trim]
        exact (hrules rule hrule).parses
    · have hclients : (((dropOverlaps x t.name (t.ignore.foldl addRule [])).1.map
          (·.identity)).map Prod.snd).Nodup := by
        rw [List.map_map]
        show ((dropOverlaps x t.name (t.ignore.foldl addRule [])).1.map (·.client)).Nodup
        rw [map_client_left hkept]
        exact hmigrated.nodup_clients
      exact hclients.of_map _
    · refine (pairwise_apart_dropOverlaps _).imp ?_
      intro a b h hoverlap node ha
      exact h.not_holds hoverlap ha

/-- A target without groups. -/
def TargetSection.withoutGroups (t : TargetSection) : TargetConfig :=
  { t.toTargetConfig with summarise := [] }

/-- A target as it is after loading. -/
def TargetSection.loaded (x : ConfigCrates) (t : TargetSection) : TargetConfig :=
  (t.migrateIgnore.dropSummariseOverlaps x).1.toTargetConfig

/-- A target that was loaded is valid exactly if its groups are. -/
theorem validate_loaded {webListen : SocketAddr} {names : List String} {listens : List SocketAddr}
    {t : TargetSection} (h : t.withoutGroups.validate x webListen names listens = .ok ()) :
    (t.loaded x).validate x webListen names listens = (t.loaded x).validateSummarise x := by
  unfold TargetConfig.validate at h ⊢
  split_ifs at h with hname hduplicate hshared hweb hurl hinterval hlimits
  exact (if_neg (not_not.2 hname)).trans <| (if_neg hduplicate).trans <| (if_neg hshared).trans <|
    (if_neg hweb).trans <| (if_neg (not_not.2 hurl)).trans <| (if_neg hinterval).trans <|
    if_neg hlimits

/-- Targets that are valid but for their groups. -/
theorem validateFrom_loaded_iff {webListen : SocketAddr} {names : List String}
    {listens : List SocketAddr} {targets : List TargetSection}
    (h : validateFrom x webListen names listens (targets.map (·.withoutGroups)) = .ok ()) :
    validateFrom x webListen names listens (targets.map (·.loaded x)) = .ok () ↔
      ∀ t ∈ targets, (t.loaded x).validateSummarise x = .ok () := by
  induction targets generalizing names listens with
  | nil => simp [validateFrom]
  | cons t targets ih =>
    rw [List.map_cons, validateFrom] at h
    cases hvalid : t.withoutGroups.validate x webListen names listens with
    | error e => simp [hvalid] at h
    | ok =>
      simp only [hvalid] at h
      rw [List.map_cons, validateFrom, validate_loaded hvalid, List.forall_mem_cons]
      cases hgroups : (t.loaded x).validateSummarise x with
      | error e => simp
      | ok =>
        rw [← ih h]
        simp only [true_and]
        rfl

/-- **When an older configuration still loads.** For targets in the old form that were valid, and
valid otherwise: exactly if no target has too many clients, counting the rules for every client as
one, and each client that keeps a node has one spelling of it. -/
theorem oldTargets_load_iff {webListen : SocketAddr} {targets : List TargetSection}
    (hold : ∀ t ∈ targets, t.summarise = [])
    (hrules : ∀ t ∈ targets, ∀ rule ∈ t.ignore, rule.Valid x)
    (hmax : ∀ t ∈ targets, t.ignore.length ≤ maxSummarisedNodes)
    (hvalid : validateTargets x webListen (targets.map (·.withoutGroups)) = .ok ()) :
    validateTargets x webListen (targets.map (·.loaded x)) = .ok () ↔
      ∀ t ∈ targets, (ruleClients t.ignore).length ≤ maxSummariseGroups ∧
        SpeltAlike x t.ignore := by
  rw [validateTargets, validateFrom_loaded_iff hvalid]
  refine forall₂_congr fun t ht => ?_
  exact validateSummarise_migrated_iff (hold t ht) (hrules t ht) (hmax t ht)

/-- A target of the old form with rules for the node of the server's time. -/
def clockSection (nodeIds : List String) : TargetSection where
  name := "plc"
  listen := ⟨"0.0.0.0:4840"⟩
  endpointUrl := "opc.tcp://plc:4840"
  ignore := nodeIds.map fun n => { nodeId := n }

/-- Both spellings of the clock are valid in a rule. -/
theorem valid_clockSection {nodeIds : List String}
    (h : ∀ n ∈ nodeIds, n = "i=2258" ∨ n = "ns=0;i=2258") :
    ∀ rule ∈ (clockSection nodeIds).ignore, rule.Valid clockNodes := by
  intro rule hrule
  obtain ⟨n, hn, rfl⟩ := List.mem_map.1 hrule
  refine ⟨?_, nofun⟩
  rcases h n hn with rfl | rfl
  · rfl
  · rfl

/-- A node that is in two rules in one spelling loads. -/
theorem oldTargets_load_iff_clockSection :
    validateTargets clockNodes ⟨"127.0.0.1:8443"⟩
        ([clockSection ["i=2258", "i=2258"]].map (·.loaded clockNodes)) = .ok () ↔
      ∀ t ∈ [clockSection ["i=2258", "i=2258"]],
        (ruleClients t.ignore).length ≤ maxSummariseGroups ∧ SpeltAlike clockNodes t.ignore :=
  oldTargets_load_iff (List.forall_mem_singleton.2 rfl)
    (List.forall_mem_singleton.2 (valid_clockSection (by simp)))
    (List.forall_mem_singleton.2 (by decide)) rfl

/-- Two rules for every client that spell a node in two ways were valid, and are no longer. -/
theorem not_load_twoSpellings :
    (∀ rule ∈ (clockSection ["i=2258", "ns=0;i=2258"]).ignore, rule.Valid clockNodes) ∧
    validateTargets clockNodes ⟨"127.0.0.1:8443"⟩
      [(clockSection ["i=2258", "ns=0;i=2258"]).withoutGroups] = .ok () ∧
    validateTargets clockNodes ⟨"127.0.0.1:8443"⟩
        [(clockSection ["i=2258", "ns=0;i=2258"]).loaded clockNodes] =
      .error (.nodeTwice "plc" "ns=0;i=2258" "an unnamed group (from every client)") := by
  refine ⟨valid_clockSection (by simp), rfl, ?_⟩
  have hone : dropOverlaps clockNodes "plc" [{ nodes := ["i=2258", "ns=0;i=2258"] }] =
      ([{ nodes := ["i=2258", "ns=0;i=2258"] }], []) :=
    dropOverlaps_of_apart (List.pairwise_singleton _ _)
  have hloaded : (clockSection ["i=2258", "ns=0;i=2258"]).loaded clockNodes =
      { (clockSection ["i=2258", "ns=0;i=2258"]).withoutGroups with
        summarise := [{ nodes := ["i=2258", "ns=0;i=2258"] }] } := by
    rw [TargetSection.loaded, TargetSection.dropSummariseOverlaps]
    show TargetConfig.mk _ _ _ _ _ _ _
      (dropOverlaps clockNodes "plc" [{ nodes := ["i=2258", "ns=0;i=2258"] }]).1 = _
    rw [hone]
    rfl
  rw [hloaded]
  rfl

end AuditGateway
