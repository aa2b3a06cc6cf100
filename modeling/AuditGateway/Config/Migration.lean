import AuditGateway.Config.Target
import Mathlib.Data.List.DropRight
import Mathlib.Data.List.Forall2

set_option relaxedAutoImplicit false
set_option autoImplicit false

/-!
# Older configurations

A target of an older configuration has one rule for each summarised node, and its groups may share
nodes. When the configuration is loaded the rules become groups, and a node stays only in the first
of the groups that apply to the same writes. Which writes are summarised is the same as before,
but for a node that some client's group has before a group for every client has it: it stays with
the clients alone, and the message about it says so.

## Main definitions

* `IgnoreRule`, `TargetSection` — a target as an older file has it.
* `TargetSection.migrateIgnore` — the rules become groups.
* `dropOverlaps`, `TargetSection.dropSummariseOverlaps` — the shared nodes are removed.
* `Summarised`, `Shadowed` — the writes that are summarised, and those that no longer are.

## Main results

* `matches_ofGroups` — the lookup of a target says which of its groups apply to a write.
* `summarised_migrateIgnore` — what the rules did, the groups do.
* `holderClients_dropOverlaps` — who still has a node, for each node on its own.
* `migration_faithful` — what the two steps keep, and what they lose.
-/

namespace AuditGateway

/-! ## The old form -/

/-- The old per-node form of a summarised node. -/
structure IgnoreRule where
  nodeId : String
  client : Option String := none
  name : Option String := none
  deriving DecidableEq

/-- A target as it is read, with the rules of the old form. -/
structure TargetSection extends TargetConfig where
  ignore : List IgnoreRule := []
  deriving DecidableEq

/-- A map with a key set; its entries are in the order of the keys. -/
def insertName (key value : String) (names : List (String × String)) : List (String × String) :=
  (names.filter (·.1 ≠ key)).orderedInsert (fun a b => a.1 ≤ b.1) (key, value)

/-- The group with a node, and with its name if there is one. -/
def SummariseGroup.addNode (g : SummariseGroup) (nodeId : String) (name : Option String) :
    SummariseGroup :=
  let g := if nodeId ∈ g.nodes then g else { g with nodes := g.nodes ++ [nodeId] }
  match name.filter (trim · ≠ "") with
  | some name => { g with names := insertName nodeId name g.names }
  | none => g

/-- The client of a rule; a blank one means every client. -/
def IgnoreRule.forClient (rule : IgnoreRule) : Option String :=
  (rule.client.map trim).filter (· ≠ "")

/-- A rule goes into the first group for its client. -/
def addRule (groups : List SummariseGroup) (rule : IgnoreRule) : List SummariseGroup :=
  match groups.findIdx? fun g => g.client = rule.forClient with
  | some i => groups.modify i fun g => g.addNode (trim rule.nodeId) rule.name
  | none => groups ++ [{ client := rule.forClient : SummariseGroup }.addNode (trim rule.nodeId)
      rule.name]

/-- Moves old rules into groups: one per client, and one for the rules without a client. -/
def TargetSection.migrateIgnore (t : TargetSection) : TargetSection :=
  { t with summarise := t.ignore.foldl addRule t.summarise, ignore := [] }

/-! ## Shared nodes -/

section Drop

variable (x : ConfigCrates)

/-- A later group without the nodes of an earlier one. Names stay with their nodes. -/
def SummariseGroup.without (later earlier : SummariseGroup) : SummariseGroup :=
  let taken := earlier.nodes.filterMap (parseNode x)
  let nodes := later.nodes.filter fun n => (parseNode x n).all (· ∉ taken)
  { later with nodes, names := later.names.filter fun e => e.1 ∈ nodes }

/-- What a later group keeps next to an earlier one. -/
def dropFrom (earlier later : SummariseGroup) : SummariseGroup :=
  if groupsOverlap earlier later then later.without x earlier else later

/-- What is said of a node that is dropped from a group. -/
def droppedMessage (target nodeId label first : String) : String :=
  "target '" ++ target ++ "': " ++ nodeId ++ " removed from summarise group " ++ label ++
    ", group " ++ first ++ " already has it"

/-- What is said about the nodes that a later group loses to an earlier one. -/
def droppedFrom (target : String) (earlier later : SummariseGroup) : List String :=
  let kept := (dropFrom x earlier later).nodes
  (later.nodes.filter (· ∉ kept)).map fun n => droppedMessage target n later.label earlier.label

/-- Every group takes its nodes from the later ones that apply to the same writes. -/
def dropOverlaps (target : String) : List SummariseGroup → List SummariseGroup × List String
  | [] => ([], [])
  | g :: groups =>
    let rest := dropOverlaps target (groups.map (dropFrom x g))
    (g :: rest.1, groups.flatMap (droppedFrom x target g) ++ rest.2)
termination_by groups => groups.length

/-- Removes nodes that an earlier group already summarises for the same writes. Says what it
removed. -/
def TargetSection.dropSummariseOverlaps (t : TargetSection) : TargetSection × List String :=
  let dropped := dropOverlaps x t.name t.summarise
  ({ t with summarise := dropped.1 }, dropped.2)

end Drop

/-! ## What is summarised -/

/-- The names a client goes by: its IP address and its application URI. -/
def ClientContext.keys (client : ClientContext) : List String :=
  clientIp client.remoteAddr :: client.applicationUri.toList

/-- The group has a node. -/
def SummariseGroup.Holds (x : ConfigCrates) (g : SummariseGroup) (node : NodeId) : Prop :=
  node ∈ g.nodes.filterMap (parseNode x)

/-- The group is for every client, or for this one. -/
def SummariseGroup.AppliesTo (g : SummariseGroup) (client : ClientContext) : Prop :=
  ∀ c ∈ g.client, trim c ∈ client.keys

/-- Value writes to the node by the client are summarised. -/
def Summarised (x : ConfigCrates) (groups : List SummariseGroup) (node : NodeId)
    (client : ClientContext) : Prop :=
  (Lookup.ofGroups x groups).«matches» node client = true

/-- An old rule, as a group of its own. -/
def IgnoreRule.group (rule : IgnoreRule) : SummariseGroup where
  client := rule.forClient
  nodes := [rule.nodeId]

/-- No group for the client has the node, and another client's group has it before the first group
for every client that has it. -/
def Shadowed (x : ConfigCrates) (groups : List SummariseGroup) (node : NodeId)
    (client : ClientContext) : Prop :=
  (∀ g ∈ groups, g.Holds x node → ∀ c ∈ g.client, trim c ∉ client.keys) ∧
    ∃ before everyone after, groups = before ++ everyone :: after ∧
      everyone.client = none ∧ everyone.Holds x node ∧
      (∀ g ∈ before, g.Holds x node → g.client ≠ none) ∧ ∃ g ∈ before, g.Holds x node

/-- No two groups that apply to the same writes share a node. -/
def Unshared (x : ConfigCrates) (groups : List SummariseGroup) : Prop :=
  groups.Pairwise fun a b => groupsOverlap a b → ∀ node, a.Holds x node → ¬ b.Holds x node

/-! ## Texts without blanks around them -/

/-- Nothing is left to take off. -/
@[simp] theorem trim_trim (s : String) : trim (trim s) = trim s := by
  have hsides (l : List Char) (w : Char → Bool) :
      ((l.dropWhile w).rdropWhile w).dropWhile w = (l.dropWhile w).rdropWhile w := by
    rw [List.dropWhile_eq_self_iff]
    intro hlen
    have hinit : (l.dropWhile w).rdropWhile w <+: l.dropWhile w := List.rdropWhile_prefix ..
    have hlen' := hlen.trans_le hinit.length_le
    rw [hinit.getElem hlen]
    exact List.dropWhile_get_zero_not w l hlen'
  have hend (l : List Char) (w : Char → Bool) :
      (l.rdropWhile w).rdropWhile w = l.rdropWhile w := List.rdropWhile_idempotent ..
  have htrim (s : String) : trim s =
      String.ofList ((s.toList.dropWhile isWhitespace).rdropWhile isWhitespace) := rfl
  rw [htrim, htrim, String.toList_ofList, hsides, hend]

/-- Blanks around a node id do not matter. -/
@[simp] theorem parseNode_trim (x : ConfigCrates) (nodeId : String) :
    parseNode x (trim nodeId) = parseNode x nodeId := by
  rw [parseNode, parseNode, trim_trim]

/-! ## The lookup of a target -/

section Lookup

variable {x : ConfigCrates} {node : NodeId}

/-- Every client has one entry in the lookup. -/
def Lookup.OneEach (l : Lookup) : Prop := (l.byClient.map Prod.fst).Nodup

/-- The entry of a client with more nodes. -/
theorem lookup_map_append {entries : List (String × List NodeId)} {key : String}
    (nodes : List NodeId) (key' : String) :
    (entries.map fun e => if e.1 = key then (e.1, e.2 ++ nodes) else e).lookup key' =
      (entries.lookup key').map fun found => if key' = key then found ++ nodes else found := by
  induction entries with
  | nil => rfl
  | cons e entries ih =>
    obtain ⟨k, found⟩ := e
    have hhead : (if k = key then (k, found ++ nodes) else (k, found)) =
        (k, if k = key then found ++ nodes else found) := by
      split_ifs <;> rfl
    simp only [List.map_cons, hhead, List.lookup_cons]
    by_cases hkey' : key' = k
    · simp [hkey']
    · simp only [beq_false_of_ne hkey', ih]

/-- A group without a client is looked up for all. -/
theorem mem_all_addGroup (l : Lookup) (g : SummariseGroup) :
    node ∈ (l.addGroup x g).all ↔ node ∈ l.all ∨ (g.client = none ∧ g.Holds x node) := by
  unfold Lookup.addGroup SummariseGroup.Holds
  cases hclient : g.client with
  | none => simp
  | some c => cases hfound : l.byClient.lookup (trim c) <;> simp [hfound]

/-- A group is looked up for the name its client was given under, without blanks. -/
theorem forClient_addGroup (l : Lookup) (g : SummariseGroup) (key : String) :
    (l.addGroup x g).forClient node key ↔
      l.forClient node key ∨ ((∃ c ∈ g.client, trim c = key) ∧ g.Holds x node) := by
  unfold Lookup.addGroup SummariseGroup.Holds Lookup.forClient
  cases hclient : g.client with
  | none => simp
  | some c =>
    by_cases hkey : trim c = key
    · subst hkey
      cases hfound : l.byClient.lookup (trim c) with
      | none => simp [hfound, List.lookup_append]
      | some nodes => simp [hfound, lookup_map_append]
    · cases hfound : l.byClient.lookup (trim c) with
      | none =>
        simp [hfound, hkey, List.lookup_append, List.lookup_cons, beq_false_of_ne (Ne.symm hkey)]
      | some nodes => simp [hfound, hkey, lookup_map_append, Ne.symm hkey]

/-- Every node is under a key once. -/
theorem Lookup.OneEach.addGroup {l : Lookup} (hl : l.OneEach) (g : SummariseGroup) :
    (l.addGroup x g).OneEach := by
  unfold Lookup.addGroup Lookup.OneEach
  cases hclient : g.client with
  | none => exact hl
  | some c =>
    cases hfound : l.byClient.lookup (trim c) with
    | none =>
      simp only [hfound, List.map_append, List.map_cons, List.map_nil]
      refine List.Nodup.append hl (List.nodup_singleton _) ?_
      rw [List.disjoint_singleton]
      intro hmem
      obtain ⟨e, he, hkey⟩ := List.mem_map.1 hmem
      rw [List.lookup_eq_none_iff] at hfound
      simpa [hkey] using hfound e he
    | some nodes =>
      have hkeys : (l.byClient.map fun e =>
          if e.1 = trim c then (e.1, e.2 ++ g.nodes.filterMap (parseNode x)) else e).map Prod.fst =
            l.byClient.map Prod.fst := by
        rw [List.map_map]
        refine List.map_congr_left fun e _ => ?_
        by_cases hkey : e.1 = trim c <;> simp [hkey]
      simp only [hfound, hkeys]
      exact hl

variable (x node) in
/-- The lookup of some groups behind a lookup. -/
theorem foldl_addGroup (groups : List SummariseGroup) (l : Lookup) (hl : l.OneEach) :
    (node ∈ (groups.foldl (Lookup.addGroup x) l).all ↔
        node ∈ l.all ∨ ∃ g ∈ groups, g.client = none ∧ g.Holds x node) ∧
      (∀ key, (groups.foldl (Lookup.addGroup x) l).forClient node key ↔
        l.forClient node key ∨
          ∃ g ∈ groups, (∃ c ∈ g.client, trim c = key) ∧ g.Holds x node) ∧
      (groups.foldl (Lookup.addGroup x) l).OneEach := by
  induction groups generalizing l with
  | nil => exact ⟨by simp, by simp, hl⟩
  | cons g groups ih =>
    obtain ⟨hall, hclient, hkeys⟩ := ih (l.addGroup x g) (hl.addGroup g)
    refine ⟨?_, fun key => ?_, hkeys⟩
    · rw [List.foldl_cons, hall, mem_all_addGroup, or_assoc, List.exists_mem_cons_iff]
    · rw [List.foldl_cons, hclient, forClient_addGroup, or_assoc, List.exists_mem_cons_iff]

/-- A client without nodes is not looked up. -/
theorem lookup_filter_nonempty {entries : List (String × List NodeId)}
    (h : (entries.map Prod.fst).Nodup) (key : String) :
    (((entries.filter fun e => !e.2.isEmpty).lookup key).any fun nodes => node ∈ nodes) =
      (entries.lookup key).any fun nodes => node ∈ nodes := by
  induction entries with
  | nil => rfl
  | cons e entries ih =>
    obtain ⟨k, nodes⟩ := e
    obtain ⟨hk, hnodup⟩ := List.nodup_cons.1 h
    have ih := ih hnodup
    cases nodes with
    | cons n nodes =>
      by_cases hkey : key = k
      · simp [hkey]
      · simpa [List.lookup_cons, beq_false_of_ne hkey] using ih
    | nil =>
      by_cases hkey : key = k
      · have hnone : entries.lookup k = none := by
          rw [List.lookup_eq_none_iff]
          intro e he
          exact bne_iff_ne.2 fun heq => hk (List.mem_map.2 ⟨e, he, heq.symm⟩)
        subst hkey
        simpa [hnone] using ih
      · simpa [List.lookup_cons, beq_false_of_ne hkey] using ih

/-- The nodes for all clients are those of the groups without a client. -/
theorem mem_all_ofGroups {groups : List SummariseGroup} :
    node ∈ (Lookup.ofGroups x groups).all ↔ ∃ g ∈ groups, g.client = none ∧ g.Holds x node := by
  obtain ⟨hall, -, -⟩ := foldl_addGroup x node groups ⟨[], []⟩ List.nodup_nil
  have hsame : (Lookup.ofGroups x groups).all =
      (groups.foldl (Lookup.addGroup x) ⟨[], []⟩).all := rfl
  rw [hsame, hall]
  simp

/-- A group is filed under its client without the blanks around it. -/
theorem forClient_ofGroups {groups : List SummariseGroup} {key : String} :
    (Lookup.ofGroups x groups).forClient node key ↔
      ∃ g ∈ groups, g.client.map trim = some key ∧ g.Holds x node := by
  obtain ⟨-, hclient, hkeys⟩ := foldl_addGroup x node groups ⟨[], []⟩ List.nodup_nil
  have hfilter : (Lookup.ofGroups x groups).forClient node key =
      (groups.foldl (Lookup.addGroup x) ⟨[], []⟩).forClient node key :=
    lookup_filter_nonempty hkeys key
  have hkey : ∀ g : SummariseGroup, (∃ c ∈ g.client, trim c = key) ↔
      g.client.map trim = some key := fun g => Option.map_eq_some_iff.symm
  rw [hfilter, hclient key]
  simp only [hkey]
  simp [Lookup.forClient]

/-- **A write is summarised** if a group that applies to its client has its node. -/
theorem matches_ofGroups (groups : List SummariseGroup) (client : ClientContext) :
    Summarised x groups node client ↔ ∃ g ∈ groups, g.Holds x node ∧ g.AppliesTo client := by
  have hmatches : Summarised x groups node client ↔
      node ∈ (Lookup.ofGroups x groups).all ∨
        ∃ key ∈ client.keys, (Lookup.ofGroups x groups).forClient node key := by
    unfold Summarised Lookup.matches ClientContext.keys
    cases client.applicationUri <;> simp [or_assoc]
  rw [hmatches, mem_all_ofGroups]
  simp only [forClient_ofGroups]
  constructor
  · rintro (⟨g, hg, hnone, hholds⟩ | ⟨key, hkey, g, hg, hclient, hholds⟩)
    · exact ⟨g, hg, hholds, by simp [SummariseGroup.AppliesTo, hnone]⟩
    · refine ⟨g, hg, hholds, fun c hc => ?_⟩
      rw [hc] at hclient
      obtain rfl := Option.some.inj hclient
      exact hkey
  · rintro ⟨g, hg, hholds, happlies⟩
    cases hclient : g.client with
    | none => exact .inl ⟨g, hg, hclient, hholds⟩
    | some c => exact .inr ⟨trim c, happlies c hclient, g, hg, by rw [hclient]; rfl, hholds⟩

end Lookup

/-! ## The rules become groups -/

section Migrate

variable {x : ConfigCrates} {node : NodeId} {client : ClientContext}

/-- A node that is added is held. -/
theorem holds_addNode (g : SummariseGroup) (nodeId : String) (name : Option String) :
    (g.addNode nodeId name).Holds x node ↔
      g.Holds x node ∨ parseNode x nodeId = some node := by
  have hnodes : (g.addNode nodeId name).nodes =
      if nodeId ∈ g.nodes then g.nodes else g.nodes ++ [nodeId] := by
    unfold SummariseGroup.addNode
    dsimp only
    split <;> split_ifs <;> rfl
  rw [SummariseGroup.Holds, SummariseGroup.Holds, hnodes]
  split_ifs with hmem
  · refine ⟨.inl, fun h => h.elim id fun hparse => ?_⟩
    exact List.mem_filterMap.2 ⟨nodeId, hmem, hparse⟩
  · simp [List.filterMap_append, eq_comm]

/-- The client of a group stays when a node is added. -/
@[simp] theorem client_addNode (g : SummariseGroup) (nodeId : String) (name : Option String) :
    (g.addNode nodeId name).client = g.client := by
  unfold SummariseGroup.addNode
  dsimp only
  split <;> split_ifs <;> rfl

/-- Groups with one client apply to the same writes. -/
theorem appliesTo_congr {g g' : SummariseGroup} (h : g.client = g'.client) :
    g.AppliesTo client ↔ g'.AppliesTo client := by
  rw [SummariseGroup.AppliesTo, SummariseGroup.AppliesTo, h]

variable (x node client) in
/-- A group that a rule went into summarises for its client what it did, and the node. -/
theorem summarises_addNode {g : SummariseGroup} {rule : IgnoreRule}
    (hclient : g.client = rule.forClient) :
    ((g.addNode (trim rule.nodeId) rule.name).Holds x node ∧
        (g.addNode (trim rule.nodeId) rule.name).AppliesTo client) ↔
      (g.Holds x node ∧ g.AppliesTo client) ∨
        (rule.group.Holds x node ∧ rule.group.AppliesTo client) := by
  have hrule : rule.group.Holds x node ↔ parseNode x rule.nodeId = some node := by
    simp [SummariseGroup.Holds, IgnoreRule.group]
  have happlies : rule.group.AppliesTo client ↔ g.AppliesTo client :=
    appliesTo_congr hclient.symm
  rw [holds_addNode, parseNode_trim, hrule, happlies, appliesTo_congr (client_addNode ..)]
  tauto

/-- With a rule moved into the groups, its node is summarised for its client as well. -/
theorem exists_mem_addRule (groups : List SummariseGroup) (rule : IgnoreRule) :
    (∃ g ∈ addRule groups rule, g.Holds x node ∧ g.AppliesTo client) ↔
      (∃ g ∈ groups, g.Holds x node ∧ g.AppliesTo client) ∨
        (rule.group.Holds x node ∧ rule.group.AppliesTo client) := by
  unfold addRule
  split
  swap
  · have hnew := summarises_addNode x node client
      (show ({ client := rule.forClient } : SummariseGroup).client = rule.forClient from rfl)
    have hempty : ¬ ({ client := rule.forClient : SummariseGroup }).Holds x node := by
      simp [SummariseGroup.Holds]
    simp only [List.mem_append, List.mem_singleton, or_and_right, exists_or, exists_eq_left, hnew,
      hempty, false_and, false_or]
  · next i hfound =>
    obtain ⟨hlt, hclient, -⟩ := List.findIdx?_eq_some_iff_getElem.1 hfound
    have hclient : groups[i].client = rule.forClient := by simpa using hclient
    have hadd := summarises_addNode x node client hclient
    have hsplit : groups = groups.take i ++ groups[i] :: groups.drop (i + 1) := by
      rw [List.getElem_cons_drop, List.take_append_drop]
    rw [List.modify_eq_take_cons_drop hlt]
    conv_rhs => rw [hsplit]
    simp only [List.mem_append, or_and_right, exists_or, List.exists_mem_cons_iff]
    rw [hadd]
    generalize (∃ g ∈ groups.take i, g.Holds x node ∧ g.AppliesTo client) = before
    generalize (∃ g ∈ groups.drop (i + 1), g.Holds x node ∧ g.AppliesTo client) = after
    generalize (rule.group.Holds x node ∧ rule.group.AppliesTo client) = new
    rw [or_assoc, or_assoc, or_assoc, or_comm (a := new)]

/-- **The groups summarise what the rules did**, each for its client. -/
theorem summarised_migrateIgnore (t : TargetSection) :
    Summarised x t.migrateIgnore.summarise node client ↔
      Summarised x (t.summarise ++ t.ignore.map IgnoreRule.group) node client := by
  rw [matches_ofGroups, matches_ofGroups]
  unfold TargetSection.migrateIgnore
  dsimp only
  generalize t.summarise = groups
  induction t.ignore generalizing groups with
  | nil => simp
  | cons rule rules ih =>
    rw [List.foldl_cons, ih]
    simp only [List.mem_append, or_and_right, exists_or, exists_mem_addRule, List.map_cons,
      List.mem_cons, exists_eq_left, or_assoc]

end Migrate

/-! ## One group next to another -/

section DropFrom

variable {x : ConfigCrates} {node : NodeId}

/-- Whether a group holds a node. -/
instance (g : SummariseGroup) : Decidable (g.Holds x node) :=
  inferInstanceAs (Decidable (node ∈ g.nodes.filterMap (parseNode x)))

/-- Dropping nodes keeps the client of a group. -/
@[simp] theorem client_dropFrom (a b : SummariseGroup) : (dropFrom x a b).client = b.client := by
  unfold dropFrom
  split_ifs <;> rfl

/-- Dropping nodes keeps the label of a group. -/
@[simp] theorem label_dropFrom (a b : SummariseGroup) : (dropFrom x a b).label = b.label := by
  unfold dropFrom
  split_ifs <;> rfl

/-- No node is added when nodes are dropped. -/
theorem nodes_dropFrom_sublist (a b : SummariseGroup) :
    (dropFrom x a b).nodes.Sublist b.nodes := by
  unfold dropFrom
  split_ifs
  · exact List.filter_sublist
  · exact List.Sublist.refl _

/-- A node is taken from a later group if the earlier one has it for the same writes. -/
theorem holds_dropFrom (a b : SummariseGroup) :
    (dropFrom x a b).Holds x node ↔ b.Holds x node ∧ ¬ (groupsOverlap a b ∧ a.Holds x node) := by
  unfold dropFrom
  split_ifs with hoverlap
  · simp only [SummariseGroup.Holds, SummariseGroup.without, List.mem_filterMap, List.mem_filter,
      hoverlap, true_and]
    constructor
    · rintro ⟨n, ⟨hn, hkept⟩, hparse⟩
      refine ⟨⟨n, hn, hparse⟩, fun htaken => ?_⟩
      simp only [hparse, Option.all_some, decide_eq_true_eq] at hkept
      exact hkept (by simpa using htaken)
    · rintro ⟨⟨n, hn, hparse⟩, hfree⟩
      refine ⟨n, ⟨hn, ?_⟩, hparse⟩
      simp only [hparse, Option.all_some, decide_eq_true_eq]
      exact fun htaken => hfree (by simpa using htaken)
  · simp [hoverlap]

/-- A later group has nothing of the earlier one, and names only for its own nodes. -/
def Apart (x : ConfigCrates) (a b : SummariseGroup) : Prop :=
  groupsOverlap a b → (∀ n ∈ b.nodes, (parseNode x n).all (· ∉ a.nodes.filterMap (parseNode x))) ∧
    ∀ e ∈ b.names, e.1 ∈ b.nodes

/-- Behind that the two groups share no node. -/
theorem apart_dropFrom (a b : SummariseGroup) : Apart x a (dropFrom x a b) := by
  intro hoverlap
  have hoverlap : groupsOverlap a b := by
    simpa only [groupsOverlap, client_dropFrom] using hoverlap
  rw [dropFrom, if_pos hoverlap]
  refine ⟨fun n hn => (List.mem_filter.1 hn).2, fun e he => ?_⟩
  exact of_decide_eq_true (List.mem_filter.1 he).2

/-- What is apart stays so when other groups take nodes as well. -/
theorem Apart.after {a b : SummariseGroup} (h : Apart x a b) (c : SummariseGroup) :
    Apart x a (dropFrom x c b) := by
  by_cases hc : groupsOverlap c b
  · intro hoverlap
    have hoverlap : groupsOverlap a b := by
      simpa only [groupsOverlap, client_dropFrom] using hoverlap
    rw [dropFrom, if_pos hc]
    refine ⟨fun n hn => (h hoverlap).1 n (List.mem_filter.1 hn).1, fun e he => ?_⟩
    exact of_decide_eq_true (List.mem_filter.1 he).2
  · rwa [dropFrom, if_neg hc]

/-- Groups that share no node lose none. -/
theorem Apart.dropFrom_eq {a b : SummariseGroup} (h : Apart x a b) : dropFrom x a b = b := by
  unfold dropFrom
  split_ifs with hoverlap
  · obtain ⟨hnodes, hnames⟩ := h hoverlap
    have hkept : (b.nodes.filter fun n =>
        (parseNode x n).all (· ∉ a.nodes.filterMap (parseNode x))) = b.nodes :=
      List.filter_eq_self.2 hnodes
    have hnamed : (b.names.filter fun e => e.1 ∈ b.nodes) = b.names :=
      List.filter_eq_self.2 fun e he => by simpa using hnames e he
    rw [SummariseGroup.without, hkept, hnamed]
  · rfl

/-- Of two overlapping groups that share no node, only one holds it. -/
theorem Apart.not_holds {a b : SummariseGroup} (h : Apart x a b) (hoverlap : groupsOverlap a b)
    (ha : a.Holds x node) : ¬ b.Holds x node := by
  rw [← h.dropFrom_eq, holds_dropFrom]
  exact fun hb => hb.2 ⟨hoverlap, ha⟩

end DropFrom

/-! ## All groups -/

section DropOverlaps

variable {x : ConfigCrates} {target : String} {node : NodeId}

/-- The first group stays, and its nodes are dropped from the others. -/
theorem dropOverlaps_cons (g : SummariseGroup) (groups : List SummariseGroup) :
    dropOverlaps x target (g :: groups) =
      (g :: (dropOverlaps x target (groups.map (dropFrom x g))).1,
        groups.flatMap (droppedFrom x target g) ++
          (dropOverlaps x target (groups.map (dropFrom x g))).2) := by
  rw [dropOverlaps]

/-- Induction on the groups as they are gone through: behind the first of them come the others,
without its nodes. -/
@[elab_as_elim]
theorem drop_induction {motive : List SummariseGroup → Prop} (groups : List SummariseGroup)
    (nil : motive [])
    (cons : ∀ g groups, motive (groups.map (dropFrom x g)) → motive (g :: groups)) :
    motive groups := by
  induction hlen : groups.length generalizing groups with
  | zero =>
    obtain rfl := List.eq_nil_of_length_eq_zero hlen
    exact nil
  | succ n ih =>
    obtain ⟨g, groups, rfl⟩ := List.exists_cons_of_length_eq_add_one hlen
    refine cons g groups (ih _ ?_)
    simpa using hlen

/-- What is apart from all groups is apart from what is left of them. -/
theorem apart_of_mem_dropOverlaps {a : SummariseGroup} (groups : List SummariseGroup)
    (h : ∀ b ∈ groups, Apart x a b) : ∀ b ∈ (dropOverlaps x target groups).1, Apart x a b := by
  induction groups using drop_induction (x := x) with
  | nil => simp [dropOverlaps]
  | cons g groups ih =>
    rw [dropOverlaps_cons]
    refine List.forall_mem_cons.2 ⟨h g (List.mem_cons_self ..), ih fun b hb => ?_⟩
    obtain ⟨c, hc, rfl⟩ := List.mem_map.1 hb
    exact (h c (List.mem_cons_of_mem _ hc)).after g

/-- What is left of the groups is apart. -/
theorem pairwise_apart_dropOverlaps (groups : List SummariseGroup) :
    (dropOverlaps x target groups).1.Pairwise (Apart x) := by
  induction groups using drop_induction (x := x) with
  | nil => simp [dropOverlaps]
  | cons g groups ih =>
    rw [dropOverlaps_cons]
    refine List.pairwise_cons.2 ⟨apart_of_mem_dropOverlaps _ fun b hb => ?_, ih⟩
    obtain ⟨b, -, rfl⟩ := List.mem_map.1 hb
    exact apart_dropFrom g b

/-- Groups that are apart keep everything. -/
theorem dropOverlaps_of_apart {groups : List SummariseGroup} (h : groups.Pairwise (Apart x)) :
    dropOverlaps x target groups = (groups, []) := by
  induction groups with
  | nil => rw [dropOverlaps]
  | cons g groups ih =>
    obtain ⟨hg, hgroups⟩ := List.pairwise_cons.1 h
    have hmap : groups.map (dropFrom x g) = groups := by
      conv_rhs => rw [← List.map_id groups]
      exact List.map_congr_left fun b hb => (hg b hb).dropFrom_eq
    have hmessages : groups.flatMap (droppedFrom x target g) = [] := by
      refine List.flatMap_eq_nil_iff.2 fun b hb => ?_
      simp [droppedFrom, (hg b hb).dropFrom_eq]
    rw [dropOverlaps_cons, hmap, ih hgroups, hmessages]
    rfl

/-- A group and what is left of it: its nodes stay in their order, and of those that do not there
is a message. -/
structure TakenFrom (target : String) (messages : List String) (before after : SummariseGroup) :
    Prop where
  label : after.label = before.label
  client : after.client = before.client
  nodes : after.nodes.Sublist before.nodes
  named : ∀ n ∈ before.nodes, n ∉ after.nodes →
    ∃ first, droppedMessage target n before.label first ∈ messages

/-- **Every node that a group loses is named** in a message, with the group. -/
theorem forall₂_taken_dropOverlaps (groups : List SummariseGroup) :
    List.Forall₂ (TakenFrom target (dropOverlaps x target groups).2) groups
      (dropOverlaps x target groups).1 := by
  induction groups using drop_induction (x := x) with
  | nil => simp [dropOverlaps]
  | cons g groups ih =>
    rw [dropOverlaps_cons]
    refine .cons ⟨rfl, rfl, .refl _, fun n hn hlost => absurd hn hlost⟩ ?_
    have hmem : ∀ b ∈ groups, b ∈ groups := fun _ h => h
    refine ((List.forall₂_and_left (p := (· ∈ groups)) _ _).2
      ⟨hmem, List.forall₂_map_left_iff.1 ih⟩).imp ?_
    rintro b c ⟨hb, h⟩
    refine ⟨h.label.trans (label_dropFrom g b), h.client.trans (client_dropFrom g b),
      h.nodes.trans (nodes_dropFrom_sublist g b), fun n hn hlost => ?_⟩
    by_cases hkept : n ∈ (dropFrom x g b).nodes
    · obtain ⟨first, hfirst⟩ := h.named n hkept hlost
      rw [label_dropFrom] at hfirst
      exact ⟨first, List.mem_append_right _ hfirst⟩
    · refine ⟨g.label, List.mem_append_left _ (List.mem_flatMap.2 ⟨b, hb, ?_⟩)⟩
      exact List.mem_map.2 ⟨n, List.mem_filter.2 ⟨hn, by simpa using hkept⟩, rfl⟩

end DropOverlaps

/-! ## Who keeps a node -/

/-- The clients of the groups that have a node, in the order of the groups. -/
def holderClients (x : ConfigCrates) (node : NodeId) (groups : List SummariseGroup) :
    List (Option String) :=
  (groups.filter (·.Holds x node)).map (·.client)

/-- Groups for these clients apply to the same writes. -/
def clientsOverlap (a b : Option String) : Bool := a.isNone || b.isNone || a = b

/-- The clients that do not overlap with one. -/
def without (a : Option String) (clients : List (Option String)) : List (Option String) :=
  clients.filter (!clientsOverlap a ·)

/-- The clients that do not overlap with one. -/
theorem mem_without {a b : Option String} {clients : List (Option String)} :
    b ∈ without a clients ↔ b ∈ clients ∧ ¬ clientsOverlap a b := by
  simp [without]

/-- The clients that keep a node: each takes it from the later ones it overlaps with. -/
def keepFirst : List (Option String) → List (Option String)
  | [] => []
  | a :: clients => a :: keepFirst (without a clients)
termination_by clients => clients.length
decreasing_by exact Nat.lt_succ_of_le (List.length_filter_le ..)

/-- The client is everyone, or this one. -/
def Covers (a : Option String) (client : ClientContext) : Prop := ∀ c ∈ a, trim c ∈ client.keys

section Holders

variable {x : ConfigCrates} {target : String} {node : NodeId} {client : ClientContext}

/-- A write is summarised for the clients of the groups that hold its node. -/
theorem summarised_iff_holderClients (groups : List SummariseGroup) :
    Summarised x groups node client ↔ ∃ a ∈ holderClients x node groups, Covers a client := by
  simp only [matches_ofGroups, holderClients, List.mem_map, List.mem_filter, decide_eq_true_eq]
  constructor
  · rintro ⟨g, hg, hholds, happlies⟩
    exact ⟨g.client, ⟨g, ⟨hg, hholds⟩, rfl⟩, happlies⟩
  · rintro ⟨_, ⟨g, ⟨hg, hholds⟩, rfl⟩, hcovers⟩
    exact ⟨g, hg, hholds, hcovers⟩

/-- The clients that have a node next to a group: without those it takes the node from. -/
theorem holderClients_map_dropFrom (g : SummariseGroup) (groups : List SummariseGroup) :
    holderClients x node (groups.map (dropFrom x g)) =
      if g.Holds x node then without g.client (holderClients x node groups)
      else holderClients x node groups := by
  induction groups with
  | nil => simp [holderClients, without]
  | cons b groups ih =>
    have hholds : (dropFrom x g b).Holds x node ↔
        b.Holds x node ∧ ¬ (clientsOverlap g.client b.client ∧ g.Holds x node) := holds_dropFrom g b
    simp only [holderClients, without, List.map_cons, List.filter_cons, decide_eq_true_eq,
      hholds] at ih ⊢
    by_cases hg : g.Holds x node <;> by_cases hb : b.Holds x node <;>
      by_cases hover : clientsOverlap g.client b.client <;> simp [hg, hb, hover] at ih ⊢ <;>
        exact ih

/-- **For each node on its own** the groups keep it that come first for their clients. -/
theorem holderClients_dropOverlaps (groups : List SummariseGroup) :
    holderClients x node (dropOverlaps x target groups).1 =
      keepFirst (holderClients x node groups) := by
  induction groups using drop_induction (x := x) with
  | nil => simp [dropOverlaps, holderClients, keepFirst]
  | cons g groups ih =>
    rw [dropOverlaps_cons]
    rw [holderClients_map_dropFrom] at ih
    by_cases hg : g.Holds x node
    · rw [if_pos hg] at ih
      have hcons (l : List SummariseGroup) : holderClients x node (g :: l) =
          g.client :: holderClients x node l := by
        simp [holderClients, hg]
      rw [hcons, hcons, keepFirst, ih]
    · rw [if_neg hg] at ih
      have hcons (l : List SummariseGroup) : holderClients x node (g :: l) =
          holderClients x node l := by
        simp [holderClients, hg]
      rw [hcons, hcons, ih]

/-- Everyone keeps the node if everyone comes first. -/
theorem keepFirst_of_everyone (clients : List (Option String)) :
    keepFirst (none :: clients) = [none] := by
  have hnone : without none clients = [] :=
    List.filter_eq_nil_iff.2 fun a _ => by simp [clientsOverlap]
  rw [keepFirst, hnone, keepFirst]

/-- Without everyone in front, every single client keeps the node, and everyone loses it. -/
theorem mem_keepFirst_of_head {clients : List (Option String)} (h : clients.head? ≠ some none)
    (a : Option String) : a ∈ keepFirst clients ↔ a ∈ clients ∧ a ≠ none := by
  induction hlen : clients.length using Nat.strong_induction_on generalizing clients with
  | _ n ih =>
    cases clients with
    | nil => simp [keepFirst]
    | cons b clients =>
      cases b with
      | none => exact absurd rfl h
      | some c =>
        have hhead : (without (some c) clients).head? ≠ some none := by
          intro heq
          exact (mem_without.1 (List.mem_of_mem_head? heq)).2 (by simp [clientsOverlap])
        have hlt : (without (some c) clients).length < n := by
          subst hlen
          exact Nat.lt_succ_of_le (List.length_filter_le ..)
        rw [keepFirst, List.mem_cons, List.mem_cons, ih _ hlt hhead rfl, mem_without]
        rcases a with _ | d
        · simp
        · by_cases hd : c = d
          · simp [hd]
          · simp [clientsOverlap, hd, Ne.symm hd]

/-- Nobody gets a node who did not have it. -/
theorem mem_of_mem_keepFirst {clients : List (Option String)} {a : Option String}
    (h : a ∈ keepFirst clients) : a ∈ clients := by
  by_cases hhead : clients.head? = some none
  · obtain ⟨rest, rfl⟩ := List.head?_eq_some_iff.1 hhead
    rw [keepFirst_of_everyone] at h
    exact List.mem_singleton.1 h ▸ List.mem_cons_self ..
  · exact ((mem_keepFirst_of_head hhead a).1 h).1

/-- No write is summarised that was not before. -/
theorem summarised_of_dropOverlaps (groups : List SummariseGroup)
    (h : Summarised x (dropOverlaps x target groups).1 node client) :
    Summarised x groups node client := by
  rw [summarised_iff_holderClients, holderClients_dropOverlaps] at h
  obtain ⟨a, ha, hcovers⟩ := h
  exact (summarised_iff_holderClients groups).2 ⟨a, mem_of_mem_keepFirst ha, hcovers⟩

/-- The first group for every client that has a node, with a group that has it before. -/
theorem none_mem_holderClients_iff (groups : List SummariseGroup) :
    (none ∈ holderClients x node groups ∧ (holderClients x node groups).head? ≠ some none) ↔
      ∃ before everyone after, groups = before ++ everyone :: after ∧
        everyone.client = none ∧ everyone.Holds x node ∧
        (∀ g ∈ before, g.Holds x node → g.client ≠ none) ∧ ∃ g ∈ before, g.Holds x node := by
  constructor
  · rintro ⟨hmem, hhead⟩
    have hfound : ∃ g, (groups.find? fun g => g.client = none ∧ g.Holds x node) = some g := by
      rw [← Option.isSome_iff_exists, List.find?_isSome]
      obtain ⟨g, hg, hnone⟩ := List.mem_map.1 hmem
      obtain ⟨hg, hholds⟩ := List.mem_filter.1 hg
      exact ⟨g, hg, by simpa using ⟨hnone, of_decide_eq_true hholds⟩⟩
    obtain ⟨everyone, hfound⟩ := hfound
    obtain ⟨hp, before, after, rfl, hfirst⟩ := List.find?_eq_some_iff_append.1 hfound
    obtain ⟨hnone, hholds⟩ : everyone.client = none ∧ everyone.Holds x node := by simpa using hp
    refine ⟨before, everyone, after, rfl, hnone, hholds, fun g hg hg' heq => ?_, ?_⟩
    · simpa [heq, hg'] using hfirst g hg
    · by_contra hno
      push Not at hno
      have hempty : before.filter (·.Holds x node) = [] :=
        List.filter_eq_nil_iff.2 fun g hg => by simpa using hno g hg
      exact hhead (by simp [holderClients, List.filter_append, hempty, hholds, hnone])
  · rintro ⟨before, everyone, after, rfl, hnone, hholds, hfirst, g, hg, hg'⟩
    refine ⟨List.mem_map.2 ⟨everyone, List.mem_filter.2 ⟨by simp, by simpa using hholds⟩, hnone⟩,
      ?_⟩
    have hmem : g ∈ before.filter (·.Holds x node) := List.mem_filter.2 ⟨hg, by simpa using hg'⟩
    obtain ⟨h, l, hl⟩ := List.exists_cons_of_ne_nil (List.ne_nil_of_mem hmem)
    have hh := List.mem_filter.1 (hl ▸ List.mem_cons_self .. : h ∈ before.filter (·.Holds x node))
    simpa [holderClients, List.filter_append, hl] using hfirst h hh.1 (of_decide_eq_true hh.2)

/-- **What is lost**: a node is no longer summarised for a client that no group with the node is
for, if another client's group has it before the first group for every client. -/
theorem lost_iff_shadowed (groups : List SummariseGroup) :
    (Summarised x groups node client ∧
        ¬ Summarised x (dropOverlaps x target groups).1 node client) ↔
      Shadowed x groups node client := by
  have hclients : (∀ g ∈ groups, g.Holds x node → ∀ c ∈ g.client, trim c ∉ client.keys) ↔
      ∀ a ∈ holderClients x node groups, a ≠ none → ¬ Covers a client := by
    constructor
    · intro h a ha hne
      obtain ⟨g, hg, rfl⟩ := List.mem_map.1 ha
      obtain ⟨c, hc⟩ := Option.ne_none_iff_exists'.1 hne
      obtain ⟨hg, hholds⟩ := List.mem_filter.1 hg
      exact fun hcovers => h g hg (of_decide_eq_true hholds) c hc (hcovers c hc)
    · intro h g hg hholds c hc hkey
      refine h g.client ?_ (by simp [Option.mem_def.1 hc]) fun d hd => ?_
      · exact List.mem_map.2 ⟨g, List.mem_filter.2 ⟨hg, by simpa using hholds⟩, rfl⟩
      · obtain rfl := Option.some.inj (hc.symm.trans hd)
        exact hkey
  rw [Shadowed, hclients, ← none_mem_holderClients_iff, summarised_iff_holderClients,
    summarised_iff_holderClients, holderClients_dropOverlaps]
  generalize holderClients x node groups = clients
  have heveryone : Covers none client := by simp [Covers]
  by_cases hhead : clients.head? = some none
  · obtain ⟨rest, rfl⟩ := List.head?_eq_some_iff.1 hhead
    simp [keepFirst_of_everyone, heveryone]
  · simp only [mem_keepFirst_of_head hhead]
    constructor
    · rintro ⟨⟨a, ha, hcovers⟩, hlost⟩
      have hnone : a = none := by
        by_contra hne
        exact hlost ⟨a, ⟨ha, hne⟩, hcovers⟩
      exact ⟨fun b hb hne hb' => hlost ⟨b, ⟨hb, hne⟩, hb'⟩, hnone ▸ ha, hhead⟩
    · rintro ⟨hothers, hnone, -⟩
      exact ⟨⟨none, hnone, heveryone⟩, fun ⟨b, ⟨hb, hne⟩, hb'⟩ => hothers b hb hne hb'⟩

end Holders

/-! ## Both steps -/

/-- **Migration is faithful.** The groups that rules become summarise what the rules and the groups
did. Dropping shared nodes adds nothing, names every node that it takes, loses exactly what is
shadowed, and leaves no node shared; and after both steps both change nothing. -/
theorem migration_faithful (x : ConfigCrates) (t : TargetSection) :
    (∀ node client, Summarised x t.migrateIgnore.summarise node client ↔
      Summarised x (t.summarise ++ t.ignore.map IgnoreRule.group) node client) ∧
    (∀ node client, Summarised x (t.dropSummariseOverlaps x).1.summarise node client →
      Summarised x t.summarise node client) ∧
    List.Forall₂ (TakenFrom t.name (t.dropSummariseOverlaps x).2) t.summarise
      (t.dropSummariseOverlaps x).1.summarise ∧
    (∀ node client, (Summarised x t.summarise node client ∧
        ¬ Summarised x (t.dropSummariseOverlaps x).1.summarise node client) ↔
      Shadowed x t.summarise node client) ∧
    Unshared x (t.dropSummariseOverlaps x).1.summarise ∧
    (t.migrateIgnore.dropSummariseOverlaps x).1.migrateIgnore.dropSummariseOverlaps x =
      ((t.migrateIgnore.dropSummariseOverlaps x).1, []) := by
  refine ⟨fun node client => summarised_migrateIgnore t,
    fun node client => summarised_of_dropOverlaps t.summarise,
    forall₂_taken_dropOverlaps t.summarise, fun node client => lost_iff_shadowed t.summarise,
    ?_, ?_⟩
  · refine (pairwise_apart_dropOverlaps t.summarise).imp ?_
    intro a b h hoverlap node ha
    exact h.not_holds hoverlap ha
  · have hsame : (t.migrateIgnore.dropSummariseOverlaps x).1.migrateIgnore =
        (t.migrateIgnore.dropSummariseOverlaps x).1 := rfl
    have hagain : dropOverlaps x t.migrateIgnore.name
        (dropOverlaps x t.migrateIgnore.name t.migrateIgnore.summarise).1 =
          ((dropOverlaps x t.migrateIgnore.name t.migrateIgnore.summarise).1, []) :=
      dropOverlaps_of_apart (pairwise_apart_dropOverlaps t.migrateIgnore.summarise)
    rw [hsame]
    simp only [TargetSection.dropSummariseOverlaps, hagain]

end AuditGateway
