import AuditGateway.Config.Groups
import AuditGateway.Config.Load
import AuditGateway.Lib.KeyedList
import AuditGateway.Targets.Updates
import Mathlib.Data.Finset.Lattice.Lemmas
import Mathlib.Data.Finset.SDiff

set_option relaxedAutoImplicit false
set_option autoImplicit false

/-!
# Edits of summarise groups

A group is addressed by its position in the list of its target. The list can change between the
moment when the position was read and the change, which is made under the lock of the configuration;
so a request also says the name and the client of the group it means, and is refused when another
one is there. The tools of an assistant name a group by these two, and look the position up first.

## Main definitions

* `GroupEdit.change`, `NewGroup.change` — what the requests do to the list, and what they answer.
* `NodeSets`, `MadeEdit.apply` — groups as sets of nodes under their names, and the edits of them.
* `GroupEdits` — the target manager and the requests.

## Main results

* `GroupEdits.refines_nodeSets` — the requests edit the groups that they name, in every
  interleaving.
* `GroupEdit.recorded_iff` — an edit is recorded exactly if it changes the groups.
-/

namespace AuditGateway

/-! ## The requests -/

/-- A text without the blanks around it, if anything is left. -/
def trimmed (s : Option String) : Option String := (s.map trim).filter (· ≠ "")

/-- A node to summarise, with its display name where known. -/
structure NodeRef where
  nodeId : String
  name : Option String := none

/-- The fields of a new group. -/
structure NewGroup where
  name : Option String := none
  client : Option String := none
  nodes : List NodeRef := []

/-- The group the caller saw at a position. -/
structure GroupCheck where
  check : Bool := false
  name : Option String := none
  client : Option String := none

/-- The check for a group that the caller has seen. -/
def GroupCheck.expecting (name client : Option String) : GroupCheck := ⟨true, name, client⟩

/-- The group at a position, unless it is not the one that the caller saw. -/
def groupMut (groups : List SummariseGroup) (index : ℕ) (target : String) (expect : GroupCheck) :
    Except String SummariseGroup :=
  match groups[index]? with
  | none => .error ("target '" ++ target ++ "' has no group " ++ toString index)
  | some g =>
    if expect.check ∧
        ¬(trimmed g.name = trimmed expect.name ∧ trimmed g.client = trimmed expect.client) then
      .error ("the summarise groups of '" ++ target ++ "' changed meanwhile; reload and try again")
    else .ok g

section Add

variable (x : ConfigCrates)

/-- Adds nodes to a group with the nodes `present`, and counts them. -/
def addNodes (present : List NodeId) (g : SummariseGroup) (added : ℕ) :
    List NodeRef → Except String (SummariseGroup × ℕ)
  | [] => .ok (g, added)
  | n :: nodes =>
    let nodeId := trim n.nodeId
    if nodeId = "" then addNodes present g added nodes
    else
      match parseNode x nodeId with
      | none => .error ("'" ++ x.escapeDebug nodeId ++ "' is not a node id")
      | some node =>
        if node ∈ present then addNodes present g added nodes
        else
          let names :=
            match trimmed n.name with
            | some name => insertName nodeId (clip name maxName) g.names
            | none => g.names
          addNodes (node :: present) { g with nodes := g.nodes ++ [nodeId], names := names }
            (added + 1) nodes

/-- Adds nodes to a group, skipping those already in it. Returns how many were added. -/
def addToGroup (g : SummariseGroup) (nodes : List NodeRef) : Except String (SummariseGroup × ℕ) :=
  addNodes x (g.nodes.filterMap (parseNode x)) g 0 nodes

end Add

/-- What a request to change one group does. -/
inductive GroupEdit
  | rename (name : Option String)
  | delete
  | addNodes (nodes : List NodeRef)
  | removeNodes (nodes : List String)

/-- What was changed, for the answer and the record. -/
inductive GroupChange
  | created (label : String) (changed : ℕ)
  | renamed (old new : String)
  | deleted (g : SummariseGroup)
  | added (changed : ℕ) (label : String)
  | removed (changed : ℕ) (label : String)

/-- A number of nodes as text. -/
def nodesText (n : ℕ) : String := if n = 1 then "1 node" else toString n ++ " nodes"

/-- The summary of the `config_changed` record, if there is one. -/
def GroupChange.summary (target : String) : GroupChange → Option String
  | .created label changed =>
    some ("target '" ++ target ++ "': summarise group " ++ label ++ " created" ++
      if 0 < changed then " with " ++ nodesText changed else "")
  | .renamed old new =>
    if old = new then none
    else some ("target '" ++ target ++ "': summarise group " ++ old ++ " renamed to " ++ new)
  | .deleted g =>
    some ("target '" ++ target ++ "': summarise group " ++ g.label ++ " removed; writes to its " ++
      nodesText g.nodes.length ++ " are recorded again")
  | .added changed label =>
    if 0 < changed then
      some ("target '" ++ target ++ "': " ++ nodesText changed ++ " added to " ++ label)
    else none
  | .removed changed label =>
    if 0 < changed then
      some ("target '" ++ target ++ "': " ++ nodesText changed ++ " removed from " ++ label ++
        "; their writes are recorded again")
    else none

/-- The group without the nodes. -/
def SummariseGroup.removeNodes (x : ConfigCrates) (g : SummariseGroup) (nodes : List String) :
    SummariseGroup :=
  let remove := nodes.filterMap (parseNode x)
  let kept := g.nodes.filter fun n => (parseNode x n).all (· ∉ remove)
  { g with nodes := kept, names := g.names.filter (·.1 ∈ kept) }

/-- `rename_group`, `delete_group`, `add_nodes` and `remove_nodes`, under the lock. -/
def GroupEdit.change (x : ConfigCrates) (target : String) (index : ℕ) (expect : GroupCheck)
    (edit : GroupEdit) (groups : List SummariseGroup) :
    Except String (List SummariseGroup × GroupChange) :=
  match groupMut groups index target expect with
  | .error e => .error e
  | .ok g =>
    match edit with
    | .rename name =>
      let g' := { g with name := trimmed name }
      .ok (groups.set index g', .renamed g.label g'.label)
    | .delete => .ok (groups.eraseIdx index, .deleted g)
    | .addNodes nodes =>
      match addToGroup x g nodes with
      | .error e => .error e
      | .ok (g', added) => .ok (groups.set index g', .added added g'.label)
    | .removeNodes nodes =>
      let g' := g.removeNodes x nodes
      .ok (groups.set index g', .removed (g.nodes.length - g'.nodes.length) g'.label)

/-- `create_group`, under the lock. -/
def NewGroup.change (x : ConfigCrates) (new : NewGroup) (groups : List SummariseGroup) :
    Except String (List SummariseGroup × GroupChange) :=
  match addToGroup x { name := trimmed new.name, client := trimmed new.client } new.nodes with
  | .error e => .error e
  | .ok (g, added) => .ok (groups ++ [g], .created g.label added)

/-! ## Groups as sets of nodes -/

/-- The nodes of each group, by its name and its client. -/
abbrev NodeSets := Option String × Option String → Option (Finset NodeId)

/-- The nodes of a group. -/
def SummariseGroup.nodeSet (x : ConfigCrates) (g : SummariseGroup) : Finset NodeId :=
  (g.nodes.filterMap (parseNode x)).toFinset

/-- The nodes of each group. -/
def nodeSets (x : ConfigCrates) (groups : List SummariseGroup) : NodeSets := fun id =>
  (KeyedList.toMap SummariseGroup.identity groups id).map (·.nodeSet x)

/-- The nodes that a request names. -/
def refSet (x : ConfigCrates) (nodes : List NodeRef) : Finset NodeId :=
  ((nodes.filter fun n => trim n.nodeId ≠ "").filterMap fun n => parseNode x n.nodeId).toFinset

/-- A change that was made. -/
inductive MadeEdit
  | created (new : NewGroup)
  | edited (name client : Option String) (edit : GroupEdit)

/-- What the change is for the sets of nodes. -/
def MadeEdit.apply (x : ConfigCrates) (sets : NodeSets) : MadeEdit → NodeSets
  | .created new =>
    Function.update sets (trimmed new.name, trimmed new.client) (some (refSet x new.nodes))
  | .edited name client edit =>
    let set := sets (name, client)
    match edit with
    | .rename new =>
      Function.update (Function.update sets (name, client) none) (trimmed new, client) set
    | .delete => Function.update sets (name, client) none
    | .addNodes nodes => Function.update sets (name, client) (set.map (· ∪ refSet x nodes))
    | .removeNodes nodes =>
      Function.update sets (name, client)
        (set.map (· \ (nodes.filterMap (parseNode x)).toFinset))

/-! ## What an edit does -/

/-- A result whose first part is known has a second one. -/
lemma exists_of_map_fst {α β ε : Type*} {e : Except ε (α × β)} {a : α}
    (h : e.map Prod.fst = .ok a) : ∃ b, e = .ok (a, b) := by
  cases e with
  | error e => cases h
  | ok r =>
    cases h
    exact ⟨r.2, rfl⟩

variable {x : ConfigCrates}

/-- Trimming twice is trimming once. -/
@[simp] lemma trimmed_trimmed (s : Option String) : trimmed (trimmed s) = trimmed s := by
  cases s with
  | none => rfl
  | some s =>
    by_cases hs : trim s = ""
    · simp [trimmed, hs, Option.filter]
    · simp [trimmed, hs, Option.filter]

/-- The name and the client of a group have no blanks around them. -/
def SummariseGroup.Plain (g : SummariseGroup) : Prop :=
  trimmed g.name = g.name ∧ trimmed g.client = g.client

/-- What is among the nodes of a group. -/
lemma mem_nodeSet {g : SummariseGroup} {node : NodeId} :
    node ∈ g.nodeSet x ↔ ∃ n ∈ g.nodes, parseNode x n = some node := by
  simp [SummariseGroup.nodeSet]

/-- A blank reference names no node. -/
lemma refSet_cons_of_blank {n : NodeRef} (h : trim n.nodeId = "") (nodes : List NodeRef) :
    refSet x (n :: nodes) = refSet x nodes := by
  simp [refSet, h]

/-- The nodes that a list of references names. -/
lemma refSet_cons {n : NodeRef} {node : NodeId} (h : trim n.nodeId ≠ "")
    (hparse : parseNode x n.nodeId = some node) (nodes : List NodeRef) :
    refSet x (n :: nodes) = {node} ∪ refSet x nodes := by
  ext m
  simp [refSet, h, hparse]

/-- The nodes of a group with one more. -/
lemma nodeSet_addNode (g : SummariseGroup) {nodeId : String} {node : NodeId}
    (hparse : parseNode x nodeId = some node) (names : List (String × String)) :
    SummariseGroup.nodeSet x { g with nodes := g.nodes ++ [nodeId], names := names } =
      {node} ∪ g.nodeSet x := by
  ext m
  simp [SummariseGroup.nodeSet, hparse]

/-- What `addNodes` has done behind a run from `g`. -/
structure Added (x : ConfigCrates) (g g' : SummariseGroup) (nodes : List NodeRef) (count : ℕ) :
    Prop where
  identity : g'.identity = g.identity
  nodeSet : g'.nodeSet x = g.nodeSet x ∪ refSet x nodes
  length : g'.nodes.length = g.nodes.length + count
  unchanged : count = 0 → g' = g

/-- What adding nodes to a group does. -/
lemma addNodes_ok {present : List NodeId} {g g' : SummariseGroup} {added total : ℕ}
    {nodes : List NodeRef} (hpresent : ∀ node, node ∈ present ↔ node ∈ g.nodeSet x)
    (h : addNodes x present g added nodes = .ok (g', total)) :
    ∃ count, total = added + count ∧ Added x g g' nodes count := by
  induction nodes generalizing present g added with
  | nil =>
    obtain ⟨rfl, rfl⟩ : g = g' ∧ added = total := by simpa [addNodes] using h
    exact ⟨0, rfl, rfl, by simp [refSet], rfl, fun _ => rfl⟩
  | cons n nodes ih =>
    simp only [addNodes] at h
    split_ifs at h with hblank
    · obtain ⟨count, rfl, hadded⟩ := ih hpresent h
      exact ⟨count, rfl, hadded.identity, by rw [refSet_cons_of_blank hblank, hadded.nodeSet],
        hadded.length, hadded.unchanged⟩
    · split at h
      · cases h
      · next node hparse =>
        rw [parseNode_trim] at hparse
        have hrefs := refSet_cons hblank hparse nodes
        split_ifs at h with hin
        · -- the group has the node
          obtain ⟨count, rfl, hadded⟩ := ih hpresent h
          refine ⟨count, rfl, hadded.identity, ?_, hadded.length, hadded.unchanged⟩
          have hmem := (hpresent node).1 hin
          have hsub : {node} ⊆ g.nodeSet x := Finset.singleton_subset_iff.2 hmem
          rw [hrefs, hadded.nodeSet, ← Finset.union_assoc, Finset.union_eq_left.2 hsub]
        · have hset := nodeSet_addNode g ((parseNode_trim x n.nodeId).trans hparse)
            (match trimmed n.name with
              | some name => insertName (trim n.nodeId) (clip name maxName) g.names
              | none => g.names)
          have hnew : ∀ m, m ∈ node :: present ↔ m ∈ {node} ∪ g.nodeSet x := by
            intro m
            rw [List.mem_cons, Finset.mem_union, Finset.mem_singleton, hpresent m]
          rw [← hset] at hnew
          obtain ⟨count, rfl, hadded⟩ := ih hnew h
          refine ⟨count + 1, by omega, hadded.identity, ?_, ?_, fun hcount => by omega⟩
          · rw [hrefs, hadded.nodeSet, hset, Finset.union_comm {node}, Finset.union_assoc]
          · simp only [hadded.length, List.length_append, List.length_singleton]
            omega

/-- What adding nodes does to a group that had some. -/
lemma addToGroup_ok {g g' : SummariseGroup} {nodes : List NodeRef} {added : ℕ}
    (h : addToGroup x g nodes = .ok (g', added)) : Added x g g' nodes added := by
  obtain ⟨count, rfl, hadded⟩ := addNodes_ok (fun node => by simp [SummariseGroup.nodeSet]) h
  rwa [Nat.zero_add]

/-- The nodes of a group with some taken out. -/
lemma nodeSet_removeNodes (g : SummariseGroup) (nodes : List String) :
    (g.removeNodes x nodes).nodeSet x =
      g.nodeSet x \ (nodes.filterMap (parseNode x)).toFinset := by
  ext node
  simp only [SummariseGroup.removeNodes, mem_nodeSet, List.mem_filter, Finset.mem_sdiff,
    List.mem_toFinset]
  constructor
  · rintro ⟨n, ⟨hn, hkept⟩, hparse⟩
    exact ⟨⟨n, hn, hparse⟩, by simpa [hparse] using hkept⟩
  · rintro ⟨⟨n, hn, hparse⟩, hkept⟩
    exact ⟨n, ⟨hn, by simpa [hparse] using hkept⟩, hparse⟩

/-- A request that gets its group. -/
lemma groupMut_ok {groups : List SummariseGroup} {index : ℕ} {target : String} {expect : GroupCheck}
    {g : SummariseGroup} (h : groupMut groups index target expect = .ok g) :
    groups[index]? = some g ∧ (expect.check = true →
      trimmed g.name = trimmed expect.name ∧ trimmed g.client = trimmed expect.client) := by
  unfold groupMut at h
  split at h
  · cases h
  · next hg =>
    split_ifs at h with hcheck
    cases h
    refine ⟨hg, fun hc => ?_⟩
    by_contra hne
    exact hcheck ⟨hc, hne⟩

/-- The nodes of each group when one of them has changed. -/
lemma nodeSets_set {groups : List SummariseGroup} {i : ℕ} {g g' : SummariseGroup}
    (h : (groups.map (·.identity)).Nodup) (h' : ((groups.set i g').map (·.identity)).Nodup)
    (hi : groups[i]? = some g) :
    nodeSets x (groups.set i g') =
      Function.update (Function.update (nodeSets x groups) g.identity none) g'.identity
        (some (g'.nodeSet x)) := by
  have hmap := KeyedList.toMap_set h h' hi
  change Option.map _ ∘ KeyedList.toMap SummariseGroup.identity (groups.set i g') = _
  rw [hmap, Function.comp_update, Function.comp_update]
  rfl

/-- The nodes of a group in its place. -/
lemma nodeSets_of_getElem? {groups : List SummariseGroup} {i : ℕ} {g : SummariseGroup}
    (h : (groups.map (·.identity)).Nodup) (hi : groups[i]? = some g) :
    nodeSets x groups g.identity = some (g.nodeSet x) := by
  rw [nodeSets, KeyedList.toMap_of_getElem? h hi, Option.map_some]

/-- **A checked request edits the group that it names**, wherever it is in the list. -/
lemma nodeSets_change {groups groups' : List SummariseGroup} {index : ℕ} {target : String}
    {expect : GroupCheck} {edit : GroupEdit} {c : GroupChange}
    (hplain : ∀ g ∈ groups, g.Plain) (h : (groups.map (·.identity)).Nodup)
    (h' : (groups'.map (·.identity)).Nodup) (hcheck : expect.check = true)
    (hchange : edit.change x target index expect groups = .ok (groups', c)) :
    nodeSets x groups' = MadeEdit.apply x (nodeSets x groups)
      (.edited (trimmed expect.name) (trimmed expect.client) edit) := by
  unfold GroupEdit.change at hchange
  split at hchange
  · cases hchange
  · next g hg =>
    obtain ⟨hi, hsame⟩ := groupMut_ok hg
    obtain ⟨hname, hclient⟩ := hsame hcheck
    obtain ⟨hgname, hgclient⟩ := hplain g (List.mem_of_getElem? hi)
    have hid : (trimmed expect.name, trimmed expect.client) = g.identity := by
      rw [← hname, ← hclient, hgname, hgclient]
      rfl
    have hset := nodeSets_of_getElem? (x := x) h hi
    cases edit with
    | rename name =>
      cases hchange
      rw [nodeSets_set h h' hi]
      simp only [MadeEdit.apply]
      rw [hid, hset]
      have hclient' : trimmed expect.client = g.client := congrArg Prod.snd hid
      rw [hclient']
      rfl
    | delete =>
      cases hchange
      simp only [MadeEdit.apply]
      rw [hid]
      change Option.map _ ∘ KeyedList.toMap SummariseGroup.identity (groups.eraseIdx index) = _
      rw [KeyedList.toMap_eraseIdx h hi, Function.comp_update]
      rfl
    | addNodes nodes =>
      simp only at hchange
      split at hchange
      · cases hchange
      · next g' added hadd =>
        cases hchange
        have hadded := addToGroup_ok hadd
        rw [nodeSets_set h h' hi, hadded.identity, Function.update_idem]
        simp only [MadeEdit.apply]
        rw [hid, hset, hadded.nodeSet]
        rfl
    | removeNodes nodes =>
      cases hchange
      rw [nodeSets_set h h' hi]
      have hidentity : (g.removeNodes x nodes).identity = g.identity := rfl
      rw [hidentity, Function.update_idem, nodeSet_removeNodes]
      simp only [MadeEdit.apply]
      rw [hid, hset]
      rfl

/-- The names of the groups stay without blanks. -/
lemma plain_change {groups groups' : List SummariseGroup} {index : ℕ} {target : String}
    {expect : GroupCheck} {edit : GroupEdit} {c : GroupChange} (hplain : ∀ g ∈ groups, g.Plain)
    (hchange : edit.change x target index expect groups = .ok (groups', c)) :
    ∀ g ∈ groups', g.Plain := by
  unfold GroupEdit.change at hchange
  split at hchange
  · cases hchange
  · next g hg =>
    have hgp := hplain g (List.mem_of_getElem? (groupMut_ok hg).1)
    have hset : ∀ g' : SummariseGroup, g'.Plain → ∀ a ∈ groups.set index g', a.Plain := by
      intro g' hg' a ha
      rcases List.mem_or_eq_of_mem_set ha with ha | rfl
      · exact hplain a ha
      · exact hg'
    cases edit with
    | rename name =>
      cases hchange
      exact hset _ ⟨trimmed_trimmed name, hgp.2⟩
    | delete =>
      cases hchange
      exact fun a ha => hplain a (List.mem_of_mem_eraseIdx ha)
    | addNodes nodes =>
      simp only at hchange
      split at hchange
      · cases hchange
      · next g' added hadd =>
        cases hchange
        have hid := (addToGroup_ok hadd).identity
        have hname : g'.name = g.name := congrArg Prod.fst hid
        have hclient : g'.client = g.client := congrArg Prod.snd hid
        refine hset _ ⟨?_, ?_⟩
        · rw [hname, hgp.1]
        · rw [hclient, hgp.2]
    | removeNodes nodes =>
      cases hchange
      exact hset _ hgp

/-- A new group, and the nodes it starts with. -/
lemma created_change {groups groups' : List SummariseGroup} {new : NewGroup} {c : GroupChange}
    (hplain : ∀ g ∈ groups, g.Plain) (h' : (groups'.map (·.identity)).Nodup)
    (hchange : new.change x groups = .ok (groups', c)) :
    nodeSets x groups' = MadeEdit.apply x (nodeSets x groups) (.created new) ∧
      ∀ g ∈ groups', g.Plain := by
  unfold NewGroup.change at hchange
  split at hchange
  · cases hchange
  · next g added hadd =>
    cases hchange
    have hadded := addToGroup_ok hadd
    have hname : g.name = trimmed new.name := congrArg Prod.fst hadded.identity
    have hclient : g.client = trimmed new.client := congrArg Prod.snd hadded.identity
    have hset : g.nodeSet x = refSet x new.nodes := by
      rw [hadded.nodeSet]
      simp [SummariseGroup.nodeSet]
    refine ⟨?_, fun a ha => ?_⟩
    · change Option.map _ ∘ KeyedList.toMap SummariseGroup.identity (groups ++ [g]) = _
      rw [KeyedList.toMap_concat h', Function.comp_update]
      simp only [MadeEdit.apply, SummariseGroup.identity, hname, hclient, Option.map_some, hset]
      rfl
    · rcases List.mem_append.1 ha with ha | ha
      · exact hplain a ha
      · obtain rfl := List.mem_singleton.1 ha
        exact ⟨by rw [hname, trimmed_trimmed], by rw [hclient, trimmed_trimmed]⟩

/-! ## What is recorded -/

/-- How a group is called. -/
lemma label_eq (g : SummariseGroup) :
    g.label = (g.name.elim "an unnamed group" fun n => "'" ++ n ++ "'") ++
      g.client.elim " (from every client)" fun c => " (from " ++ c ++ ")" := by
  obtain ⟨name, client, nodes, names⟩ := g
  cases client with
  | none => cases name <;> rfl
  | some c => cases name <;> simp only [SummariseGroup.label, Option.elim, String.append_assoc]

/-- A quoted name is no unnamed group. -/
lemma quoted_ne (n : String) : "'" ++ n ++ "'" ≠ "an unnamed group" := by
  intro h
  have hlist := congrArg String.toList h
  simp at hlist

/-- Two labels of a group differ if its names do. -/
lemma label_inj {g : SummariseGroup} {name : Option String}
    (h : g.label = SummariseGroup.label { g with name := name }) : g.name = name := by
  rw [label_eq, label_eq, String.append_left_inj] at h
  cases hg : g.name with
  | none =>
    rw [hg] at h
    cases name with
    | none => rfl
    | some n => exact absurd h.symm (quoted_ne n)
  | some n =>
    rw [hg] at h
    cases name with
    | none => exact absurd h (quoted_ne n)
    | some n' =>
      have htext : "'" ++ n ++ "'" = "'" ++ n' ++ "'" := h
      rw [String.append_left_inj, String.append_right_inj] at htext
      rw [htext]

/-- Groups change iff the group in the place does. -/
lemma set_ne_iff {groups : List SummariseGroup} {i : ℕ} {g g' : SummariseGroup}
    (hi : groups[i]? = some g) : groups.set i g' ≠ groups ↔ g' ≠ g := by
  obtain ⟨hlt, rfl⟩ := List.getElem?_eq_some_iff.1 hi
  refine not_congr ⟨fun h => ?_, fun h => ?_⟩
  · have hget := congrArg (·[i]?) h
    simpa [hlt] using hget
  · rw [h, List.set_getElem_self]

/-- A group that loses no node keeps its names. -/
lemma removeNodes_eq_self {g : SummariseGroup} (h : ∀ e ∈ g.names, e.1 ∈ g.nodes)
    {nodes : List String} (hlength : (g.removeNodes x nodes).nodes.length = g.nodes.length) :
    g.removeNodes x nodes = g := by
  have hkept : (g.removeNodes x nodes).nodes = g.nodes :=
    List.filter_eq_self.2 (List.length_filter_eq_length_iff.1 hlength)
  have hnames : (g.removeNodes x nodes).names = g.names := by
    refine List.filter_eq_self.2 fun e he => ?_
    have hmem : e.1 ∈ (g.removeNodes x nodes).nodes := by
      rw [hkept]
      exact h e he
    exact decide_eq_true hmem
  cases g
  simp only [SummariseGroup.removeNodes] at hkept hnames ⊢
  rw [hkept] at hnames ⊢
  rw [hnames]

/-- **An edit is recorded exactly if it changes the groups.** -/
theorem GroupEdit.recorded_iff {groups groups' : List SummariseGroup} {index : ℕ} {target : String}
    {expect : GroupCheck} {edit : GroupEdit} {c : GroupChange}
    (hvalid : ∀ g ∈ groups, g.Valid x)
    (hchange : edit.change x target index expect groups = .ok (groups', c)) :
    (c.summary target).isSome ↔ groups' ≠ groups := by
  unfold GroupEdit.change at hchange
  split at hchange
  · cases hchange
  · next g hg =>
    have hi := (groupMut_ok hg).1
    cases edit with
    | rename name =>
      cases hchange
      rw [set_ne_iff hi]
      by_cases hlabel : g.label = SummariseGroup.label { g with name := trimmed name }
      · simp only [GroupChange.summary, if_pos hlabel, Option.isSome_none, Bool.false_eq_true,
          false_iff, not_not]
        rw [← label_inj hlabel]
      · simp only [GroupChange.summary, if_neg hlabel, Option.isSome_some, true_iff]
        exact fun heq => hlabel (congrArg SummariseGroup.label heq).symm
    | delete =>
      cases hchange
      simp only [GroupChange.summary, Option.isSome_some, true_iff]
      intro heq
      have hlt := (List.getElem?_eq_some_iff.1 hi).1
      have hlength := congrArg List.length heq
      rw [List.length_eraseIdx_of_lt hlt] at hlength
      omega
    | addNodes nodes =>
      simp only at hchange
      split at hchange
      · cases hchange
      · next g' added hadd =>
        cases hchange
        have hadded := addToGroup_ok hadd
        rw [set_ne_iff hi]
        by_cases hcount : 0 < added
        · simp only [GroupChange.summary, if_pos hcount, Option.isSome_some, true_iff]
          intro heq
          have hlength := hadded.length
          rw [heq] at hlength
          omega
        · simp only [GroupChange.summary, if_neg hcount, Option.isSome_none, Bool.false_eq_true,
            false_iff, not_not]
          exact hadded.unchanged (by omega)
    | removeNodes nodes =>
      cases hchange
      rw [set_ne_iff hi]
      have hle : (g.removeNodes x nodes).nodes.length ≤ g.nodes.length :=
        List.length_filter_le ..
      by_cases hcount : 0 < g.nodes.length - (g.removeNodes x nodes).nodes.length
      · simp only [GroupChange.summary, if_pos hcount, Option.isSome_some, true_iff]
        intro heq
        rw [heq] at hcount
        omega
      · simp only [GroupChange.summary, if_neg hcount, Option.isSome_none, Bool.false_eq_true,
          false_iff, not_not]
        exact removeNodes_eq_self (hvalid g (List.mem_of_getElem? hi)).named (by omega)

/-- Two groups, of which the second has a node. -/
def twoGroups : List SummariseGroup :=
  [{ name := some "hmi" }, { name := some "line", nodes := ["ns=3;i=2"] }]

/-- A node is taken out of one of two groups, and that is recorded. -/
theorem GroupEdit.recorded_iff_twoGroups : ∃ groups' c,
    GroupEdit.change Manager.plainConfig "plc" 1 (.expecting (some "line") none)
      (.removeNodes ["ns=3;i=2"]) twoGroups = .ok (groups', c) ∧
    ((c.summary "plc").isSome ↔ groups' ≠ twoGroups) := by
  have hvalid : TargetConfig.validateSummarise Manager.plainConfig
      { Manager.plc with summarise := twoGroups } = .ok () := by decide +kernel
  have hgroups := (validateSummarise_eq_ok_iff.1 hvalid).2.2.1
  obtain ⟨⟨groups', c⟩, hchange⟩ : ∃ r, GroupEdit.change Manager.plainConfig "plc" 1
      (.expecting (some "line") none) (.removeNodes ["ns=3;i=2"]) twoGroups = .ok r := ⟨_, rfl⟩
  exact ⟨groups', c, hchange, GroupEdit.recorded_iff hgroups hchange⟩

/-! ## The requests in every interleaving -/

/-- How far a request is. -/
inductive GroupStage
  /-- A call of a tool, with `group_name` and `group_client`. -/
  | named (name client : Option String)
  /-- A request with a position. -/
  | located (index : ℕ) (expect : GroupCheck)
  | done

/-- A call that edits a group, and how far it is. -/
structure GroupTask where
  target : String
  edit : GroupEdit
  stage : GroupStage

/-- The manager with the calls that edit groups. -/
structure GroupEdits where
  manager : Manager
  tasks : List GroupTask := []
  /-- The changes that were answered as successful, with the names of their targets. -/
  made : List (String × MadeEdit) := []

namespace GroupEdits

/-- The calls that edit groups and their steps. -/
inductive Op
  | call (target : String) (name client : Option String) (edit : GroupEdit)
  /-- `find_group` -/
  | find (i : ℕ)
  | request (target : String) (index : ℕ) (expect : GroupCheck) (edit : GroupEdit)
  | apply (i : ℕ) (write : FileWrite)
  | create (target : String) (new : NewGroup) (write : FileWrite)
  /-- Any other change of the targets. -/
  | manage (op : Manager.Op)

/-- A call with a new stage. -/
def put (s : GroupEdits) (i : ℕ) (task : GroupTask) (stage : GroupStage) : GroupEdits :=
  { s with tasks := s.tasks.set i { task with stage := stage } }

/-- A change of the groups was answered. -/
def answered (s : GroupEdits) (result : Except ManagerError Unit × Manager) (target : String)
    (made : MadeEdit) : GroupEdits :=
  { s with
    manager := result.2
    made := match result.1 with
      | .ok () => s.made ++ [(target, made)]
      | .error _ => s.made }

variable (x : ConfigCrates) (webListen : SocketAddr)

/-- One step of the calls. -/
def step (s : GroupEdits) : Op → Option GroupEdits
  | .call target name client edit =>
    some { s with tasks := s.tasks ++ [⟨target, edit, .named (trimmed name) (trimmed client)⟩] }
  | .find i =>
    match s.tasks[i]? with
    | some ⟨target, edit, .named name client⟩ =>
      let index := (s.manager.targets.find? (·.name = target)).bind fun t =>
        t.summarise.findIdx? fun g => g.name = name ∧ g.client = client
      some (s.put i ⟨target, edit, .done⟩
        (match index with
        | some index => .located index (.expecting name client)
        | none => .done))
    | _ => none
  | .request target index expect edit =>
    some { s with tasks := s.tasks ++ [⟨target, edit, .located index expect⟩] }
  | .apply i write =>
    match s.tasks[i]? with
    | some ⟨target, edit, .located index expect⟩ =>
      let result := s.manager.updateSummarise x webListen target
        (fun groups => (edit.change x target index expect groups).map Prod.fst) write
      some ((s.answered result target
        (.edited (trimmed expect.name) (trimmed expect.client) edit)).put i
          ⟨target, edit, .done⟩ .done)
    | _ => none
  | .create target new write =>
    let result := s.manager.updateSummarise x webListen target
      (fun groups => (new.change x groups).map Prod.fst) write
    some (s.answered result target (.created new))
  | .manage op => some { s with manager := (s.manager.perform x webListen op).2 }

/-- The groups of a target. -/
def groupsOf (m : Manager) (name : String) : Option (List SummariseGroup) :=
  (m.targets.find? (·.name = name)).map (·.summarise)

/-- The changes that were made for a target. -/
def madeFor (s : GroupEdits) (name : String) : List MadeEdit :=
  (s.made.filter (·.1 = name)).map Prod.snd

/-- Every request says which group it means, and no other change touches the groups of the
target. -/
def Checked (name : String) (s : GroupEdits) : Op → Prop
  | .request _ _ expect _ => expect.check = true
  | .manage op => groupsOf (s.manager.perform x webListen op).2 name = groupsOf s.manager name
  | _ => True

variable {x webListen} {s t : GroupEdits} {name : String} {op : Op}

/-! ### Targets in the manager -/

/-- A replaced target is found under its name. -/
lemma find?_setTarget_self {target : TargetConfig} {targets : List TargetConfig}
    (h : (targets.find? (·.name = name)).isSome) (hname : target.name = name) :
    (Manager.setTarget name target targets).find? (·.name = name) = some target := by
  induction targets with
  | nil => cases h
  | cons u targets ih =>
    unfold Manager.setTarget
    split_ifs with hu
    · simp [hname]
    · rw [List.find?_cons_of_neg (by simpa using hu)] at h ⊢
      exact ih h

/-- Other targets are found as before. -/
lemma find?_setTarget_of_ne {other : String} (hne : other ≠ name) {target : TargetConfig}
    {targets : List TargetConfig} (hname : target.name = name) :
    (Manager.setTarget name target targets).find? (·.name = other) =
      targets.find? (·.name = other) := by
  induction targets with
  | nil => rfl
  | cons u targets ih =>
    unfold Manager.setTarget
    split_ifs with hu
    · rw [List.find?_cons_of_neg (by simpa [hname] using Ne.symm hne),
        List.find?_cons_of_neg (by simpa [hu] using Ne.symm hne)]
    · by_cases hother : u.name = other
      · simp [hother]
      · rw [List.find?_cons_of_neg (by simpa using hother),
          List.find?_cons_of_neg (by simpa using hother), ih]

/-- The new targets of a change of groups are valid. -/
lemma planSummarise_ok {m : Manager} {target : String}
    {change : List SummariseGroup → Except String (List SummariseGroup)}
    {groups : List SummariseGroup} {new : List TargetConfig}
    (h : m.planSummarise x webListen target change = .ok (groups, new)) :
    ∃ t, m.targets.find? (·.name = target) = some t ∧ change t.summarise = .ok groups ∧
      new = Manager.setTarget target { t with summarise := groups } m.targets ∧
      validateTargets x webListen new = .ok () := by
  unfold Manager.planSummarise at h
  split at h
  · cases h
  · next t ht =>
    split at h
    · cases h
    · next groups' hchange =>
      unfold Manager.valid at h
      split at h
      · cases h
      · next hvalid =>
        cases h
        exact ⟨t, ht, hchange, rfl, hvalid⟩

variable (x webListen) in
/-- The groups of a target behind a change of groups: those of another target stay, and those of
this one are changed, and valid, if the change is answered as successful. -/
lemma groupsOf_updateSummarise (m : Manager) (target : String)
    (change : List SummariseGroup → Except String (List SummariseGroup)) (write : FileWrite) :
    ((m.updateSummarise x webListen target change write).1 = .ok () ∧
      ∃ groups groups', groupsOf m target = some groups ∧ change groups = .ok groups' ∧
        (groups'.map (·.identity)).Nodup ∧
        ∀ name, groupsOf (m.updateSummarise x webListen target change write).2 name =
          if name = target then some groups' else groupsOf m name) ∨
    ((∃ e, (m.updateSummarise x webListen target change write).1 = .error e) ∧
      ∀ name, groupsOf (m.updateSummarise x webListen target change write).2 name =
        groupsOf m name) := by
  cases hplan : m.planSummarise x webListen target change with
  | error e =>
    have hresult : m.updateSummarise x webListen target change write = (.error e, m) := by
      simp only [Manager.updateSummarise, hplan]
    exact .inr ⟨⟨e, by rw [hresult]⟩, fun name => by rw [hresult]⟩
  | ok r =>
    obtain ⟨groups', new⟩ := r
    obtain ⟨t, ht, hchange, hnew, hvalid⟩ := planSummarise_ok hplan
    have hname : { t with summarise := groups' }.name = target := by
      simpa using List.find?_some ht
    have hself : new.find? (·.name = target) = some { t with summarise := groups' } :=
      hnew ▸ find?_setTarget_self (by rw [ht]; rfl) hname
    by_cases hwrite : write = .ok
    · have hok : (m.updateSummarise x webListen target change write).1 = .ok () := by
        simp only [Manager.updateSummarise, hplan, if_pos hwrite]
      have htargets : (m.updateSummarise x webListen target change write).2.targets = new := by
        simp only [Manager.updateSummarise, hplan, if_pos hwrite]
      refine .inl ⟨hok, t.summarise, groups', by rw [groupsOf, ht, Option.map_some], hchange, ?_,
        fun name => ?_⟩
      · have hsummarise :=
          validateSummarise_of_validateFrom hvalid _ (List.mem_of_find?_eq_some hself)
        exact (validateSummarise_eq_ok_iff.1 hsummarise).2.2.2.1
      · rw [groupsOf, htargets]
        split_ifs with hn
        · rw [hn, hself, Option.map_some]
        · rw [hnew, find?_setTarget_of_ne hn hname, groupsOf]
    · refine .inr ⟨⟨.write, ?_⟩, fun name => ?_⟩
      · simp only [Manager.updateSummarise, hplan, if_neg hwrite]
      · simp only [Manager.updateSummarise, hplan, if_neg hwrite, groupsOf, Manager.written_targets]

/-! ### Runs -/

/-- What holds of the groups of a target behind a run from `sets`. -/
def Refines (x : ConfigCrates) (name : String) (sets : NodeSets) (s : GroupEdits) : Prop :=
  ∃ groups, groupsOf s.manager name = some groups ∧ (∀ g ∈ groups, g.Plain) ∧
    (groups.map (·.identity)).Nodup ∧
    nodeSets x groups = (s.madeFor name).foldl (MadeEdit.apply x) sets ∧
    ∀ task ∈ s.tasks, ∀ index expect, task.stage = .located index expect → expect.check = true

variable {sets : NodeSets}

/-- A step that changes neither the groups nor the edits keeps the refinement. -/
lemma Refines.of_made (h : s.Refines x name sets)
    (hgroups : groupsOf t.manager name = groupsOf s.manager name)
    (hmade : t.madeFor name = s.madeFor name)
    (htasks : ∀ task ∈ t.tasks, ∀ index expect, task.stage = .located index expect →
      expect.check = true) : t.Refines x name sets := by
  obtain ⟨groups, hg, hplain, hnodup, hsets, -⟩ := h
  exact ⟨groups, hgroups.trans hg, hplain, hnodup, hmade ▸ hsets, htasks⟩

/-- A change of groups that was answered. -/
lemma Refines.answered (h : s.Refines x name sets) {target : String} {made : MadeEdit}
    {change : List SummariseGroup → Except String (List SummariseGroup)} {write : FileWrite}
    (hmade : ∀ groups groups', (∀ g ∈ groups, g.Plain) → (groups.map (·.identity)).Nodup →
      (groups'.map (·.identity)).Nodup → change groups = .ok groups' →
        nodeSets x groups' = made.apply x (nodeSets x groups) ∧ ∀ g ∈ groups', g.Plain) :
    (s.answered (s.manager.updateSummarise x webListen target change write) target made).Refines x
      name sets := by
  rcases groupsOf_updateSummarise x webListen s.manager target change write with
    ⟨hok, groups, groups', hgroups, hchange, hnodup', hof⟩ | ⟨⟨e, he⟩, hof⟩
  · by_cases hn : target = name
    · subst hn
      obtain ⟨groups₀, hg, hplain, hnodup, hsets, htasks⟩ := h
      obtain rfl : groups₀ = groups := Option.some.inj (hg.symm.trans hgroups)
      obtain ⟨happly, hplain'⟩ := hmade _ _ hplain hnodup hnodup' hchange
      refine ⟨groups', ?_, hplain', hnodup', ?_, htasks⟩
      · simpa [GroupEdits.answered] using hof target
      · rw [happly, hsets]
        simp [GroupEdits.answered, madeFor, hok, List.filter_append]
    · refine h.of_made ?_ ?_ h.choose_spec.2.2.2.2
      · simpa [GroupEdits.answered, Ne.symm hn] using hof name
      · simp [GroupEdits.answered, madeFor, hok, List.filter_append, hn]
  · refine h.of_made (hof name) ?_ h.choose_spec.2.2.2.2
    simp [GroupEdits.answered, madeFor, he]

/-- **The step lemma**: a change that is answered as successful is an edit of the group that it
names; everything else leaves the groups alone. -/
theorem refines_step (h : s.Refines x name sets) (hop : Checked x webListen name s op)
    (hs : s.step x webListen op = some t) : t.Refines x name sets := by
  have htasks := h.choose_spec.2.2.2.2
  have hset : ∀ (i : ℕ) (task : GroupTask),
      (∀ index expect, task.stage = .located index expect → expect.check = true) →
      ∀ u ∈ s.tasks.set i task, ∀ index expect, u.stage = .located index expect →
        expect.check = true := by
    intro i task htask u hu
    rcases List.mem_or_eq_of_mem_set hu with hu | rfl
    · exact htasks u hu
    · exact htask
  have hnew : ∀ task : GroupTask,
      (∀ index expect, task.stage = .located index expect → expect.check = true) →
      ∀ u ∈ s.tasks ++ [task], ∀ index expect, u.stage = .located index expect →
        expect.check = true := by
    intro task htask u hu
    rcases List.mem_append.1 hu with hu | hu
    · exact htasks u hu
    · exact List.mem_singleton.1 hu ▸ htask
  cases op with
  | call target groupName client edit =>
    obtain rfl := Option.some.inj hs
    exact h.of_made rfl rfl (hnew _ fun _ _ hstage => by cases hstage)
  | find i =>
    simp only [step] at hs
    split at hs
    · next target edit groupName client htask =>
      obtain rfl := Option.some.inj hs
      refine h.of_made rfl rfl (hset i _ fun index expect hstage => ?_)
      simp only at hstage
      split at hstage
      · cases hstage
        rfl
      · cases hstage
    · cases hs
  | request target index expect edit =>
    obtain rfl := Option.some.inj hs
    refine h.of_made rfl rfl (hnew _ fun _ _ hstage => ?_)
    cases hstage
    exact hop
  | apply i write =>
    simp only [step] at hs
    split at hs
    · next target edit index expect htask =>
      obtain rfl := Option.some.inj hs
      have hcheck := htasks _ (List.mem_of_getElem? htask) index expect rfl
      refine Refines.of_made (h.answered fun groups groups' hplain hnodup hnodup' hchange => ?_)
        rfl rfl (hset i _ fun _ _ hstage => by cases hstage)
      obtain ⟨c, hc⟩ := exists_of_map_fst hchange
      exact ⟨nodeSets_change hplain hnodup hnodup' hcheck hc, plain_change hplain hc⟩
    · cases hs
  | create target new write =>
    obtain rfl := Option.some.inj hs
    refine h.answered fun groups groups' hplain _ hnodup' hchange => ?_
    obtain ⟨c, hc⟩ := exists_of_map_fst hchange
    exact created_change hplain hnodup' hc
  | manage op =>
    obtain rfl := Option.some.inj hs
    exact h.of_made hop rfl htasks

/-- **The requests edit the groups that they name**: in every interleaving of requests that say
which group they mean, of the tools that look positions up, of creations, and of changes of other
targets, the nodes of the groups are those that the successful changes, in their order, make of the
ones at the start. -/
theorem refines_nodeSets {m : Manager} {groups : List SummariseGroup} {ops : List Op}
    (hgroups : groupsOf m name = some groups) (hplain : ∀ g ∈ groups, g.Plain)
    (hnodup : (groups.map (·.identity)).Nodup)
    (hops : Machine.Meets (step x webListen) (Checked x webListen name) { manager := m } ops)
    (hr : Machine.run (step x webListen) { manager := m } ops = some s) :
    ∃ groups', groupsOf s.manager name = some groups' ∧
      nodeSets x groups' = (s.madeFor name).foldl (MadeEdit.apply x) (nodeSets x groups) := by
  have hstart : Refines x name (nodeSets x groups) { manager := m } :=
    ⟨groups, hgroups, hplain, hnodup, rfl, fun task htask => by cases htask⟩
  obtain ⟨groups', hgroups', -, -, hsets, -⟩ :=
    Machine.run_invariant_of_meets (fun _ _ _ h hop hs => refines_step h hop hs) hstart hops hr
  exact ⟨groups', hgroups', hsets⟩

/-! ### A run -/

/-- The manager of one target with these groups. -/
def twoGroupsManager : Manager :=
  Manager.load Manager.plainConfig [{ Manager.plc with summarise := twoGroups }] fun _ => true

/-- A tool removes the node while the other group is deleted in front of it. -/
def removedBehind : List Op :=
  [.call "plc" (some "line") none (.removeNodes ["ns=3;i=2"]), .find 0,
    .request "plc" 0 (.expecting (some "hmi") none) .delete, .apply 0 .ok, .apply 1 .ok]

/-- A node is taken out of one group, and the other group is deleted. -/
theorem refines_nodeSets_removedBehind : ∃ s groups',
    Machine.run (step Manager.plainConfig Manager.webAddr) { manager := twoGroupsManager }
      removedBehind = some s ∧
    groupsOf s.manager "plc" = some groups' ∧
      nodeSets Manager.plainConfig groups' = (s.madeFor "plc").foldl
        (MadeEdit.apply Manager.plainConfig) (nodeSets Manager.plainConfig twoGroups) := by
  obtain ⟨s, hs⟩ := Option.isSome_iff_exists.1
    (show (Machine.run (step Manager.plainConfig Manager.webAddr) { manager := twoGroupsManager }
      removedBehind).isSome = true from by decide +kernel)
  have hplain : ∀ g ∈ twoGroups, g.Plain := by
    refine List.forall_mem_cons.2 ⟨⟨?_, rfl⟩, List.forall_mem_cons.2 ⟨⟨?_, rfl⟩, by simp⟩⟩
    · decide +kernel
    · decide +kernel
  have hops : ∀ op ∈ removedBehind, ∀ s,
      Checked Manager.plainConfig Manager.webAddr "plc" s op := by
    simp [removedBehind, Checked, GroupCheck.expecting]
  obtain ⟨groups', hgroups', hsets⟩ :=
    refines_nodeSets (m := twoGroupsManager) rfl hplain (by decide)
      (Machine.meets_of_forall_mem _ hops _) hs
  exact ⟨s, groups', hs, hgroups', hsets⟩

end GroupEdits

end AuditGateway
