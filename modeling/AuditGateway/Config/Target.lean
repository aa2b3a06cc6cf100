import AuditGateway.Relay.Ignore
import Mathlib.Algebra.GroupWithZero.Nat

set_option relaxedAutoImplicit false
set_option autoImplicit false

/-!
# The targets of the configuration

A target and its summarise groups, what `validate` demands of them, and the lookup that the groups
give a running target. The rules of the old form are turned into groups before a target gets here.

## Main definitions

* `SummariseGroup`, `TargetConfig` — a target as it is configured.
* `TargetConfig.validateSummarise`, `validateTargets` — what is refused, and why.
* `Lookup.ofGroups` — the nodes that groups summarise.

## Main results

* `nodup_of_validateTargets` — valid targets have different names.
-/

namespace AuditGateway

/-! ## Texts -/

/-- Unicode white space. -/
def isWhitespace (c : Char) : Bool :=
  let n := c.toNat
  (0x09 ≤ n ∧ n ≤ 0x0d) ∨ n = 0x20 ∨ n = 0x85 ∨ n = 0xa0 ∨ n = 0x1680 ∨ (0x2000 ≤ n ∧ n ≤ 0x200a) ∨
    n = 0x2028 ∨ n = 0x2029 ∨ n = 0x202f ∨ n = 0x205f ∨ n = 0x3000

/-- The text without the white space around it. -/
def trim (s : String) : String :=
  String.ofList ((s.toList.dropWhile isWhitespace).reverse.dropWhile isWhitespace).reverse

/-- The functions of other crates that read and write texts of the configuration. -/
structure ConfigCrates where
  parseNodeId : String → Option NodeId
  escapeDebug : String → String

/-! ## A target -/

/-- Most summarised nodes per target, over all its groups. -/
def maxSummarisedNodes : ℕ := 1000

/-- Most summarise groups per target. -/
def maxSummariseGroups : ℕ := 100

/-- Nodes whose value writes are not recorded one by one. -/
structure SummariseGroup where
  name : Option String := none
  /-- Only writes from this client: its IP address or application URI. -/
  client : Option String := none
  nodes : List String := []
  /-- Display names of the nodes, where known. -/
  names : List (String × String) := []
  deriving DecidableEq

/-- The name and the client, for records and messages. -/
def SummariseGroup.label (g : SummariseGroup) : String :=
  let name :=
    match g.name with
    | some n => "'" ++ n ++ "'"
    | none => "an unnamed group"
  match g.client with
  | some c => name ++ " (from " ++ c ++ ")"
  | none => name ++ " (from every client)"

/-- An address to listen on, by its text. -/
structure SocketAddr where
  text : String
  deriving DecidableEq

/-- The least security of the endpoints that are used. -/
inductive MinSecurity
  | none
  | sign
  | signAndEncrypt
  deriving DecidableEq

/-- A server whose writes are recorded, and the address it is reached at. -/
structure TargetConfig where
  name : String
  listen : SocketAddr
  endpointUrl : String
  discoveryIntervalSecs : ℕ := 60
  minSecurity : MinSecurity := .none
  maxConnections : ℕ := 50
  maxConnectionsPerAddress : ℕ := 10
  summarise : List SummariseGroup := []
  deriving DecidableEq

/-! ## What is refused -/

/-- Why a list of targets is refused. -/
inductive TargetError
  | name (name : String)
  | duplicateName (name : String)
  | sharedListen (name : String) (listen : SocketAddr)
  | webListen (name : String) (listen : SocketAddr)
  | endpointUrl (name url : String)
  | discoveryInterval (name : String)
  | connectionLimits (name : String)
  | tooManyGroups (name : String)
  | tooManyNodes (name : String) (total : ℕ)
  | twoGroups (name label : String)
  | groupName (name : String)
  | client (name : String)
  | notANode (name nodeId : String)
  | nodeTwice (name nodeId label : String)
  | strayName (name nodeId : String)
  | overlap (name nodeId a b : String)
  deriving DecidableEq

/-- The text of an error. -/
def TargetError.message (x : ConfigCrates) : TargetError → String
  | .name target =>
    "target name '" ++ x.escapeDebug target ++ "' must be 1-64 letters, digits, '.', '_' or '-'"
  | .duplicateName target => "duplicate target name '" ++ target ++ "'"
  | .sharedListen target listen =>
    "targets '" ++ target ++ "' share listen address " ++ listen.text
  | .webListen target listen => "target '" ++ target ++ "' uses the web UI address " ++ listen.text
  | .endpointUrl target url =>
    "target '" ++ target ++ "': endpoint_url must start with opc.tcp:// (got '" ++ url ++ "')"
  | .discoveryInterval target => "target '" ++ target ++ "': discovery_interval_secs must be > 0"
  | .connectionLimits target => "target '" ++ target ++ "': connection limits must be > 0"
  | .tooManyGroups target =>
    "target '" ++ target ++ "': at most " ++ toString maxSummariseGroups ++ " summarise groups"
  | .tooManyNodes target total =>
    "target '" ++ target ++ "': at most " ++ toString maxSummarisedNodes ++
      " summarised nodes (got " ++ toString total ++ ")"
  | .twoGroups target label =>
    "target '" ++ target ++ "': two summarise groups " ++ label ++ "; give one another name"
  | .groupName target =>
    "target '" ++ target ++ "': a summarise group name must be 1 to 100 characters"
  | .client target =>
    "target '" ++ target ++ "': summarise client must be an address or application URI"
  | .notANode target nodeId =>
    "target '" ++ target ++ "': summarise: '" ++ x.escapeDebug nodeId ++ "' is not a node id"
  | .nodeTwice target nodeId label =>
    "target '" ++ target ++ "': " ++ nodeId ++ " is twice in summarise group " ++ label
  | .strayName target nodeId =>
    "target '" ++ target ++ "': summarise names " ++ nodeId ++ ", which is not in the group"
  | .overlap target nodeId a b =>
    "target '" ++ target ++ "': " ++ nodeId ++ " is already summarised in group " ++ a ++
      ", which also applies to the writes of group " ++ b

/-- Parses a node id as shown in the audit trail. -/
def parseNode (x : ConfigCrates) (nodeId : String) : Option NodeId := x.parseNodeId (trim nodeId)

/-- Whether two groups apply to the same writes: the same client, or one of them for every
client. -/
def groupsOverlap (a b : SummariseGroup) : Bool :=
  a.client.isNone || b.client.isNone || a.client = b.client

/-- A node in two groups that apply to the same writes: the node and the two groups' labels. -/
def summariseOverlap (x : ConfigCrates) : List SummariseGroup → Option (String × String × String)
  | [] => none
  | a :: groups =>
    let inA := a.nodes.filterMap (parseNode x)
    ((groups.filter (groupsOverlap a)).findSome? fun b =>
      (b.nodes.find? fun n => (parseNode x n).any (· ∈ inA)).map fun n =>
        (n, a.label, b.label)).or (summariseOverlap x groups)

namespace TargetConfig

/-- Every node parses and is there once. -/
def validateNodes (x : ConfigCrates) (name label : String) (seen : List NodeId) :
    List String → Except TargetError Unit
  | [] => .ok ()
  | nodeId :: nodes =>
    match parseNode x nodeId with
    | none => .error (.notANode name nodeId)
    | some node =>
      if node ∈ seen then .error (.nodeTwice name nodeId label)
      else validateNodes x name label (node :: seen) nodes

/-- The groups one by one. -/
def validateGroups (x : ConfigCrates) (name : String)
    (seen : List (Option String × Option String)) : List SummariseGroup → Except TargetError Unit
  | [] => .ok ()
  | g :: groups =>
    if (g.name, g.client) ∈ seen then .error (.twoGroups name g.label)
    else if g.name.any fun n => trim n = "" || 100 < n.length then .error (.groupName name)
    else if g.client.any fun c => trim c = "" || 256 < c.utf8ByteSize then .error (.client name)
    else
      match validateNodes x name g.label [] g.nodes with
      | .error e => .error e
      | .ok () =>
        match (g.names.map (·.1)).find? (· ∉ g.nodes) with
        | some extra => .error (.strayName name extra)
        | none => validateGroups x name ((g.name, g.client) :: seen) groups

/-- Summarise groups: valid node ids and clients, no node twice in a group, and at most
`maxSummarisedNodes` nodes in all. -/
def validateSummarise (x : ConfigCrates) (t : TargetConfig) : Except TargetError Unit :=
  let total := (t.summarise.map fun g => g.nodes.length).sum
  if maxSummariseGroups < t.summarise.length then .error (.tooManyGroups t.name)
  else if maxSummarisedNodes < total then .error (.tooManyNodes t.name total)
  else
    match validateGroups x t.name [] t.summarise with
    | .error e => .error e
    | .ok () =>
      match summariseOverlap x t.summarise with
      | some (nodeId, a, b) => .error (.overlap t.name nodeId a b)
      | none => .ok ()

/-- The name ends up in logs, audit records and URLs. -/
def validName (name : String) : Bool :=
  name ≠ "" && name.utf8ByteSize ≤ 64 &&
    name.toList.all fun c => c.isAlphanum || c = '.' || c = '_' || c = '-'

/-- One target behind those with these names and addresses. -/
def validate (x : ConfigCrates) (webListen : SocketAddr) (names : List String)
    (listens : List SocketAddr) (t : TargetConfig) : Except TargetError Unit :=
  if ¬validName t.name then .error (.name t.name)
  else if t.name ∈ names then .error (.duplicateName t.name)
  else if t.listen ∈ listens then .error (.sharedListen t.name t.listen)
  else if t.listen = webListen then .error (.webListen t.name t.listen)
  else if ¬"opc.tcp://".toList.isPrefixOf t.endpointUrl.toList then
    .error (.endpointUrl t.name t.endpointUrl)
  else if t.discoveryIntervalSecs = 0 then .error (.discoveryInterval t.name)
  else if t.maxConnections = 0 ∨ t.maxConnectionsPerAddress = 0 then
    .error (.connectionLimits t.name)
  else t.validateSummarise x

end TargetConfig

/-- The targets behind those with these names and addresses. -/
def validateFrom (x : ConfigCrates) (webListen : SocketAddr) (names : List String)
    (listens : List SocketAddr) : List TargetConfig → Except TargetError Unit
  | [] => .ok ()
  | t :: targets =>
    match t.validate x webListen names listens with
    | .error e => .error e
    | .ok () => validateFrom x webListen (t.name :: names) (t.listen :: listens) targets

/-- What `validate` demands of the targets. -/
def validateTargets (x : ConfigCrates) (webListen : SocketAddr) (targets : List TargetConfig) :
    Except TargetError Unit :=
  validateFrom x webListen [] [] targets

/-! ## The lookup of a running target -/

namespace Lookup

/-- The nodes of a group are summarised for its client, or for everyone. -/
def addGroup (x : ConfigCrates) (l : Lookup) (g : SummariseGroup) : Lookup :=
  let nodes := g.nodes.filterMap (parseNode x)
  match g.client with
  | none => { l with all := l.all ++ nodes }
  | some c =>
    let key := trim c
    match l.byClient.lookup key with
    | none => { l with byClient := l.byClient ++ [(key, nodes)] }
    | some _ =>
      { l with
        byClient := l.byClient.map fun entry =>
          if entry.1 = key then (entry.1, entry.2 ++ nodes) else entry }

/-- Node ids that do not parse are skipped. -/
def ofGroups (x : ConfigCrates) (groups : List SummariseGroup) : Lookup :=
  let l := groups.foldl (addGroup x) ⟨[], []⟩
  { l with byClient := l.byClient.filter fun entry => !entry.2.isEmpty }

end Lookup

/-! ## What is valid -/

variable {x : ConfigCrates} {webListen : SocketAddr}

/-- A valid target has a name of its own. -/
theorem notMem_of_validate {names : List String} {listens : List SocketAddr} {t : TargetConfig}
    (h : t.validate x webListen names listens = .ok ()) : t.name ∉ names := by
  intro hmem
  unfold TargetConfig.validate at h
  split_ifs at h

/-- Targets that are valid behind others have names of their own. -/
theorem nodup_of_validateFrom {targets : List TargetConfig} {names : List String}
    {listens : List SocketAddr} (h : validateFrom x webListen names listens targets = .ok ()) :
    (targets.map (·.name)).Nodup ∧ ∀ t ∈ targets, t.name ∉ names := by
  induction targets generalizing names listens with
  | nil => simp
  | cons t targets ih =>
    unfold validateFrom at h
    split at h
    · cases h
    · next hvalid =>
      obtain ⟨hnodup, hnew⟩ := ih h
      refine ⟨List.nodup_cons.2 ⟨fun hmem => ?_, hnodup⟩, ?_⟩
      · obtain ⟨u, hu, heq⟩ := List.mem_map.1 hmem
        refine hnew u hu ?_
        rw [heq]
        exact List.mem_cons_self ..
      · intro u hu
        rcases List.mem_cons.1 hu with rfl | hu
        · exact notMem_of_validate hvalid
        · exact fun hmem => hnew u hu (List.mem_cons_of_mem _ hmem)

/-- **Valid targets have different names.** -/
theorem nodup_of_validateTargets {targets : List TargetConfig}
    (h : validateTargets x webListen targets = .ok ()) : (targets.map (·.name)).Nodup :=
  (nodup_of_validateFrom h).1

end AuditGateway
