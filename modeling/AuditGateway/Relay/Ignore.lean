import AuditGateway.Relay.Value
import Mathlib.Data.List.Sort

set_option relaxedAutoImplicit false
set_option autoImplicit false

/-!
# Summarised nodes

Value writes to summarised nodes are not recorded one by one but counted per node.

## Main definitions

* `Lookup` — the nodes a target summarises, for every client or for one of them.
* `Lookup.matches` — whether a value write is summarised.
* `IgnoredWrites`, `IgnoredWrites.add`, `IgnoredWrites.take` — the writes counted since the last
  summary.
-/

namespace AuditGateway

/-- Most clients listed in one summary. -/
def maxClients : ℕ := 20

/-- Most nodes summarised at once. -/
def maxNodes : ℕ := 10000

/-- The IP address of `ip:port` or `[v6]:port`. -/
def clientIp (remoteAddr : String) : String :=
  let chars := remoteAddr.toList
  let host :=
    match chars.reverse.dropWhile (· ≠ ':') with
    | [] => chars
    | _ :: host => host.reverse
  String.ofList ((host.dropWhile (· = '[')).reverse.dropWhile (· = ']')).reverse

/-- The nodes a target summarises. -/
structure Lookup where
  /-- Nodes summarised whoever writes them. -/
  all : List NodeId
  /-- Nodes summarised for one client, by its address or application URI. -/
  byClient : List (String × List NodeId)

namespace Lookup

/-- No node is looked up. -/
def isEmpty (l : Lookup) : Bool := l.all.isEmpty && l.byClient.isEmpty

/-- Whether a node is looked up for a client. -/
def forClient (l : Lookup) (node : NodeId) (key : String) : Bool :=
  (l.byClient.lookup key).any fun nodes => node ∈ nodes

/-- Whether a value write to `node` by `client` is summarised. -/
def «matches» (l : Lookup) (node : NodeId) (client : ClientContext) : Bool :=
  node ∈ l.all || l.forClient node (clientIp client.remoteAddr) ||
    client.applicationUri.any (l.forClient node)

end Lookup

/-- What is counted of one node. -/
structure Summary where
  displayName : Option String
  count : ℕ
  failed : ℕ
  first : DateTime
  last : DateTime
  lastValue : AuditValue
  lastStatus : String
  clients : List String

/-- `10.0.0.5 HMI-3 (operator)`: address, application and user. -/
def clientLabel (client : ClientContext) : String :=
  let application := client.applicationName.or client.applicationUri
  clip (clientIp client.remoteAddr ++ (application.map (" " ++ ·)).getD "" ++
    (client.user.map fun user => " (" ++ user.label ++ ")").getD "") maxName

/-- Ignored writes counted since the last summary, by node. -/
abbrev IgnoredWrites := List (String × Summary)

/-- Counts one ignored write, unless too many nodes are pending already. -/
def IgnoredWrites.add (nodes : IgnoredWrites) (now : DateTime) (nodeId : String)
    (displayName : Option String) (value : AuditValue) (status : String)
    (client : ClientContext) : Option IgnoredWrites :=
  let found := nodes.lookup nodeId
  if found.isNone && nodes.length ≥ maxNodes then none
  else
    let s := found.getD ⟨none, 0, 0, now, now, value, "", []⟩
    let label := clientLabel client
    let s : Summary :=
      { s with
        count := s.count + 1
        failed := if status.startsWith "Good" then s.failed else s.failed + 1
        last := now
        lastValue := value
        lastStatus := status
        displayName := displayName.or s.displayName
        clients :=
          if s.clients.length < maxClients then s.clients.insert label else s.clients }
    some ((nodeId, s) :: nodes.filter fun entry => entry.1 ≠ nodeId)

/-- A write that is counted raises the count of its node by one. -/
theorem IgnoredWrites.add_eq_some {nodes nodes' : IgnoredWrites} {now : DateTime}
    {nodeId status : String} {displayName : Option String} {value : AuditValue}
    {client : ClientContext}
    (h : nodes.add now nodeId displayName value status client = some nodes') :
    ∃ s : Summary, nodes' = (nodeId, s) :: nodes.filter (fun entry => entry.1 ≠ nodeId) ∧
      s.count = ((nodes.lookup nodeId).map (·.count)).getD 0 + 1 := by
  unfold add at h
  dsimp only at h
  split at h
  · cases h
  · refine ⟨_, (Option.some.inj h).symm, ?_⟩
    cases nodes.lookup nodeId with
    | none => rfl
    | some s => rfl

/-- The record of the writes counted of a node. -/
def summaryEvent (p : String × Summary) : AuditEvent :=
  .ignoredWrites p.1 p.2.displayName p.2.count p.2.failed p.2.first p.2.last p.2.lastValue
    p.2.lastStatus (p.2.clients.insertionSort (· ≤ ·))

/-- The summaries since the last call, one event per node, in the order of the nodes. The table is
empty then. -/
def IgnoredWrites.take (nodes : IgnoredWrites) : List AuditEvent :=
  (nodes.insertionSort fun p q => p.1 ≤ q.1).map summaryEvent

end AuditGateway
