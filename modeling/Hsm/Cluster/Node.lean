import Hsm.Lib.DictSum
import Hsm.Lib.Run

/-! Votes of cluster nodes, and what a node knows about the health of its peers. -/

namespace Hsm.Cluster

abbrev NodeId := String

structure PeerConfig where
  nodeId : NodeId
  voting : Bool
  deriving DecidableEq, Repr

structure RaftConfig where
  electionTimeoutMaxMs : Nat := 300
  heartbeatIntervalMs : Nat := 50
  deriving DecidableEq, Repr

structure ClusterConfig where
  nodeId : NodeId
  peers : List PeerConfig
  raft : RaftConfig := {}
  deriving DecidableEq, Repr

inductive PeerHealth where
  | healthy
  | unhealthy
  | unknown
  deriving DecidableEq, Repr

structure PeerState where
  config : PeerConfig
  health : PeerHealth
  failedHeartbeats : UInt32
  deriving DecidableEq, Repr

namespace PeerState

def new (config : PeerConfig) : PeerState := ⟨config, .unknown, 0⟩

def recordHeartbeat (peer : PeerState) : PeerState :=
  { peer with failedHeartbeats := 0, health := .healthy }

/-- The counter wraps around, but what it has made of the health stays. -/
def recordFailure (peer : PeerState) (threshold : UInt32) : PeerState :=
  { peer with
    failedHeartbeats := peer.failedHeartbeats + 1
    health := if peer.failedHeartbeats + 1 ≥ threshold then .unhealthy else peer.health }

end PeerState

structure MembershipManager where
  config : ClusterConfig
  peers : Dict NodeId PeerState

namespace MembershipManager

def new (config : ClusterConfig) : MembershipManager :=
  ⟨config, config.peers.foldl (fun peers peer => peers.insert peer.nodeId (.new peer)) ∅⟩

variable (manager : MembershipManager)

def failureThreshold : UInt32 :=
  max (UInt32.ofNat (manager.config.raft.electionTimeoutMaxMs /
    max manager.config.raft.heartbeatIntervalMs 1)) 1

def updatePeer (nodeId : NodeId) (f : PeerState → PeerState) :
    MembershipManager :=
  match manager.peers[nodeId]? with
  | none => manager
  | some peer => { manager with peers := manager.peers.insert nodeId (f peer) }

def recordHeartbeat (manager : MembershipManager) (nodeId : NodeId) : MembershipManager :=
  manager.updatePeer nodeId PeerState.recordHeartbeat

def recordFailure (manager : MembershipManager) (nodeId : NodeId) : MembershipManager :=
  manager.updatePeer nodeId (PeerState.recordFailure · manager.failureThreshold)

def healthyPeers : List NodeId :=
  (manager.peers.toList.filter fun peer => peer.2.health = .healthy).map Prod.fst

def hasQuorum : Bool :=
  let votingCount := (manager.peers.toList.filter fun peer => peer.2.config.voting).length
  let healthyVoting := (manager.peers.toList.filter fun peer =>
    peer.2.config.voting && peer.2.health = .healthy).length
  let quorumSize := (votingCount + 1) / 2 + 1
  healthyVoting + 1 ≥ quorumSize

end MembershipManager

/-- What a manager is told about a peer. -/
inductive HealthEvent where
  | heartbeat (nodeId : NodeId)
  | failure (nodeId : NodeId)
  deriving DecidableEq

def MembershipManager.record (manager : MembershipManager) : HealthEvent → MembershipManager
  | .heartbeat nodeId => manager.recordHeartbeat nodeId
  | .failure nodeId => manager.recordFailure nodeId

structure ClusterNode where
  config : ClusterConfig
  currentTerm : Nat
  votedFor : Option NodeId
  leaderId : Option NodeId

namespace ClusterNode

def new (config : ClusterConfig) : ClusterNode := ⟨config, 0, none, none⟩

variable (node : ClusterNode)

def observeTerm (term : Nat) : ClusterNode :=
  if term > node.currentTerm then
    { node with currentTerm := term, votedFor := none, leaderId := none }
  else node

/-- The candidate's log is not looked at. -/
def handleRequestVote (term : Nat) (candidateId : NodeId) (_lastLogIndex _lastLogTerm : Nat) :
    ClusterNode × Bool :=
  if term < node.currentTerm then (node, false)
  else
    let node := node.observeTerm term
    match node.votedFor with
    | some existing => (node, existing = candidateId)
    | none => ({ node with votedFor := some candidateId }, true)

def quorumSize : Nat :=
  let totalNodes := node.config.peers.length + 1
  totalNodes / 2 + 1

end ClusterNode

structure VoteRequest where
  receiver : NodeId
  term : Nat
  candidateId : NodeId
  lastLogIndex : Nat
  lastLogTerm : Nat
  deriving DecidableEq

abbrev VoteEvent := VoteRequest × Bool

def handle (nodes : NodeId → ClusterNode) (request : VoteRequest) :
    (NodeId → ClusterNode) × List VoteEvent :=
  let answer := (nodes request.receiver).handleRequestVote request.term request.candidateId
    request.lastLogIndex request.lastLogTerm
  (Function.update nodes request.receiver answer.1, [(request, answer.2)])

/-- The members of a cluster, each a peer of all others. -/
structure Membership where
  members : List NodeId
  configs : NodeId → ClusterConfig
  distinct : members.Nodup
  named : ∀ id ∈ members, (configs id).nodeId = id
  others : ∀ id ∈ members, ((configs id).peers.map PeerConfig.nodeId).Perm (members.erase id)

def Membership.start (membership : Membership) (id : NodeId) : ClusterNode :=
  .new (membership.configs id)

end Hsm.Cluster
