import Hsm.Cluster.Node
import Mathlib.Data.Finset.Card

/-! At most one candidate wins an election in each term. -/

namespace Hsm.Cluster

namespace ClusterNode

variable {node : ClusterNode} {term : Nat} {candidateId : NodeId} {index logTerm : Nat}

theorem handleRequestVote_cases (node : ClusterNode) (term : Nat) (candidateId : NodeId)
    (index logTerm : Nat) :
    let answer := node.handleRequestVote term candidateId index logTerm
    answer.1.config = node.config ∧
    (answer = (node, false) ∨
      answer.1.currentTerm = term ∧ answer.1.votedFor = some candidateId ∧ answer.2 = true ∧
        (node.currentTerm < term ∨
          node.currentTerm = term ∧
            (node.votedFor = none ∨ node.votedFor = some candidateId))) := by
  simp only [handleRequestVote, observeTerm]
  by_cases stale : term < node.currentTerm
  · simp [stale]
  · by_cases newer : term > node.currentTerm
    · simp [stale, newer]
    · have same : node.currentTerm = term := by omega
      cases vote : node.votedFor with
      | none => simp [same, vote]
      | some existing =>
        by_cases isCandidate : existing = candidateId
        · simp [same, vote, isCandidate]
        · simp [same, vote, isCandidate]

theorem currentTerm_le (node : ClusterNode) (term : Nat) (candidateId : NodeId)
    (index logTerm : Nat) :
    node.currentTerm ≤ (node.handleRequestVote term candidateId index logTerm).1.currentTerm := by
  obtain ⟨-, refused | ⟨isTerm, -, -, moved⟩⟩ :=
    node.handleRequestVote_cases term candidateId index logTerm
  · rw [refused]
  · omega

end ClusterNode

theorem handle_apply (nodes : NodeId → ClusterNode) (request : VoteRequest) (id : NodeId) :
    (handle nodes request).1 id =
      if id = request.receiver then
        ((nodes id).handleRequestVote request.term request.candidateId request.lastLogIndex
          request.lastLogTerm).1
      else nodes id := by
  by_cases asked : id = request.receiver
  · simp [handle, asked]
  · simp [handle, asked]

theorem mem_of_mem_trace {nodes : NodeId → ClusterNode} {requests : List VoteRequest}
    {request : VoteRequest} {granted : Bool}
    (member : (request, granted) ∈ (trace handle nodes requests).2) : request ∈ requests := by
  refine trace_outputs (fun _ => True) (fun event => event.1 ∈ requests)
    (fun _ asked isAsked _ _ => ⟨trivial, fun event isEvent => ?_⟩) nodes trivial
    (Along.of_forall (fun _ _ _ => trivial) nodes) _ member
  cases List.mem_singleton.mp isEvent
  exact isAsked

theorem trace_currentTerm_le (nodes : NodeId → ClusterNode) (requests : List VoteRequest)
    (id : NodeId) :
    (nodes id).currentTerm ≤ ((trace handle nodes requests).1 id).currentTerm := by
  induction requests generalizing nodes with
  | nil => exact le_refl _
  | cons request rest ih =>
    refine le_trans ?_ (ih (handle nodes request).1)
    rw [handle_apply]
    split_ifs
    · exact (nodes id).currentTerm_le _ _ _ _
    · exact le_refl _

/-- Votes granted are remembered, or of older terms. -/
structure Voted (nodes : NodeId → ClusterNode) (history : List VoteEvent) : Prop where
  remembered : ∀ request, (request, true) ∈ history →
    request.term < (nodes request.receiver).currentTerm ∨
      (nodes request.receiver).currentTerm = request.term ∧
        (nodes request.receiver).votedFor = some request.candidateId
  single : ∀ first second, (first, true) ∈ history → (second, true) ∈ history →
    first.receiver = second.receiver → first.term = second.term →
    first.candidateId = second.candidateId

theorem Voted.handle {nodes : NodeId → ClusterNode} {history : List VoteEvent}
    (voted : Voted nodes history) (request : VoteRequest) :
    Voted (handle nodes request).1 (history ++ (handle nodes request).2) := by
  obtain ⟨-, refused | ⟨isTerm, isVote, granted, before⟩⟩ :=
    (nodes request.receiver).handleRequestVote_cases request.term request.candidateId
      request.lastLogIndex request.lastLogTerm
  · -- A refused request changes nothing.
    have unchanged : (Cluster.handle nodes request).1 = nodes := by
      funext id
      rw [handle_apply]
      split_ifs with asked
      · rw [asked, refused]
      · rfl
    have answer : (Cluster.handle nodes request).2 = [(request, false)] := by
      simp [Cluster.handle, refused]
    rw [unchanged, answer]
    constructor
    · simpa using voted.remembered
    · simpa using voted.single
  · have answer : (Cluster.handle nodes request).2 = [(request, true)] := by
      simp [Cluster.handle, granted]
    -- Earlier votes of this node in this term are for the same candidate.
    have agrees : ∀ other, (other, true) ∈ history → other.receiver = request.receiver →
        other.term ≤ request.term ∧
          (other.term = request.term → other.candidateId = request.candidateId) := by
      intro other member sameReceiver
      have remembered := voted.remembered other member
      rw [sameReceiver] at remembered
      refine ⟨by omega, fun sameTerm => ?_⟩
      rcases remembered with older | ⟨current, isVote⟩
      · omega
      · rcases before with newer | ⟨-, none | same⟩
        · omega
        · rw [none] at isVote
          cases isVote
        · exact Option.some.inj (isVote.symm.trans same)
    rw [answer]
    constructor
    · intro other member
      rw [handle_apply]
      simp only [List.mem_append, List.mem_singleton, Prod.mk.injEq, and_true] at member
      split_ifs with asked
      · rw [asked, isTerm, isVote]
        rcases member with earlier | rfl
        · obtain ⟨notNewer, same⟩ := agrees other earlier asked
          rcases Nat.lt_or_eq_of_le notNewer with older | current
          · exact .inl older
          · exact .inr ⟨current.symm, by rw [same current]⟩
        · exact .inr ⟨rfl, rfl⟩
      · rcases member with earlier | rfl
        · exact voted.remembered other earlier
        · exact absurd rfl asked
    · intro first second firstMember secondMember sameReceiver sameTerm
      simp only [List.mem_append, List.mem_singleton, Prod.mk.injEq, and_true]
        at firstMember secondMember
      rcases firstMember with firstEarlier | rfl
      · rcases secondMember with secondEarlier | rfl
        · exact voted.single first second firstEarlier secondEarlier sameReceiver sameTerm
        · exact (agrees first firstEarlier sameReceiver).2 sameTerm
      · rcases secondMember with secondEarlier | rfl
        · exact ((agrees second secondEarlier sameReceiver.symm).2 sameTerm.symm).symm
        · rfl

theorem voted_trace (membership : Membership) (requests : List VoteRequest) :
    Voted (trace handle membership.start requests).1
      (trace handle membership.start requests).2 := by
  have start : Voted membership.start [] := ⟨nofun, nofun⟩
  exact trace_invariant Voted (fun _ _ request voted _ => voted.handle request) requests _ [] start
    (Along.of_forall (fun _ _ _ => trivial) membership.start)

namespace Membership

variable (membership : Membership)

theorem quorumSize_start {id : NodeId} (member : id ∈ membership.members) :
    (membership.start id).quorumSize = membership.members.length / 2 + 1 := by
  have count := (membership.others id member).length_eq
  rw [List.length_map, List.length_erase_of_mem member] at count
  have positive := List.length_pos_of_mem member
  simp only [ClusterNode.quorumSize, start, ClusterNode.new, count]
  omega

theorem quorums_intersect {first second : Finset NodeId}
    (firstMembers : ∀ id ∈ first, id ∈ membership.members)
    (secondMembers : ∀ id ∈ second, id ∈ membership.members)
    (firstQuorum : membership.members.length / 2 + 1 ≤ first.card)
    (secondQuorum : membership.members.length / 2 + 1 ≤ second.card) :
    ∃ id, id ∈ first ∧ id ∈ second := by
  have size := List.toFinset_card_of_nodup membership.distinct
  obtain ⟨id, shared⟩ := Finset.inter_nonempty_of_card_lt_card_add_card
    (s := membership.members.toFinset)
    (fun id among => List.mem_toFinset.mpr (firstMembers id among))
    (fun id among => List.mem_toFinset.mpr (secondMembers id among)) (by omega)
  exact ⟨id, Finset.mem_inter.mp shared⟩

end Membership

namespace MembershipManager

/-- The peers of a manager are the configured ones. -/
structure Knows (manager : MembershipManager) (config : ClusterConfig) : Prop where
  config_eq : manager.config = config
  peers_mem : ∀ id, id ∈ manager.peers ↔ id ∈ config.peers.map PeerConfig.nodeId
  configured : ∀ (id : NodeId) (peer : PeerState), manager.peers[id]? = some peer →
    peer.config ∈ config.peers

theorem knows_new (config : ClusterConfig) : (new config).Knows config := by
  have general : ∀ (listed : List PeerConfig) (peers : Dict NodeId PeerState)
      (known : List PeerConfig),
      (∀ id, id ∈ peers ↔ id ∈ known.map PeerConfig.nodeId) →
      (∀ (id : NodeId) (peer : PeerState), peers[id]? = some peer → peer.config ∈ known) →
      (∀ id, id ∈ listed.foldl (fun peers peer => peers.insert peer.nodeId (.new peer)) peers ↔
        id ∈ (known ++ listed).map PeerConfig.nodeId) ∧
      ∀ (id : NodeId) (peer : PeerState),
        (listed.foldl (fun (peers : Dict NodeId PeerState) peer =>
          peers.insert peer.nodeId (.new peer)) peers)[id]? = some peer →
        peer.config ∈ known ++ listed := by
    intro listed
    induction listed with
    | nil => simp_all
    | cons first rest ih =>
      intro peers known keys values
      have next := ih (peers.insert first.nodeId (.new first)) (known ++ [first]) ?_ ?_
      · simpa using next
      · intro id
        rw [Dict.mem_insert, keys id, List.map_append, List.mem_append, or_comm]
        simp [eq_comm]
      · intro id peer found
        rw [Dict.find_insert] at found
        split_ifs at found with same
        · cases found
          simp [PeerState.new]
        · exact List.mem_append_left _ (values id peer found)
  have all := general config.peers ∅ [] (by simp) (by simp)
  exact ⟨rfl, by simpa [new] using all.1, by simpa [new] using all.2⟩

variable {manager : MembershipManager} {config : ClusterConfig}

theorem Knows.updatePeer (knows : manager.Knows config) (id : NodeId) {f : PeerState → PeerState}
    (keeps : ∀ peer, (f peer).config = peer.config) : (manager.updatePeer id f).Knows config := by
  unfold MembershipManager.updatePeer
  cases found : manager.peers[id]? with
  | none => exact knows
  | some peer =>
    have present : id ∈ manager.peers :=
      Std.ExtTreeMap.mem_iff_isSome_getElem?.mpr (by simp [found])
    refine ⟨knows.config_eq, fun other => ?_, fun other changed isChanged => ?_⟩
    · rw [Dict.mem_insert, ← knows.peers_mem other]
      exact or_iff_right_of_imp fun same => same ▸ present
    · rw [Dict.find_insert] at isChanged
      split_ifs at isChanged with same
      · cases isChanged
        rw [keeps]
        exact knows.configured id peer found
      · exact knows.configured other changed isChanged

theorem Knows.record (knows : manager.Knows config) (event : HealthEvent) :
    (manager.record event).Knows config := by
  cases event with
  | heartbeat id => exact knows.updatePeer id fun _ => rfl
  | failure id => exact knows.updatePeer id fun _ => rfl

theorem knows_foldl (config : ClusterConfig) (events : List HealthEvent) :
    (events.foldl record (new config)).Knows config := by
  have general : ∀ manager : MembershipManager, manager.Knows config →
      (events.foldl record manager).Knows config := by
    induction events with
    | nil => exact fun _ knows => knows
    | cons event rest ih => exact fun manager knows => ih _ (knows.record event)
  exact general _ (knows_new config)

theorem Knows.hasQuorum_iff (knows : manager.Knows config)
    (distinct : (config.peers.map PeerConfig.nodeId).Nodup)
    (voting : ∀ peer ∈ config.peers, peer.voting = true) :
    manager.hasQuorum = true ↔
      (ClusterNode.new config).quorumSize ≤ manager.healthyPeers.length + 1 := by
  have count : manager.peers.toList.length = config.peers.length := by
    have same := (Dict.perm_keys_of_mem distinct knows.peers_mem).length_eq
    rw [List.length_map] at same
    rw [← same, ← Std.ExtTreeMap.map_fst_toList_eq_keys, List.length_map]
  have votes : ∀ peer ∈ manager.peers.toList, peer.2.config.voting = true := by
    intro peer member
    exact voting _ (knows.configured peer.1 peer.2
      (Std.ExtTreeMap.mem_toList_iff_getElem?_eq_some.mp member))
  have allVoting : (manager.peers.toList.filter fun peer => peer.2.config.voting) =
      manager.peers.toList := List.filter_eq_self.mpr votes
  have healthyVoting : (manager.peers.toList.filter fun peer =>
      peer.2.config.voting && peer.2.health = .healthy) =
      manager.peers.toList.filter fun peer => peer.2.health = .healthy := by
    refine List.filter_congr fun peer member => ?_
    rw [votes peer member, Bool.true_and]
  simp only [hasQuorum, allVoting, healthyVoting, count, ClusterNode.quorumSize, ClusterNode.new,
    healthyPeers, List.length_map, decide_eq_true_eq, ge_iff_le]

end MembershipManager

/-- In each term at most one candidate gets the votes of a quorum. -/
theorem election_safety (membership : Membership) (requests : List VoteRequest)
    (received : ∀ request ∈ requests, request.receiver ∈ membership.members) :
    let history := (trace handle membership.start requests).2
    -- At most one candidate wins a term.
    (∀ term first second, ∀ firstVoters secondVoters : Finset NodeId,
      (∀ id ∈ firstVoters, ∃ request, (request, true) ∈ history ∧ request.receiver = id ∧
        request.term = term ∧ request.candidateId = first) →
      (∀ id ∈ secondVoters, ∃ request, (request, true) ∈ history ∧ request.receiver = id ∧
        request.term = term ∧ request.candidateId = second) →
      (∃ id ∈ membership.members, (membership.start id).quorumSize ≤ firstVoters.card) →
      (∃ id ∈ membership.members, (membership.start id).quorumSize ≤ secondVoters.card) →
      first = second) ∧
    -- A member votes for at most one candidate in each term.
    (∀ first second, (first, true) ∈ history → (second, true) ∈ history →
      first.receiver = second.receiver → first.term = second.term →
      first.candidateId = second.candidateId) ∧
    -- Terms never decrease.
    (∀ before after, requests = before ++ after → ∀ id,
      ((trace handle membership.start before).1 id).currentTerm ≤
        ((trace handle membership.start requests).1 id).currentTerm) ∧
    -- Quorums share a member.
    (∀ id ∈ membership.members, ∀ first second : Finset NodeId,
      (∀ id ∈ first, id ∈ membership.members) → (∀ id ∈ second, id ∈ membership.members) →
      (membership.start id).quorumSize ≤ first.card →
      (membership.start id).quorumSize ≤ second.card → ∃ id, id ∈ first ∧ id ∈ second) ∧
    -- Managers have a quorum if and only if enough nodes are healthy.
    (∀ id ∈ membership.members, (∀ peer ∈ (membership.configs id).peers, peer.voting = true) →
      ∀ events : List HealthEvent,
        let manager := events.foldl MembershipManager.record (.new (membership.configs id))
        manager.hasQuorum = true ↔
          (membership.start id).quorumSize ≤ manager.healthyPeers.length + 1) := by
  have voted := voted_trace membership requests
  have asked : ∀ request, (request, true) ∈ (trace handle membership.start requests).2 →
      request.receiver ∈ membership.members := fun request member =>
    received request (mem_of_mem_trace member)
  refine ⟨?_, voted.single, ?_, ?_, ?_⟩
  · intro term first second firstVoters secondVoters firstVotes secondVotes
    rintro ⟨firstId, firstMember, firstQuorum⟩ ⟨secondId, secondMember, secondQuorum⟩
    rw [membership.quorumSize_start firstMember] at firstQuorum
    rw [membership.quorumSize_start secondMember] at secondQuorum
    obtain ⟨id, isFirst, isSecond⟩ := membership.quorums_intersect
      (fun id voter => by
        obtain ⟨request, granted, rfl, -⟩ := firstVotes id voter
        exact asked request granted)
      (fun id voter => by
        obtain ⟨request, granted, rfl, -⟩ := secondVotes id voter
        exact asked request granted) firstQuorum secondQuorum
    -- The shared member voted for both.
    obtain ⟨one, oneGranted, oneReceiver, oneTerm, rfl⟩ := firstVotes id isFirst
    obtain ⟨other, otherGranted, otherReceiver, otherTerm, rfl⟩ := secondVotes id isSecond
    exact voted.single one other oneGranted otherGranted (oneReceiver.trans otherReceiver.symm)
      (oneTerm.trans otherTerm.symm)
  · rintro before after rfl id
    rw [trace_append]
    exact trace_currentTerm_le _ after id
  · intro id member first second firstMembers secondMembers firstQuorum secondQuorum
    rw [membership.quorumSize_start member] at firstQuorum secondQuorum
    exact membership.quorums_intersect firstMembers secondMembers firstQuorum secondQuorum
  · intro id member voting events
    have distinct : ((membership.configs id).peers.map PeerConfig.nodeId).Nodup :=
      (membership.others id member).nodup_iff.mpr (membership.distinct.erase id)
    exact (MembershipManager.knows_foldl (membership.configs id) events).hasQuorum_iff distinct
      voting

namespace Known

def threeNodes : Membership where
  members := ["node-1", "node-2", "node-3"]
  configs := fun id => ⟨id, (["node-1", "node-2", "node-3"].erase id).map (⟨·, true⟩), {}⟩
  distinct := by decide
  named := fun _ _ => rfl
  others := fun id _ => by
    rw [List.map_map]
    simp [Function.comp_def]

def voteRequests : List VoteRequest :=
  [⟨"node-1", 1, "node-2", 0, 0⟩, ⟨"node-1", 1, "node-3", 0, 0⟩, ⟨"node-2", 1, "node-2", 0, 0⟩]

end Known

theorem election_safety_three :
    (trace handle Known.threeNodes.start Known.voteRequests).2 =
      [(⟨"node-1", 1, "node-2", 0, 0⟩, true), (⟨"node-1", 1, "node-3", 0, 0⟩, false),
        (⟨"node-2", 1, "node-2", 0, 0⟩, true)] ∧
    ∀ winner, ∀ voters : Finset NodeId,
      (∀ id ∈ voters, ∃ request, (request, true) ∈
        (trace handle Known.threeNodes.start Known.voteRequests).2 ∧ request.receiver = id ∧
        request.term = 1 ∧ request.candidateId = winner) →
      2 ≤ voters.card → winner = "node-2" := by
  have history : (trace handle Known.threeNodes.start Known.voteRequests).2 =
      [(⟨"node-1", 1, "node-2", 0, 0⟩, true), (⟨"node-1", 1, "node-3", 0, 0⟩, false),
        (⟨"node-2", 1, "node-2", 0, 0⟩, true)] := by decide +kernel
  refine ⟨history, fun winner voters votes quorum => ?_⟩
  have safe := (election_safety Known.threeNodes Known.voteRequests (by decide)).1 1 winner "node-2"
    voters {"node-1", "node-2"} votes
  refine safe ?_ ⟨"node-1", by decide, quorum⟩ ⟨"node-1", by decide, by decide⟩
  intro id voter
  rw [history]
  simp only [Finset.mem_insert, Finset.mem_singleton] at voter
  rcases voter with rfl | rfl
  · exact ⟨⟨"node-1", 1, "node-2", 0, 0⟩, by simp, rfl, rfl, rfl⟩
  · exact ⟨⟨"node-2", 1, "node-2", 0, 0⟩, by simp, rfl, rfl, rfl⟩

end Hsm.Cluster
