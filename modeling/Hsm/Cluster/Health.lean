import Hsm.Cluster.Election

/-! What a node thinks of the health of its peers, after any reports about them. -/

namespace Hsm.Cluster.MembershipManager

/-- How many failures of a peer were reported since its last heartbeat. -/
def missed (id : NodeId) (events : List HealthEvent) : Nat :=
  ((events.reverse.filter fun event => event = .heartbeat id ∨ event = .failure id).takeWhile
    (· = .failure id)).length

/-- The health that a peer's reports call for. -/
def verdict (threshold : Nat) (id : NodeId) (events : List HealthEvent) : PeerHealth :=
  if threshold ≤ missed id events then .unhealthy
  else if .heartbeat id ∈ events then .healthy
  else .unknown

theorem find_updatePeer (manager : MembershipManager) (id other : NodeId)
    (f : PeerState → PeerState) :
    (manager.updatePeer other f).peers[id]? =
      if other = id then manager.peers[id]?.map f else manager.peers[id]? := by
  unfold updatePeer
  split_ifs with same
  · subst same
    cases found : manager.peers[other]? <;> simp [found]
  · cases found : manager.peers[other]? <;> simp [Dict.find_insert, same]

theorem find_new (config : ClusterConfig) (id : NodeId) :
    ∀ peer ∈ (new config).peers[id]?, peer = .new peer.config := by
  have general : ∀ (listed : List PeerConfig) (peers : Dict NodeId PeerState),
      (∀ peer ∈ peers[id]?, peer = .new peer.config) →
      ∀ peer ∈ (listed.foldl (fun (peers : Dict NodeId PeerState) peer =>
        peers.insert peer.nodeId (.new peer)) peers)[id]?, peer = .new peer.config := by
    intro listed
    induction listed with
    | nil => exact fun _ fresh => fresh
    | cons first rest ih =>
      refine fun peers fresh => ih _ fun peer found => ?_
      rw [Dict.find_insert] at found
      split_ifs at found
      · cases found
        rfl
      · exact fresh peer found
  exact general _ _ (by simp)

theorem failureThreshold_pos (manager : MembershipManager) :
    0 < manager.failureThreshold.toNat := by
  unfold failureThreshold
  generalize UInt32.ofNat _ = timeouts
  show 0 < (if timeouts ≤ 1 then 1 else timeouts).toNat
  split_ifs with small
  · decide
  · have large := UInt32.lt_iff_toNat_lt.mp (UInt32.not_le.mp small)
    omega

/-- One more failure leads to the verdict that counts it, also where the counter wraps around. -/
theorem recordFailure_health {threshold : UInt32} {count : Nat} {seen health : PeerHealth}
    (positive : 0 < threshold.toNat) (peer : PeerState)
    (counter : peer.failedHeartbeats = UInt32.ofNat count)
    (before : peer.health = if threshold.toNat ≤ count then .unhealthy else seen)
    (after : health = if threshold.toNat ≤ count + 1 then .unhealthy else seen) :
    (peer.recordFailure threshold).failedHeartbeats = UInt32.ofNat (count + 1) ∧
      (peer.recordFailure threshold).health = health := by
  have next : peer.failedHeartbeats + 1 = UInt32.ofNat (count + 1) := by
    rw [counter, UInt32.ofNat_add]
    rfl
  refine ⟨next, ?_⟩
  have bound := threshold.toNat_lt
  simp only [PeerState.recordFailure, next, ge_iff_le, UInt32.le_iff_toNat_le, UInt32.toNat_ofNat']
  rw [before, after]
  rcases Nat.lt_trichotomy threshold.toNat (count + 1) with above | reached | below
  · -- The peer was down already, whatever the counter says now.
    have already : threshold.toNat ≤ count := by omega
    simp only [already, above.le, if_true, ite_self]
  · -- The counter cannot have wrapped around yet.
    have exact_ : (count + 1) % 2 ^ 32 = count + 1 := Nat.mod_eq_of_lt (by omega)
    rw [exact_, if_pos reached.le, if_pos reached.le]
  · have exact_ : (count + 1) % 2 ^ 32 = count + 1 := Nat.mod_eq_of_lt (by omega)
    have lower : ¬ threshold.toNat ≤ count := by omega
    rw [exact_, if_neg (by omega), if_neg lower, if_neg (by omega)]

theorem counted_of_reports (config : ClusterConfig) (events : List HealthEvent) (id : NodeId) :
    (events.foldl record (new config)).peers[id]?.map
        (fun peer => (peer.failedHeartbeats, peer.health)) = (new config).peers[id]?.map fun _ =>
      (UInt32.ofNat (missed id events),
        verdict (new config).failureThreshold.toNat id events) := by
  -- The counter is carried along: it decides when the next failure is one too many.
  induction events using List.reverseRecOn with
  | nil =>
    cases found : (new config).peers[id]? with
    | none => simp [found]
    | some peer =>
      have positive := (new config).failureThreshold_pos
      rw [List.foldl_nil, found, find_new config id peer found]
      simp [PeerState.new, missed, verdict, Nat.not_le.mpr positive]
  | append_singleton events event ih =>
    have threshold : (events.foldl record (new config)).failureThreshold =
        (new config).failureThreshold :=
      congrArg (fun config => failureThreshold ⟨config, ∅⟩) (knows_foldl config events).config_eq
    have positive := (new config).failureThreshold_pos
    rw [List.foldl_append, List.foldl_cons, List.foldl_nil]
    generalize events.foldl record (new config) = manager at *
    cases event with
    | heartbeat other =>
      simp only [record, recordHeartbeat, find_updatePeer]
      by_cases same : other = id
      · subst same
        have none : missed other (events ++ [.heartbeat other]) = 0 := by simp [missed]
        cases found : manager.peers[other]? <;> cases start : (new config).peers[other]? <;>
          simp_all [verdict, PeerState.recordHeartbeat, Nat.not_le.mpr positive]
      · simpa [same, missed, verdict, Ne.symm same] using ih
    | failure other =>
      simp only [record, recordFailure, find_updatePeer, threshold]
      by_cases same : other = id
      · subst same
        have more : missed other (events ++ [.failure other]) = missed other events + 1 := by
          simp [missed]
        rw [if_pos rfl]
        cases found : manager.peers[other]? with
        | none => cases start : (new config).peers[other]? <;> simp_all
        | some peer =>
          cases start : (new config).peers[other]? with
          | none => simp_all
          | some _ =>
            simp only [found, start, Option.map_some, Option.some.injEq, Prod.mk.injEq] at ih ⊢
            refine more ▸ recordFailure_health positive peer ih.1 ih.2 ?_
            simp [verdict, more]
      · simpa [same, missed, verdict] using ih

/-- A peer counts as down exactly if enough failures came in since its last heartbeat. -/
theorem health_of_reports (config : ClusterConfig) (events : List HealthEvent) (id : NodeId) :
    (events.foldl record (new config)).peers[id]?.map PeerState.health =
      (new config).peers[id]?.map fun _ =>
        verdict (new config).failureThreshold.toNat id events := by
  have counted := congrArg (Option.map Prod.snd) (counted_of_reports config events id)
  simpa [Function.comp_def] using counted

end Hsm.Cluster.MembershipManager
