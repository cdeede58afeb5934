import Hsm.Secrets.Lease

/-! Leases end: within their longest time to live, and for good once they are over. -/

namespace Hsm.Secrets

inductive LeaseChange (config : LeaseConfig) (leaseId : LeaseId) :
    LeaseCall → Option Lease → Option Lease → Prop
  | unchanged {call : LeaseCall} {lease : Option Lease} : LeaseChange config leaseId call lease lease
  | created {now : Instant} {secretId : SecretId} {version : UInt32} {clientId : String}
    {ttl : Option Span} {before : Option Lease} {lease : Lease} (sameSecret : lease.secretId = secretId)
    (limit : lease.maxTtl = some config.maxTtl)
    (bounded : lease.expiresAt ≤ lease.createdAt + config.maxTtl) :
    LeaseChange config leaseId (.create now leaseId secretId version clientId ttl) before (some lease)
  | revoked {call : LeaseCall} {lease : Lease} :
    LeaseChange config leaseId call (some lease) (some { lease with revoked := true })
  | renewed {now expiresAt : Instant} {increment : Option Span} {lease : Lease}
    (inForce : lease.revoked = false ∧ now < lease.expiresAt)
    (bounded : expiresAt ≤ lease.createdAt + lease.maxTtl.getD config.maxTtl) :
    LeaseChange config leaseId (.renew now leaseId increment) (some lease)
      (some { lease with expiresAt := expiresAt })
  | removed {now : Instant} {lease : Lease} (ended : lease.revoked = true ∨ now ≥ lease.expiresAt) :
    LeaseChange config leaseId (.cleanupExpired now) (some lease) none

section

variable (manager : LeaseManager) (leaseId : LeaseId)

theorem markRevoked_changes {other : LeaseId} {lease : Lease}
    (found : manager.leases[other]? = some lease) (call : LeaseCall) :
    LeaseChange manager.config leaseId call manager.leases[leaseId]?
      (manager.markRevoked other lease).leases[leaseId]? := by
  rw [LeaseManager.markRevoked, Dict.find_insert]
  split
  · rename_i same
    subst same
    rw [found]
    exact .revoked
  · exact .unchanged

theorem serve_changes (call : LeaseCall) :
    LeaseChange manager.config leaseId call manager.leases[leaseId]?
      (manager.serve call).1.leases[leaseId]? := by
  cases call with
  | create now id secretId version clientId ttl =>
    simp only [LeaseManager.serve, LeaseManager.createLease]
    cases given : now.plus (min (ttl.getD manager.config.defaultTtl) manager.config.maxTtl) with
    | none => exact .unchanged
    | some expiresAt =>
      show LeaseChange _ _ _ _ (manager.leases.insert id _)[leaseId]?
      rw [Dict.find_insert]
      split
      · rename_i same
        subst same
        refine .created rfl rfl ?_
        -- The time to live is at most the longest one.
        rw [Instant.plus_eq given]
        exact Int.add_le_add_left (Int.min_le_right _ _) now
      · exact .unchanged
  | checkExpiration now other =>
    simp only [LeaseManager.serve, LeaseManager.checkExpiration]
    split
    · cases found : manager.leases[other]? with
      | none => exact .unchanged
      | some lease =>
        simp only
        split
        · exact markRevoked_changes { manager with scheduled := _ } leaseId found _
        · exact .unchanged
    · exact .unchanged
  | renew now other increment =>
    simp only [LeaseManager.serve, LeaseManager.renewLease]
    cases found : manager.leases[other]? with
    | none => exact .unchanged
    | some lease =>
      simp only
      by_cases ended : lease.revoked = true
      · rw [if_pos ended]
        exact .unchanged
      · rw [if_neg ended]
        by_cases fixed : lease.renewable = false
        · rw [if_pos fixed]
          exact .unchanged
        · rw [if_neg fixed]
          by_cases late : now ≥ lease.expiresAt
          · rw [if_pos late]
            exact markRevoked_changes manager leaseId found _
          · rw [if_neg late]
            cases next : now.plus (increment.getD manager.config.defaultTtl) with
            | none => exact .unchanged
            | some newExpires =>
              cases most : lease.createdAt.plus (lease.maxTtl.getD manager.config.maxTtl) with
              | none => exact .unchanged
              | some maxExpires =>
                show LeaseChange _ _ _ _ (manager.leases.insert other _)[leaseId]?
                rw [Dict.find_insert]
                split
                · rename_i same
                  subst same
                  rw [found]
                  refine .renewed ⟨Bool.eq_false_iff.mpr ended, Int.not_le.mp late⟩ ?_
                  rw [← Instant.plus_eq most]
                  exact Int.min_le_right _ _
                · exact .unchanged
  | revoke other =>
    simp only [LeaseManager.serve, LeaseManager.revokeLease]
    cases found : manager.leases[other]? with
    | none => exact .unchanged
    | some lease =>
      simp only
      split
      · exact .unchanged
      · exact markRevoked_changes manager leaseId found _
  | revokeAll secretId =>
    simp only [LeaseManager.serve, LeaseManager.revokeAll]
    rw [Std.ExtTreeMap.getElem?_map]
    cases found : manager.leases[leaseId]? with
    | none => exact .unchanged
    | some lease =>
      simp only [Option.map_some]
      split
      · exact .revoked
      · exact .unchanged
  | validate now other => exact .unchanged
  | cleanupExpired now =>
    simp only [LeaseManager.serve, LeaseManager.cleanupExpired]
    rw [Dict.find_filter (fun lease : Lease =>
      ¬ (lease.revoked = true ∨ now ≥ lease.expiresAt))]
    cases found : manager.leases[leaseId]? with
    | none => exact .unchanged
    | some lease =>
      by_cases ended : lease.revoked = true ∨ now ≥ lease.expiresAt
      · rw [Option.filter_some_neg (by simpa [or_iff_not_imp_left] using ended)]
        exact .removed ended
      · rw [Option.filter_some_pos (by simpa using ended)]
        exact .unchanged

theorem config_serve (call : LeaseCall) : (manager.serve call).1.config = manager.config := by
  cases call with
  | create now id secretId version clientId ttl =>
    simp only [LeaseManager.serve, LeaseManager.createLease]
    cases now.plus (min (ttl.getD manager.config.defaultTtl) manager.config.maxTtl) <;> rfl
  | checkExpiration now other =>
    simp only [LeaseManager.serve, LeaseManager.checkExpiration]
    split
    · split
      · rfl
      · split <;> rfl
    · rfl
  | renew now other increment =>
    simp only [LeaseManager.serve, LeaseManager.renewLease]
    cases manager.leases[other]? with
    | none => rfl
    | some lease =>
      simp only
      split
      · rename_i made
        split at made
        · cases made
          rfl
        · split at made
          · cases made
            rfl
          · split at made
            · cases made
              rfl
            · obtain ⟨newExpires, -, made⟩ := Option.bind_eq_some_iff.mp made
              obtain ⟨maxExpires, -, made⟩ := Option.bind_eq_some_iff.mp made
              cases made
              rfl
      · rfl
  | revoke other =>
    simp only [LeaseManager.serve, LeaseManager.revokeLease]
    split
    · rfl
    · split <;> rfl
  | revokeAll secretId => rfl
  | validate now other => rfl
  | cleanupExpired now => rfl

end

/-- The time read while the leases are locked. -/
def LeaseCall.reads : LeaseCall → Option Instant
  | .checkExpiration now _ => some now
  | .renew now _ _ => some now
  | .validate now _ => some now
  | .cleanupExpired now => some now
  | _ => none

def LeaseCall.Draws (leaseId : LeaseId) : LeaseCall → Prop
  | .create _ id _ _ _ _ => id = leaseId
  | _ => False

def LeaseCall.Names (leaseId : LeaseId) : LeaseCall → Prop
  | .create _ id _ _ _ _ => id = leaseId
  | .checkExpiration _ id => id = leaseId
  | .renew _ id _ => id = leaseId
  | .revoke id => id = leaseId
  | .validate _ id => id = leaseId
  | _ => False

/-- The clock does not go back, and identifiers are new. -/
structure Plausible (calls : List LeaseCall) : Prop where
  timely : calls.Pairwise fun earlier later =>
    ∀ before ∈ earlier.reads, ∀ now ∈ later.reads, before ≤ now
  fresh : calls.Pairwise fun earlier later => ∀ id, later.Draws id → ¬ earlier.Names id

/-- Leases end within the longest time to live. -/
def LeaseManager.Bounded (manager : LeaseManager) : Prop :=
  ∀ (leaseId : LeaseId) lease, manager.leases[leaseId]? = some lease →
    lease.maxTtl = some manager.config.maxTtl ∧
      lease.expiresAt ≤ lease.createdAt + manager.config.maxTtl

def LeaseManager.Spent (leaseId : LeaseId) (past : Option Instant) (manager : LeaseManager) : Prop :=
  ∀ lease, manager.leases[leaseId]? = some lease →
    lease.revoked = true ∨ ∃ time ∈ past, lease.expiresAt ≤ time

def NeverValid (leaseId : LeaseId) (manager : LeaseManager) (calls : List LeaseCall) : Prop :=
  Along (fun manager call => ∀ now lease, call = .validate now leaseId →
    (manager.serve call).2 ≠ [.validated (.ok lease)]) LeaseManager.serve manager calls

section

variable {manager : LeaseManager}

variable {leaseId : LeaseId}

theorem validateLease_eq_ok {now : Instant} {lease : Lease}
    (valid : manager.validateLease now leaseId = .ok lease) :
    manager.leases[leaseId]? = some lease ∧ lease.revoked = false ∧ now < lease.expiresAt := by
  unfold LeaseManager.validateLease at valid
  split at valid
  · cases valid
  · rename_i found
    split at valid
    · cases valid
    · rename_i inForce
      split at valid
      · cases valid
      · rename_i early
        cases valid
        exact ⟨found, Bool.eq_false_iff.mpr inForce, Int.not_le.mp early⟩

theorem LeaseManager.Bounded.serve (bounded : manager.Bounded) (call : LeaseCall) :
    (manager.serve call).1.Bounded := by
  intro leaseId lease found
  rw [config_serve]
  have changes := serve_changes manager leaseId call
  rw [found] at changes
  generalize kept : manager.leases[leaseId]? = before at changes
  cases changes with
  | unchanged => exact bounded leaseId lease kept
  | created sameSecret limit atMost => exact ⟨limit, atMost⟩
  | @revoked _ old => exact bounded leaseId old kept
  | renewed inForce atMost =>
    obtain ⟨limit, -⟩ := bounded leaseId _ kept
    rw [limit] at atMost
    exact ⟨limit, atMost⟩

variable {past : Option Instant}

theorem LeaseManager.Spent.serve (spent : manager.Spent leaseId past) {call : LeaseCall}
    (other : ¬ call.Draws leaseId) (later : ∀ time ∈ past, ∀ now ∈ call.reads, time ≤ now) :
    (manager.serve call).1.Spent leaseId past := by
  intro lease found
  have changes := serve_changes manager leaseId call
  rw [found] at changes
  generalize kept : manager.leases[leaseId]? = before at changes
  cases changes with
  | unchanged => exact spent lease kept
  | created sameSecret limit atMost => exact absurd rfl other
  | revoked => exact .inl rfl
  | renewed inForce atMost =>
    -- What is renewed was in force at that time, so it was not spent before.
    rcases spent _ kept with ended | ⟨time, isPast, expired⟩
    · rw [inForce.1] at ended
      cases ended
    · have notBefore := later time isPast _ rfl
      exact absurd (Int.le_trans expired notBefore) (Int.not_le.mpr inForce.2)

theorem LeaseManager.Spent.not_valid (spent : manager.Spent leaseId past) {now : Instant}
    (later : ∀ time ∈ past, time ≤ now) (lease : Lease) :
    manager.validateLease now leaseId ≠ .ok lease := by
  intro valid
  obtain ⟨found, inForce, early⟩ := validateLease_eq_ok valid
  rcases spent lease found with ended | ⟨time, isPast, expired⟩
  · rw [inForce] at ended
    cases ended
  · exact absurd (Int.le_trans expired (later time isPast)) (Int.not_le.mpr early)

theorem LeaseManager.Spent.neverValid (spent : manager.Spent leaseId past) {calls : List LeaseCall}
    (others : ∀ call ∈ calls, ¬ call.Draws leaseId)
    (later : ∀ call ∈ calls, ∀ time ∈ past, ∀ now ∈ call.reads, time ≤ now) :
    NeverValid leaseId manager calls := by
  have allowed : Along (fun _ call => ¬ LeaseCall.Draws leaseId call ∧
      ∀ time ∈ past, ∀ now ∈ call.reads, time ≤ now) LeaseManager.serve manager calls :=
    .of_forall (fun _ call member => ⟨others call member, later call member⟩) manager
  apply Along.of_invariant (LeaseManager.Spent leaseId past) _ _ calls manager spent allowed
  · intro manager call spent allowed
    exact spent.serve allowed.1 allowed.2
  · intro manager call spent allowed now lease isValidate validated
    subst isValidate
    refine spent.not_valid (fun time isPast => allowed.2 time isPast now rfl) lease ?_
    simpa [LeaseManager.serve] using validated

theorem drawn_of_found {lease : Lease} {calls : List LeaseCall}
    (found : (trace LeaseManager.serve manager calls).1.leases[leaseId]? = some lease) :
    (∃ old, manager.leases[leaseId]? = some old) ∨ ∃ call ∈ calls, call.Draws leaseId := by
  induction calls generalizing manager with
  | nil => exact .inl ⟨lease, found⟩
  | cons call rest ih =>
    rcases ih found with ⟨old, before⟩ | ⟨other, member, draws⟩
    · have changes := serve_changes manager leaseId call
      rw [before] at changes
      generalize manager.leases[leaseId]? = kept at changes ⊢
      cases changes with
      | unchanged => exact .inl ⟨_, rfl⟩
      | created sameSecret limit atMost => exact .inr ⟨_, List.mem_cons_self, rfl⟩
      | revoked => exact .inl ⟨_, rfl⟩
      | renewed inForce atMost => exact .inl ⟨_, rfl⟩
    · exact .inr ⟨other, List.mem_cons_of_mem call member, draws⟩

end

def LeaseCall.Ends (leaseId : LeaseId) (manager : LeaseManager) (call : LeaseCall) : Prop :=
  (∃ now failure, call = .validate now leaseId ∧
    (manager.serve call).2 = [.validated (.error failure)]) ∨
  call = .revoke leaseId ∨
  ∃ lease, manager.leases[leaseId]? = some lease ∧ call = .revokeAll lease.secretId

theorem LeaseCall.Ends.spent {leaseId : LeaseId} {manager : LeaseManager} {call : LeaseCall}
    (ends : call.Ends leaseId manager) : (manager.serve call).1.Spent leaseId call.reads := by
  intro lease found
  rcases ends with ⟨now, failure, rfl, failed⟩ | rfl | ⟨before, known, rfl⟩
  · -- Validation fails on a lease that is there only if it is over.
    have kept : manager.leases[leaseId]? = some lease := found
    simp only [LeaseManager.serve, LeaseManager.validateLease, kept] at failed
    split at failed
    · rename_i ended
      exact .inl ended
    · split at failed
      · rename_i late
        exact .inr ⟨now, rfl, late⟩
      · cases failed
  · simp only [LeaseManager.serve, LeaseManager.revokeLease] at found
    cases known : manager.leases[leaseId]? with
    | none =>
      rw [known] at found
      cases known.symm.trans found
    | some before =>
      rw [known] at found
      simp only at found
      split at found
      · rename_i ended
        cases known.symm.trans found
        exact .inl ended
      · rw [LeaseManager.markRevoked, Dict.find_insert_self] at found
        cases found
        exact .inl rfl
  · simp only [LeaseManager.serve, LeaseManager.revokeAll] at found
    rw [Std.ExtTreeMap.getElem?_map, known, Option.map_some] at found
    cases ended : before.revoked with
    | true =>
      rw [if_neg (by simp [ended])] at found
      cases found
      exact .inl ended
    | false =>
      rw [if_pos ⟨rfl, ended⟩] at found
      cases found
      exact .inl rfl

/-- A lease is valid only within its longest time, and never again once it has ended. -/
theorem leases_end {config : LeaseConfig} {before later : List LeaseCall} {call : LeaseCall}
    (regular : Plausible (before ++ call :: later)) (leaseId : LeaseId) :
    (∀ now lease, call = .validate now leaseId →
      ((trace LeaseManager.serve (.new config) before).1.serve call).2 = [.validated (.ok lease)] →
        lease.maxTtl = some config.maxTtl ∧ now < lease.createdAt + config.maxTtl) ∧
    (call.Ends leaseId (trace LeaseManager.serve (.new config) before).1 →
      NeverValid leaseId ((trace LeaseManager.serve (.new config) before).1.serve call).1 later) := by
  have start : (LeaseManager.new config).Bounded ∧ (LeaseManager.new config).config = config :=
    ⟨fun leaseId lease found => by simp [LeaseManager.new] at found, rfl⟩
  have bounded := trace_invariant (fun manager _ => manager.Bounded ∧ manager.config = config)
    (fun manager _ call inv _ => ⟨inv.1.serve call, (config_serve manager call).trans inv.2⟩)
    before (LeaseManager.new config) [] start (Along.of_forall (fun _ _ _ => trivial) _)
  constructor
  · rintro now lease rfl validated
    have valid : (trace LeaseManager.serve (.new config) before).1.validateLease now leaseId =
        .ok lease := by
      simpa [LeaseManager.serve] using validated
    obtain ⟨found, -, early⟩ := validateLease_eq_ok valid
    obtain ⟨limit, atMost⟩ := bounded.1 leaseId lease found
    rw [bounded.2] at limit atMost
    exact ⟨limit, Int.lt_of_lt_of_le early atMost⟩
  · intro ends
    have timely := (List.pairwise_append.mp regular.timely).2.1
    have fresh := List.pairwise_append.mp regular.fresh
    refine ends.spent.neverValid (fun other member draws => ?_) fun other member time isPast =>
      (List.pairwise_cons.mp timely).1 other member time isPast
    -- The identifier was named before, by this call or by the one that drew it.
    rcases ends with ⟨now, failure, rfl, -⟩ | rfl | ⟨lease, known, rfl⟩
    · exact (List.pairwise_cons.mp fresh.2.1).1 other member leaseId draws rfl
    · exact (List.pairwise_cons.mp fresh.2.1).1 other member leaseId draws rfl
    · rcases drawn_of_found known with ⟨old, found⟩ | ⟨earlier, isBefore, drew⟩
      · simp [LeaseManager.new] at found
      · refine fresh.2.2 earlier isBefore other (List.mem_cons_of_mem _ member) leaseId draws ?_
        cases earlier <;> first | exact drew | exact drew.elim

theorem leases_end_revoked :
    NeverValid "4be5" ((trace LeaseManager.serve (.new {})
      [.create 1700000000000000000 "4be5" "b9c0" 1 "alice" none]).1.serve (.revoke "4be5")).1
      [.validate 1700000000000000001 "4be5"] := by
  refine (leases_end ⟨?_, ?_⟩ "4be5").2 (.inr (.inl rfl))
  · simp [LeaseCall.reads]
  · simp [LeaseCall.Draws]

end Hsm.Secrets
