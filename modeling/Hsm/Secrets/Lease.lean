import Hsm.Lib.Run
import Hsm.Secrets.Secret

/-! Leases on secrets: how they are created, renewed, revoked, validated and cleaned up. -/

namespace Hsm.Secrets

abbrev LeaseId := String

structure Lease where
  id : LeaseId
  secretId : SecretId
  version : UInt32
  clientId : String
  createdAt : Instant
  expiresAt : Instant
  revoked : Bool
  renewable : Bool
  maxTtl : Option Span
  deriving DecidableEq, Repr

structure LeaseConfig where
  defaultTtl : Span := 60 * 60 * 10 ^ 9
  maxTtl : Span := 24 * 60 * 60 * 10 ^ 9
  renewable : Bool := true
  deriving DecidableEq, Repr

inductive LeaseError where
  | notFound
  | revoked
  | expired
  | notRenewable
  deriving DecidableEq, Repr

/-- Active leases; expiration checks run later. -/
structure LeaseManager where
  leases : Dict LeaseId Lease
  config : LeaseConfig
  scheduled : List LeaseId

namespace LeaseManager

def new (config : LeaseConfig) : LeaseManager := ⟨∅, config, []⟩

variable (manager : LeaseManager)

def createLease (now : Instant) (id : LeaseId) (secretId : SecretId) (version : UInt32)
    (clientId : String) (ttl : Option Span) : Option (Lease × LeaseManager) := do
  let ttl := min (ttl.getD manager.config.defaultTtl) manager.config.maxTtl
  let expiresAt ← now.plus ttl
  let lease : Lease :=
    ⟨id, secretId, version, clientId, now, expiresAt, false, manager.config.renewable,
      some manager.config.maxTtl⟩
  return (lease,
    { manager with
      leases := manager.leases.insert id lease
      scheduled := manager.scheduled ++ [id] })

def markRevoked (leaseId : LeaseId) (lease : Lease) : LeaseManager :=
  { manager with leases := manager.leases.insert leaseId { lease with revoked := true } }

def checkExpiration (now : Instant) (leaseId : LeaseId) : LeaseManager :=
  if manager.scheduled.contains leaseId then
    let manager := { manager with scheduled := manager.scheduled.erase leaseId }
    match manager.leases[leaseId]? with
    | none => manager
    | some lease =>
      if lease.revoked = false ∧ now ≥ lease.expiresAt then manager.markRevoked leaseId lease
      else manager
  else manager

def renewLease (now : Instant) (leaseId : LeaseId) (increment : Option Span) :
    Option (Except LeaseError Lease × LeaseManager) :=
  match manager.leases[leaseId]? with
  | none => some (.error .notFound, manager)
  | some lease =>
    if lease.revoked then some (.error .revoked, manager)
    else if lease.renewable = false then some (.error .notRenewable, manager)
    else if now ≥ lease.expiresAt then some (.error .expired, manager.markRevoked leaseId lease)
    else do
      let newExpires ← now.plus (increment.getD manager.config.defaultTtl)
      let maxExpires ← lease.createdAt.plus (lease.maxTtl.getD manager.config.maxTtl)
      let renewed := { lease with expiresAt := min newExpires maxExpires }
      return (.ok renewed,
        { manager with
          leases := manager.leases.insert leaseId renewed
          scheduled := if renewed.expiresAt > now then manager.scheduled ++ [leaseId]
            else manager.scheduled })

def revokeLease (leaseId : LeaseId) : Except LeaseError Unit × LeaseManager :=
  match manager.leases[leaseId]? with
  | none => (.error .notFound, manager)
  | some lease =>
    if lease.revoked then (.ok (), manager) else (.ok (), manager.markRevoked leaseId lease)

def revokeAll (secretId : SecretId) : Nat × LeaseManager :=
  (manager.leases.values.countP fun lease => lease.secretId = secretId ∧ lease.revoked = false,
    { manager with
      leases := manager.leases.map fun _ lease =>
        if lease.secretId = secretId ∧ lease.revoked = false then { lease with revoked := true }
        else lease })

def validateLease (now : Instant) (leaseId : LeaseId) :
    Except LeaseError Lease :=
  match manager.leases[leaseId]? with
  | none => .error .notFound
  | some lease =>
    if lease.revoked then .error .revoked
    else if now ≥ lease.expiresAt then .error .expired
    else .ok lease

def cleanupExpired (now : Instant) : Nat × LeaseManager :=
  (manager.leases.values.countP fun lease => lease.revoked = true ∨ now ≥ lease.expiresAt,
    { manager with
      leases := manager.leases.filter fun _ lease =>
        ¬ (lease.revoked = true ∨ now ≥ lease.expiresAt) })

end LeaseManager

/-- A call, or the end of a scheduled sleep. -/
inductive LeaseCall where
  | create (now : Instant) (id : LeaseId) (secretId : SecretId) (version : UInt32)
    (clientId : String) (ttl : Option Span)
  | checkExpiration (now : Instant) (leaseId : LeaseId)
  | renew (now : Instant) (leaseId : LeaseId) (increment : Option Span)
  | revoke (leaseId : LeaseId)
  | revokeAll (secretId : SecretId)
  | validate (now : Instant) (leaseId : LeaseId)
  | cleanupExpired (now : Instant)

inductive LeaseReply where
  | created (lease : Lease)
  | checked
  | renewed (result : Except LeaseError Lease)
  | revoked (result : Except LeaseError Unit)
  | count (leases : Nat)
  | validated (result : Except LeaseError Lease)
  | panicked

/-- A call that panics changes nothing. -/
def LeaseManager.serve (manager : LeaseManager) : LeaseCall → LeaseManager × List LeaseReply
  | .create now id secretId version clientId ttl =>
    match manager.createLease now id secretId version clientId ttl with
    | some (lease, after) => (after, [.created lease])
    | none => (manager, [.panicked])
  | .checkExpiration now leaseId => (manager.checkExpiration now leaseId, [.checked])
  | .renew now leaseId increment =>
    match manager.renewLease now leaseId increment with
    | some (result, after) => (after, [.renewed result])
    | none => (manager, [.panicked])
  | .revoke leaseId =>
    let (result, after) := manager.revokeLease leaseId
    (after, [.revoked result])
  | .revokeAll secretId =>
    let (count, after) := manager.revokeAll secretId
    (after, [.count count])
  | .validate now leaseId => (manager, [.validated (manager.validateLease now leaseId)])
  | .cleanupExpired now =>
    let (count, after) := manager.cleanupExpired now
    (after, [.count count])

end Hsm.Secrets
