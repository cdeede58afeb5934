import Hsm.Lib.Clock
import Hsm.Lib.Sha256
import Hsm.Lib.Text

/-! Client sessions: what they may do, for how long, and on whose behalf. -/

namespace Hsm.Auth

inductive Permission where
  | generateKey
  | importKey
  | deleteKey
  | sign
  | encrypt
  | decrypt
  | rotateKey
  | viewMetadata
  | viewAuditLogs
  | exportKey
  | manageNamespaces
  | manageWebhooks
  | manageAcls
  | manageRoles
  | backupKeys
  | restoreKeys
  deriving DecidableEq, Repr

def Permission.asStr : Permission → String
  | .generateKey => "generate_key"
  | .importKey => "import_key"
  | .deleteKey => "delete_key"
  | .sign => "sign"
  | .encrypt => "encrypt"
  | .decrypt => "decrypt"
  | .rotateKey => "rotate_key"
  | .viewMetadata => "view_metadata"
  | .viewAuditLogs => "view_audit_logs"
  | .exportKey => "export_key"
  | .manageNamespaces => "manage_namespaces"
  | .manageWebhooks => "manage_webhooks"
  | .manageAcls => "manage_acls"
  | .manageRoles => "manage_roles"
  | .backupKeys => "backup_keys"
  | .restoreKeys => "restore_keys"

inductive Role where
  | admin
  | operator
  | user
  | auditor
  deriving DecidableEq, Repr

structure ClientIdentity where
  commonName : String
  organization : Option String
  namespace_ : String
  roles : List Role
  serialNumber : String
  deriving DecidableEq, Repr

/-- What a session may do; nothing given means no restriction. -/
structure SessionScope where
  allowedOperations : Option (List Permission) := none
  allowedKeys : Option (List String) := none
  maxOperations : Option Nat := none
  rateLimit : Option Nat := none
  allowedNamespaces : Option (List String) := none
  deriving DecidableEq, Repr

namespace SessionScope

section

variable {α : Type} [DecidableEq α]

def allows (allowed : Option (List α)) (item : α) : Bool :=
  match allowed with
  | some items => items.contains item
  | none => true

def within (child parent : Option (List α)) : Bool :=
  match child, parent with
  | some childItems, some parentItems => childItems.all parentItems.contains
  | _, _ => true

/-- What both of two lists allow. -/
def intersectLists : Option (List α) → Option (List α) → Option (List α)
  | some a, some b => some (a.filter b.contains)
  | some a, none => some a
  | none, some b => some b
  | none, none => none

end

def atMost (child parent : Option Nat) : Bool :=
  match child, parent with
  | some childMax, some parentMax => childMax ≤ parentMax
  | _, _ => true

def intersectLimits : Option Nat → Option Nat → Option Nat
  | some a, some b => some (min a b)
  | some a, none => some a
  | none, some b => some b
  | none, none => none

variable (scope : SessionScope)

def isOperationAllowed : Permission → Bool := allows scope.allowedOperations

def isKeyAllowed : String → Bool := allows scope.allowedKeys

def isNamespaceAllowed : String → Bool := allows scope.allowedNamespaces

/-- Whether a scope is narrower; namespaces are not looked at. -/
def isSubsetOf (scope parent : SessionScope) : Bool :=
  within scope.allowedOperations parent.allowedOperations &&
    within scope.allowedKeys parent.allowedKeys &&
    atMost scope.maxOperations parent.maxOperations &&
    atMost scope.rateLimit parent.rateLimit

def intersect (scope other : SessionScope) : SessionScope where
  allowedOperations := intersectLists scope.allowedOperations other.allowedOperations
  allowedKeys := intersectLists scope.allowedKeys other.allowedKeys
  maxOperations := intersectLimits scope.maxOperations other.maxOperations
  rateLimit := intersectLimits scope.rateLimit other.rateLimit
  allowedNamespaces := intersectLists scope.allowedNamespaces other.allowedNamespaces

end SessionScope

structure SessionTemplate where
  id : String
  scope : SessionScope := {}
  defaultTtlSeconds : Int := 3600
  allowDelegation : Bool := false
  maxDelegationDepth : Nat := 0
  deriving DecidableEq, Repr

def SessionToken.new (drawn : Bytes) : String := hexEncode drawn

def HashedToken.fromToken (token : String) : Bytes := sha256 (asBytes token)

structure Session where
  id : String
  identity : ClientIdentity
  createdAt : Instant
  lastAccessed : Instant
  expiresAt : Instant
  tokenHash : Bytes
  /-- Counted without the bound of 2 ^ 64, which no session comes near. -/
  operationCount : Nat
  tlsFingerprint : Option String
  clientIp : Option String
  userAgent : Option String
  scope : Option SessionScope
  parentSessionId : Option String
  delegationDepth : Nat
  maxDelegationDepth : Nat
  allowDelegation : Bool
  templateId : Option String
  deriving DecidableEq, Repr

structure SessionDraw where
  id : Bytes
  token : Bytes
  deriving DecidableEq, Repr

structure SessionCreationResult where
  session : Session
  token : String
  deriving DecidableEq, Repr

namespace Session

def generateSessionId (drawn : Bytes) : String := hexEncode (sha256 drawn)

variable (now : Instant)

/-- A lifetime beyond all dates panics. -/
def create (draw : SessionDraw) (identity : ClientIdentity) (ttlSeconds : Int) :
    Option SessionCreationResult :=
  (now.plus (seconds ttlSeconds)).map fun expiresAt =>
    let token := SessionToken.new draw.token
    { session := {
        id := generateSessionId draw.id
        identity
        createdAt := now
        lastAccessed := now
        expiresAt
        tokenHash := HashedToken.fromToken token
        operationCount := 0
        tlsFingerprint := none
        clientIp := none
        userAgent := none
        scope := none
        parentSessionId := none
        delegationDepth := 0
        maxDelegationDepth := 0
        allowDelegation := false
        templateId := none }
      token }

def createWithScope (draw : SessionDraw) (identity : ClientIdentity) (ttlSeconds : Int)
    (scope : SessionScope) : Option SessionCreationResult :=
  (create now draw identity ttlSeconds).map fun result =>
    { result with session.scope := some scope }

def createFromTemplate (draw : SessionDraw) (identity : ClientIdentity) (template : SessionTemplate)
    : Option SessionCreationResult :=
  (create now draw identity template.defaultTtlSeconds).map fun result => { result with
    session.scope := some template.scope
    session.allowDelegation := template.allowDelegation
    session.maxDelegationDepth := template.maxDelegationDepth
    session.templateId := some template.id }

def newWithMetadata (draw : SessionDraw) (identity : ClientIdentity) (ttlSeconds : Int)
    (clientIp userAgent tlsFingerprint : Option String) :
    Option SessionCreationResult :=
  (create now draw identity ttlSeconds).map fun result => { result with
    session.clientIp := clientIp
    session.userAgent := userAgent
    session.tlsFingerprint := tlsFingerprint }

def isOperationAllowed (session : Session) (operation : Permission) : Bool :=
  match session.scope with
  | some scope => scope.isOperationAllowed operation
  | none => true

def isKeyAllowed (session : Session) (keyId : String) : Bool :=
  match session.scope with
  | some scope => scope.isKeyAllowed keyId
  | none => true

def isNamespaceAllowed (session : Session) (name : String) : Bool :=
  match session.scope with
  | some scope => scope.isNamespaceAllowed name
  | none => true

variable (session : Session)

def canDelegate : Bool :=
  session.allowDelegation && session.delegationDepth < session.maxDelegationDepth

def remainingDelegationDepth : Nat :=
  if !session.allowDelegation then 0
  else session.maxDelegationDepth - session.delegationDepth

def isOperationLimitReached : Bool :=
  match session.scope with
  | some scope =>
    match scope.maxOperations with
    | some maxOps => session.operationCount ≥ maxOps
    | none => false
  | none => false

def verifyToken (token : String) : Bool :=
  session.tokenHash = HashedToken.fromToken token

def incrementOperation : Session :=
  { session with operationCount := session.operationCount + 1 }

def rotateToken (drawn : Bytes) (session : Session) : Session × String :=
  ({ session with
      tokenHash := HashedToken.fromToken (SessionToken.new drawn)
      operationCount := 0 }, SessionToken.new drawn)

def isExpired (now : Instant) : Bool := now > session.expiresAt

def touch (session : Session) : Session := { session with lastAccessed := now }

def extend (additionalSeconds : Int) : Option Session :=
  (session.expiresAt.plus (seconds additionalSeconds)).map fun expiresAt =>
    { session with expiresAt }

end Session

structure RateLimiterState where
  operations : Nat
  windowStart : Instant
  limit : Nat
  deriving DecidableEq, Repr

def RateLimiterState.checkAndIncrement (now : Instant) (limiter : RateLimiterState) :
    RateLimiterState × Bool :=
  if (now - limiter.windowStart).tdiv (seconds 1) ≥ 1 then
    ({ limiter with windowStart := now, operations := 1 }, true)
  else if limiter.operations ≥ limiter.limit then (limiter, false)
  else ({ limiter with operations := limiter.operations + 1 }, true)

end Hsm.Auth
