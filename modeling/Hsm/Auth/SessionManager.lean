import Hsm.Auth.Error
import Hsm.Auth.Session
import Hsm.Lib.Dict
import Hsm.Lib.Worklist

/-! The session manager: creation, delegation, validation, rotation and revocation of sessions. -/

namespace Hsm.Auth

structure SessionManager where
  sessions : Dict String Session
  templates : Dict String SessionTemplate
  rateLimiters : Dict String RateLimiterState
  defaultTtl : Int

namespace SessionManager

def new (defaultTtlSeconds : Int) : SessionManager where
  sessions := ∅
  templates := ∅
  rateLimiters := ∅
  defaultTtl := defaultTtlSeconds

variable (manager : SessionManager)

def limitRate (now : Instant) (sessionId : String) (rateLimit : Option Nat) : SessionManager :=
  match rateLimit with
  | some limit =>
    { manager with rateLimiters := manager.rateLimiters.insert sessionId ⟨0, now, limit⟩ }
  | none => manager

def store (session : Session) : SessionManager :=
  { manager with sessions := manager.sessions.insert session.id session }

/-- Create a session; no result means a panic, here and below. -/
def createSession (now : Instant) (draw : SessionDraw) (identity : ClientIdentity) :
    Option (SessionManager × SessionCreationResult) :=
  (Session.create now draw identity manager.defaultTtl).map fun result =>
    (manager.store result.session, result)

def createSessionWithMetadata (now : Instant) (draw : SessionDraw) (identity : ClientIdentity)
    (clientIp userAgent tlsFingerprint : Option String) :
    Option (SessionManager × SessionCreationResult) :=
  (Session.newWithMetadata now draw identity manager.defaultTtl clientIp userAgent tlsFingerprint).map
    fun result => (manager.store result.session, result)

def createScopedSession (now : Instant) (draw : SessionDraw) (identity : ClientIdentity)
    (scope : SessionScope) (ttlSeconds : Option Int) :
    Option (SessionManager × SessionCreationResult) :=
  (Session.createWithScope now draw identity (ttlSeconds.getD manager.defaultTtl) scope).map
    fun result =>
      ((manager.limitRate now result.session.id scope.rateLimit).store result.session, result)

def createSessionFromTemplate (now : Instant) (draw : SessionDraw) (identity : ClientIdentity)
    (templateId : String) :
    Option (SessionManager × Except AuthError SessionCreationResult) :=
  match manager.templates[templateId]? with
  | none => some (manager, .error (.invalidSession ("Template not found: " ++ templateId)))
  | some template =>
    (Session.createFromTemplate now draw identity template).map fun result =>
      ((manager.limitRate now result.session.id template.scope.rateLimit).store result.session,
        .ok result)

structure DelegationTimes where
  checked : Instant
  measured : Instant
  created : Instant
  deriving DecidableEq, Repr

/-- The readings of the clock at each session of a table. -/
structure SweepTimes where
  listed : Session → Instant
  retained : Session → Instant

variable (parent : Session)

def effectiveTtl (measured : Instant) (ttlSeconds : Int) : Int :=
  let parentRemaining := max ((parent.expiresAt - measured).tdiv (seconds 1)) 0
  min ttlSeconds parentRemaining

def effectiveScope (restrictedScope : SessionScope) : SessionScope :=
  match parent.scope with
  | some parentScope => parentScope.intersect restrictedScope
  | none => restrictedScope

def isRestriction (restrictedScope : SessionScope) : Bool :=
  match parent.scope with
  | some parentScope => restrictedScope.isSubsetOf parentScope
  | none => true

def delegated (created : Instant) (draw : SessionDraw) (parentSessionId : String)
    (restrictedScope : SessionScope) (expiresAt : Instant) : Session where
  id := Session.generateSessionId draw.id
  identity := parent.identity
  createdAt := created
  lastAccessed := created
  expiresAt
  tokenHash := HashedToken.fromToken (SessionToken.new draw.token)
  operationCount := 0
  tlsFingerprint := parent.tlsFingerprint
  clientIp := parent.clientIp
  userAgent := parent.userAgent
  scope := some (effectiveScope parent restrictedScope)
  parentSessionId := some parentSessionId
  delegationDepth := parent.delegationDepth + 1
  maxDelegationDepth := parent.maxDelegationDepth
  allowDelegation := parent.remainingDelegationDepth > 1
  templateId := parent.templateId

def delegateSession (times : DelegationTimes) (draw : SessionDraw) (parentSessionId : String)
    (restrictedScope : SessionScope) (ttlSeconds : Int) :
    Option (SessionManager × Except AuthError SessionCreationResult) :=
  match manager.sessions[parentSessionId]? with
  | none => some (manager, .error (.invalidSession "Parent session not found"))
  | some parent =>
    if !parent.canDelegate then
      some (manager, .error (.unauthorized "Session cannot delegate"))
    else if parent.isExpired times.checked then some (manager, .error .sessionExpired)
    else if !isRestriction parent restrictedScope then
      some (manager, .error (.unauthorized "Delegated scope must be subset of parent scope"))
    else
      (times.created.plus (seconds (effectiveTtl parent times.measured ttlSeconds))).map
        fun expiresAt =>
          let session :=
            delegated parent times.created draw parentSessionId restrictedScope expiresAt
          ((manager.limitRate times.created session.id
              (effectiveScope parent restrictedScope).rateLimit).store session,
            .ok ⟨session, SessionToken.new draw.token⟩)

def checkRate (now : Instant) (sessionId : String) :
    SessionManager × Bool :=
  match manager.rateLimiters[sessionId]? with
  | some limiter =>
    let (limiter, allowed) := limiter.checkAndIncrement now
    ({ manager with rateLimiters := manager.rateLimiters.insert sessionId limiter }, allowed)
  | none => (manager, true)

def validateScopedSession (now : Instant) (sessionId token : String) (operation : Option Permission)
    (keyId : Option String) :
    SessionManager × Except AuthError Session :=
  match manager.sessions[sessionId]? with
  | none => (manager, .error (.invalidSession "Session not found"))
  | some session =>
    if session.isExpired now then (manager, .error .sessionExpired)
    else if !session.verifyToken token then
      (manager, .error (.invalidSession "Invalid session token"))
    else if session.isOperationLimitReached then
      (manager, .error (.invalidSession "Operation limit reached"))
    else
      let (manager, allowed) := manager.checkRate now sessionId
      if !allowed then (manager, .error .rateLimited)
      else
        match operation.filter (!session.isOperationAllowed ·) with
        | some operation => (manager, .error (.permissionDenied
            ("Operation " ++ operation.asStr ++ " not allowed by session scope")))
        | none =>
          match keyId.filter (!session.isKeyAllowed ·) with
          | some key => (manager, .error (.permissionDenied
              ("Key " ++ key ++ " not allowed by session scope")))
          | none =>
            let session := session.incrementOperation.touch now
            ({ manager with sessions := manager.sessions.insert sessionId session }, .ok session)

def registerTemplate (template : SessionTemplate) :
    SessionManager × Except AuthError Unit :=
  if template.id ∈ manager.templates then
    (manager, .error (.invalidSession ("Template already exists: " ++ template.id)))
  else ({ manager with templates := manager.templates.insert template.id template }, .ok ())

def updateTemplate (template : SessionTemplate) :
    SessionManager × Except AuthError Unit :=
  if template.id ∉ manager.templates then
    (manager, .error (.invalidSession ("Template not found: " ++ template.id)))
  else ({ manager with templates := manager.templates.insert template.id template }, .ok ())

def deleteTemplate (templateId : String) :
    SessionManager × Except AuthError Unit :=
  if templateId ∉ manager.templates then
    (manager, .error (.invalidSession ("Template not found: " ++ templateId)))
  else ({ manager with templates := manager.templates.erase templateId }, .ok ())

def children (sessionId : String) : List String :=
  (manager.sessions.toList.filter (·.2.parentSessionId = some sessionId)).map (·.2.id)

def revoke (progress : SessionManager × Nat) (id : String) : SessionManager × Nat :=
  let (manager, revoked) := progress
  if id ∈ manager.sessions then
    ({ manager with
        sessions := manager.sessions.erase id
        rateLimiters := manager.rateLimiters.erase id }, revoked + 1)
  else (manager, revoked)

/-- Revoke a session and its children by a worklist; no result means that it does not end. -/
def revokeSessionCascade (sessionId : String) :
    Option (SessionManager × Nat) :=
  (worklist manager.children (manager.sessions.size + 2) [] [sessionId]).map fun ids =>
    ids.foldl revoke (manager, 0)

def withSession {α : Type} (manager : SessionManager) (sessionId : String)
    (act : Session → Session × Except AuthError α) : SessionManager × Except AuthError α :=
  match manager.sessions[sessionId]? with
  | none => (manager, .error (.invalidSession "Session not found"))
  | some session =>
    ({ manager with sessions := manager.sessions.insert sessionId (act session).1 },
      (act session).2)

end SessionManager

namespace Session

def validate (now : Instant) (session : Session) : Session × Except AuthError Session :=
  if session.isExpired now then (session, .error .sessionExpired)
  else (session.touch now, .ok (session.touch now))

def validateWithToken (now : Instant) (token : String) (session : Session) :
    Session × Except AuthError Session :=
  if session.isExpired now then (session, .error .sessionExpired)
  else if !session.verifyToken token then
    (session, .error (.invalidSession "Invalid session token"))
  else (session.incrementOperation.touch now, .ok (session.incrementOperation.touch now))

def mismatch (stored current : Option String) : Bool :=
  match stored, current with
  | some stored, some current => stored ≠ current
  | _, _ => false

def validateWithMetadata (now : Instant) (token : String)
    (clientIp userAgent tlsFingerprint : Option String) (session : Session) :
    Session × Except AuthError Session :=
  if session.isExpired now then (session, .error .sessionExpired)
  else if !session.verifyToken token then
    (session, .error (.invalidSession "Invalid session token"))
  else if mismatch session.clientIp clientIp then
    (session, .error (.invalidSession "Session validation failed"))
  else if mismatch session.userAgent userAgent then
    (session, .error (.invalidSession "Session validation failed"))
  else if mismatch session.tlsFingerprint tlsFingerprint then
    (session, .error (.invalidSession "Session validation failed"))
  else (session.incrementOperation.touch now, .ok (session.incrementOperation.touch now))

end Session

namespace SessionManager

variable (manager : SessionManager)

def validateSession (now : Instant) (sessionId : String) :
    SessionManager × Except AuthError Session :=
  manager.withSession sessionId (Session.validate now)

def validateSessionWithToken (now : Instant) (sessionId token : String) :
    SessionManager × Except AuthError Session :=
  manager.withSession sessionId (Session.validateWithToken now token)

def validateSessionWithMetadata (now : Instant) (sessionId token : String)
    (clientIp userAgent tlsFingerprint : Option String) :
    SessionManager × Except AuthError Session :=
  manager.withSession sessionId
    (Session.validateWithMetadata now token clientIp userAgent tlsFingerprint)

def deleteSession (sessionId : String) :
    SessionManager × Except AuthError Unit :=
  if sessionId ∉ manager.sessions then (manager, .error (.invalidSession "Session not found"))
  else
    ({ manager with
        sessions := manager.sessions.erase sessionId
        rateLimiters := manager.rateLimiters.erase sessionId }, .ok ())

def extendSession (sessionId : String) (additionalSeconds : Int) :
    Option (SessionManager × Except AuthError Unit) :=
  match manager.sessions[sessionId]? with
  | none => some (manager, .error (.invalidSession "Session not found"))
  | some session =>
    (session.extend additionalSeconds).map fun extended =>
      ({ manager with sessions := manager.sessions.insert sessionId extended }, .ok ())

def rotateSessionToken (drawn : Bytes) (sessionId : String) :
    SessionManager × Except AuthError String :=
  manager.withSession sessionId fun session =>
    ((session.rotateToken drawn).1, .ok (session.rotateToken drawn).2)

def rotateClientTokens (drawn : String → Bytes) (clientCn : String) :
    SessionManager × List (String × String) :=
  ({ manager with sessions := manager.sessions.map fun id session =>
      if session.identity.commonName = clientCn then (session.rotateToken (drawn id)).1
      else session },
    (manager.sessions.toList.filter (·.2.identity.commonName = clientCn)).map fun entry =>
      (entry.2.id, (entry.2.rotateToken (drawn entry.1)).2))

/-- The clock is read at each session, first to list the expired ones and then to remove them. -/
def cleanupExpired (times : SweepTimes) : SessionManager × Nat :=
  let expired := manager.sessions.toList.filter fun entry =>
    entry.2.isExpired (times.listed entry.2)
  let expiredIds := expired.map (·.2.id)
  let kept := manager.sessions.filter fun _ session => !session.isExpired (times.retained session)
  ({ manager with
      sessions := kept
      rateLimiters := expiredIds.foldl (fun limiters id => limiters.erase id) manager.rateLimiters },
    manager.sessions.size - kept.size)

def deleteClientSessions (clientCn : String) : SessionManager × Nat :=
  let kept := manager.sessions.filter fun _ session => session.identity.commonName ≠ clientCn
  ({ manager with sessions := kept }, manager.sessions.size - kept.size)

end SessionManager

/-- Calls of the session manager, with clock readings and draws. -/
inductive SessionCall where
  | create (now : Instant) (draw : SessionDraw) (identity : ClientIdentity)
  | createWithMetadata (now : Instant) (draw : SessionDraw) (identity : ClientIdentity)
      (clientIp userAgent tlsFingerprint : Option String)
  | createScoped (now : Instant) (draw : SessionDraw) (identity : ClientIdentity)
      (scope : SessionScope) (ttlSeconds : Option Int)
  | createFromTemplate (now : Instant) (draw : SessionDraw) (identity : ClientIdentity)
      (templateId : String)
  | delegate (times : SessionManager.DelegationTimes) (draw : SessionDraw)
      (parentSessionId : String) (restrictedScope : SessionScope) (ttlSeconds : Int)
  | validateScoped (now : Instant) (sessionId token : String) (operation : Option Permission)
      (keyId : Option String)
  | validate (now : Instant) (sessionId : String)
  | validateWithToken (now : Instant) (sessionId token : String)
  | validateWithMetadata (now : Instant) (sessionId token : String)
      (clientIp userAgent tlsFingerprint : Option String)
  | registerTemplate (template : SessionTemplate)
  | updateTemplate (template : SessionTemplate)
  | deleteTemplate (templateId : String)
  | revokeCascade (sessionId : String)
  | delete (sessionId : String)
  | extend (now : Instant) (sessionId : String) (additionalSeconds : Int)
  | rotateToken (drawn : Bytes) (sessionId : String)
  | rotateClientTokens (drawn : String → Bytes) (clientCn : String)
  | cleanupExpired (times : SessionManager.SweepTimes)
  | deleteClientSessions (clientCn : String)

inductive SessionReply where
  | created (result : Except AuthError SessionCreationResult)
  | validated (result : Except AuthError Session)
  | done (result : Except AuthError Unit)
  | rotated (result : Except AuthError String)
  | rotatedAll (tokens : List (String × String))
  | counted (count : Nat)
  | panicked
  | neverReturned
  deriving DecidableEq

abbrev SessionEvent := SessionCall × SessionReply

def SessionManager.settle {α : Type} (manager : SessionManager) (failure : SessionReply)
    (reply : α → SessionReply) (outcome : Option (SessionManager × α)) :
    SessionManager × SessionReply :=
  match outcome with
  | some (next, result) => (next, reply result)
  | none => (manager, failure)

def SessionManager.answer (manager : SessionManager) : SessionCall → SessionManager × SessionReply
  | .create now draw identity =>
    manager.settle .panicked (.created ∘ .ok) (manager.createSession now draw identity)
  | .createWithMetadata now draw identity clientIp userAgent tlsFingerprint =>
    manager.settle .panicked (.created ∘ .ok)
      (manager.createSessionWithMetadata now draw identity clientIp userAgent tlsFingerprint)
  | .createScoped now draw identity scope ttlSeconds =>
    manager.settle .panicked (.created ∘ .ok)
      (manager.createScopedSession now draw identity scope ttlSeconds)
  | .createFromTemplate now draw identity templateId =>
    manager.settle .panicked .created
      (manager.createSessionFromTemplate now draw identity templateId)
  | .delegate times draw parentSessionId restrictedScope ttlSeconds =>
    manager.settle .panicked .created
      (manager.delegateSession times draw parentSessionId restrictedScope ttlSeconds)
  | .validateScoped now sessionId token operation keyId =>
    (manager.validateScopedSession now sessionId token operation keyId).map id .validated
  | .validate now sessionId => (manager.validateSession now sessionId).map id .validated
  | .validateWithToken now sessionId token =>
    (manager.validateSessionWithToken now sessionId token).map id .validated
  | .validateWithMetadata now sessionId token clientIp userAgent tlsFingerprint =>
    (manager.validateSessionWithMetadata now sessionId token clientIp userAgent tlsFingerprint).map
      id .validated
  | .registerTemplate template => (manager.registerTemplate template).map id .done
  | .updateTemplate template => (manager.updateTemplate template).map id .done
  | .deleteTemplate templateId => (manager.deleteTemplate templateId).map id .done
  | .revokeCascade sessionId =>
    manager.settle .neverReturned .counted (manager.revokeSessionCascade sessionId)
  | .delete sessionId => (manager.deleteSession sessionId).map id .done
  | .extend _ sessionId additionalSeconds =>
    manager.settle .panicked .done (manager.extendSession sessionId additionalSeconds)
  | .rotateToken drawn sessionId => (manager.rotateSessionToken drawn sessionId).map id .rotated
  | .rotateClientTokens drawn clientCn =>
    (manager.rotateClientTokens drawn clientCn).map id .rotatedAll
  | .cleanupExpired times => (manager.cleanupExpired times).map id .counted
  | .deleteClientSessions clientCn => (manager.deleteClientSessions clientCn).map id .counted

def SessionManager.serve (manager : SessionManager) (call : SessionCall) :
    SessionManager × List SessionEvent :=
  ((manager.answer call).1, [(call, (manager.answer call).2)])

end Hsm.Auth
