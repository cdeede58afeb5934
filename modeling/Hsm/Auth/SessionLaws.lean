import Hsm.Auth.SessionManager
import Hsm.Lib.Run

/-! What a call of the session manager can do to a session. -/

namespace Hsm.Auth

open SessionManager

/-- A call was answered with a new session. -/
def SessionEvent.Creates (session : Session) (event : SessionEvent) : Prop :=
  ∃ token, event.2 = .created (.ok ⟨session, token⟩)

def SessionEvent.CreatesAt (sessionId : String) (event : SessionEvent) : Prop :=
  ∃ session, event.Creates session ∧ session.id = sessionId

/-- A validation of the scope succeeded, and counts as an operation. -/
inductive SessionEvent.Uses (sessionId : String) : SessionEvent → Prop where
  | inScope (now : Instant) (token : String) (operation : Option Permission) (keyId : Option String)
      (session : Session) :
    Uses sessionId (.validateScoped now sessionId token operation keyId, .validated (.ok session))

def SessionReply.isCreation : SessionReply → Bool
  | .created _ => true
  | _ => false

def SessionCall.isScopedValidation : SessionCall → Bool
  | .validateScoped .. => true
  | _ => false

/-- The calls that may remove sessions. -/
def SessionCall.removes : SessionCall → Bool
  | .revokeCascade _ => true
  | .delete _ => true
  | .cleanupExpired _ => true
  | .deleteClientSessions _ => true
  | _ => false

def SessionCall.Rotates (session : Session) (sessionId : String) : SessionCall → Prop
  | .rotateToken _ id => id = sessionId
  | .rotateClientTokens _ clientCn => session.identity.commonName = clientCn
  | _ => False

/-- What one call may do to the session under one identifier. -/
inductive SessionChange (sessionId : String) :
    SessionEvent → Option Session → Option Session → Prop where
  | kept {event : SessionEvent} {old : Option Session} (createsNot : ¬ event.CreatesAt sessionId)
      (usesNot : ¬ event.Uses sessionId) : SessionChange sessionId event old old
  | created {event : SessionEvent} {old : Option Session} {session : Session}
      (creates : event.Creates session) (named : session.id = sessionId) :
    SessionChange sessionId event old (some session)
  | used {now : Instant} {token : String} {operation : Option Permission} {keyId : Option String}
      {session : Session} (alive : session.isExpired now = false)
      (left : session.isOperationLimitReached = false) :
    SessionChange sessionId (.validateScoped now sessionId token operation keyId,
        .validated (.ok (session.incrementOperation.touch now)))
      (some session) (some (session.incrementOperation.touch now))
  | touched {event : SessionEvent} {session : Session} (now : Instant)
      (createsNot : ¬ event.CreatesAt sessionId) (usesNot : ¬ event.Uses sessionId) :
    SessionChange sessionId event (some session) (some (session.touch now))
  | counted {event : SessionEvent} {session : Session} (now : Instant)
      (createsNot : ¬ event.CreatesAt sessionId) (usesNot : ¬ event.Uses sessionId) :
    SessionChange sessionId event (some session) (some (session.incrementOperation.touch now))
  | extended {now : Instant} {additionalSeconds : Int} {session : Session} {expiresAt : Instant}
      (later : session.expiresAt.plus (seconds additionalSeconds) = some expiresAt) :
    SessionChange sessionId (.extend now sessionId additionalSeconds, .done (.ok ()))
      (some session) (some { session with expiresAt })
  | rotated {event : SessionEvent} {session : Session} (drawn : Bytes)
      (rotates : event.1.Rotates session sessionId) (createsNot : ¬ event.CreatesAt sessionId)
      (usesNot : ¬ event.Uses sessionId) :
    SessionChange sessionId event (some session) (some (session.rotateToken drawn).1)
  | removed {event : SessionEvent} {session : Session} (removes : event.1.removes = true)
      (createsNot : ¬ event.CreatesAt sessionId) (usesNot : ¬ event.Uses sessionId) :
    SessionChange sessionId event (some session) none

section

variable {manager : SessionManager} {sessionId : String}

variable {event : SessionEvent}

theorem not_createsAt (other : event.2.isCreation = false) :
    ¬ event.CreatesAt sessionId := by
  rintro ⟨session, ⟨token, isReply⟩, -⟩
  rw [isReply] at other
  cases other

theorem not_createsAt_error {call : SessionCall} {error : AuthError} :
    ¬ SessionEvent.CreatesAt sessionId (call, .created (.error error)) := by
  rintro ⟨session, ⟨token, isReply⟩, -⟩
  cases isReply

theorem not_uses (other : event.1.isScopedValidation = false) :
    ¬ event.Uses sessionId := by
  intro uses
  cases uses
  cases other

theorem not_uses_error {call : SessionCall} {error : AuthError} :
    ¬ SessionEvent.Uses sessionId (call, .validated (.error error)) := by
  intro uses
  cases uses

theorem SessionChange.unchanged (createsNone : event.2.isCreation = false)
    (validatesNone : event.1.isScopedValidation = false) {old : Option Session} :
    SessionChange sessionId event old old :=
  .kept (not_createsAt createsNone) (not_uses validatesNone)

/-- A created session is stored under its identifier, and nowhere else. -/
theorem change_store {session : Session} (other : SessionManager)
    (same : other.sessions = manager.sessions) (creates : event.Creates session)
    (usesNot : ¬ event.Uses sessionId) :
    SessionChange sessionId event manager.sessions[sessionId]?
      (other.store session).sessions[sessionId]? := by
  rw [store, same, Dict.find_insert]
  split
  · rename_i named
    exact .created creates named
  · rename_i apart
    refine .kept ?_ usesNot
    rintro ⟨found, ⟨token, isFound⟩, named⟩
    obtain ⟨_, isSession⟩ := creates
    cases isFound.symm.trans isSession
    exact apart named

@[simp] theorem sessions_limitRate (now : Instant) (id : String) (rateLimit : Option Nat) :
    (manager.limitRate now id rateLimit).sessions = manager.sessions := by
  cases rateLimit <;> rfl

@[simp] theorem sessions_checkRate (now : Instant) (id : String) :
    (manager.checkRate now id).1.sessions = manager.sessions := by
  unfold checkRate
  split <;> rfl

/-- A call on one session leaves the others as they are. -/
theorem sessions_withSession {α : Type} (id other : String)
    (act : Session → Session × Except AuthError α) :
    (manager.withSession id act).1.sessions[other]? =
      if id = other then manager.sessions[other]?.map fun session => (act session).1
      else manager.sessions[other]? := by
  unfold withSession
  split
  · rename_i missing
    split
    · rename_i same
      cases same
      rw [missing, Option.map_none]
    · rfl
  · rename_i session found
    rw [Dict.find_insert]
    split
    · rename_i same
      cases same
      rw [found, Option.map_some]
    · rfl

/-- A reply other than that there is no session is of a stored one. -/
theorem found_of_reply {α : Type} {act : Session → Session × Except AuthError α}
    {reply : Except AuthError α} (replied : (manager.withSession sessionId act).2 = reply)
    (known : reply ≠ .error (.invalidSession "Session not found")) :
    ∃ session, manager.sessions[sessionId]? = some session ∧ (act session).2 = reply := by
  unfold withSession at replied
  split at replied
  · exact absurd replied.symm known
  · rename_i session found
    exact ⟨session, found, replied⟩

/-- What a call does to its own session is a change of it, and none of another. -/
theorem change_withSession {α : Type} (id : String)
    (act : Session → Session × Except AuthError α) (event : Except AuthError α → SessionEvent)
    (createsNot : ∀ result, ¬ (event result).CreatesAt sessionId)
    (usesNot : ∀ result, ¬ (event result).Uses sessionId)
    (changes : ∀ session, id = sessionId → SessionChange sessionId (event (act session).2)
      (some session) (some (act session).1)) :
    SessionChange sessionId (event (manager.withSession id act).2) manager.sessions[sessionId]?
      (manager.withSession id act).1.sessions[sessionId]? := by
  rw [sessions_withSession]
  by_cases same : id = sessionId
  · subst same
    rw [if_pos rfl]
    cases found : manager.sessions[id]? with
    | none => exact .kept (createsNot _) (usesNot _)
    | some session =>
      have reply : (manager.withSession id act).2 = (act session).2 := by
        rw [withSession, found]
      rw [reply]
      exact changes session rfl
  · rw [if_neg same]
    exact .kept (createsNot _) (usesNot _)

/-- A delegation stores the child of a live parent, or changes nothing. -/
theorem delegateSession_cases (manager : SessionManager) (times : DelegationTimes)
    (draw : SessionDraw) (parentSessionId : String) (restrictedScope : SessionScope)
    (ttlSeconds : Int) :
    manager.delegateSession times draw parentSessionId restrictedScope ttlSeconds = none ∨
    (∃ error, manager.delegateSession times draw parentSessionId restrictedScope ttlSeconds =
      some (manager, .error error)) ∨
    ∃ parent expiresAt, manager.sessions[parentSessionId]? = some parent ∧
      parent.canDelegate = true ∧ parent.isExpired times.checked = false ∧
      times.created.plus (seconds (effectiveTtl parent times.measured ttlSeconds)) =
        some expiresAt ∧
      manager.delegateSession times draw parentSessionId restrictedScope ttlSeconds =
        some ((manager.limitRate times.created (Session.generateSessionId draw.id)
            (effectiveScope parent restrictedScope).rateLimit).store
              (delegated parent times.created draw parentSessionId restrictedScope expiresAt),
          .ok ⟨delegated parent times.created draw parentSessionId restrictedScope expiresAt,
            SessionToken.new draw.token⟩) := by
  unfold delegateSession
  split
  · exact .inr (.inl ⟨_, rfl⟩)
  · rename_i parent found
    split
    · exact .inr (.inl ⟨_, rfl⟩)
    · rename_i able
      split
      · exact .inr (.inl ⟨_, rfl⟩)
      · rename_i alive
        split
        · exact .inr (.inl ⟨_, rfl⟩)
        · cases expiry : times.created.plus
            (seconds (effectiveTtl parent times.measured ttlSeconds)) with
          | none => exact .inl rfl
          | some expiresAt =>
            exact .inr (.inr ⟨parent, expiresAt, found, by simpa using able, by simpa using alive,
              expiry, rfl⟩)

/-- A validation counts the operation, or leaves the session as it is. -/
theorem change_validateScoped (now : Instant) (id token : String) (operation : Option Permission)
    (keyId : Option String) :
    SessionChange sessionId (.validateScoped now id token operation keyId,
        .validated (manager.validateScopedSession now id token operation keyId).2)
      manager.sessions[sessionId]?
      (manager.validateScopedSession now id token operation keyId).1.sessions[sessionId]? := by
  have refused : ∀ error, SessionChange sessionId
      (.validateScoped now id token operation keyId, .validated (.error error))
      manager.sessions[sessionId]? manager.sessions[sessionId]? := fun error =>
    .kept (not_createsAt rfl) not_uses_error
  unfold validateScopedSession
  split
  · exact refused _
  · rename_i session found
    split
    · exact refused _
    · rename_i alive
      split
      · exact refused _
      · split
        · exact refused _
        · rename_i left
          dsimp only
          split
          · rw [sessions_checkRate]
            exact refused _
          · split
            · rw [sessions_checkRate]
              exact refused _
            · split
              · rw [sessions_checkRate]
                exact refused _
              · dsimp only
                rw [sessions_checkRate, Dict.find_insert]
                split
                · rename_i same
                  subst same
                  rw [found]
                  exact .used (by simpa using alive) (by simpa using left)
                · rename_i apart
                  refine .kept (not_createsAt rfl) fun uses => ?_
                  cases uses
                  exact apart rfl

/-- A revocation of several sessions removes exactly those. -/
theorem find_foldl_revoke (ids : List String) (progress : SessionManager × Nat) (id : String) :
    (ids.foldl revoke progress).1.sessions[id]? =
      if id ∈ ids then none else progress.1.sessions[id]? := by
  induction ids generalizing progress with
  | nil => simp
  | cons first rest ih =>
    rw [List.foldl_cons, ih]
    obtain ⟨manager, revoked⟩ := progress
    have once : (revoke (manager, revoked) first).1.sessions[id]? =
        if first = id then none else manager.sessions[id]? := by
      rw [revoke]
      split
      · simp only [Dict.find_erase]
      · rename_i missing
        split
        · rename_i same
          subst same
          exact Std.ExtTreeMap.getElem?_eq_none missing
        · rfl
    rw [once]
    by_cases later : id ∈ rest
    · simp [later]
    · by_cases same : first = id
      · simp [same]
      · simp [later, same, Ne.symm same]

theorem change_remove {old new : Option Session} (removes : event.1.removes = true)
    (createsNone : event.2.isCreation = false) (validatesNone : event.1.isScopedValidation = false)
    (fewer : new = none ∨ new = old) :
    SessionChange sessionId event old new := by
  rcases fewer with rfl | rfl
  · cases old with
    | none => exact .unchanged createsNone validatesNone
    | some session =>
      exact .removed removes (not_createsAt createsNone) (not_uses validatesNone)
  · exact .unchanged createsNone validatesNone

theorem change_filter (removes : event.1.removes = true)
    (createsNone : event.2.isCreation = false) (validatesNone : event.1.isScopedValidation = false)
    (keep : Session → Bool) :
    SessionChange sessionId event manager.sessions[sessionId]?
      (manager.sessions.filter fun _ session => keep session)[sessionId]? := by
  refine change_remove removes createsNone validatesNone ?_
  rw [Dict.find_filter]
  cases manager.sessions[sessionId]? with
  | none => exact .inl rfl
  | some session =>
    rw [Option.filter_some]
    split
    · exact .inr rfl
    · exact .inl rfl

/-- Every call is one of the changes, for every session. -/
theorem answer_change (manager : SessionManager) (sessionId : String) (call : SessionCall) :
    SessionChange sessionId (call, (manager.answer call).2) manager.sessions[sessionId]?
      (manager.answer call).1.sessions[sessionId]? := by
  cases call with
  | create now draw identity =>
    simp only [answer, createSession]
    cases Session.create now draw identity manager.defaultTtl with
    | none => exact .unchanged rfl rfl
    | some result => exact change_store manager rfl ⟨_, rfl⟩ (not_uses rfl)
  | createWithMetadata now draw identity clientIp userAgent tlsFingerprint =>
    simp only [answer, createSessionWithMetadata]
    cases Session.newWithMetadata now draw identity manager.defaultTtl clientIp userAgent
      tlsFingerprint with
    | none => exact .unchanged rfl rfl
    | some result => exact change_store manager rfl ⟨_, rfl⟩ (not_uses rfl)
  | createScoped now draw identity scope ttlSeconds =>
    simp only [answer, createScopedSession]
    cases Session.createWithScope now draw identity (ttlSeconds.getD manager.defaultTtl) scope with
    | none => exact .unchanged rfl rfl
    | some result => exact change_store _ (sessions_limitRate _ _ _) ⟨_, rfl⟩ (not_uses rfl)
  | createFromTemplate now draw identity templateId =>
    simp only [answer, createSessionFromTemplate]
    split
    · exact .kept not_createsAt_error (not_uses rfl)
    · rename_i template found
      cases Session.createFromTemplate now draw identity template with
      | none => exact .unchanged rfl rfl
      | some result => exact change_store _ (sessions_limitRate _ _ _) ⟨_, rfl⟩ (not_uses rfl)
  | delegate times draw parentSessionId restrictedScope ttlSeconds =>
    rw [answer]
    rcases delegateSession_cases manager times draw parentSessionId restrictedScope ttlSeconds with
      panics | ⟨error, failed⟩ | ⟨parent, expiresAt, -, -, -, -, succeeds⟩
    · rw [panics]
      exact .unchanged rfl rfl
    · rw [failed]
      exact .kept not_createsAt_error (not_uses rfl)
    · rw [succeeds]
      exact change_store _ (sessions_limitRate _ _ _) ⟨_, rfl⟩ (not_uses rfl)
  | validateScoped now id token operation keyId =>
    exact change_validateScoped now id token operation keyId
  | validate now id =>
    refine change_withSession id _ (fun result => (_, .validated result))
      (fun _ => not_createsAt rfl) (fun _ => not_uses rfl) fun session same => ?_
    unfold Session.validate
    split
    · exact .unchanged rfl rfl
    · exact .touched now (not_createsAt rfl) (not_uses rfl)
  | validateWithToken now id token =>
    refine change_withSession id _ (fun result => (_, .validated result))
      (fun _ => not_createsAt rfl) (fun _ => not_uses rfl) fun session same => ?_
    unfold Session.validateWithToken
    split
    · exact .unchanged rfl rfl
    · split
      · exact .unchanged rfl rfl
      · exact .counted now (not_createsAt rfl) (not_uses rfl)
  | validateWithMetadata now id token clientIp userAgent tlsFingerprint =>
    refine change_withSession id _ (fun result => (_, .validated result))
      (fun _ => not_createsAt rfl) (fun _ => not_uses rfl) fun session same => ?_
    unfold Session.validateWithMetadata
    repeat' split
    all_goals first
      | exact .unchanged rfl rfl
      | exact .counted now (not_createsAt rfl) (not_uses rfl)
  | registerTemplate template =>
    simp only [answer, registerTemplate]
    split <;> exact .unchanged rfl rfl
  | updateTemplate template =>
    simp only [answer, updateTemplate]
    split <;> exact .unchanged rfl rfl
  | deleteTemplate templateId =>
    simp only [answer, deleteTemplate]
    split <;> exact .unchanged rfl rfl
  | revokeCascade id =>
    simp only [answer, revokeSessionCascade]
    cases worklist manager.children (manager.sessions.size + 2) [] [id] with
    | none => exact .unchanged rfl rfl
    | some ids =>
      refine change_remove rfl rfl rfl ?_
      simp only [Option.map_some, settle, find_foldl_revoke]
      split
      · exact .inl rfl
      · exact .inr rfl
  | delete id =>
    simp only [answer, deleteSession]
    split
    · exact .unchanged rfl rfl
    · refine change_remove rfl rfl rfl ?_
      simp only [Prod.map, id_eq, Dict.find_erase]
      split
      · exact .inl rfl
      · exact .inr rfl
  | extend now id additionalSeconds =>
    simp only [answer, extendSession]
    split
    · exact .unchanged rfl rfl
    · rename_i session found
      cases later : session.expiresAt.plus (seconds additionalSeconds) with
      | none =>
        simp only [Session.extend, later]
        exact .unchanged rfl rfl
      | some expiresAt =>
        simp only [Session.extend, later, Option.map_some, settle, Dict.find_insert]
        split
        · rename_i same
          subst same
          rw [found]
          exact .extended later
        · exact .unchanged rfl rfl
  | rotateToken drawn id =>
    refine change_withSession id _ (fun result => (_, .rotated result))
      (fun _ => not_createsAt rfl) (fun _ => not_uses rfl) fun session same => ?_
    exact .rotated drawn same (not_createsAt rfl) (not_uses rfl)
  | rotateClientTokens drawn clientCn =>
    simp only [answer, rotateClientTokens, Prod.map, id_eq, Std.ExtTreeMap.getElem?_map]
    cases manager.sessions[sessionId]? with
    | none => exact .unchanged rfl rfl
    | some session =>
      rw [Option.map_some]
      split
      · rename_i ofClient
        exact .rotated _ ofClient (not_createsAt rfl) (not_uses rfl)
      · exact .unchanged rfl rfl
  | cleanupExpired times =>
    exact change_filter rfl rfl rfl fun session => !session.isExpired (times.retained session)
  | deleteClientSessions clientCn =>
    exact change_filter rfl rfl rfl fun session => session.identity.commonName ≠ clientCn

theorem SessionChange.stored {session : Session} {old new : Option Session}
    (change : SessionChange session.id event old new) (creates : event.Creates session) :
    new = some session := by
  have createsAt : event.CreatesAt session.id := ⟨session, creates, rfl⟩
  cases change with
  | kept createsNot usesNot => exact absurd createsAt createsNot
  | created creates' named =>
    obtain ⟨token, isSession⟩ := creates
    obtain ⟨token', isOther⟩ := creates'
    cases isOther.symm.trans isSession
    rfl
  | used alive left => exact absurd createsAt (not_createsAt rfl)
  | touched now createsNot usesNot => exact absurd createsAt createsNot
  | counted now createsNot usesNot => exact absurd createsAt createsNot
  | extended later => exact absurd createsAt (not_createsAt rfl)
  | rotated drawn rotates createsNot usesNot => exact absurd createsAt createsNot
  | removed removes createsNot usesNot => exact absurd createsAt createsNot

theorem trace_eq_zip {calls : List SessionCall} {replies : List SessionReply}
    (replied : (trace SessionManager.serve manager calls).2.map Prod.snd = replies) :
    (trace SessionManager.serve manager calls).2 = calls.zip replies := by
  refine List.zip_of_prod ?_ replied
  clear replied
  induction calls generalizing manager with
  | nil => rfl
  | cons call rest ih =>
    rw [trace_cons, List.map_append, ih]
    rfl

end

end Hsm.Auth
