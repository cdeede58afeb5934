import Hsm.Auth.Revocation

/-! Delegated sessions expire no later than the sessions they come from, and stay expired. -/

namespace Hsm.Auth

open SessionManager

def SessionCall.reads : SessionCall → List Instant
  | .create now _ _ => [now]
  | .createWithMetadata now _ _ _ _ _ => [now]
  | .createScoped now _ _ _ _ => [now]
  | .createFromTemplate now _ _ _ => [now]
  | .delegate times _ _ _ _ => [times.checked, times.measured, times.created]
  | .validateScoped now _ _ _ _ => [now]
  | .validate now _ => [now]
  | .validateWithToken now _ _ => [now]
  | .validateWithMetadata now _ _ _ _ _ => [now]
  | .extend now _ _ => [now]
  | _ => []

def SessionCall.Before (earlier later : SessionCall) : Prop :=
  ∀ first ∈ earlier.reads, ∀ second ∈ later.reads, first ≤ second

def SessionManager.KeepsLifetimes (manager : SessionManager) : SessionCall → Prop
  | .extend now sessionId additionalSeconds => ∀ session,
    manager.sessions[sessionId]? = some session → session.isExpired now = false ∧
      0 ≤ additionalSeconds ∧ ∀ parentId : String, session.parentSessionId = some parentId →
        ∃ parent, manager.sessions[parentId]? = some parent ∧
          session.expiresAt + seconds additionalSeconds ≤ parent.expiresAt
  | .delegate times _ parentSessionId _ ttlSeconds => ∀ parent,
    manager.sessions[parentSessionId]? = some parent →
      times.created + seconds ttlSeconds ≤ parent.expiresAt ∨
      (times.measured ≤ parent.expiresAt ∧
        times.created - times.measured ≤ (parent.expiresAt - times.measured) % seconds 1)
  | _ => True

inductive SessionEvent.ReportsExpired (sessionId : String) (now : Instant) :
    SessionEvent → Prop where
  | inScope {token : String} {operation : Option Permission} {keyId : Option String} :
    ReportsExpired sessionId now (.validateScoped now sessionId token operation keyId,
      .validated (.error .sessionExpired))
  | plain : ReportsExpired sessionId now (.validate now sessionId,
      .validated (.error .sessionExpired))
  | withToken {token : String} : ReportsExpired sessionId now
      (.validateWithToken now sessionId token, .validated (.error .sessionExpired))
  | withMetadata {token : String} {clientIp userAgent tlsFingerprint : Option String} :
    ReportsExpired sessionId now
      (.validateWithMetadata now sessionId token clientIp userAgent tlsFingerprint,
        .validated (.error .sessionExpired))
  | delegating {measured created : Instant} {draw : SessionDraw} {scope : SessionScope}
      {ttlSeconds : Int} :
    ReportsExpired sessionId now
      (.delegate ⟨now, measured, created⟩ draw sessionId scope ttlSeconds,
        .created (.error .sessionExpired))

theorem whole_seconds_le {limit moment : Int} (left : moment ≤ limit) :
    max ((limit - moment).tdiv (seconds 1)) 0 * 10 ^ 9 =
      limit - moment - (limit - moment) % 10 ^ 9 := by
  rw [Int.tdiv_eq_ediv_of_nonneg (by omega), seconds]
  omega

theorem within_limit {limit measured created given : Int}
    (quick : created - measured ≤ (limit - measured) % 10 ^ 9)
    (atMost : given ≤ limit - measured - (limit - measured) % 10 ^ 9) : created + given ≤ limit := by
  omega

theorem expiresAt_le_parent {parent : Session} {times : DelegationTimes} {ttlSeconds : Int}
    {expiresAt : Instant}
    (expiry : times.created.plus (seconds (effectiveTtl parent times.measured ttlSeconds)) =
      some expiresAt)
    (keeps : times.created + seconds ttlSeconds ≤ parent.expiresAt ∨
      (times.measured ≤ parent.expiresAt ∧
        times.created - times.measured ≤ (parent.expiresAt - times.measured) % seconds 1)) :
    expiresAt ≤ parent.expiresAt := by
  obtain rfl := Instant.plus_eq expiry
  rw [effectiveTtl]
  rcases keeps with asks | ⟨left, quick⟩
  · refine Int.le_trans (Int.add_le_add_left ?_ _) asks
    exact Int.mul_le_mul_of_nonneg_right (Int.min_le_left _ _) (by decide)
  · have rounded := whole_seconds_le left
    have atMost : seconds (min ttlSeconds
        (max ((parent.expiresAt - times.measured).tdiv (seconds 1)) 0)) ≤
        parent.expiresAt - times.measured - (parent.expiresAt - times.measured) % 10 ^ 9 :=
      Int.le_trans (Int.mul_le_mul_of_nonneg_right (Int.min_le_right _ _) (by decide))
        (Int.le_of_eq rounded)
    exact within_limit quick atMost

/-- A call removes a session, creates it, or keeps its expiry unless it extends it. -/
theorem SessionChange.expiry {sessionId : String} {event : SessionEvent} {old new : Option Session}
    (change : SessionChange sessionId event old new) {session : Session}
    (isNew : new = some session) :
    (event.Creates session ∧ session.id = sessionId) ∨
    ∃ before, old = some before ∧ session.terms = before.terms ∧
      (session.expiresAt = before.expiresAt ∨ ∃ now additionalSeconds,
        event.1 = .extend now sessionId additionalSeconds ∧
          session.expiresAt = before.expiresAt + seconds additionalSeconds) := by
  cases change with
  | kept createsNot usesNot => exact .inr ⟨session, isNew, rfl, .inl rfl⟩
  | created creates named =>
    cases isNew
    exact .inl ⟨creates, named⟩
  | removed removes createsNot usesNot => cases isNew
  | extended later =>
    cases isNew
    exact .inr ⟨_, rfl, rfl, .inr ⟨_, _, rfl, Instant.plus_eq later⟩⟩
  | _ =>
    cases isNew
    exact .inr ⟨_, rfl, rfl, .inl rfl⟩

def SessionManager.Ordered (manager : SessionManager) (history : List SessionEvent) : Prop :=
  ∃ last : String → Instant,
    (∀ (id : String) (session : Session), manager.sessions[id]? = some session →
      session.expiresAt = last id) ∧
    ∀ event ∈ history, ∀ child parentId, event.Creates child →
      child.parentSessionId = some parentId →
        last child.id ≤ last parentId ∧ ∃ earlier ∈ history, earlier.CreatesAt parentId

section

variable {defaultTtl : Int} {calls : List SessionCall}

theorem not_creates_again {call : SessionCall} {manager : SessionManager}
    (apart : ∀ earlier ∈ calls, earlier.DrawsApart call) {event : SessionEvent} {sessionId : String}
    (member : event ∈ (trace SessionManager.serve manager calls).2)
    (creates : event.CreatesAt sessionId) {reached : SessionManager} :
    ¬ SessionEvent.CreatesAt sessionId (call, (reached.answer call).2) := by
  rintro ⟨session, again, named⟩
  obtain ⟨origin, creates, rfl⟩ := creates
  obtain ⟨isCall, draws⟩ := drawn_of_creates member creates
  exact apart event.1 isCall origin.id draws (named ▸ (creation_cases again).1)

theorem created_of_stored {sessionId : String} {session : Session}
    (found : (trace SessionManager.serve (.new defaultTtl) calls).1.sessions[sessionId]? =
      some session) :
    ∃ event ∈ (trace SessionManager.serve (.new defaultTtl) calls).2,
      event.CreatesAt sessionId := by
  obtain ⟨earlier, creation, since, origin, split, creates, named, -, -⟩ :=
    originated_trace defaultTtl calls sessionId session found
  exact ⟨creation, by rw [split]; simp, origin, creates, named⟩

theorem ordered_trace (fresh : calls.Pairwise SessionCall.DrawsApart)
    (keeps : Along SessionManager.KeepsLifetimes SessionManager.serve (.new defaultTtl) calls) :
    (trace SessionManager.serve (.new defaultTtl) calls).1.Ordered
      (trace SessionManager.serve (.new defaultTtl) calls).2 := by
  induction calls using List.reverseRecOn with
  | nil => exact ⟨fun _ => 0, by simp [SessionManager.new], by simp⟩
  | append_singleton rest call ih =>
    obtain ⟨freshBefore, -, apart⟩ := List.pairwise_append.mp fresh
    obtain ⟨keepsBefore, keepsNow, -⟩ := along_append.mp keeps
    obtain ⟨last, current, inOrder⟩ := ih freshBefore keepsBefore
    have apart : ∀ earlier ∈ rest, earlier.DrawsApart call :=
      fun earlier member => apart earlier member call (by simp)
    rw [trace_append]
    have terms := @terms_of_creates defaultTtl rest freshBefore
    have created := @created_of_stored defaultTtl rest
    have again := @not_creates_again rest call (.new defaultTtl) apart
    generalize (trace SessionManager.serve (.new defaultTtl) rest).2 = history at *
    generalize (trace SessionManager.serve (.new defaultTtl) rest).1 = reached at *
    have change := fun id => answer_change reached id call
    simp only [trace_cons, trace_nil, SessionManager.serve, List.append_nil]
    -- Sessions that were created before are only extended, so none expires earlier than it did.
    have grows : ∀ id : String, (∃ event ∈ history, event.CreatesAt id) → ∀ session,
        (reached.answer call).1.sessions[id]? = some session → last id ≤ session.expiresAt := by
      rintro id ⟨event, member, creates⟩ session after
      rcases (change id).expiry after with ⟨isNew, named⟩ | ⟨before, found, -, same | extends_⟩
      · exact absurd ⟨session, isNew, named⟩ (again member creates)
      · rw [same, current id before found]
      · obtain ⟨now, additionalSeconds, isCall, expiry⟩ := extends_
        cases isCall
        obtain ⟨-, forwards, -⟩ := keepsNow before found
        rw [expiry, current id before found]
        exact Int.le_add_of_nonneg_right (Int.mul_nonneg forwards (by decide))
    let next : String → Instant := fun id =>
      ((reached.answer call).1.sessions[id]?.map Session.expiresAt).getD (last id)
    have stored : ∀ (id : String) (session : Session),
        (reached.answer call).1.sessions[id]? = some session → session.expiresAt = next id := by
      intro id session after
      simp [next, after]
    have later : ∀ id : String, (∃ event ∈ history, event.CreatesAt id) → last id ≤ next id := by
      intro id isCreated
      cases after : (reached.answer call).1.sessions[id]? with
      | none => simp [next, after]
      | some session =>
        rw [← stored id session after]
        exact grows id isCreated session after
    refine ⟨next, stored, fun event member child parentId creates isChild => ?_⟩
    rcases List.mem_append.mp member with before | now
    · -- A session from before is as it was, or was extended up to the expiry of its parent.
      obtain ⟨order, earlier, isEarlier, hasParent⟩ :=
        inOrder event before child parentId creates isChild
      refine ⟨?_, earlier, List.mem_append_left _ isEarlier, hasParent⟩
      have parentLater := later parentId ⟨earlier, isEarlier, hasParent⟩
      cases after : (reached.answer call).1.sessions[child.id]? with
      | none =>
        have unchanged : next child.id = last child.id := by simp [next, after]
        rw [unchanged]
        exact Int.le_trans order parentLater
      | some session =>
        rw [← stored child.id session after]
        rcases (change child.id).expiry after with
          ⟨isNew, named⟩ | ⟨old, found, -, same | ⟨time, additionalSeconds, isCall, expiry⟩⟩
        · exact absurd ⟨session, isNew, named⟩ (again before ⟨child, creates, rfl⟩)
        · rw [same, current child.id old found]
          exact Int.le_trans order parentLater
        · cases isCall
          obtain ⟨-, -, bounded⟩ := keepsNow old found
          have storedChild : old.parentSessionId = some parentId :=
            (congrArg Session.parentSessionId (terms before creates found) : _).trans isChild
          obtain ⟨parent, isParent, atMost⟩ := bounded parentId storedChild
          rw [current parentId parent isParent] at atMost
          rw [expiry]
          exact Int.le_trans atMost parentLater
    · -- A new session expires no later than its parent, which is stored.
      cases List.mem_singleton.mp now
      obtain ⟨-, root | ⟨times, draw, storedId, scope, ttl, parent, expiresAt, isCall, isParent,
        expiry, made⟩⟩ := creation_cases creates
      · cases isChild.symm.trans root
      · obtain rfl : storedId = parentId := by
          rw [made] at isChild
          exact Option.some.inj isChild
        cases isCall
        obtain ⟨earlier, isEarlier, hasParent⟩ := created isParent
        refine ⟨?_, earlier, List.mem_append_left _ isEarlier, hasParent⟩
        calc next child.id = child.expiresAt :=
              (stored child.id child ((change child.id).stored creates)).symm
          _ = expiresAt := by rw [made, delegated]
          _ ≤ parent.expiresAt := expiresAt_le_parent expiry (keepsNow parent isParent)
          _ = last storedId := current storedId parent isParent
          _ ≤ next storedId := later storedId ⟨earlier, isEarlier, hasParent⟩

theorem expiresAt_le_of_chain (fresh : calls.Pairwise SessionCall.DrawsApart)
    (keeps : Along SessionManager.KeepsLifetimes SessionManager.serve (.new defaultTtl) calls)
    {source session stored ancestor : Session} {length : Nat}
    (chain : DelegationChain (trace SessionManager.serve (.new defaultTtl) calls).2 source length
      session)
    (found : (trace SessionManager.serve (.new defaultTtl) calls).1.sessions[session.id]? =
      some stored)
    (isAncestor : (trace SessionManager.serve (.new defaultTtl) calls).1.sessions[source.id]? =
      some ancestor) : stored.expiresAt ≤ ancestor.expiresAt := by
  obtain ⟨last, current, inOrder⟩ := ordered_trace fresh keeps
  rw [current _ stored found, current _ ancestor isAncestor]
  clear found isAncestor
  -- The sessions in between need not be stored any more.
  induction chain with
  | start => exact Int.le_refl _
  | delegate chain delegates ih =>
    obtain ⟨origin, created, draw, scope, expiresAt, -, -, rfl⟩ := delegates.child_eq
    obtain ⟨event, member, creates⟩ := delegates.created
    exact Int.le_trans (inOrder event member _ _ creates rfl).1 ih

end

section

variable {manager : SessionManager} {sessionId : String}

theorem expired_of_reports {call : SessionCall} {now : Instant}
    (reports : SessionEvent.ReportsExpired sessionId now (call, (manager.answer call).2)) :
    now ∈ call.reads ∧
      ∃ session, manager.sessions[sessionId]? = some session ∧ session.isExpired now = true := by
  generalize isEvent : (call, (manager.answer call).2) = event at reports
  cases reports with
  | inScope =>
    obtain ⟨rfl, replied⟩ := Prod.mk.inj isEvent
    refine ⟨List.mem_singleton.mpr rfl, ?_⟩
    have failed : (manager.validateScopedSession now sessionId _ _ _).2 = .error .sessionExpired :=
      SessionReply.validated.inj replied
    unfold validateScopedSession at failed
    split at failed
    · cases failed
    · rename_i session found
      split at failed
      · rename_i expired
        exact ⟨session, found, expired⟩
      · -- No later check reports an expiry.
        repeat' split at failed
        all_goals cases failed
  | plain =>
    obtain ⟨rfl, replied⟩ := Prod.mk.inj isEvent
    obtain ⟨session, found, failed⟩ := found_of_reply (SessionReply.validated.inj replied) (by simp)
    refine ⟨List.mem_singleton.mpr rfl, session, found, ?_⟩
    unfold Session.validate at failed
    split at failed
    · assumption
    · cases failed
  | withToken =>
    obtain ⟨rfl, replied⟩ := Prod.mk.inj isEvent
    obtain ⟨session, found, failed⟩ := found_of_reply (SessionReply.validated.inj replied) (by simp)
    refine ⟨List.mem_singleton.mpr rfl, session, found, ?_⟩
    unfold Session.validateWithToken at failed
    split at failed
    · assumption
    · split at failed <;> cases failed
  | withMetadata =>
    obtain ⟨rfl, replied⟩ := Prod.mk.inj isEvent
    obtain ⟨session, found, failed⟩ := found_of_reply (SessionReply.validated.inj replied) (by simp)
    refine ⟨List.mem_singleton.mpr rfl, session, found, ?_⟩
    unfold Session.validateWithMetadata at failed
    split at failed
    · assumption
    · repeat' split at failed
      all_goals cases failed
  | @delegating measured created draw scope ttlSeconds =>
    obtain ⟨rfl, replied⟩ := Prod.mk.inj isEvent
    refine ⟨List.mem_cons_self, ?_⟩
    rw [answer] at replied
    unfold delegateSession at replied
    split at replied
    · cases replied
    · rename_i session found
      split at replied
      · cases replied
      · split at replied
        · rename_i expired
          exact ⟨session, found, expired⟩
        · split at replied
          · cases replied
          · generalize Instant.plus _ _ = expiry at replied
            cases expiry <;> cases replied

theorem SessionEvent.Validates.reads {event : SessionEvent} {now : Instant}
    (validates : event.Validates sessionId now) : now ∈ event.1.reads := by
  cases validates <;> exact List.mem_singleton.mpr rfl

theorem not_validates_of_expired {calls : List SessionCall} {moment : Instant}
    (expired : ∀ session, manager.sessions[sessionId]? = some session → session.expiresAt < moment)
    (keeps : Along SessionManager.KeepsLifetimes SessionManager.serve manager calls)
    (onwards : ∀ call ∈ calls, ∀ now ∈ call.reads, moment ≤ now)
    (drawsNot : ∀ call ∈ calls, call.drawsId ≠ some sessionId) :
    ∀ event ∈ (trace SessionManager.serve manager calls).2,
      ∀ now, ¬ SessionEvent.Validates sessionId now event := by
  refine trace_outputs (fun manager => ∀ session, manager.sessions[sessionId]? = some session →
    session.expiresAt < moment) _
    (fun manager call member expired keeps => ⟨fun session after => ?_, fun event isEvent now => ?_⟩)
    manager expired keeps
  · rcases (answer_change manager sessionId call).expiry after with
      ⟨creates, rfl⟩ | ⟨before, found, -, same | ⟨time, additionalSeconds, isCall, -⟩⟩
    · exact absurd (creation_cases creates).1 (drawsNot call member)
    · rw [same]
      exact expired before found
    · -- The session is expired by now, so this is not the time to extend it.
      cases isCall
      obtain ⟨alive, -⟩ := keeps before found
      have notLater := onwards _ member time (List.mem_singleton.mpr rfl)
      have isExpired : before.isExpired time = true :=
        decide_eq_true (Int.lt_of_lt_of_le (expired before found) notLater)
      cases isExpired.symm.trans alive
  · cases List.mem_singleton.mp isEvent
    intro validates
    obtain ⟨session, found, alive⟩ := alive_of_validates validates
    have notLater := onwards call member now validates.reads
    exact absurd (Int.lt_of_lt_of_le (expired session found) notLater) (of_decide_eq_false alive)

end

/-- No delegated session outlives the ones it comes from, if calls keep lifetimes. -/
theorem delegated_sessions_expire_first {defaultTtl : Int} {before later : List SessionCall}
    {call : SessionCall} (fresh : (before ++ call :: later).Pairwise SessionCall.DrawsApart)
    (timely : (before ++ call :: later).Pairwise SessionCall.Before)
    (keeps : Along SessionManager.KeepsLifetimes SessionManager.serve (.new defaultTtl)
      (before ++ call :: later)) :
    let reached := trace SessionManager.serve (.new defaultTtl) before
    (∀ (source session ancestor : Session) (length : Nat) (now : Instant),
      DelegationChain reached.2 source (length + 1) session →
      SessionEvent.Validates session.id now (call, (reached.1.answer call).2) →
      reached.1.sessions[source.id]? = some ancestor → ancestor.isExpired now = false) ∧
    ∀ (sessionId : String) (now : Instant),
      SessionEvent.ReportsExpired sessionId now (call, (reached.1.answer call).2) →
      ∀ event ∈ (trace SessionManager.serve (reached.1.answer call).1 later).2,
        ∀ moment, ¬ SessionEvent.Validates sessionId moment event := by
  intro reached
  obtain ⟨freshBefore, -, apart⟩ := List.pairwise_append.mp fresh
  obtain ⟨keepsBefore, keepsNow, keepsLater⟩ := along_append.mp keeps
  refine ⟨fun source session ancestor length now chain validates isAncestor => ?_,
    fun sessionId now reports => ?_⟩
  · obtain ⟨stored, found, alive⟩ := alive_of_validates validates
    have atMost := expiresAt_le_of_chain freshBefore keepsBefore chain found isAncestor
    have notAfter := of_decide_eq_false alive
    exact decide_eq_false fun after => notAfter (Int.lt_of_le_of_lt atMost after)
  · obtain ⟨isRead, session, found, expired⟩ := expired_of_reports reports
    obtain ⟨-, timelyRest, -⟩ := List.pairwise_append.mp timely
    obtain ⟨ahead, -⟩ := List.pairwise_cons.mp timelyRest
    obtain ⟨event, member, origin, creates, rfl⟩ := created_of_stored found
    obtain ⟨isCall, draws⟩ := drawn_of_creates member creates
    refine not_validates_of_expired ?_ keepsLater
      (fun other isLater => ahead other isLater now isRead) fun other isLater again =>
        apart event.1 isCall other (List.mem_cons_of_mem _ isLater) _ draws again
    -- The call that reported the expiry left the session as it was.
    intro session' after
    rcases (answer_change reached.1 origin.id call).expiry after with
      ⟨again, named⟩ | ⟨old, isOld, -, same | ⟨time, additionalSeconds, isExtension, -⟩⟩
    · exact absurd (named ▸ (creation_cases again).1)
        (apart event.1 isCall call List.mem_cons_self origin.id draws)
    · cases found.symm.trans isOld
      rw [same]
      exact of_decide_eq_true expired
    · subst isExtension
      generalize (reached.1.answer _).2 = reply at reports
      cases reports

namespace Known

def extended : SessionManager :=
  { childReached with
    sessions := childReached.sessions.insert child.id { child with expiresAt := seconds 9000 } }

theorem trace_extending : trace SessionManager.serve (.new 3600)
    (rootCalls ++ [childCall] ++ [.extend 0 child.id 7200]) =
      (extended, childEvents ++ [(.extend 0 child.id 7200, .done (.ok ()))]) := by
  have answered : childReached.answer (.extend 0 child.id 7200) = (extended, .done (.ok ())) := by
    have found : childReached.sessions[child.id]? = some child := Dict.find_insert_self ..
    simp only [answer, extendSession, found]
    rfl
  rw [trace_append, trace_childCall]
  simp only [trace_cons, trace_nil, SessionManager.serve, answered]
  rfl

theorem ids_apart : child.id ≠ root.id := by
  decide +kernel

end Known

theorem extended_session_outlives_parent :
    let reached := trace SessionManager.serve (.new 3600)
      (Known.rootCalls ++ [Known.childCall] ++ [.extend 0 Known.child.id 7200])
    DelegationChain reached.2 Known.root 1 Known.child ∧
    SessionEvent.Validates Known.child.id (seconds 3601) (.validate (seconds 3601) Known.child.id,
      (reached.1.answer (.validate (seconds 3601) Known.child.id)).2) ∧
    reached.1.sessions[Known.root.id]? = some Known.root ∧
    Known.root.isExpired (seconds 3601) = true ∧
    SessionEvent.ReportsExpired Known.root.id (seconds 3601)
      (.validate (seconds 3601) Known.root.id,
        (reached.1.answer (.validate (seconds 3601) Known.root.id)).2) ∧
    let revived := ((reached.1.answer (.validate (seconds 3601) Known.root.id)).1.answer
      (.extend (seconds 3601) Known.root.id 60)).1
    SessionEvent.Validates Known.root.id (seconds 3602) (.validate (seconds 3602) Known.root.id,
      (revived.answer (.validate (seconds 3602) Known.root.id)).2) := by
  rw [Known.trace_extending]
  have isChild : Known.extended.sessions[Known.child.id]? =
      some { Known.child with expiresAt := seconds 9000 } := Dict.find_insert_self ..
  have isRoot : Known.extended.sessions[Known.root.id]? = some Known.root := by
    simp only [Known.extended, Known.childReached, Known.rootReached,
      Dict.find_insert_of_ne _ Known.ids_apart, Dict.find_insert_self]
  refine ⟨?_, ?_, isRoot, rfl, ?_, ?_⟩
  · exact .delegate .start ⟨Known.childEvents.take 1, _, [], _, _, _, _, _, _, rfl, ⟨_, rfl⟩, by simp⟩
  · simp only [answer, validateSession, withSession, isChild, Prod.map]
    exact .plain
  · simp only [answer, validateSession, withSession, isRoot, Prod.map]
    exact .plain
  · have refused : (Known.extended.answer (.validate (seconds 3601) Known.root.id)).1 =
        { Known.extended with sessions := Known.extended.sessions.insert Known.root.id Known.root } := by
      simp only [answer, validateSession, withSession, isRoot, Prod.map]
      rfl
    have extends_ : (SessionManager.answer { Known.extended with
          sessions := Known.extended.sessions.insert Known.root.id Known.root }
        (.extend (seconds 3601) Known.root.id 60)).1 = { Known.extended with
          sessions := (Known.extended.sessions.insert Known.root.id Known.root).insert Known.root.id
            { Known.root with expiresAt := seconds 3660 } } := by
      simp only [answer, extendSession, Dict.find_insert_self]
      rfl
    dsimp only
    rw [refused, extends_]
    simp only [answer, validateSession, withSession, Dict.find_insert_self, Prod.map]
    exact .plain

theorem delegated_sessions_expire_first_child :
    let reached := trace SessionManager.serve (.new 3600) (Known.rootCalls ++ [Known.childCall])
    SessionEvent.Validates Known.child.id 1 (.validate 1 Known.child.id,
      (reached.1.answer (.validate 1 Known.child.id)).2) ∧
    ∀ ancestor, reached.1.sessions[Known.root.id]? = some ancestor →
      ancestor.isExpired 1 = false := by
  have validates : SessionEvent.Validates Known.child.id 1 (.validate 1 Known.child.id,
      ((trace SessionManager.serve (.new 3600) (Known.rootCalls ++ [Known.childCall])).1.answer
        (.validate 1 Known.child.id)).2) := by
    have isChild : Known.childReached.sessions[Known.child.id]? = some Known.child :=
      Dict.find_insert_self ..
    rw [Known.trace_childCall]
    simp only [answer, validateSession, withSession, isChild, Prod.map]
    exact .plain
  refine ⟨validates, fun ancestor isAncestor => ?_⟩
  refine (@delegated_sessions_expire_first 3600 (Known.rootCalls ++ [Known.childCall]) []
    (.validate 1 Known.child.id) ?_ ?_ ?_).1 Known.root Known.child ancestor 0 1
    (.delegate .start Known.delegates) validates isAncestor
  · simp [Known.rootCalls, Known.childCall, SessionCall.DrawsApart, SessionCall.drawsId]
    exact Known.ids_apart
  · simp [Known.rootCalls, Known.childCall, SessionCall.Before, SessionCall.reads]
  · refine along_append.mpr ⟨along_append.mpr ⟨⟨trivial, trivial, trivial⟩, ?_⟩, trivial, trivial⟩
    rw [Known.trace_rootCalls]
    refine ⟨fun parent isParent => .inl ?_, trivial⟩
    have isRoot : Known.rootReached.sessions[Known.root.id]? = some Known.root :=
      Dict.find_insert_self ..
    rw [← Option.some.inj (isRoot.symm.trans isParent)]
    decide

end Hsm.Auth
