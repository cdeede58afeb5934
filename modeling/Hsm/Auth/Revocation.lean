import Hsm.Auth.Delegation

/-! Revocation of a session reaches all sessions delegated from it, as long as none are orphaned. -/

namespace Hsm.Auth

open SessionManager

def SessionCall.drawsId : SessionCall → Option String
  | .create _ draw _ => some (Session.generateSessionId draw.id)
  | .createWithMetadata _ draw _ _ _ _ => some (Session.generateSessionId draw.id)
  | .createScoped _ draw _ _ _ => some (Session.generateSessionId draw.id)
  | .createFromTemplate _ draw _ _ => some (Session.generateSessionId draw.id)
  | .delegate _ draw _ _ _ => some (Session.generateSessionId draw.id)
  | _ => none

def SessionCall.DrawsApart (first second : SessionCall) : Prop :=
  ∀ sessionId, first.drawsId = some sessionId → second.drawsId ≠ some sessionId

def SessionManager.LeavesNoOrphans (manager : SessionManager) : SessionCall → Prop
  | .delete sessionId => ∀ (id : String) (session : Session),
    manager.sessions[id]? = some session → session.parentSessionId ≠ some sessionId
  | .cleanupExpired times => ∀ (id parentId : String) (session parent : Session),
    manager.sessions[id]? = some session → session.parentSessionId = some parentId →
    manager.sessions[parentId]? = some parent →
    parent.isExpired (times.retained parent) = true →
      session.isExpired (times.retained session) = true
  | _ => True

def SessionManager.Forest (manager : SessionManager) : Prop :=
  ∀ (id parentId : String) (session : Session), manager.sessions[id]? = some session →
    session.parentSessionId = some parentId → ∃ parent, manager.sessions[parentId]? = some parent ∧
      session.delegationDepth = parent.delegationDepth + 1 ∧ session.identity = parent.identity

def SessionManager.Keyed (manager : SessionManager) : Prop :=
  ∀ (id : String) (session : Session), manager.sessions[id]? = some session → session.id = id

section

variable {manager : SessionManager}

theorem SessionManager.Originated.keyed {history : List SessionEvent}
    (originated : manager.Originated history) : manager.Keyed := by
  intro id session found
  obtain ⟨earlier, creation, since, origin, -, -, named, -, terms⟩ := originated id session found
  exact (congrArg Session.id terms : _).trans named

theorem SessionManager.Keyed.mem_children (keyed : manager.Keyed) {id parentId : String} :
    id ∈ manager.children parentId ↔ ∃ session, manager.sessions[id]? = some session ∧
      session.parentSessionId = some parentId := by
  simp only [children, List.mem_map, List.mem_filter, Prod.exists, decide_eq_true_eq,
    Std.ExtTreeMap.mem_toList_iff_getElem?_eq_some]
  constructor
  · rintro ⟨key, session, ⟨found, isChild⟩, rfl⟩
    rw [keyed key session found]
    exact ⟨session, found, isChild⟩
  · rintro ⟨session, found, isChild⟩
    exact ⟨id, session, ⟨found, isChild⟩, keyed id session found⟩

theorem SessionManager.Keyed.nodup_children (keyed : manager.Keyed) (parentId : String) :
    (manager.children parentId).Nodup := by
  rw [children, List.Nodup, List.pairwise_map]
  refine List.Pairwise.imp_of_mem ?_ (Std.ExtTreeMap.distinct_keys_toList.filter _)
  intro first second isFirst isSecond apart same
  have firstKey := keyed first.1 first.2
    (Std.ExtTreeMap.mem_toList_iff_getElem?_eq_some.mp (List.mem_of_mem_filter isFirst))
  have secondKey := keyed second.1 second.2
    (Std.ExtTreeMap.mem_toList_iff_getElem?_eq_some.mp (List.mem_of_mem_filter isSecond))
  rw [firstKey, secondKey] at same
  exact apart (Std.compare_eq_iff_eq.mpr same)

theorem SessionManager.Keyed.children_subset (keyed : manager.Keyed) (parentId : String) :
    manager.children parentId ⊆ manager.sessions.toList.map Prod.fst := by
  intro id member
  obtain ⟨session, found, -⟩ := keyed.mem_children.mp member
  exact List.mem_map.mpr ⟨(id, session), Std.ExtTreeMap.mem_toList_iff_getElem?_eq_some.mpr found, rfl⟩

theorem SessionManager.Forest.deeper (forest : manager.Forest) (keyed : manager.Keyed)
    {first second : String}
    (path : Relation.TransGen (fun parent id => id ∈ manager.children parent) first second) :
    ∃ session below, manager.sessions[first]? = some session ∧
      manager.sessions[second]? = some below ∧ session.delegationDepth < below.delegationDepth := by
  induction path with
  | single edge =>
    obtain ⟨below, found, isChild⟩ := keyed.mem_children.mp edge
    obtain ⟨parent, isParent, depth, -⟩ := forest _ _ below found isChild
    exact ⟨parent, below, isParent, found, by omega⟩
  | tail path edge ih =>
    obtain ⟨session, parent, isSession, isParent, above⟩ := ih
    obtain ⟨below, found, isChild⟩ := keyed.mem_children.mp edge
    obtain ⟨other, isOther, depth, -⟩ := forest _ _ below found isChild
    cases isParent.symm.trans isOther
    exact ⟨session, below, isSession, found, by omega⟩

/-- Revocation ends exactly if the session is not below itself. -/
theorem SessionManager.Keyed.cascade_ends_iff (keyed : manager.Keyed) (sessionId : String) :
    (∃ result, manager.revokeSessionCascade sessionId = some result) ↔
      ¬ Relation.TransGen (fun parent id => id ∈ manager.children parent) sessionId sessionId := by
  constructor
  · rintro ⟨result, ends⟩ cycle
    rw [revokeSessionCascade, worklist_endless cycle _ [] [sessionId] ⟨sessionId, by simp, .refl⟩]
      at ends
    cases ends
  · intro acyclic
    have unique : ∀ first second id, id ∈ manager.children first →
        id ∈ manager.children second → first = second := by
      intro first second id isFirst isSecond
      obtain ⟨session, found, ofFirst⟩ := keyed.mem_children.mp isFirst
      obtain ⟨other, isOther, ofSecond⟩ := keyed.mem_children.mp isSecond
      cases found.symm.trans isOther
      exact Option.some.inj (ofFirst.symm.trans ofSecond)
    obtain ⟨ids, ends⟩ := worklist_ends unique keyed.nodup_children acyclic keyed.children_subset
      (manager.sessions.size + 2) [] [sessionId]
      ⟨List.nodup_singleton _, by simp, by simp [Relation.ReflTransGen.refl]⟩ (by simp)
    exact ⟨_, by rw [revokeSessionCascade, ends]; rfl⟩

theorem SessionManager.Forest.revokes (forest : manager.Forest) (keyed : manager.Keyed)
    (sessionId : String) :
    ∃ next count ids, manager.revokeSessionCascade sessionId = some (next, count) ∧
      (∀ id : String, next.sessions[id]? = if id ∈ ids then none else manager.sessions[id]?) ∧
      (∀ id, Relation.ReflTransGen (fun parent id => id ∈ manager.children parent) sessionId id →
        id ∈ ids) ∧
      ∀ id ∈ ids, manager.children id ⊆ ids := by
  have acyclic : ¬ Relation.TransGen (fun parent id => id ∈ manager.children parent)
      sessionId sessionId := by
    intro cycle
    obtain ⟨session, below, isSession, isBelow, deeper⟩ := forest.deeper keyed cycle
    cases isSession.symm.trans isBelow
    exact Nat.lt_irrefl _ deeper
  obtain ⟨⟨next, count⟩, revoked⟩ := (keyed.cascade_ends_iff sessionId).mpr acyclic
  obtain ⟨ids, ends, result⟩ := Option.map_eq_some_iff.mp revoked
  refine ⟨next, count, ids, revoked, fun id => ?_,
    fun id reaches => mem_worklist_of_reaches ends reaches, (worklist_closed ends (by simp)).2⟩
  have after := find_foldl_revoke ids (manager, 0) id
  rwa [result] at after

theorem SessionChange.outcome {sessionId : String} {event : SessionEvent} {old new : Option Session}
    (change : SessionChange sessionId event old new) :
    (new = none ∧ (old = none ∨ event.1.removes = true)) ∨
    (∃ session, new = some session ∧ event.Creates session ∧ session.id = sessionId) ∨
    ∃ before session, old = some before ∧ new = some session ∧ session.terms = before.terms := by
  cases change with
  | kept createsNot usesNot =>
    cases old with
    | none => exact .inl ⟨rfl, .inl rfl⟩
    | some session => exact .inr (.inr ⟨session, session, rfl, rfl, rfl⟩)
  | created creates named => exact .inr (.inl ⟨_, rfl, creates, named⟩)
  | used alive left => exact .inr (.inr ⟨_, _, rfl, rfl, rfl⟩)
  | touched now createsNot usesNot => exact .inr (.inr ⟨_, _, rfl, rfl, rfl⟩)
  | counted now createsNot usesNot => exact .inr (.inr ⟨_, _, rfl, rfl, rfl⟩)
  | extended later => exact .inr (.inr ⟨_, _, rfl, rfl, rfl⟩)
  | rotated drawn rotates createsNot usesNot => exact .inr (.inr ⟨_, _, rfl, rfl, rfl⟩)
  | removed removes createsNot usesNot => exact .inl ⟨rfl, .inr removes⟩

variable {call : SessionCall} {session : Session}

theorem creation_cases (creates : SessionEvent.Creates session (call, (manager.answer call).2)) :
    call.drawsId = some session.id ∧ (session.parentSessionId = none ∨
      ∃ times draw parentId restrictedScope ttlSeconds parent expiresAt,
        call = .delegate times draw parentId restrictedScope ttlSeconds ∧
        manager.sessions[parentId]? = some parent ∧
        times.created.plus (seconds (effectiveTtl parent times.measured ttlSeconds)) =
          some expiresAt ∧
        session = delegated parent times.created draw parentId restrictedScope expiresAt) := by
  obtain ⟨token, replied⟩ := creates
  cases call with
  | create now draw identity =>
    simp only [answer, createSession, Session.create] at replied
    generalize now.plus (seconds manager.defaultTtl) = expiry at replied
    cases expiry with
    | none => cases replied
    | some expiresAt =>
      cases replied
      exact ⟨rfl, .inl rfl⟩
  | createWithMetadata now draw identity clientIp userAgent tlsFingerprint =>
    simp only [answer, createSessionWithMetadata, Session.newWithMetadata, Session.create] at replied
    generalize now.plus (seconds manager.defaultTtl) = expiry at replied
    cases expiry with
    | none => cases replied
    | some expiresAt =>
      cases replied
      exact ⟨rfl, .inl rfl⟩
  | createScoped now draw identity scope ttlSeconds =>
    simp only [answer, createScopedSession, Session.createWithScope, Session.create] at replied
    generalize now.plus (seconds (ttlSeconds.getD manager.defaultTtl)) = expiry at replied
    cases expiry with
    | none => cases replied
    | some expiresAt =>
      cases replied
      exact ⟨rfl, .inl rfl⟩
  | createFromTemplate now draw identity templateId =>
    simp only [answer, createSessionFromTemplate, Session.createFromTemplate, Session.create] at replied
    split at replied
    · cases replied
    · rename_i template found
      generalize now.plus (seconds template.defaultTtlSeconds) = expiry at replied
      cases expiry with
      | none => cases replied
      | some expiresAt =>
        cases replied
        exact ⟨rfl, .inl rfl⟩
  | delegate times draw parentSessionId restrictedScope ttlSeconds =>
    rw [answer] at replied
    rcases delegateSession_cases manager times draw parentSessionId restrictedScope ttlSeconds with
      panics | ⟨error, failed⟩ | ⟨parent, expiresAt, found, -, -, expiry, succeeds⟩
    · rw [panics] at replied
      cases replied
    · rw [failed] at replied
      cases replied
    · rw [succeeds] at replied
      cases replied
      exact ⟨rfl, .inr ⟨times, draw, parentSessionId, restrictedScope, ttlSeconds, parent, expiresAt,
        rfl, found, expiry, rfl⟩⟩
  | revokeCascade id =>
    simp only [answer, settle] at replied
    split at replied <;> cases replied
  | extend now id additionalSeconds =>
    simp only [answer, settle] at replied
    split at replied <;> cases replied
  | _ => cases replied

theorem SessionManager.Forest.no_orphan (forest : manager.Forest) (keyed : manager.Keyed)
    (removes : call.removes = true) (tidy : manager.LeavesNoOrphans call) {id parentId : String}
    (found : manager.sessions[id]? = some session)
    (isChild : session.parentSessionId = some parentId)
    (stays : (manager.answer call).1.sessions[id]? ≠ none) :
    (manager.answer call).1.sessions[parentId]? ≠ none := by
  obtain ⟨parent, isParent, -, identity⟩ := forest id parentId session found isChild
  cases call with
  | revokeCascade sessionId =>
    obtain ⟨next, count, ids, revoked, after, -, closed⟩ := forest.revokes keyed sessionId
    simp only [answer, revoked, settle, after] at stays ⊢
    split
    · rename_i gone
      -- The child of a revoked session is revoked.
      have isGone := closed parentId gone (keyed.mem_children.mpr ⟨session, found, isChild⟩)
      exact absurd (if_pos isGone) stays
    · rw [isParent]
      intro none
      cases none
  | delete sessionId =>
    have apart : sessionId ≠ parentId := fun same => tidy id session found (same ▸ isChild)
    simp only [answer, deleteSession]
    split
    · change manager.sessions[parentId]? ≠ none
      simp [isParent]
    · change (manager.sessions.erase sessionId)[parentId]? ≠ none
      simp [Dict.find_erase, apart, isParent]
  | cleanupExpired times =>
    simp only [answer, cleanupExpired, Prod.map, id_eq, Dict.find_filter, found, isParent,
      Option.filter_some] at stays ⊢
    cases gone : parent.isExpired (times.retained parent) with
    | false => simp
    | true => simp [tidy id parentId session parent found isChild isParent gone] at stays
  | deleteClientSessions clientCn =>
    simp only [answer, deleteClientSessions, Prod.map, id_eq, Dict.find_filter, found, isParent,
      Option.filter_some, identity] at stays ⊢
    split
    · simp
    · rename_i gone
      exact absurd (if_neg gone) stays
  | _ => cases removes

theorem SessionManager.Forest.serve (forest : manager.Forest) (keyed : manager.Keyed)
    (tidy : manager.LeavesNoOrphans call)
    (fresh : ∀ sessionId, call.drawsId = some sessionId → manager.sessions[sessionId]? = none) :
    (manager.serve call).1.Forest := by
  -- A session that was stored is still the same one, if it is stored.
  have same : ∀ (id : String) (before : Session), manager.sessions[id]? = some before →
      (manager.answer call).1.sessions[id]? ≠ none →
        ∃ session, (manager.answer call).1.sessions[id]? = some session ∧
          session.terms = before.terms := by
    intro id before found stays
    rcases (answer_change manager id call).outcome with
      ⟨gone, -⟩ | ⟨session, -, creates, named⟩ | ⟨other, session, isOther, after, terms⟩
    · exact absurd gone stays
    · have missing := fresh session.id (creation_cases creates).1
      rw [named, found] at missing
      cases missing
    · cases found.symm.trans isOther
      exact ⟨session, after, terms⟩
  intro id parentId session after isChild
  rcases (answer_change manager id call).outcome with
    ⟨gone, -⟩ | ⟨created, isCreated, creates, named⟩ | ⟨before, other, found, isOther, terms⟩
  · cases after.symm.trans gone
  · cases after.symm.trans isCreated
    obtain ⟨draws, root | ⟨times, draw, storedId, scope, ttl, parent, expiresAt, isCall, isParent,
      -, rfl⟩⟩ := creation_cases creates
    · cases isChild.symm.trans root
    · -- The parent is stored before, and a delegation removes nothing.
      cases isChild
      have stays : (manager.answer call).1.sessions[parentId]? ≠ none := by
        intro gone
        rcases (answer_change manager parentId call).outcome with
          ⟨-, missing | removes⟩ | ⟨session, isSession, -, -⟩ | ⟨_, session, -, isSession, -⟩
        · cases isParent.symm.trans missing
        · rw [isCall] at removes
          cases removes
        · cases gone.symm.trans isSession
        · cases gone.symm.trans isSession
      obtain ⟨next, isNext, terms⟩ := same parentId parent isParent stays
      refine ⟨next, isNext, ?_, (congrArg Session.identity terms : _).symm⟩
      exact congrArg (· + 1) (congrArg Session.delegationDepth terms : _).symm
  · cases after.symm.trans isOther
    have childBefore : before.parentSessionId = some parentId :=
      (congrArg Session.parentSessionId terms : _).symm.trans isChild
    obtain ⟨parent, isParent, depth, identity⟩ := forest id parentId before found childBefore
    have stays : (manager.answer call).1.sessions[parentId]? ≠ none := by
      intro gone
      rcases (answer_change manager parentId call).outcome with
        ⟨-, missing | removes⟩ | ⟨session, isSession, -, -⟩ | ⟨_, session, -, isSession, -⟩
      · cases isParent.symm.trans missing
      · exact forest.no_orphan keyed removes tidy found childBefore (by simp [isOther]) gone
      · cases gone.symm.trans isSession
      · cases gone.symm.trans isSession
    obtain ⟨next, isNext, sameTerms⟩ := same parentId parent isParent stays
    refine ⟨next, isNext, ?_, ?_⟩
    · calc session.delegationDepth = before.delegationDepth := (congrArg Session.delegationDepth terms : _)
        _ = parent.delegationDepth + 1 := depth
        _ = next.delegationDepth + 1 :=
          congrArg (· + 1) (congrArg Session.delegationDepth sameTerms : _).symm
    · calc session.identity = before.identity := (congrArg Session.identity terms : _)
        _ = parent.identity := identity
        _ = next.identity := (congrArg Session.identity sameTerms : _).symm

theorem drawn_of_creates {calls : List SessionCall} {event : SessionEvent}
    (member : event ∈ (trace SessionManager.serve manager calls).2)
    (creates : event.Creates session) : event.1 ∈ calls ∧ event.1.drawsId = some session.id := by
  refine trace_outputs (fun _ => True)
    (fun event => event.Creates session → event.1 ∈ calls ∧ event.1.drawsId = some session.id)
    (fun manager call isCall _ _ => ⟨trivial, fun event isEvent creates => ?_⟩) manager trivial
    (Along.of_forall (fun _ _ _ => trivial) manager) event member creates
  cases List.mem_singleton.mp isEvent
  exact ⟨isCall, (creation_cases creates).1⟩

theorem creates_unique {calls : List SessionCall} (fresh : calls.Pairwise SessionCall.DrawsApart)
    {first second : SessionEvent} {other : Session}
    (isFirst : first ∈ (trace SessionManager.serve manager calls).2)
    (isSecond : second ∈ (trace SessionManager.serve manager calls).2)
    (creates : first.Creates session) (creates' : second.Creates other)
    (named : other.id = session.id) : other = session := by
  induction calls generalizing manager with
  | nil => cases isFirst
  | cons call rest ih =>
    obtain ⟨ahead, behind⟩ := List.pairwise_cons.mp fresh
    rw [trace_cons] at isFirst isSecond
    -- A later creation under the same identifier would have drawn it again.
    rcases List.mem_append.mp isFirst with now | later <;>
      rcases List.mem_append.mp isSecond with now' | later'
    · cases List.mem_singleton.mp now
      cases List.mem_singleton.mp now'
      obtain ⟨token, isSession⟩ := creates
      obtain ⟨token', isOther⟩ := creates'
      cases isSession.symm.trans isOther
      rfl
    · cases List.mem_singleton.mp now
      obtain ⟨isCall, draws⟩ := drawn_of_creates later' creates'
      rw [named] at draws
      exact absurd draws (ahead _ isCall _ (creation_cases creates).1)
    · cases List.mem_singleton.mp now'
      obtain ⟨isCall, draws⟩ := drawn_of_creates later creates
      rw [← named] at draws
      exact absurd draws (ahead _ isCall _ (creation_cases creates').1)
    · exact ih behind later later'

end

section

variable {defaultTtl : Int} {calls : List SessionCall}

theorem forest_trace (fresh : calls.Pairwise SessionCall.DrawsApart)
    (tidy : Along SessionManager.LeavesNoOrphans SessionManager.serve (.new defaultTtl) calls) :
    (trace SessionManager.serve (.new defaultTtl) calls).1.Forest := by
  induction calls using List.reverseRecOn with
  | nil =>
    intro id parentId session found
    simp [SessionManager.new] at found
  | append_singleton rest call ih =>
    obtain ⟨before, -, apart⟩ := List.pairwise_append.mp fresh
    obtain ⟨tidyBefore, tidyNow, -⟩ := along_append.mp tidy
    have originated := originated_trace defaultTtl rest
    rw [trace_append]
    refine (ih before tidyBefore).serve originated.keyed tidyNow fun sessionId draws => ?_
    -- A stored session was created by an earlier call, which drew another identifier.
    cases found : (trace SessionManager.serve (.new defaultTtl) rest).1.sessions[sessionId]? with
    | none => rfl
    | some session =>
      obtain ⟨earlier, creation, since, origin, split, creates, rfl, -, -⟩ :=
        originated sessionId session found
      have member : creation ∈ (trace SessionManager.serve (.new defaultTtl) rest).2 := by
        rw [split]
        simp
      obtain ⟨isCall, drawn⟩ := drawn_of_creates member creates
      exact absurd draws (apart _ isCall call (by simp) _ drawn)

theorem terms_of_creates (fresh : calls.Pairwise SessionCall.DrawsApart) {event : SessionEvent}
    {session stored : Session}
    (member : event ∈ (trace SessionManager.serve (.new defaultTtl) calls).2)
    (creates : event.Creates session)
    (found : (trace SessionManager.serve (.new defaultTtl) calls).1.sessions[session.id]? =
      some stored) : stored.terms = session.terms := by
  obtain ⟨earlier, creation, since, origin, split, creates', named, -, terms⟩ :=
    originated_trace defaultTtl calls session.id stored found
  have isCreation : creation ∈ (trace SessionManager.serve (.new defaultTtl) calls).2 := by
    rw [split]
    simp
  rw [terms, creates_unique fresh member isCreation creates creates' named]

theorem path_of_chain (fresh : calls.Pairwise SessionCall.DrawsApart)
    (forest : (trace SessionManager.serve (.new defaultTtl) calls).1.Forest) {length : Nat}
    {source session stored : Session}
    (chain : DelegationChain (trace SessionManager.serve (.new defaultTtl) calls).2 source length
      session)
    (found : (trace SessionManager.serve (.new defaultTtl) calls).1.sessions[session.id]? =
      some stored) :
    Relation.ReflTransGen (fun parent id =>
        id ∈ (trace SessionManager.serve (.new defaultTtl) calls).1.children parent)
      source.id session.id := by
  induction chain generalizing stored with
  | start => exact .refl
  | @delegate length parent child chain delegates ih =>
    obtain ⟨origin, created, draw, scope, expiresAt, -, -, made⟩ := delegates.child_eq
    have isChild : child.parentSessionId = some parent.id := by rw [made, delegated]
    obtain ⟨event, member, creates⟩ := delegates.created
    have terms := terms_of_creates fresh member creates found
    have storedChild : stored.parentSessionId = some parent.id :=
      (congrArg Session.parentSessionId terms : _).trans isChild
    obtain ⟨above, isAbove, -, -⟩ := forest child.id parent.id stored found storedChild
    exact (ih isAbove).tail
      ((originated_trace defaultTtl calls).keyed.mem_children.mpr ⟨stored, found, storedChild⟩)

end

inductive SessionEvent.Validates (sessionId : String) (now : Instant) : SessionEvent → Prop where
  | inScope {token : String} {operation : Option Permission} {keyId : Option String}
      {session : Session} :
    Validates sessionId now (.validateScoped now sessionId token operation keyId,
      .validated (.ok session))
  | plain {session : Session} :
    Validates sessionId now (.validate now sessionId, .validated (.ok session))
  | withToken {token : String} {session : Session} :
    Validates sessionId now (.validateWithToken now sessionId token, .validated (.ok session))
  | withMetadata {token : String} {clientIp userAgent tlsFingerprint : Option String}
      {session : Session} :
    Validates sessionId now
      (.validateWithMetadata now sessionId token clientIp userAgent tlsFingerprint,
        .validated (.ok session))

section

variable {manager : SessionManager} {sessionId : String}

theorem alive_of_validates {call : SessionCall} {now : Instant}
    (validates : SessionEvent.Validates sessionId now (call, (manager.answer call).2)) :
    ∃ session, manager.sessions[sessionId]? = some session ∧ session.isExpired now = false := by
  generalize isEvent : (call, (manager.answer call).2) = event at validates
  cases validates with
  | inScope =>
    obtain ⟨rfl, replied⟩ := Prod.mk.inj isEvent
    have valid : (manager.validateScopedSession now sessionId _ _ _).2 = .ok _ :=
      SessionReply.validated.inj replied
    unfold validateScopedSession at valid
    split at valid
    · cases valid
    · rename_i session found
      split at valid
      · cases valid
      · rename_i alive
        exact ⟨session, found, by simpa using alive⟩
  | plain =>
    obtain ⟨rfl, replied⟩ := Prod.mk.inj isEvent
    obtain ⟨session, found, valid⟩ := found_of_reply (SessionReply.validated.inj replied) (by simp)
    refine ⟨session, found, ?_⟩
    unfold Session.validate at valid
    split at valid
    · cases valid
    · rename_i alive
      simpa using alive
  | withToken =>
    obtain ⟨rfl, replied⟩ := Prod.mk.inj isEvent
    obtain ⟨session, found, valid⟩ := found_of_reply (SessionReply.validated.inj replied) (by simp)
    refine ⟨session, found, ?_⟩
    unfold Session.validateWithToken at valid
    split at valid
    · cases valid
    · rename_i alive
      simpa using alive
  | withMetadata =>
    obtain ⟨rfl, replied⟩ := Prod.mk.inj isEvent
    obtain ⟨session, found, valid⟩ := found_of_reply (SessionReply.validated.inj replied) (by simp)
    refine ⟨session, found, ?_⟩
    unfold Session.validateWithMetadata at valid
    split at valid
    · cases valid
    · rename_i alive
      simpa using alive

theorem not_validates_of_gone {calls : List SessionCall}
    (gone : manager.sessions[sessionId]? = none)
    (drawsNot : ∀ call ∈ calls, call.drawsId ≠ some sessionId) :
    ∀ event ∈ (trace SessionManager.serve manager calls).2,
      ∀ now, ¬ SessionEvent.Validates sessionId now event := by
  refine trace_outputs (fun manager => manager.sessions[sessionId]? = none) _
    (fun manager call isCall gone _ => ⟨?_, fun event isEvent now => ?_⟩) manager gone
    (Along.of_forall (fun _ _ _ => trivial) manager)
  · rcases (answer_change manager sessionId call).outcome with
      ⟨isGone, -⟩ | ⟨session, -, creates, rfl⟩ | ⟨before, -, found, -, -⟩
    · exact isGone
    · exact absurd (creation_cases creates).1 (drawsNot call isCall)
    · cases gone.symm.trans found
  · cases List.mem_singleton.mp isEvent
    intro validates
    obtain ⟨session, found, -⟩ := alive_of_validates validates
    cases gone.symm.trans found

end

/-- Revocation reaches all delegated sessions, if none is removed before those below it. -/
theorem cascade_reaches_descendants {defaultTtl : Int} {before later : List SessionCall}
    {sessionId : String}
    (fresh : (before ++ .revokeCascade sessionId :: later).Pairwise SessionCall.DrawsApart)
    (tidy : Along SessionManager.LeavesNoOrphans SessionManager.serve (.new defaultTtl) before) :
    let reached := trace SessionManager.serve (.new defaultTtl) before
    (∃ count, (reached.1.answer (.revokeCascade sessionId)).2 = .counted count) ∧
    (∀ (source session : Session) (length : Nat), source.id = sessionId →
      DelegationChain reached.2 source (length + 1) session →
      ∀ event ∈ (trace SessionManager.serve (reached.1.answer (.revokeCascade sessionId)).1 later).2,
        ∀ now, ¬ SessionEvent.Validates session.id now event) ∧
    ∀ table : SessionManager, table.Keyed →
      ((∃ result, table.revokeSessionCascade sessionId = some result) ↔
        ¬ Relation.TransGen (fun parent id => id ∈ table.children parent) sessionId sessionId) := by
  intro reached
  obtain ⟨freshBefore, -, apart⟩ := List.pairwise_append.mp fresh
  have forest := forest_trace freshBefore tidy
  have keyed := (originated_trace defaultTtl before).keyed
  obtain ⟨next, count, ids, revoked, after, reaches, -⟩ := forest.revokes keyed sessionId
  have answered : reached.1.answer (.revokeCascade sessionId) = (next, .counted count) := by
    rw [answer, revoked, settle]
  rw [answered]
  refine ⟨⟨count, rfl⟩, ?_, fun table isKeyed => isKeyed.cascade_ends_iff sessionId⟩
  rintro source session length rfl chain
  have isCreated : ∃ event ∈ reached.2, event.Creates session := by
    cases chain with
    | delegate chain delegates => exact delegates.created
  obtain ⟨event, member, creates⟩ := isCreated
  obtain ⟨isCall, draws⟩ := drawn_of_creates member creates
  refine not_validates_of_gone ?_ fun call isLater again =>
    apart event.1 isCall call (List.mem_cons_of_mem _ isLater) session.id draws again
  rw [after]
  split
  · rfl
  · rename_i stays
    -- A session that is still stored is reached by parent links, and revoked.
    cases found : reached.1.sessions[session.id]? with
    | none => rfl
    | some stored =>
      exact absurd (reaches _ (path_of_chain freshBefore forest chain found)) stays

namespace Known

def orphaning : List SessionCall := rootCalls ++ [childCall] ++ [grandchildCall, .delete child.id]

def orphaned : SessionManager :=
  { grandchildReached with
    sessions := grandchildReached.sessions.erase child.id
    rateLimiters := grandchildReached.rateLimiters.erase child.id }

theorem trace_orphaning : trace SessionManager.serve (.new 3600) orphaning = (orphaned,
    grandchildEvents ++ [(.delete child.id, .done (.ok ()))]) := by
  have deleted : grandchildReached.answer (.delete child.id) = (orphaned, .done (.ok ())) := by
    have stored : child.id ∈ grandchildReached.sessions := by
      simp [grandchildReached, childReached]
    simp only [answer, deleteSession, stored, not_true_eq_false, if_false]
    rfl
  rw [orphaning, trace_append, trace_childCall]
  simp only [trace_cons, trace_nil, SessionManager.serve, answer_grandchildCall, deleted]
  rfl

def looped : SessionManager where
  sessions := (∅ : Dict String Session).insert "a"
    { root with id := "a", parentSessionId := some "a" }
  templates := ∅
  rateLimiters := ∅
  defaultTtl := 0

end Known

theorem orphan_survives_cascade :
    let reached := trace SessionManager.serve (.new 3600) Known.orphaning
    DelegationChain reached.2 Known.root 2 Known.grandchild ∧
    SessionEvent.Validates Known.grandchild.id 1 (.validate 1 Known.grandchild.id,
      ((reached.1.answer (.revokeCascade Known.root.id)).1.answer
        (.validate 1 Known.grandchild.id)).2) ∧
    ∀ steps, worklist Known.looped.children steps [] ["a"] = none := by
  rw [Known.trace_orphaning]
  have validated : ((Known.orphaned.answer (.revokeCascade Known.root.id)).1.answer
      (.validate 1 Known.grandchild.id)).2 =
      .validated (.ok { Known.grandchild with lastAccessed := 1 }) := by
    decide +kernel
  refine ⟨?_, ?_, fun steps => ?_⟩
  · exact .delegate (.delegate .start ⟨Known.childEvents.take 1, _, [], _, _, _, _, _, _, rfl,
      ⟨_, rfl⟩, by simp⟩) ⟨Known.childEvents.take 2, _, [], _, _, _, _, _, _, rfl, ⟨_, rfl⟩, by simp⟩
  · dsimp only
    rw [validated]
    exact .plain
  · exact worklist_endless (.single (by decide +kernel)) steps [] ["a"] ⟨"a", by simp, .refl⟩

theorem cascade_reaches_descendants_child :
    let reached := trace SessionManager.serve (.new 3600) (Known.rootCalls ++ [Known.childCall])
    ∀ event ∈ (trace SessionManager.serve (reached.1.answer (.revokeCascade Known.root.id)).1
        [.validate 1 Known.child.id]).2,
      ∀ now, ¬ SessionEvent.Validates Known.child.id now event := by
  refine (cascade_reaches_descendants ?_ ?_).2.1 Known.root Known.child 0 rfl
    (.delegate .start Known.delegates)
  · have apart : Session.generateSessionId [2] ≠ Session.generateSessionId [1] := by
      decide +kernel
    simp [Known.rootCalls, Known.childCall, SessionCall.DrawsApart, SessionCall.drawsId, apart]
  · exact ⟨trivial, trivial, trivial, trivial⟩

end Hsm.Auth
