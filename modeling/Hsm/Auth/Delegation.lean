import Hsm.Auth.SessionLaws

/-! Delegation never widens authority, along chains of any length. -/

namespace Hsm.Auth

open SessionManager

/-- What never changes about a session. -/
def Session.terms (session : Session) : Session :=
  { session with lastAccessed := 0, expiresAt := 0, tokenHash := [], operationCount := 0 }

def Session.From (history : List SessionEvent) (sessionId : String) (session : Session) : Prop :=
  ∃ earlier creation since origin, history = earlier ++ creation :: since ∧
    SessionEvent.Creates origin creation ∧ origin.id = sessionId ∧
    (∀ event ∈ since, ¬ SessionEvent.CreatesAt sessionId event) ∧ session.terms = origin.terms

def SessionManager.Originated (manager : SessionManager) (history : List SessionEvent) : Prop :=
  ∀ (sessionId : String) (session : Session), manager.sessions[sessionId]? = some session →
    session.From history sessionId

section

variable {history : List SessionEvent} {sessionId : String} {session : Session}

theorem Session.From.wait (from_ : session.From history sessionId) {event : SessionEvent}
    (createsNot : ¬ event.CreatesAt sessionId) : session.From (history ++ [event]) sessionId := by
  obtain ⟨earlier, creation, since, origin, rfl, creates, named, alone, terms⟩ := from_
  refine ⟨earlier, creation, since ++ [event], origin, by simp, creates, named, ?_, terms⟩
  intro other member
  rcases List.mem_append.mp member with before | last
  · exact alone other before
  · cases List.mem_singleton.mp last
    exact createsNot

theorem Session.From.of_terms (from_ : session.From history sessionId) {next : Session}
    (same : next.terms = session.terms) : next.From history sessionId := by
  obtain ⟨earlier, creation, since, origin, split, creates, named, alone, terms⟩ := from_
  exact ⟨earlier, creation, since, origin, split, creates, named, alone, same.trans terms⟩

theorem SessionManager.Originated.serve {manager : SessionManager}
    (originated : manager.Originated history) (call : SessionCall) :
    (manager.serve call).1.Originated (history ++ (manager.serve call).2) := by
  intro sessionId
  have before := originated sessionId
  have change := answer_change manager sessionId call
  simp only [SessionManager.serve]
  generalize (manager.answer call).2 = reply at change ⊢
  generalize manager.sessions[sessionId]? = old at before change
  generalize (manager.answer call).1.sessions[sessionId]? = new at change ⊢
  rintro next rfl
  cases change with
  | kept createsNot => exact (before next rfl).wait createsNot
  | created creates named =>
    exact ⟨history, (call, reply), [], next, rfl, creates, named, by simp, rfl⟩
  | used alive left => exact ((before _ rfl).wait (not_createsAt rfl)).of_terms rfl
  | touched now createsNot usesNot => exact ((before _ rfl).wait createsNot).of_terms rfl
  | counted now createsNot usesNot => exact ((before _ rfl).wait createsNot).of_terms rfl
  | extended later => exact ((before _ rfl).wait (not_createsAt rfl)).of_terms rfl
  | rotated drawn rotates createsNot usesNot =>
    exact ((before _ rfl).wait createsNot).of_terms rfl

theorem originated_trace (defaultTtl : Int) (calls : List SessionCall) :
    (trace SessionManager.serve (.new defaultTtl) calls).1.Originated
      (trace SessionManager.serve (.new defaultTtl) calls).2 := by
  have start : (SessionManager.new defaultTtl).Originated [] := by
    intro sessionId session found
    simp [SessionManager.new] at found
  exact trace_invariant SessionManager.Originated
    (fun manager history call originated _ => originated.serve call) calls _ [] start
    (Along.of_forall (fun _ _ _ => trivial) _)

end

def Delegates (history : List SessionEvent) (parent child : Session) : Prop :=
  ∃ earlier creation since times draw restrictedScope ttlSeconds token later,
    history = earlier ++ creation :: (since ++
      (.delegate times draw parent.id restrictedScope ttlSeconds,
        .created (.ok ⟨child, token⟩)) :: later) ∧
    SessionEvent.Creates parent creation ∧
    ∀ event ∈ since, ¬ SessionEvent.CreatesAt parent.id event

theorem Delegates.created {history : List SessionEvent} {parent child : Session}
    (delegates : Delegates history parent child) : ∃ event ∈ history, event.Creates child := by
  obtain ⟨earlier, creation, since, times, draw, scope, ttl, token, later, rfl, -, -⟩ := delegates
  exact ⟨(.delegate times draw parent.id scope ttl, .created (.ok ⟨child, token⟩)), by simp, token,
    rfl⟩

inductive DelegationChain (history : List SessionEvent) (source : Session) : Nat → Session → Prop
  | start : DelegationChain history source 0 source
  | delegate {length : Nat} {parent child : Session}
      (chain : DelegationChain history source length parent)
      (delegates : Delegates history parent child) :
    DelegationChain history source (length + 1) child

def Session.maxOperations (session : Session) : Option Nat :=
  session.scope.bind (·.maxOperations)

def Session.rateLimit (session : Session) : Option Nat := session.scope.bind (·.rateLimit)

/-- A limit stays, and gets no higher. -/
def Lowers (limit lower : Option Nat) : Prop :=
  ∀ most, limit = some most → ∃ less, lower = some less ∧ less ≤ most

/-- A session may do no more than another, for the same client. -/
structure Session.Narrows (source session : Session) : Prop where
  operations : ∀ operation, session.isOperationAllowed operation = true →
    source.isOperationAllowed operation = true
  keys : ∀ keyId, session.isKeyAllowed keyId = true → source.isKeyAllowed keyId = true
  namespaces : ∀ name, session.isNamespaceAllowed name = true →
    source.isNamespaceAllowed name = true
  maxOperations : Lowers source.maxOperations session.maxOperations
  rateLimit : Lowers source.rateLimit session.rateLimit
  identity : session.identity = source.identity
  tlsFingerprint : session.tlsFingerprint = source.tlsFingerprint
  clientIp : session.clientIp = source.clientIp
  userAgent : session.userAgent = source.userAgent

theorem Lowers.refl (limit : Option Nat) : Lowers limit limit :=
  fun most isLimit => ⟨most, isLimit, Nat.le_refl most⟩

theorem Lowers.trans {first second third : Option Nat} (lower : Lowers first second)
    (lowest : Lowers second third) : Lowers first third := by
  intro most isLimit
  obtain ⟨less, isLess, atMost⟩ := lower most isLimit
  obtain ⟨least, isLeast, atLess⟩ := lowest less isLess
  exact ⟨least, isLeast, Nat.le_trans atLess atMost⟩

theorem allows_of_intersectLists {α : Type} [DecidableEq α] {first second : Option (List α)}
    {item : α} (allowed : SessionScope.allows (SessionScope.intersectLists first second) item = true) :
    SessionScope.allows first item = true := by
  cases first with
  | none => rfl
  | some items =>
    cases second with
    | none => exact allowed
    | some others =>
      simp only [SessionScope.intersectLists, SessionScope.allows, List.contains_iff_mem,
        List.mem_filter] at allowed ⊢
      exact allowed.1

theorem lowers_intersectLimits (first second : Option Nat) :
    Lowers first (SessionScope.intersectLimits first second) := by
  rintro most rfl
  cases second with
  | none => exact ⟨most, rfl, Nat.le_refl most⟩
  | some other => exact ⟨min most other, rfl, Nat.min_le_left most other⟩

theorem Session.Narrows.refl (session : Session) : session.Narrows session :=
  ⟨fun _ allowed => allowed, fun _ allowed => allowed, fun _ allowed => allowed, .refl _, .refl _,
    rfl, rfl, rfl, rfl⟩

theorem Session.Narrows.trans {first second third : Session} (narrow : first.Narrows second)
    (narrower : second.Narrows third) : first.Narrows third where
  operations := fun operation allowed =>
    narrow.operations operation (narrower.operations operation allowed)
  keys := fun keyId allowed => narrow.keys keyId (narrower.keys keyId allowed)
  namespaces := fun name allowed => narrow.namespaces name (narrower.namespaces name allowed)
  maxOperations := narrow.maxOperations.trans narrower.maxOperations
  rateLimit := narrow.rateLimit.trans narrower.rateLimit
  identity := narrower.identity.trans narrow.identity
  tlsFingerprint := narrower.tlsFingerprint.trans narrow.tlsFingerprint
  clientIp := narrower.clientIp.trans narrow.clientIp
  userAgent := narrower.userAgent.trans narrow.userAgent

theorem Session.Narrows.of_terms {first second : Session} (same : second.terms = first.terms) :
    first.Narrows second := by
  have scope : second.scope = first.scope := (congrArg Session.scope same :)
  refine ⟨?_, ?_, ?_, ?_, ?_, (congrArg Session.identity same :),
    (congrArg Session.tlsFingerprint same :), (congrArg Session.clientIp same :),
    (congrArg Session.userAgent same :)⟩
  · simp [Session.isOperationAllowed, scope]
  · simp [Session.isKeyAllowed, scope]
  · simp [Session.isNamespaceAllowed, scope]
  · rw [Session.maxOperations, Session.maxOperations, scope]
    exact .refl _
  · rw [Session.rateLimit, Session.rateLimit, scope]
    exact .refl _

theorem narrows_delegated (parent : Session) (created : Instant) (draw : SessionDraw)
    (parentSessionId : String) (restrictedScope : SessionScope) (expiresAt : Instant) :
    parent.Narrows (delegated parent created draw parentSessionId restrictedScope expiresAt) := by
  cases given : parent.scope with
  | none =>
    -- A parent without a scope may do everything.
    refine ⟨?_, ?_, ?_, ?_, ?_, rfl, rfl, rfl, rfl⟩
    · simp [Session.isOperationAllowed, given]
    · simp [Session.isKeyAllowed, given]
    · simp [Session.isNamespaceAllowed, given]
    · simp [Lowers, Session.maxOperations, given]
    · simp [Lowers, Session.rateLimit, given]
  | some scope =>
    have effective : (delegated parent created draw parentSessionId restrictedScope expiresAt).scope =
        some (scope.intersect restrictedScope) := by
      rw [delegated, effectiveScope, given]
    refine ⟨?_, ?_, ?_, ?_, ?_, rfl, rfl, rfl, rfl⟩
    · intro operation allowed
      rw [Session.isOperationAllowed, effective] at allowed
      rw [Session.isOperationAllowed, given]
      exact allows_of_intersectLists allowed
    · intro keyId allowed
      rw [Session.isKeyAllowed, effective] at allowed
      rw [Session.isKeyAllowed, given]
      exact allows_of_intersectLists allowed
    · intro name allowed
      rw [Session.isNamespaceAllowed, effective] at allowed
      rw [Session.isNamespaceAllowed, given]
      exact allows_of_intersectLists allowed
    · rw [Session.maxOperations, Session.maxOperations, effective, given]
      exact lowers_intersectLimits _ _
    · rw [Session.rateLimit, Session.rateLimit, effective, given]
      exact lowers_intersectLimits _ _

theorem Delegates.child_eq {defaultTtl : Int} {calls : List SessionCall} {parent child : Session}
    (delegates : Delegates (trace SessionManager.serve (.new defaultTtl) calls).2 parent child) :
    ∃ stored created draw restrictedScope expiresAt, stored.terms = parent.terms ∧
      stored.canDelegate = true ∧
      child = delegated stored created draw parent.id restrictedScope expiresAt := by
  obtain ⟨earlier, creation, since, times, draw, restrictedScope, ttlSeconds, token, later, history,
    creates, alone⟩ := delegates
  have single : ∀ (manager : SessionManager) (call : SessionCall),
      ∃ event, (manager.serve call).2 = [event] := fun manager call => ⟨_, rfl⟩
  rw [← List.cons_append, ← List.append_assoc] at history
  obtain ⟨first, call, rest, rfl, past, delegation, -⟩ := trace_split single history
  have originated := originated_trace defaultTtl first
  rw [past] at originated
  generalize (trace SessionManager.serve (.new defaultTtl) first).1 = reached at originated delegation
  obtain ⟨rfl, reply⟩ := Prod.mk.inj (List.singleton_inj.mp delegation)
  rw [answer] at reply
  rcases delegateSession_cases reached times draw parent.id restrictedScope ttlSeconds with
    panics | ⟨error, failed⟩ | ⟨stored, expiresAt, found, able, -, -, succeeds⟩
  · rw [panics] at reply
    cases reply
  · rw [failed] at reply
    cases reply
  · rw [succeeds] at reply
    cases reply
    -- The stored session is the one that was last created under the identifier.
    obtain ⟨earlier', creation', since', origin, split, creates', named, alone', terms⟩ :=
      originated parent.id stored found
    have isOrigin := last_unique split ⟨parent, creates, rfl⟩ ⟨origin, creates', named⟩ alone alone'
    subst isOrigin
    obtain ⟨token, isParent⟩ := creates
    obtain ⟨token', isOrigin⟩ := creates'
    cases isParent.symm.trans isOrigin
    exact ⟨stored, times.created, draw, restrictedScope, expiresAt, terms, able, rfl⟩

theorem Delegates.narrows {defaultTtl : Int} {calls : List SessionCall} {parent child : Session}
    (delegates : Delegates (trace SessionManager.serve (.new defaultTtl) calls).2 parent child) :
    parent.Narrows child ∧ parent.delegationDepth < parent.maxDelegationDepth ∧
      child.delegationDepth = parent.delegationDepth + 1 ∧
      child.maxDelegationDepth = parent.maxDelegationDepth := by
  obtain ⟨stored, created, draw, restrictedScope, expiresAt, terms, able, rfl⟩ := delegates.child_eq
  have depth : stored.delegationDepth = parent.delegationDepth :=
    (congrArg Session.delegationDepth terms :)
  have most : stored.maxDelegationDepth = parent.maxDelegationDepth :=
    (congrArg Session.maxDelegationDepth terms :)
  rw [← depth, ← most]
  simp only [Session.canDelegate, Bool.and_eq_true, decide_eq_true_eq] at able
  exact ⟨(Session.Narrows.of_terms terms).trans (narrows_delegated ..), able.2, rfl, rfl⟩

/-- However long a chain of delegations, its last session may do no more than its first. -/
theorem delegation_never_widens {defaultTtl : Int} {calls : List SessionCall}
    {source session : Session} {length : Nat}
    (chain : DelegationChain (trace SessionManager.serve (.new defaultTtl) calls).2 source length
      session) :
    source.Narrows session ∧ length ≤ source.maxDelegationDepth - source.delegationDepth := by
  -- The depth counts the delegations, and each of them finds it below the limit.
  have general : source.Narrows session ∧ session.maxDelegationDepth = source.maxDelegationDepth ∧
      session.delegationDepth = source.delegationDepth + length ∧
      length ≤ source.maxDelegationDepth - source.delegationDepth := by
    induction chain with
    | start => exact ⟨.refl source, rfl, rfl, Nat.zero_le _⟩
    | delegate chain delegates ih =>
      obtain ⟨narrows, most, depth, -⟩ := ih
      obtain ⟨narrower, left, deeper, sameMost⟩ := delegates.narrows
      exact ⟨narrows.trans narrower, sameMost.trans most, by omega, by omega⟩
  exact ⟨general.1, general.2.2.2⟩

namespace Known

def client : ClientIdentity := ⟨"client-1", none, "default", [.user], "serial-123"⟩

def template : SessionTemplate where
  id := "signing"
  scope := { allowedOperations := some [.sign, .encrypt], maxOperations := some 1 }
  allowDelegation := true
  maxDelegationDepth := 2

def root : Session where
  id := Session.generateSessionId [1]
  identity := client
  createdAt := 0
  lastAccessed := 0
  expiresAt := seconds 3600
  tokenHash := HashedToken.fromToken (SessionToken.new [1])
  operationCount := 0
  tlsFingerprint := none
  clientIp := none
  userAgent := none
  scope := some template.scope
  parentSessionId := none
  delegationDepth := 0
  maxDelegationDepth := 2
  allowDelegation := true
  templateId := some "signing"

def child : Session :=
  delegated root 0 ⟨[2], [2]⟩ root.id { allowedOperations := some [.sign] } (seconds 1800)

def rootCalls : List SessionCall :=
  [.registerTemplate template, .createFromTemplate 0 ⟨[1], [1]⟩ client "signing"]

def childCall : SessionCall :=
  .delegate ⟨0, 0, 0⟩ ⟨[2], [2]⟩ root.id { allowedOperations := some [.sign] } 1800

def rootReached : SessionManager where
  sessions := (∅ : Dict String Session).insert root.id root
  templates := (∅ : Dict String SessionTemplate).insert "signing" template
  rateLimiters := ∅
  defaultTtl := 3600

def childReached : SessionManager :=
  { rootReached with sessions := rootReached.sessions.insert child.id child }

def childEvents : List SessionEvent := [
  (.registerTemplate template, .done (.ok ())),
  (.createFromTemplate 0 ⟨[1], [1]⟩ client "signing", .created (.ok ⟨root, SessionToken.new [1]⟩)),
  (childCall, .created (.ok ⟨child, SessionToken.new [2]⟩))]

theorem trace_rootCalls :
    trace SessionManager.serve (.new 3600) rootCalls = (rootReached, childEvents.take 2) := by
  let templates := (∅ : Dict String SessionTemplate).insert "signing" template
  have registered : (SessionManager.new 3600).answer (.registerTemplate template) =
      ({ SessionManager.new 3600 with templates }, .done (.ok ())) := rfl
  have made : Session.createFromTemplate 0 ⟨[1], [1]⟩ client template =
      some ⟨root, SessionToken.new [1]⟩ := by
    decide +kernel
  have created : SessionManager.answer { SessionManager.new 3600 with templates }
      (.createFromTemplate 0 ⟨[1], [1]⟩ client "signing") =
        (rootReached, .created (.ok ⟨root, SessionToken.new [1]⟩)) := by
    simp only [answer, createSessionFromTemplate, templates, Dict.find_insert_self, made]
    rfl
  simp only [rootCalls, trace_cons, SessionManager.serve, registered, created, trace_nil]
  rfl

theorem answer_childCall : rootReached.answer childCall =
    (childReached, .created (.ok ⟨child, SessionToken.new [2]⟩)) := by
  have found : rootReached.sessions[root.id]? = some root := Dict.find_insert_self ..
  simp only [answer, childCall, delegateSession, found]
  rfl

theorem trace_childCall : trace SessionManager.serve (.new 3600) (rootCalls ++ [childCall]) =
    (childReached, childEvents) := by
  rw [trace_append, trace_rootCalls]
  simp only [trace_cons, trace_nil, SessionManager.serve, answer_childCall]
  rfl

def grandchild : Session :=
  delegated child 0 ⟨[4], [4]⟩ child.id { allowedOperations := some [.sign] } (seconds 900)

def grandchildCall : SessionCall :=
  .delegate ⟨0, 0, 0⟩ ⟨[4], [4]⟩ child.id { allowedOperations := some [.sign] } 900

def grandchildReached : SessionManager :=
  { childReached with sessions := childReached.sessions.insert grandchild.id grandchild }

theorem answer_grandchildCall : childReached.answer grandchildCall =
    (grandchildReached, .created (.ok ⟨grandchild, SessionToken.new [4]⟩)) := by
  have found : childReached.sessions[child.id]? = some child := Dict.find_insert_self ..
  simp only [answer, grandchildCall, delegateSession, found]
  rfl

def grandchildEvents : List SessionEvent :=
  childEvents ++ [(grandchildCall, .created (.ok ⟨grandchild, SessionToken.new [4]⟩))]

theorem trace_grandchildCall :
    trace SessionManager.serve (.new 3600) (rootCalls ++ [childCall] ++ [grandchildCall]) =
      (grandchildReached, grandchildEvents) := by
  rw [trace_append, trace_childCall]
  simp only [trace_cons, trace_nil, SessionManager.serve, answer_grandchildCall]
  rfl

end Known

theorem Known.delegates : Delegates
    (trace SessionManager.serve (.new 3600) (Known.rootCalls ++ [Known.childCall])).2
    Known.root Known.child := by
  rw [Known.trace_childCall]
  exact ⟨Known.childEvents.take 1, _, [], _, _, _, _, _, _, rfl, ⟨_, rfl⟩, by simp⟩

theorem delegation_never_widens_twice :
    Known.root.Narrows Known.grandchild ∧ 2 ≤ Known.root.maxDelegationDepth - 0 := by
  have chain : DelegationChain (trace SessionManager.serve (.new 3600)
      (Known.rootCalls ++ [Known.childCall] ++ [Known.grandchildCall])).2 Known.root 2
      Known.grandchild := by
    rw [Known.trace_grandchildCall]
    exact .delegate (.delegate .start ⟨Known.childEvents.take 1, _, [], _, _, _, _, _, _, rfl,
      ⟨_, rfl⟩, by simp⟩) ⟨Known.childEvents.take 2, _, [], _, _, _, _, _, _, rfl, ⟨_, rfl⟩, by simp⟩
  exact delegation_never_widens chain

end Hsm.Auth
