import Hsm.Auth.Delegation

/-! Operation budgets bound all uses of a session, as long as its token is not rotated. -/

namespace Hsm.Auth

open SessionManager

def SessionEvent.uses (sessionId : String) : SessionEvent → Bool
  | (.validateScoped _ id _ _ _, .validated (.ok _)) => id = sessionId
  | _ => false

theorem SessionEvent.uses_iff {sessionId : String} {event : SessionEvent} :
    event.uses sessionId = true ↔ event.Uses sessionId := by
  constructor
  · intro uses
    unfold SessionEvent.uses at uses
    split at uses
    · cases of_decide_eq_true uses
      exact .inScope ..
    · cases uses
  · intro uses
    cases uses
    exact decide_eq_true rfl

def WithinBudget (history : List SessionEvent) : Prop :=
  ∀ (earlier since later : List SessionEvent) (creation : SessionEvent) (session : Session)
    (most : Nat), history = earlier ++ creation :: (since ++ later) → creation.Creates session →
    (∀ event ∈ since, ¬ SessionEvent.CreatesAt session.id event) →
    session.maxOperations = some most → since.countP (SessionEvent.uses session.id) ≤ most

/-- No token of a session with a used budget is rotated. -/
def SessionManager.KeepsCounts (manager : SessionManager) (call : SessionCall) : Prop :=
  ∀ (sessionId : String) (session : Session), manager.sessions[sessionId]? = some session →
    call.Rotates session sessionId → session.maxOperations = none ∨ session.operationCount = 0

structure Budgeted (manager : SessionManager) (since : List SessionEvent) (session : Session)
    (most : Nat) : Prop where
  within : since.countP (SessionEvent.uses session.id) ≤ most
  counts : ∀ stored, manager.sessions[session.id]? = some stored →
    stored.maxOperations = some most ∧
      since.countP (SessionEvent.uses session.id) ≤ stored.operationCount

def SessionManager.Budgets (manager : SessionManager) (history : List SessionEvent) : Prop :=
  ∀ (earlier since : List SessionEvent) (creation : SessionEvent) (session : Session) (most : Nat),
    history = earlier ++ creation :: since → creation.Creates session →
    (∀ event ∈ since, ¬ SessionEvent.CreatesAt session.id event) →
    session.maxOperations = some most → Budgeted manager since session most

section

variable {manager : SessionManager} {session : Session} {most : Nat} {since : List SessionEvent}

theorem countP_uses_of_not {event : SessionEvent} {sessionId : String}
    (usesNot : ¬ event.Uses sessionId) (since : List SessionEvent) :
    (since ++ [event]).countP (SessionEvent.uses sessionId) =
      since.countP (SessionEvent.uses sessionId) := by
  rw [List.countP_append, List.countP_singleton, if_neg (mt SessionEvent.uses_iff.mp usesNot),
    Nat.add_zero]

theorem operationCount_lt {stored : Session} (left : stored.isOperationLimitReached = false)
    (limit : stored.maxOperations = some most) : stored.operationCount < most := by
  unfold Session.isOperationLimitReached at left
  unfold Session.maxOperations at limit
  cases given : stored.scope with
  | none => simp [given] at limit
  | some scope =>
    rw [given, Option.bind_some] at limit
    simpa [given, limit] using left

theorem Budgeted.serve (budgeted : Budgeted manager since session most) {call : SessionCall}
    (keeps : manager.KeepsCounts call)
    (createsNot : ¬ SessionEvent.CreatesAt session.id (call, (manager.answer call).2)) :
    Budgeted (manager.serve call).1 (since ++ (manager.serve call).2) session most := by
  have change := answer_change manager session.id call
  have counts := budgeted.counts
  have kept := keeps session.id
  simp only [SessionManager.serve]
  generalize reply_eq : (manager.answer call).2 = reply at change createsNot ⊢
  -- Unless the call uses the session, only the count of the stored session matters.
  have quiet (usesNot : ¬ SessionEvent.Uses session.id (call, reply))
      (stays : ∀ next, (manager.answer call).1.sessions[session.id]? = some next →
        next.maxOperations = some most ∧
          since.countP (SessionEvent.uses session.id) ≤ next.operationCount) :
      Budgeted (manager.answer call).1 (since ++ [(call, reply)]) session most := by
    constructor
    · rw [countP_uses_of_not usesNot]
      exact budgeted.within
    · rw [countP_uses_of_not usesNot]
      exact stays
  generalize (manager.answer call).1 = next at change quiet ⊢
  generalize manager.sessions[session.id]? = old at change counts kept
  generalize found : next.sessions[session.id]? = new at change quiet
  cases change with
  | kept createsNot usesNot => exact quiet usesNot counts
  | created creates named => exact absurd ⟨_, creates, named⟩ createsNot
  | @used now token operation keyId stored alive left =>
    obtain ⟨limit, atMost⟩ := counts stored rfl
    have room := operationCount_lt left limit
    have more : (since ++ [(SessionCall.validateScoped now session.id token operation keyId,
        SessionReply.validated (.ok (stored.incrementOperation.touch now)))]).countP
          (SessionEvent.uses session.id) = since.countP (SessionEvent.uses session.id) + 1 := by
      rw [List.countP_append, List.countP_singleton, if_pos (SessionEvent.uses_iff.mpr (.inScope ..))]
    refine ⟨by omega, fun next isNext => ?_⟩
    rw [found] at isNext
    cases isNext
    refine ⟨limit, ?_⟩
    rw [more]
    exact Nat.succ_le_succ atMost
  | @touched _ stored now createsNot usesNot =>
    refine quiet usesNot fun next isNext => ?_
    cases isNext
    exact counts stored rfl
  | @counted _ stored now createsNot usesNot =>
    refine quiet usesNot fun next isNext => ?_
    cases isNext
    obtain ⟨limit, atMost⟩ := counts stored rfl
    exact ⟨limit, Nat.le_succ_of_le atMost⟩
  | @extended now additionalSeconds stored expiresAt later =>
    refine quiet (not_uses rfl) fun next isNext => ?_
    cases isNext
    exact counts stored rfl
  | @rotated _ stored drawn rotates createsNot usesNot =>
    refine quiet usesNot fun next isNext => ?_
    cases isNext
    obtain ⟨limit, atMost⟩ := counts stored rfl
    -- A session with a budget is rotated only before its first use.
    rcases kept stored rfl rotates with unlimited | unused
    · cases limit.symm.trans unlimited
    · exact ⟨limit, by rwa [unused] at atMost⟩
  | removed removes createsNot usesNot => exact quiet usesNot (by simp)

theorem SessionManager.Budgets.serve {history : List SessionEvent}
    (budgets : manager.Budgets history) {call : SessionCall} (keeps : manager.KeepsCounts call) :
    (manager.serve call).1.Budgets (history ++ (manager.serve call).2) := by
  intro earlier since creation session most split creates alone limit
  rcases List.eq_nil_or_concat since with rfl | ⟨before, last, rfl⟩
  · -- The session was created by this call and is stored as it was returned.
    obtain ⟨rfl, isCreation⟩ := List.append_inj' split rfl
    cases isCreation
    refine ⟨Nat.zero_le _, fun stored found => ?_⟩
    cases found.symm.trans ((answer_change manager session.id call).stored creates)
    exact ⟨limit, Nat.zero_le _⟩
  · rw [List.concat_eq_append, ← List.cons_append, ← List.append_assoc] at split
    obtain ⟨rfl, isLast⟩ := List.append_inj' split rfl
    cases isLast
    rw [List.concat_eq_append] at alone ⊢
    exact (budgets earlier before creation session most rfl creates
      (fun event member => alone event (by simp [member])) limit).serve keeps
        (alone _ (by simp))

end

theorem budgets_trace {defaultTtl : Int} {calls : List SessionCall}
    (keeps : Along SessionManager.KeepsCounts SessionManager.serve (.new defaultTtl) calls) :
    (trace SessionManager.serve (.new defaultTtl) calls).1.Budgets
      (trace SessionManager.serve (.new defaultTtl) calls).2 := by
  have start : (SessionManager.new defaultTtl).Budgets [] := by
    intro earlier since creation session most split
    simp at split
  exact trace_invariant SessionManager.Budgets
    (fun manager history call budgets kept => budgets.serve kept) calls _ [] start keeps

/-- Budgets hold in runs that rotate no token of a session with a used budget. -/
theorem operation_budgets_hold {defaultTtl : Int} {calls : List SessionCall}
    (keeps : Along SessionManager.KeepsCounts SessionManager.serve (.new defaultTtl) calls) :
    WithinBudget (trace SessionManager.serve (.new defaultTtl) calls).2 := by
  intro earlier since later creation session most split creates alone limit
  cases later with
  | nil =>
    rw [List.append_nil] at split
    exact (budgets_trace keeps earlier since creation session most split creates alone limit).within
  | cons next rest =>
    -- The run up to the next call is a run, too.
    have single : ∀ (manager : SessionManager) (call : SessionCall),
        ∃ event, (manager.serve call).2 = [event] := fun manager call => ⟨_, rfl⟩
    rw [← List.cons_append, ← List.append_assoc] at split
    obtain ⟨first, call, others, rfl, past, -, -⟩ := trace_split single split
    exact (budgets_trace (along_append.mp keeps).1 earlier since creation session most past creates
      alone limit).within

def Known.renewal : List SessionEvent := [
  (.validateScoped 1 Known.root.id (SessionToken.new [1]) (some .sign) none,
    .validated (.ok { Known.root with lastAccessed := 1, operationCount := 1 })),
  (.rotateToken [3] Known.root.id, .rotated (.ok (SessionToken.new [3]))),
  (.validateScoped 2 Known.root.id (SessionToken.new [3]) (some .sign) none,
    .validated (.ok { Known.root with
      lastAccessed := 2
      operationCount := 1
      tokenHash := HashedToken.fromToken (SessionToken.new [3]) }))]

theorem rotation_renews_budget :
    ¬ WithinBudget (trace SessionManager.serve (.new 3600)
      (Known.rootCalls ++ Known.renewal.map Prod.fst)).2 := by
  intro within
  have replied : (trace SessionManager.serve (.new 3600)
      (Known.rootCalls ++ Known.renewal.map Prod.fst)).2.map Prod.snd =
      .done (.ok ()) :: .created (.ok ⟨Known.root, SessionToken.new [1]⟩) ::
        Known.renewal.map Prod.snd := by
    decide +kernel
  have budget := within [(.registerTemplate Known.template, .done (.ok ()))] Known.renewal []
    (.createFromTemplate 0 ⟨[1], [1]⟩ Known.client "signing",
      .created (.ok ⟨Known.root, SessionToken.new [1]⟩)) Known.root 1 (trace_eq_zip replied) ⟨_, rfl⟩
  have twice : Known.renewal.countP (SessionEvent.uses Known.root.id) = 2 := by
    simp [Known.renewal, SessionEvent.uses]
  rw [twice] at budget
  refine absurd (budget ?_ rfl) (by decide)
  simp [Known.renewal, SessionEvent.CreatesAt, SessionEvent.Creates]

theorem operation_budgets_hold_used :
    WithinBudget (trace SessionManager.serve (.new 3600) (Known.rootCalls ++
      [.validateScoped 1 Known.root.id (SessionToken.new [1]) (some .sign) none])).2 := by
  refine operation_budgets_hold ⟨?_, ?_, ?_, trivial⟩ <;> exact fun _ _ _ no => no.elim

end Hsm.Auth
