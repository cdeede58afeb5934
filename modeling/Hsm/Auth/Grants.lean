import Hsm.Auth.Namespaces

/-! Grants of access are not lost, as long as no namespace is inserted over another. -/

namespace Hsm.Auth

/-- What a call under way has left to do. -/
inductive NamespaceStage : Task NamespaceCall Namespaces NamespaceReply → Prop
  | started (call : NamespaceCall) : NamespaceStage ⟨call, 0, call.program⟩
  | creating (now : Instant) (name : String) :
    NamespaceStage ⟨.create now name, 1, insertNamespace name (.unrestricted now)⟩
  | granting (now : Instant) (name clientCn : String) :
    NamespaceStage ⟨.grant now name clientCn, 1, insertNamespace name (.restrictedTo now clientCn)⟩
  | finished (call : NamespaceCall) (stage : Nat) (reply : NamespaceReply) :
    NamespaceStage ⟨call, stage, .done reply⟩

/-- A namespace not found is inserted only if there still is none. -/
def NamespaceThreads.Orderly (threads : NamespaceThreads) : Move NamespaceCall → Prop
  | .start _ _ => True
  | .advance thread =>
    match threads.tasks thread with
    | some ⟨.create _ name, 1, _⟩ => name ∉ threads.shared
    | some ⟨.grant _ name _, 1, _⟩ => name ∉ threads.shared
    | _ => True

inductive NamespaceChange (name : String) (call : NamespaceCall) :
    Option NamespaceMetadata → Option NamespaceMetadata → Prop
  | kept {old : Option NamespaceMetadata} : NamespaceChange name call old old
  | created (now : Instant) (isCall : call = .create now name) :
    NamespaceChange name call none (some (.unrestricted now))
  | granted {old : Option NamespaceMetadata} {metadata : NamespaceMetadata} (now : Instant)
      (clientCn : String) (isCall : call = .grant now name clientCn)
      (restricted : metadata.isRestricted = true)
      (allowed : ∀ other, other ∈ metadata.allowedClients ↔ other = clientCn ∨
        ∃ before, old = some before ∧ other ∈ before.allowedClients) :
    NamespaceChange name call old (some metadata)
  | revoked {metadata : NamespaceMetadata} (clientCn : String)
      (isCall : call = .revoke name clientCn) :
    NamespaceChange name call (some metadata) (some (metadata.disallow clientCn))

section

variable {namespaces shared : Namespaces} {script : Script Namespaces NamespaceReply}

variable {name : String} {metadata : NamespaceMetadata}

theorem advance_insert
    (ran : (insertNamespace name metadata).advance namespaces = some (shared, script)) :
    shared = namespaces.insert name metadata ∧ script = .done (.changed (.ok ())) := by
  obtain ⟨-, rfl, rfl⟩ := Script.advance_await ran
  exact ⟨rfl, rfl⟩

theorem change_insert {call : NamespaceCall}
    (change : NamespaceChange name call namespaces[name]? (some metadata)) (other : String) :
    NamespaceChange other call namespaces[other]? (namespaces.insert name metadata)[other]? := by
  by_cases same : name = other
  · subst same
    rw [Dict.find_insert_self]
    exact change
  · rw [Dict.find_insert_of_ne _ same]
    exact .kept

theorem change_grant {now : Instant} {clientCn : String} :
    NamespaceChange name (.grant now name clientCn) (some metadata)
      (some (metadata.allow clientCn)) := by
  refine .granted now clientCn rfl rfl fun other => ?_
  simp [NamespaceMetadata.allow]

def Task.Inserts (task : Task NamespaceCall Namespaces NamespaceReply) (name : String) : Prop :=
  task.stage = 1 ∧
    ((∃ now, task.call = .create now name) ∨ ∃ now clientCn, task.call = .grant now name clientCn)

theorem NamespaceStage.advance {task : Task NamespaceCall Namespaces NamespaceReply}
    (stage : NamespaceStage task) (absent : ∀ name, Task.Inserts task name → name ∉ namespaces)
    (ran : task.script.advance namespaces = some (shared, script)) :
    NamespaceStage ⟨task.call, task.stage + 1, script⟩ ∧
      (∀ name : String, NamespaceChange name task.call namespaces[name]? shared[name]?) ∧
      ∀ now name clientCn, task.call = .grant now name clientCn → script.result?.isSome = true →
        ∃ metadata, shared[name]? = some metadata ∧ metadata.isRestricted = true ∧
          clientCn ∈ metadata.allowedClients := by
  cases stage with
  | started call =>
    cases call with
    | create now name =>
      obtain ⟨-, rfl, rfl⟩ := Script.advance_await ran
      refine ⟨?_, fun _ => .kept, nofun⟩
      dsimp only
      split
      · exact .finished ..
      · exact .creating ..
    | grant now name clientCn =>
      obtain ⟨-, rfl, rfl⟩ := Script.advance_await ran
      dsimp only
      cases found : namespaces[name]? with
      | none =>
        -- Nothing was found, so the namespace is to be inserted.
        refine ⟨.granting .., fun _ => .kept, fun _ _ _ _ done => ?_⟩
        cases done
      | some metadata =>
        refine ⟨.finished .., change_insert (by rw [found]; exact change_grant), ?_⟩
        rintro _ _ _ ⟨⟩ -
        exact ⟨_, Dict.find_insert_self .., rfl, by simp [NamespaceMetadata.allow]⟩
    | revoke name clientCn =>
      obtain ⟨-, rfl, rfl⟩ := Script.advance_await ran
      refine ⟨.finished .., ?_, nofun⟩
      dsimp only
      cases found : namespaces[name]? with
      | none => exact fun _ => .kept
      | some metadata => exact change_insert (by rw [found]; exact .revoked clientCn rfl)
    | hasAccess identity name =>
      obtain ⟨-, rfl, rfl⟩ := Script.advance_await ran
      exact ⟨.finished .., fun _ => .kept, nofun⟩
  | creating now name =>
    obtain ⟨rfl, rfl⟩ := advance_insert ran
    have missing : namespaces[name]? = none :=
      getElem?_neg _ _ (absent name ⟨rfl, .inl ⟨now, rfl⟩⟩)
    exact ⟨.finished .., change_insert (by rw [missing]; exact .created now rfl), nofun⟩
  | granting now name clientCn =>
    obtain ⟨rfl, rfl⟩ := advance_insert ran
    have missing : namespaces[name]? = none :=
      getElem?_neg _ _ (absent name ⟨rfl, .inr ⟨now, clientCn, rfl⟩⟩)
    refine ⟨.finished .., change_insert ?_, ?_⟩
    · rw [missing]
      refine .granted now clientCn rfl rfl fun other => ?_
      simp [NamespaceMetadata.restrictedTo]
    · rintro _ _ _ ⟨⟩ -
      exact ⟨_, Dict.find_insert_self .., rfl, by simp [NamespaceMetadata.restrictedTo]⟩
  | finished call count reply => cases ran

end

theorem NamespaceStage.granted_ok {namespaces shared : Namespaces}
    {script : Script Namespaces NamespaceReply}
    {task : Task NamespaceCall Namespaces NamespaceReply} (stage : NamespaceStage task)
    {now : Instant} {name clientCn : String} (isGrant : task.call = .grant now name clientCn)
    (ran : task.script.advance namespaces = some (shared, script)) {reply : NamespaceReply}
    (returned : script.result? = some reply) : reply = .changed (.ok ()) := by
  cases stage with
  | started call =>
    cases isGrant
    obtain ⟨-, rfl, rfl⟩ := Script.advance_await ran
    cases found : namespaces[name]? with
    | none =>
      rw [found] at returned
      cases returned
    | some metadata =>
      rw [found] at returned
      exact (Option.some.inj returned).symm
  | creating => cases isGrant
  | granting =>
    obtain ⟨-, rfl⟩ := advance_insert ran
    exact (Option.some.inj returned).symm
  | finished => cases ran

section

variable {threads : NamespaceThreads} {move : Move NamespaceCall}

def NamespaceThreads.Staged (threads : NamespaceThreads) : Prop :=
  ∀ thread task, threads.tasks thread = some task → NamespaceStage task

theorem NamespaceThreads.Orderly.absent {thread : Nat}
    {task : Task NamespaceCall Namespaces NamespaceReply}
    (orderly : threads.Orderly (.advance thread)) (under : threads.tasks thread = some task)
    (name : String) (inserts : Task.Inserts task name) : name ∉ threads.shared := by
  obtain ⟨call, count, script⟩ := task
  obtain ⟨isLast, isCall⟩ := inserts
  cases isLast
  rcases isCall with ⟨now, isCall⟩ | ⟨now, clientCn, isCall⟩
  all_goals
    cases isCall
    simpa only [NamespaceThreads.Orderly, under] using orderly

theorem result_of_advance {script next : Script Namespaces NamespaceReply}
    {namespaces shared : Namespaces} (ran : script.advance namespaces = some (shared, next)) :
    script.result? = none := by
  cases script with
  | done reply => cases ran
  | atomic ready act rest => rfl

/-- What an orderly move can do to the namespaces. -/
theorem NamespaceThreads.Staged.shared_step (staged : threads.Staged)
    (orderly : threads.Orderly move) :
    (threads.step move).1.shared = threads.shared ∨
      ∃ thread task, threads.tasks thread = some task ∧ task.script.result? = none ∧
        ∀ name : String, NamespaceChange name task.call threads.shared[name]?
          (threads.step move).1.shared[name]? := by
  rcases Threads.step_cases (fun _ call => call.program) threads move with
    same | ⟨thread, call, rfl, -, made⟩ | ⟨thread, task, shared, script, rfl, under, ran, made⟩
  · exact .inl (by rw [step, same])
  · exact .inl (by rw [step, made]; rfl)
  · refine .inr ⟨thread, task, under, result_of_advance ran, ?_⟩
    rw [step, made]
    exact ((staged thread task under).advance (orderly.absent under) ran).2.1

theorem NamespaceThreads.tasks_step {thread : Nat}
    {task : Task NamespaceCall Namespaces NamespaceReply}
    (after : (threads.step move).1.tasks thread = some task) :
    move = .start thread task.call ∨ ∃ earlier, threads.tasks thread = some earlier ∧
      earlier.call = task.call ∧ (earlier.script.result?.isSome = true → earlier = task) := by
  rcases Threads.step_cases (fun _ call => call.program) threads move with
    same | ⟨other, call, rfl, -, made⟩ | ⟨other, earlier, shared, script, rfl, under, ran, made⟩
  · rw [step, same] at after
    exact .inr ⟨task, after, rfl, fun _ => rfl⟩
  · rw [step, made] at after
    by_cases same : thread = other
    · subst same
      cases (Threads.tasks_assign_self _ _ _).symm.trans after
      exact .inl rfl
    · rw [Threads.tasks_assign_other _ same] at after
      exact .inr ⟨task, after, rfl, fun _ => rfl⟩
  · rw [step, made] at after
    by_cases same : thread = other
    · subst same
      cases (Threads.tasks_assign_self _ _ _).symm.trans after
      refine .inr ⟨earlier, under, rfl, fun done => ?_⟩
      rw [result_of_advance ran] at done
      cases done
    · rw [Threads.tasks_assign_other _ same] at after
      exact .inr ⟨task, after, rfl, fun _ => rfl⟩

theorem NamespaceThreads.Staged.step (staged : threads.Staged) (orderly : threads.Orderly move) :
    (threads.step move).1.Staged := by
  rcases Threads.step_cases (fun _ call => call.program) threads move with
    same | ⟨other, call, rfl, -, made⟩ | ⟨other, earlier, shared, script, rfl, under, ran, made⟩
  · rw [NamespaceThreads.step, same]
    exact staged
  · rw [NamespaceThreads.step, made]
    intro thread task after
    by_cases same : thread = other
    · subst same
      cases (Threads.tasks_assign_self _ _ _).symm.trans after
      exact .started call
    · rw [Threads.tasks_assign_other _ same] at after
      exact staged thread task after
  · rw [NamespaceThreads.step, made]
    intro thread task after
    by_cases same : thread = other
    · subst same
      cases (Threads.tasks_assign_self _ _ _).symm.trans after
      exact ((staged thread earlier under).advance (orderly.absent under) ran).1
    · rw [Threads.tasks_assign_other _ same] at after
      exact staged thread task after

variable {name clientCn : String}

def NamespaceThreads.Restricts (name : String) (threads : NamespaceThreads) : Prop :=
  ∃ metadata, threads.shared[name]? = some metadata ∧ metadata.isRestricted = true

structure NamespaceThreads.Allows (name clientCn : String) (threads : NamespaceThreads) :
    Prop where
  allowed : ∃ metadata, threads.shared[name]? = some metadata ∧ clientCn ∈ metadata.allowedClients
  unchallenged : ∀ thread task, threads.tasks thread = some task →
    task.call = .revoke name clientCn → task.script.result?.isSome = true

/-- A client is not allowed, and no call changes that. -/
structure NamespaceThreads.Excludes (name clientCn : String) (threads : NamespaceThreads) :
    Prop where
  excluded : ∀ metadata, threads.shared[name]? = some metadata →
    clientCn ∉ metadata.allowedClients
  ungranted : ∀ thread task, threads.tasks thread = some task →
    ∀ now, task.call ≠ .grant now name clientCn

theorem NamespaceThreads.Restricts.step (restricts : threads.Restricts name)
    (staged : threads.Staged) (orderly : threads.Orderly move) :
    (threads.step move).1.Restricts name := by
  obtain ⟨metadata, found, restricted⟩ := restricts
  rcases staged.shared_step orderly with same | ⟨thread, task, -, -, changes⟩
  · exact ⟨metadata, same ▸ found, restricted⟩
  · have change := changes name
    rw [found] at change
    generalize after : (threads.step move).1.shared[name]? = new at change
    cases change with
    | kept => exact ⟨metadata, after, restricted⟩
    | granted now clientCn isCall isRestricted allowed => exact ⟨_, after, isRestricted⟩
    | revoked clientCn isCall => exact ⟨_, after, restricted⟩

theorem NamespaceThreads.Allows.step (allows : threads.Allows name clientCn)
    (staged : threads.Staged) (orderly : threads.Orderly move)
    (notRevoked : ∀ thread, move ≠ .start thread (.revoke name clientCn)) :
    (threads.step move).1.Allows name clientCn := by
  obtain ⟨⟨metadata, found, allowed⟩, unchallenged⟩ := allows
  refine ⟨?_, fun thread task after isCall => ?_⟩
  · rcases staged.shared_step orderly with same | ⟨thread, task, under, busy, changes⟩
    · exact ⟨metadata, same ▸ found, allowed⟩
    · have change := changes name
      rw [found] at change
      generalize after : (threads.step move).1.shared[name]? = new at change
      cases change with
      | kept => exact ⟨metadata, rfl, allowed⟩
      | granted now other isCall isRestricted among =>
        exact ⟨_, rfl, (among clientCn).mpr (.inr ⟨metadata, rfl, allowed⟩)⟩
      | revoked other isCall =>
        refine ⟨_, rfl, List.mem_filter.mpr ⟨allowed, ?_⟩⟩
        -- The call is under way, so it is another client that loses access.
        have apart : clientCn ≠ other := by
          rintro rfl
          have done := unchallenged thread task under isCall
          rw [busy] at done
          cases done
        simpa using apart
  · rcases tasks_step after with starts | ⟨earlier, under, sameCall, finished⟩
    · rw [isCall] at starts
      exact absurd starts (notRevoked thread)
    · have done := unchallenged thread earlier under (sameCall.trans isCall)
      rw [← finished done]
      exact done

theorem NamespaceThreads.Excludes.step (excludes : threads.Excludes name clientCn)
    (staged : threads.Staged) (orderly : threads.Orderly move)
    (notGranted : ∀ thread now, move ≠ .start thread (.grant now name clientCn)) :
    (threads.step move).1.Excludes name clientCn := by
  obtain ⟨excluded, ungranted⟩ := excludes
  refine ⟨fun metadata after => ?_, fun thread task after now isCall => ?_⟩
  · rcases staged.shared_step orderly with same | ⟨thread, task, under, -, changes⟩
    · exact excluded metadata (same ▸ after)
    · have change := changes name
      rw [after] at change
      generalize found : threads.shared[name]? = old at change
      cases change with
      | kept => exact excluded metadata found
      | created now isCall => exact List.not_mem_nil
      | granted now other isCall isRestricted among =>
        intro member
        rcases (among clientCn).mp member with rfl | ⟨before, rfl, wasAllowed⟩
        · exact ungranted thread task under now isCall
        · exact excluded before found wasAllowed
      | revoked other isCall =>
        exact fun member => excluded _ found (List.mem_filter.mp member).1
  · rcases tasks_step after with starts | ⟨earlier, under, sameCall, -⟩
    · rw [isCall] at starts
      exact notGranted thread now starts
    · exact ungranted thread earlier under now (sameCall.trans isCall)

end

section

variable {threads : NamespaceThreads} {moves : List (Move NamespaceCall)}

theorem NamespaceThreads.keep_trace {inv : NamespaceThreads → Prop}
    {admitted : Move NamespaceCall → Prop}
    (keeps : ∀ threads move, inv threads → threads.Staged → threads.Orderly move → admitted move →
      inv (threads.step move).1)
    (start : inv threads) (staged : threads.Staged)
    (orderly : Along NamespaceThreads.Orderly NamespaceThreads.step threads moves)
    (all : ∀ move ∈ moves, admitted move) :
    inv (trace NamespaceThreads.step threads moves).1 ∧
      (trace NamespaceThreads.step threads moves).1.Staged := by
  induction moves generalizing threads with
  | nil => exact ⟨start, staged⟩
  | cons move rest ih =>
    obtain ⟨now, later⟩ := orderly
    rw [trace_cons]
    exact ih (keeps threads move start staged now (all move List.mem_cons_self)) (staged.step now)
      later fun other member => all other (List.mem_cons_of_mem _ member)

theorem NamespaceThreads.Staged.returned_grant (staged : threads.Staged)
    {move : Move NamespaceCall} (orderly : threads.Orderly move)
    {returned : Return NamespaceCall NamespaceReply} {now : Instant} {name clientCn : String}
    (isReturn : returned ∈ (threads.step move).2)
    (isGrant : returned.call = .grant now name clientCn) :
    returned.result = .changed (.ok ()) ∧ ∃ metadata,
      (threads.step move).1.shared[name]? = some metadata ∧ metadata.isRestricted = true ∧
        clientCn ∈ metadata.allowedClients := by
  obtain ⟨task, shared, script, rfl, under, isCall, ran, result⟩ := Threads.mem_returns isReturn
  have isStep : (threads.step (.advance returned.thread)).1.shared = shared := by
    simp [NamespaceThreads.step, Threads.step, under, ran]
  obtain ⟨stage, -, granted⟩ :=
    (staged returned.thread task under).advance (orderly.absent under) ran
  rw [isStep]
  refine ⟨?_, granted now name clientCn (isCall.trans isGrant) (by rw [result]; rfl)⟩
  rw [isGrant] at isCall
  exact NamespaceStage.granted_ok (staged returned.thread task under) isCall ran result

end

/-- Grants are not lost as long as no namespace is inserted over another. -/
theorem grants_are_kept {before later : List (Move NamespaceCall)} {move : Move NamespaceCall}
    {returned : Return NamespaceCall NamespaceReply} {now : Instant} {name clientCn : String}
    (orderly : Along NamespaceThreads.Orderly NamespaceThreads.step (Threads.fresh ∅)
      (before ++ move :: later))
    (isReturn : returned ∈
      ((trace NamespaceThreads.step (Threads.fresh ∅) before).1.step move).2)
    (isGrant : returned.call = .grant now name clientCn) :
    let granted := ((trace NamespaceThreads.step (Threads.fresh ∅) before).1.step move).1
    let reached := (trace NamespaceThreads.step granted later).1
    returned.result = .changed (.ok ()) ∧
    reached.Restricts name ∧
    (∀ identity : ClientIdentity, (∀ thread now,
        .start thread (.grant now name identity.commonName) ∉ before ++ move :: later) →
      reached.shared.hasAccess identity name = false) ∧
    ∀ identity : ClientIdentity, identity.namespace_ = name → identity.commonName = clientCn →
      (∀ thread task, granted.tasks thread = some task → task.call = .revoke name clientCn →
        task.script.result?.isSome = true) →
      (∀ thread, .start thread (.revoke name clientCn) ∉ later) →
      reached.shared.hasAccess identity name = true := by
  intro granted reached
  obtain ⟨orderlyBefore, orderlyNow, orderlyLater⟩ := along_append.mp orderly
  have fresh : NamespaceThreads.Staged (Threads.fresh ∅) := nofun
  have stagedBefore := (NamespaceThreads.keep_trace
    (fun _ _ staged _ orderly (_ : True) => staged.step orderly) fresh fresh orderlyBefore
    (fun _ _ => trivial)).1
  have staged : granted.Staged := stagedBefore.step orderlyNow
  obtain ⟨isOk, metadata, found, restricted, allowed⟩ :=
    stagedBefore.returned_grant orderlyNow isReturn isGrant
  have restricts : reached.Restricts name :=
    (NamespaceThreads.keep_trace
      (fun _ _ holds staged orderly (_ : True) => holds.step staged orderly)
      ⟨metadata, found, restricted⟩ staged orderlyLater (fun _ _ => trivial)).1
  have ⟨last, isLast, isRestricted⟩ := restricts
  refine ⟨isOk, restricts, fun identity never => ?_,
    fun identity isName isClient challenged revoked => ?_⟩
  · -- Nobody ever granted access to the client, from the first move on.
    have start : NamespaceThreads.Excludes name identity.commonName (Threads.fresh ∅) :=
      ⟨fun metadata found => by simp [Threads.fresh] at found, nofun⟩
    have unstarted : ∀ other ∈ before ++ move :: later, ∀ thread now,
        other ≠ .start thread (.grant now name identity.commonName) := by
      rintro other member thread now rfl
      exact never thread now member
    have excludes := (NamespaceThreads.keep_trace
      (fun _ _ holds staged orderly notGranted => holds.step staged orderly notGranted)
      start fresh orderly unstarted).1
    rw [trace_append, trace_cons] at excludes
    have notAllowed := excludes.excluded last isLast
    rw [Namespaces.hasAccess]
    simp [isLast, isRestricted, notAllowed]
  · have allows : granted.Allows name clientCn := ⟨⟨metadata, found, allowed⟩, challenged⟩
    have unstarted : ∀ other ∈ later, ∀ thread, other ≠ .start thread (.revoke name clientCn) := by
      rintro other member thread rfl
      exact revoked thread member
    obtain ⟨⟨final, isFinal, isAllowed⟩, -⟩ := (NamespaceThreads.keep_trace
      (fun _ _ holds staged orderly notRevoked => holds.step staged orderly notRevoked)
      allows staged orderlyLater unstarted).1
    rw [Namespaces.hasAccess]
    simp [isName, isClient, reached, isFinal, isAllowed]

namespace Known

def racing : List (Move NamespaceCall) :=
  [.start 0 (.create 0 "vault"), .advance 0, .start 1 (.grant 0 "vault" "alice"), .advance 1,
    .advance 1]

/-- Two creations overlap, and one of them still does when the grant has started. -/
def orderlyMoves : List (Move NamespaceCall) :=
  [.start 0 (.create 0 "vault"), .start 2 (.create 0 "safe"), .advance 0, .advance 2, .advance 0,
    .start 1 (.grant 0 "vault" "alice"), .advance 2]

def mallory : ClientIdentity := ⟨"mallory", none, "vault", [], "serial-666"⟩

end Known

theorem creation_overwrites_grant :
    (trace NamespaceThreads.step (Threads.fresh ∅) Known.racing).2 =
      [⟨1, .grant 0 "vault" "alice", .changed (.ok ())⟩] ∧
    let reached := (trace NamespaceThreads.step (Threads.fresh ∅) (Known.racing ++ [.advance 0])).1
    ¬ reached.Restricts "vault" ∧ reached.shared.hasAccess Known.mallory "vault" = true := by
  have found : (trace NamespaceThreads.step (Threads.fresh ∅)
      (Known.racing ++ [.advance 0])).1.shared["vault"]? = some (.unrestricted 0) := by
    decide +kernel
  refine ⟨by decide +kernel, ?_, by decide +kernel⟩
  rintro ⟨metadata, isLast, restricted⟩
  cases found.symm.trans isLast
  cases restricted

theorem grants_are_kept_in_turn :
    let granted :=
      ((trace NamespaceThreads.step (Threads.fresh ∅) Known.orderlyMoves).1.step (.advance 1)).1
    granted.shared.hasAccess Known.mallory "vault" = false := by
  have orderly : Along NamespaceThreads.Orderly NamespaceThreads.step (Threads.fresh ∅)
      (Known.orderlyMoves ++ .advance 1 :: []) := by
    have absent : "vault" ∉ (∅ : Namespaces) := by simp
    have apart : "safe" ∉ (∅ : Namespaces).insert "vault" (.unrestricted 0) := by decide +kernel
    exact ⟨trivial, trivial, trivial, trivial, absent, trivial, apart, trivial, trivial⟩
  have isReturn : ⟨1, .grant 0 "vault" "alice", .changed (.ok ())⟩ ∈
      ((trace NamespaceThreads.step (Threads.fresh ∅) Known.orderlyMoves).1.step
        (.advance 1)).2 := by
    decide +kernel
  refine (grants_are_kept orderly isReturn rfl).2.2.1 Known.mallory ?_
  simp [Known.orderlyMoves, Known.mallory]

section

variable (namespaces : Namespaces) (identity : ClientIdentity) (name : String)

theorem Namespaces.hasAccess_iff :
    namespaces.hasAccess identity name = true ↔ identity.namespace_ = name ∧
      ∀ metadata, namespaces[name]? = some metadata → metadata.admits identity = true := by
  rw [hasAccess]
  by_cases same : identity.namespace_ = name
  · cases stored : namespaces[name]? with
    | none => simp [same]
    | some metadata =>
      cases restricted : metadata.isRestricted <;>
        simp [same, restricted, NamespaceMetadata.admits]
  · simp [same]

theorem Namespaces.mem_getAccessibleNamespaces :
    name ∈ namespaces.getAccessibleNamespaces identity ↔ identity.namespace_ = name ∧
      (name ≠ "" ∨ ∃ metadata, namespaces[name]? = some metadata ∧
        metadata.admits identity = true) := by
  have found : ∀ other, other ∈ (namespaces.toList.filter fun entry =>
      identity.namespace_ = entry.1 && entry.2.admits identity).map Prod.fst ↔
      identity.namespace_ = other ∧ ∃ metadata, namespaces[other]? = some metadata ∧
        metadata.admits identity = true := by
    intro other
    simp only [List.mem_map, List.mem_filter, Prod.exists, exists_and_right, exists_eq_right,
      Std.ExtTreeMap.mem_toList_iff_getElem?_eq_some, Bool.and_eq_true, decide_eq_true_eq]
    exact ⟨fun ⟨metadata, stored, same, admitted⟩ => ⟨same, metadata, stored, admitted⟩,
      fun ⟨same, metadata, stored, admitted⟩ => ⟨metadata, stored, same, admitted⟩⟩
  simp only [getAccessibleNamespaces]
  split
  · rename_i fallback
    simp only [Bool.and_eq_true, List.isEmpty_iff, decide_eq_true_eq] at fallback
    grind
  · rename_i kept
    rw [found]
    refine and_congr_right fun same => ⟨Or.inr, fun listed => ?_⟩
    subst same
    by_contra none
    have empty := List.eq_nil_iff_forall_not_mem.mpr fun other member =>
      have ⟨same, entry⟩ := (found other).mp member
      none (same ▸ entry)
    simp only [empty, List.isEmpty_nil, Bool.true_and, decide_eq_true_eq, not_not] at kept
    exact listed.elim (fun named => named kept) none

/--
What is listed agrees with the access check, unless the client's own namespace is a restricted
one it is not allowed to use.
-/
theorem listing_agrees_iff :
    ((∀ name ∈ namespaces.getAccessibleNamespaces identity,
        namespaces.hasAccess identity name = true) ∧
      ∀ name ∈ namespaces, namespaces.hasAccess identity name = true →
        name ∈ namespaces.getAccessibleNamespaces identity) ↔
      (identity.namespace_ ≠ "" → ∀ metadata, namespaces[identity.namespace_]? = some metadata →
        metadata.admits identity = true) := by
  simp only [Namespaces.hasAccess_iff, Namespaces.mem_getAccessibleNamespaces]
  constructor
  · rintro ⟨sound, -⟩ named
    exact (sound identity.namespace_ ⟨rfl, .inl named⟩).2
  · refine fun admitted => ⟨?_, ?_⟩
    · rintro _ ⟨rfl, listed⟩
      refine ⟨rfl, fun metadata stored => ?_⟩
      rcases listed with named | ⟨found, isFound, open_⟩
      · exact admitted named metadata stored
      · exact Option.some.inj (stored.symm.trans isFound) ▸ open_
    · rintro name stored ⟨rfl, every⟩
      obtain ⟨metadata, found⟩ := Option.isSome_iff_exists.mp
        (Std.ExtTreeMap.isSome_getElem?_iff_mem.mpr stored)
      exact ⟨rfl, .inr ⟨metadata, found, every metadata found⟩⟩

end

namespace Known

def grantedTo (clientCn : String) : Namespaces := ((grantAccess 0 "vault" clientCn).runAlone ∅).2

end Known

theorem listing_of_denied_namespace :
    (Known.grantedTo "alice").getAccessibleNamespaces Known.mallory = ["vault"] ∧
      (Known.grantedTo "alice").hasAccess Known.mallory "vault" = false := by
  decide +kernel

theorem listing_agrees_of_granted :
    (Known.grantedTo "mallory").hasAccess Known.mallory "vault" = true := by
  refine ((listing_agrees_iff _ _).mpr fun _ metadata found => ?_).1 "vault" (by decide +kernel)
  have stored : (Known.grantedTo "mallory")["vault"]? = some (.restrictedTo 0 "mallory") := by
    decide +kernel
  cases stored.symm.trans found
  decide

end Hsm.Auth
