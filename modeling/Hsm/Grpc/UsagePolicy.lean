import Hsm.Grpc.Handlers
import Mathlib.Data.Finset.Card

/-! Key policies under concurrent requests: which are permitted, and how many operations there are. -/

namespace Hsm.Grpc

open KeyManager (Key KeyId Keys KeyUsagePolicy CompositeKey Vault)

structure RequestCall where
  request : Request
  ambient : Ambient

def RequestCall.program (engine : Engine) (_ : Nat) (call : RequestCall) :
    Script Vault (Except Status Response) :=
  call.request.handle engine call.ambient

abbrev Workers := Threads RequestCall Vault (Except Status Response)

/-- The thread has still to count the operation. -/
def Charging (engine : Engine) (workers : Workers) (thread : Nat) (at_ : CompositeKey) : Prop :=
  ∃ task, workers.tasks thread = some task ∧ task.stage = 1 ∧ task.script.result? = none ∧
    task.call.request.target engine = some at_

def Respects (engine : Engine) (workers : Workers) : Move RequestCall → Prop
  | .start _ _ => True
  | .advance thread => ∀ task, workers.tasks thread = some task → task.stage = 0 →
      ∀ at_ key, task.call.request.target engine = some at_ →
        workers.shared.keys[at_]? = some key →
        task.call.request.permitted key.policy = true ∧
        ∀ max, key.policy.maxOperations = some max → ∀ others : Finset Nat, others.Nonempty →
          (∀ other ∈ others, other ≠ thread ∧ Charging engine workers other at_) →
            key.operationCount.toNat + others.card < max.toNat

def succeeded (engine : Engine) (at_ : CompositeKey)
    (returned : Return RequestCall (Except Status Response)) : Bool :=
  returned.call.request.target engine = some at_ ∧ returned.call.request.counted = true ∧
    returned.result.toOption.isSome = true

section

variable {engine : Engine} {vault after : Vault} {request : Request} {ambient : Ambient}
  {script : Script Vault (Except Status Response)} {keyId : KeyId}

theorem target_of_validate (validated : request.validate engine = .ok keyId) :
    request.target engine = some (request.space, keyId) := by
  simp only [Request.validate, bind, Except.bind] at validated
  rw [Request.target]
  cases parsed : engine.parseKeyId request.keyId with
  | error reason =>
    rw [parsed] at validated
    split at validated
    · cases validated
    · split at validated
      · cases validated
      · split at validated
        · cases validated
        · cases validated
  | ok found =>
    rw [parsed] at validated
    split at validated
    · cases validated
    · split at validated
      · cases validated
      · split at validated
        · cases validated
        · cases validated
          rfl

theorem advance_handle (ran : (request.handle engine ambient).advance vault = some (after, script)) :
    ∃ keyId, request.validate engine = .ok keyId ∧ after = vault ∧
      script = request.withKey engine ambient keyId
        ((Vault.getKey ambient.now request.space keyId).runAlone vault).1 := by
  rw [Request.handle] at ran
  cases validated : request.validate engine with
  | error status =>
    rw [validated] at ran
    cases ran
  | ok keyId =>
    rw [validated] at ran
    cases refused : ambient.refused with
    | some status =>
      rw [refused] at ran
      cases ran
    | none =>
      rw [refused] at ran
      refine ⟨keyId, rfl, ?_⟩
      have made : ((if true then some (vault, _) else none) : Option (Vault × _)) =
        some (after, script) := ran
      simp only [if_true, Option.some.injEq, Prod.mk.injEq] at made
      obtain ⟨rfl, rfl⟩ := made
      refine ⟨rfl, ?_⟩
      simp only [Vault.getKey, Vault.storeGet, Script.runAlone_bind, Script.runAlone_atomically]
      cases vault.keys.get request.space keyId with
      | error failure => rfl
      | ok key =>
        simp only [Script.andThen]
        by_cases unusable : key.canUse ambient.now = false
        · simp only [if_pos unusable]
          rfl
        · by_cases reached : key.hasReachedMaxOperations = true
          · simp only [if_neg unusable, if_pos reached]
            rfl
          · simp only [if_neg unusable, if_neg reached]
            rfl

theorem getKey_ok {now : Instant} {space : String} {key : Key}
    (given : ((Vault.getKey now space keyId).runAlone vault).1 = .ok key) :
    vault.keys[((space, keyId) : CompositeKey)]? = some key ∧ key.namespace = space ∧
      ∀ max, key.policy.maxOperations = some max → key.operationCount.toNat < max.toNat := by
  simp only [Vault.getKey, Vault.storeGet, Script.runAlone_bind, Script.runAlone_atomically] at given
  cases got : vault.keys.get space keyId with
  | error failure =>
    rw [got] at given
    cases given
  | ok found =>
    rw [got] at given
    simp only at given
    by_cases unusable : found.canUse now = false
    · rw [if_pos unusable] at given
      cases given
    · by_cases reached : found.hasReachedMaxOperations = true
      · rw [if_neg unusable, if_pos reached] at given
        cases given
      · rw [if_neg unusable, if_neg reached] at given
        cases given
        refine ⟨(KeyManager.get_eq_ok.mp got).1, (KeyManager.get_eq_ok.mp got).2, fun max limit => ?_⟩
        rw [Key.hasReachedMaxOperations, limit] at reached
        simpa [UInt64.lt_iff_toNat_lt] using reached

theorem withKey_cases (answer : Except KeyManager.Error Key) :
    (∃ result, request.withKey engine ambient keyId answer = .done result ∧
      (request.counted = true → result.toOption.isSome = false)) ∨
    ∃ key response, answer = .ok key ∧ request.counted = true ∧
      request.withKey engine ambient keyId answer = request.charge keyId response := by
  cases answer with
  | error failure => exact .inl ⟨_, rfl, fun _ => rfl⟩
  | ok key =>
    rw [Request.withKey]
    cases operated : request.operate engine ambient key with
    | error status => exact .inl ⟨_, rfl, fun _ => rfl⟩
    | ok response =>
      simp only
      by_cases counts : request.counted = true
      · rw [if_pos counts]
        exact .inr ⟨key, response, rfl, counts, rfl⟩
      · rw [if_neg counts]
        exact .inl ⟨_, rfl, fun isCounted => absurd isCounted counts⟩

end

/-- How far a request has come. -/
inductive Underway (engine : Engine) (keys : Keys)
    (task : Task RequestCall Vault (Except Status Response)) : Prop
  | started (stage : task.stage = 0)
    (script : task.script = task.call.request.handle engine task.call.ambient)
  | charging (keyId : KeyId) (response : Response) (key : Key)
    (target : task.call.request.target engine = some (task.call.request.space, keyId))
    (stage : task.stage = 1) (script : task.script = task.call.request.charge keyId response)
    (there : keys[((task.call.request.space, keyId) : CompositeKey)]? = some key)
    (inSpace : key.namespace = task.call.request.space)
    (permitted : task.call.request.permitted key.policy = true)
    (counts : task.call.request.counted = true)
  | finished (result : Except Status Response) (script : task.script = .done result)

/-- What holds while threads serve requests. -/
structure Kept (engine : Engine) (start : Keys) (workers : Workers)
    (past : List (Return RequestCall (Except Status Response))) : Prop where
  same : ∀ at_ : CompositeKey, ∃ count : Key → UInt64, workers.shared.keys[at_]? =
    start[at_]?.map fun key => { key with operationCount := count key }
  tasks : ∀ thread task, workers.tasks thread = some task →
    Underway engine workers.shared.keys task
  permitted : ∀ returned ∈ past, ∀ at_ key, succeeded engine at_ returned = true →
    start[at_]? = some key → returned.call.request.permitted key.policy = true
  budget : ∀ at_ first key max, start[at_]? = some first → workers.shared.keys[at_]? = some key →
    first.policy.maxOperations = some max → first.operationCount.toNat ≤ max.toNat →
    key.operationCount.toNat = first.operationCount.toNat + past.countP (succeeded engine at_) ∧
    ∀ threads : Finset Nat, (∀ thread ∈ threads, Charging engine workers thread at_) →
      key.operationCount.toNat + threads.card ≤ max.toNat

section

variable {engine : Engine} {start : Keys} {workers : Workers}
  {past : List (Return RequestCall (Except Status Response))}

variable {key : Key}

theorem Kept.policy (kept : Kept engine start workers past) {at_ : CompositeKey}
    (there : workers.shared.keys[at_]? = some key) :
    ∃ first, start[at_]? = some first ∧ key.policy = first.policy := by
  obtain ⟨count, same⟩ := kept.same at_
  rw [there] at same
  obtain ⟨first, found, rfl⟩ := Option.map_eq_some_iff.mp same.symm
  exact ⟨first, found, rfl⟩

variable {thread : Nat} {task : Task RequestCall Vault (Except Status Response)}

theorem charging_assign (shared : Vault) {other : Nat} {at_ : CompositeKey} :
    Charging engine ({ workers with shared := shared }.assign thread task) other at_ ↔
      if other = thread then task.stage = 1 ∧ task.script.result? = none ∧
        task.call.request.target engine = some at_
      else Charging engine workers other at_ := by
  by_cases same : other = thread
  · subst same
    rw [if_pos rfl]
    refine ⟨fun ⟨given, assigned, rest⟩ => ?_, fun rest => ⟨task, by simp, rest⟩⟩
    rw [Threads.tasks_assign_self] at assigned
    cases assigned
    exact rest
  · rw [if_neg same]
    constructor
    · rintro ⟨given, assigned, rest⟩
      rw [Threads.tasks_assign_other _ same] at assigned
      exact ⟨given, assigned, rest⟩
    · rintro ⟨given, assigned, rest⟩
      exact ⟨given, by rw [Threads.tasks_assign_other _ same]; exact assigned, rest⟩

theorem Kept.quiet (kept : Kept engine start workers past)
    {returned : List (Return RequestCall (Except Status Response))}
    (under : Underway engine workers.shared.keys task)
    (notCharging : ¬ (task.stage = 1 ∧ task.script.result? = none))
    (uncounted : ∀ reply ∈ returned, ∀ at_, succeeded engine at_ reply = false) :
    Kept engine start (workers.assign thread task) (past ++ returned) := by
  refine ⟨kept.same, fun other given assigned => ?_, fun reply member at_ key success found => ?_,
    fun at_ first key max found there limit fits => ?_⟩
  · by_cases same : other = thread
    · subst same
      rw [Threads.tasks_assign_self] at assigned
      cases assigned
      exact under
    · rw [Threads.tasks_assign_other _ same] at assigned
      exact kept.tasks other given assigned
  · rcases List.mem_append.mp member with old | new
    · exact kept.permitted reply old at_ key success found
    · rw [uncounted reply new at_] at success
      cases success
  · obtain ⟨counted, room⟩ := kept.budget at_ first key max found there limit fits
    constructor
    · have none_ : returned.countP (succeeded engine at_) = 0 :=
        List.countP_eq_zero.mpr fun reply member => by simp [uncounted reply member at_]
      rw [List.countP_append, none_, Nat.add_zero]
      exact counted
    · intro threads charging
      refine room threads fun other member => ?_
      have was := (charging_assign workers.shared).mp (charging other member)
      split_ifs at was
      · exact absurd ⟨was.1, was.2.1⟩ notCharging
      · exact was

variable {keyId : KeyId} {response : Response}

theorem Kept.grant (kept : Kept engine start workers past)
    (notCharging : ∀ at_, ¬ Charging engine workers thread at_)
    (target : task.call.request.target engine = some (task.call.request.space, keyId))
    (there : workers.shared.keys[((task.call.request.space, keyId) : CompositeKey)]? = some key)
    (inSpace : key.namespace = task.call.request.space)
    (open_ : ∀ max, key.policy.maxOperations = some max → key.operationCount.toNat < max.toNat)
    (permitted : task.call.request.permitted key.policy = true)
    (counts : task.call.request.counted = true)
    (room : ∀ max, key.policy.maxOperations = some max → ∀ others : Finset Nat, others.Nonempty →
      (∀ other ∈ others, other ≠ thread ∧
        Charging engine workers other (task.call.request.space, keyId)) →
        key.operationCount.toNat + others.card < max.toNat) :
    Kept engine start
      (workers.assign thread ⟨task.call, 1, task.call.request.charge keyId response⟩) past := by
  refine ⟨kept.same, fun other given assigned => ?_, kept.permitted,
    fun at_ first now max found isNow limit fits => ?_⟩
  · by_cases same : other = thread
    · subst same
      rw [Threads.tasks_assign_self] at assigned
      cases assigned
      exact .charging keyId response key target rfl rfl there inSpace permitted counts
    · rw [Threads.tasks_assign_other _ same] at assigned
      exact kept.tasks other given assigned
  · obtain ⟨counted, before⟩ := kept.budget at_ first now max found isNow limit fits
    refine ⟨counted, fun threads charging => ?_⟩
    -- The others were charging before, and the condition leaves room for this one.
    have others : ∀ other ∈ threads.erase thread, other ≠ thread ∧
        Charging engine workers other at_ := by
      intro other member
      obtain ⟨apart, within⟩ := Finset.mem_erase.mp member
      have was := (charging_assign workers.shared).mp (charging other within)
      rw [if_neg apart] at was
      exact ⟨apart, was⟩
    by_cases own : thread ∈ threads
    · have isTarget := (charging_assign workers.shared).mp (charging thread own)
      rw [if_pos rfl] at isTarget
      cases target.symm.trans isTarget.2.2
      rw [show (workers.assign thread _).shared = workers.shared from rfl, there] at isNow
      cases isNow
      obtain ⟨first', found', samePolicy⟩ := kept.policy there
      rw [found] at found'
      cases found'
      have size : threads.card = (threads.erase thread).card + 1 := by
        rw [Finset.card_erase_of_mem own]
        have positive := Finset.card_pos.mpr ⟨thread, own⟩
        omega
      have limit' := samePolicy ▸ limit
      by_cases alone : (threads.erase thread).Nonempty
      · have fitting := room max limit' _ alone others
        omega
      · rw [Finset.not_nonempty_iff_eq_empty] at alone
        have left := open_ max limit'
        rw [size, alone, Finset.card_empty]
        omega
    · refine before threads fun other member => ?_
      rw [← Finset.erase_eq_of_notMem own] at member
      exact (others other member).2

def counting (vault : Vault) (at_ : CompositeKey) (key : Key) : Vault :=
  { vault with keys := vault.keys.set at_ key.incrementOperations }

theorem Kept.count (kept : Kept engine start workers past)
    (given : workers.tasks thread = some task)
    (target : task.call.request.target engine = some (task.call.request.space, keyId))
    (stage : task.stage = 1) (script : task.script = task.call.request.charge keyId response)
    (there : workers.shared.keys[((task.call.request.space, keyId) : CompositeKey)]? = some key)
    (permitted : task.call.request.permitted key.policy = true)
    (counts : task.call.request.counted = true) :
    Kept engine start
      ({ workers with shared := counting workers.shared (task.call.request.space, keyId) key }.assign
        thread ⟨task.call, 2, .done (.ok response)⟩)
      (past ++ [⟨thread, task.call, .ok response⟩]) := by
  generalize isAt : ((task.call.request.space, keyId) : CompositeKey) = charged at *
  have charging : Charging engine workers thread charged :=
    ⟨task, given, stage, by rw [script]; rfl, target⟩
  have success : ∀ at_, succeeded engine at_ ⟨thread, task.call, .ok response⟩ = true ↔
      charged = at_ := by
    intro at_
    simp [succeeded, target, counts, Except.toOption]
  have after : ∀ other at_, Charging engine
      ({ workers with shared := counting workers.shared charged key }.assign thread
        ⟨task.call, 2, .done (.ok response)⟩) other at_ →
      other ≠ thread ∧ Charging engine workers other at_ := by
    intro other at_ isCharging
    have was := (charging_assign _).mp isCharging
    split_ifs at was with same
    · cases was.1
    · exact ⟨same, was⟩
  refine ⟨fun at_ => ?_, fun other waiting assigned => ?_, fun reply member at_ first isSuccess found
    => ?_, fun at_ first now max found isNow limit fits => ?_⟩
  · obtain ⟨count, same⟩ := kept.same at_
    by_cases isCharged : charged = at_
    · subst isCharged
      refine ⟨fun first => count first + 1, ?_⟩
      rw [there] at same
      obtain ⟨first, found, rfl⟩ := Option.map_eq_some_iff.mp same.symm
      rw [found]
      exact Keys.find_set_self ..
    · exact ⟨count, (Keys.find_set_of_ne _ isCharged _).trans same⟩
  · by_cases same : other = thread
    · subst same
      rw [Threads.tasks_assign_self] at assigned
      cases assigned
      exact .finished _ rfl
    · rw [Threads.tasks_assign_other _ same] at assigned
      cases kept.tasks other waiting assigned with
      | started stage script => exact .started stage script
      | finished result script => exact .finished result script
      | charging keyId' response' key' target' stage' script' there' inSpace' permitted' counts' =>
        by_cases isCharged : charged = (waiting.call.request.space, keyId')
        · rw [← isCharged, there] at there'
          cases there'
          exact .charging keyId' response' key.incrementOperations target' stage' script'
            (by rw [← isCharged]; exact Keys.find_set_self ..) inSpace' permitted' counts'
        · exact .charging keyId' response' key' target' stage' script'
            ((Keys.find_set_of_ne _ isCharged _).trans there') inSpace' permitted' counts'
  · rcases List.mem_append.mp member with old | new
    · exact kept.permitted reply old at_ first isSuccess found
    · obtain rfl := List.mem_singleton.mp new
      obtain rfl := (success at_).mp isSuccess
      obtain ⟨first', found', samePolicy⟩ := kept.policy there
      rw [found] at found'
      cases found'
      rw [← samePolicy]
      exact permitted
  · rw [List.countP_append, List.countP_singleton]
    by_cases isCharged : charged = at_
    · subst isCharged
      obtain ⟨counted, room⟩ := kept.budget charged first key max found there limit fits
      have bound := room {thread} fun other isOther => by
        rw [Finset.mem_singleton.mp isOther]
        exact charging
      rw [Finset.card_singleton] at bound
      have isNext : now = key.incrementOperations :=
        Option.some.inj (isNow.symm.trans (Keys.find_set_self ..))
      have next : now.operationCount.toNat = key.operationCount.toNat + 1 := by
        rw [isNext]
        show (key.operationCount + 1).toNat = _
        rw [UInt64.toNat_add]
        have small := max.toNat_lt
        exact Nat.mod_eq_of_lt (by show key.operationCount.toNat + 1 < 2 ^ 64; omega)
      refine ⟨?_, fun threads isCharging => ?_⟩
      · rw [if_pos ((success charged).mpr rfl), next, counted]
        omega
      · -- With this thread, the others were charging before.
        have larger := room (insert thread threads) fun other member => by
          rcases Finset.mem_insert.mp member with rfl | within
          · exact charging
          · exact (after other charged (isCharging other within)).2
        have outside : thread ∉ threads := fun within =>
          (after thread charged (isCharging thread within)).1 rfl
        rw [Finset.card_insert_of_notMem outside] at larger
        omega
    · have old : workers.shared.keys[at_]? = some now :=
        (Keys.find_set_of_ne _ isCharged _).symm.trans isNow
      obtain ⟨counted, room⟩ := kept.budget at_ first now max found old limit fits
      refine ⟨?_, fun threads isCharging => room threads fun other member =>
        (after other at_ (isCharging other member)).2⟩
      rw [if_neg fun isSuccess => isCharged ((success at_).mp isSuccess)]
      exact counted

theorem advance_charge {vault after : Vault} {request : Request}
    {script : Script Vault (Except Status Response)}
    (there : vault.keys[((request.space, keyId) : CompositeKey)]? = some key)
    (inSpace : key.namespace = request.space)
    (ran : (request.charge keyId response).advance vault = some (after, script)) :
    after = counting vault (request.space, keyId) key ∧ script = .done (.ok response) := by
  have made : some ({ vault with keys := (vault.keys.update request.space keyId
      Key.incrementOperations).2 }, Script.done (.ok response)) = some (after, script) := ran
  have got : vault.keys.get request.space keyId = .ok key :=
    KeyManager.get_eq_ok.mpr ⟨there, inSpace⟩
  rw [Keys.update, got] at made
  cases made
  exact ⟨rfl, rfl⟩

theorem Kept.step (kept : Kept engine start workers past) {move : Move RequestCall}
    (respects : Respects engine workers move) :
    Kept engine start (workers.step (RequestCall.program engine) move).1
      (past ++ (workers.step (RequestCall.program engine) move).2) := by
  rcases workers.step_cases (RequestCall.program engine) move with same |
    ⟨thread, call, rfl, -, made⟩ | ⟨thread, task, shared, script, rfl, under, ran, made⟩
  · rw [same, List.append_nil]
    exact kept
  · rw [made]
    exact kept.quiet (.started rfl rfl) (fun both => nomatch both.1) fun reply member => nomatch member
  · rw [made]
    cases kept.tasks thread task under with
    | started stage isScript =>
      rw [isScript] at ran
      obtain ⟨keyId, validated, rfl, rfl⟩ := advance_handle ran
      have target := target_of_validate validated
      rw [stage]
      rcases withKey_cases (((Vault.getKey task.call.ambient.now task.call.request.space
          keyId).runAlone workers.shared).1) with
        ⟨result, isDone, fails⟩ | ⟨key, response, given, counts, isCharge⟩
      · rw [isDone]
        refine kept.quiet (.finished result rfl) (fun both => nomatch both.2) fun reply member at_ => ?_
        obtain rfl := List.mem_singleton.mp member
        rw [Bool.eq_false_iff]
        intro success
        obtain ⟨-, counts, isOk⟩ := of_decide_eq_true success
        rw [fails counts] at isOk
        cases isOk
      · rw [isCharge]
        obtain ⟨there, inSpace, open_⟩ := getKey_ok given
        obtain ⟨permitted, room⟩ := respects task under stage _ key target there
        have quiet : ∀ at_, ¬ Charging engine workers thread at_ := by
          rintro at_ ⟨other, isOther, atOne, -⟩
          rw [under] at isOther
          cases isOther
          rw [stage] at atOne
          cases atOne
        exact (List.append_nil past).symm ▸
          kept.grant quiet target there inSpace open_ permitted counts room
    | charging keyId response key target stage isScript there inSpace permitted counts =>
      rw [isScript] at ran
      obtain ⟨rfl, rfl⟩ := advance_charge there inSpace ran
      rw [stage]
      exact kept.count under target stage isScript there permitted counts
    | finished result isScript =>
      rw [isScript] at ran
      cases ran

end

namespace Known

def idText : Bytes :=
  "00000000-0000-0000-0000-000000000001".toList.map fun c => UInt8.ofNat c.toNat

def seed : Bytes := List.replicate 32 7

def publicKey : Bytes :=
  [234, 74, 108, 99, 226, 156, 82, 10, 190, 245, 80, 123, 19, 46, 197, 249, 149, 71, 118, 174, 190,
    190, 123, 146, 66, 30, 234, 105, 20, 70, 210, 44]

def signature : Bytes :=
  [131, 153, 142, 113, 153, 71, 97, 45, 14, 130, 212, 39, 71, 44, 104, 90, 100, 177, 77, 154, 234,
    103, 150, 140, 188, 195, 151, 51, 242, 115, 118, 243, 184, 234, 152, 88, 194, 78, 6, 31, 235,
    139, 205, 239, 206, 147, 170, 146, 26, 107, 200, 238, 28, 171, 23, 246, 141, 93, 31, 252, 13,
    194, 216, 0]

def nonce : ByteVec 12 := ⟨List.replicate 12 5, rfl⟩

def ciphertext : Bytes :=
  [227, 243, 132, 141, 135, 10, 167, 138, 111, 141, 20, 202, 44, 136, 254, 59, 253, 232, 212]

def engine : Engine where
  parseKeyId text := if text = idText then .ok 1 else .error "Invalid key ID format"
  isAlphanumeric := Char.isAlphanum
  sign keyType key data :=
    if keyType = .ed25519 ∧ key = seed ∧ data = [1, 2, 3] then some signature else none
  verify keyType key data given :=
    keyType = .ed25519 ∧ key = publicKey ∧ data = [1, 2, 3] ∧ given = signature
  encrypt key iv aad plaintext :=
    if key.val = seed ∧ iv = nonce ∧ aad = [9] ∧ plaintext = [1, 2, 3] then some ciphertext else none
  decrypt key iv aad given :=
    if key.val = seed ∧ iv = nonce ∧ aad = [9] ∧ given = ciphertext then some [1, 2, 3] else none

def key (policy : KeyUsagePolicy) : Key where
  id := 1
  keyType := .ed25519
  privateMaterial := some seed
  publicMaterial := some publicKey
  state := .active
  «namespace» := "app"
  createdAt := 0
  policy := policy
  version := 1
  previousVersion := none
  operationCount := 0

def vault (policy : KeyUsagePolicy) : Vault := { keys := (∅ : Keys).set ("app", 1) (key policy) }

def signing : RequestCall := ⟨.sign idText "app" [1, 2, 3] "", ⟨0, nonce, none⟩⟩

def successes (policy : KeyUsagePolicy) (moves : List (Move RequestCall)) : Nat :=
  (trace (Threads.step (RequestCall.program engine)) (.fresh (vault policy)) moves).2.countP
    (succeeded engine ("app", 1))

end Known

theorem usage_policy_ignored :
    Known.successes { canSign := false } [.start 0 Known.signing, .advance 0, .advance 0] = 1 ∧
    Known.successes { maxOperations := some 1 } [.start 0 Known.signing, .start 1 Known.signing,
      .advance 0, .advance 1, .advance 0, .advance 1] = 2 := by
  decide +kernel

/-- Policies hold, however requests interleave that respect them when they get their keys. -/
theorem usage_policy_enforced (engine : Engine) (vault : Vault) (moves : List (Move RequestCall))
    (respects : Along (Respects engine) (Threads.step (RequestCall.program engine)) (.fresh vault)
      moves) (at_ : CompositeKey) (key : Key) (there : vault.keys[at_]? = some key) :
    let returned := (trace (Threads.step (RequestCall.program engine)) (.fresh vault) moves).2
    (∀ reply ∈ returned, succeeded engine at_ reply = true →
      reply.call.request.permitted key.policy = true) ∧
    ∀ max, key.policy.maxOperations = some max → key.operationCount.toNat ≤ max.toNat →
      key.operationCount.toNat + returned.countP (succeeded engine at_) ≤ max.toNat := by
  have start : Kept engine vault.keys (.fresh vault) [] := by
    refine ⟨fun at_ => ⟨Key.operationCount, ?_⟩, (fun thread task under => nomatch under),
      (fun reply member => nomatch member), fun at_ first key max found there limit fits => ?_⟩
    · show vault.keys[at_]? = _
      cases vault.keys[at_]? <;> rfl
    · cases found.symm.trans there
      refine ⟨rfl, fun threads charging => ?_⟩
      have empty : threads = ∅ := Finset.eq_empty_of_forall_notMem fun thread member => by
        obtain ⟨task, under, -⟩ := charging thread member
        cases under
      rw [empty, Finset.card_empty]
      exact fits
  have kept := trace_invariant (Kept engine vault.keys)
    (fun workers past move kept respects => kept.step respects) moves _ [] start respects
  rw [List.nil_append] at kept
  refine ⟨fun reply member success => kept.permitted reply member at_ key success there,
    fun max limit fits => ?_⟩
  obtain ⟨count, same⟩ := kept.same at_
  rw [there] at same
  obtain ⟨counted, room⟩ := kept.budget at_ key _ max there same limit fits
  have bound := room ∅ fun thread member => absurd member (Finset.notMem_empty thread)
  rw [counted, Finset.card_empty, Nat.add_zero] at bound
  exact bound

theorem usage_policy_enforced_once :
    Known.successes { maxOperations := some 1 } [.start 0 Known.signing, .advance 0, .advance 0,
      .start 1 Known.signing, .advance 1] ≤ 1 := by
  have respects : Along (Respects Known.engine) (Threads.step (RequestCall.program Known.engine))
      (.fresh (Known.vault { maxOperations := some 1 }))
      [.start 0 Known.signing, .advance 0, .advance 0, .start 1 Known.signing, .advance 1] := by
    refine ⟨trivial, fun task given first at_ key target there => ?_, fun task given first => ?_,
      trivial, fun task given first at_ key target there => ?_, trivial⟩
    · cases given
      obtain rfl : (("app", 1) : CompositeKey) = at_ := Option.some.inj target
      refine ⟨?_, fun max limit others nonempty charging => ?_⟩
      · exact congrArg (·.elim true (·.policy.canSign)) there.symm
      · -- There is no other thread yet.
        obtain ⟨other, member⟩ := nonempty
        obtain ⟨apart, waiting, under, -⟩ := charging other member
        change (if other = 0 then _ else none) = some waiting at under
        rw [if_neg apart] at under
        cases under
    · cases given
      cases first
    · cases given
      obtain rfl : (("app", 1) : CompositeKey) = at_ := Option.some.inj target
      refine ⟨?_, fun max limit others nonempty charging => ?_⟩
      · exact congrArg (·.elim true (·.policy.canSign)) there.symm
      · -- The other thread has counted its operation.
        obtain ⟨other, member⟩ := nonempty
        obtain ⟨apart, waiting, under, stage, -⟩ := charging other member
        change (if other = 1 then _ else if other = 0 then some _ else if other = 0 then _ else
          if other = 0 then _ else none) = some waiting at under
        rw [if_neg apart] at under
        by_cases same : other = 0
        · rw [if_pos same] at under
          cases under
          cases stage
        · rw [if_neg same, if_neg same, if_neg same] at under
          cases under
  have enforced := (usage_policy_enforced Known.engine (Known.vault { maxOperations := some 1 }) _
    respects ("app", 1) (Known.key { maxOperations := some 1 }) (Keys.find_set_self ..)).2 1 rfl
    (by decide)
  exact Nat.le_trans (Nat.le_add_left _ _) enforced

end Hsm.Grpc
