import Hsm.Storage.Cached

/-! The cache gives what the backend holds, as long as its keys tell the keys of the store apart. -/

namespace Hsm.Storage

open CachedStorage (makeCacheKey)

def CacheCall.Names (named : String → KeyId → Prop) : CacheCall → Prop
  | .load keyId ns => named ns keyId
  | .store keyId _ ns => named ns keyId
  | .delete keyId ns => named ns keyId
  | .clear => True

def KeysApart (named : String → KeyId → Prop) : Prop :=
  ∀ ns keyId ns' keyId', named ns keyId → named ns' keyId' →
    makeCacheKey ns keyId = makeCacheKey ns' keyId' → ns = ns' ∧ keyId = keyId'

section

variable {β : Type}

def Undisturbed (named : String → KeyId → Prop)
    (threads : Threads CacheCall (CachedStorage β) CacheReply) : Move CacheCall → Prop
  | .start _ call => call.Names named
  | .advance thread =>
    match threads.tasks thread with
    | some ⟨.load _ _, 0, _⟩ => threads.shared.locked = none
    | _ => True

def LoadsHeld (backend : StorageBackend β) (held : β → String → KeyId → Option Bytes)
    (threads : Threads CacheCall (CachedStorage β) CacheReply) (move : Move CacheCall) : Prop :=
  ∀ returned ∈ (threads.step (CacheCall.program backend) move).2, ∀ keyId ns data,
    returned.call = .load keyId ns → returned.result = .loaded (.ok data) →
      held threads.shared.backend ns keyId = some data

end

/-- The entry is what a map holds for its key. -/
def Coherent (named : String → KeyId → Prop) (held : String → KeyId → Option Bytes)
    (entry : String × Bytes) : Prop :=
  ∀ ns keyId, named ns keyId → makeCacheKey ns keyId = entry.1 → held ns keyId = some entry.2

section

variable {named : String → KeyId → Prop} {held : String → KeyId → Option Bytes} {ns : String}
  {keyId : KeyId} {cache : LruCache String Bytes}

theorem Coherent.written {entry : String × Bytes} (coherent : Coherent named held entry)
    (other : entry.1 ≠ makeCacheKey ns keyId) (value : Option Bytes) :
    Coherent named (written held ns keyId value) entry := by
  intro ns' keyId' isNamed same
  have apart : ¬ (ns' = ns ∧ keyId' = keyId) := by
    rintro ⟨rfl, rfl⟩
    exact other same.symm
  rw [Storage.written, if_neg apart]
  exact coherent ns' keyId' isNamed same

theorem coherent_new (keysApart : KeysApart named) (isNamed : named ns keyId) {data : Bytes}
    (holds : held ns keyId = some data) : Coherent named held (makeCacheKey ns keyId, data) := by
  intro ns' keyId' isNamed' same
  obtain ⟨rfl, rfl⟩ := keysApart _ _ _ _ isNamed' isNamed same
  exact holds

def CoherentBut (named : String → KeyId → Prop) (held : String → KeyId → Option Bytes)
    (dirty : String) (cache : LruCache String Bytes) : Prop :=
  ∀ entry ∈ cache.entries, entry.1 ≠ dirty → Coherent named held entry

/-- A change makes the entries of a key coherent. -/
def Mends (named : String → KeyId → Prop) (held : String → KeyId → Option Bytes) (dirty : String)
    (change : LruCache String Bytes → LruCache String Bytes) : Prop :=
  ∀ cache, CoherentBut named held dirty cache → ∀ entry ∈ (change cache).entries,
    Coherent named held entry

theorem mends_put (keysApart : KeysApart named) (isNamed : named ns keyId) {data : Bytes}
    (holds : held ns keyId = some data) :
    Mends named held (makeCacheKey ns keyId) (·.put (makeCacheKey ns keyId) data) := by
  intro cache but entry member
  rcases LruCache.mem_entries_put member with rfl | ⟨old, other⟩
  · exact coherent_new keysApart isNamed holds
  · exact but entry old other

theorem mends_pop : Mends named held (makeCacheKey ns keyId) (·.pop (makeCacheKey ns keyId)) := by
  intro cache but entry member
  obtain ⟨old, other⟩ := LruCache.mem_entries_pop member
  exact but entry old other

end

section

variable {β : Type} (backend : StorageBackend β) (held : β → String → KeyId → Option Bytes)
  (named : String → KeyId → Prop)

def Settled (storage : CachedStorage β) : Prop :=
  storage.locked = none → ∀ entry ∈ storage.keyCache.entries,
    Coherent named (held storage.backend) entry

def publishing (change : LruCache String Bytes → LruCache String Bytes) (reply : CacheReply) :
    Script (CachedStorage β) CacheReply := do
  CachedStorage.publish change
  return reply

def loadingMissed (backend : StorageBackend β) (thread : Nat) (keyId : KeyId) (ns : String) :
    Script (CachedStorage β) CacheReply := do
  return .loaded (← CachedStorage.loadMissed backend thread keyId ns)

/-- How far a call has come. -/
inductive Underway (thread : Nat) (storage : CachedStorage β)
    (task : Task CacheCall (CachedStorage β) CacheReply) : Prop
  | started (names : task.call.Names named) (stage : task.stage = 0)
    (script : task.script = task.call.program backend thread)
  | missed (keyId : KeyId) (ns : String) (isNamed : named ns keyId) (call : task.call = .load keyId ns)
    (script : task.script = loadingMissed backend thread keyId ns)
  | publishing (locked : storage.locked = some thread) (dirty : String)
    (change : LruCache String Bytes → LruCache String Bytes) (reply : CacheReply)
    (script : task.script = publishing change reply)
    (but : CoherentBut named (held storage.backend) dirty storage.keyCache)
    (mends : Mends named (held storage.backend) dirty change)
    (holds : ∀ keyId ns data, task.call = .load keyId ns → reply = .loaded (.ok data) →
      held storage.backend ns keyId = some data)
  | finished (reply : CacheReply) (script : task.script = .done reply)

end

/-- Use the backend under its lock, or drop cache entries. -/
def Interferes {β : Type} (thread : Nat) (before after : CachedStorage β) : Prop :=
  before.locked = none ∨ before.locked = some thread ∨
    after.backend = before.backend ∧ after.locked = before.locked ∧
      ∀ entry ∈ after.keyCache.entries, entry ∈ before.keyCache.entries

section

variable {β : Type} {backend : StorageBackend β} {held : β → String → KeyId → Option Bytes}
  {named : String → KeyId → Prop} {thread : Nat} {storage after : CachedStorage β}
  {task : Task CacheCall (CachedStorage β) CacheReply} {script : Script (CachedStorage β) CacheReply}

theorem Underway.other {other : Nat} (under : Underway backend held named other storage task)
    (apart : other ≠ thread) (interferes : Interferes thread storage after) :
    Underway backend held named other after task := by
  cases under with
  | started names stage script => exact .started names stage script
  | missed keyId ns isNamed call script => exact .missed keyId ns isNamed call script
  | publishing locked dirty change reply script but mends holds =>
    -- The lock keeps the others away from the backend.
    rcases interferes with none | own | ⟨sameBackend, sameLock, fewer⟩
    · rw [locked] at none
      cases none
    · rw [locked] at own
      cases own
      exact absurd rfl apart
    · refine .publishing (sameLock.trans locked) dirty change reply script ?_ ?_ ?_
      · rw [sameBackend]
        exact fun entry member => but entry (fewer entry member)
      · rw [sameBackend]
        exact mends
      · rw [sameBackend]
        exact holds
  | finished reply script => exact .finished reply script

theorem advance_callBackend {α γ : Type} {action : EStateM StorageError β α}
    {first : Except StorageError α → Script (CachedStorage β) γ}
    {second : γ → Script (CachedStorage β) CacheReply}
    (ran : ((CachedStorage.callBackend thread action >>= first) >>= second).advance storage =
      some (after, script)) :
    storage.locked = none ∧
      ((∃ value left, action storage.backend = .ok value left ∧
        script = (first (.ok value) >>= second) ∧
        after = { storage with backend := left, locked := some thread }) ∨
      ∃ failure left, action storage.backend = .error failure left ∧
        script = (first (.error failure) >>= second) ∧ after = { storage with backend := left }) := by
  obtain ⟨free, left, rest⟩ := Script.advance_await_andThen ran
  refine ⟨Option.isNone_iff_eq_none.mp free, ?_⟩
  cases called : action storage.backend with
  | ok value backend =>
    rw [called] at left rest
    exact .inl ⟨value, backend, rfl, rest, left⟩
  | error failure backend =>
    rw [called] at left rest
    exact .inr ⟨failure, backend, rfl, rest, left⟩

/-- What a section of a call leaves behind. -/
structure Continues (backend : StorageBackend β) (held : β → String → KeyId → Option Bytes)
    (named : String → KeyId → Prop) (thread : Nat) (storage : CachedStorage β)
    (task : Task CacheCall (CachedStorage β) CacheReply) (after : CachedStorage β)
    (script : Script (CachedStorage β) CacheReply) : Prop where
  settled : Settled held named after
  under : Underway backend held named thread after ⟨task.call, task.stage + 1, script⟩
  holds : ∀ keyId ns data, task.call = .load keyId ns → script.result? = some (.loaded (.ok data)) →
    held storage.backend ns keyId = some data
  interferes : Interferes thread storage after

theorem continues_publish {dirty : String} {change : LruCache String Bytes → LruCache String Bytes}
    {reply : CacheReply} (locked : storage.locked = some thread)
    (but : CoherentBut named (held storage.backend) dirty storage.keyCache)
    (mends : Mends named (held storage.backend) dirty change)
    (holds : ∀ keyId ns data, task.call = .load keyId ns → reply = .loaded (.ok data) →
      held storage.backend ns keyId = some data)
    (ran : (publishing change reply).advance storage = some (after, script)) :
    Continues backend held named thread storage task after script := by
  cases ran
  refine ⟨fun _ => mends _ but, .finished reply rfl, ?_, .inr (.inl locked)⟩
  intro keyId ns data isLoad returned
  cases returned
  exact holds keyId ns data isLoad rfl

theorem continues_clear (call : task.call = .clear)
    (ran : (CacheCall.program backend thread .clear).advance storage = some (after, script)) :
    Continues backend held named thread storage task after script := by
  cases ran
  have empty : ∀ entry ∈ storage.keyCache.clear.entries, False := fun _ member => nomatch member
  refine ⟨fun _ entry member => (empty entry member).elim, .finished _ rfl, ?_,
    .inr (.inr ⟨rfl, rfl, fun entry member => (empty entry member).elim⟩)⟩
  intro keyId ns data isLoad _
  rw [call] at isLoad
  cases isLoad

variable (settled : Settled held named storage)

include settled

theorem Settled.callBackend {α γ : Type} {action : EStateM StorageError β α}
    {first : Except StorageError α → Script (CachedStorage β) γ}
    {second : γ → Script (CachedStorage β) CacheReply}
    (ran : ((CachedStorage.callBackend thread action >>= first) >>= second).advance storage =
      some (after, script)) (dirty : String)
    (fails : ∀ failure left, action storage.backend = .error failure left →
      held left = held storage.backend ∧ ∃ reply, (first (.error failure) >>= second) = .done reply ∧
        ∀ data, reply ≠ .loaded (.ok data))
    (succeeds : ∀ value left, action storage.backend = .ok value left →
      (∀ entry, entry.1 ≠ dirty → Coherent named (held storage.backend) entry →
        Coherent named (held left) entry) ∧
      ∃ change reply, (first (.ok value) >>= second) = publishing change reply ∧
        Mends named (held left) dirty change ∧
        ∀ keyId ns data, task.call = .load keyId ns → reply = .loaded (.ok data) →
          held left ns keyId = some data) :
    Continues backend held named thread storage task after script := by
  obtain ⟨free, ⟨value, left, called, rfl, rfl⟩ | ⟨failure, left, called, rfl, rfl⟩⟩ :=
    advance_callBackend ran
  · obtain ⟨kept, change, reply, isPublish, mends, holds⟩ := succeeds value left called
    refine ⟨(fun unlocked => by cases unlocked), ?_, ?_, .inl free⟩
    · exact .publishing rfl dirty change reply isPublish
        (fun entry member other => kept entry other (settled free entry member)) mends holds
    · intro keyId ns data _ returned
      rw [isPublish] at returned
      cases returned
  · obtain ⟨same, reply, isDone, notLoaded⟩ := fails failure left called
    refine ⟨fun unlocked entry member => ?_, .finished reply isDone, ?_, .inl free⟩
    · show Coherent named (held left) entry
      rw [same]
      exact settled free entry member
    · intro keyId ns data _ returned
      rw [isDone] at returned
      cases returned
      exact absurd rfl (notLoaded data)

variable {keyId : KeyId} {ns : String}

theorem Settled.lookup (isNamed : named ns keyId) (call : task.call = .load keyId ns)
    (free : storage.locked = none)
    (ran : (CacheCall.program backend thread (.load keyId ns)).advance storage =
      some (after, script)) :
    Continues backend held named thread storage task after script := by
  obtain ⟨-, left, next⟩ := Script.advance_await_andThen ran
  have fewer : ∀ entry ∈ after.keyCache.entries, entry ∈ storage.keyCache.entries := by
    intro entry member
    rw [left] at member
    exact LruCache.mem_entries_get member
  have sameBackend : after.backend = storage.backend := by rw [left]
  refine ⟨fun _ entry member => ?_, ?_, ?_, .inl free⟩
  · rw [sameBackend]
    exact settled free entry (fewer entry member)
  · cases found : (storage.keyCache.get (makeCacheKey ns keyId)).1 with
    | some data =>
      rw [found] at next
      exact .finished _ next
    | none =>
      rw [found] at next
      exact .missed keyId ns isNamed call next
  · intro keyId' ns' data isLoad returned
    cases call.symm.trans isLoad
    cases found : (storage.keyCache.get (makeCacheKey ns keyId)).1 with
    | some value =>
      rw [found] at next
      rw [next] at returned
      cases returned
      have member := LruCache.mem_of_get (Prod.ext found rfl : storage.keyCache.get _ = (_, _))
      exact settled free _ member ns keyId isNamed rfl
    | none =>
      rw [found] at next
      rw [next] at returned
      cases returned

variable (isMap : backend.IsMap held) (keysApart : KeysApart named)

include isMap keysApart

theorem Settled.loadMissed (isNamed : named ns keyId) (call : task.call = .load keyId ns)
    (ran : (loadingMissed backend thread keyId ns).advance storage = some (after, script)) :
    Continues backend held named thread storage task after script := by
  apply settled.callBackend ran (makeCacheKey ns keyId)
  · intro failure left called
    exact ⟨isMap.loadFails called, .loaded (.error failure), rfl, fun data same => by cases same⟩
  · intro data left called
    obtain ⟨holds, same⟩ := isMap.loads called
    rw [← same] at holds
    refine ⟨fun entry _ coherent => ?_, _, .loaded (.ok data), rfl,
      mends_put keysApart isNamed holds, ?_⟩
    · rw [same]
      exact coherent
    · intro keyId' ns' data' isLoad isReply
      cases call.symm.trans isLoad
      cases isReply
      exact holds

theorem Settled.store {data : Bytes} (isNamed : named ns keyId)
    (ran : (CacheCall.program backend thread (.store keyId data ns)).advance storage =
      some (after, script)) :
    Continues backend held named thread storage task after script := by
  apply settled.callBackend ran (makeCacheKey ns keyId)
  · intro failure left called
    exact ⟨isMap.storeFails called, .changed (.error failure), rfl, fun data same => by cases same⟩
  · intro _ left called
    have same := isMap.stores called
    have holds : held left ns keyId = some data := by simp [same, written]
    refine ⟨fun entry other coherent => ?_, _, .changed (.ok ()), rfl,
      mends_put keysApart isNamed holds, fun _ _ _ _ isReply => by cases isReply⟩
    rw [same]
    exact coherent.written other _

omit keysApart in
theorem Settled.delete
    (ran : (CacheCall.program backend thread (.delete keyId ns)).advance storage =
      some (after, script)) :
    Continues backend held named thread storage task after script := by
  apply settled.callBackend ran (makeCacheKey ns keyId)
  · intro failure left called
    exact ⟨isMap.deleteFails called, .changed (.error failure), rfl, fun data same => by cases same⟩
  · intro _ left called
    have same := isMap.deletes called
    refine ⟨fun entry other coherent => ?_, _, .changed (.ok ()), rfl, mends_pop,
      fun _ _ _ _ isReply => by cases isReply⟩
    rw [same]
    exact coherent.written other _

theorem Settled.advance (under : Underway backend held named thread storage task)
    (undisturbed : ∀ keyId ns, task.call = .load keyId ns → task.stage = 0 → storage.locked = none)
    (ran : task.script.advance storage = some (after, script)) :
    Continues backend held named thread storage task after script := by
  cases under with
  | started names stage isScript =>
    obtain ⟨call, _, _⟩ := task
    simp only at isScript stage
    subst isScript
    cases call with
    | load keyId ns => exact settled.lookup names rfl (undisturbed keyId ns rfl stage) ran
    | store keyId data ns => exact settled.store isMap keysApart names ran
    | delete keyId ns => exact settled.delete isMap ran
    | clear => exact continues_clear rfl ran
  | missed keyId ns isNamed call isScript =>
    rw [isScript] at ran
    exact settled.loadMissed isMap keysApart isNamed call ran
  | publishing locked dirty change reply isScript but mends holds =>
    rw [isScript] at ran
    exact continues_publish locked but mends holds ran
  | finished reply isScript =>
    rw [isScript] at ran
    cases ran

end

section

variable {β : Type} {backend : StorageBackend β} {held : β → String → KeyId → Option Bytes}
  {named : String → KeyId → Prop}

abbrev CacheOutline (backend : StorageBackend β) (held : β → String → KeyId → Option Bytes)
    (named : String → KeyId → Prop) :
    Threads CacheCall (CachedStorage β) CacheReply → Prop :=
  Threads.Outline (Settled held named) (Underway backend held named)

variable (isMap : backend.IsMap held) (keysApart : KeysApart named)
  {threads : Threads CacheCall (CachedStorage β) CacheReply} {move : Move CacheCall}
  (outline : CacheOutline backend held named threads) (undisturbed : Undisturbed named threads move)

include isMap keysApart outline undisturbed

theorem CacheOutline.continues {thread : Nat} {task : Task CacheCall (CachedStorage β) CacheReply}
    {after : CachedStorage β} {script : Script (CachedStorage β) CacheReply}
    (isMove : move = .advance thread) (under : threads.tasks thread = some task)
    (ran : task.script.advance threads.shared = some (after, script)) :
    Continues backend held named thread threads.shared task after script := by
  apply outline.shared.advance isMap keysApart (outline.tasks thread task under) _ ran
  intro keyId ns isLoad first
  obtain ⟨call, stage, _⟩ := task
  simp only at isLoad first
  subst isMove isLoad first
  simpa only [Undisturbed, under] using undisturbed

theorem CacheOutline.step :
    CacheOutline backend held named (threads.step (CacheCall.program backend) move).1 := by
  apply Threads.Outline.step outline
  · intro thread call isMove
    subst isMove
    exact .started undisturbed rfl rfl
  · intro thread task after script isMove under ran
    have continues := outline.continues isMap keysApart undisturbed isMove under ran
    exact ⟨continues.settled, continues.under⟩
  · intro thread task after script other waiting isMove under ran apart given
    have continues := outline.continues isMap keysApart undisturbed isMove under ran
    exact (outline.tasks other waiting given).other apart continues.interferes

theorem CacheOutline.loadsHeld : LoadsHeld backend held threads move := by
  intro returned member keyId ns data isLoad isReply
  obtain ⟨task, after, script, isMove, under, sameCall, ran, result⟩ := Threads.mem_returns member
  have continues := outline.continues isMap keysApart undisturbed isMove under ran
  rw [isReply] at result
  exact continues.holds keyId ns data (sameCall.trans isLoad) result

end

/-- A load returns what the backend holds at a moment when the call is under way. -/
theorem loadKeyCached_transparent {β : Type} {backend : StorageBackend β}
    {held : β → String → KeyId → Option Bytes} (isMap : backend.IsMap held)
    {named : String → KeyId → Prop} (keysApart : KeysApart named) (start : β) (capacity : Nat)
    (moves : List (Move CacheCall))
    (undisturbed : Along (Undisturbed named) (Threads.step (CacheCall.program backend))
      (.fresh (.new start capacity)) moves) :
    Along (LoadsHeld backend held) (Threads.step (CacheCall.program backend))
      (.fresh (.new start capacity)) moves := by
  apply Along.of_invariant (CacheOutline backend held named) _ _ moves _ _ undisturbed
  · intro threads move outline allowed
    exact outline.step isMap keysApart allowed
  · intro threads move outline allowed
    exact outline.loadsHeld isMap keysApart allowed
  · -- Nothing is cached and no call is under way.
    refine ⟨fun _ entry member => ?_, fun thread task under => nomatch under⟩
    have empty : (CachedStorage.new start capacity).keyCache.entries = [] := by
      unfold CachedStorage.new
      dsimp only
      split <;> rfl
    rw [Threads.fresh, empty] at member
    cases member

def mapBackend : StorageBackend (String → KeyId → Option Bytes) where
  loadKey keyId ns := fun held =>
    match held ns keyId with
    | some data => .ok data held
    | none => .error (.keyNotFound keyId) held
  storeKey keyId data ns := fun held => .ok () (written held ns keyId (some data))
  deleteKey keyId ns := fun held =>
    match held ns keyId with
    | some _ => .ok () (written held ns keyId none)
    | none => .error (.keyNotFound keyId) held

theorem mapBackend_isMap : mapBackend.IsMap id where
  loads {keyId ns held data after} ran := by
    cases there : held ns keyId with
    | none => simp [mapBackend, there] at ran
    | some value =>
      simp only [mapBackend, there, EStateM.Result.ok.injEq] at ran
      obtain ⟨rfl, rfl⟩ := ran
      exact ⟨there, rfl⟩
  loadFails {keyId ns held failure after} ran := by
    cases there : held ns keyId with
    | none =>
      simp only [mapBackend, there, EStateM.Result.error.injEq] at ran
      exact congrArg id ran.2.symm
    | some value => simp [mapBackend, there] at ran
  stores ran := by
    cases ran
    rfl
  storeFails ran := nomatch ran
  deletes {keyId ns held after} ran := by
    cases there : held ns keyId with
    | none => simp [mapBackend, there] at ran
    | some value =>
      simp only [mapBackend, there, EStateM.Result.ok.injEq] at ran
      exact congrArg id ran.2.symm
  deleteFails {keyId ns held failure after} ran := by
    cases there : held ns keyId with
    | none =>
      simp only [mapBackend, there, EStateM.Result.error.injEq] at ran
      exact congrArg id ran.2.symm
    | some value => simp [mapBackend, there] at ran

theorem other_key_returned :
    ¬ ∀ (β : Type) (backend : StorageBackend β) (held : β → String → KeyId → Option Bytes),
      backend.IsMap held → ∀ (start : β) (capacity : Nat) (moves : List (Move CacheCall)),
        Along (Undisturbed fun _ _ => True) (Threads.step (CacheCall.program backend))
          (.fresh (.new start capacity)) moves →
        Along (LoadsHeld backend held) (Threads.step (CacheCall.program backend))
          (.fresh (.new start capacity)) moves := by
  intro transparent
  have along := transparent _ mapBackend id mapBackend_isMap (fun _ _ => none) 2
    [.start 0 (.store "c" [1] "a:b"), .advance 0, .advance 0, .start 0 (.load "b:c" "a"), .advance 0]
    ⟨trivial, trivial, trivial, trivial, rfl, trivial⟩
  obtain ⟨-, -, -, -, loads, -⟩ := along
  have holds := loads ⟨0, .load "b:c" "a", .loaded (.ok [1])⟩ (List.mem_singleton.mpr rfl) "b:c" "a"
    [1] rfl rfl
  cases holds

theorem keysApart_colonless : KeysApart fun ns _ => ':' ∉ ns.toList := by
  intro ns keyId ns' keyId' colonless colonless' same
  have letters : ns.toList ++ ':' :: keyId.toList = ns'.toList ++ ':' :: keyId'.toList := by
    simpa [makeCacheKey] using congrArg String.toList same
  -- The part by which one namespace is longer would begin with the colon.
  have empty : ∀ {first second more : List Char} {rest rest' : List Char}, ':' ∉ second →
      second = first ++ more → ':' :: rest = more ++ ':' :: rest' → more = [] := by
    intro first second more rest rest' without isLonger begins
    cases more with
    | nil => rfl
    | cons letter more =>
      cases (List.cons.inj begins).1
      exact absurd (by simp [isLonger]) without
  rcases List.append_eq_append_iff.mp letters with ⟨more, longer, rest⟩ | ⟨more, longer, rest⟩
  · cases empty colonless' longer rest
    simp only [List.append_nil, List.nil_append, List.cons.injEq, true_and] at longer rest
    exact ⟨String.toList_inj.mp longer.symm, String.toList_inj.mp rest⟩
  · cases empty colonless longer rest
    simp only [List.append_nil, List.nil_append, List.cons.injEq, true_and] at longer rest
    exact ⟨String.toList_inj.mp longer, String.toList_inj.mp rest.symm⟩

theorem loadKeyCached_transparent_stored :
    let moves := [.start 0 (.store "k" [7] "a"), .start 1 (.load "k" "a"), .advance 0, .advance 0,
      .advance 1]
    (trace (Threads.step (CacheCall.program mapBackend)) (.fresh (.new (fun _ _ => none) 2))
      moves).2 = [⟨0, .store "k" [7] "a", .changed (.ok ())⟩,
        ⟨1, .load "k" "a", .loaded (.ok [7])⟩] ∧
    Along (LoadsHeld mapBackend id) (Threads.step (CacheCall.program mapBackend))
      (.fresh (.new (fun _ _ => none) 2)) moves := by
  have colonless : ':' ∉ "a".toList := by decide
  exact ⟨rfl, loadKeyCached_transparent mapBackend_isMap keysApart_colonless _ _ _
    ⟨colonless, colonless, trivial, trivial, rfl, trivial⟩⟩

end Hsm.Storage
