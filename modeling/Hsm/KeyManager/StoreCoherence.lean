import Hsm.KeyManager.Store

/-! When the caches of hot keys give what the map holds, however the calls interleave. -/

namespace Hsm.KeyManager

open KeyStore (publish getCold)

/-- The cache may be behind the map. -/
def Doing.Changes (doing : Doing) : Prop := doing = .updating ∨ doing = .deleting

instance (doing : Doing) : Decidable doing.Changes := inferInstanceAs (Decidable (_ ∨ _))

/-- No insertion is under way, and no other cache has the key. -/
def KeyStore.Alone (store : KeyStore) (handle : Nat) (key : CompositeKey) : Prop :=
  (∀ visit ∈ store.visits, visit.key = key → visit.doing ≠ .inserting) ∧
    ∀ other, other ≠ handle → ∀ entry ∈ (store.hotCache other).entries, entry.1 ≠ key

/-- The first section of a call finds its key undisturbed. -/
def StoreCall.Undisturbed (store : KeyStore) : StoreCall → Prop
  | .insert _ _ _ => True
  | .get handle space keyId => ∀ visit ∈ store.visits, visit.handle = handle →
      visit.key = (space, keyId) → ¬ visit.doing.Changes
  | .update handle space keyId _ => store.Alone handle (space, keyId)
  | .delete handle space keyId => store.Alone handle (space, keyId)

def StartsUndisturbed (threads : Threads StoreCall KeyStore StoreReply) : Move StoreCall → Prop
  | .start _ _ => True
  | .advance thread => ∀ task ∈ threads.tasks thread, task.stage = 0 →
      task.call.Undisturbed threads.shared

def GetsHeld (threads : Threads StoreCall KeyStore StoreReply) (move : Move StoreCall) : Prop :=
  ∀ returned ∈ (threads.step StoreCall.program move).2, ∀ handle space keyId key,
    returned.call = .get handle space keyId → returned.result = .found (.ok key) →
      threads.shared.keys[((space, keyId) : CompositeKey)]? = some key

/-- A cached key is held by the map, or about to be corrected. -/
def KeyStore.Coherent (store : KeyStore) : Prop :=
  ∀ handle, ∀ entry ∈ (store.hotCache handle).entries, entry.2.namespace = entry.1.1 →
    store.keys[entry.1]? = some entry.2 ∨
      ∃ visit ∈ store.visits, visit.handle = handle ∧ visit.key = entry.1 ∧ visit.doing.Changes

/-- Caches are coherent, and keys are where they are used. -/
structure KeyStore.Settled (store : KeyStore) : Prop where
  coherent : store.Coherent
  occupied : ∀ visit ∈ store.visits, visit.doing ≠ .deleting → store.keys[visit.key]? ≠ none

def cacheChange (key : CompositeKey) : Option Key → HotCache → HotCache
  | some value, cache => cache.put key value
  | none, cache => cache.pop key

def publishing (visit : Visit) (value : Option Key) (reply : StoreReply) :
    Script KeyStore StoreReply := do
  publish visit (cacheChange visit.key value)
  return reply

def gettingCold (thread handle : Nat) (space : String) (keyId : KeyId) :
    Script KeyStore StoreReply := do
  return .found (← getCold thread handle space keyId)

/-- How far a call has come. -/
inductive Underway (thread : Nat) (store : KeyStore) (task : Task StoreCall KeyStore StoreReply) :
    Prop
  | started (stage : task.stage = 0) (script : task.script = task.call.program thread)
  | cold (handle : Nat) (space : String) (keyId : KeyId) (call : task.call = .get handle space keyId)
    (script : task.script = gettingCold thread handle space keyId)
  | publishing (visit : Visit) (value : Option Key) (reply : StoreReply)
    (member : visit ∈ store.visits) (own : visit.thread = thread)
    (script : task.script = publishing visit value reply)
    (puts : ∀ key, value = some key → visit.doing ≠ .deleting ∧ store.keys[visit.key]? = some key)
    (holds : ∀ handle space keyId key, task.call = .get handle space keyId →
      reply = .found (.ok key) → visit.doing ≠ .deleting ∧ visit.key = (space, keyId) ∧
        store.keys[visit.key]? = some key)
  | finished (reply : StoreReply) (script : task.script = .done reply)

/-- What the section of a thread leaves alone. -/
structure Interferes (thread : Nat) (before after : KeyStore) : Prop where
  visits : ∀ visit ∈ before.visits, visit.thread ≠ thread → visit ∈ after.visits
  keys : ∀ visit ∈ before.visits, visit.doing ≠ .deleting →
    after.keys[visit.key]? = before.keys[visit.key]?

variable {thread : Nat} {store after : KeyStore} {task : Task StoreCall KeyStore StoreReply}
  {script : Script KeyStore StoreReply}

theorem Underway.other {other : Nat} (under : Underway other store task) (apart : other ≠ thread)
    (interferes : Interferes thread store after) : Underway other after task := by
  cases under with
  | started stage script => exact .started stage script
  | cold handle space keyId call script => exact .cold handle space keyId call script
  | publishing visit value reply member own script puts holds =>
    refine .publishing visit value reply (interferes.visits visit member (own ▸ apart)) own script
      (fun key isKey => ?_) fun handle space keyId key call isReply => ?_
    · obtain ⟨kept, held⟩ := puts key isKey
      exact ⟨kept, by rw [interferes.keys visit member kept, held]⟩
    · obtain ⟨kept, sameKey, held⟩ := holds handle space keyId key call isReply
      exact ⟨kept, sameKey, by rw [interferes.keys visit member kept, held]⟩
  | finished reply script => exact .finished reply script

/-- What a section of a call leaves behind. -/
structure Continues (thread : Nat) (store : KeyStore) (task : Task StoreCall KeyStore StoreReply)
    (after : KeyStore) (script : Script KeyStore StoreReply) : Prop where
  settled : after.Settled
  under : Underway thread after ⟨task.call, task.stage + 1, script⟩
  holds : ∀ handle space keyId key, task.call = .get handle space keyId →
    script.result? = some (.found (.ok key)) →
      store.keys[((space, keyId) : CompositeKey)]? = some key
  interferes : Interferes thread store after

theorem continues_failed (settled : store.Settled) {reply : StoreReply}
    (fails : ∀ key, reply ≠ .found (.ok key)) :
    Continues thread store task store (.done reply) := by
  refine ⟨settled, .finished reply rfl, fun handle space keyId key _ returned => ?_,
    fun visit member _ => member, fun visit _ _ => rfl⟩
  cases returned
  exact absurd rfl (fails key)

theorem mem_cacheChange {key : CompositeKey} {value : Option Key} {cache : HotCache}
    {entry : CompositeKey × Key} (member : entry ∈ (cacheChange key value cache).entries) :
    (∃ put, value = some put ∧ entry = (key, put)) ∨ entry ∈ cache.entries ∧ entry.1 ≠ key := by
  cases value with
  | none => exact .inr (LruCache.mem_entries_pop member)
  | some put =>
    rcases LruCache.mem_entries_put member with same | old
    · exact .inl ⟨put, rfl, same⟩
    · exact .inr old

variable {visit : Visit}

theorem continues_publish (settled : store.Settled) {value : Option Key} {reply : StoreReply}
    (own : visit.thread = thread)
    (puts : ∀ key, value = some key → store.keys[visit.key]? = some key)
    (holds : ∀ handle space keyId key, task.call = .get handle space keyId →
      reply = .found (.ok key) → visit.key = (space, keyId) ∧ store.keys[visit.key]? = some key)
    (ran : (publishing visit value reply).advance store = some (after, script)) :
    Continues thread store task after script := by
  cases ran
  refine ⟨⟨fun handle entry present sameSpace => ?_, fun other within =>
    settled.occupied other (List.mem_of_mem_filter within)⟩, .finished reply rfl, ?_, ?_,
    fun _ _ _ => rfl⟩
  · have stays : entry ∈ (store.hotCache handle).entries →
        (handle = visit.handle → entry.1 ≠ visit.key) →
        store.keys[entry.1]? = some entry.2 ∨ ∃ other ∈ store.visits.filter
          (fun other => other ≠ visit), other.handle = handle ∧ other.key = entry.1 ∧
            other.doing.Changes := by
      intro old elsewhere
      rcases settled.coherent handle entry old sameSpace with
        held | ⟨other, within, itsHandle, itsKey, changes⟩
      · exact .inl held
      · refine .inr ⟨other, List.mem_filter.mpr ⟨within, ?_⟩, itsHandle, itsKey, changes⟩
        -- The visit that ends is not the one that excuses the entry.
        rw [decide_eq_true_eq]
        rintro rfl
        exact elsewhere itsHandle.symm itsKey.symm
    by_cases here : handle = visit.handle
    · subst here
      have entries : entry ∈ (cacheChange visit.key value (store.hotCache visit.handle)).entries := by
        simpa [KeyStore.modifyCache] using present
      rcases mem_cacheChange entries with ⟨put, isPut, rfl⟩ | ⟨old, other⟩
      · exact .inl (puts put isPut)
      · exact stays old fun _ => other
    · have entries : entry ∈ (store.hotCache handle).entries := by
        simpa [KeyStore.modifyCache, here] using present
      exact stays entries fun same => absurd same here
  · intro handle space keyId key call returned
    cases returned
    obtain ⟨sameKey, held⟩ := holds handle space keyId key call rfl
    rw [← sameKey]
    exact held
  · intro other within apart
    refine List.mem_filter.mpr ⟨within, ?_⟩
    rw [decide_eq_true_eq]
    rintro rfl
    exact apart own

variable {handle : Nat} {space : String} {keyId : KeyId}

theorem continues_lookup (settled : store.Settled) (call : task.call = .get handle space keyId)
    (undisturbed : StoreCall.Undisturbed store (.get handle space keyId))
    (ran : (StoreCall.program thread (.get handle space keyId)).advance store =
      some (after, script)) : Continues thread store task after script := by
  obtain ⟨-, left, next⟩ := Script.advance_await_andThen ran
  have fewer : ∀ other, ∀ entry ∈ (after.hotCache other).entries,
      entry ∈ (store.hotCache other).entries := by
    intro other entry member
    rw [left] at member
    by_cases same : other = handle
    · subst same
      simp only [KeyStore.modifyCache, if_true] at member
      exact LruCache.mem_entries_get member
    · simpa only [KeyStore.modifyCache, if_neg same] using member
  have sameKeys : after.keys = store.keys := by rw [left]; rfl
  have sameVisits : after.visits = store.visits := by rw [left]; rfl
  refine ⟨⟨fun other entry member sameSpace => ?_, ?_⟩, ?_, ?_,
    ⟨fun visit member _ => ?_, fun _ _ _ => ?_⟩⟩
  · rw [sameKeys, sameVisits]
    exact settled.coherent other entry (fewer other entry member) sameSpace
  · rw [sameKeys, sameVisits]
    exact settled.occupied
  · cases found : ((store.hotCache handle).get (space, keyId)).1 with
    | some key =>
      rw [found] at next
      simp only at next
      split at next
      · exact .finished _ next
      · exact .finished _ next
    | none =>
      rw [found] at next
      exact .cold handle space keyId call next
  · intro handle' space' keyId' key isGet returned
    cases call.symm.trans isGet
    cases found : ((store.hotCache handle).get (space, keyId)).1 with
    | some value =>
      rw [found] at next
      simp only at next
      split at next
      · rw [next] at returned
        cases returned
      · rename_i sameSpace
        rw [next] at returned
        cases returned
        have member := LruCache.mem_of_get
          (Prod.ext found rfl : (store.hotCache handle).get _ = (_, _))
        rcases settled.coherent handle _ member (not_not.mp sameSpace) with
          held | ⟨visit, within, itsHandle, itsKey, changes⟩
        · exact held
        · exact absurd changes (undisturbed visit within itsHandle itsKey)
    | none =>
      rw [found] at next
      rw [next] at returned
      cases returned
  · rw [sameVisits]
    exact member
  · rw [sameKeys]

theorem KeyStore.Settled.enter (settled : store.Settled)
    (held : visit.doing ≠ .deleting → store.keys[visit.key]? ≠ none) :
    (store.enter visit).Settled := by
  refine ⟨fun handle entry member sameSpace => ?_, fun other member => ?_⟩
  · rcases settled.coherent handle entry member sameSpace with held | ⟨other, within, excuse⟩
    · exact .inl held
    · exact .inr ⟨other, List.mem_cons_of_mem _ within, excuse⟩
  · rcases List.mem_cons.mp member with rfl | within
    · exact held
    · exact settled.occupied other within

theorem continues_cold (settled : store.Settled) (call : task.call = .get handle space keyId)
    (ran : (gettingCold thread handle space keyId).advance store = some (after, script)) :
    Continues thread store task after script := by
  obtain ⟨-, left, next⟩ := Script.advance_await_andThen ran
  cases held : store.keys[((space, keyId) : CompositeKey)]? with
  | none =>
    simp only [held] at left next
    subst left next
    exact continues_failed settled (fun key same => by cases same)
  | some key =>
    simp only [held] at left next
    by_cases other : key.namespace ≠ space
    · simp only [if_pos other] at left next
      subst left next
      exact continues_failed settled (fun key same => by cases same)
    · simp only [if_neg other] at left next
      subst left next
      have there : store.keys[((space, keyId) : CompositeKey)]? ≠ none := by
        rw [held]
        exact Option.some_ne_none key
      refine ⟨settled.enter fun _ => there, ?_, (fun _ _ _ _ _ returned => by cases returned),
        fun visit member _ => List.mem_cons_of_mem _ member, fun _ _ _ => rfl⟩
      refine .publishing ⟨thread, handle, (space, keyId), .reading⟩ (some key) (.found (.ok key))
        (List.mem_cons_self ..) rfl rfl (fun value isValue => ?_) ?_
      · cases isValue
        exact ⟨(fun same => by cases same), held⟩
      · intro handle' space' keyId' value isGet isReply
        cases call.symm.trans isGet
        cases isReply
        exact ⟨(fun same => by cases same), rfl, held⟩

theorem key_ne_of_alone {key : CompositeKey} (writable : store.writable key = true)
    (alone : ∀ visit ∈ store.visits, visit.key = key → visit.doing ≠ .inserting) :
    ∀ visit ∈ store.visits, visit.doing ≠ .deleting → visit.key ≠ key := by
  intro visit member kept same
  have unlocked := List.all_eq_true.mp writable visit member
  have apart := alone visit member same
  cases doing : visit.doing <;> simp_all

theorem KeyStore.Settled.change (settled : store.Settled) {keys : Dict CompositeKey Key}
    (elsewhere : ∀ key, key ≠ visit.key → keys[key]? = store.keys[key]?)
    (changes : visit.doing.Changes) (held : visit.doing ≠ .deleting → keys[visit.key]? ≠ none)
    (apart : ∀ other ∈ store.visits, other.doing ≠ .deleting → other.key ≠ visit.key)
    (uncached : ∀ other, other ≠ visit.handle →
      ∀ entry ∈ (store.hotCache other).entries, entry.1 ≠ visit.key) :
    ({ store with keys := keys }.enter visit).Settled := by
  refine ⟨fun handle entry member sameSpace => ?_, fun other member kept => ?_⟩
  · by_cases same : entry.1 = visit.key
    · -- Only the cache of the handle has the key, and the call will see to it.
      refine .inr ⟨visit, List.mem_cons_self .., ?_, same.symm, changes⟩
      by_contra other
      exact uncached handle (fun isHandle => other isHandle.symm) entry member same
    · rcases settled.coherent handle entry member sameSpace with held | ⟨other, within, excuse⟩
      · refine .inl ?_
        show keys[entry.1]? = some entry.2
        rw [elsewhere _ same]
        exact held
      · exact .inr ⟨other, List.mem_cons_of_mem _ within, excuse⟩
  · rcases List.mem_cons.mp member with rfl | within
    · exact held kept
    · show keys[other.key]? ≠ none
      rw [elsewhere _ (apart other within kept)]
      exact settled.occupied other within kept

theorem continues_enter {keys : Dict CompositeKey Key} (value : Option Key) (reply : StoreReply)
    (own : visit.thread = thread)
    (noGet : ∀ handle space keyId, task.call ≠ .get handle space keyId)
    (settled : ({ store with keys := keys }.enter visit).Settled)
    (elsewhere : ∀ key, key ≠ visit.key → keys[key]? = store.keys[key]?)
    (apart : ∀ other ∈ store.visits, other.doing ≠ .deleting → other.key ≠ visit.key)
    (puts : ∀ key, value = some key → visit.doing ≠ .deleting ∧ keys[visit.key]? = some key) :
    Continues thread store task ({ store with keys := keys }.enter visit)
      (publishing visit value reply) := by
  refine ⟨settled, .publishing visit value reply (List.mem_cons_self ..) own rfl puts ?_, ?_,
    fun _ member _ => List.mem_cons_of_mem _ member,
    fun other member kept => elsewhere _ (apart other member kept)⟩
  · exact fun handle space keyId _ isGet => absurd isGet (noGet handle space keyId)
  · exact fun handle space keyId _ isGet => absurd isGet (noGet handle space keyId)

theorem continues_update (settled : store.Settled) {updater : Key → Key}
    (call : task.call = .update handle space keyId updater)
    (alone : store.Alone handle (space, keyId))
    (ran : (StoreCall.program thread (.update handle space keyId updater)).advance store =
      some (after, script)) : Continues thread store task after script := by
  obtain ⟨writable, left, next⟩ := Script.advance_await_andThen ran
  cases held : store.keys[((space, keyId) : CompositeKey)]? with
  | none =>
    simp only [held] at left next
    subst left next
    exact continues_failed settled (fun key same => by cases same)
  | some key =>
    simp only [held] at left next
    by_cases other : key.namespace ≠ space
    · simp only [if_pos other] at left next
      subst left next
      exact continues_failed settled (fun key same => by cases same)
    · simp only [if_neg other] at left next
      subst left next
      have apart := key_ne_of_alone writable alone.1
      have elsewhere : ∀ key', key' ≠ (space, keyId) →
          (store.keys.insert (space, keyId) (updater key))[key']? = store.keys[key']? :=
        fun key' apart => Dict.find_insert_of_ne _ (Ne.symm apart) _
      have there : (store.keys.insert (space, keyId) (updater key))[((space, keyId) :
          CompositeKey)]? = some (updater key) := Dict.find_insert_self ..
      have notGet : ∀ handle space keyId, task.call ≠ .get handle space keyId := by simp [call]
      refine continues_enter (some (updater key)) (.done (.ok ())) rfl notGet
        (settled.change elsewhere (.inl rfl) (fun _ => ?_) apart alone.2) elsewhere apart
        fun value isValue => ?_
      · rw [there]
        exact Option.some_ne_none _
      · cases isValue
        exact ⟨(fun same => by cases same), there⟩

theorem KeyStore.Settled.setKeys (settled : store.Settled) {keys : Dict CompositeKey Key}
    {key : CompositeKey} (elsewhere : ∀ other, other ≠ key → keys[other]? = store.keys[other]?)
    (apart : ∀ visit ∈ store.visits, visit.doing ≠ .deleting → visit.key ≠ key)
    (unheld : ∀ value, value.namespace = key.1 → store.keys[key]? ≠ some value) :
    KeyStore.Settled { store with keys := keys } := by
  refine ⟨fun handle entry member sameSpace => ?_, fun visit member kept => ?_⟩
  · rcases settled.coherent handle entry member sameSpace with present | excuse
    · refine .inl ?_
      show keys[entry.1]? = some entry.2
      rw [elsewhere, present]
      rintro rfl
      exact unheld entry.2 sameSpace present
    · exact .inr excuse
  · show keys[visit.key]? ≠ none
    rw [elsewhere _ (apart visit member kept)]
    exact settled.occupied visit member kept

theorem continues_delete (settled : store.Settled) (call : task.call = .delete handle space keyId)
    (alone : store.Alone handle (space, keyId))
    (ran : (StoreCall.program thread (.delete handle space keyId)).advance store =
      some (after, script)) : Continues thread store task after script := by
  obtain ⟨writable, left, next⟩ := Script.advance_await_andThen ran
  have notGet : ∀ handle space keyId, task.call ≠ .get handle space keyId := by simp [call]
  cases held : store.keys[((space, keyId) : CompositeKey)]? with
  | none =>
    simp only [held] at left next
    subst left next
    exact continues_failed settled (fun key same => by cases same)
  | some key =>
    have apart := key_ne_of_alone writable alone.1
    have elsewhere : ∀ key', key' ≠ (space, keyId) →
        (store.keys.erase (space, keyId))[key']? = store.keys[key']? := by
      intro key' apart
      rw [Dict.find_erase, if_neg (Ne.symm apart)]
    simp only [held] at left next
    by_cases other : key.namespace ≠ space
    · -- A key of another namespace is removed from the map, and it is nobody's to find in a cache.
      simp only [if_pos other] at left next
      subst left next
      refine ⟨settled.setKeys elsewhere apart fun value sameSpace present => ?_,
        .finished _ rfl, (fun _ _ _ _ isGet _ => (notGet _ _ _ isGet).elim),
        fun visit member _ => member, fun visit member kept => elsewhere _ (apart visit member kept)⟩
      cases held.symm.trans present
      exact other sameSpace
    · simp only [if_neg other] at left next
      subst left next
      exact continues_enter none (.found (.ok key)) rfl notGet
        (settled.change elsewhere (.inr rfl) (fun kept => absurd rfl kept) apart alone.2) elsewhere
        apart fun value isValue => by cases isValue

theorem continues_insert (settled : store.Settled) {key : Key}
    (call : task.call = .insert handle space key)
    (ran : (StoreCall.program thread (.insert handle space key)).advance store =
      some (after, script)) : Continues thread store task after script := by
  obtain ⟨-, left, next⟩ := Script.advance_await_andThen ran
  cases held : store.keys[((space, key.id) : CompositeKey)]? with
  | some _ =>
    simp only [held] at left next
    subst left next
    exact continues_failed settled (fun key same => by cases same)
  | none =>
    simp only [held] at left next
    subst left next
    have apart : ∀ visit ∈ store.visits, visit.doing ≠ .deleting → visit.key ≠ (space, key.id) := by
      intro visit member kept same
      have occupied := settled.occupied visit member kept
      rw [same] at occupied
      exact occupied held
    have elsewhere : ∀ key', key' ≠ (space, key.id) →
        (store.keys.insert (space, key.id) key)[key']? = store.keys[key']? :=
      fun key' apart => Dict.find_insert_of_ne _ (Ne.symm apart) _
    have there : (store.keys.insert (space, key.id) key)[((space, key.id) : CompositeKey)]? =
        some key := Dict.find_insert_self ..
    have unheld : ∀ value : Key, value.namespace = space →
        store.keys[((space, key.id) : CompositeKey)]? ≠ some value := fun value _ present => by
      cases held.symm.trans present
    have notGet : ∀ handle space keyId, task.call ≠ .get handle space keyId := by simp [call]
    refine continues_enter (some key) (.done (.ok ())) rfl notGet
      ((settled.setKeys elsewhere apart unheld).enter fun _ => ?_) elsewhere apart
      fun value isValue => ?_
    · show (store.keys.insert (space, key.id) key)[((space, key.id) : CompositeKey)]? ≠ none
      rw [there]
      exact Option.some_ne_none key
    · cases isValue
      exact ⟨(fun same => by cases same), there⟩

theorem continues_advance (settled : store.Settled) (under : Underway thread store task)
    (undisturbed : task.stage = 0 → task.call.Undisturbed store)
    (ran : task.script.advance store = some (after, script)) :
    Continues thread store task after script := by
  cases under with
  | started stage isScript =>
    have first := undisturbed stage
    obtain ⟨call, _, _⟩ := task
    simp only at isScript first
    subst isScript
    cases call with
    | insert handle space key => exact continues_insert settled rfl ran
    | get handle space keyId => exact continues_lookup settled rfl first ran
    | update handle space keyId updater => exact continues_update settled rfl first ran
    | delete handle space keyId => exact continues_delete settled rfl first ran
  | cold handle space keyId call isScript =>
    rw [isScript] at ran
    exact continues_cold settled call ran
  | publishing visit value reply member own isScript puts holds =>
    rw [isScript] at ran
    exact continues_publish settled own (fun key isKey => (puts key isKey).2)
      (fun handle space keyId key call isReply => (holds handle space keyId key call isReply).2) ran
  | finished reply isScript =>
    rw [isScript] at ran
    cases ran

abbrev StoreOutline : Threads StoreCall KeyStore StoreReply → Prop :=
  Threads.Outline KeyStore.Settled Underway

section

variable {threads : Threads StoreCall KeyStore StoreReply} {move : Move StoreCall}
  (outline : StoreOutline threads) (undisturbed : StartsUndisturbed threads move)

include outline undisturbed

theorem StoreOutline.continues (isMove : move = .advance thread)
    (under : threads.tasks thread = some task)
    (ran : task.script.advance threads.shared = some (after, script)) :
    Continues thread threads.shared task after script := by
  subst isMove
  exact continues_advance outline.shared (outline.tasks thread task under)
    (undisturbed task under) ran

theorem StoreOutline.step : StoreOutline (threads.step StoreCall.program move).1 := by
  apply Threads.Outline.step outline
  · intro thread call _
    exact .started rfl rfl
  · intro thread task after script isMove under ran
    have continues := outline.continues undisturbed isMove under ran
    exact ⟨continues.settled, continues.under⟩
  · intro thread task after script other waiting isMove under ran apart given
    have continues := outline.continues undisturbed isMove under ran
    exact (outline.tasks other waiting given).other apart continues.interferes

theorem StoreOutline.getsHeld : GetsHeld threads move := by
  intro returned member handle space keyId key isGet isReply
  obtain ⟨task, after, script, isMove, under, sameCall, ran, result⟩ := Threads.mem_returns member
  have continues := outline.continues undisturbed isMove under ran
  rw [isReply] at result
  exact continues.holds handle space keyId key (sameCall.trans isGet) result

end

/-- A get returns what the map holds, if calls find their keys undisturbed when they start. -/
theorem hot_cache_transparent (moves : List (Move StoreCall))
    (undisturbed : Along StartsUndisturbed (Threads.step StoreCall.program) (.fresh .new) moves) :
    Along GetsHeld (Threads.step StoreCall.program) (.fresh .new) moves := by
  apply Along.of_invariant StoreOutline _ _ moves _ _ undisturbed
  · intro threads move outline allowed
    exact StoreOutline.step outline allowed
  · intro threads move outline allowed
    exact StoreOutline.getsHeld outline allowed
  · refine ⟨⟨fun handle entry member => ?_, fun visit member => ?_⟩, fun thread task under => ?_⟩
    · cases member
    · cases member
    · cases under

def appKey : Key where
  id := 1
  keyType := .ed25519
  privateMaterial := some [7]
  publicMaterial := some [8]
  state := .active
  «namespace» := "app"
  createdAt := 0
  policy := {}
  version := 1
  previousVersion := none
  operationCount := 0

def markCompromised (key : Key) : Key := { key with state := .compromised }

def changedElsewhere (change : StoreCall) : List (Move StoreCall) :=
  [.start 0 (.insert 0 "app" appKey), .advance 0, .advance 0, .start 1 (.get 1 "app" 1), .advance 1,
    .advance 1, .advance 1, .start 0 change, .advance 0, .advance 0]

def afterMoves (moves : List (Move StoreCall)) : Threads StoreCall KeyStore StoreReply :=
  (trace (Threads.step StoreCall.program) (.fresh .new) moves).1

def clonedGet (moves : List (Move StoreCall)) : List StoreReply :=
  (trace (Threads.step StoreCall.program) (afterMoves moves)
    [.start 1 (.get 1 "app" 1), .advance 1]).2.map (·.result)

theorem stale_key_returned :
    ((afterMoves (changedElsewhere (.update 0 "app" 1 markCompromised))).shared.keys[(("app", 1) :
        CompositeKey)]? = some (markCompromised appKey) ∧
      clonedGet (changedElsewhere (.update 0 "app" 1 markCompromised)) = [.found (.ok appKey)]) ∧
    (afterMoves (changedElsewhere (.delete 0 "app" 1))).shared.keys[(("app", 1) :
        CompositeKey)]? = none ∧
      clonedGet (changedElsewhere (.delete 0 "app" 1)) = [.found (.ok appKey)] := by
  decide +kernel

/-- Behind an update, two handles get the key at the same time, one of them a clone. -/
theorem hot_cache_transparent_update :
    Along GetsHeld (Threads.step StoreCall.program) (.fresh .new)
      [.start 0 (.insert 0 "app" appKey), .advance 0, .advance 0,
        .start 0 (.update 0 "app" 1 markCompromised), .advance 0, .advance 0,
        .start 1 (.get 1 "app" 1), .start 2 (.get 0 "app" 1), .advance 1, .advance 2, .advance 1,
        .advance 1] := by
  apply hot_cache_transparent
  refine ⟨trivial, fun task given _ => ?_, fun task given first => ?_, trivial,
    fun task given _ => ?_, fun task given first => ?_, trivial, trivial, fun task given _ => ?_,
    fun task given _ => ?_, fun task given first => ?_, fun task given first => ?_, trivial⟩
  · cases given
    trivial
  · cases given
    cases first
  · cases given
    refine ⟨(fun visit member => nomatch member), fun other apart entry member => ?_⟩
    change entry ∈ (if other = 0 then _ else KeyStore.new.hotCache other).entries at member
    rw [if_neg apart] at member
    cases member
  · cases given
    cases first
  · cases given
    exact fun visit member => nomatch member
  · cases given
    exact fun visit member => nomatch member
  · cases given
    cases first
  · cases given
    cases first

end Hsm.KeyManager
