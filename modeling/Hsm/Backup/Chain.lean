import Hsm.Backup.Incremental
import Hsm.Lib.Run

/-! Histories of keys with backups taken on the way, and when their chain restores the keys. -/

namespace Hsm.Backup

open IncrementalBackupManager

structure Stored where
  data : Bytes
  modifiedAt : Int
  deriving DecidableEq

def Stored.entry (id : KeyId) (stored : Stored) : KeyEntry := ⟨id, stored.data, stored.modifiedAt⟩

/-- The keys over time, and the backups taken so far. -/
structure History where
  clock : Int
  keys : Dict KeyId Stored := ∅
  manager : IncrementalBackupManager := {}
  chain : List IncrementalBackup := []
  taken : Dict KeyId Stored := ∅

/-- What happens to the keys, the clock and the backups. -/
inductive Event where
  | tick (seconds : Nat)
  | create (id : KeyId) (data : Bytes)
  | update (id : KeyId) (data : Bytes)
  | delete (id : KeyId)
  | markChanged (id : KeyId)
  | backup (id : String)

namespace History

def allKeys (history : History) : List KeyEntry :=
  history.keys.toList.map fun stored => stored.2.entry stored.1

def takeBackup (history : History) (id : String) : IncrementalBackupManager × IncrementalBackup :=
  match history.chain.getLast? with
  | none => createFullBackup history.clock id history.allKeys
  | some previous => createIncrementalBackup history.clock id previous.metadata.id
      (filterKeysByTimestamp history.allKeys previous.metadata.timestamp)

def step (history : History) : Event → History × List Unit
  | .tick seconds => ({ history with clock := history.clock + seconds }, [])
  | .create id data =>
    if id ∈ history.keys then (history, [])
    else ({ history with keys := history.keys.insert id ⟨data, history.clock⟩ }, [])
  | .update id data =>
    if id ∈ history.keys then
      ({ history with keys := history.keys.insert id ⟨data, history.clock⟩ }, [])
    else (history, [])
  | .delete id => ({ history with keys := history.keys.erase id }, [])
  | .markChanged id => ({ history with manager := history.manager.markChanged id }, [])
  | .backup id =>
    let taken := history.takeBackup id
    ({ history with manager := taken.1, chain := history.chain ++ [taken.2]
                    taken := history.keys }, [])

def run (clock : Int) (events : List Event) : History := (trace step { clock } events).1

def Restores (history : History) : Prop :=
  history.chain ≠ [] → ∃ restored, restoreFromChain history.chain = .ok restored ∧
    ∀ id : KeyId, restored[id]?.map (·.data) = history.taken[id]?.map (·.data)

/-- No key is gone since the backup before, and those not modified later are unchanged. -/
def Recorded (history : History) : Event → Prop
  | .backup _ => ∀ previous ∈ history.chain.getLast?,
      (∀ id ∈ history.taken.keys, id ∈ history.keys) ∧
      ∀ key ∈ history.allKeys, key.modifiedAt ≤ previous.metadata.timestamp →
        history.taken[key.id]?.map (·.data) = some key.data
  | _ => True

instance (history : History) : (event : Event) → Decidable (history.Recorded event)
  | .backup _ => inferInstanceAs (Decidable (∀ previous ∈ history.chain.getLast?, _))
  | .tick _ | .create _ _ | .update _ _ | .delete _ | .markChanged _ =>
    inferInstanceAs (Decidable True)

variable {history : History}

theorem mem_allKeys {key : KeyEntry} :
    key ∈ history.allKeys ↔ history.keys[key.id]? = some ⟨key.data, key.modifiedAt⟩ := by
  rw [allKeys, List.mem_map]
  constructor
  · rintro ⟨⟨id, stored⟩, member, rfl⟩
    exact Std.ExtTreeMap.mem_toList_iff_getElem?_eq_some.mp member
  · intro found
    exact ⟨(key.id, _), Std.ExtTreeMap.mem_toList_iff_getElem?_eq_some.mpr found, rfl⟩

theorem allKeys_unique {first second : KeyEntry} (member : first ∈ history.allKeys)
    (member' : second ∈ history.allKeys) (same : first.id = second.id) : first = second := by
  obtain ⟨id, data, modifiedAt⟩ := first
  obtain ⟨id', data', modifiedAt'⟩ := second
  cases same
  have stored := mem_allKeys.mp member
  rw [show history.keys[id]? = some ⟨data', modifiedAt'⟩ from mem_allKeys.mp member'] at stored
  cases stored
  rfl

theorem find_apply_filter (history : History) (keep : KeyEntry → Bool) (id : KeyId)
    (restored : Dict KeyId KeyEntry) :
    (apply restored (history.allKeys.filter keep))[id]? =
      ((history.keys[id]?.map (·.entry id)).filter keep).or restored[id]? := by
  have unique : ∀ entry ∈ history.allKeys.filter keep, ∀ key ∈ history.allKeys.filter keep,
      key.id = entry.id → key = entry := fun entry member key member' same =>
    allKeys_unique (List.mem_filter.mp member').1 (List.mem_filter.mp member).1 same
  have absent : (∀ stored, history.keys[id]? = some stored → keep (stored.entry id) = false) →
      (apply restored (history.allKeys.filter keep))[id]? = restored[id]? := by
    intro none_kept
    refine find_apply_of_not_mem (fun key member same => ?_) restored
    obtain ⟨listed, kept⟩ := List.mem_filter.mp member
    subst same
    rw [show key = Stored.entry key.id ⟨key.data, key.modifiedAt⟩ from rfl,
      none_kept _ (mem_allKeys.mp listed)] at kept
    cases kept
  cases found : history.keys[id]? with
  | none => exact absent fun stored given => by rw [found] at given; cases given
  | some stored =>
    by_cases kept : keep (stored.entry id) = true
    · have member : stored.entry id ∈ history.allKeys.filter keep :=
        List.mem_filter.mpr ⟨mem_allKeys.mpr found, kept⟩
      have restores := find_apply_of_mem member (unique _ member) restored
      rw [show (stored.entry id).id = id from rfl] at restores
      rw [restores, Option.map_some, Option.filter_some, if_pos kept, Option.some_or]
    · rw [absent fun other given => ?_, Option.map_some, Option.filter_some, if_neg kept,
        Option.none_or]
      rw [found] at given
      cases given
      exact Bool.eq_false_iff.mpr kept

theorem restores_full (history : History) (id : String) (empty : history.chain = []) :
    (history.step (.backup id)).1.Restores := by
  intro _
  have isFull : (history.takeBackup id).2.backupType = .full := by
    rw [takeBackup, empty]
    exact (IncrementalBackup.metadata_foldl_addKey _ _).1
  have holds : (history.takeBackup id).2.keys = history.allKeys := by
    rw [takeBackup, empty]
    exact IncrementalBackup.keys_foldl_addKey _ _
  refine ⟨apply ∅ history.allKeys, ?_, fun key => ?_⟩
  · simp only [step, empty, List.nil_append, restoreFromChain, isFull, ne_eq, not_true_eq_false,
      if_false, List.foldl_nil, holds]
  · have found := history.find_apply_filter (fun _ => true) key ∅
    rw [List.filter_true] at found
    rw [found, show (history.step (.backup id)).1.taken = history.keys from rfl]
    cases history.keys[key]? <;> simp [Stored.entry]

theorem restores_incremental (id : String) (restores : history.Restores)
    (taken : history.chain ≠ []) :
    (history.step (.backup id)).1.Restores ↔ history.Recorded (.backup id) := by
  obtain ⟨restored, chain, earlier⟩ := restores taken
  obtain ⟨previous, last⟩ := Option.isSome_iff_exists.mp (List.getLast?_isSome.mpr taken)
  have holds : (history.takeBackup id).2.keys =
      history.allKeys.filter fun key => key.modifiedAt > previous.metadata.timestamp := by
    rw [takeBackup, last]
    exact IncrementalBackup.keys_foldl_addKey _ _
  have extended := restoreFromChain_append chain (history.takeBackup id).2
  rw [holds] at extended
  -- The property of the longer chain speaks about each key on its own.
  have pointwise : (history.step (.backup id)).1.Restores ↔ ∀ key : KeyId,
      ((((history.keys[key]?.map (·.entry key)).filter
        fun entry => entry.modifiedAt > previous.metadata.timestamp).or restored[key]?).map
          (·.data)) = history.keys[key]?.map (·.data) := by
    simp only [← find_apply_filter]
    constructor
    · intro exact
      obtain ⟨result, gives, same⟩ := exact (by simp [step])
      rw [show (history.step (.backup id)).1.chain = history.chain ++ [(history.takeBackup id).2]
        from rfl, extended] at gives
      cases gives
      exact same
    · intro same _
      exact ⟨_, extended, same⟩
  rw [pointwise]
  simp only [Recorded, last, Option.mem_some_iff, forall_eq']
  constructor
  · intro same
    refine ⟨fun key member => ?_, fun key member old => ?_⟩
    · have here := same key
      rw [Std.ExtTreeMap.mem_keys, Std.ExtTreeMap.mem_iff_isSome_getElem?] at member
      rw [Std.ExtTreeMap.mem_iff_isSome_getElem?]
      by_contra gone
      rw [Option.not_isSome_iff_eq_none] at gone
      rw [gone, Option.map_none, Option.filter_none, Option.none_or, earlier key,
        Option.map_none, Option.map_eq_none_iff] at here
      rw [here] at member
      cases member
    · have here := same key.id
      rw [mem_allKeys.mp member, Option.map_some, Option.filter_some,
        if_neg (by simpa [Stored.entry] using old), Option.none_or, earlier key.id] at here
      exact here
  · rintro ⟨kept, unchanged⟩ key
    cases found : history.keys[key]? with
    | none =>
      -- The key is not in the store, so the backup before did not hold it.
      have absent : history.taken[key]? = none := by
        by_contra present
        have member : key ∈ history.taken.keys := by
          rw [Std.ExtTreeMap.mem_keys, Std.ExtTreeMap.mem_iff_isSome_getElem?]
          exact Option.isSome_iff_ne_none.mpr present
        have still := Std.ExtTreeMap.mem_iff_isSome_getElem?.mp (kept key member)
        rw [found] at still
        cases still
      rw [Option.map_none, Option.filter_none, Option.none_or, earlier key, absent]
    | some stored =>
      rw [Option.map_some, Option.filter_some]
      split_ifs with later
      · rfl
      · rw [Option.none_or, earlier key]
        have member : stored.entry key ∈ history.allKeys := mem_allKeys.mpr found
        exact unchanged _ member (by simpa using later)

theorem restores_step (restores : history.Restores) (event : Event) :
    (history.step event).1.Restores ↔ history.Recorded event := by
  have kept : ∀ next : History, next.chain = history.chain → next.taken = history.taken →
      (next.Restores ↔ True) := by
    intro next sameChain sameTaken
    rw [Restores, sameChain, sameTaken]
    exact iff_true_intro restores
  cases event with
  | tick seconds => exact kept _ rfl rfl
  | create id data =>
    rw [step]
    split_ifs
    · exact kept _ rfl rfl
    · exact kept _ rfl rfl
  | update id data =>
    rw [step]
    split_ifs
    · exact kept _ rfl rfl
    · exact kept _ rfl rfl
  | delete id => exact kept _ rfl rfl
  | markChanged id => exact kept _ rfl rfl
  | backup id =>
    by_cases empty : history.chain = []
    · refine iff_of_true (restores_full history id empty) ?_
      simp [Recorded, empty]
    · exact restores_incremental id restores empty

/-- A chain restores the keys all along exactly if its backups record the changes. -/
theorem restores_along (restores : history.Restores) (events : List Event) :
    (∀ earlier later, events = earlier ++ later → (trace step history earlier).1.Restores) ↔
      Along Recorded step history events := by
  induction events generalizing history with
  | nil =>
    refine iff_of_true (fun earlier later split => ?_) trivial
    obtain ⟨rfl, rfl⟩ := List.append_eq_nil_iff.mp split.symm
    exact restores
  | cons event rest ih =>
    rw [Along, ← restores_step restores]
    constructor
    · intro all
      have next : (history.step event).1.Restores := all [event] rest rfl
      refine ⟨next, (ih next).mp fun earlier later split => ?_⟩
      exact all (event :: earlier) later (by rw [split]; rfl)
    · rintro ⟨next, along⟩ earlier later split
      cases earlier with
      | nil => exact restores
      | cons head tail =>
        obtain ⟨rfl, rest⟩ := List.cons.inj split
        exact (ih next).mpr along tail later rest

end History

def Linked (backups : List IncrementalBackup) : Prop :=
  backups.IsChain fun previous backup =>
    backup.backupType = .incremental ∧ backup.parentId = some previous.metadata.id

theorem validateLinks_iff (first : IncrementalBackup) (later : List IncrementalBackup) :
    validateLinks first later = .ok () ↔ Linked (first :: later) := by
  induction later generalizing first with
  | nil => simp [validateLinks, Linked]
  | cons backup rest ih =>
    rw [Linked, List.isChain_cons_cons, ← Linked, ← ih, validateLinks]
    split_ifs with isFull broken
    · simp [isFull]
    · simp [broken]
    · simp [not_not.mp isFull, not_not.mp broken]

theorem validate_of_restore_iff (backups : List IncrementalBackup) :
    ((∃ restored, restoreFromChain backups = .ok restored) → validateChain backups = .ok ()) ↔
      ∀ first ∈ backups.head?, first.backupType = .full → Linked backups := by
  cases backups with
  | nil => simp [restoreFromChain]
  | cons first later =>
    rw [restoreFromChain, validateChain]
    split_ifs with notFull
    · simp [notFull]
    · simp [not_not.mp notFull, validateLinks_iff]

def deletedBetween : List Event := [.create "key1" [1], .backup "full", .tick 10, .delete "key1",
  .backup "incremental"]

def updatedInSecond : List Event := [.create "key1" [1], .backup "full", .update "key1" [2],
  .tick 10, .backup "incremental"]

theorem backup_chain_incomplete :
    (¬ (History.run 100 deletedBetween).Restores ∧ ¬ (History.run 100 updatedInSecond).Restores) ∧
      (∃ restored, restoreFromChain [.newFull 1 "first", .newFull 2 "second"] = .ok restored) ∧
      validateChain [.newFull 1 "first", .newFull 2 "second"] =
        .error (.invalidFormat "Non-incremental backup in chain") := by
  refine ⟨⟨fun restores => ?_, fun restores => ?_⟩, ⟨_, rfl⟩, rfl⟩
  · obtain ⟨restored, gives, same⟩ := restores (by decide +kernel)
    have found : (restoreFromChain (History.run 100 deletedBetween).chain).toOption.bind
        (·["key1"]?) = some ⟨"key1", [1], 100⟩ := by decide +kernel
    rw [gives] at found
    have here := same "key1"
    rw [show restored["key1"]? = _ from found] at here
    revert here
    decide +kernel
  · obtain ⟨restored, gives, same⟩ := restores (by decide +kernel)
    have found : (restoreFromChain (History.run 100 updatedInSecond).chain).toOption.bind
        (·["key1"]?) = some ⟨"key1", [1], 100⟩ := by decide +kernel
    rw [gives] at found
    have here := same "key1"
    rw [show restored["key1"]? = _ from found] at here
    revert here
    decide +kernel

/-- A chain restores the keys exactly if no key is deleted and all changes are dated later. -/
theorem backup_chain_restores_iff (clock : Int) (events : List Event) :
    ((∀ earlier later, events = earlier ++ later → (History.run clock earlier).Restores) ↔
      Along History.Recorded History.step { clock } events) ∧
    ∀ backups, ((∃ restored, restoreFromChain backups = .ok restored) →
      validateChain backups = .ok ()) ↔
        ∀ first ∈ backups.head?, first.backupType = .full → Linked backups := by
  refine ⟨History.restores_along ?_ events, validate_of_restore_iff⟩
  intro taken
  exact absurd rfl taken

theorem backup_chain_restores_update :
    (History.run 100 [.create "key1" [1], .backup "full", .tick 10, .update "key1" [2],
      .create "key2" [3], .backup "incremental"]).Restores :=
  (backup_chain_restores_iff 100 _).1.mpr (by decide +kernel) _ [] (List.append_nil _).symm

end Hsm.Backup
