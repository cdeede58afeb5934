import Hsm.Cluster.Log
import Std.Data.String.ToNat

/-! Entries stay at their indices, in memory and in the storage. -/

namespace Hsm.Cluster

def Numbered (first : Nat) (entries : List LogEntry) : Prop :=
  ∀ i entry, entries[i]? = some entry → entry.index = first + i

namespace Numbered

variable {first : Nat} {entry : LogEntry} {entries : List LogEntry}

theorem nil (first : Nat) : Numbered first [] := nofun

theorem cons_iff :
    Numbered first (entry :: entries) ↔ entry.index = first ∧ Numbered (first + 1) entries := by
  constructor
  · intro numbered
    refine ⟨numbered 0 entry rfl, fun i other found => ?_⟩
    have isIndex := numbered (i + 1) other found
    omega
  · rintro ⟨isFirst, numbered⟩ (_ | i) other found
    · cases found
      exact isFirst
    · have isIndex := numbered i other found
      omega

theorem append_iff :
    Numbered first (entries ++ [entry]) ↔
      Numbered first entries ∧ entry.index = first + entries.length := by
  induction entries generalizing first with
  | nil => simp [cons_iff, nil]
  | cons head rest ih =>
    rw [List.cons_append, cons_iff, cons_iff, ih, List.length_cons, and_assoc]
    exact and_congr_right fun _ => and_congr_right fun _ => by omega

theorem range_of_mem (numbered : Numbered first entries) (member : entry ∈ entries) :
    first ≤ entry.index ∧ entry.index < first + entries.length := by
  obtain ⟨i, inside, rfl⟩ := List.mem_iff_getElem.mp member
  have isIndex := numbered i _ (List.getElem?_eq_getElem inside)
  omega

theorem eq_of_index (numbered : Numbered first entries) {other : LogEntry}
    (member : entry ∈ entries) (otherMember : other ∈ entries)
    (same : entry.index = other.index) : entry = other := by
  obtain ⟨i, inside, rfl⟩ := List.mem_iff_getElem.mp member
  obtain ⟨j, otherInside, rfl⟩ := List.mem_iff_getElem.mp otherMember
  have isIndex := numbered i _ (List.getElem?_eq_getElem inside)
  have isOther := numbered j _ (List.getElem?_eq_getElem otherInside)
  have equal : i = j := by omega
  subst equal
  rfl

end Numbered

variable {first : Nat}

theorem map_of_numbered {entries : List LogEntry} (numbered : Numbered first entries) :
    entries.map LogEntry.index = List.range' first entries.length := by
  induction entries generalizing first with
  | nil => rfl
  | cons entry rest ih =>
    obtain ⟨isFirst, others⟩ := Numbered.cons_iff.mp numbered
    rw [List.map_cons, isFirst, ih others, List.length_cons, List.range'_succ]

theorem numbered_of_map {entries : List LogEntry}
    (indices : entries.map LogEntry.index = List.range' first entries.length) :
    Numbered first entries := by
  intro i entry found
  obtain ⟨inside, -⟩ := List.getElem?_eq_some_iff.mp found
  have isIndex := congrArg (·[i]?) indices
  simp only [List.getElem?_map, found, Option.map_some, List.getElem?_range' inside] at isIndex
  have equal := Option.some.inj isIndex
  omega

theorem logKey_inj {second : Nat} : logKey first = logKey second ↔ first = second := by
  constructor
  · intro same
    exact Nat.repr_inj.mp (String.append_right_inj "log:" |>.mp same)
  · rintro rfl
    rfl

def Db.Holds (db : Db) (entries : List LogEntry) : Prop :=
  ∀ key entry, db.records[key]? = some entry ↔ entry ∈ entries ∧ key = logKey entry.index

namespace RaftLog

/-- Entries are at their indices, in memory and storage. -/
structure Sound (reliable : Prop) (log : RaftLog) : Prop where
  numbered : Numbered log.firstIndex log.entries
  positive : 1 ≤ log.firstIndex
  stored : reliable → log.storage.isSome = true
  succeeds : reliable → ∀ db, log.storage = some db → db.outcomes = []
  holds : reliable → ∀ db, log.storage = some db → db.Holds log.entries

variable {reliable : Prop} {log : RaftLog}

theorem lastIndex_eq (log : RaftLog) :
    log.lastIndex = log.firstIndex + log.entries.length - 1 := by
  unfold lastIndex
  split_ifs with empty
  · simp [empty]
  · rfl

variable {index : Nat} {entry : LogEntry}

theorem get_eq_some_iff :
    log.get index = some entry ↔
      log.firstIndex ≤ index ∧ log.entries[index - log.firstIndex]? = some entry := by
  unfold get
  split_ifs with before
  · simp only [false_iff, not_and]
    omega
  · exact ⟨fun found => ⟨by omega, found⟩, fun found => found.2⟩

theorem Sound.index_of_get (sound : log.Sound reliable) (found : log.get index = some entry) :
    entry.index = index := by
  obtain ⟨notBefore, isEntry⟩ := get_eq_some_iff.mp found
  have isIndex := sound.numbered _ _ isEntry
  omega

theorem Sound.get_isSome (sound : log.Sound reliable) (notBefore : log.firstIndex ≤ index)
    (notAfter : index ≤ log.lastIndex) :
    ∃ entry, log.get index = some entry := by
  have positive := sound.positive
  rw [lastIndex_eq] at notAfter
  have inside : index - log.firstIndex < log.entries.length := by omega
  exact ⟨_, get_eq_some_iff.mpr ⟨notBefore, List.getElem?_eq_getElem inside⟩⟩

theorem le_lastIndex_of_get (found : log.get index = some entry) :
    index ≤ log.lastIndex := by
  obtain ⟨notBefore, isEntry⟩ := get_eq_some_iff.mp found
  obtain ⟨inside, -⟩ := List.getElem?_eq_some_iff.mp isEntry
  rw [lastIndex_eq]
  omega

section

variable (log) (change : Dict String LogEntry → Dict String LogEntry)

theorem persist_fst :
    (log.persist change).1 =
      ⟨log.entries, log.firstIndex, (log.persist change).1.storage⟩ := by
  unfold persist
  split <;> rfl

theorem persist_storage {db next : Db} (before : log.storage = some db)
    (after : (log.persist change).1.storage = some next) :
    next.outcomes = db.outcomes.tail ∧
      ((log.persist change).2 = true → next.records = change db.records) := by
  unfold persist at after ⊢
  simp only [before, Db.perform] at after ⊢
  split_ifs at after ⊢ with succeeds
  · cases after
    exact ⟨rfl, fun _ => rfl⟩
  · cases after
    exact ⟨rfl, nofun⟩

theorem persist_congr (other : RaftLog) (same : log.storage = other.storage) :
    (log.persist change).1.storage = (other.persist change).1.storage ∧
      (log.persist change).2 = (other.persist change).2 := by
  unfold persist
  rw [same]
  cases isStorage : other.storage with
  | none => exact ⟨same.trans isStorage |>.trans isStorage.symm, rfl⟩
  | some db => exact ⟨rfl, rfl⟩

theorem persist_stored (stored : reliable → log.storage.isSome = true) :
    reliable → (log.persist change).1.storage.isSome = true := by
  intro isReliable
  obtain ⟨db, isStorage⟩ := Option.isSome_iff_exists.mp (stored isReliable)
  unfold persist
  rw [isStorage]
  rfl

theorem persist_storage_isSome {next : Db} (after : (log.persist change).1.storage = some next) :
    ∃ db, log.storage = some db := by
  unfold persist at after
  split at after
  · rename_i none
    rw [none] at after
    cases after
  · rename_i db isDb
    exact ⟨db, isDb⟩

theorem not_reliable_of_persist
    (succeeds : reliable → ∀ db, log.storage = some db → db.outcomes = [])
    (failed : (log.persist change).2 = false) : ¬ reliable := by
  intro isReliable
  unfold persist at failed
  split at failed
  · cases failed
  · rename_i db isDb
    simp [Db.perform, succeeds isReliable db isDb] at failed

theorem persist_succeeds (succeeds : reliable → ∀ db, log.storage = some db → db.outcomes = []) :
    reliable → ∀ db, (log.persist change).1.storage = some db → db.outcomes = [] := by
  intro isReliable next after
  obtain ⟨db, before⟩ := log.persist_storage_isSome change after
  rw [(log.persist_storage change before after).1, succeeds isReliable db before]
  rfl

end

theorem Sound.of_not_reliable (unreliable : ¬ reliable)
    (numbered : Numbered log.firstIndex log.entries) (positive : 1 ≤ log.firstIndex) :
    log.Sound reliable :=
  ⟨numbered, positive, fun isReliable => absurd isReliable unreliable,
    fun isReliable => absurd isReliable unreliable, fun isReliable => absurd isReliable unreliable⟩

theorem Sound.flush (sound : log.Sound reliable) : log.flush.1.Sound reliable := by
  rw [RaftLog.flush, log.persist_fst id]
  refine ⟨sound.numbered, sound.positive, log.persist_stored id sound.stored,
    log.persist_succeeds id sound.succeeds, fun isReliable next after => ?_⟩
  obtain ⟨db, before⟩ := log.persist_storage_isSome id after
  have ok : (log.persist id).2 = true := by
    by_contra failed
    exact log.not_reliable_of_persist id sound.succeeds (Bool.not_eq_true _ ▸ failed) isReliable
  intro key entry
  rw [(log.persist_storage id before after).2 ok]
  exact sound.holds isReliable db before key entry

variable {entry : LogEntry}

theorem Sound.pushed (sound : log.Sound reliable) (isNext : entry.index = log.lastIndex + 1)
    (stored : (log.insertRecord entry).2 = true) :
    (RaftLog.mk (log.entries ++ [entry]) log.firstIndex (log.insertRecord entry).1.storage).Sound
      reliable := by
  have positive := sound.positive
  have atEnd : entry.index = log.firstIndex + log.entries.length := by
    rw [lastIndex_eq] at isNext
    omega
  refine ⟨Numbered.append_iff.mpr ⟨sound.numbered, atEnd⟩, positive,
    log.persist_stored _ sound.stored, log.persist_succeeds _ sound.succeeds,
    fun isReliable after isAfter => ?_⟩
  obtain ⟨db, before⟩ := log.persist_storage_isSome _ isAfter
  have holds := sound.holds isReliable db before
  intro key other
  rw [(log.persist_storage _ before isAfter).2 stored, Dict.find_insert, List.mem_append,
    List.mem_singleton]
  split_ifs with same
  · -- No other entry has the key of the new one.
    constructor
    · intro isOther
      cases isOther
      exact ⟨.inr rfl, same.symm⟩
    · rintro ⟨member | rfl, isKey⟩
      · have inside := sound.numbered.range_of_mem member
        have equal := logKey_inj.mp (same.trans isKey)
        omega
      · rfl
  · rw [holds key other]
    constructor
    · exact fun found => ⟨.inl found.1, found.2⟩
    · rintro ⟨member | rfl, isKey⟩
      · exact ⟨member, isKey⟩
      · exact absurd isKey.symm same

theorem Sound.removed (sound : log.Sound reliable) {kept : List LogEntry} {first : Nat}
    (numbered : Numbered first kept) (positive : 1 ≤ first)
    (split : ∀ other, other ∈ log.entries ↔ other = entry ∨ other ∈ kept)
    (apart : ∀ other ∈ kept, other.index ≠ entry.index)
    (succeeds : ({ log with entries := kept }.removeRecord entry).2 = true) :
    (RaftLog.mk kept first ({ log with entries := kept }.removeRecord entry).1.storage).Sound
      reliable := by
  refine ⟨numbered, positive, persist_stored { log with entries := kept } _ sound.stored,
    persist_succeeds { log with entries := kept } _ sound.succeeds,
    fun isReliable after isAfter => ?_⟩
  obtain ⟨db, before⟩ := persist_storage_isSome { log with entries := kept } _ isAfter
  have holds := sound.holds isReliable db before
  intro key other
  rw [(persist_storage { log with entries := kept } _ before isAfter).2 succeeds, Dict.find_erase]
  split_ifs with same
  · constructor
    · nofun
    · rintro ⟨member, isKey⟩
      exact absurd (logKey_inj.mp (same.trans isKey)).symm (apart other member)
  · rw [holds key other, split]
    constructor
    · rintro ⟨rfl | member, isKey⟩
      · exact absurd isKey.symm same
      · exact ⟨member, isKey⟩
    · exact fun found => ⟨.inr found.1, found.2⟩

theorem Sound.push (sound : log.Sound reliable) (isNext : entry.index = log.lastIndex + 1) :
    (log.push entry).1.Sound reliable := by
  have unchanged := log.persist_fst (·.insert (logKey entry.index) entry)
  cases result : log.insertRecord entry with
  | mk next ok =>
    rw [← insertRecord, result] at unchanged
    rw [RaftLog.push, result]
    cases ok with
    | false =>
      have unreliable := log.not_reliable_of_persist _ sound.succeeds (congrArg Prod.snd result)
      rw [unchanged]
      exact .of_not_reliable unreliable sound.numbered sound.positive
    | true =>
      have stored := sound.pushed isNext (congrArg Prod.snd result)
      have entries : next.entries = log.entries := by rw [show next = _ from unchanged]
      have first : next.firstIndex = log.firstIndex := by rw [show next = _ from unchanged]
      simpa only [result, entries, first] using stored

theorem Sound.popBack (sound : log.Sound reliable) {kept : List LogEntry}
    (isLast : log.entries = kept ++ [entry]) :
    ({ log with entries := kept }.removeRecord entry).1.Sound reliable := by
  have numbered := sound.numbered
  rw [isLast, Numbered.append_iff] at numbered
  have unchanged := persist_fst { log with entries := kept } (·.erase (logKey entry.index))
  cases ok : ({ log with entries := kept }.removeRecord entry).2 with
  | false =>
    have unreliable := not_reliable_of_persist { log with entries := kept } _ sound.succeeds ok
    rw [removeRecord, unchanged]
    exact .of_not_reliable unreliable numbered.1 sound.positive
  | true =>
    rw [removeRecord, unchanged]
    refine sound.removed numbered.1 sound.positive (fun other => ?_) (fun other member => ?_) ok
    · rw [isLast, List.mem_append, List.mem_singleton, or_comm]
    · have inside := numbered.1.range_of_mem member
      omega

theorem Sound.truncateLoop (index count : Nat) (sound : log.Sound reliable) :
    (truncateLoop index count log).1.Sound reliable := by
  induction count generalizing log with
  | zero => exact sound
  | succ count ih =>
    rw [RaftLog.truncateLoop]
    split_ifs
    · cases last : log.entries.getLast? with
      | none => exact sound
      | some entry =>
        have popped := sound.popBack (List.dropLast_append_getLast? entry last).symm
        cases removed : { log with entries := log.entries.dropLast }.removeRecord entry with
        | mk next ok =>
          rw [removed] at popped
          simp only [removed]
          cases ok with
          | false => exact popped
          | true => exact ih popped
    · exact sound

theorem Sound.truncateAfter (sound : log.Sound reliable) (index : Nat) :
    (log.truncateAfter index).1.Sound reliable := sound.truncateLoop index _

theorem Sound.append (sound : log.Sound reliable) (term : Nat) (command : Command) (now : Int) :
    (log.append term command now).1.Sound reliable := by
  let entry : LogEntry := ⟨log.lastIndex + 1, term, command, now⟩
  have unchanged := log.persist_fst (·.insert (logKey entry.index) entry)
  cases result : log.insertRecord entry with
  | mk next ok =>
    rw [← insertRecord, result] at unchanged
    rw [RaftLog.append, result]
    cases ok with
    | false =>
      have unreliable := log.not_reliable_of_persist _ sound.succeeds (congrArg Prod.snd result)
      rw [unchanged]
      exact .of_not_reliable unreliable sound.numbered sound.positive
    | true =>
      -- The flush does not care whether the entry is in memory yet.
      have stored := sound.pushed rfl (congrArg Prod.snd result)
      rw [result] at stored
      have flushed := stored.flush
      rw [RaftLog.flush, persist_fst] at flushed
      have same := persist_congr next id ⟨log.entries ++ [entry], log.firstIndex, next.storage⟩ rfl
      have unflushed := next.persist_fst id
      cases flush : next.flush with
      | mk last ok =>
        rw [← RaftLog.flush, flush] at unflushed same
        cases ok with
        | false =>
          have unreliable := next.not_reliable_of_persist id stored.succeeds
            (congrArg Prod.snd flush)
          simp only [flush]
          rw [show last = _ from unflushed, show next = _ from unchanged]
          exact .of_not_reliable unreliable sound.numbered sound.positive
        | true =>
          have entries : last.entries = log.entries := by
            rw [show last = _ from unflushed, show next = _ from unchanged]
          have first : last.firstIndex = log.firstIndex := by
            rw [show last = _ from unflushed, show next = _ from unchanged]
          rw [← same.1] at flushed
          simpa only [flush, entries, first] using flushed

def Extends (log next : RaftLog) : Prop :=
  next.firstIndex = log.firstIndex ∧ ∃ more, next.entries = log.entries ++ more

theorem Extends.get {next : RaftLog} (extended : log.Extends next) {index : Nat}
    (found : log.get index = some entry) : next.get index = some entry := by
  obtain ⟨first, more, entries⟩ := extended
  obtain ⟨notBefore, isEntry⟩ := get_eq_some_iff.mp found
  obtain ⟨inside, -⟩ := List.getElem?_eq_some_iff.mp isEntry
  rw [get_eq_some_iff, first, entries, List.getElem?_append_left inside]
  exact ⟨notBefore, isEntry⟩

theorem Extends.trans {next last : RaftLog} (first : log.Extends next)
    (second : next.Extends last) : log.Extends last := by
  obtain ⟨sameFirst, more, entries⟩ := first
  obtain ⟨sameSecond, others, lastEntries⟩ := second
  exact ⟨sameSecond.trans sameFirst, more ++ others, by rw [lastEntries, entries,
    List.append_assoc]⟩

theorem push_eq (log : RaftLog) (entry : LogEntry) :
    (log.push entry).1.firstIndex = log.firstIndex ∧
      (log.push entry).1.entries =
        if (log.push entry).2 then log.entries ++ [entry] else log.entries := by
  have unchanged := log.persist_fst (·.insert (logKey entry.index) entry)
  cases result : log.insertRecord entry with
  | mk next ok =>
    rw [← insertRecord, result] at unchanged
    have entries : next.entries = log.entries := by rw [show next = _ from unchanged]
    have first : next.firstIndex = log.firstIndex := by rw [show next = _ from unchanged]
    cases ok with
    | false => simp [RaftLog.push, result, entries, first]
    | true => simp [RaftLog.push, result, entries, first]

structure Appended (reliable : Prop) (log : RaftLog) (entries : List LogEntry)
    (result : RaftLog × Bool) : Prop where
  sound : result.1.Sound reliable
  extended : log.Extends result.1
  matched : result.2 = true → ∀ entry ∈ entries, ∃ stored,
    result.1.get entry.index = some stored ∧
      (stored = entry ∨ log.get entry.index = some stored ∧ stored.term = entry.term)

theorem Sound.appendLoop (sound : log.Sound reliable) {next : Nat} {entries : List LogEntry}
    (numbered : Numbered next entries) (notBefore : log.firstIndex ≤ next)
    (near : next ≤ log.lastIndex + 1)
    (agree : ∀ entry ∈ entries, ∀ existing, log.get entry.index = some existing →
      existing.term = entry.term) : Appended reliable log entries (log.appendLoop entries) := by
  induction entries generalizing log next with
  | nil => exact ⟨sound, ⟨rfl, [], (List.append_nil _).symm⟩, nofun⟩
  | cons entry rest ih =>
    obtain ⟨isNext, others⟩ := Numbered.cons_iff.mp numbered
    by_cases inside : next ≤ log.lastIndex
    · -- The entry is there already, with the same term.
      obtain ⟨existing, found⟩ := sound.get_isSome notBefore inside
      rw [← isNext] at found inside
      have sameTerm := agree entry List.mem_cons_self existing found
      have skipped : log.appendLoop (entry :: rest) = log.appendLoop rest := by
        rw [RaftLog.appendLoop, RaftLog.existing, if_pos inside, found]
        simp only [sameTerm, if_true]
      obtain ⟨soundLater, extended, matched⟩ := ih sound others (by omega) (by omega)
        fun other member => agree other (List.mem_cons_of_mem _ member)
      rw [skipped]
      refine ⟨soundLater, extended, fun accepted other member => ?_⟩
      rcases List.mem_cons.mp member with rfl | later
      · exact ⟨existing, extended.get found, .inr ⟨found, sameTerm⟩⟩
      · exact matched accepted other later
    · -- The entry is the next one.
      have atEnd : entry.index = log.lastIndex + 1 := by omega
      have none : log.existing entry = none := if_neg (by omega)
      have soundNext := sound.push atEnd
      obtain ⟨first, isPushed⟩ := log.push_eq entry
      cases pushed : log.push entry with
      | mk longer ok =>
        rw [pushed] at soundNext first isPushed
        cases ok with
        | false =>
          have stopped : log.appendLoop (entry :: rest) = (longer, false) := by
            rw [RaftLog.appendLoop, none]
            simp only [pushed]
          rw [stopped]
          exact ⟨soundNext, ⟨first, [], by simpa using isPushed⟩, nofun⟩
        | true =>
          have continued : log.appendLoop (entry :: rest) = longer.appendLoop rest := by
            rw [RaftLog.appendLoop, none]
            simp only [pushed]
          have isLonger : longer.entries = log.entries ++ [entry] := by simpa using isPushed
          have positive := sound.positive
          have isFirst : longer.firstIndex = log.firstIndex := first
          have last : longer.lastIndex = next := by
            rw [lastIndex_eq] at atEnd ⊢
            rw [isLonger, isFirst, List.length_append, List.length_singleton]
            omega
          -- Nothing is after the entry that was put at the end.
          have nothing : ∀ other ∈ rest, ∀ existing, longer.get other.index ≠ some existing := by
            intro other member existing found
            have bound := le_lastIndex_of_get found
            have range := others.range_of_mem member
            omega
          have soundLonger : longer.Sound reliable := soundNext
          obtain ⟨soundLater, extended, matched⟩ := ih soundLonger others (by omega) (by omega)
            fun other member existing found => absurd found (nothing other member existing)
          have grown : log.Extends longer := ⟨isFirst, [entry], isLonger⟩
          rw [continued]
          refine ⟨soundLater, grown.trans extended, fun accepted other member => ?_⟩
          rcases List.mem_cons.mp member with rfl | later
          · refine ⟨other, extended.get (get_eq_some_iff.mpr ⟨by omega, ?_⟩), .inl rfl⟩
            have position : other.index - longer.firstIndex = log.entries.length := by
              rw [lastIndex_eq] at atEnd
              omega
            rw [isLonger, position, List.getElem?_concat_length]
          · obtain ⟨stored, found, rfl | ⟨before, -⟩⟩ := matched accepted other later
            · exact ⟨stored, found, .inl rfl⟩
            · exact absurd before (nothing other later stored)

theorem persist_of_succeeds (log : RaftLog) {count : Nat}
    (succeeds : log.succeeds (count + 1) = true)
    (change : Dict String LogEntry → Dict String LogEntry) :
    (log.persist change).2 = true ∧ (log.persist change).1.succeeds count = true := by
  unfold RaftLog.succeeds persist at *
  cases isStorage : log.storage with
  | none => simp [isStorage]
  | some db =>
    simp only [isStorage] at succeeds
    obtain ⟨records, outcomes⟩ := db
    cases outcomes with
    | nil => simp [Db.perform]
    | cons outcome rest =>
      rw [List.take_succ_cons, List.all_cons, Bool.and_eq_true] at succeeds
      obtain ⟨now, later⟩ := succeeds
      simp only [id] at now
      subst now
      exact ⟨rfl, later⟩

theorem Sound.compactLoop (count : Nat) (sound : log.Sound reliable)
    (succeeds : log.succeeds (min log.entries.length count) = true) :
    (compactLoop count log).1.Sound reliable := by
  induction count generalizing log with
  | zero => exact sound
  | succ count ih =>
    have positive := sound.positive
    rw [RaftLog.compactLoop]
    cases isEntries : log.entries with
    | nil =>
      have skipped : (RaftLog.mk [] (log.firstIndex + 1) log.storage).Sound reliable :=
        ⟨Numbered.nil _, Nat.le_add_left 1 _, sound.stored, sound.succeeds,
          fun isReliable db isDb => isEntries ▸ sound.holds isReliable db isDb⟩
      refine ih skipped ?_
      unfold RaftLog.succeeds
      cases log.storage with
      | none => rfl
      | some db => simp
    | cons entry rest =>
      have numbered := sound.numbered
      rw [isEntries, Numbered.cons_iff] at numbered
      rw [isEntries, List.length_cons, Nat.succ_min_succ] at succeeds
      obtain ⟨ok, later⟩ := persist_of_succeeds { log with entries := rest } succeeds
        (·.erase (logKey entry.index))
      have unchanged := persist_fst { log with entries := rest } (·.erase (logKey entry.index))
      have apart : ∀ other ∈ rest, other.index ≠ entry.index := by
        intro other member
        have range := numbered.2.range_of_mem member
        omega
      have removed := sound.removed numbered.2 (Nat.le_add_left 1 _)
        (fun other => by rw [isEntries, List.mem_cons]) apart ok
      cases result : { log with entries := rest }.removeRecord entry with
      | mk next isOk =>
        rw [← removeRecord, result] at unchanged ok later
        rw [result] at removed
        simp only [result]
        have isTrue : isOk = true := ok
        subst isTrue
        have entries : next.entries = rest := by rw [show next = _ from unchanged]
        have first : next.firstIndex = log.firstIndex := by rw [show next = _ from unchanged]
        refine ih ?_ ?_
        · simpa only [entries, first] using removed
        · rw [entries]
          exact later

theorem Sound.compact (sound : log.Sound reliable) {index : Nat}
    (meets : (LogCall.compact index).meets log = true) : (log.compact index).1.Sound reliable := by
  rw [RaftLog.compact]
  split_ifs
  · exact sound
  · have compacted := sound.compactLoop (index + 1 - log.firstIndex) meets
    cases result : RaftLog.compactLoop (index + 1 - log.firstIndex) log with
    | mk next ok =>
      rw [result] at compacted
      cases ok with
      | false => exact compacted
      | true =>
        have soundNext : next.Sound reliable := compacted
        exact soundNext.flush

variable {prevIndex prevTerm : Nat}

theorem appendEntries_of_follows (follows : log.follows prevIndex prevTerm = true)
    (entries : List LogEntry) :
    log.appendEntries prevIndex prevTerm entries = log.appendAll entries := by
  unfold RaftLog.follows at follows
  unfold RaftLog.appendEntries
  by_cases first : prevIndex = 0
  · simp [first]
  · simp only [first, decide_false, Bool.false_or] at follows
    rw [if_pos (Nat.pos_of_ne_zero first)]
    cases found : log.get prevIndex with
    | none =>
      simp only [found, decide_eq_true_eq] at follows
      simp [Nat.not_le.mpr follows]
    | some prevEntry =>
      simp only [found, decide_eq_true_eq] at follows
      simp [follows]

theorem Sound.appendEntries_of_not_follows (sound : log.Sound reliable)
    (follows : log.follows prevIndex prevTerm = false) (entries : List LogEntry) :
    (log.appendEntries prevIndex prevTerm entries).1.Sound reliable ∧
      (log.appendEntries prevIndex prevTerm entries).2 ≠ some true := by
  unfold RaftLog.follows at follows
  rw [Bool.or_eq_false_iff] at follows
  obtain ⟨notFirst, follows⟩ := follows
  have positive : prevIndex > 0 := Nat.pos_of_ne_zero (of_decide_eq_false notFirst)
  unfold RaftLog.appendEntries
  rw [if_pos positive]
  cases found : log.get prevIndex with
  | none =>
    simp only [found, decide_eq_false_iff_not, Nat.not_lt] at follows
    simp only [ge_iff_le, follows, if_true]
    exact ⟨sound, by simp⟩
  | some prevEntry =>
    simp only [found, decide_eq_false_iff_not] at follows
    simp only [ne_eq, follows, not_false_eq_true, if_true]
    have truncated := sound.truncateAfter prevIndex
    cases result : log.truncateAfter prevIndex with
    | mk next ok =>
      rw [result] at truncated
      cases ok with
      | false => exact ⟨truncated, by simp⟩
      | true => exact ⟨truncated, by simp⟩

theorem Sound.near_of_follows (sound : log.Sound reliable)
    (follows : log.follows prevIndex prevTerm = true) : prevIndex ≤ log.lastIndex := by
  unfold RaftLog.follows at follows
  by_cases first : prevIndex = 0
  · omega
  · simp only [first, decide_false, Bool.false_or] at follows
    cases found : log.get prevIndex with
    | none =>
      simp only [found, decide_eq_true_eq] at follows
      have positive := sound.positive
      rw [lastIndex_eq]
      omega
    | some prevEntry => exact le_lastIndex_of_get found

theorem Sound.appendEntries (sound : log.Sound reliable) {entries : List LogEntry}
    (numbered : (LogCall.appendEntries prevIndex prevTerm entries).numbered = true)
    (meets : (LogCall.appendEntries prevIndex prevTerm entries).meets log = true) :
    (log.appendEntries prevIndex prevTerm entries).1.Sound reliable ∧
      (log.follows prevIndex prevTerm = true →
        log.Extends (log.appendEntries prevIndex prevTerm entries).1) ∧
      ((log.appendEntries prevIndex prevTerm entries).2 = some true →
        ∀ entry ∈ entries, ∃ stored,
          (log.appendEntries prevIndex prevTerm entries).1.get entry.index = some stored ∧
            (stored = entry ∨ log.get entry.index = some stored ∧ stored.term = entry.term)) := by
  cases follows : log.follows prevIndex prevTerm with
  | false =>
    obtain ⟨soundNext, rejected⟩ := sound.appendEntries_of_not_follows follows entries
    exact ⟨soundNext, nofun, fun accepted => absurd accepted rejected⟩
  | true =>
    have isNumbered : Numbered (prevIndex + 1) entries := numbered_of_map
      (of_decide_eq_true numbered)
    simp only [LogCall.meets, follows, Bool.not_true, Bool.false_or, Bool.and_eq_true,
      Bool.or_eq_true, decide_eq_true_eq, List.all_eq_true, Option.all_eq_true] at meets
    obtain ⟨notCompacted, agree⟩ := meets
    have appended : Appended reliable log entries (log.appendLoop entries) := by
      rcases notCompacted with rfl | notBefore
      · exact ⟨sound, ⟨rfl, [], (List.append_nil _).symm⟩, nofun⟩
      · have near := sound.near_of_follows follows
        exact sound.appendLoop isNumbered notBefore (by omega) agree
    obtain ⟨soundNext, extended, matched⟩ := appended
    rw [appendEntries_of_follows follows, RaftLog.appendAll]
    cases result : log.appendLoop entries with
    | mk next ok =>
      rw [result] at soundNext extended matched
      cases ok with
      | false => exact ⟨soundNext, fun _ => extended, nofun⟩
      | true =>
        have soundFlushed := soundNext.flush
        have unchanged := next.persist_fst id
        cases flush : next.flush with
        | mk last isFlushed =>
          simp only [flush] at soundFlushed
          rw [← RaftLog.flush, flush] at unchanged
          simp only [flush]
          have extendedLast : log.Extends last := by
            rw [show last = _ from unchanged]
            exact extended
          cases isFlushed with
          | false => exact ⟨soundFlushed, fun _ => extendedLast, nofun⟩
          | true =>
            have same : ∀ index, last.get index = next.get index := by
              intro index
              rw [show last = _ from unchanged]
              rfl
            refine ⟨soundFlushed, fun _ => extendedLast, fun _ entry member => ?_⟩
            rw [same]
            exact matched rfl entry member

theorem Sound.serve (sound : log.Sound reliable) {call : LogCall}
    (fits : call.fits log = true) : (log.serve call).1.Sound reliable := by
  obtain ⟨numbered, meets⟩ := Bool.and_eq_true_iff.mp fits
  cases call with
  | append term command now => exact sound.append term command now
  | appendEntries prevIndex prevTerm entries => exact (sound.appendEntries numbered meets).1
  | compact index => exact sound.compact meets

end RaftLog

def RaftLog.IsEmpty (log : RaftLog) : Prop :=
  log = .new ∨ ∃ outcomes, log = .withStorage ⟨∅, outcomes⟩

theorem RaftLog.sound_withStorage (outcomes : List Bool) :
    (RaftLog.withStorage ⟨∅, outcomes⟩).Sound (outcomes = []) := by
  have entries : (RaftLog.withStorage ⟨∅, outcomes⟩).entries = [] := by
    have none : (∅ : Dict String LogEntry).toList = [] := rfl
    simp [RaftLog.withStorage, RaftLog.loadFromStorage, none]
  have first : (RaftLog.withStorage ⟨∅, outcomes⟩).firstIndex = 1 := by
    have isFirst : (RaftLog.withStorage ⟨∅, outcomes⟩).firstIndex =
        ((RaftLog.withStorage ⟨∅, outcomes⟩).entries.head?.map LogEntry.index).getD 1 := rfl
    rw [isFirst, entries]
    rfl
  refine ⟨?_, Nat.le_of_eq first.symm, fun _ => rfl, fun reliable db isDb => ?_,
    fun _ db isDb => ?_⟩
  · rw [entries]
    exact Numbered.nil _
  · cases isDb
    exact reliable
  · cases isDb
    rw [entries]
    intro key entry
    simp

theorem RaftLog.IsEmpty.sound {log : RaftLog} (empty : log.IsEmpty) :
    log.Sound False := by
  rcases empty with rfl | ⟨outcomes, rfl⟩
  · exact .of_not_reliable not_false (Numbered.nil _) (Nat.le_refl _)
  · have sound := RaftLog.sound_withStorage outcomes
    exact .of_not_reliable not_false sound.numbered sound.positive

theorem RaftLog.Sound.trace {reliable : Prop} {start : RaftLog} (sound : start.Sound reliable)
    {calls : List LogCall}
    (along : Along (fun log call => call.fits log = true) RaftLog.serve start calls) :
    (Hsm.trace RaftLog.serve start calls).1.Sound reliable :=
  trace_invariant (fun log (_ : List LogEvent) => log.Sound reliable)
    (fun _ _ _ sound fits => sound.serve fits) calls start [] sound along

/-- The log agrees with the leader, if given entries fit and compactions do not fail. -/
theorem raft_log_matches_leader {start : RaftLog} (empty : start.IsEmpty) {calls : List LogCall}
    (along : Along (fun log call => call.fits log = true) RaftLog.serve start calls) :
    let log := (trace RaftLog.serve start calls).1
    -- Indices are contiguous.
    log.entries.map LogEntry.index = List.range' log.firstIndex log.entries.length ∧
    (∀ index entry, log.get index = some entry → entry.index = index) ∧
    -- Entries that were accepted from the leader are there.
    ∀ before after prevIndex prevTerm entries,
      calls = before ++ .appendEntries prevIndex prevTerm entries :: after →
      let prior := (trace RaftLog.serve start before).1
      let result := prior.appendEntries prevIndex prevTerm entries
      result.2 = some true → ∀ entry ∈ entries,
        (∀ existing, prior.get entry.index = some existing → existing.term = entry.term →
          existing.command = entry.command) →
        ∃ stored, result.1.get entry.index = some stored ∧ stored.term = entry.term ∧
          stored.command = entry.command := by
  have sound := empty.sound.trace along
  refine ⟨map_of_numbered sound.numbered, fun index entry => sound.index_of_get, ?_⟩
  rintro before after prevIndex prevTerm entries rfl prior result accepted entry member sameCommand
  obtain ⟨alongBefore, fits, -⟩ := along_append.mp along
  have soundBefore : prior.Sound _ := empty.sound.trace alongBefore
  obtain ⟨numbered, meets⟩ := Bool.and_eq_true_iff.mp fits
  obtain ⟨stored, found, isStored⟩ := (soundBefore.appendEntries numbered meets).2.2 accepted
    entry member
  refine ⟨stored, found, ?_⟩
  rcases isStored with rfl | ⟨before, sameTerm⟩
  · exact ⟨rfl, rfl⟩
  · exact ⟨sameTerm, sameCommand stored before sameTerm⟩

namespace Known

def leaderEntry (index term : Nat) (keyId : String) : LogEntry := ⟨index, term, .deleteKey keyId, 0⟩

def conflictingCalls : List LogCall :=
  [.append 1 (.deleteKey "old") 0, .appendEntries 0 0 [leaderEntry 1 2 "new"]]

def followingCalls : List LogCall :=
  [.append 1 (.deleteKey "old") 0,
    .appendEntries 0 0 [leaderEntry 1 1 "old", leaderEntry 2 2 "new"]]

end Known

theorem conflicting_entry_kept :
    let log := (trace RaftLog.serve .new Known.conflictingCalls).1
    (trace RaftLog.serve .new Known.conflictingCalls).2.getLast? =
      some (.appendEntries 0 0 [Known.leaderEntry 1 2 "new"], .replicated true) ∧
    log.get 1 = some (Known.leaderEntry 1 1 "old") ∧
    log.get 2 = some (Known.leaderEntry 1 2 "new") := by
  decide

theorem raft_log_matches_leader_two :
    ∃ stored, (trace RaftLog.serve .new Known.followingCalls).1.get 2 = some stored ∧
      stored.term = 2 ∧ stored.command = .deleteKey "new" := by
  have along : Along (fun log call => LogCall.fits log call = true) RaftLog.serve .new
      Known.followingCalls := by decide
  have matched := (raft_log_matches_leader (.inl rfl) along).2.2
    [.append 1 (.deleteKey "old") 0] [] 0 0 _ rfl (by decide) (Known.leaderEntry 2 2 "new")
    (by decide)
  obtain ⟨stored, found, isTerm, isCommand⟩ := matched (by
    have nothing : (trace RaftLog.serve .new [LogCall.append 1 (.deleteKey "old") 0]).1.get 2 =
        none := by decide
    intro existing found
    exact absurd (nothing.symm.trans found) nofun)
  exact ⟨stored, found, isTerm, isCommand⟩

end Hsm.Cluster
