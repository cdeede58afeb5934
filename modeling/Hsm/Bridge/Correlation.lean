import Hsm.Bridge.Event
import Hsm.Lib.Dict
import Hsm.Lib.Run

/-! Matching withdrawals to deposits, and when no deposit is spent more often than it was made. -/

namespace Hsm.Bridge

structure PendingCorrelation where
  event : BridgeEvent
  createdAt : Nat

/-- Deposits by message hash and by fuzzy key, and pairs made. -/
structure EventCorrelator where
  bufferSize : Nat
  timeout : Nat
  pendingByHash : Dict String PendingCorrelation
  pendingByKey : Dict String (List PendingCorrelation)
  completed : Dict String CorrelatedEvent

inductive CorrelatorCall where
  | processEvent (event : BridgeEvent)
  | cleanupExpired

namespace EventCorrelator

def new (bufferSize timeout : Nat) : EventCorrelator := ⟨bufferSize, timeout, ∅, ∅, ∅⟩

variable (render : Rendering)

def makeFuzzyKey (event : BridgeEvent) : String :=
  event.token ++ ":" ++ render.display event.amount ++ ":" ++ render.lowercase event.toAddress

def eventsMatch (source dest : BridgeEvent) : Bool :=
  source.token == dest.token && source.amount.same dest.amount &&
    render.lowercase source.toAddress == render.lowercase dest.toAddress

def createCorrelated (source dest : BridgeEvent) (moment : Moment) : CorrelatedEvent :=
  ⟨moment.uuid, source, some dest,
    if source.amount.same dest.amount then .matched else .amountMismatch,
    moment.timestamp, some moment.timestamp,
    -- The difference is that of two i64, and wraps around.
    some ((moment.timestamp - source.timestamp).bmod (2 ^ 64)).toNat⟩

def recordCompleted (correlator : EventCorrelator) (pair : CorrelatedEvent) : EventCorrelator :=
  let full := 0 < correlator.bufferSize ∧ correlator.bufferSize ≤ correlator.completed.size
  let oldest := correlator.completed.toList.minOn? fun entry => entry.2.createdAt
  let kept := match oldest with
    | some entry => if full then correlator.completed.erase entry.1 else correlator.completed
    | none => correlator.completed
  { correlator with completed := kept.insert pair.id pair }

def enterHash (correlator : EventCorrelator) (event : BridgeEvent) (moment : Moment) :
    Dict String PendingCorrelation :=
  match event.messageHash with
  | some hash => correlator.pendingByHash.insert hash ⟨event, moment.now⟩
  | none => correlator.pendingByHash

def addPending (correlator : EventCorrelator) (event : BridgeEvent) (moment : Moment) :
    EventCorrelator :=
  let key := makeFuzzyKey render event
  { correlator with
    pendingByHash := correlator.enterHash event moment
    pendingByKey := correlator.pendingByKey.insert key
      (correlator.pendingByKey[key]?.getD [] ++ [⟨event, moment.read key 0⟩]) }

def byHash (correlator : EventCorrelator) (dest : BridgeEvent) :
    Option (String × PendingCorrelation) :=
  dest.messageHash.bind fun hash => correlator.pendingByHash[hash]?.map fun found => (hash, found)

def underKey (correlator : EventCorrelator) (event : BridgeEvent) : List PendingCorrelation :=
  correlator.pendingByKey[makeFuzzyKey render event]?.getD []

def byKey (correlator : EventCorrelator) (dest : BridgeEvent) : Option PendingCorrelation :=
  (underKey render correlator dest).find? fun found => eventsMatch render found.event dest

def takeMatch (correlator : EventCorrelator) (dest : BridgeEvent) :
    Dict String (List PendingCorrelation) :=
  correlator.pendingByKey.insert (makeFuzzyKey render dest)
    ((underKey render correlator dest).eraseP fun found => eventsMatch render found.event dest)

def correlate (correlator : EventCorrelator) (dest : BridgeEvent) (moment : Moment) :
    EventCorrelator × Option CorrelatedEvent :=
  match correlator.byHash dest with
  | some (hash, found) =>
    let pair := createCorrelated found.event dest moment
    ({ correlator with pendingByHash := correlator.pendingByHash.erase hash }.recordCompleted pair,
      some pair)
  | none =>
    match byKey render correlator dest with
    | some found =>
      let pair := createCorrelated found.event dest moment
      let index := takeMatch render correlator dest
      ({ correlator with pendingByKey := index }.recordCompleted pair, some pair)
    | none => (correlator, none)

def processEvent (correlator : EventCorrelator) (event : BridgeEvent) (moment : Moment) :
    EventCorrelator × Option CorrelatedEvent :=
  match event.eventType with
  | .deposit => (addPending render correlator event moment, none)
  | .withdrawal | .claim => correlate render correlator event moment
  | _ => (correlator, none)

/-- Whether a deposit may still wait. -/
def fresh (correlator : EventCorrelator) (now : Nat) (pending : PendingCorrelation) : Bool :=
  decide (now - pending.createdAt ≤ correlator.timeout)

/-- The pending deposits that are fresh when the clock is read for them. -/
def retain (correlator : EventCorrelator) (moment : Moment) (key : String)
    (pendings : List PendingCorrelation) : List PendingCorrelation :=
  (pendings.zipIdx.filter fun entry =>
    correlator.fresh (moment.read key (entry.2 + 1)) entry.1).map Prod.fst

def cleanupExpired (correlator : EventCorrelator) (moment : Moment) : EventCorrelator × Nat :=
  let stays := fun hash => correlator.fresh (moment.read hash 0)
  ({ correlator with
    pendingByHash := correlator.pendingByHash.filter stays
    pendingByKey := (correlator.pendingByKey.map (correlator.retain moment)).filter
      fun _ found => !found.isEmpty },
    correlator.pendingByHash.toList.countP (fun entry => !stays entry.1 entry.2) +
      (correlator.pendingByKey.toList.map fun entry =>
        entry.2.length - (correlator.retain moment entry.1 entry.2).length).sum)

def step (correlator : EventCorrelator) (call : CorrelatorCall × Moment) :
    EventCorrelator × List CorrelatedEvent :=
  match call.1 with
  | .processEvent event =>
    let done := processEvent render correlator event call.2
    (done.1, done.2.toList)
  | .cleanupExpired => ((correlator.cleanupExpired call.2).1, [])

def deposits (calls : List (CorrelatorCall × Moment)) : List BridgeEvent :=
  calls.filterMap fun call =>
    match call.1 with
    | .processEvent event => if event.eventType = .deposit then some event else none
    | .cleanupExpired => none

/-- Without a deposit under its hash, a withdrawal finds one without a hash. -/
def HashesKept (correlator : EventCorrelator) (call : CorrelatorCall × Moment) : Prop :=
  match call.1 with
  | .processEvent event => event.eventType = .withdrawal ∨ event.eventType = .claim →
      correlator.byHash event = none →
      ∀ found, byKey render correlator event = some found → found.event.messageHash = none
  | .cleanupExpired => True

open Classical in
noncomputable def times (event : BridgeEvent) (events : List BridgeEvent) : Nat :=
  events.countP fun other => decide (other = event)

/-- Where a deposit can still be spent. -/
def spendable (correlator : EventCorrelator) (deposit : BridgeEvent) : List PendingCorrelation :=
  match deposit.messageHash with
  | some hash => correlator.pendingByHash[hash]?.toList
  | none => underKey render correlator deposit

noncomputable def copies (correlator : EventCorrelator) (deposit : BridgeEvent) : Nat :=
  times deposit ((spendable render correlator deposit).map PendingCorrelation.event)

structure Filed (correlator : EventCorrelator) : Prop where
  byHash : ∀ (hash : String) (found : PendingCorrelation),
    correlator.pendingByHash[hash]? = some found → found.event.messageHash = some hash
  byKey : ∀ (key : String) (found : List PendingCorrelation),
    correlator.pendingByKey[key]? = some found →
      ∀ pending ∈ found, makeFuzzyKey render pending.event = key

variable {render}

theorem times_other {event other : BridgeEvent} (apart : other ≠ event) :
    times event [other] = 0 := by
  simp [times, apart]

theorem times_append (event : BridgeEvent) (first second : List BridgeEvent) :
    times event (first ++ second) = times event first + times event second :=
  List.countP_append

variable {found : PendingCorrelation}

theorem times_eraseP {wanted : PendingCorrelation → Bool} {pendings : List PendingCorrelation}
    (first : pendings.find? wanted = some found) (event : BridgeEvent) :
    times event ((pendings.eraseP wanted).map PendingCorrelation.event) +
      times event [found.event] = times event (pendings.map PendingCorrelation.event) := by
  obtain ⟨holds, before, after, rfl, none⟩ := List.find?_eq_some_iff_append.mp first
  have skip : ∀ pending ∈ before, ¬ wanted pending = true := by simpa using none
  rw [List.eraseP_append_right _ skip, List.eraseP_cons_of_pos holds]
  have cons := times_append event [found.event] (after.map PendingCorrelation.event)
  rw [List.singleton_append] at cons
  simp only [List.map_append, List.map_cons, times_append, cons]
  omega

variable {correlator : EventCorrelator} {dest : BridgeEvent}

theorem byHash_eq_some {hash : String} (looked : correlator.byHash dest = some (hash, found)) :
    dest.messageHash = some hash ∧ correlator.pendingByHash[hash]? = some found := by
  obtain ⟨own, has, mapped⟩ := Option.bind_eq_some_iff.mp looked
  obtain ⟨pending, filed, same⟩ := Option.map_eq_some_iff.mp mapped
  cases same
  exact ⟨has, filed⟩

theorem Filed.key_eq (filed : Filed render correlator) {pending : PendingCorrelation}
    (member : pending ∈ underKey render correlator dest) :
    makeFuzzyKey render pending.event = makeFuzzyKey render dest := by
  unfold underKey at member
  cases found : correlator.pendingByKey[makeFuzzyKey render dest]? with
  | none => simp [found] at member
  | some list => exact filed.byKey _ list found pending (by simpa [found] using member)

theorem Filed.insertKey (filed : Filed render correlator) {key : String}
    {list : List PendingCorrelation}
    (own : ∀ pending ∈ list, makeFuzzyKey render pending.event = key) :
    Filed render { correlator with pendingByKey := correlator.pendingByKey.insert key list } := by
  refine ⟨filed.byHash, fun other found looked => ?_⟩
  rw [Dict.find_insert] at looked
  split at looked
  · rename_i same
    cases looked
    exact same ▸ own
  · exact filed.byKey other found looked

/-- An entry stays exactly if it is kept under its own key. -/
theorem find_filter_keyed {α : Type} (keep : String → α → Bool) (dict : Dict String α)
    (key : String) : (dict.filter keep)[key]? = dict[key]?.filter (keep key) := by
  rw [Std.ExtTreeMap.getElem?_filter]
  simp only [Std.ExtTreeMap.getKey_eq, Option.pfilter_eq_filter]

theorem retain_sublist (correlator : EventCorrelator) (moment : Moment) (key : String)
    (pendings : List PendingCorrelation) :
    (correlator.retain moment key pendings).Sublist pendings := by
  have fewer : (correlator.retain moment key pendings).Sublist (pendings.zipIdx.map Prod.fst) :=
    List.filter_sublist.map _
  rwa [List.zipIdx_map_fst] at fewer

theorem filed_step (filed : Filed render correlator) (call : CorrelatorCall × Moment) :
    Filed render (step render correlator call).1 := by
  obtain ⟨call, moment⟩ := call
  cases call with
  | cleanupExpired =>
    constructor
    · intro hash found looked
      simp only [step, cleanupExpired, find_filter_keyed, Option.filter_eq_some_iff] at looked
      exact filed.byHash hash found looked.1
    · intro key found looked
      simp only [step, cleanupExpired, Dict.find_filter, Option.filter_eq_some_iff,
        Std.ExtTreeMap.getElem?_map] at looked
      obtain ⟨list, known, rfl⟩ := Option.map_eq_some_iff.mp looked.1
      exact fun pending member => filed.byKey key list known pending
        ((retain_sublist correlator moment key list).subset member)
  | processEvent event =>
    simp only [step, processEvent]
    split
    · -- a deposit is filed under its own hash and key
      have entered : Filed render
          { correlator with pendingByHash := correlator.enterHash event moment } := by
        refine ⟨fun hash found looked => ?_, filed.byKey⟩
        unfold enterHash at looked
        split at looked
        · rename_i own has
          rw [Dict.find_insert] at looked
          split at looked
          · rename_i same
            cases looked
            exact has.trans (congrArg some same)
          · exact filed.byHash hash found looked
        · exact filed.byHash hash found looked
      refine entered.insertKey fun pending member => ?_
      rcases List.mem_append.mp member with old | new
      · exact filed.key_eq (show pending ∈ underKey render correlator event from old)
      · rw [List.mem_singleton.mp new]
    all_goals try exact filed
    all_goals
      simp only [correlate]
      split
      · refine ⟨fun hash found looked => ?_, filed.byKey⟩
        have kept : (correlator.pendingByHash.erase _)[hash]? = some found := looked
        rw [Dict.find_erase] at kept
        split at kept
        · cases kept
        · exact filed.byHash hash found kept
      · split
        · have taken : Filed render
              { correlator with pendingByKey := takeMatch render correlator event } :=
            filed.insertKey fun pending member => filed.key_eq (List.mem_of_mem_eraseP member)
          exact ⟨taken.byHash, taken.byKey⟩
        · exact filed

theorem copies_addPending (correlator : EventCorrelator) (event deposit : BridgeEvent)
    (moment : Moment) :
    copies render (addPending render correlator event moment) deposit ≤
      copies render correlator deposit + times deposit [event] := by
  unfold copies spendable
  cases has : deposit.messageHash with
  | some hash =>
    have index : (addPending render correlator event moment).pendingByHash =
      correlator.enterHash event moment := rfl
    dsimp only
    rw [index, enterHash]
    split
    · rw [Dict.find_insert]
      split
      · exact Nat.le_add_left _ _
      · exact Nat.le_add_right _ _
    · exact Nat.le_add_right _ _
  | none =>
    simp only [underKey, addPending]
    rw [Dict.find_insert]
    split
    · rename_i same
      rw [Option.getD_some, same, List.map_append, times_append]
      exact Nat.le_refl _
    · exact Nat.le_add_right _ _

theorem copies_takeHash (filed : Filed render correlator) {hash : String}
    (known : correlator.pendingByHash[hash]? = some found) (deposit : BridgeEvent) :
    copies render { correlator with pendingByHash := correlator.pendingByHash.erase hash } deposit +
      times deposit [found.event] ≤ copies render correlator deposit := by
  have own := filed.byHash hash found known
  unfold copies spendable
  cases has : deposit.messageHash with
  | none =>
    have apart : found.event ≠ deposit := fun same => by simp [← same, own] at has
    rw [times_other apart]
    exact Nat.le_refl _
  | some other =>
    dsimp only
    rw [Dict.find_erase]
    split
    · rename_i same
      subst same
      rw [known]
      exact (Nat.zero_add _).le
    · rename_i differ
      have apart : found.event ≠ deposit := fun equal => by
        rw [equal, has] at own
        exact differ (Option.some.inj own).symm
      rw [times_other apart]
      exact Nat.le_refl _

theorem copies_takeMatch (filed : Filed render correlator)
    (matched : byKey render correlator dest = some found) (bare : found.event.messageHash = none)
    (deposit : BridgeEvent) :
    copies render { correlator with pendingByKey := takeMatch render correlator dest } deposit +
      times deposit [found.event] ≤ copies render correlator deposit := by
  have key : makeFuzzyKey render found.event = makeFuzzyKey render dest :=
    filed.key_eq (List.mem_of_find?_eq_some matched)
  unfold copies spendable
  cases has : deposit.messageHash with
  | some hash =>
    have apart : found.event ≠ deposit := fun same => by simp [same, has] at bare
    rw [times_other apart]
    exact Nat.le_refl _
  | none =>
    simp only [underKey, takeMatch]
    rw [Dict.find_insert]
    split
    · rename_i same
      have taken := times_eraseP matched deposit
      unfold underKey at taken
      rw [Option.getD_some, ← same]
      exact taken.le
    · rename_i differ
      have apart : found.event ≠ deposit := fun equal => differ (equal ▸ key).symm
      rw [times_other apart]
      exact Nat.le_refl _

theorem copies_correlate (filed : Filed render correlator)
    (kept : correlator.byHash dest = none → ∀ found,
      byKey render correlator dest = some found → found.event.messageHash = none)
    (moment : Moment) (deposit : BridgeEvent) :
    copies render (correlate render correlator dest moment).1 deposit +
        times deposit ((correlate render correlator dest moment).2.toList.map
          CorrelatedEvent.sourceEvent) ≤ copies render correlator deposit := by
  unfold correlate
  cases looked : correlator.byHash dest with
  | some entry => exact copies_takeHash filed (byHash_eq_some looked).2 deposit
  | none =>
    dsimp only
    cases matched : byKey render correlator dest with
    | none => exact Nat.le_refl _
    | some found => exact copies_takeMatch filed matched (kept looked found matched) deposit

theorem copies_cleanupExpired (correlator : EventCorrelator) (moment : Moment)
    (deposit : BridgeEvent) :
    copies render (correlator.cleanupExpired moment).1 deposit ≤
      copies render correlator deposit := by
  -- what is left to spend is a part of what was
  suffices fewer : (spendable render (correlator.cleanupExpired moment).1 deposit).Sublist
      (spendable render correlator deposit) from (fewer.map _).countP_le
  unfold spendable
  cases deposit.messageHash with
  | some hash =>
    simp only [cleanupExpired, find_filter_keyed]
    cases correlator.pendingByHash[hash]? with
    | none => exact List.Sublist.refl _
    | some pending =>
      by_cases stays : correlator.fresh (moment.read hash 0) pending = true <;> simp [stays]
  | none =>
    simp only [underKey, cleanupExpired]
    rw [Dict.find_filter, Std.ExtTreeMap.getElem?_map]
    cases correlator.pendingByKey[makeFuzzyKey render deposit]? with
    | none => exact List.Sublist.refl _
    | some list =>
      rw [Option.map_some, Option.filter_some]
      split
      · exact retain_sublist correlator moment _ list
      · exact List.nil_sublist _

theorem spent_step (filed : Filed render correlator) {call : CorrelatorCall × Moment}
    (kept : HashesKept render correlator call) (deposit : BridgeEvent) :
    copies render (step render correlator call).1 deposit +
        times deposit ((step render correlator call).2.map CorrelatedEvent.sourceEvent) ≤
      copies render correlator deposit + times deposit (deposits [call]) := by
  obtain ⟨call, moment⟩ := call
  cases call with
  | cleanupExpired => exact copies_cleanupExpired correlator moment deposit
  | processEvent event =>
    unfold HashesKept at kept
    cases type : event.eventType with
    | deposit =>
      have added := @copies_addPending render correlator event deposit moment
      simpa [step, processEvent, type, deposits, times] using added
    | withdrawal =>
      have taken := copies_correlate filed (kept (Or.inl type)) moment deposit
      simpa [step, processEvent, type, deposits, times] using taken
    | claim =>
      have taken := copies_correlate filed (kept (Or.inr type)) moment deposit
      simpa [step, processEvent, type, deposits, times] using taken
    | _ => simp [step, processEvent, type, deposits, times]

theorem hashes_step (filed : Filed render correlator) {call : CorrelatorCall × Moment}
    (kept : HashesKept render correlator call) {pair : CorrelatedEvent}
    (made : pair ∈ (step render correlator call).2) :
    pair.sourceEvent.messageHash = none ∨ ∃ dest, pair.destinationEvent = some dest ∧
      pair.sourceEvent.messageHash = dest.messageHash := by
  obtain ⟨call, moment⟩ := call
  cases call with
  | cleanupExpired => cases made
  | processEvent event =>
    unfold HashesKept at kept
    -- withdrawals and claims are the events that make pairs
    have correlates : (event.eventType = .withdrawal ∨ event.eventType = .claim) ∧
        (correlate render correlator event moment).2 = some pair := by
      cases type : event.eventType <;> simp_all [step, processEvent]
    obtain ⟨type, made⟩ := correlates
    unfold correlate at made
    cases looked : correlator.byHash event with
    | some entry =>
      obtain ⟨has, known⟩ := byHash_eq_some looked
      rw [looked] at made
      cases made
      exact Or.inr ⟨event, rfl, (filed.byHash _ _ known).trans has.symm⟩
    | none =>
      rw [looked] at made
      dsimp only at made
      cases matched : byKey render correlator event with
      | none =>
        rw [matched] at made
        cases made
      | some found =>
        rw [matched] at made
        cases made
        exact Or.inl (kept type looked found matched)

/-- Deposits are spent at most once, if none with a hash is matched by its key alone. -/
theorem deposits_spent_once (render : Rendering) (bufferSize timeout : Nat)
    (calls : List (CorrelatorCall × Moment))
    (along : Along (HashesKept render) (step render) (new bufferSize timeout) calls) :
    (∀ deposit, times deposit ((trace (step render) (new bufferSize timeout) calls).2.map
        CorrelatedEvent.sourceEvent) ≤ times deposit (deposits calls)) ∧
      ∀ pair ∈ (trace (step render) (new bufferSize timeout) calls).2, ∀ dest first second,
        pair.destinationEvent = some dest → pair.sourceEvent.messageHash = some first →
          dest.messageHash = some second → first = second := by
  -- the copies left over are part of the bound, and both parts hold from any filed correlator
  suffices general : ∀ correlator, Filed render correlator →
      Along (HashesKept render) (step render) correlator calls →
      (∀ deposit, copies render (trace (step render) correlator calls).1 deposit +
        times deposit ((trace (step render) correlator calls).2.map CorrelatedEvent.sourceEvent) ≤
          copies render correlator deposit + times deposit (deposits calls)) ∧
      ∀ pair ∈ (trace (step render) correlator calls).2, pair.sourceEvent.messageHash = none ∨
        ∃ dest, pair.destinationEvent = some dest ∧
          pair.sourceEvent.messageHash = dest.messageHash by
    obtain ⟨spent, hashes⟩ := general _ ⟨by simp [new], by simp [new]⟩ along
    constructor
    · intro deposit
      have nothing : copies render (new bufferSize timeout) deposit = 0 := by
        unfold copies
        unfold spendable
        cases deposit.messageHash <;> simp [new, underKey, times]
      have bound := spent deposit
      omega
    · intro pair made dest first second paired source destination
      rcases hashes pair made with none | ⟨other, same, equal⟩
      · rw [none] at source
        cases source
      · rw [paired] at same
        cases same
        rw [source, destination] at equal
        exact Option.some.inj equal
  clear along
  induction calls with
  | nil => exact fun correlator filed along => ⟨fun deposit => le_refl _, by simp⟩
  | cons call rest ih =>
    intro correlator filed along
    obtain ⟨spent, hashes⟩ := ih _ (filed_step filed call) along.2
    rw [trace_cons]
    constructor
    · intro deposit
      have first := spent_step filed along.1 deposit
      have later := spent deposit
      have split : deposits (call :: rest) = deposits [call] ++ deposits rest :=
        @List.filterMap_append _ _ [call] rest _
      rw [split, List.map_append, times_append, times_append]
      dsimp only
      omega
    · intro pair made
      rcases List.mem_append.mp made with now | later
      · exact hashes_step filed along.1 now
      · exact hashes pair later

def sample (id : String) (eventType : EventType) (messageHash : Option String) : BridgeEvent :=
  ⟨id, "ethereum", 12345, "0xdep", eventType, "USDC", ⟨100, 0⟩, "0xsender", "0xrecipient", none,
    messageHash, 0, 0, .null⟩

def spentTwice : List (CorrelatorCall × Moment) :=
  [(.processEvent (sample "d" .deposit (some "0xmsg")), { now := 0, timestamp := 0, uuid := "a" }),
    (.processEvent (sample "w" .withdrawal none), { now := 1, timestamp := 1, uuid := "b" }),
    (.processEvent (sample "v" .withdrawal (some "0xmsg")), { now := 2, timestamp := 2, uuid := "c" })]

theorem deposit_spent_twice :
    (deposits spentTwice).map BridgeEvent.id = ["d"] ∧
      (trace (step .plain) (new 10 60) spentTwice).2.map (fun pair => pair.sourceEvent.id) =
        ["d", "d"] := by
  decide +kernel

def spentByHash : List (CorrelatorCall × Moment) :=
  [(.processEvent (sample "d" .deposit (some "0xmsg")), { now := 0, timestamp := 0, uuid := "a" }),
    (.processEvent (sample "w" .withdrawal (some "0xmsg")), { now := 1, timestamp := 1, uuid := "b" })]

theorem deposits_spent_once_by_hash :
    (trace (step .plain) (new 10 60) spentByHash).2.map (fun pair => pair.sourceEvent.id) = ["d"] ∧
      ∀ deposit, times deposit ((trace (step .plain) (new 10 60) spentByHash).2.map
        CorrelatedEvent.sourceEvent) ≤ times deposit (deposits spentByHash) := by
  refine ⟨by decide +kernel, (deposits_spent_once .plain 10 60 spentByHash ?_).1⟩
  -- the withdrawal finds the deposit under its hash
  have found : ((step .plain (new 10 60) (.processEvent (sample "d" .deposit (some "0xmsg")),
      { now := 0, timestamp := 0, uuid := "a" })).1.byHash
        (sample "w" .withdrawal (some "0xmsg"))).isSome = true := by
    decide +kernel
  refine ⟨fun type => ?_, fun _ missing => ?_, trivial⟩
  · rcases type with type | type <;> cases type
  · rw [missing] at found
    cases found

end EventCorrelator

end Hsm.Bridge
