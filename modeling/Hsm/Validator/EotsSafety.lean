import Hsm.Lib.Run
import Hsm.Validator.Babylon
import Hsm.Validator.SlashingLaws

/-! EOTS heights are granted once each, through failures and crashes, and listed exactly. -/

namespace Hsm

inductive EotsOperation where
  | registerKey (chainId : String)
  | checkAndRecordHeight (height : BlockHeight)
  | isHeightSigned (height : BlockHeight)
  | getSignedHeights

structure EotsRequest where
  publicKey : Bytes
  operation : EotsOperation
  env : EotsEnv

inductive EotsReply where
  | registered (outcome : Outcome (Except ValidatorError Unit))
  | recorded (outcome : Outcome (Except SlashingError Unit))
  | signed (answer : Except ValidatorError Bool)
  | heights (answer : Except ValidatorError (List BlockHeight))

def EotsReply.panicked : EotsReply → Bool
  | .registered .panicked | .recorded .panicked => true
  | _ => false

structure SignedHeight where
  publicKey : Bytes
  height : BlockHeight
  deriving DecidableEq, Repr

def EotsRequest.granted (request : EotsRequest) (reply : EotsReply) : List SignedHeight :=
  match request.operation, reply with
  | .checkAndRecordHeight height, .recorded (.returned (.ok ())) => [⟨request.publicKey, height⟩]
  | _, _ => []

/-- What happens over the lives of the process. -/
inductive EotsEvent where
  | request (request : EotsRequest)
  | flush (env : EotsEnv)
  | crash

def EotsTrees.signed (trees : EotsTrees) (signing : SignedHeight) : Option Unit :=
  (trees.heights.get (heightKey signing.publicKey signing.height)).map fun _ => ()

namespace EotsSlashingDb

def serve (db : EotsSlashingDb) (request : EotsRequest) : EotsSlashingDb × EotsReply :=
  match request.operation with
  | .registerKey chainId =>
    (db.registerKey request.env request.publicKey chainId).map id .registered
  | .checkAndRecordHeight height =>
    (db.checkAndRecordHeight request.env request.publicKey height).map id .recorded
  | .isHeightSigned height => (db, .signed (db.isHeightSigned request.env request.publicKey height))
  | .getSignedHeights => (db, .heights (db.getSignedHeights request.env request.publicKey))

def live (db : EotsSlashingDb) : EotsEvent → EotsSlashingDb × List SignedHeight
  | .request asked => ((db.serve asked).1, asked.granted (db.serve asked).2)
  | .flush env => ((db.flush env).1, [])
  | .crash => (db.reopen, [])

/-- Neither the store nor the process fails. -/
def Undisturbed (db : EotsSlashingDb) : EotsEvent → Prop
  | .request asked => asked.env.Healthy ∧ (db.serve asked).2.panicked = false
  | .flush env => env.Healthy
  | .crash => False

instance (db : EotsSlashingDb) : (event : EotsEvent) → Decidable (db.Undisturbed event)
  | .request _ => inferInstanceAs (Decidable (_ ∧ _))
  | .flush env => inferInstanceAs (Decidable env.Healthy)
  | .crash => inferInstanceAs (Decidable False)

end EotsSlashingDb

namespace EotsTrees

@[simp] theorem signed_putKey (trees : EotsTrees) (publicKey : Bytes) (data : EotsKeyData) :
    (trees.putKey publicKey data).signed = trees.signed := rfl

theorem signed_putHeight (trees : EotsTrees) (publicKey timestamp : Bytes) (height : BlockHeight)
    (signing : SignedHeight) :
    (trees.putHeight (heightKey publicKey height) timestamp).signed signing =
      if signing = ⟨publicKey, height⟩ then some () else trees.signed signing := by
  obtain ⟨other, last⟩ := signing
  -- The key format is injective, so equal storage keys mean the same key and height.
  have keys : heightKey publicKey height = heightKey other last ↔
      (⟨other, last⟩ : SignedHeight) = ⟨publicKey, height⟩ := by
    rw [recordKey_inj, SignedHeight.mk.injEq, eq_comm, @eq_comm _ height]
  simp only [signed, putHeight, Tree.get_insert, keys]
  split <;> rfl

end EotsTrees

namespace EotsSlashingDb

theorem touchKey_cases (db : EotsSlashingDb) (env : EotsEnv) (publicKey : Bytes) :
    db.touchKey env publicKey = db ∨
      ∃ data, db.touchKey env publicKey = db.write (·.putKey publicKey data) := by
  unfold touchKey
  split
  · split
    · exact .inl rfl
    · exact .inr ⟨_, rfl⟩
  · exact .inl rfl

theorem registerKey_cases (db : EotsSlashingDb) (env : EotsEnv) (publicKey : Bytes)
    (chainId : String) :
    (db.registerKey env publicKey chainId).1 = db ∨
      ∃ data, (db.registerKey env publicKey chainId).1 = db.write (·.putKey publicKey data) := by
  unfold registerKey
  split
  · exact .inl rfl
  · split
    · exact .inl rfl
    · split
      · exact .inl rfl
      · exact .inr ⟨_, rfl⟩

theorem logged_error_ne (env : EotsEnv) (level : LogLevel) (publicKey : Bytes) (e : SlashingError) :
    env.logged level publicKey (Except.error e : Except SlashingError Unit) ≠
      .returned (.ok ()) := by
  unfold EotsEnv.logged
  split <;> simp

/-- A height is refused, or recorded in memory or on disk. -/
inductive HeightRecorded (db : EotsSlashingDb) (env : EotsEnv) (signing : SignedHeight) :
    EotsSlashingDb → Outcome (Except SlashingError Unit) → Prop where
  | refused {outcome : Outcome (Except SlashingError Unit)} (failed : outcome ≠ .returned (.ok ()))
      (reason : env.Healthy → db.trees.signed signing = some ()) :
      HeightRecorded db env signing db outcome
  | unflushed {outcome : Outcome (Except SlashingError Unit)} (timestamp : Bytes)
      (free : db.trees.signed signing = none) (failed : outcome ≠ .returned (.ok ()))
      (broken : ¬ env.Healthy) :
      HeightRecorded db env signing
        (db.write (·.putHeight (heightKey signing.publicKey signing.height) timestamp)) outcome
  | flushed (timestamp : Bytes) (free : db.trees.signed signing = none) :
      HeightRecorded db env signing
        (touchKey ⟨(db.store.write
          (·.putHeight (heightKey signing.publicKey signing.height) timestamp)).flush⟩
          env signing.publicKey)
        (env.logged .debug signing.publicKey (.ok ()))

theorem checkAndRecordHeight_cases (db : EotsSlashingDb) (env : EotsEnv) (publicKey : Bytes)
    (height : BlockHeight) :
    HeightRecorded db env ⟨publicKey, height⟩ (db.checkAndRecordHeight env publicKey height).1
      (db.checkAndRecordHeight env publicKey height).2 := by
  unfold checkAndRecordHeight
  split
  · rename_i e unread
    exact .refused (logged_error_ne _ _ _ _) fun healthy => by
      rw [healthy] at unread
      cases unread
  · split
    · rename_i present
      rw [Tree.containsKey_eq, Option.isSome_iff_exists] at present
      obtain ⟨timestamp, found⟩ := present
      exact .refused (logged_error_ne _ _ _ _) fun _ => by simp [EotsTrees.signed, found]
    · rename_i absent
      have free : db.trees.signed ⟨publicKey, height⟩ = none := by
        simpa [EotsTrees.signed] using absent
      split
      · rename_i e unwritten
        exact .refused (by simp) fun healthy => by
          rw [healthy] at unwritten
          cases unwritten
      · dsimp only
        split
        · rename_i e unflushed
          refine .unflushed _ free (logged_error_ne _ _ _ _) fun healthy => ?_
          rw [healthy] at unflushed
          cases unflushed
        · exact .flushed _ free

theorem granted_recorded (publicKey : Bytes) (height : BlockHeight) (env : EotsEnv)
    (outcome : Outcome (Except SlashingError Unit)) :
    EotsRequest.granted ⟨publicKey, .checkAndRecordHeight height, env⟩ (.recorded outcome) =
      if outcome = .returned (.ok ()) then [⟨publicKey, height⟩] else [] := by
  rcases outcome with (e | ⟨⟨⟩⟩) | _ <;> simp [EotsRequest.granted]

structure GrantedOnce (db : EotsSlashingDb) (past : List SignedHeight) : Prop where
  once : past.Nodup
  backed : db.store.Backed EotsTrees.signed (past.map (·, ()))

namespace GrantedOnce

variable {db : EotsSlashingDb} {past : List SignedHeight}

theorem write_putKey (granted : db.GrantedOnce past) (publicKey : Bytes) (data : EotsKeyData) :
    (db.write (·.putKey publicKey data)).GrantedOnce past := by
  have written : (db.store.write (·.putKey publicKey data)).Backed EotsTrees.signed
      (past.map (·, ())) := granted.backed.write fun _ _ found => found
  exact ⟨granted.once, written⟩

theorem touchKey (granted : db.GrantedOnce past) (env : EotsEnv) (publicKey : Bytes) :
    (db.touchKey env publicKey).GrantedOnce past := by
  rcases db.touchKey_cases env publicKey with same | ⟨data, made⟩
  · rw [same]
    exact granted
  · rw [made]
    exact granted.write_putKey publicKey data

theorem write_putHeight (granted : db.GrantedOnce past) (signing : SignedHeight)
    (timestamp : Bytes) :
    (db.write (·.putHeight (heightKey signing.publicKey signing.height) timestamp)).GrantedOnce
      past := by
  have grows : Durable.Grows EotsTrees.signed db.store.live
      (db.store.live.putHeight (heightKey signing.publicKey signing.height) timestamp) := by
    intro other _ found
    rw [EotsTrees.signed_putHeight, found]
    split <;> rfl
  have written : (db.store.write (·.putHeight (heightKey signing.publicKey signing.height)
      timestamp)).Backed EotsTrees.signed (past.map (·, ())) := granted.backed.write grows
  exact ⟨granted.once, written⟩

theorem record (granted : db.GrantedOnce past) {env : EotsEnv} {signing : SignedHeight}
    {after : EotsSlashingDb} {outcome : Outcome (Except SlashingError Unit)}
    (recorded : HeightRecorded db env signing after outcome) :
    after.GrantedOnce (past ++ if outcome = .returned (.ok ()) then [signing] else []) := by
  cases recorded with
  | refused failed reason => simpa [failed] using granted
  | unflushed timestamp free failed broken =>
    simpa [failed] using granted.write_putHeight signing timestamp
  | flushed timestamp free =>
    refine touchKey ?_ env signing.publicKey
    have written := (granted.write_putHeight signing timestamp).backed.flush
    split
    · -- The flush put the record on disk, and no earlier grant can have been for a free height.
      have onDisk : (db.store.write (·.putHeight (heightKey signing.publicKey signing.height)
          timestamp)).flush.synced.signed signing = some () := by
        simp [EotsTrees.signed_putHeight]
      have unsigned : signing ∉ past := by
        intro before
        exact granted.backed.not_promised free () (List.mem_map_of_mem before)
      refine ⟨?_, ?_⟩
      · exact List.nodup_append.mpr ⟨granted.once, by simp, by
          rintro earlier member last new rfl
          exact unsigned (List.mem_singleton.mp new ▸ member)⟩
      · rw [List.map_append]
        exact written.promise onDisk
    · rw [List.append_nil]
      exact ⟨granted.once, written⟩

end GrantedOnce

theorem live_grantedOnce (db : EotsSlashingDb) (past : List SignedHeight) (event : EotsEvent)
    (granted : db.GrantedOnce past) : (db.live event).1.GrantedOnce (past ++ (db.live event).2) := by
  cases event with
  | crash => simpa [live, reopen] using ⟨granted.once, granted.backed.crash⟩
  | flush env =>
    simp only [live, flush, List.append_nil]
    split
    · exact granted
    · exact ⟨granted.once, granted.backed.flush⟩
  | request asked =>
    obtain ⟨publicKey, operation, env⟩ := asked
    cases operation with
    | isHeightSigned height | getSignedHeights =>
      simpa [live, serve, EotsRequest.granted] using granted
    | registerKey chainId =>
      simp only [live, serve, Prod.map_fst, id_eq, EotsRequest.granted, List.append_nil]
      rcases db.registerKey_cases env publicKey chainId with same | ⟨data, made⟩
      · rw [same]
        exact granted
      · rw [made]
        exact granted.write_putKey publicKey data
    | checkAndRecordHeight height =>
      simp only [live, serve, Prod.map_fst, Prod.map_snd, id_eq, granted_recorded]
      exact granted.record (db.checkAndRecordHeight_cases env publicKey height)

def RecordsGrants (db : EotsSlashingDb) (past : List SignedHeight) : Prop :=
  ∀ signing, db.trees.signed signing = some () ↔ signing ∈ past

@[simp] theorem signed_touchKey (db : EotsSlashingDb) (env : EotsEnv) (publicKey : Bytes) :
    (db.touchKey env publicKey).trees.signed = db.trees.signed := by
  rcases db.touchKey_cases env publicKey with same | ⟨data, made⟩
  · rw [same]
  · rw [made]
    rfl

theorem RecordsGrants.record {db : EotsSlashingDb} {past : List SignedHeight} {env : EotsEnv}
    {signing : SignedHeight} {after : EotsSlashingDb}
    {outcome : Outcome (Except SlashingError Unit)} (records : db.RecordsGrants past)
    (recorded : HeightRecorded db env signing after outcome) (healthy : env.Healthy)
    (returned : outcome ≠ .panicked) :
    after.RecordsGrants (past ++ if outcome = .returned (.ok ()) then [signing] else []) := by
  cases recorded with
  | refused failed reason => simpa [failed] using records
  | unflushed timestamp free failed broken => exact absurd healthy broken
  | flushed timestamp free =>
    -- A call that does not panic in its last log line returns success.
    have granted : env.logged .debug signing.publicKey (.ok () : Except SlashingError Unit) =
        .returned (.ok ()) := by
      unfold EotsEnv.logged at returned ⊢
      split <;> simp_all
    intro other
    have stored : (touchKey ⟨(db.store.write (·.putHeight
        (heightKey signing.publicKey signing.height) timestamp)).flush⟩ env
          signing.publicKey).trees.signed other =
        if other = signing then some () else db.trees.signed other := by
      rw [signed_touchKey]
      exact EotsTrees.signed_putHeight _ _ _ _ _
    rw [stored, if_pos granted, List.mem_append, List.mem_singleton, ← records other]
    split <;> simp_all

theorem live_recordsGrants (db : EotsSlashingDb) (past : List SignedHeight) (event : EotsEvent)
    (records : db.RecordsGrants past) (undisturbed : db.Undisturbed event) :
    (db.live event).1.RecordsGrants (past ++ (db.live event).2) := by
  cases event with
  | crash => exact undisturbed.elim
  | flush env =>
    simp only [live, flush, List.append_nil]
    split <;> exact records
  | request asked =>
    obtain ⟨publicKey, operation, env⟩ := asked
    obtain ⟨healthy, quiet⟩ := undisturbed
    cases operation with
    | isHeightSigned height | getSignedHeights =>
      simpa [live, serve, EotsRequest.granted] using records
    | registerKey chainId =>
      simp only [live, serve, Prod.map_fst, id_eq, EotsRequest.granted, List.append_nil]
      rcases db.registerKey_cases env publicKey chainId with same | ⟨data, made⟩
      · rw [same]
        exact records
      · rw [made]
        exact records
    | checkAndRecordHeight height =>
      have returned : (db.checkAndRecordHeight env publicKey height).2 ≠ .panicked := by
        intro panicked
        simp [serve, panicked, EotsReply.panicked] at quiet
      simp only [live, serve, Prod.map_fst, Prod.map_snd, id_eq, granted_recorded]
      exact records.record (db.checkAndRecordHeight_cases env publicKey height) healthy returned

theorem heightOfKey_eq_some {lead key : Bytes} (under : lead <+: key) {height : BlockHeight} :
    heightOfKey lead key = some height ↔ key = lead ++ toBeBytes height := by
  obtain ⟨rest, rfl⟩ := under
  simp only [heightOfKey, List.drop_left, List.append_cancel_left_eq]
  constructor
  · intro read
    split at read
    · rename_i size
      cases read
      exact (toBeBytes_fromBeBytes size).symm
    · cases read
  · rintro rfl
    simp

theorem readHeights_healthy {env : EotsEnv} (healthy : env.Healthy) (lead : Bytes) (index : Nat)
    (items : List (Bytes × Bytes)) :
    readHeights env lead index items = .ok (items.filterMap fun item => heightOfKey lead item.1) := by
  induction items generalizing index with
  | nil => rfl
  | cons item rest ih =>
    have noFault : env.io.scanFault index = none := by rw [healthy]; rfl
    simp only [readHeights, noFault, ih, Except.map]
    cases read : heightOfKey lead item.1 <;> simp [read]

theorem scannedHeights_nodup (heights : Tree Bytes) (lead : Bytes) :
    ((heights.scanPrefix lead).filterMap fun item => heightOfKey lead item.1).Nodup := by
  have distinct := List.Pairwise.and_mem.mp (heights.scanPrefix_distinct lead)
  refine List.pairwise_filterMap.mpr (distinct.imp ?_)
  -- Two keys with the same height under one lead are the same key.
  rintro ⟨key, value⟩ ⟨other, last⟩ ⟨one, two, apart⟩ height read again reread rfl
  have first := (heightOfKey_eq_some (Tree.mem_scanPrefix.mp one).1).mp read
  have second := (heightOfKey_eq_some (Tree.mem_scanPrefix.mp two).1).mp reread
  exact apart (first.trans second.symm)

theorem mem_scannedHeights (trees : EotsTrees) (publicKey : Bytes) (height : BlockHeight) :
    height ∈ (trees.heights.scanPrefix (recordKeyPrefix publicKey)).filterMap
        (fun item => heightOfKey (recordKeyPrefix publicKey) item.1) ↔
      trees.signed ⟨publicKey, height⟩ = some () := by
  simp only [List.mem_filterMap, EotsTrees.signed, Option.map_eq_some_iff, and_true, heightKey,
    recordKey]
  constructor
  · rintro ⟨⟨key, timestamp⟩, member, read⟩
    obtain ⟨under, found⟩ := Tree.mem_scanPrefix.mp member
    rw [heightOfKey_eq_some under] at read
    exact ⟨timestamp, read ▸ found⟩
  · rintro ⟨timestamp, found⟩
    have under : recordKeyPrefix publicKey <+: recordKeyPrefix publicKey ++ toBeBytes height :=
      List.prefix_append _ _
    exact ⟨_, Tree.mem_scanPrefix.mpr ⟨under, found⟩, (heightOfKey_eq_some under).mpr rfl⟩

theorem getSignedHeights_healthy (db : EotsSlashingDb) {env : EotsEnv} (healthy : env.Healthy)
    (publicKey : Bytes) :
    ∃ heights, db.getSignedHeights env publicKey = .ok heights ∧ heights.Pairwise (· < ·) ∧
      ∀ height, height ∈ heights ↔ db.trees.signed ⟨publicKey, height⟩ = some () := by
  refine ⟨_, by rw [getSignedHeights, readHeights_healthy healthy]; rfl, ?_, ?_⟩
  · -- The sorted list ascends, and strictly so because no height is repeated.
    have ascending := List.pairwise_insertionSort (· ≤ ·)
      ((db.trees.heights.scanPrefix (recordKeyPrefix publicKey)).filterMap
        fun item => heightOfKey (recordKeyPrefix publicKey) item.1)
    have distinct := (List.perm_insertionSort (· ≤ ·) _).nodup_iff.mpr
      (scannedHeights_nodup db.trees.heights (recordKeyPrefix publicKey))
    refine (ascending.and distinct).imp ?_
    intro first second ordered
    exact UInt64.lt_of_le_of_ne ordered.1 ordered.2
  · intro height
    rw [List.mem_insertionSort, mem_scannedHeights]

end EotsSlashingDb

open EotsSlashingDb

/-- No height is granted twice, and the listed heights are those granted if nothing fails. -/
theorem eots_heights_granted_once (events : List EotsEvent) :
    (∀ trees, (trace live (.opened trees) events).2.Nodup) ∧
      (Along Undisturbed live .new events →
        ∀ env : EotsEnv, env.Healthy → ∀ publicKey,
          ∃ heights, (trace live .new events).1.getSignedHeights env publicKey = .ok heights ∧
            heights.Pairwise (· < ·) ∧
            ∀ height, height ∈ heights ↔ ⟨publicKey, height⟩ ∈ (trace live .new events).2) := by
  constructor
  · intro trees
    -- Nothing is asked of the steps of such a run.
    have anyStep : Along (fun _ _ => True) live (.opened trees) events :=
      .of_forall (fun _ _ _ => trivial) _
    have granted := trace_invariant GrantedOnce
      (fun db past event granted _ => live_grantedOnce db past event granted) events
      (.opened trees) [] ⟨List.nodup_nil, Durable.Backed.opened trees⟩ anyStep
    exact granted.once
  · intro undisturbed env healthy publicKey
    have start : EotsSlashingDb.new.RecordsGrants [] := by
      intro signing
      simp [new, trees, opened, EotsTrees.signed, EotsTrees.empty]
    have records := trace_invariant RecordsGrants live_recordsGrants events .new [] start undisturbed
    obtain ⟨heights, answered, ascending, recorded⟩ :=
      getSignedHeights_healthy (trace live .new events).1 healthy publicKey
    refine ⟨heights, answered, ascending, fun height => ?_⟩
    rw [recorded, records]
    rfl

namespace Sample

def eotsKey : Bytes := List.replicate 8 0x02

def longerEotsKey : Bytes := eotsKey ++ [0x3a, 0x00]

def eotsEnv : EotsEnv := { now := ⟨0, 0⟩, logs := fun _ => true }

def eotsAsks (publicKey : Bytes) (operation : EotsOperation) : EotsEvent :=
  .request ⟨publicKey, operation, eotsEnv⟩

def signings : List EotsEvent :=
  [eotsAsks eotsKey (.registerKey "babylon-testnet"),
    eotsAsks eotsKey (.checkAndRecordHeight 102),
    eotsAsks longerEotsKey (.checkAndRecordHeight 7),
    eotsAsks eotsKey (.checkAndRecordHeight 102),
    eotsAsks eotsKey (.checkAndRecordHeight 101)]

end Sample

theorem eots_heights_granted_once_signings :
    (trace live .new Sample.signings).2 =
        [⟨Sample.eotsKey, 102⟩, ⟨Sample.longerEotsKey, 7⟩, ⟨Sample.eotsKey, 101⟩] ∧
      ∃ heights, (trace live .new Sample.signings).1.getSignedHeights Sample.eotsEnv
          Sample.eotsKey = .ok heights ∧ heights.Pairwise (· < ·) ∧
        ∀ height, height ∈ heights ↔
          ⟨Sample.eotsKey, height⟩ ∈ (trace live .new Sample.signings).2 :=
  ⟨by decide +kernel, (eots_heights_granted_once Sample.signings).2 (by decide +kernel)
    Sample.eotsEnv (by decide) Sample.eotsKey⟩

end Hsm
