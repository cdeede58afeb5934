import Hsm.KeyManager.Lifecycle

/-! Version chains with one active key, and keys that are never used again, over all runs. -/

namespace Hsm.KeyManager

open Vault Script

/-- No way leads back to use, and destruction is the end. -/
def KeyState.mayBecome : KeyState → KeyState → Bool
  | .pending, _ | .active, _ => true
  | .deactivated, next => next = .deactivated ∨ next = .compromised ∨ next = .destroyed
  | .compromised, next => next = .compromised ∨ next = .destroyed
  | .destroyed, next => next = .destroyed

def Unsucceeded (keys : Keys) (space : String) (keyId : KeyId) : Prop :=
  ∀ (id : KeyId) (other : Key), keys[((space, id) : CompositeKey)]? = some other →
    other.previousVersion ≠ some keyId

def Orderly (codec : KeyCodec) (session : Session) : ManagerCall → Prop
  | .generate _ draws _ => draws.id ∉ session.drawn
  | .rotate space keyId draws faults => draws.id ∉ session.drawn ∧
      ∀ key, session.vault.keys[((space, keyId) : CompositeKey)]? = some key →
        key.state.mayBecome .deactivated = true ∧ key.version.toNat + 1 < 2 ^ 32 ∧
        Unsucceeded session.vault.keys space keyId ∧
        (key.Retired ∨ ¬ WriteFails codec faults 3 session.vault)
  | .updateState space keyId state _ =>
      ∀ key, session.vault.keys[((space, keyId) : CompositeKey)]? = some key →
        key.state.mayBecome state = true
  | .delete _ _ _ | .get _ _ _ => True

inductive KeysStep (codec : KeyCodec) (session : Session) : ManagerCall → Keys → Prop
  | same (call : ManagerCall) : KeysStep codec session call session.vault.keys
  | generated (spec : KeySpec) (draws : KeyDraws) (faults : Faults) (material : Bytes × Bytes)
    (fresh : session.vault.keys[((spec.namespace, draws.id) : CompositeKey)]? = none) :
    KeysStep codec session (.generate spec draws faults)
      (session.vault.keys.set (spec.namespace, draws.id) (newKey spec draws material))
  | linked (space : String) (keyId : KeyId) (draws : KeyDraws) (faults : Faults) (old : Key)
    (material : Bytes × Bytes) (got : session.vault.keys.get space keyId = .ok old)
    (fresh : session.vault.keys[((space, draws.id) : CompositeKey)]? = none)
    (fails : WriteFails codec faults 3 session.vault) :
    KeysStep codec session (.rotate space keyId draws faults)
      (session.vault.keys.set (space, draws.id) (linkedKey space keyId old draws material))
  | rotated (space : String) (keyId : KeyId) (draws : KeyDraws) (faults : Faults) (old : Key)
    (material : Bytes × Bytes) (got : session.vault.keys.get space keyId = .ok old)
    (fresh : session.vault.keys[((space, draws.id) : CompositeKey)]? = none) :
    KeysStep codec session (.rotate space keyId draws faults)
      ((session.vault.keys.set (space, draws.id) (linkedKey space keyId old draws material)).set
        (space, keyId) { old with state := .deactivated })
  | restated (space : String) (keyId : KeyId) (state : KeyState) (faults : Faults) (key : Key)
    (got : session.vault.keys.get space keyId = .ok key) :
    KeysStep codec session (.updateState space keyId state faults)
      (session.vault.keys.set (space, keyId) { key with state })
  | erased (space : String) (keyId : KeyId) (faults : Faults) :
    KeysStep codec session (.delete space keyId faults) (session.vault.keys.erase (space, keyId))

variable {codec : KeyCodec} {session : Session}

theorem keys_wrapped {α : Type} (script : Script Vault α) (wrap : α → ManagerReply) (vault : Vault) :
    ((script >>= fun result => (pure (wrap result) : Script Vault ManagerReply)).runAlone
      vault).2 = (script.runAlone vault).2 := by
  rw [runAlone_bind, runAlone_pure]

theorem keysStep_serve (codec : KeyCodec) (session : Session) (call : ManagerCall) :
    KeysStep codec session call (session.serve codec call).1.vault.keys := by
  have served : (session.serve codec call).1.vault =
      ((call.program codec).runAlone session.vault).2 := rfl
  rw [served]
  cases call with
  | generate spec draws faults =>
    rw [ManagerCall.program, keys_wrapped]
    rcases generateKey_cases codec faults session.vault spec draws with
      ⟨failure, -, kept⟩ | ⟨material, -, fresh, keys⟩
    · rw [kept]
      exact .same _
    · rw [keys]
      exact .generated spec draws faults material fresh
  | rotate space keyId draws faults =>
    rw [ManagerCall.program, keys_wrapped]
    rcases rotateKey_cases codec faults session.vault space keyId draws with
      kept | ⟨old, material, got, fresh, ⟨keys, fails⟩ | keys⟩
    · rw [kept]
      exact .same _
    · rw [keys]
      exact .linked space keyId draws faults old material got fresh fails
    · rw [keys]
      exact .rotated space keyId draws faults old material got fresh
  | updateState space keyId state faults =>
    rw [ManagerCall.program, keys_wrapped]
    rcases updateState_cases codec faults session.vault 0 space keyId state with
      ⟨failure, -, kept⟩ | ⟨key, got, keys⟩
    · rw [kept]
      exact .same _
    · rw [keys]
      exact .restated space keyId state faults key got
  | delete space keyId faults =>
    rw [ManagerCall.program, keys_wrapped]
    simp only [deleteKey, runAlone_bind, storeDelete, runAlone_atomically, Keys.delete]
    cases session.vault.keys[((space, keyId) : CompositeKey)]? with
    | none => exact .same _
    | some key =>
      simp only
      cases session.vault.keys.get space keyId with
      | error failure => exact .erased space keyId faults
      | ok key => exact .erased space keyId faults
  | get space keyId now =>
    rw [ManagerCall.program, keys_wrapped]
    simp only [getKey, runAlone_bind, storeGet, runAlone_atomically]
    cases session.vault.keys.get space keyId with
    | error failure => exact .same _
    | ok key =>
      simp only
      split_ifs <;> exact .same _

structure Sound (keys : Keys) (drawn : List KeyId) : Prop where
  own : ∀ (at_ : CompositeKey) key, keys[at_]? = some key → key.namespace = at_.1 ∧ at_.2 ∈ drawn
  linked : ∀ (at_ : CompositeKey) key previous, keys[at_]? = some key →
    key.previousVersion = some previous → previous ∈ drawn
  versions : ∀ (at_ : CompositeKey) key previous old, keys[at_]? = some key →
    key.previousVersion = some previous → keys[((at_.1, previous) : CompositeKey)]? = some old →
      key.version.toNat = old.version.toNat + 1
  unique : ∀ space (first second : KeyId) key other previous,
    keys[((space, first) : CompositeKey)]? = some key →
    keys[((space, second) : CompositeKey)]? = some other →
    key.previousVersion = some previous → other.previousVersion = some previous → first = second
  superseded : ∀ (at_ : CompositeKey) key previous old, keys[at_]? = some key →
    key.previousVersion = some previous → keys[((at_.1, previous) : CompositeKey)]? = some old →
      old.Retired

theorem retired_of_mayBecome {key : Key} {state : KeyState}
    (forward : key.state.mayBecome state = true) (retired : key.Retired) :
    { key with state }.Retired := by
  unfold Key.Retired at *
  rcases retired with was | was | was <;>
    · rw [was] at forward
      revert forward
      cases state <;> simp [KeyState.mayBecome]

namespace Sound

variable {keys : Keys} {drawn : List KeyId}

theorem mono (sound : Sound keys drawn) (more : List KeyId) : Sound keys (more ++ drawn) :=
  ⟨fun at_ key found => ⟨(sound.own at_ key found).1,
      List.mem_append_right more (sound.own at_ key found).2⟩,
    fun at_ key previous found link =>
      List.mem_append_right more (sound.linked at_ key previous found link),
    sound.versions, sound.unique, sound.superseded⟩

theorem erase (sound : Sound keys drawn) (at_ : CompositeKey) : Sound (keys.erase at_) drawn := by
  have found : ∀ {other : CompositeKey} {key : Key}, (keys.erase at_)[other]? = some key →
      keys[other]? = some key := by
    intro other key isKey
    rw [Dict.find_erase] at isKey
    split_ifs at isKey
    exact isKey
  exact ⟨fun other key there => sound.own other key (found there),
    fun other key previous there => sound.linked other key previous (found there),
    fun other key previous old there link was =>
      sound.versions other key previous old (found there) link (found was),
    fun space first second key other previous there there' =>
      sound.unique space first second key other previous (found there) (found there'),
    fun other key previous old there link was =>
      sound.superseded other key previous old (found there) link (found was)⟩

theorem restate (sound : Sound keys drawn) {at_ : CompositeKey} {key : Key} {state : KeyState}
    (there : keys[at_]? = some key) (forward : key.state.mayBecome state = true) :
    Sound (keys.set at_ { key with state }) drawn := by
  -- Everything but the state is as it was.
  have found : ∀ {other : CompositeKey} {after : Key}, (keys.set at_ { key with state })[other]? =
      some after → ∃ before, keys[other]? = some before ∧ after.namespace = before.namespace ∧
        after.previousVersion = before.previousVersion ∧ after.version = before.version ∧
        (before.Retired → after.Retired) := by
    intro other after isAfter
    rw [Keys.find_set] at isAfter
    split_ifs at isAfter with same
    · cases isAfter
      subst same
      exact ⟨key, there, rfl, rfl, rfl, retired_of_mayBecome forward⟩
    · exact ⟨after, isAfter, rfl, rfl, rfl, id⟩
  refine ⟨fun other after isAfter => ?_, fun other after previous isAfter link => ?_,
    fun other after previous old isAfter link was => ?_,
    fun space first second one two previous isOne isTwo link link' => ?_,
    fun other after previous old isAfter link was => ?_⟩
  · obtain ⟨before, held, sameSpace, -⟩ := found isAfter
    rw [sameSpace]
    exact sound.own other before held
  · obtain ⟨before, held, -, sameLink, -⟩ := found isAfter
    exact sound.linked other before previous held (sameLink ▸ link)
  · obtain ⟨before, held, -, sameLink, sameVersion, -⟩ := found isAfter
    obtain ⟨earlier, held', -, -, sameVersion', -⟩ := found was
    rw [sameVersion, sameVersion']
    exact sound.versions other before previous earlier held (sameLink ▸ link) held'
  · obtain ⟨before, held, -, sameLink, -⟩ := found isOne
    obtain ⟨before', held', -, sameLink', -⟩ := found isTwo
    exact sound.unique space first second before before' previous held held' (sameLink ▸ link)
      (sameLink' ▸ link')
  · obtain ⟨before, held, -, sameLink, -⟩ := found isAfter
    obtain ⟨earlier, held', -, -, -, retired⟩ := found was
    exact retired (sound.superseded other before previous earlier held (sameLink ▸ link) held')

theorem add (sound : Sound keys drawn) {space : String} {key : Key} {id : KeyId}
    (fresh : id ∉ drawn) (inSpace : key.namespace = space)
    (link : ∀ previous, key.previousVersion = some previous → previous ∈ drawn ∧
      Unsucceeded keys space previous ∧
      ∀ old, keys[((space, previous) : CompositeKey)]? = some old →
        old.Retired ∧ key.version.toNat = old.version.toNat + 1) :
    Sound (keys.set (space, id) key) (id :: drawn) := by
  -- No key is linked to the new one, whose ID nobody knows yet.
  have unknown : ∀ {at_ : CompositeKey} {other : Key} {previous : KeyId}, keys[at_]? = some other →
      other.previousVersion = some previous → ((space, id) : CompositeKey) ≠ (at_.1, previous) := by
    intro at_ other previous held isLink same
    cases same
    exact fresh (sound.linked at_ other id held isLink)
  refine ⟨fun at_ other held => ?_, fun at_ other previous held isLink => ?_,
    fun at_ other previous old held isLink was => ?_,
    fun space' first second one two previous isOne isTwo isLink isLink' => ?_,
    fun at_ other previous old held isLink was => ?_⟩
  · rw [Keys.find_set] at held
    split_ifs at held with same
    · cases held
      subst same
      exact ⟨inSpace, List.mem_cons_self ..⟩
    · exact ⟨(sound.own at_ other held).1, List.mem_cons_of_mem _ (sound.own at_ other held).2⟩
  · rw [Keys.find_set] at held
    split_ifs at held with same
    · cases held
      exact List.mem_cons_of_mem _ (link previous isLink).1
    · exact List.mem_cons_of_mem _ (sound.linked at_ other previous held isLink)
  · rw [Keys.find_set] at held
    split_ifs at held with same
    · cases held
      subst same
      have apart : ((space, id) : CompositeKey) ≠ (space, previous) := by
        intro equal
        cases equal
        exact fresh (link _ isLink).1
      rw [Keys.find_set_of_ne _ apart] at was
      exact ((link previous isLink).2.2 old was).2
    · rw [Keys.find_set_of_ne _ (unknown held isLink)] at was
      exact sound.versions at_ other previous old held isLink was
  · rw [Keys.find_set] at isOne isTwo
    split_ifs at isOne with same <;> split_ifs at isTwo with same'
    · cases same
      cases same'
      rfl
    · cases isOne
      cases same
      exact absurd isLink' ((link previous isLink).2.1 second two isTwo)
    · cases isTwo
      cases same'
      exact absurd isLink ((link previous isLink').2.1 first one isOne)
    · exact sound.unique space' first second one two previous isOne isTwo isLink isLink'
  · rw [Keys.find_set] at held
    split_ifs at held with same
    · cases held
      subst same
      have apart : ((space, id) : CompositeKey) ≠ (space, previous) := by
        intro equal
        cases equal
        exact fresh (link _ isLink).1
      rw [Keys.find_set_of_ne _ apart] at was
      exact ((link previous isLink).2.2 old was).1
    · rw [Keys.find_set_of_ne _ (unknown held isLink)] at was
      exact sound.superseded at_ other previous old held isLink was

theorem add_linked (sound : Sound keys drawn) {space : String} {keyId : KeyId} {draws : KeyDraws}
    {old current : Key} {material : Bytes × Bytes} (fresh : draws.id ∉ drawn)
    (there : keys[((space, keyId) : CompositeKey)]? = some current) (retired : current.Retired)
    (sameVersion : current.version = old.version) (bound : old.version.toNat + 1 < 2 ^ 32)
    (unsucceeded : Unsucceeded keys space keyId) :
    Sound (keys.set (space, draws.id) (linkedKey space keyId old draws material))
      (draws.id :: drawn) := by
  refine sound.add fresh rfl fun previous link => ?_
  obtain rfl : keyId = previous := Option.some.inj link
  refine ⟨(sound.own _ _ there).2, unsucceeded, fun earlier held => ?_⟩
  rw [there] at held
  cases held
  refine ⟨retired, ?_⟩
  rw [sameVersion]
  show (old.version + 1).toNat = _
  rw [UInt32.toNat_add]
  exact Nat.mod_eq_of_lt bound

end Sound

theorem sound_serve (sound : Sound session.vault.keys session.drawn) {call : ManagerCall}
    (orderly : Orderly codec session call) :
    Sound (session.serve codec call).1.vault.keys (session.serve codec call).1.drawn := by
  have drawn : (session.serve codec call).1.drawn = call.draws ++ session.drawn := rfl
  have step := keysStep_serve codec session call
  rw [drawn]
  generalize (session.serve codec call).1.vault.keys = after at step
  cases step with
  | same => exact sound.mono _
  | generated spec draws faults material fresh =>
    exact sound.add orderly rfl fun previous link => nomatch link
  | linked space keyId draws faults old material got fresh fails =>
    obtain ⟨unused, known⟩ := orderly
    have there := (get_eq_ok.mp got).1
    obtain ⟨-, bound, unsucceeded, retired⟩ := known old there
    exact sound.add_linked unused there (retired.resolve_right (not_not.mpr fails)) rfl bound
      unsucceeded
  | rotated space keyId draws faults old material got fresh =>
    obtain ⟨unused, known⟩ := orderly
    have there := (get_eq_ok.mp got).1
    obtain ⟨forward, bound, unsucceeded, -⟩ := known old there
    have apart : ((space, draws.id) : CompositeKey) ≠ (space, keyId) := by
      intro same
      rw [same, there] at fresh
      cases fresh
    rw [Keys.set_comm _ apart]
    refine (sound.restate there forward).add_linked unused (Keys.find_set_self ..) (.inl rfl) rfl
      bound ?_
    -- The deactivated key has the link it had, and the others are as before.
    intro id other held
    rw [Keys.find_set] at held
    split_ifs at held with same
    · cases held
      exact unsucceeded keyId old there
    · exact unsucceeded id other held
  | restated space keyId state faults key got =>
    have there := (get_eq_ok.mp got).1
    exact sound.restate there (orderly key there)
  | erased space keyId faults => exact sound.erase _

def Session.Within (session : Session) (allowed : KeyState → Prop) (at_ : CompositeKey) : Prop :=
  at_.2 ∈ session.drawn ∧
    ∀ key, session.vault.keys[at_]? = some key → allowed key.state

theorem within_serve {allowed : KeyState → Prop} {at_ : CompositeKey} {call : ManagerCall}
    (closed : ∀ state next, allowed state → state.mayBecome next = true → allowed next)
    (within : session.Within allowed at_) (orderly : Orderly codec session call) :
    (session.serve codec call).1.Within allowed at_ := by
  have drawn : (session.serve codec call).1.drawn = call.draws ++ session.drawn := rfl
  have step := keysStep_serve codec session call
  refine ⟨by rw [drawn]; exact List.mem_append_right _ within.1, ?_⟩
  generalize (session.serve codec call).1.vault.keys = after at step
  have apart : ∀ {space : String} {id : KeyId}, id ∉ session.drawn →
      ((space, id) : CompositeKey) ≠ at_ := by
    rintro space id fresh rfl
    exact fresh within.1
  cases step with
  | same => exact within.2
  | generated spec draws faults material fresh =>
    intro key held
    rw [Keys.find_set_of_ne _ (apart orderly)] at held
    exact within.2 key held
  | linked space keyId draws faults old material got fresh fails =>
    intro key held
    rw [Keys.find_set_of_ne _ (apart orderly.1)] at held
    exact within.2 key held
  | rotated space keyId draws faults old material got fresh =>
    have there := (get_eq_ok.mp got).1
    intro key held
    rw [Keys.find_set] at held
    split_ifs at held with same
    · cases held
      subst same
      exact closed _ _ (within.2 old there) (orderly.2 old there).1
    · rw [Keys.find_set_of_ne _ (apart orderly.1)] at held
      exact within.2 key held
  | restated space keyId state faults old got =>
    have there := (get_eq_ok.mp got).1
    intro key held
    rw [Keys.find_set] at held
    split_ifs at held with same
    · cases held
      subst same
      exact closed _ _ (within.2 old there) (orderly old there)
    · exact within.2 key held
  | erased space keyId faults =>
    intro key held
    rw [Dict.find_erase] at held
    split_ifs at held
    exact within.2 key held

theorem get_served {space : String} {keyId : KeyId} {now : Instant} {key : Key}
    (served : (ManagerCall.get space keyId now, ManagerReply.found (.ok key)) ∈
      (session.serve codec (.get space keyId now)).2) :
    session.vault.keys[((space, keyId) : CompositeKey)]? = some key ∧ key.state = .active := by
  have reply : ManagerReply.found (.ok key) =
      ((ManagerCall.program codec (.get space keyId now)).runAlone session.vault).1 :=
    (Prod.ext_iff.mp (List.mem_singleton.mp served)).2
  simp only [ManagerCall.program, runAlone_bind, runAlone_pure, getKey, storeGet,
    runAlone_atomically, ManagerReply.found.injEq] at reply
  cases got : session.vault.keys.get space keyId with
  | error failure =>
    rw [got] at reply
    cases reply
  | ok found =>
    rw [got] at reply
    simp only at reply
    split_ifs at reply with unusable reached
    · cases reply
    · cases reply
    · cases reply
      refine ⟨(get_eq_ok.mp got).1, ?_⟩
      have usable : key.canUse now = true := Bool.not_eq_false _ ▸ unusable
      exact (of_decide_eq_true usable).1

abbrev Session.run (codec : KeyCodec) (session : Session) (calls : List ManagerCall) :
    Session × List (ManagerCall × ManagerReply) :=
  trace (Session.serve codec) session calls

def Session.Gone (session : Session) (at_ : CompositeKey) : Prop :=
  at_.2 ∈ session.drawn ∧ ∀ key, session.vault.keys[at_]? = some key → key.Retired

theorem gone_never_got {at_ : CompositeKey} (calls : List ManagerCall) (gone : session.Gone at_)
    (orderly : Along (Orderly codec) (Session.serve codec) session calls) (now : Instant) (key : Key) :
    (ManagerCall.get at_.1 at_.2 now, ManagerReply.found (.ok key)) ∉
      (session.run codec calls).2 := by
  refine fun member => trace_outputs (fun session => session.Gone at_)
    (· ≠ (ManagerCall.get at_.1 at_.2 now, ManagerReply.found (.ok key)))
    (fun session call _ gone orderly => ⟨?_, fun event served isGet => ?_⟩) session gone orderly _
    member rfl
  · have isGone : session.Within (fun state => state = .deactivated ∨ state = .compromised ∨
        state = .destroyed) at_ := gone
    refine within_serve ?_ isGone orderly
    intro state next allowed forward
    revert forward
    rcases allowed with rfl | rfl | rfl <;> cases next <;> simp [KeyState.mayBecome]
  · -- The call that returned the key is this one.
    subst isGet
    obtain rfl : ManagerCall.get at_.1 at_.2 now = call :=
      (Prod.ext_iff.mp (List.mem_singleton.mp served)).1
    obtain ⟨there, active⟩ := get_served served
    have retired := gone.2 key there
    rw [Key.Retired, active] at retired
    simp at retired

theorem compromised_within {at_ : CompositeKey} (calls : List ManagerCall)
    (within : session.Within (fun state => state = .compromised ∨ state = .destroyed) at_)
    (orderly : Along (Orderly codec) (Session.serve codec) session calls) :
    (session.run codec calls).1.Within (fun state => state = .compromised ∨ state = .destroyed)
      at_ := by
  refine trace_invariant
    (fun session _ => session.Within (fun state => state = .compromised ∨ state = .destroyed) at_)
    (fun session past call within orderly => within_serve ?_ within orderly)
    calls session [] within orderly
  intro state next allowed forward
  revert forward
  rcases allowed with rfl | rfl <;> cases next <;> simp [KeyState.mayBecome]

def Succeeds (keys : Keys) (old new : CompositeKey) : Prop :=
  old.1 = new.1 ∧ keys[old]? ≠ none ∧
    ∃ key, keys[new]? = some key ∧ key.previousVersion = some old.2

/-- Versions count up, and one key of a chain is active at most. -/
structure WellChained (keys : Keys) : Prop where
  versions : ∀ space (new old : KeyId) key earlier,
    keys[((space, new) : CompositeKey)]? = some key → key.previousVersion = some old →
    keys[((space, old) : CompositeKey)]? = some earlier →
      key.version.toNat = earlier.version.toNat + 1
  -- The old version need not be stored any more.
  successors : ∀ space (first second : KeyId) key other old,
    keys[((space, first) : CompositeKey)]? = some key →
    keys[((space, second) : CompositeKey)]? = some other →
    key.previousVersion = some old → other.previousVersion = some old → first = second
  active : ∀ first second key other, Relation.EqvGen (Succeeds keys) first second →
    keys[first]? = some key → keys[second]? = some other →
    key.state = .active → other.state = .active → first = second

theorem Sound.wellChained {keys : Keys} {drawn : List KeyId} (sound : Sound keys drawn) :
    WellChained keys := by
  have successors : ∀ old new other, Succeeds keys old new → Succeeds keys old other →
      new = other := by
    rintro ⟨space, old⟩ ⟨_, new⟩ ⟨_, other⟩ ⟨rfl, -, key, held, link⟩ ⟨rfl, -, key', held', link'⟩
    rw [sound.unique space new other key key' old held held' link link']
  have tip : ∀ {at_ : CompositeKey} {key : Key}, keys[at_]? = some key → key.state = .active →
      IsTip (Succeeds keys) at_ := by
    rintro ⟨space, old⟩ key held active ⟨_, new⟩ ⟨rfl, -, later, there, link⟩
    have retired := sound.superseded (space, new) later old key there link held
    rw [Key.Retired, active] at retired
    simp at retired
  refine ⟨fun space new old key earlier held link was =>
    sound.versions (space, new) key old earlier held link was, sound.unique,
    fun first second key other linked held held' active active' => ?_⟩
  exact tip_unique successors (tip held active) (tip held' active') linked

namespace Known

def draw (id : KeyId) : KeyDraws := ⟨id, 0, .ok ([1], [2])⟩

def spec : KeySpec := ⟨.ed25519, "app", {}⟩

/-- No key is ever written. -/
def unused : KeyCodec := ⟨fun _ => .ok [], fun _ => .error "unused"⟩

def noFaults : Faults := fun _ => none

abbrev served (calls : List ManagerCall) : Session × List (ManagerCall × ManagerReply) :=
  (Session.start none).run unused calls

def reactivated : List ManagerCall :=
  [.generate spec (draw 1) noFaults, .updateState "app" 1 .compromised noFaults,
    .updateState "app" 1 .active noFaults, .get "app" 1 0]

def rotatedTwice : List ManagerCall :=
  [.generate spec (draw 1) noFaults, .rotate "app" 1 (draw 2) noFaults,
    .rotate "app" 1 (draw 3) noFaults]

def rotatedOnce : List ManagerCall :=
  [.generate spec (draw 1) noFaults, .rotate "app" 1 (draw 2) noFaults, .get "app" 1 0]

def chained (calls : List ManagerCall) (keyId : KeyId) : Option (KeyState × Option KeyId) :=
  (served calls).1.vault.keys[(("app", keyId) : CompositeKey)]?.map fun key =>
    (key.state, key.previousVersion)

end Known

open Known

theorem lifecycle_reversed :
    ((served reactivated).2.map Prod.snd).getLast? =
      some (.found (.ok (newKey spec (draw 1) ([1], [2])))) ∧
    chained rotatedTwice 2 = some (.active, some 1) ∧
    chained rotatedTwice 3 = some (.active, some 1) := by
  decide +kernel

/-- Retired keys are never got again, in every run of calls that follow the lifecycle. -/
theorem key_lifecycle (codec : KeyCodec) (storage : Option Backend) (calls : List ManagerCall)
    (orderly : Along (Orderly codec) (Session.serve codec) (.start storage) calls) :
    (∀ earlier later, calls = earlier ++ later → ∀ at_ : CompositeKey,
      let before := ((Session.start storage).run codec earlier).1
      (before.Gone at_ → ∀ now key, (ManagerCall.get at_.1 at_.2 now, ManagerReply.found (.ok key)) ∉
        (before.run codec later).2) ∧
      ∀ key, before.vault.keys[at_]? = some key →
        (key.Retired → before.Gone at_) ∧
        (key.state = .compromised → ∀ after, (before.run codec later).1.vault.keys[at_]? =
          some after → after.state = .compromised ∨ after.state = .destroyed)) ∧
    WellChained ((Session.start storage).run codec calls).1.vault.keys := by
  have sound : ∀ calls, Along (Orderly codec) (Session.serve codec) (.start storage) calls →
      Sound ((Session.start storage).run codec calls).1.vault.keys
        ((Session.start storage).run codec calls).1.drawn := by
    intro calls orderly
    refine trace_invariant (fun session _ => Sound session.vault.keys session.drawn)
      (fun session past call sound orderly => sound_serve sound orderly) calls _ [] ?_ orderly
    have none_ : ∀ at_ : CompositeKey, (∅ : Keys)[at_]? = none := fun at_ => by simp
    refine ⟨?_, ?_, ?_, ?_, ?_⟩ <;> intros <;> simp_all [Session.start]
  refine ⟨fun earlier later split at_ => ?_, (sound calls orderly).wellChained⟩
  subst split
  obtain ⟨before, after⟩ := along_append.mp orderly
  refine ⟨fun gone now key => gone_never_got later gone after now key, fun key held => ⟨?_, ?_⟩⟩
  · intro retired
    refine ⟨((sound earlier before).own at_ key held).2, fun other isOther => ?_⟩
    rw [held] at isOther
    cases isOther
    exact retired
  · intro compromised
    refine (compromised_within later ⟨((sound earlier before).own at_ key held).2,
      fun other isOther => ?_⟩ after).2
    rw [held] at isOther
    cases isOther
    exact .inl compromised

theorem key_lifecycle_rotated :
    (∀ now key, (ManagerCall.get "app" 1 now, ManagerReply.found (.ok key)) ∉
      (served rotatedOnce).2) ∧ WellChained (served rotatedOnce).1.vault.keys := by
  have keys : ((Session.start none).serve unused (.generate spec (draw 1) noFaults)).1.vault.keys =
      (∅ : Keys).set ("app", 1) (newKey spec (draw 1) ([1], [2])) := by rfl
  have generated : Orderly unused (.start none) (.generate spec (draw 1) noFaults) :=
    List.not_mem_nil
  have rotates : Orderly unused
      ((Session.start none).serve unused (.generate spec (draw 1) noFaults)).1
      (.rotate "app" 1 (draw 2) noFaults) := by
    refine ⟨by decide, fun key held => ?_⟩
    rw [keys, Keys.find_set_self] at held
    cases held
    refine ⟨rfl, by decide, fun id other there => ?_, .inr fun fails => fails.1 rfl⟩
    rw [keys, Keys.find_set] at there
    split_ifs at there
    · cases there
      exact fun link => nomatch link
    · simp at there
  obtain ⟨retired, chain⟩ :=
    key_lifecycle unused none rotatedOnce ⟨generated, rotates, trivial, trivial⟩
  refine ⟨fun now key member => ?_, chain⟩
  -- The rotation has deactivated the key before it is asked for.
  have state : chained (rotatedOnce.take 2) 1 = some (.deactivated, none) := by decide +kernel
  obtain ⟨old, held, isState⟩ := Option.map_eq_some_iff.mp state
  obtain ⟨never, known⟩ := retired (rotatedOnce.take 2) (rotatedOnce.drop 2) rfl ("app", 1)
  have gone := (known old held).1 (.inl (congrArg Prod.fst isState))
  rw [served, Session.run, ← List.take_append_drop 2 rotatedOnce, trace_append] at member
  rcases List.mem_append.mp member with before | after
  · simp [rotatedOnce, trace_cons, Session.serve] at before
  · exact never gone now key after

end Hsm.KeyManager
