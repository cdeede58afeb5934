import Hsm.KeyManager.Manager
import Hsm.Lib.Succession

/-! Runs of calls on the key manager: lifecycle states and version chains. -/

namespace Hsm.KeyManager

def Key.Retired (key : Key) : Prop :=
  key.state = .deactivated ∨ key.state = .compromised ∨ key.state = .destroyed

instance (key : Key) : Decidable key.Retired := inferInstanceAs (Decidable (_ ∨ _))

/-- The manager, and the IDs drawn so far. -/
structure Session where
  vault : Vault
  drawn : List KeyId := []

def ManagerCall.draws : ManagerCall → List KeyId
  | .generate _ draws _ => [draws.id]
  | .rotate _ _ draws _ => [draws.id]
  | .updateState _ _ _ _ | .delete _ _ _ | .get _ _ _ => []

def Session.serve (codec : KeyCodec) (session : Session) (call : ManagerCall) :
    Session × List (ManagerCall × ManagerReply) :=
  let (reply, vault) := (call.program codec).runAlone session.vault
  (⟨vault, call.draws ++ session.drawn⟩, [(call, reply)])

def Session.start (storage : Option Backend) : Session := ⟨⟨∅, storage⟩, []⟩

section

variable (codec : KeyCodec) (faults : Faults) (vault : Vault)

open Script Vault

@[simp] theorem keys_persistKey (first : Nat) (space : String) (key : Key) :
    ((persistKey codec faults first space key).runAlone vault).2.keys = vault.keys := by
  rw [persistKey, runAlone_atomically]
  cases vault.storage <;> rfl

@[simp] theorem keys_persistExisting (first : Nat) (space : String) (keyId : KeyId) :
    ((persistExisting codec faults first space keyId).runAlone vault).2.keys = vault.keys := by
  rw [persistExisting, runAlone_bind, runAlone_atomically]
  cases vault.storage.isSome with
  | false => rfl
  | true =>
    simp only [runAlone_bind, storeGet, runAlone_atomically]
    cases vault.keys.get space keyId with
    | error failure => rfl
    | ok key => exact keys_persistKey codec faults vault first space key

theorem generateKey_cases (spec : KeySpec) (draws : KeyDraws) :
    (∃ failure, ((generateKey codec faults spec draws).runAlone vault).1 = .error failure ∧
      ((generateKey codec faults spec draws).runAlone vault).2.keys = vault.keys) ∨
    ∃ material, ((generateKey codec faults spec draws).runAlone vault).1 = .ok draws.id ∧
      vault.keys[((spec.namespace, draws.id) : CompositeKey)]? = none ∧
      ((generateKey codec faults spec draws).runAlone vault).2.keys =
        vault.keys.set (spec.namespace, draws.id) (newKey spec draws material) := by
  rw [generateKey]
  split_ifs with unsupported
  · exact .inl ⟨_, rfl, rfl⟩
  · cases draws.material with
    | error reason => exact .inl ⟨_, rfl, rfl⟩
    | ok material =>
      have kept : ((persistKey codec faults 0 spec.namespace
          (newKey spec draws material)).runAlone vault).2.keys = vault.keys := keys_persistKey ..
      simp only [runAlone_bind]
      cases persisted : (persistKey codec faults 0 spec.namespace
          (newKey spec draws material)).runAlone vault with
      | mk result after =>
        rw [persisted] at kept
        cases result with
        | error failure => exact .inl ⟨failure, rfl, kept⟩
        | ok written =>
          simp only [runAlone_bind, storeInsert, runAlone_atomically]
          rw [kept]
          cases there : vault.keys[((spec.namespace, draws.id) : CompositeKey)]? with
          | some other =>
            have refused : Keys.insert vault.keys spec.namespace (newKey spec draws material) =
                (.error (.keyAlreadyExists draws.id), vault.keys) := by
              rw [Keys.insert, show (newKey spec draws material).id = draws.id from rfl, there]
            rw [refused]
            exact .inl ⟨_, rfl, rfl⟩
          | none =>
            have inserted : Keys.insert vault.keys spec.namespace (newKey spec draws material) =
                (.ok (), vault.keys.set (spec.namespace, draws.id)
                  (newKey spec draws material)) := by
              rw [Keys.insert, show (newKey spec draws material).id = draws.id from rfl, there]
            rw [inserted]
            exact .inr ⟨material, rfl, rfl, rfl⟩

theorem updateState_cases (first : Nat) (space : String) (keyId : KeyId) (state : KeyState) :
    (∃ failure, vault.keys.get space keyId = .error failure ∧
      ((updateState codec faults first space keyId state).runAlone vault).2.keys = vault.keys) ∨
    ∃ key, vault.keys.get space keyId = .ok key ∧
      ((updateState codec faults first space keyId state).runAlone vault).2.keys =
        vault.keys.set (space, keyId) { key with state } := by
  simp only [updateState, runAlone_bind, storeUpdate, runAlone_atomically, Keys.update]
  cases vault.keys.get space keyId with
  | error failure => exact .inl ⟨failure, rfl, rfl⟩
  | ok key => exact .inr ⟨key, rfl, keys_persistExisting ..⟩

def linkedKey (space : String) (keyId : KeyId) (old : Key) (draws : KeyDraws)
    (material : Bytes × Bytes) : Key :=
  { newKey ⟨old.keyType, space, old.policy⟩ draws material with
    previousVersion := some keyId, version := old.version + 1 }

def WriteFails (codec : KeyCodec) (faults : Faults) (first : Nat) (vault : Vault) : Prop :=
  vault.storage ≠ none ∧ (faults first ≠ none ∨ faults (first + 1) ≠ none ∨
    faults (first + 2) ≠ none ∨ ∃ key reason, codec.toAllocvec key = .error reason)

theorem storage_persistKey (first : Nat) (space : String) (key : Key) :
    ((persistKey codec faults first space key).runAlone vault).2.storage ≠ none →
      vault.storage ≠ none := by
  rw [persistKey, runAlone_atomically]
  cases given : vault.storage with
  | none => exact fun there _ => there given
  | some backend => exact fun _ => Option.some_ne_none backend

theorem storage_generateKey (spec : KeySpec) (draws : KeyDraws)
    (there : ((generateKey codec faults spec draws).runAlone vault).2.storage ≠ none) :
    vault.storage ≠ none := by
  rw [generateKey] at there
  split_ifs at there with unsupported
  · exact there
  · cases drawn : draws.material with
    | error reason =>
      rw [drawn] at there
      exact there
    | ok material =>
      rw [drawn] at there
      simp only [runAlone_bind] at there
      apply storage_persistKey codec faults vault 0 spec.namespace
        (newKey spec draws material)
      cases persisted : (persistKey codec faults 0 spec.namespace
          (newKey spec draws material)).runAlone vault with
      | mk result after =>
        rw [persisted] at there
        cases result with
        | error failure => exact there
        | ok written =>
          simp only [runAlone_bind, storeInsert, runAlone_atomically] at there
          cases inserted : Keys.insert after.keys spec.namespace (newKey spec draws material) with
          | mk result keys =>
            rw [inserted] at there
            cases result with
            | error failure => exact there
            | ok _ => exact there

theorem persistKey_error {codec : KeyCodec} {faults : Faults} {vault : Vault}
    {first : Nat} {space : String} {key : Key} {failure : Error}
    (fails : ((persistKey codec faults first space key).runAlone vault).1 = .error failure) :
    WriteFails codec faults first vault := by
  rw [persistKey, runAlone_atomically] at fails
  cases given : vault.storage with
  | none =>
    rw [given] at fails
    cases fails
  | some backend =>
    rw [given] at fails
    refine ⟨by rw [given]; exact Option.some_ne_none backend, ?_⟩
    simp only [persistTo] at fails
    cases written : codec.toAllocvec key with
    | error reason => exact .inr (.inr (.inr ⟨key, reason, written⟩))
    | ok bytes =>
      rw [written] at fails
      cases listing : faults first with
      | some reason => exact .inl (Option.some_ne_none reason)
      | none =>
        cases creating : faults (first + 1) with
        | some reason => exact .inr (.inl (Option.some_ne_none reason))
        | none =>
          cases storing : faults (first + 2) with
          | some reason => exact .inr (.inr (.inl (Option.some_ne_none reason)))
          | none =>
            rw [listing, creating, storing] at fails
            simp at fails

/-- A rotation inserts a version and deactivates the old one, or does nothing. -/
theorem rotateKey_cases (space : String) (keyId : KeyId) (draws : KeyDraws) :
    ((rotateKey codec faults space keyId draws).runAlone vault).2.keys = vault.keys ∨
    ∃ old material, vault.keys.get space keyId = .ok old ∧
      vault.keys[((space, draws.id) : CompositeKey)]? = none ∧
      (((rotateKey codec faults space keyId draws).runAlone vault).2.keys =
          vault.keys.set (space, draws.id) (linkedKey space keyId old draws material) ∧
        WriteFails codec faults 3 vault ∨
      ((rotateKey codec faults space keyId draws).runAlone vault).2.keys =
        (vault.keys.set (space, draws.id) (linkedKey space keyId old draws material)).set
          (space, keyId) { old with state := .deactivated }) := by
  simp only [rotateKey, runAlone_bind, storeGet, runAlone_atomically]
  cases got : vault.keys.get space keyId with
  | error failure => exact .inl rfl
  | ok old =>
    simp only [runAlone_bind]
    have fewer := storage_generateKey codec faults vault
      ⟨old.keyType, space, old.policy⟩ draws
    rcases generateKey_cases codec faults vault
      ⟨old.keyType, space, old.policy⟩ draws with ⟨failure, fails, kept⟩ | ⟨material, made, fresh, keys⟩
    · refine .inl ?_
      cases generated : (generateKey codec faults ⟨old.keyType, space, old.policy⟩ draws).runAlone
          vault with
      | mk result after =>
        rw [generated] at fails kept
        cases fails
        exact kept
    · refine .inr ⟨old, material, rfl, fresh, ?_⟩
      cases generated : (generateKey codec faults ⟨old.keyType, space, old.policy⟩ draws).runAlone
          vault with
      | mk result after =>
        rw [generated] at made keys fewer
        cases made
        simp only at keys fewer ⊢
        -- The new key is there to be linked to the old one.
        have linked : after.keys.update space draws.id (fun key =>
            { key with previousVersion := some keyId, version := old.version + 1 }) =
            (.ok (), vault.keys.set (space, draws.id) (linkedKey space keyId old draws material)) := by
          have there : after.keys.get space draws.id =
              .ok (newKey ⟨old.keyType, space, old.policy⟩ draws material) := by
            rw [get_eq_ok, keys]
            exact ⟨Keys.find_set_self .., rfl⟩
          rw [Keys.update, there, keys]
          exact congrArg _ (Keys.set_set ..)
        simp only [storeUpdate, runAlone_bind, runAlone_atomically, linked]
        generalize isLinked : linkedKey space keyId old draws material = new at *
        cases relinked : (persistExisting codec faults 3 space draws.id).runAlone
            ⟨vault.keys.set (space, draws.id) new, after.storage⟩ with
        | mk result written =>
          have kept : written.keys = vault.keys.set (space, draws.id) new := by
            have same := keys_persistExisting codec faults
              ⟨vault.keys.set (space, draws.id) new, after.storage⟩ 3 space draws.id
            rw [relinked] at same
            exact same
          cases result with
          | error failure =>
            refine .inl ⟨kept, ?_⟩
            have fails : ((persistKey codec faults 3 space new).runAlone
                ⟨vault.keys.set (space, draws.id) new, after.storage⟩).1 = .error failure := by
              have there : (vault.keys.set (space, draws.id) new).get space draws.id = .ok new := by
                rw [get_eq_ok]
                exact ⟨Keys.find_set_self .., by rw [← isLinked]; rfl⟩
              simp only [persistExisting, runAlone_bind, runAlone_atomically] at relinked
              cases stored : after.storage.isSome with
              | false =>
                rw [stored] at relinked
                cases relinked
              | true =>
                simp only [stored, runAlone_bind, storeGet, runAlone_atomically, there] at relinked
                rw [relinked]
            exact ⟨fewer (persistKey_error fails).1, (persistKey_error fails).2⟩
          | ok _ =>
            refine .inr ?_
            have found : written.keys.get space keyId = .ok old := by
              rw [kept, get_eq_ok]
              obtain ⟨there, inSpace⟩ := get_eq_ok.mp got
              refine ⟨?_, inSpace⟩
              rw [Keys.find_set_of_ne, there]
              intro same
              rw [same, there] at fresh
              cases fresh
            simp only [runAlone_bind]
            rcases updateState_cases codec faults written 6 space keyId .deactivated with
              ⟨failure, fails, -⟩ | ⟨key, isKey, updated⟩
            · rw [found] at fails
              cases fails
            · rw [found] at isKey
              cases isKey
              rw [kept] at updated
              rw [← updated]
              cases (updateState codec faults 6 space keyId .deactivated).runAlone written with
              | mk result last => cases result <;> rfl

end

end Hsm.KeyManager
