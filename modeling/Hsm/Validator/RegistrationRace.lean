import Hsm.Validator.ImportGuard

/-! Registrations in two unlocked steps, interleaved with the locked operations of other threads. -/

namespace Hsm

abbrev SizedKey := { key : Bytes // key.length = 48 }

namespace SlashingProtectionDb

variable (db : SlashingProtectionDb)

def registerCheck (env : Env) (publicKey : Bytes) :
    Except ValidatorError SizedKey :=
  if size : publicKey.length = 48 then
    match env.io.getValidator with
    | some e => .error (.database e)
    | none =>
      if db.trees.validators.tree.containsKey publicKey then
        .error (.validatorAlreadyExists (hexEncode publicKey))
      else .ok ⟨publicKey, size⟩
  else
    .error (.invalidPublicKey ("Expected 48 bytes, got " ++ toString publicKey.length))

/-- The insertion of a fresh entry. -/
def registerInsert (env : Env) (key : SizedKey) :
    SlashingProtectionDb × Except ValidatorError Unit :=
  db.updateValidatorData env {
    publicKey := key.val
    size := key.property
    status := .active
    minSourceEpoch := none
    minTargetEpoch := none
    minSlot := none
    createdAt := env.now
    updatedAt := env.now }

theorem registerValidator_eq_steps (env : Env) (publicKey : Bytes) :
    db.registerValidator env publicKey =
      match db.registerCheck env publicKey with
      | .error e => (db, .error e)
      | .ok key => db.registerInsert env key := by
  by_cases size : publicKey.length = 48
  · cases read : env.io.getValidator with
    | some e => simp [registerValidator, registerCheck, size, read]
    | none =>
      by_cases present : db.trees.validators.tree.containsKey publicKey = true
      · simp only [registerValidator, registerCheck, size, read, present, ↓reduceDIte, ↓reduceIte]
      · simp only [registerValidator, registerCheck, registerInsert, size, read, present,
          ↓reduceDIte, Bool.false_eq_true, ↓reduceIte]
  · simp [registerValidator, registerCheck, size]

theorem registerCheck_ok {db : SlashingProtectionDb} {env : Env} {publicKey : Bytes} {key : SizedKey}
    (checked : db.registerCheck env publicKey = .ok key) :
    db.trees.validators.tree.get key.val = none := by
  unfold registerCheck at checked
  split at checked
  · split at checked
    · cases checked
    · split at checked
      · cases checked
      · rename_i absent
        cases checked
        simpa using absent
  · cases checked

theorem registerInsert_minimum (env : Env) (key : SizedKey) (owner : Bytes) (bound : Bound) :
    (db.registerInsert env key).1.trees.minimum owner bound = db.trees.minimum owner bound ∨
      owner = key.val ∧ (db.registerInsert env key).1.trees.minimum owner bound = none := by
  unfold registerInsert updateValidatorData
  split
  · exact .inl rfl
  · rw [write_trees, Trees.minimum_putValidator]
    by_cases same : key.val = owner
    · right
      rw [if_pos same]
      exact ⟨same.symm, by cases bound <;> rfl⟩
    · left
      rw [if_neg same]

end SlashingProtectionDb

/-- A thread that has found a key free. -/
structure Registration where
  thread : Nat
  key : SizedKey

/-- A database, and threads between two steps. -/
structure Race where
  db : SlashingProtectionDb
  pending : List Registration := []

inductive RaceStep where
  | check (thread : Nat) (publicKey : Bytes) (env : Env)
  | insert (thread : Nat) (env : Env)
  | locked (request : Request)

variable (race : Race)

def Race.step : RaceStep → Race × List (Bytes × Bound × UInt64)
  | .check thread publicKey env =>
    match race.pending.find? (·.thread = thread), race.db.registerCheck env publicKey with
    | none, .ok key => ({ race with pending := ⟨thread, key⟩ :: race.pending }, [])
    | _, _ => (race, [])
  | .insert thread env =>
    match race.pending.find? (·.thread = thread) with
    | none => (race, [])
    | some waiting =>
      (⟨(race.db.registerInsert env waiting.key).1, race.pending.filter (·.thread ≠ thread)⟩, [])
  | .locked request =>
    let served := race.db.serve request
    ({ race with db := served.1 },
      match request.operation, served.2 with
      | .setMinSourceEpoch epoch, .done (.ok ()) => [(request.publicKey, .sourceEpoch, epoch)]
      | .setMinTargetEpoch epoch, .done (.ok ()) => [(request.publicKey, .targetEpoch, epoch)]
      | .setMinSlot slot, .done (.ok ()) => [(request.publicKey, .slot, slot)]
      | _, _ => [])

def RegistrationKeepsMinima (step : RaceStep) : Prop :=
  match step with
  | .locked _ => True
  | _ => ∀ publicKey bound minimum, race.db.trees.minimum publicKey bound = some minimum →
      (race.step step).1.db.trees.Guards publicKey bound minimum

/-- No minimum is set in the middle of a registration. -/
def SetsApart : RaceStep → Prop
  | .locked request => ∀ bound, (request.operation.minima bound).isSome →
      ∀ waiting ∈ race.pending, waiting.key.val ≠ request.publicKey
  | _ => True

instance (race : Race) : (step : RaceStep) → Decidable (SetsApart race step)
  | .locked request => inferInstanceAs (Decidable (∀ bound,
      (request.operation.minima bound).isSome →
        ∀ waiting ∈ race.pending, waiting.key.val ≠ request.publicKey))
  | .check _ _ _ => inferInstanceAs (Decidable True)
  | .insert _ _ => inferInstanceAs (Decidable True)

def Race.Unset : Prop :=
  ∀ waiting ∈ race.pending, ∀ bound, race.db.trees.minimum waiting.key.val bound = none

theorem Race.step_unset (step : RaceStep) (unset : race.Unset) (apart : SetsApart race step) :
    (race.step step).1.Unset := by
  cases step with
  | check thread publicKey env =>
    simp only [Race.step]
    split
    · rename_i key idle checked
      intro waiting member bound
      rcases List.mem_cons.mp member with rfl | before
      · simp [Trees.minimum, SlashingProtectionDb.registerCheck_ok checked]
      · exact unset waiting before bound
    · exact unset
  | insert thread env =>
    simp only [Race.step]
    split
    · exact unset
    · rename_i inserting found
      intro waiting member bound
      rcases race.db.registerInsert_minimum env inserting.key waiting.key.val bound with
        same | ⟨-, cleared⟩
      · exact same.trans (unset waiting (List.mem_of_mem_filter member) bound)
      · exact cleared
  | locked request =>
    intro waiting member bound
    rcases race.db.serve_settles request waiting.key.val bound with same | ⟨owner, set, -⟩
    · exact same.trans (unset waiting member bound)
    · exact absurd owner (apart bound set waiting member)

theorem Race.registrationKeepsMinima (step : RaceStep) (unset : race.Unset) :
    RegistrationKeepsMinima race step := by
  have still : ∀ publicKey bound minimum, race.db.trees.minimum publicKey bound = some minimum →
      race.db.trees.Guards publicKey bound minimum :=
    fun _ _ minimum stored => ⟨minimum, stored, UInt64.le_refl _⟩
  cases step with
  | locked request => trivial
  | check thread publicKey env =>
    simp only [RegistrationKeepsMinima, Race.step]
    split <;> exact still
  | insert thread env =>
    simp only [RegistrationKeepsMinima, Race.step]
    split
    · exact still
    · rename_i inserting found
      intro publicKey bound minimum stored
      rcases race.db.registerInsert_minimum env inserting.key publicKey bound with same | ⟨rfl, -⟩
      · exact ⟨minimum, same.trans stored, UInt64.le_refl _⟩
      · rw [unset inserting (List.mem_of_find?_eq_some found) bound] at stored
        cases stored

/-- Registrations lose no minimum, if none is set in the middle of one. -/
theorem registrations_keep_minima (db : SlashingProtectionDb) (steps : List RaceStep)
    (apart : Along SetsApart Race.step { db } steps) :
    Along RegistrationKeepsMinima Race.step { db } steps := by
  refine Along.of_invariant Race.Unset Race.step_unset
    (fun race step unset _ => race.registrationKeepsMinima step unset) steps _ ?_ apart
  intro waiting member
  cases member

def Sample.registered : List RaceStep :=
  [.check 0 key env, .insert 0 env, .locked ⟨key, .setMinSourceEpoch 10, env⟩,
    .check 1 key env, .insert 1 env]

theorem registrations_keep_minima_sample :
    (trace Race.step { db := .new } Sample.registered).2 = [(Sample.key, .sourceEpoch, 10)] ∧
      Along RegistrationKeepsMinima Race.step { db := .new } Sample.registered :=
  ⟨by decide +kernel, registrations_keep_minima .new Sample.registered (by decide +kernel)⟩

def Sample.racing : List RaceStep :=
  [.check 0 key env, .check 1 key env, .insert 1 env,
    .locked ⟨key, .setMinSourceEpoch 10, env⟩, .insert 0 env]

theorem late_registration_clears_minimum :
    (trace Race.step { db := .new } (Sample.racing.take 4)).2 =
        [(Sample.key, .sourceEpoch, 10)] ∧
      (trace Race.step { db := .new } (Sample.racing.take 4)).1.db.trees.minimum
        Sample.key .sourceEpoch = some 10 ∧
      (trace Race.step { db := .new } Sample.racing).1.db.trees.minimum
        Sample.key .sourceEpoch = none := by
  decide +kernel

end Hsm
