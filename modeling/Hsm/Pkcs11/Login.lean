import Hsm.Lib.Run
import Hsm.Lib.Dict
import Hsm.Lib.Sha256

/-! PKCS#11 sessions and logins through the exported functions. -/

namespace Hsm.Pkcs11

inductive CkRv where
  | ok | argumentsBad | sessionParallelNotSupported | slotIdInvalid | sessionHandleInvalid
  | userAlreadyLoggedIn | userNotLoggedIn | pinLocked | pinIncorrect | sessionReadOnly
  | userTypeInvalid
  deriving DecidableEq, Repr

inductive UserType where
  | so
  | user
  | other (value : UInt64)
  deriving DecidableEq, Repr

def maxPinAttempts : Nat := 3

structure Session where
  slotId : Nat
  readWrite : Bool
  loggedInUser : Option UserType
  pinAttempts : Nat
  pinHash : Option Bytes
  deriving DecidableEq, Repr

namespace Session

def new (slotId : Nat) (readWrite : Bool) : Session := ⟨slotId, readWrite, none, 0, none⟩

def checkUserType (session : Session) : UserType → CkRv
  | .so => if session.readWrite then .ok else .sessionReadOnly
  | .user => .ok
  | .other _ => .userTypeInvalid

def login (session : Session) (userType : UserType) (pin : Bytes) : Session × CkRv :=
  if session.loggedInUser.isSome then (session, .userAlreadyLoggedIn)
  else if maxPinAttempts ≤ session.pinAttempts then (session, .pinLocked)
  else if session.checkUserType userType ≠ .ok then (session, session.checkUserType userType)
  else
    let loggedIn := { session with pinAttempts := 0, loggedInUser := some userType }
    match session.pinHash with
    | some expectedHash =>
      if sha256 pin ≠ expectedHash then
        let failed := { session with pinAttempts := session.pinAttempts + 1 }
        (failed, if maxPinAttempts ≤ failed.pinAttempts then .pinLocked else .pinIncorrect)
      else (loggedIn, .ok)
    | none => (loggedIn, .ok)

def logout (session : Session) : Session × CkRv :=
  if session.loggedInUser.isNone then (session, .userNotLoggedIn)
  else ({ session with loggedInUser := none }, .ok)

end Session

structure Library where
  namespaces : List String
  sessions : Dict Nat Session
  nextSessionHandle : Nat

/-- The exported functions, with the flags looked at. -/
inductive Call where
  | openSession (slotId : Nat) (serial readWrite : Bool) (nullHandle : Bool)
  | closeSession (handle : Nat)
  | closeAllSessions (slotId : Nat)
  | login (handle : Nat) (userType : UserType) (pin : Bytes)
  | logout (handle : Nat)
  deriving DecidableEq, Repr

namespace Library

def withSession (library : Library) (handle : Nat) (change : Session → Session × CkRv) :
    Library × List CkRv :=
  match library.sessions[handle]? with
  | none => (library, [.sessionHandleInvalid])
  | some session =>
    ({ library with sessions := library.sessions.insert handle (change session).1 },
      [(change session).2])

def serve (library : Library) : Call → Library × List CkRv
  | .openSession slotId serial readWrite nullHandle =>
    if nullHandle then (library, [.argumentsBad])
    else if !serial then (library, [.sessionParallelNotSupported])
    else if library.namespaces.length ≤ slotId then (library, [.slotIdInvalid])
    else
      ({ library with
          nextSessionHandle := library.nextSessionHandle + 1
          sessions := library.sessions.insert library.nextSessionHandle (.new slotId readWrite) },
        [.ok])
  | .closeSession handle =>
    if library.sessions[handle]?.isSome then
      ({ library with sessions := library.sessions.erase handle }, [.ok])
    else (library, [.sessionHandleInvalid])
  | .closeAllSessions slotId =>
    if library.namespaces.length ≤ slotId then (library, [.slotIdInvalid])
    else
      ({ library with
          sessions := library.sessions.filter fun _ session => session.slotId ≠ slotId }, [.ok])
  | .login handle userType pin => library.withSession handle (·.login userType pin)
  | .logout handle => library.withSession handle Session.logout

def Pinless (library : Library) : Prop :=
  ∀ (handle : Nat) session, library.sessions[handle]? = some session →
    session.pinHash = none ∧ session.pinAttempts = 0

variable {library : Library}

theorem Pinless.insert (pinless : library.Pinless) {handle : Nat} {session : Session}
    (hash : session.pinHash = none) (attempts : session.pinAttempts = 0) (next : Nat) :
    Pinless ⟨library.namespaces, library.sessions.insert handle session, next⟩ := by
  intro other stored found
  rw [Dict.find_insert] at found
  split at found
  · cases found
    exact ⟨hash, attempts⟩
  · exact pinless other stored found

theorem login_pinless {session : Session} (hash : session.pinHash = none)
    (attempts : session.pinAttempts = 0) (userType : UserType) (pin : Bytes) :
    session.login userType pin =
      if session.loggedInUser.isSome then (session, .userAlreadyLoggedIn)
      else if session.checkUserType userType ≠ .ok then (session, session.checkUserType userType)
      else ({ session with loggedInUser := some userType }, .ok) := by
  simp [Session.login, hash, attempts, maxPinAttempts]

theorem Pinless.withSession (pinless : library.Pinless) (handle : Nat)
    {change : Session → Session × CkRv}
    (keeps : ∀ session : Session, session.pinHash = none → session.pinAttempts = 0 →
      (change session).1.pinHash = none ∧ (change session).1.pinAttempts = 0) :
    (library.withSession handle change).1.Pinless := by
  unfold Library.withSession
  cases found : library.sessions[handle]? with
  | none => exact pinless
  | some session =>
    obtain ⟨hash, attempts⟩ := pinless handle session found
    obtain ⟨noHash, noAttempts⟩ := keeps session hash attempts
    exact pinless.insert noHash noAttempts _

theorem Pinless.serve (pinless : library.Pinless) (call : Call) :
    (library.serve call).1.Pinless := by
  -- Only opening a session stores one that was not there, and it has no hash.
  cases call with
  | openSession slotId serial readWrite nullHandle =>
    simp only [Library.serve]
    split
    · exact pinless
    · split
      · exact pinless
      · split
        · exact pinless
        · exact pinless.insert rfl rfl _
  | closeSession handle =>
    simp only [Library.serve]
    split
    · intro other stored found
      rw [Dict.find_erase] at found
      split at found
      · cases found
      · exact pinless other stored found
    · exact pinless
  | closeAllSessions slotId =>
    simp only [Library.serve]
    split
    · exact pinless
    · intro other stored found
      rw [Dict.find_filter, Option.filter_eq_some_iff] at found
      exact pinless other stored found.1
  | login handle userType pin =>
    apply pinless.withSession
    intro session hash attempts
    rw [login_pinless hash attempts]
    split
    · exact ⟨hash, attempts⟩
    · split <;> exact ⟨hash, attempts⟩
  | logout handle =>
    apply pinless.withSession
    intro session hash attempts
    unfold Session.logout
    split <;> exact ⟨hash, attempts⟩

end Library

/-- A `C_Login` that reached a session of a slot. -/
structure Attempt where
  slotId : Nat
  pin : Bytes
  evaluated : Bool
  reply : CkRv
  deriving DecidableEq, Repr

/-- No check before that of the PIN stops a login. -/
def Session.evaluates (session : Session) (userType : UserType) : Bool :=
  session.loggedInUser.isNone && session.pinAttempts < maxPinAttempts &&
    session.checkUserType userType = .ok

/-- Wrong PINs evaluated for a slot since its last correct login. -/
def guesses (pins : Nat → Bytes) (slotId : Nat) (attempts : List Attempt) : Nat :=
  attempts.foldl (fun count attempt =>
    if attempt.slotId ≠ slotId || !attempt.evaluated then count
    else if attempt.pin ≠ pins slotId then count + 1
    else if attempt.reply = .ok then 0
    else count) 0

/-- Only the PIN of its slot logs in, and no slot evaluates too many wrong ones in a row. -/
structure Guarded (pins : Nat → Bytes) (attempts : List Attempt) : Prop where
  needed : ∀ attempt ∈ attempts, attempt.reply = .ok → attempt.pin = pins attempt.slotId
  bounded : ∀ slotId before, before <+: attempts → guesses pins slotId before ≤ maxPinAttempts

namespace Library

variable {library : Library} {pins : Nat → Bytes}

/-- The login attempt that a call makes. -/
def attempts (library : Library) : Call → List Attempt
  | .login handle userType pin =>
    match library.sessions[handle]? with
    | none => []
    | some session =>
      [⟨session.slotId, pin, session.evaluates userType, (session.login userType pin).2⟩]
  | _ => []

/-- Serve a call, and note the attempt it makes. -/
def watch (library : Library) (call : Call) : Library × List Attempt :=
  ((library.serve call).1, library.attempts call)

/-- Without a hash, every evaluated PIN logs in. -/
theorem Pinless.attempts (pinless : library.Pinless) (call : Call) :
    ∀ attempt ∈ library.attempts call, (attempt.reply = .ok ↔ attempt.evaluated = true) := by
  intro attempt member
  cases call with
  | login handle userType pin =>
    cases found : library.sessions[handle]? with
    | none => simp [Library.attempts, found] at member
    | some session =>
      obtain ⟨hash, none⟩ := pinless handle session found
      simp only [Library.attempts, found, List.mem_singleton] at member
      subst member
      simp only [login_pinless hash none, Session.evaluates, none]
      cases session.loggedInUser with
      | some other => simp
      | none => by_cases admitted : session.checkUserType userType = .ok <;>
          simp [admitted, maxPinAttempts]
  | _ => simp [Library.attempts] at member

theorem Pinless.watched (pinless : library.Pinless) (calls : List Call) :
    ∀ attempt ∈ (trace watch library calls).2,
      (attempt.reply = .ok ↔ attempt.evaluated = true) := by
  have along : Along (fun _ _ => True) watch library calls :=
    Along.of_forall (fun _ _ _ => trivial) library
  have step : ∀ state : Library, ∀ call ∈ calls, Pinless state → True →
      Pinless (watch state call).1 ∧ ∀ attempt ∈ (watch state call).2,
        (attempt.reply = .ok ↔ attempt.evaluated = true) :=
    fun _ call _ holds _ => ⟨holds.serve call, holds.attempts call⟩
  exact trace_outputs Pinless _ step library pinless along

/-- Right PINs are no guesses. -/
theorem guesses_eq_zero {slotId : Nat} {attempts : List Attempt}
    (right : ∀ attempt ∈ attempts, attempt.evaluated = true → attempt.pin = pins attempt.slotId) :
    guesses pins slotId attempts = 0 := by
  unfold guesses
  induction attempts with
  | nil => rfl
  | cons attempt rest ih =>
    have first := right attempt (by simp)
    rw [List.foldl_cons]
    by_cases ignored : (attempt.slotId ≠ slotId || !attempt.evaluated) = true
    · rw [if_pos ignored]
      exact ih fun other member => right other (by simp [member])
    · simp only [ne_eq, decide_not, Bool.or_eq_true, Bool.not_eq_eq_eq_not, Bool.not_true,
        decide_eq_false_iff_not, not_or, not_not, Bool.not_eq_false] at ignored
      obtain ⟨rfl, evaluated⟩ := ignored
      simp only [ne_eq, not_true, first evaluated, evaluated, decide_false, Bool.not_true,
        Bool.or_false, if_false, ite_self, Bool.false_eq_true]
      exact ih fun other member => right other (by simp [member])

/-- Logging in with any PIN and out again changes nothing that a later login sees. -/
theorem Pinless.relogins (pinless : library.Pinless) {handle : Nat} {session : Session}
    (found : library.sessions[handle]? = some session) (out : session.loggedInUser = none)
    (pin : Bytes) (count : Nat) :
    (trace watch library
        (List.replicate count [Call.login handle .user pin, .logout handle]).flatten).2 =
      List.replicate count ⟨session.slotId, pin, true, .ok⟩ := by
  induction count generalizing library with
  | zero => rfl
  | succ count ih =>
    obtain ⟨hash, none⟩ := pinless handle session found
    have loggedIn : session.login .user pin = ({ session with loggedInUser := some .user }, .ok) := by
      rw [login_pinless hash none, out]
      rfl
    have loggedOut : Session.logout { session with loggedInUser := some .user } =
        (session, .ok) := by
      rw [Session.logout, ← out]
      rfl
    have evaluated : session.evaluates .user = true := by
      simp [Session.evaluates, Session.checkUserType, out, none, maxPinAttempts]
    have restored : ((library.serve (.login handle .user pin)).1.serve
        (.logout handle)).1.sessions[handle]? = some session := by
      simp only [Library.serve, Library.withSession, found, loggedIn, Dict.find_insert_self, loggedOut]
    have later := ih ((pinless.serve (.login handle .user pin)).serve (.logout handle)) restored
    rw [List.replicate_succ, List.flatten_cons, List.cons_append, List.cons_append, List.nil_append,
      trace_cons, trace_cons, List.replicate_succ]
    simp only [watch, Library.attempts, found, evaluated, loggedIn, List.nil_append]
    exact congrArg (_ :: ·) later

theorem guesses_replicate {slotId : Nat} {pin : Bytes} (wrong : pin ≠ pins slotId) (count : Nat) :
    guesses pins slotId (List.replicate count ⟨slotId, pin, true, .ok⟩) = count := by
  have from_start : ∀ start, (List.replicate count (Attempt.mk slotId pin true .ok)).foldl
      (fun count attempt =>
        if attempt.slotId ≠ slotId || !attempt.evaluated then count
        else if attempt.pin ≠ pins slotId then count + 1
        else if attempt.reply = .ok then 0
        else count) start = start + count := by
    induction count with
    | zero => exact fun start => rfl
    | succ count ih =>
      intro start
      simpa [List.replicate_succ, wrong, Nat.add_assoc, Nat.add_comm 1] using ih (start + 1)
  rw [guesses, from_start, Nat.zero_add]

/-- Logins are guarded exactly in runs without wrong PINs, as every slot admits any number of
wrong ones in a row. -/
theorem logins_guarded_iff (namespaces : List String) (first : Nat) (pins : Nat → Bytes) :
    (∀ calls, Guarded pins (trace watch ⟨namespaces, ∅, first⟩ calls).2 ↔
      ∀ attempt ∈ (trace watch ⟨namespaces, ∅, first⟩ calls).2,
        attempt.evaluated = true → attempt.pin = pins attempt.slotId) ∧
    ∀ slotId count, slotId < namespaces.length →
      ∃ calls, guesses pins slotId (trace watch ⟨namespaces, ∅, first⟩ calls).2 = count ∧
        ∀ attempt ∈ (trace watch ⟨namespaces, ∅, first⟩ calls).2,
          attempt.reply = .ok ∧ attempt.pin ≠ pins attempt.slotId := by
  have start : Pinless ⟨namespaces, ∅, first⟩ := by
    intro handle session found
    simp at found
  constructor
  · intro calls
    have compared := start.watched calls
    constructor
    · exact fun guarded attempt member evaluated =>
        guarded.needed attempt member ((compared attempt member).mpr evaluated)
    · intro right
      refine ⟨fun attempt member reply => right attempt member
        ((compared attempt member).mp reply), fun slotId before among => ?_⟩
      rw [guesses_eq_zero fun attempt member => right attempt (among.subset member)]
      exact Nat.zero_le _
  · intro slotId count valid
    -- One session is enough: it is logged into with a wrong PIN, and out of, again and again.
    have wrong : pins slotId ++ [0] ≠ pins slotId := by simp
    have opened := start.serve (.openSession slotId true true false)
    have stored : ((Library.mk namespaces ∅ first).serve
        (.openSession slotId true true false)).1.sessions[first]? =
          some (.new slotId true) := by
      simp [serve, Nat.not_le.mpr valid]
    have logins := opened.relogins stored rfl (pins slotId ++ [0]) count
    refine ⟨.openSession slotId true true false :: (List.replicate count
      [Call.login first .user (pins slotId ++ [0]), .logout first]).flatten, ?_⟩
    rw [trace_cons]
    simp only [watch, attempts, List.nil_append] at logins ⊢
    rw [logins]
    refine ⟨guesses_replicate wrong count, fun attempt member => ?_⟩
    rw [List.eq_of_mem_replicate member]
    exact ⟨rfl, wrong⟩

/-- Any PIN logs in. -/
theorem wrong_pin_logs_in :
    (trace serve ⟨["default"], ∅, 1⟩
      [.openSession 0 true true false, .login 1 .user [0x30]]).2 = [.ok, .ok] := by
  decide +kernel

theorem logins_guarded_in_turn :
    let attempts := (trace watch ⟨["default", "backup"], ∅, 1⟩
      [.openSession 0 true true false, .openSession 1 true false false, .login 1 .user [0x31],
        .login 2 .so [0x30], .login 2 .user [0x32], .logout 1, .login 1 .so [0x31]]).2
    attempts.map Attempt.reply = [.ok, .sessionReadOnly, .ok, .ok] ∧
      Guarded (fun slotId => if slotId = 0 then [0x31] else [0x32]) attempts :=
  ⟨by decide +kernel, ((logins_guarded_iff ["default", "backup"] 1 _).1 _).mpr
    (by decide +kernel)⟩

end Library

end Hsm.Pkcs11
