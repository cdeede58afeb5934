import Hsm.Lib.Dict
import Hsm.Lib.Run
import Hsm.Lib.Sha256
import Hsm.Threshold.Feldman

/-! Sessions of a signing participant: no nonce is used twice, or for another message. -/

namespace Hsm.Threshold

structure SigningCommitment where
  participantId : ParticipantId
  commitmentBytes : Bytes
  deriving DecidableEq, Repr

/-- A nonce pair: its number among those the participant generates, and for which message it was. -/
structure SigningNonce where
  number : Nat
  generatedFor : Bytes
  deriving DecidableEq, Repr

structure SigningSession where
  message : Bytes
  nonce : SigningNonce
  commitment : SigningCommitment
  deriving DecidableEq, Repr

structure SigningParticipant where
  participantId : ParticipantId
  activeSessions : Dict Bytes SigningSession
  maxSessions : Nat
  generated : Nat

/-- A call of the function that makes a signature share. -/
structure NonceUse where
  nonce : SigningNonce
  message : Bytes
  deriving DecidableEq, Repr

namespace SigningParticipant

variable (participant : SigningParticipant)

def withMaxSessions (id : ParticipantId) (maxSessions : Nat) : SigningParticipant :=
  ⟨id, ∅, maxSessions, 0⟩

def hashMessage (message : Bytes) : Bytes := sha256 message

def startSigning (message : Bytes) (drawn : Outcome Bytes) :
    Outcome (SigningParticipant × SigningCommitment) := do
  .require (participant.activeSessions.size < participant.maxSessions) (.sessionError
    ("Maximum concurrent sessions (" ++ toString participant.maxSessions ++ ") reached"))
  let sessionKey := hashMessage message
  .require (sessionKey ∉ participant.activeSessions)
    (.sessionError "Session already exists for this message")
  let commitment := SigningCommitment.mk participant.participantId (← drawn)
  return ({ participant with
    activeSessions := participant.activeSessions.insert sessionKey
      ⟨message, ⟨participant.generated, message⟩, commitment⟩
    generated := participant.generated + 1 }, commitment)

def withSessions (sessions : Dict Bytes SigningSession) : SigningParticipant :=
  { participant with activeSessions := sessions }

@[simp] theorem withSessions_activeSessions (sessions : Dict Bytes SigningSession) :
    (participant.withSessions sessions).activeSessions = sessions := rfl

def sign (signShare : SigningNonce → Outcome Bytes) (message : Bytes)
    (allCommitments : List SigningCommitment) :
    SigningParticipant × List NonceUse × Outcome Bytes :=
  let sessionKey := hashMessage message
  match participant.activeSessions[sessionKey]? with
  | none => (participant, [], .fail (.sessionError "No active session for this message"))
  | some session =>
    let sessions := participant.activeSessions.erase sessionKey
    if session.message ≠ message then
      (participant.withSessions (sessions.insert sessionKey session), [],
        .fail (.signingFailed "Message does not match session"))
    else if allCommitments.all (·.participantId ≠ participant.participantId) then
      (participant.withSessions (sessions.insert sessionKey session), [],
        .fail (.signingFailed "Our commitment not found in the commitment list"))
    else (participant.withSessions sessions, [⟨session.nonce, message⟩], signShare session.nonce)

def abortSigning (message : Bytes) : SigningParticipant × Bool :=
  (participant.withSessions (participant.activeSessions.erase (hashMessage message)),
    participant.activeSessions.contains (hashMessage message))

def clearSessions : SigningParticipant := participant.withSessions ∅

end SigningParticipant

/-- Calls of a participant, with what the random source and the signing function return. -/
inductive SigningCall where
  | startSigning (message : Bytes) (drawn : Outcome Bytes)
  | sign (signShare : SigningNonce → Outcome Bytes) (message : Bytes)
      (allCommitments : List SigningCommitment)
  | abortSigning (message : Bytes)
  | clearSessions

def SigningParticipant.serve (participant : SigningParticipant) :
    SigningCall → SigningParticipant × List NonceUse
  | .startSigning message drawn =>
    match participant.startSigning message drawn with
    | .ok (next, _) => (next, [])
    | .error _ => (participant, [])
  | .sign signShare message allCommitments =>
    let result := participant.sign signShare message allCommitments
    (result.1, result.2.1)
  | .abortSigning message => ((participant.abortSigning message).1, [])
  | .clearSessions => (participant.clearSessions, [])

/-- Sessions hold different nonces, generated for their messages and not used before. -/
structure SigningParticipant.Fresh (participant : SigningParticipant) (past : List NonceUse) :
    Prop where
  usedOnce : (past.map (·.nonce.number)).Nodup
  usedFor : ∀ use ∈ past,
    use.nonce.number < participant.generated ∧ use.nonce.generatedFor = use.message
  held : ∀ (key : Bytes) session, participant.activeSessions[key]? = some session →
    session.nonce.number < participant.generated ∧ session.nonce.generatedFor = session.message ∧
      session.nonce.number ∉ past.map (·.nonce.number)
  distinct : ∀ (key other : Bytes) session session',
    participant.activeSessions[key]? = some session →
    participant.activeSessions[other]? = some session' →
    session.nonce.number = session'.nonce.number → key = other

namespace SigningParticipant.Fresh

variable {participant : SigningParticipant} {past : List NonceUse}

/-- Sessions that are dropped, or put back as they were, do no harm. -/
theorem withSessions (fresh : participant.Fresh past) {sessions : Dict Bytes SigningSession}
    (subset : ∀ (key : Bytes) session, sessions[key]? = some session →
      participant.activeSessions[key]? = some session) :
    (participant.withSessions sessions).Fresh past :=
  { fresh with
    held := fun key session stored => fresh.held key session (subset key session stored)
    distinct := fun key other session session' stored stored' =>
      fresh.distinct key other session session' (subset _ _ stored) (subset _ _ stored') }

theorem erase_subset {sessions : Dict Bytes SigningSession} {dropped : Bytes} (key : Bytes)
    (session : SigningSession) (stored : (sessions.erase dropped)[key]? = some session) :
    sessions[key]? = some session := by
  rw [Dict.find_erase] at stored
  split at stored
  · cases stored
  · exact stored

theorem putBack_subset {sessions : Dict Bytes SigningSession} {back : Bytes}
    {old : SigningSession} (wasStored : sessions[back]? = some old) (key : Bytes)
    (session : SigningSession)
    (stored : ((sessions.erase back).insert back old)[key]? = some session) :
    sessions[key]? = some session := by
  rw [Dict.find_insert] at stored
  split at stored
  · rename_i same
    exact same ▸ wasStored.trans stored
  · exact erase_subset key session stored

theorem startSigning (fresh : participant.Fresh past) {message : Bytes} {drawn : Outcome Bytes}
    {next : SigningParticipant} {commitment : SigningCommitment}
    (started : participant.startSigning message drawn = .ok (next, commitment)) :
    next.Fresh past := by
  simp only [SigningParticipant.startSigning, Outcome.bind_eq_ok] at started
  obtain ⟨-, -, -, -, bytes, -, ⟨⟩⟩ := started
  -- The new number is above all others, so that no session and no use can have it.
  have unused : participant.generated ∉ past.map (·.nonce.number) := by
    intro member
    obtain ⟨use, isUse, same⟩ := List.mem_map.mp member
    exact Nat.ne_of_lt (fresh.usedFor use isUse).1 same
  refine ⟨fresh.usedOnce, fun use isUse => ?_, fun key session stored => ?_,
    fun key other session session' stored stored' same => ?_⟩
  · exact (fresh.usedFor use isUse).imp_left Nat.lt_succ_of_lt
  · rw [Dict.find_insert] at stored
    split at stored
    · cases stored
      exact ⟨Nat.lt_succ_self _, rfl, unused⟩
    · exact (fresh.held key session stored).imp_left Nat.lt_succ_of_lt
  · rw [Dict.find_insert] at stored stored'
    split at stored <;> split at stored'
    · simp_all
    · cases stored
      exact absurd same.symm (Nat.ne_of_lt (fresh.held _ _ stored').1)
    · cases stored'
      exact absurd same (Nat.ne_of_lt (fresh.held _ _ stored).1)
    · exact fresh.distinct key other session session' stored stored' same

theorem sign_used (fresh : participant.Fresh past) {key : Bytes} {session : SigningSession}
    (stored : participant.activeSessions[key]? = some session) :
    (participant.withSessions (participant.activeSessions.erase key)).Fresh
      (past ++ [⟨session.nonce, session.message⟩]) := by
  have smaller := fresh.withSessions (@erase_subset participant.activeSessions key)
  obtain ⟨below, isFor, unused⟩ := fresh.held key session stored
  refine ⟨?_, ?_, fun other held isHeld => ?_, smaller.distinct⟩
  · simpa using fresh.usedOnce.concat unused
  · simp only [List.mem_append, List.mem_singleton]
    rintro use (member | rfl)
    · exact fresh.usedFor use member
    · exact ⟨below, isFor⟩
  · obtain ⟨isBelow, wasFor, wasUnused⟩ := smaller.held other held isHeld
    refine ⟨isBelow, wasFor, ?_⟩
    rw [List.map_append, List.mem_append]
    rintro (member | member)
    · exact wasUnused member
    · -- Only one session holds the nonce, and it is the one that is gone.
      have isKey := fresh.distinct other key held session (erase_subset other held isHeld) stored
        (List.mem_singleton.mp member)
      rw [isKey, withSessions_activeSessions, Dict.find_erase, if_pos rfl] at isHeld
      cases isHeld

theorem serve (fresh : participant.Fresh past) (call : SigningCall) :
    (participant.serve call).1.Fresh (past ++ (participant.serve call).2) := by
  cases call with
  | startSigning message drawn =>
    rw [SigningParticipant.serve]
    split
    · rename_i started
      simpa using fresh.startSigning started
    · simpa using fresh
  | sign signShare message allCommitments =>
    simp only [SigningParticipant.serve, SigningParticipant.sign]
    split
    · simpa using fresh
    · rename_i session stored
      split
      · simpa using fresh.withSessions (putBack_subset stored)
      · rename_i same
        split
        · simpa using fresh.withSessions (putBack_subset stored)
        · have used := fresh.sign_used stored
          rwa [not_not.mp same] at used
  | abortSigning message =>
    rw [SigningParticipant.serve, List.append_nil]
    exact fresh.withSessions erase_subset
  | clearSessions =>
    rw [SigningParticipant.serve, List.append_nil]
    exact fresh.withSessions fun key session stored => by simp at stored

end SigningParticipant.Fresh

/-- In every run, a nonce is used once at most, and for the message it was generated for. -/
theorem nonces_used_once (id : ParticipantId) (maxSessions : Nat) (calls : List SigningCall) :
    ((trace SigningParticipant.serve (.withMaxSessions id maxSessions) calls).2.map
        (·.nonce.number)).Nodup ∧
      ∀ use ∈ (trace SigningParticipant.serve (.withMaxSessions id maxSessions) calls).2,
        use.nonce.generatedFor = use.message := by
  have start : (SigningParticipant.withMaxSessions id maxSessions).Fresh [] :=
    ⟨by simp, by simp, by simp [SigningParticipant.withMaxSessions],
      by simp [SigningParticipant.withMaxSessions]⟩
  have fresh := trace_invariant SigningParticipant.Fresh (fun _ _ call fresh _ => fresh.serve call)
    calls _ [] start (Along.of_forall (fun _ _ _ => trivial) _)
  exact ⟨fresh.usedOnce, fun use isUse => (fresh.usedFor use isUse).2⟩

namespace Known

def signingCalls : List SigningCall :=
  let sign := SigningCall.sign (fun _ => .ok [1]) [7] [⟨⟨1⟩, [5]⟩]
  [.startSigning [7] (.ok [5]), sign, sign]

end Known

theorem nonces_used_once_in_session :
    (trace SigningParticipant.serve (.withMaxSessions ⟨1⟩ 16) Known.signingCalls).2 =
        [⟨⟨0, [7]⟩, [7]⟩] ∧
      (⟨⟨0, [7]⟩, [7]⟩ : NonceUse).nonce.generatedFor = [7] :=
  ⟨by decide +kernel, (nonces_used_once ⟨1⟩ 16 Known.signingCalls).2 _ (by decide +kernel)⟩

end Hsm.Threshold
