import Hsm.Audit.Event

/-! Signed-root checkpoints, and the check of a live log against the latest one. -/

namespace Hsm

def checkpointDomain : Bytes := asBytes "hsm-audit-checkpoint-v1"

inductive CheckpointError where
  | integrityMismatch
  | tipBehindCheckpoint (checkpoint live : Nat)
  | rootMismatch (sequence : Nat) (checkpoint live : String)
  | serialization (text : String)
  deriving DecidableEq, Repr

/-- A persisted commitment to the audit log. -/
structure Checkpoint where
  sequence : Nat
  merkleRoot : String
  integrityTag : String
  deriving DecidableEq, Repr

def differingBits : UInt8 → Bytes → Bytes → UInt8
  | bits, x :: xs, y :: ys => differingBits (bits ||| (x ^^^ y)) xs ys
  | bits, _, _ => bits

def ctEq (first second : Bytes) : Bool :=
  if first.length ≠ second.length then false else differingBits 0 first second = 0

namespace Checkpoint

variable (prim : AuditPrimitives)

def computeTag (sequence : Nat) (merkleRoot : String) (key : Option Bytes) : String :=
  let input := checkpointDomain ++ leBytes 8 sequence ++ asBytes merkleRoot
  match key with
  | some k => hexEncode (prim.hmacSha256 k input)
  | none => hexEncode (prim.sha256 input)

def new (sequence : Nat) (merkleRoot : String) (key : Option Bytes) :
    Checkpoint :=
  ⟨sequence, merkleRoot, computeTag prim sequence merkleRoot key⟩

def verifyIntegrity (checkpoint : Checkpoint) (key : Option Bytes) :
    Except CheckpointError Unit :=
  let expected := computeTag prim checkpoint.sequence checkpoint.merkleRoot key
  if ctEq (asBytes expected) (asBytes checkpoint.integrityTag) then .ok ()
  else .error .integrityMismatch

def verifyAgainstLive (checkpoint : Checkpoint) (liveSequence : Nat) (liveRoot : Option String)
    (key : Option Bytes) : Except CheckpointError Unit :=
  match checkpoint.verifyIntegrity prim key with
  | .error e => .error e
  | .ok () =>
    if liveSequence < checkpoint.sequence then
      .error (.tipBehindCheckpoint checkpoint.sequence liveSequence)
    -- Roots are compared only if the live tip is exactly at the checkpoint.
    else if liveSequence = checkpoint.sequence then
      match liveRoot with
      | some root =>
        if root ≠ checkpoint.merkleRoot then
          .error (.rootMismatch checkpoint.sequence checkpoint.merkleRoot root)
        else .ok ()
      | none => .ok ()
    else .ok ()

end Checkpoint

theorem ctEq_self (bytes : Bytes) : ctEq bytes bytes = true := by
  -- Nothing is added to the collected bits at any position.
  have none : ∀ bits, differingBits bits bytes bytes = bits := by
    induction bytes with
    | nil => intro bits; rfl
    | cons byte rest ih =>
      intro bits
      simp [differingBits, ih]
  simp [ctEq, none]

@[simp] theorem Checkpoint.verifyIntegrity_new (prim : AuditPrimitives) (sequence : Nat)
    (merkleRoot : String) (key : Option Bytes) :
    (Checkpoint.new prim sequence merkleRoot key).verifyIntegrity prim key = .ok () := by
  simp [verifyIntegrity, new, ctEq_self]

/-- When a live log passes a checkpoint made under the same key. -/
theorem Checkpoint.verifyAgainstLive_new (prim : AuditPrimitives) (sequence : Nat)
    (merkleRoot : String) (key : Option Bytes) (liveSequence : Nat) (liveRoot : Option String) :
    (Checkpoint.new prim sequence merkleRoot key).verifyAgainstLive prim liveSequence liveRoot key =
        .ok () ↔
      sequence ≤ liveSequence ∧
        (liveSequence = sequence → ∀ root ∈ liveRoot, root = merkleRoot) := by
  -- The tag is right, so only the position of the tip and the root at that position decide.
  simp only [verifyAgainstLive, verifyIntegrity_new]
  simp only [new]
  rcases Nat.lt_trichotomy liveSequence sequence with behind | level | ahead
  · simp [behind]
  · subst level
    cases liveRoot with
    | none => simp
    | some root => by_cases same : root = merkleRoot <;> simp [same]
  · have notBehind : ¬ liveSequence < sequence := by omega
    have notLevel : liveSequence ≠ sequence := by omega
    simp [notBehind, notLevel, Nat.le_of_lt ahead]

end Hsm
