import Hsm.Audit.Event

/-! The hash chain over audit events, in which every event carries the hash of the one before. -/

namespace Hsm

inductive HashChainError where
  | verificationFailed (sequence : Nat)
  | sequenceMismatch (expected actual : Nat)
  | invalidRange (first last : Nat)
  | eventNotFound (sequence : Nat)
  deriving DecidableEq, Repr

structure HashChain where
  events : List AuditEvent
  lastHash : String
  sequence : Nat

def verifyLinks (prim : AuditPrimitives) :
    Option AuditEvent → List AuditEvent → Except HashChainError Unit
  | _, [] => .ok ()
  | before, event :: rest =>
    if event.verifyHash prim = false then .error (.verificationFailed event.sequence)
    else
      match before with
      | none => verifyLinks prim (some event) rest
      | some previous =>
        if event.prevHash ≠ previous.currentHash then .error (.verificationFailed event.sequence)
        else verifyLinks prim (some event) rest

namespace HashChain

def new : HashChain := ⟨[], genesisHash, 0⟩

def append (prim : AuditPrimitives) (chain : HashChain) (event : AuditEvent) :
    Except HashChainError (HashChain × String) :=
  let expected := chain.sequence + 1
  if event.sequence ≠ expected then .error (.sequenceMismatch expected event.sequence)
  else
    -- Both hashes stored in the event are replaced, whatever they were.
    let linked := { event with prevHash := chain.lastHash }
    let hash := linked.computeHash prim
    .ok (⟨chain.events ++ [{ linked with currentHash := hash }], hash, expected⟩, hash)

def verify (prim : AuditPrimitives) (chain : HashChain) (first last : Nat) :
    Except HashChainError Unit :=
  if first > last then .error (.invalidRange first last)
  else if first = 0 ∨ last > chain.events.length then .error (.invalidRange first last)
  else
    -- The first event of the whole chain has no link to check.
    let before := if first = 1 then none else chain.events[first - 2]?
    verifyLinks prim before ((chain.events.drop (first - 1)).take (last - (first - 1)))

def verifyAll (prim : AuditPrimitives) (chain : HashChain) : Except HashChainError Unit :=
  if chain.events.length = 0 then .ok () else chain.verify prim 1 chain.events.length

end HashChain

def Linked (prim : AuditPrimitives) : String → List AuditEvent → Prop
  | _, [] => True
  | hash, event :: rest =>
    event.prevHash = hash ∧ event.currentHash = event.computeHash prim ∧
      Linked prim event.currentHash rest

def hashAfter (hash : String) (events : List AuditEvent) : String :=
  events.foldl (fun _ event => event.currentHash) hash

theorem verifyLinks_of_linked {prim : AuditPrimitives} {hash : String} {events : List AuditEvent}
    (linked : Linked prim hash events) {before : Option AuditEvent}
    (joined : ∀ previous ∈ before, previous.currentHash = hash) :
    verifyLinks prim before events = .ok () := by
  -- Each event passes its own check and becomes the event before the rest.
  induction events generalizing hash before with
  | nil => rfl
  | cons event rest ih =>
    obtain ⟨link, hashed, later⟩ := linked
    have verified : event.verifyHash prim = true := decide_eq_true hashed
    have rests : verifyLinks prim (some event) rest = .ok () := ih later (by simp)
    cases before with
    | none => simp [verifyLinks, verified, rests]
    | some previous =>
      have joins : event.prevHash = previous.currentHash := by rw [link, joined previous rfl]
      simp [verifyLinks, verified, joins, rests]

theorem Linked.append {prim : AuditPrimitives} {hash : String} {events : List AuditEvent}
    (linked : Linked prim hash events) {event : AuditEvent}
    (link : event.prevHash = hashAfter hash events)
    (hashed : event.currentHash = event.computeHash prim) : Linked prim hash (events ++ [event]) := by
  -- The new event sits behind the last one, at the end of the recursion.
  induction events generalizing hash with
  | nil => exact ⟨link, hashed, trivial⟩
  | cons first rest ih =>
    obtain ⟨link', hashed', later⟩ := linked
    exact ⟨link', hashed', ih later link⟩

namespace HashChain

/-- The chain is linked from the genesis hash, and counted. -/
structure WellLinked (prim : AuditPrimitives) (chain : HashChain) : Prop where
  linked : Linked prim genesisHash chain.events
  lastHash : chain.lastHash = hashAfter genesisHash chain.events
  sequence : chain.sequence = chain.events.length

theorem WellLinked.new (prim : AuditPrimitives) : HashChain.new.WellLinked prim :=
  ⟨trivial, rfl, rfl⟩

variable {prim : AuditPrimitives} {chain : HashChain}

theorem append_ok {next : HashChain} {event : AuditEvent} {hash : String}
    (appended : chain.append prim event = .ok (next, hash)) :
    event.sequence = chain.sequence + 1 ∧
      hash = { event with prevHash := chain.lastHash }.computeHash prim ∧
      next = ⟨chain.events ++ [{ event with prevHash := chain.lastHash, currentHash := hash }], hash,
        chain.sequence + 1⟩ := by
  -- The sequence check is the only way to fail.
  simp only [append] at appended
  split at appended
  · cases appended
  · rename_i expected
    cases appended
    exact ⟨not_not.mp expected, rfl, rfl⟩

theorem WellLinked.append {next : HashChain} {event : AuditEvent} {hash : String}
    (well : chain.WellLinked prim) (appended : chain.append prim event = .ok (next, hash)) :
    next.WellLinked prim := by
  obtain ⟨-, hashed, rfl⟩ := append_ok appended
  refine ⟨well.linked.append ?_ ?_, ?_, ?_⟩
  · exact well.lastHash
  · exact hashed
  · simp [hashAfter]
  · simp [well.sequence]

theorem WellLinked.verifyAll (well : chain.WellLinked prim) : chain.verifyAll prim = .ok () := by
  -- The range from one to the length is the whole chain, checked from its start.
  simp only [HashChain.verifyAll, verify]
  split
  · rfl
  · rename_i nonempty
    have inRange : ¬ (1 : Nat) > chain.events.length := by omega
    have bounds : ¬ ((1 : Nat) = 0 ∨ chain.events.length > chain.events.length) := by omega
    rw [if_neg inRange, if_neg bounds]
    have whole : (chain.events.drop (1 - 1)).take (chain.events.length - (1 - 1)) =
        chain.events := by simp
    simp only [if_true, whole]
    exact verifyLinks_of_linked well.linked (by simp)

end HashChain

end Hsm
