import Hsm.Audit.MerkleProof

/-! Verification of stored events against a Merkle root, and what the root says about them. -/

namespace Hsm

inductive VerificationError where
  | merkleRootMismatch (expected actual : String)
  | eventNotInMerkleTree (sequence : Nat)
  | emptyLog
  deriving DecidableEq, Repr

def verifyMerkleTree (prim : AuditPrimitives) (events : List AuditEvent) (expectedRoot : String) :
    Except VerificationError Unit :=
  let hashes := events.map AuditEvent.currentHash
  let tree := MerkleTree.fromHashes prim hashes
  match tree.getRoot with
  | .error _ => .error .emptyLog
  | .ok actualRoot =>
    if actualRoot ≠ expectedRoot then .error (.merkleRootMismatch expectedRoot actualRoot)
    else
      -- Verify each event is in the tree
      match events.find? fun event => tree.verifyInclusion event.currentHash = false with
      | some event => .error (.eventNotInMerkleTree event.sequence)
      | none => .ok ()

theorem getRoot_eq_iff (prim : AuditPrimitives) (hashes others : List String) :
    (MerkleTree.fromHashes prim hashes).getRoot = (MerkleTree.fromHashes prim others).getRoot ↔
      merkleRoot prim hashes = merkleRoot prim others := by
  have first := (MerkleTree.Indexed.fromHashes prim hashes).built
  have second := (MerkleTree.Indexed.fromHashes prim others).built
  have one : (MerkleTree.fromHashes prim hashes).root = merkleRoot prim hashes := first
  have two : (MerkleTree.fromHashes prim others).root = merkleRoot prim others := second
  rw [MerkleTree.getRoot, MerkleTree.getRoot, one, two]
  cases merkleRoot prim hashes <;> cases merkleRoot prim others <;> simp

theorem verifyMerkleTree_ok_iff (prim : AuditPrimitives) (events : List AuditEvent)
    (root : String) :
    verifyMerkleTree prim events root = .ok () ↔
      (MerkleTree.fromHashes prim (events.map AuditEvent.currentHash)).getRoot = .ok root := by
  have indexed := MerkleTree.Indexed.fromHashes prim (events.map AuditEvent.currentHash)
  -- The tree is built from the very hashes that are looked up in it.
  have included : events.find? (fun event => (MerkleTree.fromHashes prim
      (events.map AuditEvent.currentHash)).verifyInclusion event.currentHash = false) = none := by
    rw [List.find?_eq_none]
    intro event member
    have present := Option.isSome_iff_ne_none.mpr
      (indexed.complete event.currentHash (List.mem_map.mpr ⟨event, member, rfl⟩))
    simp only [MerkleTree.verifyInclusion, present]
    decide
  simp only [verifyMerkleTree, included]
  cases (MerkleTree.fromHashes prim (events.map AuditEvent.currentHash)).getRoot with
  | error e => simp
  | ok actual =>
    by_cases same : actual = root
    · simp [same]
    · simp [same]

/-- Two lists have the same root exactly if padding makes the same list of them. -/
theorem merkleRoot_commits_to_padded {prim : AuditPrimitives} {hashes others : List String}
    (free : NoCollision prim hashes others) :
    ((MerkleTree.fromHashes prim hashes).getRoot = (MerkleTree.fromHashes prim others).getRoot ↔
        Merkle.padded hashes = Merkle.padded others) ∧
      (hashes.length = others.length ∨ (hashes.Nodup ∧ others.Nodup) →
        (MerkleTree.fromHashes prim hashes).getRoot = (MerkleTree.fromHashes prim others).getRoot →
        hashes = others) ∧
      ∀ (events logged : List AuditEvent) (root : String),
        events.map AuditEvent.currentHash = hashes → logged.map AuditEvent.currentHash = others →
        (MerkleTree.fromHashes prim others).getRoot = .ok root →
        (verifyMerkleTree prim events root = .ok () ↔
          Merkle.padded hashes = Merkle.padded others) := by
  have roots : (MerkleTree.fromHashes prim hashes).getRoot =
      (MerkleTree.fromHashes prim others).getRoot ↔
        Merkle.padded hashes = Merkle.padded others := by
    rw [getRoot_eq_iff]
    exact Merkle.Hashing.rootOf_eq_iff (auditHashing_opening prim).toCommitting free
  refine ⟨roots, ?_, ?_⟩
  · rintro (length | ⟨distinct, also⟩) same
    · exact Merkle.padded_inj_of_length length (roots.mp same)
    · exact Merkle.padded_inj_of_nodup distinct also (roots.mp same)
  · rintro events logged root rfl rfl rooted
    rw [verifyMerkleTree_ok_iff, ← rooted]
    exact roots

namespace Sample

def leaves : List String := ["h1", "h2", "h3"]

def repeated : List String := ["h1", "h2", "h3", "h3"]

theorem repeated_noCollision : NoCollision .standard leaves repeated := by
  -- The second tree hashes no other messages than the first, and only the third leaf's twice.
  have same : (auditHashing .standard).messages repeated =
      ((auditHashing .standard).messages leaves).insertIdx 3 (leafInput "h3") := by
    simp [leaves, repeated, Merkle.Hashing.messages, Merkle.Hashing.climbMessages,
      Merkle.Hashing.levelMessages, Merkle.level]
  have covered : ∀ message ∈ (auditHashing .standard).messages leaves ++
      (auditHashing .standard).messages repeated,
      message ∈ (auditHashing .standard).messages leaves := by
    intro message member
    rw [same, List.mem_append] at member
    rcases member with member | member
    · exact member
    · rcases List.eq_or_mem_of_mem_insertIdx member with rfl | member
      · exact List.mem_append_left _ (List.mem_map.mpr ⟨"h3", by decide, rfl⟩)
      · exact member
  exact collisionFree_of_heads covered (by decide +kernel)

end Sample

theorem repeated_leaf_same_root :
    NoCollision .standard Sample.leaves Sample.repeated ∧
      (MerkleTree.fromHashes .standard Sample.leaves).getRoot =
        (MerkleTree.fromHashes .standard Sample.repeated).getRoot ∧
      Sample.leaves ≠ Sample.repeated := by
  refine ⟨Sample.repeated_noCollision, ?_, by decide⟩
  rw [getRoot_eq_iff]
  exact (Merkle.Hashing.rootOf_eq_iff (auditHashing_opening .standard).toCommitting
    Sample.repeated_noCollision).mpr rfl

theorem merkleRoot_commits_to_padded_repeated :
    Merkle.padded Sample.leaves = Sample.repeated ∧
      (MerkleTree.fromHashes .standard Sample.leaves).getRoot =
        (MerkleTree.fromHashes .standard Sample.repeated).getRoot := by
  have padded : Merkle.padded Sample.leaves = Merkle.padded Sample.repeated := rfl
  exact ⟨rfl, (merkleRoot_commits_to_padded Sample.repeated_noCollision).1.mpr padded⟩

end Hsm
