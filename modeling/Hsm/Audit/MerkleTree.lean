import Hsm.Audit.Event
import Hsm.Lib.Merkle

/-! The Merkle tree over event hashes, and the root as a commitment to them. -/

namespace Hsm

def leafPrefix : UInt8 := 0x00

def nodePrefix : UInt8 := 0x01

def leafInput (leafValue : String) : Bytes := leafPrefix :: asBytes leafValue

def nodeInput (left right : String) : Bytes :=
  match hexDecode left, hexDecode right with
  | .ok l, .ok r => nodePrefix :: (l ++ r)
  -- A child that is no hexadecimal text makes both count by their own characters.
  | _, _ => nodePrefix :: (asBytes left ++ asBytes right)

def hashLeaf (prim : AuditPrimitives) (leafValue : String) : String :=
  hexEncode (prim.sha256 (leafInput leafValue))

def hashNode (prim : AuditPrimitives) (left right : String) : String :=
  hexEncode (prim.sha256 (nodeInput left right))

inductive MerkleError where
  | emptyTree
  | hashNotFound
  | invalidProof
  deriving DecidableEq, Repr

structure MerkleTree where
  root : Option String
  leaves : List String
  leafIndices : List (String × Nat)

namespace MerkleTree

def new : MerkleTree := ⟨none, [], []⟩

variable (prim : AuditPrimitives)

def rebuild (tree : MerkleTree) : MerkleTree :=
  { tree with root := Merkle.root (hashNode prim) (tree.leaves.map (hashLeaf prim)) }

def fromHashes (hashes : List String) : MerkleTree :=
  rebuild prim ⟨none, hashes, hashes.zipIdx.reverse⟩

def update (tree : MerkleTree) (hash : String) : MerkleTree :=
  rebuild prim ⟨tree.root, tree.leaves ++ [hash], (hash, tree.leaves.length) :: tree.leafIndices⟩

def getRoot (tree : MerkleTree) : Except MerkleError String :=
  match tree.root with
  | some hash => .ok hash
  | none => .error .emptyTree

def verifyInclusion (tree : MerkleTree) (hash : String) : Bool :=
  (tree.leafIndices.lookup hash).isSome

end MerkleTree

variable (prim : AuditPrimitives)

def auditHashing : Merkle.Hashing String String Bytes where
  leafMessage := leafInput
  nodeMessage := nodeInput
  digest := fun message => hexEncode (prim.sha256 message)

@[simp] theorem auditHashing_leafMessage :
    (auditHashing prim).leafMessage = leafInput := rfl

@[simp] theorem auditHashing_nodeMessage :
    (auditHashing prim).nodeMessage = nodeInput := rfl

@[simp] theorem auditHashing_leaf :
    (auditHashing prim).leaf = hashLeaf prim := rfl

@[simp] theorem auditHashing_node :
    (auditHashing prim).node = hashNode prim := rfl

def merkleRoot (hashes : List String) : Option String :=
  (auditHashing prim).rootOf hashes

def NoCollision (hashes others : List String) : Prop :=
  (auditHashing prim).CollisionFree
    ((auditHashing prim).messages hashes ++ (auditHashing prim).messages others)

instance (prim : AuditPrimitives) (hashes others : List String) :
    Decidable (NoCollision prim hashes others) :=
  inferInstanceAs (Decidable ((auditHashing prim).CollisionFree _))

theorem nodeInput_hexEncode (left right : Bytes) :
    nodeInput (hexEncode left) (hexEncode right) = nodePrefix :: (left ++ right) := by
  simp [nodeInput, hexDecode_hexEncode]

theorem auditHashing_binding : (auditHashing prim).Binding where
  leaf_inj := by
    -- A leaf is found behind the separation byte, as its own bytes.
    intro first second same
    exact asBytes_injective (List.cons.inj same).2
  node_inj := by
    -- Digests have 32 bytes each, so the joined bytes split in one way only.
    intro left right left' right' same
    simp only [auditHashing, nodeInput_hexEncode, List.cons.injEq, true_and] at same ⊢
    have width : (prim.sha256 left).length = (prim.sha256 left').length := by
      rw [prim.sha256_length, prim.sha256_length]
    obtain ⟨lefts, rights⟩ := List.append_inj same width
    rw [lefts, rights]
    exact ⟨rfl, rfl⟩

/-- Without collisions, a root commits to a log of known length. -/
theorem merkleRoot_inj {prim : AuditPrimitives} {hashes others : List String}
    (length : hashes.length = others.length) (free : NoCollision prim hashes others)
    (same : merkleRoot prim hashes = merkleRoot prim others) : hashes = others :=
  Merkle.Hashing.rootOf_inj (auditHashing_binding prim) length free same

theorem merkleRoot_isSome {hashes : List String} (nonempty : 0 < hashes.length) :
    (merkleRoot prim hashes).isSome :=
  Merkle.root_isSome _ (by simpa using nonempty)

namespace MerkleTree

variable (prim : AuditPrimitives)

def Built (tree : MerkleTree) : Prop :=
  tree.root = merkleRoot prim tree.leaves

theorem Built.new (prim : AuditPrimitives) : MerkleTree.new.Built prim := rfl

@[simp] theorem update_leaves (tree : MerkleTree) (hash : String) :
    (tree.update prim hash).leaves = tree.leaves ++ [hash] := rfl

theorem update_built (tree : MerkleTree) (hash : String) :
    (tree.update prim hash).Built prim := rfl

theorem update_root (tree : MerkleTree) (hash : String) :
    ∃ root, (tree.update prim hash).root = some root := by
  -- The new hash is a leaf, so the tree is not empty.
  have nonempty : 0 < (tree.update prim hash).leaves.length := by simp
  rw [update_built prim tree hash]
  exact Option.isSome_iff_exists.mp (merkleRoot_isSome prim nonempty)

theorem Built.getRoot_toOption {prim : AuditPrimitives} {tree : MerkleTree}
    (built : tree.Built prim) : tree.getRoot.toOption = merkleRoot prim tree.leaves := by
  rw [← built, getRoot]
  cases tree.root <;> rfl

end MerkleTree

end Hsm
