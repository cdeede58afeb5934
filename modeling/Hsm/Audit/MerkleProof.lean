import Hsm.Audit.MerkleTree
import Hsm.Lib.MerklePath

/-! Inclusion proofs of the audit log's Merkle tree: every leaf has one, and nothing else has. -/

namespace Hsm

abbrev ProofElement := Merkle.Step String

structure MerkleProof where
  leafHash : String
  elements : List ProofElement
  deriving DecidableEq

/-- The proof of a hash; an index out of bounds panics. -/
def MerkleTree.generateProof (prim : AuditPrimitives) (tree : MerkleTree) (hash : String) :
    Option (Except MerkleError MerkleProof) :=
  match tree.leafIndices.lookup hash with
  | none => some (.error .hashNotFound)
  | some index =>
    (Merkle.pathTo (hashNode prim) tree.leaves.length (tree.leaves.map (hashLeaf prim)) index).map
      fun elements => .ok ⟨hash, elements⟩

def MerkleProof.verify (prim : AuditPrimitives) (proof : MerkleProof) (rootHash : String) : Bool :=
  Merkle.ascend (hashNode prim) (hashLeaf prim proof.leafHash) proof.elements = rootHash

namespace MerkleTree

inductive Grown (prim : AuditPrimitives) : List String → MerkleTree → Prop where
  | new : Grown prim [] .new
  | fromHashes (hashes : List String) : Grown prim hashes (.fromHashes prim hashes)
  | update {hashes : List String} {tree : MerkleTree} (grown : Grown prim hashes tree)
      (hash : String) : Grown prim (hashes ++ [hash]) (tree.update prim hash)

structure Indexed (prim : AuditPrimitives) (hashes : List String) (tree : MerkleTree) : Prop where
  leaves : tree.leaves = hashes
  built : tree.Built prim
  found : ∀ hash index, tree.leafIndices.lookup hash = some index → hashes[index]? = some hash
  complete : ∀ hash ∈ hashes, tree.leafIndices.lookup hash ≠ none

theorem Indexed.fromHashes (prim : AuditPrimitives) (hashes : List String) :
    Indexed prim hashes (.fromHashes prim hashes) where
  leaves := rfl
  built := rfl
  found := by
    intro hash index looked
    obtain ⟨later, earlier, split, -⟩ := List.lookup_eq_some_iff.mp looked
    have entries : hashes.zipIdx.reverse = later ++ (hash, index) :: earlier := split
    have member : (hash, index) ∈ hashes.zipIdx.reverse := by simp [entries]
    exact List.mem_zipIdx_iff_getElem?.mp (List.mem_reverse.mp member)
  complete := by
    intro hash member missing
    obtain ⟨index, here⟩ := List.mem_iff_getElem?.mp member
    have entry : (hash, index) ∈ hashes.zipIdx.reverse :=
      List.mem_reverse.mpr (List.mem_zipIdx_iff_getElem?.mpr here)
    have absent := List.lookup_eq_none_iff.mp missing (hash, index) entry
    simp at absent

theorem Indexed.update {prim : AuditPrimitives} {hashes : List String} {tree : MerkleTree}
    (indexed : Indexed prim hashes tree) (hash : String) :
    Indexed prim (hashes ++ [hash]) (tree.update prim hash) where
  leaves := by rw [update_leaves, indexed.leaves]
  built := update_built prim tree hash
  found := by
    intro other index looked
    simp only [MerkleTree.update, rebuild, List.lookup_cons] at looked
    split at looked
    · rename_i same
      obtain rfl := eq_of_beq same
      obtain rfl := Option.some.inj looked
      simp [indexed.leaves]
    · have here := indexed.found other index looked
      have inside : index < hashes.length := (List.getElem?_eq_some_iff.mp here).1
      rw [List.getElem?_append_left inside, here]
  complete := by
    intro other member missing
    simp only [MerkleTree.update, rebuild, List.lookup_cons] at missing
    split at missing
    · cases missing
    · rename_i different
      rcases List.mem_append.mp member with member | member
      · exact indexed.complete other member missing
      · obtain rfl := List.mem_singleton.mp member
        simp at different

theorem Grown.indexed {prim : AuditPrimitives} {hashes : List String} {tree : MerkleTree}
    (grown : Grown prim hashes tree) : Indexed prim hashes tree := by
  induction grown with
  | new => exact .fromHashes prim []
  | fromHashes hashes => exact .fromHashes prim hashes
  | update grown hash ih => exact ih.update hash

/-- Every leaf of a tree has a proof that leads to its root, and no other hash has one. -/
theorem generateProof_complete {prim : AuditPrimitives} {hashes : List String} {tree : MerkleTree}
    (grown : Grown prim hashes tree) (hash : String) :
    (hash ∈ hashes → ∃ proof root, tree.generateProof prim hash = some (.ok proof) ∧
        proof.leafHash = hash ∧ tree.getRoot = .ok root ∧ proof.verify prim root = true) ∧
      (hash ∉ hashes → tree.generateProof prim hash = some (.error .hashNotFound)) := by
  have indexed := grown.indexed
  refine ⟨fun member => ?_, fun absent => ?_⟩
  · cases looked : tree.leafIndices.lookup hash with
    | none => exact absurd looked (indexed.complete hash member)
    | some index =>
      -- The digest at the leaf's place starts a path to the root.
      have here : (tree.leaves.map (hashLeaf prim))[index]? = some (hashLeaf prim hash) := by
        rw [List.getElem?_map, indexed.leaves, indexed.found hash index looked]
        rfl
      obtain ⟨path, found, reached⟩ := Merkle.root_pathTo (hashNode prim) here
      rw [List.length_map] at found
      refine ⟨⟨hash, path⟩, _, ?_, rfl, ?_, decide_eq_true rfl⟩
      · rw [generateProof, looked]
        simp only [found, Option.map_some]
      · have rooted : tree.root = some _ := indexed.built.trans reached
        rw [getRoot, rooted]
  · cases looked : tree.leafIndices.lookup hash with
    | none => rw [generateProof, looked]
    | some index =>
      have here := indexed.found hash index looked
      exact absurd (List.mem_of_getElem? here) absent

end MerkleTree

theorem undecodable_nonempty {text : String} {e : FromHexError}
    (failed : hexDecode text = .error e) : 0 < (asBytes text).length := by
  apply List.length_pos_iff.mpr
  intro empty
  simp [hexDecode, empty, hexDecodeFrom] at failed

theorem auditHashing_opening (prim : AuditPrimitives) : (auditHashing prim).Opening where
  toBinding := auditHashing_binding prim
  leaf_ne_node := by
    -- The first byte tells leaves from nodes.
    intro value left right same
    simp only [auditHashing, leafInput, nodeInput] at same
    split at same
    · exact absurd (List.cons.inj same).1 (by decide)
    · exact absurd (List.cons.inj same).1 (by decide)
  left_read := by
    intro message beside left right same
    simp only [auditHashing, nodeInput_hexEncode] at same ⊢
    have widths := prim.sha256_length
    cases decoded : hexDecode beside with
    | ok other =>
      -- The digest is the first half of the message.
      simp only [nodeInput, hexDecode_hexEncode, decoded, List.cons.injEq, true_and] at same
      rw [(List.append_inj same (by rw [widths, widths])).1]
    | error e =>
      -- The text of the digest alone is as long as the message of two digests.
      simp only [nodeInput, hexDecode_hexEncode, decoded, List.cons.injEq, true_and] at same
      have lengths := congrArg List.length same
      have some := undecodable_nonempty decoded
      simp only [List.length_append, asBytes_hexEncode_length, widths] at lengths
      omega
  right_read := by
    intro message beside left right same
    simp only [auditHashing, nodeInput_hexEncode] at same ⊢
    have widths := prim.sha256_length
    cases decoded : hexDecode beside with
    | ok other =>
      -- The digest is the second half of the message.
      simp only [nodeInput, hexDecode_hexEncode, decoded, List.cons.injEq, true_and] at same
      rw [(List.append_inj' same (by rw [widths, widths])).2]
    | error e =>
      simp only [nodeInput, hexDecode_hexEncode, decoded, List.cons.injEq, true_and] at same
      have lengths := congrArg List.length same
      have some := undecodable_nonempty decoded
      simp only [List.length_append, asBytes_hexEncode_length, widths] at lengths
      omega

theorem collisionFree_of_heads {prim : AuditPrimitives} {messages distinct : List Bytes}
    (covered : ∀ message ∈ messages, message ∈ distinct)
    (apart : (distinct.map fun message => (prim.sha256 message).headD 0).Nodup) :
    (auditHashing prim).CollisionFree messages := by
  intro first one second two same
  have digests : prim.sha256 first = prim.sha256 second := hexEncode_injective same
  exact List.inj_on_of_nodup_map apart (covered first one) (covered second two)
    (by rw [digests])

def MerkleProof.messages (prim : AuditPrimitives) (proof : MerkleProof) : List Bytes :=
  (auditHashing prim).pathMessages proof.leafHash proof.elements

/-- A proof that verifies against the root of a tree is about one of its leaves. -/
theorem MerkleProof.verify_sound {prim : AuditPrimitives} {hashes : List String} {root : String}
    (rooted : (MerkleTree.fromHashes prim hashes).getRoot = .ok root) {proof : MerkleProof}
    (free : (auditHashing prim).CollisionFree
      ((auditHashing prim).messages hashes ++ proof.messages prim))
    (verified : proof.verify prim root = true) : proof.leafHash ∈ hashes := by
  have committed : (auditHashing prim).rootOf hashes = some root := by
    have built := (MerkleTree.Indexed.fromHashes prim hashes).built.getRoot_toOption
    rw [rooted] at built
    exact built.symm
  rw [Merkle.Hashing.rootOf_shapeOf] at committed
  obtain ⟨shape, made, top⟩ := Option.map_eq_some_iff.mp committed
  -- The path ends in the digest of the tree over the hashes, so it starts at one of its leaves.
  have inside : proof.leafHash ∈ shape.leaves := by
    apply Merkle.Hashing.mem_leaves_of_ascend (auditHashing_opening prim)
    · refine free.mono fun message member => ?_
      rcases List.mem_append.mp member with member | member
      · exact List.mem_append_left _
          ((auditHashing prim).shapeMessages_hashed made message member)
      · exact List.mem_append_right _ member
    · exact (of_decide_eq_true verified).trans top.symm
  apply Merkle.mem_of_mem_padded
  rw [Merkle.padded_shapeOf, made]
  exact inside

namespace Sample

def pairRoot : String :=
  hashNode .standard (hashLeaf .standard "h1") (hashLeaf .standard "h2")

def pairProof : MerkleProof := ⟨"h1", [⟨hashLeaf .standard "h2", false⟩]⟩

end Sample

theorem verify_sound_pair : Sample.pairProof.verify .standard Sample.pairRoot = true ∧
    Sample.pairProof.leafHash ∈ ["h1", "h2"] := by
  have rooted : (MerkleTree.fromHashes .standard ["h1", "h2"]).getRoot = .ok Sample.pairRoot := by
    simp [MerkleTree.getRoot, MerkleTree.fromHashes, MerkleTree.rebuild, Merkle.root, Merkle.climb,
      Merkle.level, Sample.pairRoot]
  have verified : Sample.pairProof.verify .standard Sample.pairRoot = true := by
    simp [MerkleProof.verify, Merkle.ascend, Merkle.Step.up, Sample.pairProof, Sample.pairRoot]
  have messages : Sample.pairProof.messages .standard =
      [leafInput "h1", nodeInput (hashLeaf .standard "h1") (hashLeaf .standard "h2")] := by
    simp [MerkleProof.messages, Merkle.Hashing.pathMessages, Merkle.Hashing.stepMessages,
      Merkle.Hashing.stepMessage, Sample.pairProof]
  have hashed : (auditHashing .standard).messages ["h1", "h2"] = [leafInput "h1", leafInput "h2",
      nodeInput (hashLeaf .standard "h1") (hashLeaf .standard "h2")] := by
    simp [Merkle.Hashing.messages, Merkle.Hashing.climbMessages, Merkle.Hashing.levelMessages,
      Merkle.level]
  have free : (auditHashing .standard).CollisionFree
      ((auditHashing .standard).messages ["h1", "h2"] ++ Sample.pairProof.messages .standard) := by
    rw [messages, hashed]
    refine collisionFree_of_heads (fun message member => ?_) (?_ : ([leafInput "h1",
      leafInput "h2", nodeInput (hashLeaf .standard "h1") (hashLeaf .standard "h2")].map
        fun message => (sha256 message).headD 0).Nodup)
    · simp only [List.mem_append, List.mem_cons, List.not_mem_nil, or_false] at member ⊢
      rcases member with (member | member | member) | member | member <;> simp [member]
    · decide +kernel
  exact ⟨verified, MerkleProof.verify_sound rooted free verified⟩

theorem generateProof_complete_leaves :
    (∃ proof root, (MerkleTree.fromHashes .standard ["h1", "h2", "h3"]).generateProof .standard
        "h3" = some (.ok proof) ∧ proof.leafHash = "h3" ∧
        (MerkleTree.fromHashes .standard ["h1", "h2", "h3"]).getRoot = .ok root ∧
        proof.verify .standard root = true) ∧
      (MerkleTree.fromHashes .standard ["h1", "h2", "h3"]).generateProof .standard "h4" =
        some (.error .hashNotFound) :=
  ⟨(MerkleTree.generateProof_complete (.fromHashes _) "h3").1 (by decide),
    (MerkleTree.generateProof_complete (.fromHashes _) "h4").2 (by decide)⟩

end Hsm
