import Hsm.Lib.Sha256
import Mathlib.Data.ZMod.Basic

/-! The circuit of the Merkle root proof, and what its constraint says about the leaves. -/

namespace Hsm.ZkProofs

abbrev Fr := ZMod 21888242871839275222246405745257275088548364400416034343698204186575808495617

abbrev Hash32 := { bytes : Bytes // bytes.length = 32 }

def hashPair (left right : Hash32) : Hash32 := ⟨sha256 (left.1 ++ right.1), sha256_length _⟩

def nextLevel : List Hash32 → List Hash32
  | left :: right :: rest => hashPair left right :: nextLevel rest
  | odd => odd

def climb : Nat → List Hash32 → List Hash32
  | 0, nodes => nodes
  | height + 1, nodes => if nodes.length > 1 then climb height (nextLevel nodes) else nodes

def computeMerkleRoot (leaves : List Hash32) : Hash32 :=
  -- Every level has fewer nodes than the one below, so their number bounds the height.
  (climb leaves.length leaves).headD ⟨List.replicate 32 0, rfl⟩

def bytesToField (bytes : Bytes) : Fr := (leValue (bytes.take 31) : Fr)

inductive Variable where
  | one
  | input (index : Nat)
  | witness (index : Nat)
  deriving DecidableEq, Repr

structure Assignment where
  inputs : List Fr
  witnesses : List Fr
  deriving DecidableEq

abbrev LinearCombination := List (Fr × Variable)

/-- A product of linear combinations is the third. -/
structure Constraint where
  a : LinearCombination
  b : LinearCombination
  c : LinearCombination

def Assignment.value (assignment : Assignment) : Variable → Fr
  | .one => 1
  | .input index => assignment.inputs.getD index 0
  | .witness index => assignment.witnesses.getD index 0

def Assignment.combine (assignment : Assignment) (terms : LinearCombination) : Fr :=
  (terms.map fun term => term.1 * assignment.value term.2).sum

def Assignment.Satisfies (assignment : Assignment) (constraints : List Constraint) : Prop :=
  ∀ constraint ∈ constraints, assignment.combine constraint.a * assignment.combine constraint.b =
    assignment.combine constraint.c

structure MerkleProofCircuit where
  leafHashes : List Hash32
  merkleRoot : Hash32

namespace MerkleProofCircuit

def assigned (circuit : MerkleProofCircuit) : Assignment where
  inputs := [bytesToField circuit.merkleRoot.1]
  witnesses := circuit.leafHashes.map (fun leaf => bytesToField leaf.1) ++
    [bytesToField (computeMerkleRoot circuit.leafHashes).1]

def generateConstraints (circuit : MerkleProofCircuit) : List Constraint :=
  [⟨[(1, .input 0), (-1, .witness circuit.leafHashes.length)], [(1, .one)], []⟩]

end MerkleProofCircuit

/-- The leaf variables are of leaves with the public root. -/
def CorrectlyComputed (leaves : Nat) (assignment : Assignment) : Prop :=
  ∃ hashes : List Hash32, hashes.map (fun leaf => bytesToField leaf.1) =
      assignment.witnesses.take leaves ∧
    [bytesToField (computeMerkleRoot hashes).1] = assignment.inputs

/-- The constraint ties the root to no leaf. -/
theorem satisfies_iff (circuit : MerkleProofCircuit) (root computed : Fr) (leaves : List Fr)
    (size : leaves.length = circuit.leafHashes.length) :
    (Assignment.mk [root] (leaves ++ [computed])).Satisfies circuit.generateConstraints ↔
      root = computed := by
  simp [Assignment.Satisfies, MerkleProofCircuit.generateConstraints, Assignment.combine,
    Assignment.value, ← size, sub_eq_zero, ← sub_eq_add_neg]

/-- An encoding has 31 bytes, so it is never `2 ^ 248`. -/
theorem bytesToField_ne (bytes : Bytes) : bytesToField bytes ≠ ((2 ^ 248 : Nat) : Fr) := by
  intro same
  have bound : leValue (bytes.take 31) < 2 ^ 248 :=
    calc leValue (bytes.take 31)
      _ < 256 ^ (bytes.take 31).length := leValue_lt _
      _ ≤ 256 ^ 31 := Nat.pow_le_pow_right (by decide) (List.length_take_le ..)
      _ = 2 ^ 248 := by decide
  -- Both numbers are below the order of the field, so they would be the same number.
  have residues := (ZMod.natCast_eq_natCast_iff' _ _ _).mp same
  rw [Nat.mod_eq_of_lt (bound.trans (by decide)), Nat.mod_eq_of_lt (by decide)] at residues
  omega

/-- With any leaves, the constraint admits a root that no leaves have. -/
theorem merkle_circuit_never_sound (circuit : MerkleProofCircuit) (leaves : List Fr)
    (size : leaves.length = circuit.leafHashes.length) :
    let assignment : Assignment := ⟨[((2 ^ 248 : Nat) : Fr)], leaves ++ [((2 ^ 248 : Nat) : Fr)]⟩
    assignment.Satisfies circuit.generateConstraints ∧
      ¬ CorrectlyComputed leaves.length assignment := by
  refine ⟨(satisfies_iff circuit _ _ leaves size).mpr rfl, ?_⟩
  rintro ⟨hashes, -, rootValue⟩
  exact bytesToField_ne _ (List.singleton_inj.mp rootValue)

def zeroCircuit : MerkleProofCircuit :=
  ⟨[⟨List.replicate 32 0, rfl⟩], ⟨List.replicate 32 0, rfl⟩⟩

theorem unrelated_root_satisfies :
    (Assignment.mk [1] [0, 1]).Satisfies zeroCircuit.generateConstraints ∧
      ¬ CorrectlyComputed 1 ⟨[1], [0, 1]⟩ := by
  refine ⟨(satisfies_iff zeroCircuit 1 1 [0] rfl).mpr rfl, ?_⟩
  rintro ⟨hashes, leafValues, rootValue⟩
  -- There is one leaf, and it is the root.
  obtain ⟨leaf, rfl⟩ := List.length_eq_one_iff.mp (by simpa using congrArg List.length leafValues)
  have same : [(0 : Fr)] = [1] := leafValues.symm.trans rootValue
  exact absurd same (by decide)

/-- Three leaves, of which the last moves up unpaired. -/
def pairedCircuit : MerkleProofCircuit :=
  ⟨List.replicate 3 ⟨List.replicate 32 7, rfl⟩, ⟨List.replicate 32 0, rfl⟩⟩

theorem merkle_circuit_never_sound_paired :
    (Assignment.mk [((2 ^ 248 : Nat) : Fr)] ([1, 2, 3] ++ [((2 ^ 248 : Nat) : Fr)])).Satisfies
        pairedCircuit.generateConstraints ∧
      ¬ CorrectlyComputed 3 ⟨[((2 ^ 248 : Nat) : Fr)], [1, 2, 3] ++ [((2 ^ 248 : Nat) : Fr)]⟩ :=
  merkle_circuit_never_sound pairedCircuit [1, 2, 3] rfl

end Hsm.ZkProofs
