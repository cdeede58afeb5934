import Hsm.Lib.MerkleShape
import Mathlib.Data.List.Induction

/-! Paths from a leaf to the root of a Merkle tree: how they are found, and what they prove. -/

namespace Hsm.Merkle

variable {α δ μ : Type}

/-- A sibling digest, and whether it is on the left. -/
structure Step (δ : Type) where
  hash : δ
  isLeft : Bool
  deriving DecidableEq, Repr

def Step.up (node : δ → δ → δ) (current : δ) (step : Step δ) : δ :=
  if step.isLeft then node step.hash current else node current step.hash

def ascend (node : δ → δ → δ) (current : δ) (path : List (Step δ)) : δ :=
  path.foldl (Step.up node) current

def pathTo (node : δ → δ → δ) : Nat → List δ → Nat → Option (List (Step δ))
  | 0, _, _ => some []
  | height + 1, nodes, index =>
    if nodes.length > 1 then
      -- The last node of an odd number is its own sibling.
      match nodes[if index % 2 = 0 then index + 1 else index - 1]? <|> nodes[index]? with
      | none => none
      | some sibling =>
        (pathTo node height (level node nodes) (index / 2)).map
          (⟨sibling, index % 2 ≠ 0⟩ :: ·)
    else some []

variable {nodes : List δ} {index : Nat} {current : δ}

theorem level_above (node : δ → δ → δ) (here : nodes[index]? = some current) :
    ∃ sibling,
      (nodes[if index % 2 = 0 then index + 1 else index - 1]? <|> nodes[index]?) = some sibling ∧
        (level node nodes)[index / 2]? =
          some (Step.up node current ⟨sibling, index % 2 ≠ 0⟩) := by
  -- The first pair makes the first node above, and the rest lies two positions further.
  induction nodes using level.induct generalizing index with
  | case1 left right rest ih =>
    rcases index with _ | _ | index
    · obtain rfl := Option.some.inj here
      exact ⟨right, rfl, rfl⟩
    · obtain rfl := Option.some.inj here
      exact ⟨left, rfl, rfl⟩
    · have further : rest[index]? = some current := here
      obtain ⟨sibling, beside, above⟩ := ih further
      have parity : (index + 2) % 2 = index % 2 := by omega
      have half : (index + 2) / 2 = index / 2 + 1 := by omega
      refine ⟨sibling, ?_, ?_⟩
      · rw [← beside, parity]
        split
        · rfl
        · -- An odd position is at least one, so the sibling is among the rest too.
          obtain ⟨before, rfl⟩ : ∃ before, index = before + 1 := ⟨index - 1, by omega⟩
          rfl
      · rw [half, parity]
        exact above
  | case2 last =>
    cases index with
    | zero =>
      obtain rfl := Option.some.inj here
      exact ⟨last, rfl, rfl⟩
    | succ index => cases here
  | case3 => cases here

theorem ascend_pathTo (node : δ → δ → δ) {height : Nat} (enough : nodes.length ≤ height)
    (here : nodes[index]? = some current) :
    ∃ path, pathTo node height nodes index = some path ∧
      climb node height nodes = [ascend node current path] := by
  -- Each step moves to the node above, on the level above.
  induction height generalizing nodes index current with
  | zero =>
    have empty : nodes = [] := List.length_eq_zero_iff.mp (by omega)
    rw [empty] at here
    cases here
  | succ height ih =>
    by_cases higher : nodes.length > 1
    · obtain ⟨sibling, beside, above⟩ := level_above node here
      have shorter : (level node nodes).length ≤ height := by
        rw [level_length]
        omega
      obtain ⟨path, found, reached⟩ := ih shorter above
      refine ⟨⟨sibling, index % 2 ≠ 0⟩ :: path, ?_, ?_⟩
      · rw [pathTo, if_pos higher, beside]
        simp only [found, Option.map_some]
      · rw [climb, if_pos higher, reached]
        rfl
    · -- A single node is the root, and the path to it is empty.
      refine ⟨[], by rw [pathTo, if_neg higher], ?_⟩
      rw [climb, if_neg higher]
      obtain ⟨only, rfl⟩ : ∃ only, nodes = [only] := by
        obtain ⟨inside, -⟩ := List.getElem?_eq_some_iff.mp here
        exact List.length_eq_one_iff.mp (by omega)
      cases index with
      | zero => rw [Option.some.inj here]; rfl
      | succ index => cases here

theorem root_pathTo (node : δ → δ → δ) (here : nodes[index]? = some current) :
    ∃ path, pathTo node nodes.length nodes index = some path ∧
      root node nodes = some (ascend node current path) := by
  obtain ⟨path, found, reached⟩ := ascend_pathTo node (Nat.le_refl _) here
  exact ⟨path, found, by rw [root, reached]; rfl⟩

namespace Hashing

variable (hashing : Hashing α δ μ)

def stepMessage (current : δ) (step : Step δ) : μ :=
  if step.isLeft then hashing.nodeMessage step.hash current
  else hashing.nodeMessage current step.hash

def stepMessages : δ → List (Step δ) → List μ
  | _, [] => []
  | current, step :: rest =>
    hashing.stepMessage current step :: stepMessages (step.up hashing.node current) rest

def pathMessages (value : α) (path : List (Step δ)) : List μ :=
  hashing.leafMessage value :: hashing.stepMessages (hashing.leaf value) path

/-- A digest can be read off a message on its own side. -/
structure Opening : Prop extends Committing hashing where
  left_read : ∀ message beside left right,
    hashing.nodeMessage (hashing.digest message) beside =
      hashing.nodeMessage (hashing.digest left) (hashing.digest right) →
    hashing.digest message = hashing.digest left
  right_read : ∀ message beside left right,
    hashing.nodeMessage beside (hashing.digest message) =
      hashing.nodeMessage (hashing.digest left) (hashing.digest right) →
    hashing.digest message = hashing.digest right

theorem up_node (current : δ) (step : Step δ) :
    step.up hashing.node current = hashing.digest (hashing.stepMessage current step) := by
  unfold Step.up stepMessage
  split <;> rfl

theorem stepMessages_append (current : δ) (path : List (Step δ)) (step : Step δ) :
    hashing.stepMessages current (path ++ [step]) =
      hashing.stepMessages current path ++
        [hashing.stepMessage (ascend hashing.node current path) step] := by
  induction path generalizing current with
  | nil => rfl
  | cons first rest ih => simp [stepMessages, ih, ascend]

theorem ascend_digest (value : α) (path : List (Step δ)) :
    ∃ message, hashing.digest message = ascend hashing.node (hashing.leaf value) path := by
  cases path using List.reverseRecOn with
  | nil => exact ⟨_, rfl⟩
  | append_singleton path step =>
    refine ⟨hashing.stepMessage (ascend hashing.node (hashing.leaf value) path) step, ?_⟩
    rw [← up_node, ascend, ascend, List.foldl_append]
    rfl

variable {hashing}

/-- A path from a leaf to the digest of a tree starts at a leaf of the tree. -/
theorem mem_leaves_of_ascend (opening : hashing.Opening) {shape : Shape α} {value : α}
    {path : List (Step δ)}
    (free : hashing.CollisionFree
      (hashing.shapeMessages shape ++ hashing.pathMessages value path))
    (same : ascend hashing.node (hashing.leaf value) path = hashing.digestOf shape) :
    value ∈ shape.leaves := by
  -- From the top: the last step hashed the message of the fork.
  induction path using List.reverseRecOn generalizing shape with
  | nil =>
    cases shape with
    | leaf other =>
      have messages := free (hashing.leafMessage other) (by simp [shapeMessages])
        (hashing.leafMessage value) (by simp [pathMessages]) same.symm
      rw [opening.leaf_inj other value messages]
      exact List.mem_singleton.mpr rfl
    | fork left right =>
      have messages := free
        (hashing.nodeMessage (hashing.digestOf left) (hashing.digestOf right))
        (by simp [shapeMessages]) (hashing.leafMessage value) (by simp [pathMessages]) same.symm
      exact absurd messages.symm (opening.leaf_ne_node _ _ _)
  | append_singleton path step ih =>
    obtain ⟨below, reached⟩ := hashing.ascend_digest value path
    have last : hashing.stepMessage (ascend hashing.node (hashing.leaf value) path) step ∈
        hashing.pathMessages value (path ++ [step]) := by
      simp [pathMessages, stepMessages_append]
    have lower : ∀ part : Shape α,
        (∀ message ∈ hashing.shapeMessages part, message ∈ hashing.shapeMessages shape) →
        hashing.CollisionFree (hashing.shapeMessages part ++ hashing.pathMessages value path) := by
      intro part included
      refine free.mono fun message member => ?_
      rcases List.mem_append.mp member with member | member
      · exact List.mem_append_left _ (included message member)
      · refine List.mem_append_right _ ?_
        simp only [pathMessages, stepMessages_append, List.mem_cons, List.mem_append] at member ⊢
        rcases member with first | member
        · exact .inl first
        · exact .inr (.inl member)
    have top : hashing.digest
        (hashing.stepMessage (ascend hashing.node (hashing.leaf value) path) step) =
          hashing.digestOf shape := by
      rw [← same, ascend, ascend, List.foldl_append, List.foldl_cons, List.foldl_nil, up_node]
    cases shape with
    | leaf other =>
      have messages := free (hashing.leafMessage other) (by simp [shapeMessages]) _
        (List.mem_append_right _ last) top.symm
      unfold stepMessage at messages
      split at messages
      · exact absurd messages (opening.leaf_ne_node _ _ _)
      · exact absurd messages (opening.leaf_ne_node _ _ _)
    | fork left right =>
      have messages := free _ (List.mem_append_right _ last)
        (hashing.nodeMessage (hashing.digestOf left) (hashing.digestOf right))
        (by simp [shapeMessages]) top
      obtain ⟨first, leftDigest⟩ := hashing.digestOf_digest left
      obtain ⟨second, rightDigest⟩ := hashing.digestOf_digest right
      rw [stepMessage, ← reached, ← leftDigest, ← rightDigest] at messages
      -- The current digest is read off the fork's message on its own side.
      split at messages
      · have child := opening.right_read below _ first second messages
        rw [reached, rightDigest] at child
        exact List.mem_append_right _
          (ih (lower right fun message member => by simp [shapeMessages, member]) child)
      · have child := opening.left_read below _ first second messages
        rw [reached, leftDigest] at child
        exact List.mem_append_left _
          (ih (lower left fun message member => by simp [shapeMessages, member]) child)

end Hashing

end Hsm.Merkle
