import Hsm.Lib.Merkle
import Mathlib.Data.List.Nodup

/-! The trees behind Merkle roots: roots commit to the leaves as padded at every level. -/

namespace Hsm.Merkle

variable {α δ ε μ : Type}

theorem level_map {node : δ → δ → δ} {other : ε → ε → ε} {f : δ → ε}
    (hom : ∀ left right, f (node left right) = other (f left) (f right)) (nodes : List δ) :
    (level node nodes).map f = level other (nodes.map f) := by
  induction nodes using level.induct with
  | case1 left right rest ih => simp [level, hom, ih]
  | case2 last => simp [level, hom]
  | case3 => rfl

theorem root_map {node : δ → δ → δ} {other : ε → ε → ε} {f : δ → ε}
    (hom : ∀ left right, f (node left right) = other (f left) (f right)) (nodes : List δ) :
    (root node nodes).map f = root other (nodes.map f) := by
  -- Both climbs go through levels of the same length.
  have climbs : ∀ (height : Nat) (nodes : List δ),
      (climb node height nodes).map f = climb other height (nodes.map f) := by
    intro height
    induction height with
    | zero => exact fun nodes => rfl
    | succ height ih =>
      intro nodes
      by_cases higher : nodes.length > 1
      · have alsoHigher : (nodes.map f).length > 1 := by simpa using higher
        rw [climb, climb, if_pos higher, if_pos alsoHigher, ih, level_map hom]
      · have alsoDone : ¬ (nodes.map f).length > 1 := by simpa using higher
        rw [climb, climb, if_neg higher, if_neg alsoDone]
  rw [root, root, List.length_map, ← climbs, List.head?_map]

/-- A binary tree with values at its leaves. -/
inductive Shape (α : Type) where
  | leaf (value : α)
  | fork (left right : Shape α)

namespace Shape

def leaves : Shape α → List α
  | .leaf value => [value]
  | .fork left right => left.leaves ++ right.leaves

/-- All leaves are at the same depth. -/
def Perfect : Nat → Shape α → Prop
  | 0, .leaf _ => True
  | height + 1, .fork left right => Perfect height left ∧ Perfect height right
  | _, _ => False

variable {height : Nat} {shape : Shape α}

theorem Perfect.leaves_length (perfect : Perfect height shape) :
    shape.leaves.length = 2 ^ height := by
  -- Each fork doubles the number of leaves.
  induction shape generalizing height with
  | leaf value =>
    cases height with
    | zero => rfl
    | succ height => exact perfect.elim
  | fork left right ihLeft ihRight =>
    cases height with
    | zero => exact perfect.elim
    | succ height =>
      rw [leaves, List.length_append, ihLeft perfect.1, ihRight perfect.2]
      omega

theorem Perfect.eq_of_leaves {other : Shape α} (perfect : Perfect height shape)
    (also : Perfect height other) (same : shape.leaves = other.leaves) : shape = other := by
  -- Both halves of the leaves have the same length, so they are equal one by one.
  induction shape generalizing height other with
  | leaf value =>
    cases height with
    | zero =>
      cases other with
      | leaf value' => rw [(List.cons.inj same).1]
      | fork left right => exact also.elim
    | succ height => exact perfect.elim
  | fork left right ihLeft ihRight =>
    cases height with
    | zero => exact perfect.elim
    | succ height =>
      cases other with
      | leaf value => exact also.elim
      | fork left' right' =>
        have width : left.leaves.length = left'.leaves.length := by
          rw [perfect.1.leaves_length, also.1.leaves_length]
        obtain ⟨lefts, rights⟩ := List.append_inj same width
        rw [ihLeft perfect.1 also.1 lefts, ihRight perfect.2 also.2 rights]

theorem Perfect.ext {height' : Nat} {other : Shape α} (perfect : Perfect height shape)
    (also : Perfect height' other) (same : shape.leaves = other.leaves) : shape = other := by
  -- The number of leaves tells the height.
  have powers : 2 ^ height = 2 ^ height' := by
    rw [← perfect.leaves_length, ← also.leaves_length, same]
  have heights : height = height' := (Nat.pow_right_inj (by omega)).mp powers
  subst heights
  exact perfect.eq_of_leaves also same

end Shape

def shapeOf (leaves : List α) : Option (Shape α) := root .fork (leaves.map .leaf)

/-- At every level, an odd last node counts twice. -/
def padded (leaves : List α) : List α :=
  (root (· ++ ·) (leaves.map fun value => [value])).getD []

variable {leaves : List α}

theorem shapeOf_perfect {shape : Shape α} (made : shapeOf leaves = some shape) :
    ∃ height, shape.Perfect height := by
  -- All nodes of a level have the same height, and the next level is one higher.
  have levels : ∀ (height : Nat) (nodes : List (Shape α)), (∀ node ∈ nodes, node.Perfect height) →
      ∀ node ∈ level Shape.fork nodes, node.Perfect (height + 1) := by
    intro height nodes all
    induction nodes using level.induct with
    | case1 left right rest ih =>
      intro node member
      rcases List.mem_cons.mp member with rfl | member
      · exact ⟨all left (by simp), all right (by simp)⟩
      · exact ih (fun node member => all node (by simp [member])) node member
    | case2 last =>
      intro node member
      obtain rfl := List.mem_singleton.mp member
      exact ⟨all last (by simp), all last (by simp)⟩
    | case3 => exact fun node member => by cases member
  have climbs : ∀ (steps height : Nat) (nodes : List (Shape α)),
      (∀ node ∈ nodes, node.Perfect height) →
      ∃ top, ∀ node ∈ climb Shape.fork steps nodes, node.Perfect top := by
    intro steps
    induction steps with
    | zero => exact fun height nodes all => ⟨height, all⟩
    | succ steps ih =>
      intro height nodes all
      simp only [climb]
      split
      · exact ih (height + 1) _ (levels height nodes all)
      · exact ⟨height, all⟩
  obtain ⟨top, all⟩ := climbs (leaves.map Shape.leaf).length 0 (leaves.map .leaf) (by
    intro node member
    obtain ⟨value, -, rfl⟩ := List.mem_map.mp member
    trivial)
  exact ⟨top, all shape (List.mem_of_mem_head? made)⟩

theorem padded_shapeOf (leaves : List α) :
    padded leaves = ((shapeOf leaves).map Shape.leaves).getD [] := by
  have roots : (shapeOf leaves).map Shape.leaves = root (· ++ ·) ((leaves.map Shape.leaf).map
      Shape.leaves) := root_map (fun _ _ => rfl) _
  rw [roots, List.map_map]
  rfl

theorem padded_eq_iff (leaves others : List α) :
    padded leaves = padded others ↔ shapeOf leaves = shapeOf others := by
  -- Perfect trees are nonempty, and determined by their leaves.
  have nonempty : ∀ {leaves : List α} {shape : Shape α}, shapeOf leaves = some shape →
      shape.leaves ≠ [] := by
    intro leaves shape made empty
    obtain ⟨height, perfect⟩ := shapeOf_perfect made
    have count := perfect.leaves_length
    have positive := Nat.two_pow_pos height
    rw [empty, List.length_nil] at count
    omega
  rw [padded_shapeOf, padded_shapeOf]
  cases made : shapeOf leaves with
  | none =>
    cases also : shapeOf others with
    | none => simp
    | some other => simp [(nonempty also).symm]
  | some shape =>
    cases also : shapeOf others with
    | none => simp [nonempty made]
    | some other =>
      obtain ⟨height, perfect⟩ := shapeOf_perfect made
      obtain ⟨height', perfect'⟩ := shapeOf_perfect also
      simp only [Option.map_some, Option.getD_some, Option.some.injEq]
      exact ⟨perfect.ext perfect', fun same => by rw [same]⟩

theorem padded_climb (leaves : List α) :
    padded leaves =
      (climb (· ++ ·) leaves.length (leaves.map fun value => [value])).flatten := by
  rcases Nat.eq_zero_or_pos leaves.length with empty | nonempty
  · rw [List.length_eq_zero_iff.mp empty]
    rfl
  · -- The climb ends in a single node.
    have single := climb_single (δ := List α) (· ++ ·) leaves.length
      (leaves.map fun value => [value]) (by simpa using nonempty) (by simp)
    obtain ⟨top, only⟩ := List.length_eq_one_iff.mp single
    simp [padded, root, only]

theorem flatten_prefix_level (nodes : List (List α)) :
    nodes.flatten <+: (level (· ++ ·) nodes).flatten := by
  induction nodes using level.induct with
  | case1 left right rest ih =>
    simp only [level, List.flatten_cons, ← List.append_assoc]
    exact (List.prefix_append_right_inj _).mpr ih
  | case2 last => simp [level]
  | case3 => exact List.prefix_rfl

theorem prefix_padded (leaves : List α) : leaves <+: padded leaves := by
  have climbs : ∀ (height : Nat) (nodes : List (List α)),
      nodes.flatten <+: (climb (· ++ ·) height nodes).flatten := by
    intro height
    induction height with
    | zero => exact fun nodes => List.prefix_rfl
    | succ height ih =>
      intro nodes
      simp only [climb]
      split
      · exact (flatten_prefix_level nodes).trans (ih _)
      · exact List.prefix_rfl
  have singles : (leaves.map fun value => [value]).flatten = leaves := by
    induction leaves with
    | nil => rfl
    | cons value rest ih => simpa using ih
  rw [padded_climb]
  have reached := climbs leaves.length (leaves.map fun value => [value])
  rwa [singles] at reached

theorem mem_of_mem_padded {value : α} (member : value ∈ padded leaves) :
    value ∈ leaves := by
  have levels : ∀ nodes : List (List α), value ∈ (level (· ++ ·) nodes).flatten →
      value ∈ nodes.flatten := by
    intro nodes
    induction nodes using level.induct with
    | case1 left right rest ih =>
      intro member
      simp only [level, List.flatten_cons, List.mem_append] at member ⊢
      rcases member with (member | member) | member
      · exact .inl member
      · exact .inr (.inl member)
      · exact .inr (.inr (ih member))
    | case2 last => simp [level]
    | case3 => exact id
  have climbs : ∀ (height : Nat) (nodes : List (List α)),
      value ∈ (climb (· ++ ·) height nodes).flatten → value ∈ nodes.flatten := by
    intro height
    induction height with
    | zero => exact fun nodes => id
    | succ height ih =>
      intro nodes member
      simp only [climb] at member
      split at member
      · exact levels nodes (ih _ member)
      · exact member
  rw [padded_climb] at member
  simpa using climbs _ _ member

theorem padded_inj_of_length {others : List α} (length : leaves.length = others.length)
    (same : padded leaves = padded others) : leaves = others := by
  have first := prefix_padded leaves
  rw [same] at first
  exact (List.prefix_of_prefix_length_le first (prefix_padded others)
    (Nat.le_of_eq length)).eq_of_length length

theorem padded_inj_of_nodup {others : List α} (distinct : leaves.Nodup) (also : others.Nodup)
    (same : padded leaves = padded others) : leaves = others := by
  -- The shorter list begins the longer one, and the rest could only repeat its leaves.
  have shorter : ∀ {first second : List α}, second.Nodup → padded first = padded second →
      first.length ≤ second.length → first = second := by
    intro first second distinct same bound
    have begins := prefix_padded first
    rw [same] at begins
    obtain ⟨rest, joined⟩ := List.prefix_of_prefix_length_le begins (prefix_padded second) bound
    cases rest with
    | nil => simpa using joined
    | cons extra rest =>
      have inSecond : extra ∈ second := by simp [← joined]
      have inFirst : extra ∈ first := by
        apply mem_of_mem_padded
        rw [same]
        exact (prefix_padded second).subset inSecond
      rw [← joined] at distinct
      exact absurd rfl ((List.nodup_append.mp distinct).2.2 extra inFirst extra (by simp))
  rcases Nat.le_total leaves.length others.length with bound | bound
  · exact shorter also same bound
  · exact (shorter distinct same.symm bound).symm

namespace Hashing

variable (hashing : Hashing α δ μ)

def digestOf : Shape α → δ
  | .leaf value => hashing.leaf value
  | .fork left right => hashing.node (digestOf left) (digestOf right)

def shapeMessages : Shape α → List μ
  | .leaf value => [hashing.leafMessage value]
  | .fork left right =>
    hashing.nodeMessage (hashing.digestOf left) (hashing.digestOf right) ::
      (shapeMessages left ++ shapeMessages right)

/-- Messages determine their parts, and leaves are no nodes. -/
structure Committing : Prop extends Binding hashing where
  leaf_ne_node : ∀ value left right,
    hashing.leafMessage value ≠ hashing.nodeMessage left right

theorem rootOf_shapeOf (leaves : List α) :
    hashing.rootOf leaves = (shapeOf leaves).map hashing.digestOf := by
  have roots : (shapeOf leaves).map hashing.digestOf =
      root hashing.node ((leaves.map Shape.leaf).map hashing.digestOf) :=
    root_map (fun _ _ => rfl) _
  rw [roots, List.map_map]
  rfl

theorem shapeMessages_hashed {leaves : List α} {shape : Shape α}
    (made : shapeOf leaves = some shape) :
    ∀ message ∈ hashing.shapeMessages shape, message ∈ hashing.messages leaves := by
  -- A tree of the next level adds the message of its fork to those of its parts.
  have levels : ∀ nodes : List (Shape α), ∀ node ∈ level Shape.fork nodes,
      ∀ message ∈ hashing.shapeMessages node,
        message ∈ hashing.levelMessages (nodes.map hashing.digestOf) ∨
          ∃ part ∈ nodes, message ∈ hashing.shapeMessages part := by
    intro nodes
    induction nodes using level.induct with
    | case1 left right rest ih =>
      intro node member message hashed
      rcases List.mem_cons.mp member with rfl | member
      · simp only [shapeMessages, List.mem_cons, List.mem_append] at hashed
        rcases hashed with rfl | hashed | hashed
        · exact .inl (by simp [levelMessages])
        · exact .inr ⟨left, by simp, hashed⟩
        · exact .inr ⟨right, by simp, hashed⟩
      · rcases ih node member message hashed with above | ⟨part, inside, below⟩
        · exact .inl (by simp [levelMessages, above])
        · exact .inr ⟨part, by simp [inside], below⟩
    | case2 last =>
      intro node member message hashed
      obtain rfl := List.mem_singleton.mp member
      simp only [shapeMessages, List.mem_cons, List.mem_append, or_self] at hashed
      rcases hashed with rfl | hashed
      · exact .inl (by simp [levelMessages])
      · exact .inr ⟨last, by simp, hashed⟩
    | case3 => exact fun node member => by cases member
  have climbs : ∀ (height : Nat) (nodes : List (Shape α)),
      ∀ node ∈ climb Shape.fork height nodes, ∀ message ∈ hashing.shapeMessages node,
        message ∈ hashing.climbMessages height (nodes.map hashing.digestOf) ∨
          ∃ part ∈ nodes, message ∈ hashing.shapeMessages part := by
    intro height
    induction height with
    | zero => exact fun nodes node member message hashed => .inr ⟨node, member, hashed⟩
    | succ height ih =>
      intro nodes node member message hashed
      by_cases higher : nodes.length > 1
      · have alsoHigher : (nodes.map hashing.digestOf).length > 1 := by simpa using higher
        rw [climb, if_pos higher] at member
        rw [climbMessages, if_pos alsoHigher, List.mem_append]
        have lifted : (level Shape.fork nodes).map hashing.digestOf =
            level hashing.node (nodes.map hashing.digestOf) := level_map (fun _ _ => rfl) nodes
        rcases ih _ node member message hashed with above | ⟨part, inside, below⟩
        · rw [lifted] at above
          exact .inl (.inr above)
        · rcases levels nodes part inside message below with above | below
          · exact .inl (.inl above)
          · exact .inr below
      · rw [climb, if_neg higher] at member
        exact .inr ⟨node, member, hashed⟩
  intro message hashed
  have digests : (leaves.map Shape.leaf).map hashing.digestOf = leaves.map hashing.leaf := by
    rw [List.map_map]
    rfl
  have found := climbs (leaves.map Shape.leaf).length (leaves.map .leaf) shape
    (List.mem_of_mem_head? made) message hashed
  rw [digests, List.length_map] at found
  rw [messages, List.mem_append]
  rcases found with above | ⟨part, inside, below⟩
  · exact .inr above
  · obtain ⟨value, member, rfl⟩ := List.mem_map.mp inside
    obtain rfl := List.mem_singleton.mp below
    exact .inl (List.mem_map.mpr ⟨value, member, rfl⟩)

theorem digestOf_digest (shape : Shape α) :
    ∃ message, hashing.digest message = hashing.digestOf shape := by
  cases shape with
  | leaf value => exact ⟨_, rfl⟩
  | fork left right => exact ⟨_, rfl⟩

variable {hashing}

theorem digestOf_inj (committing : hashing.Committing) {shape other : Shape α}
    (free : hashing.CollisionFree (hashing.shapeMessages shape ++ hashing.shapeMessages other))
    (same : hashing.digestOf shape = hashing.digestOf other) : shape = other := by
  -- The two top messages are equal, so both are leaves or both are forks of equal digests.
  induction shape generalizing other with
  | leaf value =>
    cases other with
    | leaf value' =>
      have messages := free _ (by simp [shapeMessages]) _ (by simp [shapeMessages]) same
      rw [committing.leaf_inj value value' messages]
    | fork left right =>
      have messages := free (hashing.leafMessage value) (by simp [shapeMessages])
        (hashing.nodeMessage (hashing.digestOf left) (hashing.digestOf right))
        (by simp [shapeMessages]) same
      exact absurd messages (committing.leaf_ne_node _ _ _)
  | fork left right ihLeft ihRight =>
    cases other with
    | leaf value =>
      have messages := free (hashing.nodeMessage (hashing.digestOf left) (hashing.digestOf right))
        (by simp [shapeMessages]) (hashing.leafMessage value) (by simp [shapeMessages]) same
      exact absurd messages.symm (committing.leaf_ne_node _ _ _)
    | fork left' right' =>
      have tops := free (hashing.nodeMessage (hashing.digestOf left) (hashing.digestOf right))
        (by simp [shapeMessages])
        (hashing.nodeMessage (hashing.digestOf left') (hashing.digestOf right'))
        (by simp [shapeMessages]) same
      obtain ⟨a, first⟩ := hashing.digestOf_digest left
      obtain ⟨b, second⟩ := hashing.digestOf_digest right
      obtain ⟨c, third⟩ := hashing.digestOf_digest left'
      obtain ⟨d, fourth⟩ := hashing.digestOf_digest right'
      rw [← first, ← second, ← third, ← fourth] at tops
      obtain ⟨lefts, rights⟩ := committing.node_inj a b c d tops
      rw [first, third] at lefts
      rw [second, fourth] at rights
      have leftFree : hashing.CollisionFree
          (hashing.shapeMessages left ++ hashing.shapeMessages left') := by
        refine free.mono fun message member => ?_
        rcases List.mem_append.mp member with member | member <;> simp [shapeMessages, member]
      have rightFree : hashing.CollisionFree
          (hashing.shapeMessages right ++ hashing.shapeMessages right') := by
        refine free.mono fun message member => ?_
        rcases List.mem_append.mp member with member | member <;> simp [shapeMessages, member]
      rw [ihLeft leftFree lefts, ihRight rightFree rights]

/-- Without collisions, roots are equal exactly if the padded leaves are. -/
theorem rootOf_eq_iff (committing : hashing.Committing) {leaves others : List α}
    (free : hashing.CollisionFree (hashing.messages leaves ++ hashing.messages others)) :
    hashing.rootOf leaves = hashing.rootOf others ↔ padded leaves = padded others := by
  rw [padded_eq_iff, rootOf_shapeOf, rootOf_shapeOf]
  cases made : shapeOf leaves with
  | none => cases also : shapeOf others <;> simp
  | some shape =>
    cases also : shapeOf others with
    | none => simp
    | some other =>
      simp only [Option.map_some, Option.some.injEq]
      refine ⟨fun same => digestOf_inj committing ?_ same, fun same => by rw [same]⟩
      refine free.mono fun message member => ?_
      rcases List.mem_append.mp member with member | member
      · exact List.mem_append_left _ (hashing.shapeMessages_hashed made message member)
      · exact List.mem_append_right _ (hashing.shapeMessages_hashed also message member)

end Hashing

end Hsm.Merkle
